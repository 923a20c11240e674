import EntityMapping.Proofs.SettledRuns

/-!
Compiling a registry whose entities are listed in another order. Where the keys that relationships
add are settled and agree, and no back reference depends on another one, the order does not matter:
a compilation succeeds in every order or in none, and its models are the same. Otherwise it may: an
entity that is composed of one with an added key has that key or lacks it, as it is compiled after
the key was written or before.
-/

set_option autoImplicit false
set_option relaxedAutoImplicit false

namespace EntityMapping

open Keyed (Distinct)

namespace Registry

open Compilation

variable {registry other base target : Registry} {config : Config} {name : String}
  {first second third additions : String → Additions}

theorem SameBackrefs.symm (same : SameBackrefs first second) : SameBackrefs second first :=
  fun name => (same name).symm

theorem SameBackrefs.trans (one : SameBackrefs first second) (two : SameBackrefs second third) :
    SameBackrefs first third := fun name => (one name).trans (two name)

/-- Whether all entities can be compiled is a question of the back references that are added, not of
their order. -/
theorem CompilesAll.of_sameBackrefs (compiles : base.CompilesAll config first)
    (same : SameBackrefs first second) : base.CompilesAll config second where
  tables := compiles.tables
  each name member := by
    obtain ⟨model, valid, linkable⟩ := compiles.each name member
    refine ⟨model, fun validated given isGiven additions registry schema moment sameToo registered => ?_,
      linkable⟩
    exact valid validated given isGiven additions registry schema moment (same.trans sameToo) registered

theorem Moment.mem_names (moment : base.Moment additions registry) :
    name ∈ registry.names ↔ name ∈ base.names := by
  rw [← not_iff_not, names, names, ← Keyed.get?_eq_none_iff, ← Keyed.get?_eq_none_iff]
  change registry.get? name = none ↔ base.get? name = none
  rw [moment.get?, Option.map_eq_none_iff]

section Prepared

variable (wasPrepared : (prepared config target).1 = .ok ())
  (started : base.Moment first (prepared config target).2.registry) (keyed : base.WellKeyed)
  (settled : base.KeysSettled) (agree : base.KeysAgree)
  (nodup : (prepared config target).2.registry.names.Nodup)

include wasPrepared started keyed settled agree nodup

/-- A prepared registry is compiled exactly if all entities can be compiled as the registry that it
dresses is given. -/
theorem exists_compile_iff : (∃ result, (target.compile config).1 = .ok result) ↔
    base.CompilesAll config first := by
  rw [← exists_run_iff started keyed settled agree nodup fun name => started.mem_names,
    ← prepared_eq_start]
  constructor
  · rintro ⟨result, succeeded⟩
    obtain ⟨-, after, ran, -⟩ := compile_eq_ok_iff.mp (Prod.ext succeeded rfl)
    exact ⟨after, ran⟩
  · rintro ⟨after, ran⟩
    have compiled := compile_eq_ok_iff.mpr ⟨wasPrepared, after, ran, rfl, rfl⟩
    exact ⟨_, congrArg Prod.fst compiled⟩

omit wasPrepared in
/-- What a prepared registry compiles to can be told as the registry that it dresses is given. -/
theorem isFinal_of_compile {result : CompiledSchema}
    (compiled : (target.compile config).1 = .ok result) (name : String) :
    ∃ given, base.modelOf? name = .ok given ∧
      Option.Rel (base.IsFinal (prepared config target).2.registry name) given
        (result.model? name) := by
  obtain ⟨-, after, ran, rfl, -⟩ := compile_eq_ok_iff.mp (Prod.ext compiled rfl)
  rw [prepared_eq_start] at ran
  exact isFinal_of_run started keyed settled agree nodup (fun name => started.mem_names) ran name

end Prepared

theorem Reorders.placed (reorders : registry.Reorders other) (config : Config) :
    (placed config registry).Reorders (placed config other) where
  entries := by
    rw [placed_entries, placed_entries]
    exact reorders.entries
  place := by
    unfold Compilation.placed
    split
    · rfl
    · exact reorders.place
  documents := by
    rw [placed_documents, placed_documents]
    exact reorders.documents

/-- Passes in two orders lead to moments with the same back references. -/
theorem Reorders.moments {groups others : BackrefGroups} {next nextToo : Registry}
    (reorders : base.Reorders other) (keyed : base.WellKeyed) (references : base.RefersLocally)
    (apart : base.BackrefsApart) (pass : base.BackrefPass groups first next)
    (passToo : other.BackrefPass others second nextToo) :
    base.Moment first next ∧ base.Moment second nextToo ∧ SameBackrefs first second := by
  refine ⟨⟨pass.dresses, pass.admits references⟩,
    ⟨reorders.dresses_of keyed passToo.dresses, ?_, ?_, ?_⟩, fun name => ?_⟩
  · intro name isSome
    obtain ⟨missing, missingToo, -, isAdded, -, -, implied, same⟩ :=
      reorders.exists_missing keyed apart pass passToo name
    cases missingToo with
    | nil => exact absurd (isAdded ▸ rfl) isSome
    | cons field rest =>
      have found := (same field.1).trans (by rw [Keyed.get?_cons, if_pos rfl])
      exact (implied _ (Keyed.mem_of_get? found)).isObjectEntity references
  · intro name fields isSome
    exact (passToo.admits (reorders.refersLocally references)).distinct name fields isSome
  · intro name key member
    rw [passToo.noKeys name] at member
    cases member
  · obtain ⟨missing, missingToo, isAdded, isAddedToo, distinct, distinctToo, -, same⟩ :=
      reorders.exists_missing keyed apart pass passToo name
    have sameLength := Keyed.length_eq_of_get? distinct distinctToo same
    rw [isAdded, isAddedToo]
    cases missing with
    | nil =>
      obtain rfl := List.length_eq_zero_iff.mp sameLength.symm
      exact .same fun fields isSome => by cases isSome
    | cons field rest =>
      cases missingToo with
      | nil => simp at sameLength
      | cons other later => exact .objects distinct distinctToo same

/-- A registry that is prepared in one order is prepared in another, to a moment with the same back
references. -/
theorem Reorders.prepared (reorders : registry.Reorders other) (keyed : registry.WellKeyed)
    (references : registry.RefersLocally)
    (apart : config.processBackrefs = true → (Compilation.placed config registry).BackrefsApart)
    (wasPrepared : (Compilation.prepared config registry).1 = .ok ()) :
    (Compilation.prepared config other).1 = .ok () ∧ ∃ first second,
      (Compilation.placed config registry).Moment first
        (Compilation.prepared config registry).2.registry ∧
      (Compilation.placed config registry).Moment second
        (Compilation.prepared config other).2.registry ∧ SameBackrefs first second := by
  have keyedPlaced := wellKeyed_placed keyed config
  have referencesPlaced := refersLocally_placed references config
  have placed := reorders.placed config
  rw [prepared_eq] at wasPrepared ⊢
  rw [prepared_eq]
  by_cases process : config.processBackrefs = true
  · rw [if_pos process] at wasPrepared ⊢
    rw [if_pos process]
    have added : (Compilation.placed config registry).addAllBackrefs =
        ((Compilation.placed config registry).addAllBackrefs.1, .ok ()) := Prod.ext rfl wasPrepared
    obtain ⟨nextToo, addedToo, -⟩ :=
      placed.addAllBackrefs keyedPlaced referencesPlaced (apart process) added
    obtain ⟨groups, first, pass⟩ := backrefPass_of_addAllBackrefs referencesPlaced added
    obtain ⟨others, second, passToo⟩ :=
      backrefPass_of_addAllBackrefs (placed.refersLocally referencesPlaced) addedToo
    rw [addedToo]
    exact ⟨rfl, first, second,
      placed.moments keyedPlaced referencesPlaced (apart process) pass passToo⟩
  · rw [if_neg process]
    rw [if_neg process]
    have moment : (Compilation.placed config registry).Moment (fun _ => .nothing)
        (Compilation.placed config registry) := ⟨.refl _, .nothing _⟩
    have momentToo : (Compilation.placed config registry).Moment (fun _ => .nothing)
        (Compilation.placed config other) := ⟨placed.dresses keyedPlaced, .nothing _⟩
    exact ⟨rfl, _, _, moment, momentToo, moment.admits.sameBackrefs fun _ => rfl⟩

end Registry

/-- Models with the same artifacts and the same back references, whatever their order. -/
structure Model.Matches (one other : Model) : Prop where
  artifacts : ∀ artifact, artifact ∈ one.artifacts ↔ artifact ∈ other.artifacts
  backrefs : ∀ key, Keyed.get? one.backrefs key = Keyed.get? other.backrefs key

theorem Model.Matches.hasProperty {one other : Model} (same : one.Matches other) (name : String) :
    one.hasProperty name = other.hasProperty name := by
  rw [Bool.eq_iff_iff, hasProperty_iff, hasProperty_iff]
  simp only [Keyed.keys, List.mem_map, same.artifacts]

namespace Registry

open Compilation

variable {registry other : Registry} {config : Config}

/-- The order of the entities is irrelevant to what is compiled, if the keys that relationships add
are settled and agree and, where back references are processed, no entity is composed of one with an
implied property of the same name: it compiles in both orders or in neither, and to models that
match. -/
theorem compile_perm (keyed : registry.WellKeyed) (references : registry.RefersLocally)
    (reorders : registry.Reorders other) (settled : (placed config registry).KeysSettled)
    (agree : (placed config registry).KeysAgree)
    (apart : config.processBackrefs = true → (placed config registry).BackrefsApart) :
    ((∃ result, (registry.compile config).1 = .ok result) ↔
      ∃ result, (other.compile config).1 = .ok result) ∧
    ∀ result another, (registry.compile config).1 = .ok result →
      (other.compile config).1 = .ok another → ∀ name,
      Option.Rel Model.Matches (result.model? name) (another.model? name) := by
  have keyedToo := reorders.wellKeyed keyed
  have keyedPlaced := wellKeyed_placed keyed config
  have apartToo : config.processBackrefs = true → (placed config other).BackrefsApart :=
    fun process => (reorders.placed config).backrefsApart keyedPlaced (apart process)
  have nodup : ∀ {target : Registry}, target.WellKeyed →
      (prepared config target).2.registry.names.Nodup := by
    intro target keyed
    rw [(extends_prepared target config).names]
    exact keyed.entries
  have wasPrepared : ∀ {target : Registry} {result}, (target.compile config).1 = .ok result →
      (prepared config target).1 = .ok () := by
    intro target result compiled
    exact (compile_eq_ok_iff.mp (Prod.ext compiled rfl)).1
  have preparedBoth : (prepared config registry).1 = .ok () ↔ (prepared config other).1 = .ok () :=
    ⟨fun one => (reorders.prepared keyed references apart one).1, fun two =>
      (reorders.symm.prepared keyedToo (reorders.refersLocally references) apartToo two).1⟩
  have succeeds : (prepared config registry).1 = .ok () →
      ((∃ result, (registry.compile config).1 = .ok result) ↔
        ∃ result, (other.compile config).1 = .ok result) := by
    intro one
    obtain ⟨two, first, second, moment, momentToo, same⟩ :=
      reorders.prepared keyed references apart one
    rw [exists_compile_iff one moment keyedPlaced settled agree (nodup keyed),
      exists_compile_iff two momentToo keyedPlaced settled agree (nodup keyedToo)]
    exact ⟨fun all => all.of_sameBackrefs same, fun all => all.of_sameBackrefs same.symm⟩
  refine ⟨⟨fun ⟨result, compiled⟩ => ?_, fun ⟨another, compiled⟩ => ?_⟩, ?_⟩
  · exact (succeeds (wasPrepared compiled)).mp ⟨result, compiled⟩
  · exact (succeeds (preparedBoth.mpr (wasPrepared compiled))).mpr ⟨another, compiled⟩
  · intro result another compiled compiledToo name
    obtain ⟨-, first, second, moment, momentToo, same⟩ :=
      reorders.prepared keyed references apart (wasPrepared compiled)
    obtain ⟨given, isGiven, final⟩ :=
      isFinal_of_compile moment keyedPlaced settled agree (nodup keyed) compiled name
    obtain ⟨_, isGivenToo, finalToo⟩ :=
      isFinal_of_compile momentToo keyedPlaced settled agree (nodup keyedToo) compiledToo name
    obtain rfl := Except.ok.inj (isGiven.symm.trans isGivenToo)
    have backrefs := moment.backrefsOf momentToo keyedPlaced settled same name
    cases given with
    | none =>
      generalize result.model? name = made at final
      generalize another.model? name = madeToo at finalToo
      cases final
      cases finalToo
      exact .none
    | some given =>
      generalize result.model? name = made at final
      generalize another.model? name = madeToo at finalToo
      cases final with
      | some final =>
      cases finalToo with
      | some finalToo =>
      exact .some ⟨fun artifact => (final.artifacts artifact).trans (finalToo.artifacts artifact).symm,
        fun key => (final.backrefs key).trans ((backrefs key).trans (finalToo.backrefs key).symm)⟩

theorem shelf_keysAgree : shelf.KeysAgree where
  agreeing holder property entity relationship another other needs needsToo := by
    obtain ⟨rfl, rfl⟩ := shelf_relates needs.1
    obtain ⟨rfl, rfl⟩ := shelf_relates needsToo.1
    rfl
  notRequired holder property fields schema own adds registered ownFound := by
    obtain ⟨rfl, rfl, -⟩ := shelf_addsKey adds
    have text : shelf.ownSchema "Text" unkeyedText = .ok ⟨none, [("type", .str "object"),
        ("x-tablename", .str "text"), ("properties", .obj [("id", identifier)])]⟩ := by cbv
    obtain rfl : unkeyedText = schema := Option.some.inj registered
    obtain rfl := Except.ok.inj (text.symm.trans ownFound)
    decide

/-- Authors and their texts compile to the same in both orders. In the library an order matters:
novels have the key of texts if they come after them. -/
theorem compile_perm_shelf :
    let turned := fun registry : Registry =>
      { registry with entries := registry.entries.rotate 1 }
    (shelf.compile Config.usual).1 = .ok shelfModels ∧
      (∃ another, ((turned shelf).compile Config.usual).1 = .ok another ∧
        ∀ name, Option.Rel Model.Matches (shelfModels.model? name) (another.model? name)) ∧
      (library.compile Config.usual).1 = .ok libraryModels ∧
      ((turned library).compile Config.usual).1.map (fun compiled =>
        (compiled.model? "Novel").map fun novel => novel.hasProperty "author_id") =
          .ok (some true) ∧
      ¬ (library.KeysSettled ∧ library.KeysAgree ∧ library.BackrefsApart) := by
  intro turned
  have reorders : ∀ registry : Registry, registry.Reorders (turned registry) := fun registry =>
    ⟨(List.rotate_perm _ _).symm, rfl, rfl⟩
  have shelfKeyed : shelf.WellKeyed := wellKeyed_of_entries (by decide) (by decide +kernel)
  have shelfReferences : shelf.RefersLocally := by decide +kernel
  have libraryKeyed : library.WellKeyed := wellKeyed_of_entries (by decide) (by decide +kernel)
  have libraryReferences : library.RefersLocally := by decide +kernel
  have compiled : (shelf.compile Config.usual).1 = .ok shelfModels := by cbv
  have compiledLibrary : (library.compile Config.usual).1 = .ok libraryModels := by cbv
  have hasKey : ((turned library).compile Config.usual).1.map (fun compiled =>
      (compiled.model? "Novel").map fun novel => novel.hasProperty "author_id") =
        .ok (some true) := by cbv
  refine ⟨compiled, ?_, compiledLibrary, hasKey, ?_⟩
  · have settled : (placed Config.usual shelf).KeysSettled := shelf_keysSettled
    obtain ⟨succeeds, areSame⟩ := compile_perm shelfKeyed shelfReferences (reorders shelf) settled
      shelf_keysAgree (fun _ => shelf_isPlain.backrefsApart)
    obtain ⟨another, compiledToo⟩ := succeeds.mp ⟨_, compiled⟩
    exact ⟨another, compiledToo, areSame _ _ compiled compiledToo⟩
  · rintro ⟨settled, agree, apart⟩
    have settledPlaced : (placed Config.usual library).KeysSettled := settled
    obtain ⟨succeeds, areSame⟩ := compile_perm libraryKeyed libraryReferences (reorders library)
      settledPlaced agree (fun _ => apart)
    obtain ⟨another, compiledToo⟩ := succeeds.mp ⟨_, compiledLibrary⟩
    rw [compiledToo] at hasKey
    have novels := areSame _ _ compiledLibrary compiledToo "Novel"
    have lacksKey : (libraryModels.model? "Novel").map (fun novel => novel.hasProperty "author_id") =
        some false := by cbv
    have hasKeyToo : (another.model? "Novel").map (fun novel => novel.hasProperty "author_id") =
        some true := Except.ok.inj hasKey
    generalize libraryModels.model? "Novel" = novel at novels lacksKey
    generalize another.model? "Novel" = novelToo at novels hasKeyToo
    cases novels with
    | none => cases lacksKey
    | some novels =>
      have same := (Option.some.inj lacksKey).symm.trans (novels.hasProperty "author_id")
      cases same.trans (Option.some.inj hasKeyToo)

end Registry

end EntityMapping
