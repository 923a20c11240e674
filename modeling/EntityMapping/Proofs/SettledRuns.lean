import EntityMapping.Proofs.RepeatedCompilation
import EntityMapping.Proofs.SettledProgress

/-!
Runs over a registry with settled keys that agree. An entity is compiled at whatever moment exactly
if it can be as the registry is given, so a run succeeds exactly if all entities can be. In the end
every model has what it has as the registry is given, and all keys that relationships add to it.
-/

set_option autoImplicit false
set_option relaxedAutoImplicit false

namespace EntityMapping

open Registry (Moment Later SameBackrefs OwnDressed OwnSchema ownSchema_eq_ok)

namespace Registry

variable {base registry : Registry} {name : String} {schema : Json} {own : OwnSchema}
  {additions first second : String → Additions} {relationship : Relationship}

theorem Relates.mem_names (relates : base.Relates name relationship) : name ∈ base.names := by
  obtain ⟨schema, -, -, -, -, registered, -⟩ := relates
  exact Keyed.mem_keys_of_get? registered

/-- An entity is valid at every moment at which the same back references have been added. -/
def ValidWith (base : Registry) (first : String → Additions) (name : String) : Prop :=
  ∀ additions registry schema, base.Moment additions registry → SameBackrefs first additions →
    base.get? name = some schema →
    registry.validateEntity name ((additions name).apply schema) = .ok ()

/-- An entity can be compiled as the registry is given. -/
structure Compiles (base : Registry) (config : Config) (first : String → Additions)
    (name : String) : Prop where
  model : ∃ given, base.modelOf? name = .ok given
  valid : config.validateExtensions = true →
    ∀ given, base.modelOf? name = .ok (some given) → base.ValidWith first name
  linkable : ∀ relationship, base.Relates name relationship → base.Linkable name relationship

/-- All entities can be compiled as the registry is given, and tables of one name are the same. -/
structure CompilesAll (base : Registry) (config : Config) (first : String → Additions) : Prop where
  tables : base.TablesAgree
  each : ∀ name ∈ base.names, base.Compiles config first name

/-- A model of a whole run: what the entity has as the registry is given, all keys that
relationships add to it, and the back references that it had when the run began. -/
structure IsFinal (base start : Registry) (name : String) (given made : Model) : Prop where
  artifacts : ∀ artifact, artifact ∈ made.artifacts ↔
    artifact ∈ given.artifacts ∨ base.IsKeyColumn name artifact
  backrefs : ∀ key, Keyed.get? made.backrefs key = Keyed.get? (start.backrefsOf name) key

/-- What a model has under the name of an added key is the column of the key. -/
theorem WithKeys.mem_of_isKeyColumn {keys : List String} {given made : Model}
    {artifact : String × PropertyArtifacts} (withKeys : base.WithKeys keys given made)
    (agree : base.KeysAgree) (isGiven : base.modelOf? name = .ok (some given))
    (isKey : base.IsKeyColumn name artifact) (has : made.hasProperty artifact.1 = true) :
    artifact ∈ made.artifacts := by
  obtain ⟨property, isArtifact⟩ := artifact
  obtain ⟨fields, column, adds, isColumn, rfl⟩ := isKey
  obtain ⟨⟨_, other⟩, inMade, rfl⟩ := List.mem_map.mp (Model.hasProperty_iff.mp has)
  rcases withKeys.only _ inMade with isGivenHere | ⟨fields', column', adds', isColumn', same⟩
  · have isDeclared := declared_of_modelOf? isGiven _ (List.mem_map.mpr ⟨_, isGivenHere, rfl⟩)
    exact absurd isDeclared adds.isMissing.notDeclared
  · rw [Compilation.name_of_modelOf? isGiven] at adds'
    obtain rfl := agree.addsKey_unique adds adds'
    obtain rfl := Except.ok.inj (isColumn.symm.trans isColumn')
    obtain rfl := same
    exact inMade

end Registry

namespace Compilation

variable {base start : Registry} {config : Config} {first additions more : String → Additions}
  {before after : Compilation} {name : String} {made : Option Model}

theorem not_built_iff {state : Compilation} :
    ¬ state.Built name ↔ ModelStore.get? state.store name = none := by
  simp [Built, ModelStore.isBuilt]

theorem Steps.not_built_of {names : List String} (steps : Steps names before after)
    (other : name ∉ names) (notBuilt : ¬ before.Built name) : ¬ after.Built name :=
  not_built_iff.mpr (steps.not_built other (not_built_iff.mp notBuilt))

/-- Compiling an entity leaves those that come later without a model. -/
theorem not_built_rest {rest : List String} (nodup : (name :: rest).Nodup)
    (notBuilt : ∀ other ∈ name :: rest, ¬ before.Built other)
    (compiled : (compileEntity config name).runOn before = (.ok made, after)) :
    ∀ other ∈ rest, ¬ (after.record made).Built other := by
  intro other member
  have different : other ∉ [name] := by
    intro isHere
    exact (List.nodup_cons.mp nodup).1 (List.mem_singleton.mp isHere ▸ member)
  have steps : Steps [name] before after := (compileEntity_moves config name).steps compiled
  have recorded := steps.trans (record_steps compiled (List.mem_singleton_self _))
  exact Steps.not_built_of recorded different (notBuilt other (List.mem_cons_of_mem _ member))

/-- Recording the model of an entity that had none is progress. -/
theorem Progress.record {given built : Model}
    (progress : Progress base start first additions after) (notBuilt : ¬ after.Built name)
    (isGiven : base.modelOf? name = .ok (some given))
    (withKeys : base.WithKeys (Keyed.keys (additions name).keys) given built)
    (backrefs : ∀ key, Keyed.get? built.backrefs key = Keyed.get? (start.backrefsOf name) key) :
    Progress base start first additions (after.record (some built)) ∧
      Ahead additions additions after (after.record (some built)) ∧
      (after.record (some built)).Built name := by
  have sameName : built.name = name := withKeys.name.trans (name_of_modelOf? isGiven)
  have absent := not_built_iff.mp notBuilt
  refine ⟨⟨progress.moment, progress.backrefs, ?_, progress.tables⟩,
    ⟨.refl _ _, fun other isBuilt => isBuilt.record _, ?_, List.prefix_refl _⟩,
    sameName ▸ built_record⟩
  · intro other model found
    change ModelStore.get? (ModelStore.add after.store built) other = some model at found
    rw [ModelStore.get?_add] at found
    split at found
    · rename_i isHere
      obtain rfl := Option.some.inj found
      obtain rfl : other = name := isHere.trans sameName
      exact ⟨given, isGiven, withKeys, backrefs⟩
    · exact progress.models other model found
  · intro other property has
    have different : other ≠ built.name := by
      rintro rfl
      rw [ModelStore.hasProperty, sameName, absent] at has
      cases has
    change ModelStore.hasProperty (ModelStore.add after.store built) other property = true
    rw [ModelStore.hasProperty, ModelStore.get?_add, if_neg different]
    exact has

section Entity

variable (progress : Progress base start first additions before)
  (started : base.Moment first start) (keyed : base.WellKeyed) (settled : base.KeysSettled)
  (agree : base.KeysAgree)

include progress started keyed settled agree

omit started keyed settled agree in
/-- For an entity without a model there is nothing to do. -/
theorem Progress.withoutModel (noModel : base.modelOf? name = .ok none)
    (unrelated : ∀ relationship, ¬ base.Relates name relationship) :
    base.Compiles config first name ∧ ∃ more,
      Progress base start first more (before.record none) ∧
      Ahead additions more before (before.record none) ∧
      (∀ relationship, base.Relates name relationship →
        Linked base more (before.record none) name relationship) ∧
      ∀ given, base.modelOf? name = .ok (some given) → (before.record none).Built name := by
  have notGiven : ∀ given, base.modelOf? name ≠ .ok (some given) := by
    intro given isGiven
    cases noModel.symm.trans isGiven
  exact ⟨⟨⟨none, noModel⟩, fun _ given isGiven => absurd isGiven (notGiven given),
      fun relationship relates => absurd relates (unrelated relationship)⟩,
    additions, progress, .refl _ _, fun relationship relates => absurd relates (unrelated relationship),
    fun given isGiven => absurd isGiven (notGiven given)⟩

/-- What is left to do for an entity with a table is progress, and the entity has a model as the
registry is given. -/
theorem Progress.linkedModel {schema : Json} {own ownBefore : OwnSchema} {tablename : String}
    (notBuilt : ¬ after.Built name) (registered : base.get? name = some schema)
    (ownFound : base.ownSchema name schema = .ok own)
    (hasTable : own.keywords.tablename? = .ok (some tablename))
    (ownThen : before.registry.ownSchema name ((additions name).apply schema) = .ok ownBefore)
    (compiled : (linkedModel name tablename ((additions name).apply schema) ownBefore).runOn before =
      (.ok made, after)) :
    (∃ given, base.modelOf? name = .ok (some given)) ∧ ∃ more,
      Progress base start first more (after.record made) ∧
      Ahead additions more before (after.record made) ∧
      (∀ relationship, base.Relates name relationship → base.Linkable name relationship ∧
        Linked base more (after.record made) name relationship) ∧
      (after.record made).Built name := by
  have moment := progress.moment
  obtain ⟨_, -, -, ownToo, sameOwn, propertiesBefore, -⟩ :=
    moment.exists_ownSchema keyed settled registered ownFound
  obtain rfl := Except.ok.inj (ownThen.symm.trans ownToo)
  obtain ⟨properties, gathered, flat, built, propertiesFound, linked, flattened, builtFound, rfl⟩ :=
    linkedModel_eq_ok.mp compiled
  obtain rfl := Except.ok.inj (propertiesBefore.symm.trans propertiesFound)
  rw [linkProperties_keys ((moment.admits.keysApart settled).schemas name)] at linked
  have relates : ∀ {relationship}, base.Relates name relationship ↔ ∃ field ∈ base.declared name,
      base.gather? field.1 field.2 = .ok (some relationship) :=
    Registry.relates_iff registered ownFound hasTable
  obtain ⟨isGathered, more, next, ahead, linkedAll⟩ := progress.linkProperties keyed settled agree
    (Registry.isWellKeyed_declared keyed registered ownFound)
    (fun field member relationship found => relates.mpr ⟨field, member, found⟩) linked
  obtain ⟨other, flat', entryFound, otherFound, -, -, flattenedToo, sameFields⟩ :=
    next.moment.exists_ownSchema keyed settled registered ownFound
  rw [entryFound, Option.getD_some, ← sameOwn.1, flattenedToo] at flattened
  obtain rfl := Except.ok.inj flattened
  have models : Alike (fun given made => base.WithKeys (Keyed.keys (more name).keys) given made ∧
        made.backrefs = backrefsIn other.fields)
      (model base name tablename own.parent gathered own.fields)
      (model after.registry name tablename own.parent gathered other.fields) :=
    next.moment.model_alike keyed settled agree registered ownFound isGathered otherFound
  rw [← sameFields, sameOwn.1, builtFound] at models
  obtain ⟨given, givenFound, withKeys, backrefs⟩ := models.of_ok_right
  rw [← sameOwn.1] at givenFound
  have isGiven : base.modelOf? name = .ok (some given) := Registry.modelOf?_eq_ok.mpr
    (.inr ⟨schema, own, some tablename, registered, ownFound, hasTable, gathered, given, isGathered,
      givenFound, rfl⟩)
  have sameBackrefs : ∀ key,
      Keyed.get? built.backrefs key = Keyed.get? (start.backrefsOf name) key := by
    intro key
    have same := started.admits.sameBackrefs next.backrefs
    rw [backrefs, sameFields, ← Registry.backrefsOf_eq entryFound otherFound]
    exact (started.backrefsOf next.moment keyed settled same name key).symm
  obtain ⟨last, aheadLast, isBuilt⟩ := next.record notBuilt isGiven withKeys sameBackrefs
  refine ⟨⟨given, isGiven⟩, more, last, ahead.trans aheadLast, fun relationship isRelated => ?_,
    isBuilt⟩
  obtain ⟨field, member, found⟩ := relates.mp isRelated
  obtain ⟨linkable, linkedHere⟩ := linkedAll field member relationship found
  exact ⟨linkable, linkedHere.ahead aheadLast⟩

/-- An entity that is compiled could be as the registry is given, and it is progress. -/
theorem Progress.compileEntity (notBuilt : ¬ before.Built name)
    (compiled : (compileEntity config name).runOn before = (.ok made, after)) :
    base.Compiles config first name ∧ ∃ more,
      Progress base start first more (after.record made) ∧
      Ahead additions more before (after.record made) ∧
      (∀ relationship, base.Relates name relationship →
        Linked base more (after.record made) name relationship) ∧
      ∀ given, base.modelOf? name = .ok (some given) → (after.record made).Built name := by
  have moment := progress.moment
  have notBuiltAfter : ¬ after.Built name :=
    Steps.not_built_of ((compileEntity_moves config name).steps compiled) List.not_mem_nil notBuilt
  rcases compileEntity_eq_ok.mp compiled with ⟨absent, rfl, rfl⟩ |
    ⟨entry, ownBefore, tablename, registered, ownFound, hasTable, compiled⟩
  · rw [moment.get?, Option.map_eq_none_iff] at absent
    refine progress.withoutModel
      (Registry.modelOf?_eq_ok.mpr (.inl ⟨absent, rfl⟩)) ?_
    rintro relationship ⟨schema, -, -, -, -, registered, -⟩
    cases absent.symm.trans registered
  rw [moment.get?] at registered
  obtain ⟨schema, isSchema, rfl⟩ := Option.map_eq_some_iff.mp registered
  have owns := moment.ownSchema keyed settled isSchema
  rw [ownFound] at owns
  obtain ⟨own, ownAsGiven, sameOwn, -, -⟩ := owns.of_ok_right
  rw [sameOwn.tablename?] at hasTable
  cases tablename with
  | none =>
    obtain ⟨rfl, rfl⟩ := compiled
    refine progress.withoutModel (Registry.modelOf?_eq_ok.mpr
      (.inr ⟨schema, own, none, isSchema, ownAsGiven, hasTable, rfl⟩)) ?_
    rintro relationship ⟨_, other, tablename, -, -, registeredToo, otherFound, hasTableToo, -⟩
    obtain rfl := Option.some.inj (isSchema.symm.trans registeredToo)
    obtain rfl := Except.ok.inj (ownAsGiven.symm.trans otherFound)
    cases hasTable.symm.trans hasTableToo
  | some tablename =>
    obtain ⟨valid, compiled⟩ := compiled
    obtain ⟨⟨given, isGiven⟩, more, last, ahead, linked, isBuilt⟩ :=
      progress.linkedModel started keyed settled agree notBuiltAfter isSchema ownAsGiven hasTable
        ownFound compiled
    refine ⟨⟨⟨some given, isGiven⟩, fun validated _ _ => ?_, fun relationship isRelated =>
      (linked relationship isRelated).1⟩, more, last, ahead,
      fun relationship isRelated => (linked relationship isRelated).2, fun _ _ => isBuilt⟩
    intro additions' registry schema' moment' same registered'
    obtain rfl := Option.some.inj (isSchema.symm.trans registered')
    refine moment.dresses.validateEntity moment'.dresses keyed settled moment.admits moment'.admits
      (fun entity => ?_) isSchema (valid validated)
    rw [← progress.backrefs entity]
    exact same entity

/-- An entity that can be compiled as the registry is given is compiled. -/
theorem Progress.exists_compileEntity (tables : base.TablesAgree)
    (compiles : base.Compiles config first name) :
    ∃ made after, (Compilation.compileEntity config name).runOn before = (.ok made, after) := by
  have moment := progress.moment
  obtain ⟨made, isGiven⟩ := compiles.model
  rcases Registry.modelOf?_eq_ok.mp isGiven with ⟨absent, rfl⟩ |
    ⟨schema, own, tablename, registered, ownFound, hasTable, isModel⟩
  · refine ⟨none, before, compileEntity_eq_ok.mpr (.inl ⟨?_, rfl, rfl⟩)⟩
    rw [moment.get?, absent, Option.map_none]
  obtain ⟨other, -, entryFound, otherFound, same, propertiesFound, -⟩ :=
    moment.exists_ownSchema keyed settled registered ownFound
  have hasTableToo := same.tablename?.trans hasTable
  cases tablename with
  | none => exact ⟨none, before, compileEntity_eq_ok.mpr
      (.inr ⟨_, other, none, entryFound, otherFound, hasTableToo, rfl, rfl⟩)⟩
  | some tablename =>
    obtain ⟨gathered, given, isGathered, givenFound, rfl⟩ := isModel
    have relates : ∀ {relationship}, base.Relates name relationship ↔ ∃ field ∈ base.declared name,
        base.gather? field.1 field.2 = .ok (some relationship) :=
      Registry.relates_iff registered ownFound hasTable
    have whole := Registry.isWellKeyed_declared keyed registered ownFound
    have areRelated : ∀ field ∈ base.declared name, ∀ relationship,
        base.gather? field.1 field.2 = .ok (some relationship) → base.Relates name relationship :=
      fun field member relationship found => relates.mpr ⟨field, member, found⟩
    obtain ⟨after, linked⟩ := progress.exists_linkProperties keyed settled agree tables whole
      areRelated compiles.linkable isGathered
    obtain ⟨-, more, next, -⟩ := progress.linkProperties keyed settled agree whole areRelated linked
    obtain ⟨last, flat, entryLast, lastFound, -, -, flattened, sameFields⟩ :=
      next.moment.exists_ownSchema keyed settled registered ownFound
    have models : Alike (fun given made => base.WithKeys (Keyed.keys (more name).keys) given made ∧
          made.backrefs = backrefsIn last.fields)
        (model base name tablename own.parent gathered own.fields)
        (model after.registry name tablename own.parent gathered last.fields) :=
      next.moment.model_alike keyed settled agree registered ownFound isGathered lastFound
    rw [givenFound] at models
    obtain ⟨built, builtFound, -⟩ := models.of_ok_left
    refine ⟨some built, after, compileEntity_eq_ok.mpr (.inr ⟨_, other, some tablename, entryFound,
      otherFound, hasTableToo, fun validated => ?_, ?_⟩)⟩
    · exact compiles.valid validated given isGiven additions before.registry schema moment
        (started.admits.sameBackrefs progress.backrefs) registered
    · refine linkedModel_eq_ok.mpr ⟨_, gathered, flat, built, propertiesFound, ?_, ?_, ?_, rfl⟩
      · rw [linkProperties_keys ((moment.admits.keysApart settled).schemas name)]
        exact linked
      · rw [← same.1, entryLast, Option.getD_some, flattened]
      · rw [← same.1, sameFields, builtFound]

/-- Entities that are compiled, one after the other, could be as the registry is given. In the end
what their relationships need is there, and their models are built. -/
theorem Progress.compileEntities {names : List String} (nodup : names.Nodup)
    (notBuilt : ∀ name ∈ names, ¬ before.Built name)
    (compiled : (compileEntities config names).runOn before = (.ok (), after)) :
    ∃ more, Progress base start first more after ∧ Ahead additions more before after ∧
      ∀ name ∈ names, base.Compiles config first name ∧
        (∀ relationship, base.Relates name relationship → Linked base more after name relationship) ∧
        ∀ given, base.modelOf? name = .ok (some given) → after.Built name := by
  induction names generalizing before additions with
  | nil =>
    obtain ⟨-, rfl⟩ := Prod.mk.inj compiled
    exact ⟨additions, progress, .refl _ _, by simp⟩
  | cons name rest ih =>
    obtain ⟨made, middle, here, compiled⟩ := compileEntities_cons_eq_ok.mp compiled
    obtain ⟨compiles, more, next, ahead, linked, isBuilt⟩ := progress.compileEntity started keyed
      settled agree (notBuilt name List.mem_cons_self) here
    obtain ⟨most, last, aheadStill, each⟩ :=
      ih next (List.nodup_cons.mp nodup).2 (not_built_rest nodup notBuilt here) compiled
    refine ⟨most, last, ahead.trans aheadStill, List.forall_mem_cons.mpr ⟨⟨compiles, ?_, ?_⟩, each⟩⟩
    · exact fun relationship relates => (linked relationship relates).ahead aheadStill
    · exact fun given isGiven => aheadStill.built name (isBuilt given isGiven)

/-- Entities that can be compiled as the registry is given are compiled, one after the other. -/
theorem Progress.exists_compileEntities (tables : base.TablesAgree) {names : List String}
    (nodup : names.Nodup) (notBuilt : ∀ name ∈ names, ¬ before.Built name)
    (compiles : ∀ name ∈ names, base.Compiles config first name) :
    ∃ after, (Compilation.compileEntities config names).runOn before = (.ok (), after) := by
  induction names generalizing before additions with
  | nil => exact ⟨before, rfl⟩
  | cons name rest ih =>
    obtain ⟨compilesHere, compilesRest⟩ := List.forall_mem_cons.mp compiles
    obtain ⟨made, middle, here⟩ :=
      progress.exists_compileEntity started keyed settled agree tables compilesHere
    obtain ⟨-, more, next, -⟩ := progress.compileEntity started keyed settled agree
      (notBuilt name List.mem_cons_self) here
    obtain ⟨after, others⟩ :=
      ih next (List.nodup_cons.mp nodup).2 (not_built_rest nodup notBuilt here) compilesRest
    exact ⟨after, compileEntities_cons_eq_ok.mpr ⟨made, middle, here, others⟩⟩

end Entity

section Run

variable (started : base.Moment first start) (keyed : base.WellKeyed) (settled : base.KeysSettled)
  (agree : base.KeysAgree) {names : List String} (nodup : names.Nodup)
  (all : ∀ name, name ∈ names ↔ name ∈ base.names)

include started in
theorem progress_start : Progress base start first first (Compilation.start start) :=
  ⟨started, fun _ => rfl, fun _ _ found => (by cases found), fun _ member => (by cases member)⟩

include started keyed settled agree nodup all

/-- A run over all entities, in whatever order, succeeds exactly if all of them can be compiled as
the registry is given. -/
theorem exists_run_iff : (∃ after, (compileEntities config names).runOn (Compilation.start start) =
    (.ok (), after)) ↔ base.CompilesAll config first := by
  have progress := progress_start started
  have notBuilt : ∀ name ∈ names, ¬ (Compilation.start start).Built name := fun _ _ isBuilt => by
    cases isBuilt
  constructor
  · rintro ⟨after, compiled⟩
    obtain ⟨more, last, -, each⟩ :=
      progress.compileEntities started keyed settled agree nodup notBuilt compiled
    have isThere : ∀ table, base.NeedsTable table → after.TableThere table := by
      rintro table ⟨entity, relationship, secondary, relates, joined, found⟩
      have isEntity := (all entity).mpr relates.mem_names
      exact ((each entity isEntity).2.1 relationship relates).table secondary table joined found
    refine ⟨fun table other needs needsToo sameName => ?_, fun name member =>
      (each name ((all name).mpr member)).1⟩
    obtain ⟨existing, found, equivalent⟩ := isThere table needs
    obtain ⟨existingToo, foundToo, equivalentToo⟩ := isThere other needsToo
    rw [sameName] at found
    obtain rfl := Option.some.inj (found.symm.trans foundToo)
    have needsExisting := last.tables existing (List.mem_of_find?_eq_some found)
    have twins := (needsExisting.isEquivalent_iff needs).mp equivalent
    exact twins.symm.trans ((needsExisting.isEquivalent_iff needsToo).mp equivalentToo)
  · intro compiles
    exact progress.exists_compileEntities started keyed settled agree compiles.tables nodup notBuilt
      fun name member => compiles.each name ((all name).mp member)

/-- What a run over all entities has made in the end does not depend on their order. -/
theorem isFinal_of_run (compiled : (compileEntities config names).runOn (Compilation.start start) =
      (.ok (), after)) (name : String) :
    ∃ given, base.modelOf? name = .ok given ∧
      Option.Rel (base.IsFinal start name) given (ModelStore.get? after.store name) := by
  have progress := progress_start started
  have notBuilt : ∀ name ∈ names, ¬ (Compilation.start start).Built name := fun _ _ isBuilt => by
    cases isBuilt
  obtain ⟨more, last, -, each⟩ :=
    progress.compileEntities started keyed settled agree nodup notBuilt compiled
  have noModel : base.modelOf? name = .ok none → ModelStore.get? after.store name = none := by
    intro isGiven
    cases found : ModelStore.get? after.store name with
    | none => rfl
    | some model =>
      obtain ⟨given, isGivenToo, -⟩ := last.models name model found
      cases isGiven.symm.trans isGivenToo
  by_cases member : name ∈ base.names
  · obtain ⟨compiles, -, isBuilt⟩ := each name ((all name).mpr member)
    obtain ⟨given, isGiven⟩ := compiles.model
    refine ⟨given, isGiven, ?_⟩
    cases given with
    | none => rw [noModel isGiven]; exact .none
    | some given =>
    obtain ⟨model, found⟩ := Option.isSome_iff_exists.mp (isBuilt given isGiven)
    obtain ⟨_, isGivenToo, withKeys, backrefs⟩ := last.models name model found
    obtain rfl := Option.some.inj (Except.ok.inj (isGiven.symm.trans isGivenToo))
    have givenName := name_of_modelOf? isGiven
    rw [found]
    refine .some ⟨fun artifact => ⟨fun inMade => ?_, ?_⟩, backrefs⟩
    · rw [← givenName]
      exact withKeys.only artifact inMade
    · rintro (isGivenHere | isKey)
      · exact withKeys.has artifact isGivenHere
      · refine withKeys.mem_of_isKeyColumn agree isGiven isKey ?_
        -- the relationship that adds the key has been linked
        obtain ⟨_, _, ⟨entity, relationship, key, relates, direct, rfl, required⟩, -⟩ := isKey
        have linked := (each entity ((all entity).mpr relates.mem_names)).2.1 relationship relates
        rcases linked.key _ _ _ direct required with written | has
        · exact withKeys.keys _ written
        · rw [ModelStore.hasProperty, found, Option.any_some] at has
          exact has
  · have absent : base.get? name = none := (Keyed.get?_eq_none_iff _ _).mpr member
    have isGiven : base.modelOf? name = .ok none := Registry.modelOf?_eq_ok.mpr (.inl ⟨absent, rfl⟩)
    refine ⟨none, isGiven, ?_⟩
    rw [noModel isGiven]
    exact .none

end Run

end Compilation

end EntityMapping
