import EntityMapping.Proofs.BackrefTurns
import EntityMapping.Proofs.LocalComposition

/-!
Flattening without an entity. An entity that is skipped is passed over before it is looked up and
before it counts for the chain of references, so flattening without it comes to the same as
flattening where its schema is empty: a cycle through the entity, an error behind it, and its
absence from the registry are all passed over. A schema that is not composed of the entity does not
tell the difference.
-/

set_option autoImplicit false
set_option relaxedAutoImplicit false

namespace EntityMapping

/-- What is flattened without an entity, beside what is flattened where the entity is empty: the
same keywords, under the same name. Only what the empty entity itself leads to has the name of the
entity, where it is looked up. -/
structure FlatSchema.AgreesWithout (entity : String) (skipped flat : FlatSchema) : Prop where
  fields : skipped.fields = flat.fields
  name : skipped.name = flat.name ∨ flat = ⟨entity, []⟩

theorem FlatSchema.AgreesWithout.refl {entity : String} (flat : FlatSchema) :
    flat.AgreesWithout entity flat :=
  ⟨rfl, .inl rfl⟩

namespace Registry

variable {registry : Registry} {entity name text wanted : String} {schema target : Json}
  {own : Keyed Json} {visited : List String} {hops more : Nat}

/-- The registry with an entity that has an empty schema, which may be new. -/
def emptied (registry : Registry) (entity : String) : Registry := registry.insert entity (.obj [])

theorem get?_emptied_self : (registry.emptied entity).get? entity = some (.obj []) :=
  Keyed.get?_set_self _ _ _

theorem get?_emptied_of_ne (different : wanted ≠ entity) :
    (registry.emptied entity).get? wanted = registry.get? wanted :=
  get?_insert_of_ne different

theorem length_entries_le_emptied :
    registry.entries.length ≤ (registry.emptied entity).entries.length := by
  by_cases present : entity ∈ Keyed.keys registry.entries
  · exact (Keyed.length_set _ _ present).ge
  · simp [emptied, insert, Keyed.set_of_not_mem _ present]

/-- What a schema is composed of where an entity is empty, it is composed of in any case. -/
theorem Composes.of_emptied {part : Json} (parts : (registry.emptied entity).Composes schema part)
    (notEmpty : part ≠ .obj []) : registry.Composes schema part := by
  induction parts with
  | self => exact .self _
  | fragment noReference written member _ ih =>
    exact .fragment noReference written member (ih notEmpty)
  | @reference own text next parsed target part reference parse led parts ih =>
    by_cases same : parsed = .entity entity
    · subst same
      obtain ⟨-, registered⟩ := target_entity_eq_ok.mp led
      obtain rfl := Option.some.inj (get?_emptied_self.symm.trans registered)
      cases parts with
      | self => exact absurd rfl notEmpty
      | fragment _ written => cases written
      | reference reference => cases reference
    · exact .reference reference parse (target_insert same ▸ led) (ih notEmpty)

theorem ReachesReference.of_emptied
    (reached : (registry.emptied entity).ReachesReference schema text) :
    registry.ReachesReference schema text := by
  obtain ⟨own, parts, written⟩ := reached
  refine ⟨own, parts.of_emptied ?_, written⟩
  rintro same
  cases Json.obj.inj same
  cases written

/-- Where every reference of a schema stays within the registry, those that are left when an entity
is passed over do. -/
theorem ComposedLocally.emptied (references : registry.ComposedLocally schema) (entity : String) :
    (registry.emptied entity).ComposedLocally schema :=
  fun text reached => references text reached.of_emptied

/-- A schema that is not composed of an entity is composed of the same where the entity is empty. -/
theorem ReachesReference.emptied (apart : ¬ registry.ReachesEntity schema entity)
    (reached : registry.ReachesReference schema text) :
    (registry.emptied entity).ReachesReference schema text := by
  obtain ⟨own, parts, written⟩ := reached
  generalize partIs : Json.obj own = part at parts
  induction parts with
  | self => exact partIs ▸ .self written
  | fragment noReference listed member _ ih =>
    exact (ih (fun inItem => apart (inItem.of_fragment noReference listed member))
      partIs).of_fragment noReference listed member
  | @reference own text next parsed target part reference parse led _ ih =>
    have different : parsed ≠ .entity entity := by
      rintro rfl
      exact apart (.self reference parse)
    refine ReachesReference.of_reference reference parse ((target_insert different).trans led) ?_
    exact ih (fun inTarget => apart (inTarget.of_reference reference parse led)) partIs

/-- Where a local reference leads, unless its entity is skipped. -/
theorem flattenTarget_entity_of_ne (parse : Reference.parse text = .ok (.entity wanted))
    (different : wanted ≠ entity) :
    registry.flattenTarget (some entity) hops visited name (.str text) =
      if wanted ∈ visited then .error (.malformedSchema (.circular (visited ++ [wanted])))
      else match registry.get? wanted with
        | none => .error (.notFound (.missingEntity text))
        | some target => match hops with
          | 0 => .error (.notFound (.endless text))
          | fewer + 1 =>
              registry.flattenFrom (some entity) fewer (visited ++ [wanted]) wanted target := by
  have followed : some entity ≠ some wanted := fun same => different (Option.some.inj same).symm
  simp only [flattenTarget_text, parse, ok_bind, Reference.name, followed, if_false,
    Reference.key, Registry.target, List.contains_iff_mem]
  by_cases met : wanted ∈ visited
  · simp [met]
  · simp only [met, if_false]
    cases registry.get? wanted with
    | none => simp
    | some target => cases hops <;> simp

theorem flattenTarget_skipped (parse : Reference.parse text = .ok (.entity entity)) :
    registry.flattenTarget (some entity) hops visited name (.str text) = .ok ⟨name, []⟩ := by
  simp [flattenTarget_text, parse, Reference.name]

/-- What an empty entity leads to. -/
theorem flattenTarget_emptied (parse : Reference.parse text = .ok (.entity entity))
    (fresh : entity ∉ visited) (chain : ChainWithin (registry.emptied entity).names visited hops) :
    (registry.emptied entity).flattenTarget none hops visited name (.str text) =
      .ok ⟨entity, []⟩ := by
  obtain ⟨fewer, rfl, -⟩ := chain.prolong (Keyed.mem_keys_of_get? get?_emptied_self) fresh
  rw [flattenTarget_entity parse, if_neg fresh, get?_emptied_self]
  exact flattenFrom_plain rfl rfl

/-- Flattening without an entity, on a chain that the entity is not on, comes to the same as where
the entity is empty. The chains have the same targets; each may be as long as its registry needs. -/
theorem flattenFrom_emptied (references : (registry.emptied entity).ComposedLocally schema)
    (chain : ChainWithin registry.names visited hops)
    (chainToo : ChainWithin (registry.emptied entity).names visited more)
    (fresh : entity ∉ visited) :
    Alike (FlatSchema.AgreesWithout entity)
      (registry.flattenFrom (some entity) hops visited name schema)
      ((registry.emptied entity).flattenFrom none more visited name schema) := by
  induction hops, schema using Json.byFollowing generalizing more visited name with
  | notObject hops schema notObject =>
    rw [flattenFrom_notObject notObject, flattenFrom_notObject notObject]
    exact .error _
  | plain hops own noReference noFragments =>
    rw [flattenFrom_plain noReference noFragments, flattenFrom_plain noReference noFragments]
    exact .ok (.refl _)
  | reference hops own target reference shorter =>
    rw [flattenFrom_reference reference, flattenFrom_reference reference]
    cases read : Reference.read target with
    | error e =>
      rw [flattenTarget_of_unread read, flattenTarget_of_unread read]
      exact .error e
    | ok parsed =>
      obtain ⟨text, rfl, parse⟩ := Reference.read_eq_ok.mp read
      obtain ⟨wanted, rfl⟩ := references text (.self reference) parsed parse
      by_cases same : wanted = entity
      · subst same
        rw [flattenTarget_skipped parse, flattenTarget_emptied parse fresh chainToo]
        exact .ok ⟨rfl, .inr rfl⟩
      rw [flattenTarget_entity_of_ne parse same, flattenTarget_entity parse,
        get?_emptied_of_ne same]
      by_cases met : wanted ∈ visited
      · rw [if_pos met, if_pos met]
        exact .error _
      rw [if_neg met, if_neg met]
      cases registered : registry.get? wanted with
      | none => exact .error _
      | some schema =>
        have stillRegistered := (get?_emptied_of_ne same).trans registered
        obtain ⟨fewer, rfl, prolonged⟩ :=
          chain.prolong (Keyed.mem_keys_of_get? registered) met
        obtain ⟨others, rfl, prolongedToo⟩ :=
          chainToo.prolong (Keyed.mem_keys_of_get? stillRegistered) met
        refine shorter fewer (Nat.lt_succ_self fewer) ?_ prolonged prolongedToo ?_
        · exact references.of_reference reference parse
            (target_entity_eq_ok.mpr ⟨rfl, stillRegistered⟩)
        · simpa [fresh, eq_comm] using same
  | malformed hops own value noReference written noList =>
    rw [flattenFrom_malformed noReference written noList,
      flattenFrom_malformed noReference written noList]
    exact .error _
  | fragments hops own items noReference written ih =>
    rw [flattenFrom_fragments noReference written, flattenFrom_fragments noReference written]
    have sameFragments : (items.mapM fun item => (registry.flattenFrom (some entity) hops visited
          name item).map FlatSchema.fields) =
        items.mapM fun item => ((registry.emptied entity).flattenFrom none more visited name
          item).map FlatSchema.fields := by
      refine mapM_congr fun item member => Alike.eq ?_
      exact (ih item member (references.of_fragment noReference written member) chain chainToo
        fresh).map fun _ _ agree => agree.fields
    rw [sameFragments]
    exact (Alike.refl _).mono fun _ _ same => same ▸ .refl _

/-- A schema that is not composed of an entity, and stays within the registry, does not tell that
the entity is skipped. -/
theorem flattenFrom_skip (references : registry.ComposedLocally schema)
    (apart : ¬ registry.ReachesEntity schema entity) :
    registry.flattenFrom (some entity) hops visited name schema =
      registry.flattenFrom none hops visited name schema := by
  induction hops, schema using Json.byFollowing generalizing visited name with
  | notObject hops schema notObject =>
    rw [flattenFrom_notObject notObject, flattenFrom_notObject notObject]
  | plain hops own noReference noFragments =>
    rw [flattenFrom_plain noReference noFragments, flattenFrom_plain noReference noFragments]
  | reference hops own target reference shorter =>
    rw [flattenFrom_reference reference, flattenFrom_reference reference]
    cases read : Reference.read target with
    | error e => rw [flattenTarget_of_unread read, flattenTarget_of_unread read]
    | ok parsed =>
      obtain ⟨text, rfl, parse⟩ := Reference.read_eq_ok.mp read
      obtain ⟨wanted, rfl⟩ := references text (.self reference) parsed parse
      have different : wanted ≠ entity := by
        rintro rfl
        exact apart (.self reference parse)
      rw [flattenTarget_entity_of_ne parse different, flattenTarget_entity parse]
      cases registered : registry.get? wanted with
      | none => rfl
      | some schema =>
        have led : registry.target text (.entity wanted) = .ok (wanted, schema) :=
          target_entity_eq_ok.mpr ⟨rfl, registered⟩
        cases hops with
        | zero => rfl
        | succ fewer =>
          have inTarget : ¬ registry.ReachesEntity schema entity := fun reached =>
            apart (reached.of_reference reference parse led)
          simp only [shorter fewer (Nat.lt_succ_self fewer)
            (references.of_reference reference parse led) inTarget]
  | malformed hops own value noReference written noList =>
    rw [flattenFrom_malformed noReference written noList,
      flattenFrom_malformed noReference written noList]
  | fragments hops own items noReference written ih =>
    rw [flattenFrom_fragments noReference written, flattenFrom_fragments noReference written]
    congr 1
    refine mapM_congr fun item member => ?_
    rw [ih item member (references.of_fragment noReference written member) fun inItem =>
      apart (inItem.of_fragment noReference written member)]

/-- A schema that is not composed of an entity leads to the same where the entity is empty. -/
theorem reachesAlike_emptied (references : registry.ComposedLocally schema)
    (apart : ¬ registry.ReachesEntity schema entity) :
    ReachesAlike registry (registry.emptied entity) registry.names schema where
  leads text parsed reached parse := by
    have different : parsed ≠ .entity entity := by
      rintro rfl
      exact apart ⟨text, reached, parse⟩
    have sameTarget : (registry.emptied entity).target text parsed = registry.target text parsed :=
      target_insert different
    rw [sameTarget]
    exact (references.reachesAlike rfl).leads text parsed reached parse
  within := (references.reachesAlike rfl).within

/-- Skipping an entity is emptying it. Where every reference that is left stays within the
registry, flattening without the entity and flattening where it is empty fail with the same error,
or come to the same keywords; a schema that is not composed of the entity is flattened to just what
it is flattened to in the registry as it is. -/
theorem flattenWithout_eq_flatten_emptied (registry : Registry) (entity name : String)
    (schema : Json) (references : (registry.emptied entity).ComposedLocally schema) :
    Alike (FlatSchema.AgreesWithout entity) (registry.flattenWithout (some entity) name schema)
        ((registry.emptied entity).flatten name schema) ∧
      (¬ registry.ReachesEntity schema entity →
        registry.flattenWithout (some entity) name schema = registry.flatten name schema ∧
        (registry.emptied entity).flatten name schema = registry.flatten name schema) := by
  refine ⟨flattenFrom_emptied references (.start registry.length_names_le)
    (.start (length_names_le _)) (by simp), fun apart => ?_⟩
  have stays : registry.ComposedLocally schema := fun text reached =>
    references text (reached.emptied apart)
  have enough : registry.names.length ≤ (registry.emptied entity).chainLimit := by
    refine le_trans ?_ (chainLimit_ge _)
    simpa [names, Keyed.keys] using length_entries_le_emptied
  exact ⟨flattenFrom_skip stays apart, ((reachesAlike_emptied stays apart).flattenFrom
    (.start registry.length_names_le) (.start enough)).same.symm⟩

/-- A child that is composed of its parent, which leads back to it and to an entity that is not
there. -/
def entangled : Registry where
  entries := [
    ("Parent", .obj [("allOf", .arr [.obj [("$ref", .str "#/Child")],
      .obj [("$ref", .str "#/Missing")]])]),
    ("Child", .obj [("allOf", .arr [.obj [("$ref", .str "#/Parent")],
      .obj [("$ref", .str "#/Base")], .obj [("x-tablename", .str "child")]])]),
    ("Base", .obj [("type", .str "object")])]
  place := none
  documents := Documents.empty

theorem flattenWithout_eq_flatten_emptied_entangled :
    entangled.flatten "Child" (.obj [("$ref", .str "#/Child")]) =
        .error (.malformedSchema (.circular ["Child", "Parent", "Child"])) ∧
      (entangled.emptied "Parent").ComposedLocally (.obj [("$ref", .str "#/Child")]) ∧
      (∃ skipped, entangled.flattenWithout (some "Parent") "Child"
          (.obj [("$ref", .str "#/Child")]) = .ok skipped ∧
        skipped.fields = [("type", .str "object"), ("x-tablename", .str "child")]) ∧
      ¬ entangled.ReachesEntity (.obj [("$ref", .str "#/Base")]) "Parent" ∧
      entangled.flattenWithout (some "Parent") "Base" (.obj [("$ref", .str "#/Base")]) =
        entangled.flatten "Base" (.obj [("$ref", .str "#/Base")]) := by
  have references : ∀ schema, schema.refersLocally = true →
      (entangled.emptied "Parent").ComposedLocally schema := fun schema stays =>
    (RefersLocally.composedLocally (by decide +kernel) stays).emptied "Parent"
  have apart : ¬ entangled.ReachesEntity (.obj [("$ref", .str "#/Base")]) "Parent" := by
    rintro ⟨text, ⟨own, parts, written⟩, parse⟩
    have baseIs : Reference.parse "#/Base" = .ok (.entity "Base") := by cbv
    cases parts with
    | self =>
      cases written
      simp [baseIs] at parse
    | fragment noReference => cases noReference
    | reference reference parseToo led parts =>
      cases reference
      obtain rfl := Except.ok.inj (baseIs.symm.trans parseToo)
      cases led
      cases parts with
      | self => cases written
      | fragment _ listed => cases listed
      | reference reference => cases reference
  have flattened : (entangled.emptied "Parent").flatten "Child" (.obj [("$ref", .str "#/Child")]) =
      .ok ⟨"Child", [("type", .str "object"), ("x-tablename", .str "child")]⟩ := by
    cbv
  have alike := (flattenWithout_eq_flatten_emptied entangled "Parent" "Child"
    (.obj [("$ref", .str "#/Child")]) (references _ (by decide +kernel))).1
  obtain ⟨skipped, isSkipped, agree⟩ := (flattened ▸ alike).of_ok_right
  exact ⟨by cbv, references _ (by decide +kernel), ⟨skipped, isSkipped, agree.fields⟩, apart,
    ((flattenWithout_eq_flatten_emptied entangled "Parent" "Base" (.obj [("$ref", .str "#/Base")])
      (references _ (by decide +kernel))).2 apart).1⟩

end Registry

end EntityMapping
