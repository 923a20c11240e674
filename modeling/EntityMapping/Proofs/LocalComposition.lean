import EntityMapping.Proofs.Chains
import EntityMapping.Proofs.Derivation
import Mathlib.Data.List.Permutation

/-!
Flattening within a registry. Where every reference that a schema is composed of names an entity of
the registry, flattening gives exactly what can be derived: an entity on the chain of references is
met again only if it is composed of itself, and then nothing can be derived. A chain has every
entity once at most, so no chain is cut short.
-/

set_option autoImplicit false
set_option relaxedAutoImplicit false

namespace EntityMapping

namespace Registry

variable {registry : Registry} {hops : Nat} {visited : List String} {name : String} {schema : Json}

/-- A schema is composed of an entity. -/
def ReachesEntity (registry : Registry) (schema : Json) (name : String) : Prop :=
  ∃ text, registry.ReachesReference schema text ∧ Reference.parse text = .ok (.entity name)

/-- An entity is composed of itself. -/
def IsCyclic (registry : Registry) (name : String) : Prop :=
  ∃ schema, registry.get? name = some schema ∧ registry.ReachesEntity schema name

/-- A schema is composed of an entity that is composed of itself. -/
def ReachesCycle (registry : Registry) (schema : Json) : Prop :=
  ∃ name, registry.ReachesEntity schema name ∧ registry.IsCyclic name

variable {own : Keyed Json} {items : List Json} {item target : Json} {text next : String}

theorem ReachesEntity.of_fragment (noReference : Keyed.get? own "$ref" = none)
    (written : Keyed.get? own "allOf" = some (.arr items)) (member : item ∈ items)
    (reached : registry.ReachesEntity item name) : registry.ReachesEntity (.obj own) name := by
  obtain ⟨text, found, parse⟩ := reached
  exact ⟨text, found.of_fragment noReference written member, parse⟩

theorem ReachesEntity.of_reference {parsed : Reference}
    (reference : Keyed.get? own "$ref" = some (.str text))
    (parse : Reference.parse text = .ok parsed)
    (led : registry.target text parsed = .ok (next, target))
    (reached : registry.ReachesEntity target name) : registry.ReachesEntity (.obj own) name := by
  obtain ⟨other, found, parseOther⟩ := reached
  exact ⟨other, found.of_reference reference parse led, parseOther⟩

theorem ReachesEntity.self (reference : Keyed.get? own "$ref" = some (.str text))
    (parse : Reference.parse text = .ok (.entity name)) :
    registry.ReachesEntity (.obj own) name :=
  ⟨text, .self reference, parse⟩

/-- A schema without references and fragments is its only part. -/
theorem Composes.eq_of_plain {part : Json} (parts : registry.Composes (.obj own) part)
    (noReference : Keyed.get? own "$ref" = none) (noFragments : Keyed.get? own "allOf" = none) :
    part = .obj own := by
  cases parts with
  | self => rfl
  | fragment _ written => cases noFragments.symm.trans written
  | reference reference => cases noReference.symm.trans reference

theorem not_reachesEntity_of_plain (noReference : Keyed.get? own "$ref" = none)
    (noFragments : Keyed.get? own "allOf" = none) : ¬ registry.ReachesEntity (.obj own) name := by
  rintro ⟨text, ⟨other, parts, reference⟩, -⟩
  obtain rfl := Json.obj.inj (parts.eq_of_plain noReference noFragments)
  cases noReference.symm.trans reference

/-- A list of fragments is composed of the entities that one of them is composed of. -/
theorem ReachesEntity.in_fragment (reached : registry.ReachesEntity (.obj own) name)
    (noReference : Keyed.get? own "$ref" = none)
    (written : Keyed.get? own "allOf" = some (.arr items)) :
    ∃ item ∈ items, registry.ReachesEntity item name := by
  obtain ⟨text, ⟨part, parts, found⟩, parse⟩ := reached
  cases parts with
  | self => cases noReference.symm.trans found
  | fragment _ writtenToo member parts =>
    obtain rfl := Json.arr.inj (Option.some.inj (written.symm.trans writtenToo))
    exact ⟨_, member, text, ⟨part, parts, found⟩, parse⟩
  | reference reference => cases noReference.symm.trans reference

/-- A reference is composed of its target, and of the entities that this is composed of. -/
theorem ReachesEntity.in_target {parsed : Reference}
    (reached : registry.ReachesEntity (.obj own) name)
    (reference : Keyed.get? own "$ref" = some (.str text))
    (parse : Reference.parse text = .ok parsed)
    (led : registry.target text parsed = .ok (next, target)) :
    parsed = .entity name ∨ registry.ReachesEntity target name := by
  obtain ⟨other, ⟨part, parts, found⟩, parseOther⟩ := reached
  cases parts with
  | self =>
    obtain rfl := Json.str.inj (Option.some.inj (reference.symm.trans found))
    exact .inl (Except.ok.inj (parse.symm.trans parseOther))
  | fragment noReference => cases noReference.symm.trans reference
  | reference referenceToo parseToo ledToo parts =>
    obtain rfl := Json.str.inj (Option.some.inj (reference.symm.trans referenceToo))
    obtain rfl := Except.ok.inj (parse.symm.trans parseToo)
    obtain ⟨-, rfl⟩ := Prod.mk.inj (Except.ok.inj (led.symm.trans ledToo))
    exact .inr ⟨other, ⟨part, parts, found⟩, parseOther⟩

/-- What can be derived is composed of no entity that is composed of itself. -/
theorem Derives.not_reachesCycle {flat : Keyed Json}
    (derivation : registry.Derives none schema flat) : ¬ registry.ReachesCycle schema := by
  induction derivation with
  | plain noReference noFragments =>
    rintro ⟨name, reached, -⟩
    exact not_reachesEntity_of_plain noReference noFragments reached
  | skipped _ _ skipping => cases skipping
  | @reference own flat text next parsed target reference parse _ led _ ih =>
    rintro ⟨name, reached, cyclic⟩
    rcases reached.in_target reference parse led with rfl | inTarget
    · -- The entity is the target itself: then the target reaches it once more.
      obtain ⟨-, registered⟩ := target_entity_eq_ok.mp led
      obtain ⟨again, registeredToo, reachedAgain⟩ := cyclic
      obtain rfl := Option.some.inj (registered.symm.trans registeredToo)
      exact ih ⟨name, reachedAgain, target, registered, reachedAgain⟩
    · exact ih ⟨name, inTarget, cyclic⟩
  | @fragments own items flats noReference written sameLength _ ih =>
    rintro ⟨name, reached, cyclic⟩
    obtain ⟨item, member, inItem⟩ := reached.in_fragment noReference written
    obtain ⟨flat, -, acyclic⟩ :=
      exists_of_forall₂_left (List.forall₂_iff_zip.mpr ⟨sameLength, ih _ _⟩) member
    exact acyclic ⟨name, inItem, cyclic⟩

/-- Where a local reference leads, with the entities before it on the chain. -/
theorem flattenTarget_entity (parse : Reference.parse text = .ok (.entity name)) :
    registry.flattenTarget none hops visited next (.str text) =
      if name ∈ visited then .error (.malformedSchema (.circular (visited ++ [name])))
      else match registry.get? name with
        | none => .error (.notFound (.missingEntity text))
        | some target => match hops with
          | 0 => .error (.notFound (.endless text))
          | fewer + 1 => registry.flattenFrom none fewer (visited ++ [name]) name target := by
  simp only [flattenTarget_text, parse, ok_bind, reduceCtorEq, if_false, Reference.key,
    Registry.target, List.contains_iff_mem]
  by_cases met : name ∈ visited
  · simp [met]
  · simp only [met, if_false]
    cases registry.get? name with
    | none => simp
    | some target => cases hops <;> simp

/-- What can be derived is what flattening gives, if no entity on the chain is met again. -/
theorem Derives.flattenFrom {flat : Keyed Json} (derivation : registry.Derives none schema flat)
    (references : registry.ComposedLocally schema) (chain : ChainWithin registry.names visited hops)
    (fresh : ∀ met ∈ visited, ¬ registry.ReachesEntity schema met) :
    ∃ found, registry.flattenFrom none hops visited name schema = .ok found ∧
      found.fields = flat := by
  induction derivation generalizing hops visited name with
  | plain noReference noFragments =>
    exact ⟨_, flattenFrom_plain noReference noFragments, rfl⟩
  | skipped _ _ skipping => simp at skipping
  | @reference own flat text next parsed target reference parse _ led derived ih =>
    obtain ⟨entity, rfl⟩ := references text (.self reference) parsed parse
    obtain ⟨rfl, registered⟩ := target_entity_eq_ok.mp led
    have reaches : registry.ReachesEntity (.obj own) next := .self reference parse
    have unmet : next ∉ visited := fun met => fresh next met reaches
    obtain ⟨fewer, rfl, prolonged⟩ := chain.prolong (Keyed.mem_keys_of_get? registered) unmet
    have still : ∀ met ∈ visited ++ [next], ¬ registry.ReachesEntity target met := by
      intro met member reached
      rcases List.mem_append.mp member with before | last
      · exact fresh met before (reached.of_reference reference parse led)
      · rw [List.mem_singleton.mp last] at reached
        exact derived.not_reachesCycle ⟨next, reached, target, registered, reached⟩
    obtain ⟨found, flattened, fields⟩ : ∃ found, registry.flattenFrom none fewer
        (visited ++ [next]) next target = .ok found ∧ found.fields = flat :=
      ih (references.of_reference reference parse led) prolonged still
    refine ⟨found, ?_, fields⟩
    rw [flattenFrom_reference reference, flattenTarget_entity parse]
    simp [unmet, registered, flattened]
  | @fragments own items flats noReference written sameLength _ ih =>
    have each : List.Forall₂ (fun item flat =>
        (registry.flattenFrom none hops visited name item).map FlatSchema.fields = .ok flat)
        items flats := by
      refine List.forall₂_iff_zip.mpr ⟨sameLength, fun {item flat} member => ?_⟩
      have inItems := (List.of_mem_zip member).1
      obtain ⟨found, flattened, fields⟩ : ∃ found, registry.flattenFrom none hops visited name
          item = .ok found ∧ found.fields = flat :=
        ih item flat member (references.of_fragment noReference written inItems) chain
          fun met before reached =>
            fresh met before (reached.of_fragment noReference written inItems)
      simp [flattened, Except.map, fields]
    refine ⟨⟨name, mergeFragments (flats ++ [Keyed.without own "allOf"])⟩, ?_,
      (mergeFragments_siblings flats own).symm⟩
    rw [flattenFrom_fragments noReference written, mapM_eq_ok_iff.mpr each, ok_bind]

end Registry

namespace Registry

variable {registry : Registry} {hops : Nat} {visited : List String} {name : String} {schema : Json}

/-- What a local reference of a schema comes to at the end of a chain: an error about the reference
itself, an entity on the chain, or another one. -/
inductive LocalTarget (registry : Registry) (visited : List String) (own : Keyed Json)
    (target : Json) : Prop
  | refused {e : SchemaError} : e.isAboutChain = false →
      (∀ hops name, registry.flattenTarget none hops visited name target = .error e) →
      LocalTarget registry visited own target
  | met {entity : String} : registry.ReachesEntity (.obj own) entity → entity ∈ visited →
      (∀ hops name, registry.flattenTarget none hops visited name target =
        .error (.malformedSchema (.circular (visited ++ [entity])))) →
      LocalTarget registry visited own target
  | next {text entity : String} {schema : Json} : Keyed.get? own "$ref" = some (.str text) →
      Reference.parse text = .ok (.entity entity) → registry.get? entity = some schema →
      entity ∉ visited → (∀ fewer name,
        registry.flattenTarget none (fewer + 1) visited name target =
          registry.flattenFrom none fewer (visited ++ [entity]) entity schema) →
      LocalTarget registry visited own target

variable {own : Keyed Json} {target : Json}

theorem localTarget (references : registry.ComposedLocally (.obj own)) (visited : List String)
    (reference : Keyed.get? own "$ref" = some target) :
    registry.LocalTarget visited own target := by
  cases read : Reference.read target with
  | error e =>
    exact .refused (Reference.isAboutChain_of_read read) fun hops name =>
      flattenTarget_of_unread read
  | ok parsed =>
    obtain ⟨text, rfl, parse⟩ := Reference.read_eq_ok.mp read
    obtain ⟨entity, rfl⟩ := references text (.self reference) parsed parse
    by_cases met : entity ∈ visited
    · refine .met (.self reference parse) met fun hops name => ?_
      rw [flattenTarget_entity parse, if_pos met]
    cases registered : registry.get? entity with
    | none =>
      have outcome : ∀ hops name, registry.flattenTarget none hops visited name (.str text) =
          .error (.notFound (.missingEntity text)) := fun hops name => by
        rw [flattenTarget_entity parse, if_neg met, registered]
      exact .refused rfl outcome
    | some schema =>
      refine .next reference parse registered met fun fewer name => ?_
      rw [flattenTarget_entity parse, if_neg met, registered]

/-- Flattening complains about its chain of references only where an entity on the chain is met
again, and never because the chain was cut short. -/
theorem reachesEntity_of_isAboutChain {e : SchemaError}
    (references : registry.ComposedLocally schema) (chain : ChainWithin registry.names visited hops)
    (failed : registry.flattenFrom none hops visited name schema = .error e)
    (about : e.isAboutChain = true) :
    (∀ text, e ≠ .notFound (.endless text)) ∧
      ∃ met, registry.ReachesEntity schema met ∧ (met ∈ visited ∨ registry.IsCyclic met) := by
  induction hops, schema using Json.byFollowing generalizing visited name with
  | notObject hops schema notObject =>
    rw [flattenFrom_notObject notObject] at failed
    cases failed
    cases about
  | plain hops own noReference noFragments =>
    simp [flattenFrom_plain noReference noFragments] at failed
  | reference hops own target reference shorter =>
    rw [flattenFrom_reference reference] at failed
    cases localTarget references visited reference with
    | refused notAbout outcome =>
      obtain rfl := Except.error.inj ((outcome hops name).symm.trans failed)
      cases notAbout.symm.trans about
    | met reached member outcome =>
      obtain rfl := Except.error.inj ((outcome hops name).symm.trans failed)
      exact ⟨by simp, _, reached, .inl member⟩
    | @next text entity found reference parse registered fresh outcome =>
      have led : registry.target text (.entity entity) = .ok (entity, found) :=
        target_entity_eq_ok.mpr ⟨rfl, registered⟩
      obtain ⟨fewer, rfl, prolonged⟩ := chain.prolong (Keyed.mem_keys_of_get? registered) fresh
      rw [outcome] at failed
      obtain ⟨notEndless, met, reached, place⟩ := shorter fewer (by omega)
        (references.of_reference reference parse led) prolonged failed
      refine ⟨notEndless, met, reached.of_reference reference parse led, ?_⟩
      rcases place with member | cyclic
      · rcases List.mem_append.mp member with before | last
        · exact .inl before
        · obtain rfl := List.mem_singleton.mp last
          exact .inr ⟨found, registered, reached⟩
      · exact .inr cyclic
  | malformed hops own value noReference written noList =>
    rw [flattenFrom_malformed noReference written noList] at failed
    cases failed
    cases about
  | fragments hops own items noReference written ih =>
    obtain ⟨item, member, failedItem⟩ :=
      exists_fragment_of_flattenFrom_eq_error noReference written failed
    obtain ⟨notEndless, met, reached, place⟩ := ih item member
      (references.of_fragment noReference written member) chain failedItem
    exact ⟨notEndless, met, reached.of_fragment noReference written member, place⟩

/-- Flattening within a registry gives exactly what can be derived, and fails on every other
schema. It fails for a chain of references only where an entity is composed of itself, always fails
there, and never needs more references than there are entities. -/
theorem flatten_iff_derives (registry : Registry) (name : String) (schema : Json)
    (references : registry.ComposedLocally schema) :
    (∀ flat, (∃ found, registry.flatten name schema = .ok found ∧ found.schema = .obj flat) ↔
      registry.Derives none schema flat) ∧
    ((∀ flat, ¬ registry.Derives none schema flat) →
      ∃ e, registry.flatten name schema = .error e) ∧
    (registry.ReachesCycle schema → ∃ e, registry.flatten name schema = .error e) ∧
    (∀ way, registry.flatten name schema = .error (.malformedSchema (.circular way)) →
      registry.ReachesCycle schema) ∧
    (∀ text, registry.flatten name schema ≠ .error (.notFound (.endless text))) ∧
    (∀ hops, registry.entries.length ≤ hops →
      registry.flattenFrom none hops [] name schema = registry.flatten name schema) := by
  have chain := ChainWithin.start registry.length_names_le
  have derived : ∀ {found}, registry.flatten name schema = .ok found →
      registry.Derives none schema found.fields := derives_of_flattenFrom
  have underivable : (∀ flat, ¬ registry.Derives none schema flat) →
      ∃ e, registry.flatten name schema = .error e := by
    intro none
    cases outcome : registry.flatten name schema with
    | error e => exact ⟨e, rfl⟩
    | ok found => exact absurd (derived outcome) (none _)
  refine ⟨fun flat => ⟨?_, fun derivation => ?_⟩, underivable, fun cycle => ?_,
    fun way failed => ?_, fun text failed => ?_, fun hops enough => ?_⟩
  · rintro ⟨found, flattened, same⟩
    obtain rfl : found.fields = flat := Json.obj.inj same
    exact derived flattened
  · obtain ⟨found, flattened, rfl⟩ : ∃ found, registry.flatten name schema = .ok found ∧
        found.fields = flat := derivation.flattenFrom references chain (by simp)
    exact ⟨found, flattened, rfl⟩
  · exact underivable fun flat derivation => derivation.not_reachesCycle cycle
  · obtain ⟨-, met, reached, place⟩ := reachesEntity_of_isAboutChain references chain failed rfl
    exact ⟨met, reached, by simpa using place⟩
  · exact (reachesEntity_of_isAboutChain references chain failed rfl).1 text rfl
  · have start : ChainWithin registry.names [] hops :=
      .start (by simpa [names, Keyed.keys] using enough)
    exact ((references.reachesAlike rfl).flattenFrom start chain).same

/-- An entity that is reached by two ways. -/
def diamond : Registry where
  entries := [
    ("Base", .obj [("type", .str "object"), ("x-tablename", .str "base")]),
    ("Left", .obj [("allOf", .arr [.obj [("$ref", .str "#/Base")]]), ("x-left", .bool true)]),
    ("Right", .obj [("$ref", .str "#/components/schemas/Base"), ("x-right", .bool true)])]
  place := none
  documents := Documents.empty

/-- A schema that composes the entity three times. -/
def diamondTop : Json :=
  .obj [("allOf", .arr [.obj [("$ref", .str "#/Left")], .obj [("$ref", .str "#/Right")],
    .obj [("$ref", .str "#/Base")]]), ("x-tablename", .str "top")]

theorem flatten_iff_derives_diamond : diamond.ComposedLocally diamondTop ∧
    diamond.Derives none diamondTop
      [("type", .str "object"), ("x-tablename", .str "top"), ("x-left", .bool true)] := by
  have references : diamond.ComposedLocally diamondTop :=
    RefersLocally.composedLocally (by decide +kernel) (by decide +kernel)
  have flattened : diamond.flatten "Top" diamondTop = .ok ⟨"Top",
      [("type", .str "object"), ("x-tablename", .str "top"), ("x-left", .bool true)]⟩ := by
    cbv
  exact ⟨references, ((flatten_iff_derives diamond "Top" diamondTop references).1 _).mp
    ⟨_, flattened, rfl⟩⟩

end Registry

end EntityMapping
