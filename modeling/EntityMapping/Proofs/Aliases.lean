import Mathlib.Control.Traversable.Instances
import EntityMapping.Proofs.LocalComposition
import EntityMapping.Proofs.LocalRelationships

/-!
Aliases of entities. An entity may be a mere reference to another one, and that again; the entity at
the end of such a chain is the one that a reference comes to. Its name and its schema stay together:
whatever flattens by an alias has the name of the entity and is what the entity amounts to, and a
relationship that is declared by an alias is one to that entity.
-/

set_option autoImplicit false
set_option relaxedAutoImplicit false

namespace EntityMapping

attribute [ext] FlatSchema

namespace Registry

variable {registry : Registry} {text name other : String} {own flat : Keyed Json}
  {schema : Json} {hops : Nat} {visited : List String} {found : FlatSchema}

/-- A reference comes to an entity, which is no mere reference, by entities that are. -/
inductive AliasOf (registry : Registry) : String → String → Prop
  | entity {text name : String} {target : Json} : Reference.parse text = .ok (.entity name) →
      registry.get? name = some target → target.get? "$ref" = none → AliasOf registry text name
  | onward {text next later name : String} {own : Keyed Json} :
      Reference.parse text = .ok (.entity next) → registry.get? next = some (.obj own) →
      Keyed.get? own "$ref" = some (.str later) → AliasOf registry later name →
      AliasOf registry text name

namespace AliasOf

theorem registered (comes : registry.AliasOf text name) :
    ∃ schema, registry.get? name = some schema ∧ schema.get? "$ref" = none := by
  induction comes with
  | entity _ registered noReference => exact ⟨_, registered, noReference⟩
  | onward _ _ _ _ ih => exact ih

/-- A reference comes to one entity at most. -/
theorem unique (one : registry.AliasOf text name) (two : registry.AliasOf text other) :
    name = other := by
  induction one with
  | entity parse registered noReference =>
    cases two with
    | entity parseToo => exact Reference.entity.inj (Except.ok.inj (parse.symm.trans parseToo))
    | onward parseToo registeredToo reference =>
      obtain rfl := Reference.entity.inj (Except.ok.inj (parse.symm.trans parseToo))
      obtain rfl := Option.some.inj (registered.symm.trans registeredToo)
      cases noReference.symm.trans reference
  | onward parse registered reference _ ih =>
    cases two with
    | entity parseToo registeredToo noReference =>
      obtain rfl := Reference.entity.inj (Except.ok.inj (parse.symm.trans parseToo))
      obtain rfl := Option.some.inj (registered.symm.trans registeredToo)
      cases noReference.symm.trans reference
    | onward parseToo registeredToo referenceToo two =>
      obtain rfl := Reference.entity.inj (Except.ok.inj (parse.symm.trans parseToo))
      obtain rfl := Json.obj.inj (Option.some.inj (registered.symm.trans registeredToo))
      obtain rfl := Json.str.inj (Option.some.inj (reference.symm.trans referenceToo))
      exact ih two

section Entity

variable (comes : registry.AliasOf text name)
  (reference : Keyed.get? own "$ref" = some (.str text))
  (registered : registry.get? name = some schema)

include comes reference registered

/-- The entity is a part of the reference to it. -/
theorem composes : registry.Composes (.obj own) schema := by
  induction comes generalizing own with
  | entity parse =>
    exact .reference reference parse (target_entity_eq_ok.mpr ⟨rfl, registered⟩) (.self schema)
  | onward parse registeredNext later _ ih =>
    exact .reference reference parse (target_entity_eq_ok.mpr ⟨rfl, registeredNext⟩)
      (ih later registered)

/-- The reference amounts to what the entity amounts to. -/
theorem derives (derivation : registry.Derives none schema flat) :
    registry.Derives none (.obj own) flat := by
  induction comes generalizing own with
  | entity parse =>
    exact .reference reference parse (by simp) (target_entity_eq_ok.mpr ⟨rfl, registered⟩)
      derivation
  | onward parse registeredNext later _ ih =>
    exact .reference reference parse (by simp) (target_entity_eq_ok.mpr ⟨rfl, registeredNext⟩)
      (ih later registered)

theorem composedLocally (references : registry.ComposedLocally schema) :
    registry.ComposedLocally (.obj own) := by
  induction comes generalizing own with
  | entity parse => exact .of_target reference parse registered references
  | onward parse registeredNext later _ ih =>
    exact .of_target reference parse registeredNext (ih later registered)

end Entity

/-- A reference that flattens comes to the entity whose name it is flattened under. -/
theorem of_flattenFrom (references : registry.ComposedLocally (.obj own))
    (reference : Keyed.get? own "$ref" = some (.str text))
    (flattened : registry.flattenFrom none hops visited other (.obj own) = .ok found) :
    registry.AliasOf text found.name ∧ ∃ schema, registry.get? found.name = some schema ∧
      registry.Derives none schema found.fields := by
  induction hops using Nat.strongRecOn generalizing visited other own text with
  | ind hops shorter =>
  rw [flattenFrom_reference reference] at flattened
  obtain ⟨_, parsed, isText, parse, ⟨skipping, -⟩ | followed⟩ := flattenTarget_eq_ok flattened
  · cases skipping
  obtain rfl := Json.str.inj isText
  obtain ⟨-, -, next, target, fewer, rfl, led, rest⟩ := followed
  obtain ⟨entity, rfl⟩ := references text (.self reference) parsed parse
  obtain ⟨rfl, registered⟩ := target_entity_eq_ok.mp led
  cases isReference : target.get? "$ref" with
  | none =>
    have sameName : found.name = next := name_of_flattenFrom isReference rest
    exact ⟨sameName ▸ .entity parse registered isReference, target, sameName ▸ registered,
      derives_of_flattenFrom rest⟩
  | some later =>
    obtain ⟨fields, rfl⟩ : ∃ fields, target = .obj fields := by
      cases target <;> simp_all [Json.get?, Json.fields?]
    have referenceLater : Keyed.get? fields "$ref" = some later := isReference
    obtain ⟨text, rfl⟩ : ∃ text, later = .str text := by
      rw [flattenFrom_reference referenceLater] at rest
      obtain ⟨text, _, isText, -⟩ := flattenTarget_eq_ok rest
      exact ⟨text, isText⟩
    obtain ⟨comes, found⟩ := shorter fewer (by omega)
      (references.of_reference reference parse led) referenceLater rest
    exact ⟨.onward parse registered referenceLater comes, found⟩

end AliasOf

/-- What flattens by an alias has the name of the entity that the alias comes to, and is what that
entity amounts to. So all aliases of an entity flatten alike, and a relationship that is declared by
one of them is a relationship to the entity: it has its name, and takes from it what is not written
beside the reference. -/
theorem flatten_alias (references : registry.ComposedLocally (.obj [("$ref", .str text)]))
    (flattened : registry.flatten name (.obj [("$ref", .str text)]) = .ok found) :
    registry.AliasOf text found.name ∧
    (∃ schema, registry.get? found.name = some schema ∧ schema.get? "$ref" = none ∧
      registry.flatten found.name schema = .ok found) ∧
    (∀ other, registry.AliasOf other found.name → ∀ asked,
      registry.flatten asked (.obj [("$ref", .str other)]) = .ok found) ∧
    ∀ other property schema relationship referring collected,
      registry.AliasOf other found.name →
      registry.gather? property schema = .ok (some relationship) →
      registry.Refers schema relationship.type referring →
      Relationship.collect property referring = .ok collected →
      Keyed.get? collected "$ref" = some (.str other) →
      relationship.modelName = found.name ∧ found.keywords.primitiveType = .ok .object ∧
        relationship.TakesFrom collected found.fields := by
  obtain ⟨comes, schema, registered, derivation⟩ := AliasOf.of_flattenFrom references rfl flattened
  obtain ⟨_, registeredToo, noReference⟩ := comes.registered
  obtain rfl := Option.some.inj (registered.symm.trans registeredToo)
  have inEntity := references.of_composes (comes.composes rfl registered)
  have ofDerivation : ∀ {whole asked}, registry.ComposedLocally whole →
      registry.Derives none whole found.fields →
      ∃ flat, registry.flatten asked whole = .ok flat ∧ flat.fields = found.fields :=
    fun references derivation => derivation.flattenFrom references
      (.start registry.length_names_le) (by simp)
  have ofAlias : ∀ other, registry.AliasOf other found.name → ∀ asked,
      registry.flatten asked (.obj [("$ref", .str other)]) = .ok found := by
    intro other comesToo asked
    have within : registry.ComposedLocally (.obj [("$ref", .str other)]) :=
      comesToo.composedLocally rfl registered inEntity
    obtain ⟨flat, flattenedToo, fields⟩ :=
      ofDerivation within (comesToo.derives rfl registered derivation)
    have sameName := (AliasOf.of_flattenFrom within rfl flattenedToo).1.unique comesToo
    rw [flattenedToo, FlatSchema.ext sameName fields]
  refine ⟨comes, ⟨schema, registered, noReference, ?_⟩, ofAlias, ?_⟩
  · obtain ⟨flat, flattenedToo, fields⟩ := ofDerivation inEntity derivation
    rw [flattenedToo, FlatSchema.ext (name_of_flattenFrom noReference flattenedToo) fields]
  · intro other property schema relationship referring collected comesToo gathered refers written
      reference
    obtain ⟨referringToo, _, _, flat, refersToo, gathers⟩ := gathers_of_gather? gathered
    -- the reference is written in one place only, and comes to the entity
    obtain rfl := refers.unique refersToo
    obtain rfl := Except.ok.inj (written.symm.trans gathers.written)
    obtain rfl := Json.str.inj (Option.some.inj (reference.symm.trans gathers.reference))
    obtain rfl := Except.ok.inj ((ofAlias other comesToo property).symm.trans gathers.flattened)
    exact ⟨gathers.modelName, gathers.isObject, gathers.takesFrom⟩

/-- Persons, who are keepers by two aliases, and who have pets unless it is said otherwise. -/
def kennel : Registry where
  entries := [
    ("Keeper", .obj [("$ref", .str "#/components/schemas/Human"), ("x-backref", .str "unheard")]),
    ("Human", .obj [("$ref", .str "#/Person")]),
    ("Person", .obj [("allOf", .arr [.obj [("type", .str "object"), ("x-backref", .str "pets")],
      .obj [("x-tablename", .str "person")]])])]
  place := none
  documents := Documents.empty

/-- What is kept by a person is among the pets of that person. -/
theorem flatten_alias_kennel :
    kennel.ComposedLocally (.obj [("$ref", .str "#/Keeper")]) ∧
    kennel.AliasOf "#/Keeper" "Person" ∧ kennel.AliasOf "#/Human" "Person" ∧
    ∃ relationship,
      kennel.gather? "keeper" (.obj [("$ref", .str "#/Human")]) = .ok (some relationship) ∧
      relationship.modelName = "Person" ∧ relationship.backref.map Backref.name = some "pets" := by
  have references : kennel.ComposedLocally (.obj [("$ref", .str "#/Keeper")]) :=
    RefersLocally.composedLocally (by decide +kernel) (by decide +kernel)
  have flattened : kennel.flatten "keeper" (.obj [("$ref", .str "#/Keeper")]) =
      .ok ⟨"Person", [("type", .str "object"), ("x-backref", .str "pets"),
        ("x-tablename", .str "person")]⟩ := by cbv
  have parse : Reference.parse "#/Human" = .ok (.entity "Human") := by cbv
  have human : kennel.AliasOf "#/Human" "Person" :=
    .onward parse rfl rfl (.entity (by cbv) rfl rfl)
  have gathered : kennel.gather? "keeper" (.obj [("$ref", .str "#/Human")]) =
      .ok (some ((Relationship.toEntity .object "Person").withBackref "pets" none)) := by cbv
  have collected : Relationship.collect "keeper" (.obj [("$ref", .str "#/Human")]) =
      .ok [("$ref", .str "#/Human")] := by cbv
  obtain ⟨keeper, -, -, related⟩ := flatten_alias references flattened
  obtain ⟨modelName, -, taken⟩ :=
    related "#/Human" "keeper" _ _ _ _ human gathered .object collected rfl
  exact ⟨references, keeper, human, _, gathered, modelName, (Except.ok.inj taken.backref).symm⟩

end Registry

end EntityMapping
