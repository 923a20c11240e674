import EntityMapping.Proofs.Prefixes
import EntityMapping.Proofs.WrittenKeys
import Mathlib.Data.List.ReduceOption

/-!
The properties of a model. A property is a relationship exactly as it was gathered, and otherwise a
column of its flat schema; a key column that has been written into the registry is never gathered,
and becomes a column that points where the key points.
-/

set_option autoImplicit false
set_option relaxedAutoImplicit false

namespace EntityMapping

open ForeignKey (IsKeySchema)

section Keys

variable {registry : Registry} {fields : Keyed Json} {type : PrimitiveType}
  {pointsAt property : String}

/-- A key column is no relationship. -/
theorem ForeignKey.IsKeySchema.gather? (isKey : IsKeySchema fields type pointsAt)
    (scalar : type.isScalar = true) : registry.gather? property (.obj fields) = .ok none := by
  simp [Registry.gather?, isKey.flatten, isKey.json?, isKey.primitiveType, scalar]

/-- A key column becomes a column that points where the key points. -/
theorem ForeignKey.IsKeySchema.columnProperty? {required : List String}
    {compiled : Option ModelProperty} (isKey : IsKeySchema fields type pointsAt)
    (scalar : type.isScalar = true)
    (found : Compilation.columnProperty? registry required property (.obj fields) = .ok compiled) :
    ∃ column, compiled = some ⟨property, .column column, .obj fields⟩ ∧
      column.foreignKey = some pointsAt := by
  simp only [Compilation.columnProperty?, isKey.flatten, ok_bind, isKey.json?,
    isKey.primitiveType, scalar] at found
  obtain ⟨column, built, found⟩ := bind_eq_ok.mp found
  obtain rfl := Except.ok.inj found
  exact ⟨column, rfl, isKey.column_foreignKey built⟩

end Keys

namespace Compilation

variable {registry : Registry} {required : List String} {gathered : Keyed Relationship}
  {declared : Keyed Json} {properties : List ModelProperty} {property : String}

/-- How the first of some properties is compiled. -/
def compiledProperty? (registry : Registry) (required : List String)
    (gathered : Keyed Relationship) (property : String) (schema : Json) :
    Except SchemaError (Option ModelProperty) :=
  match Keyed.get? gathered property with
  | some relationship =>
      .ok (some ⟨property, .relationship relationship, relationship.propertySchema⟩)
  | none => inContext property (columnProperty? registry required property schema)

theorem modelProperties_cons (property : String) (schema : Json) (rest : Keyed Json) :
    modelProperties registry required gathered ((property, schema) :: rest) =
      compiledProperty? registry required gathered property schema >>= fun compiled =>
        modelProperties registry required gathered rest >>= fun others =>
          .ok (compiled.toList ++ others) := by
  rw [modelProperties, compiledProperty?]
  cases Keyed.get? gathered property <;> rfl

/-- A column is the property that it is compiled from. -/
theorem columnProperty?_eq_some {schema : Json} {compiled : ModelProperty}
    (found : columnProperty? registry required property schema = .ok (some compiled)) :
    compiled.name = property ∧ compiled.artifacts.relationship? = none := by
  unfold columnProperty? at found
  obtain ⟨flat, -, found⟩ := bind_eq_ok.mp found
  obtain ⟨type, -, found⟩ := bind_eq_ok.mp found
  obtain ⟨json, -, found⟩ := bind_eq_ok.mp found
  dsimp only at found
  split at found
  · cases found
  · obtain ⟨column, -, found⟩ := bind_eq_ok.mp found
    obtain rfl := Option.some.inj (Except.ok.inj found)
    exact ⟨rfl, rfl⟩

theorem compiledProperty?_eq_some {schema : Json} {compiled : ModelProperty}
    (found : compiledProperty? registry required gathered property schema = .ok (some compiled)) :
    compiled.name = property ∧ compiled.artifacts.relationship? = Keyed.get? gathered property := by
  unfold compiledProperty? at found
  split at found
  · rename_i isGathered
    obtain rfl := Option.some.inj (Except.ok.inj found)
    exact ⟨rfl, isGathered.symm⟩
  · rename_i notGathered
    rw [notGathered]
    exact columnProperty?_eq_some (inContext_eq_ok.mp found)

/-- The properties of a model are those that are compiled from what is declared, in its order. -/
theorem modelProperties_eq_ok
    (compiled : modelProperties registry required gathered declared = .ok properties) :
    ∃ made, List.Forall₂ (fun field filed =>
        compiledProperty? registry required gathered field.1 field.2 = .ok filed) declared made ∧
      properties = made.reduceOption := by
  induction declared generalizing properties with
  | nil =>
    obtain rfl := Except.ok.inj compiled
    exact ⟨[], .nil, rfl⟩
  | cons field rest ih =>
    rw [modelProperties_cons] at compiled
    obtain ⟨first, foundFirst, compiled⟩ := bind_eq_ok.mp compiled
    obtain ⟨others, foundOthers, compiled⟩ := bind_eq_ok.mp compiled
    obtain rfl := Except.ok.inj compiled
    obtain ⟨made, each, rfl⟩ := ih foundOthers
    refine ⟨first :: made, .cons foundFirst each, ?_⟩
    cases first <;> simp

/-- Every property of a model is compiled from a property that is declared. -/
theorem declared_of_modelProperties
    (compiled : modelProperties registry required gathered declared = .ok properties) :
    ∀ property ∈ properties, ∃ schema, (property.name, schema) ∈ declared ∧
      compiledProperty? registry required gathered property.name schema = .ok (some property) := by
  obtain ⟨made, each, rfl⟩ := modelProperties_eq_ok compiled
  intro property member
  obtain ⟨⟨name, schema⟩, inDeclared, found⟩ :=
    exists_of_forall₂_right each (List.reduceOption_mem_iff.mp member)
  obtain rfl : property.name = name := (compiledProperty?_eq_some found).1
  exact ⟨schema, inDeclared, found⟩

/-- The properties of a model are in the order in which they are declared. -/
theorem sublist_of_modelProperties
    (compiled : modelProperties registry required gathered declared = .ok properties) :
    List.Sublist (properties.map ModelProperty.name) (Keyed.keys declared) := by
  obtain ⟨made, each, rfl⟩ := modelProperties_eq_ok compiled
  clear compiled
  induction each with
  | nil => exact .slnil
  | @cons field filed _ _ found _ ih =>
    cases filed with
    | none => simpa using ih.cons field.1
    | some only =>
      have name := (compiledProperty?_eq_some found).1
      simpa [name, Keyed.keys] using ih

/-- The relationships of a model are those that were gathered. -/
theorem relationship_of_modelProperties
    (compiled : modelProperties registry required gathered declared = .ok properties) :
    ∀ property ∈ properties,
      property.artifacts.relationship? = Keyed.get? gathered property.name := by
  intro property member
  obtain ⟨schema, -, found⟩ := declared_of_modelProperties compiled property member
  exact (compiledProperty?_eq_some found).2

/-- The first property of a name is what the schema of that name is compiled to. -/
theorem find?_of_modelProperties {schema : Json}
    (compiled : modelProperties registry required gathered declared = .ok properties)
    (found : Keyed.get? declared property = some schema) :
    ∃ first, compiledProperty? registry required gathered property schema = .ok first ∧
      ∀ only, first = some only →
        properties.find? (fun other => other.name = property) = some only := by
  induction declared generalizing properties with
  | nil => simp at found
  | cons field rest ih =>
    obtain ⟨name, value⟩ := field
    rw [modelProperties_cons] at compiled
    obtain ⟨first, foundFirst, compiled⟩ := bind_eq_ok.mp compiled
    obtain ⟨others, foundOthers, compiled⟩ := bind_eq_ok.mp compiled
    obtain rfl := Except.ok.inj compiled
    rw [Keyed.get?_cons] at found
    by_cases same : name = property
    · subst same
      obtain rfl : value = schema := by simpa using found
      refine ⟨first, foundFirst, ?_⟩
      rintro only rfl
      simp [(compiledProperty?_eq_some foundFirst).1]
    · rw [if_neg same] at found
      obtain ⟨wanted, foundWanted, isFirst⟩ := ih foundOthers found
      refine ⟨wanted, foundWanted, fun only isWanted => ?_⟩
      rw [List.find?_append, ← isFirst only isWanted]
      cases first with
      | none => rfl
      | some first => simp [(compiledProperty?_eq_some foundFirst).1, same]

/-- A key column among the properties of an entity becomes a column of its model, unless it was
gathered as a relationship before. -/
theorem find?_key_of_modelProperties {fields : Keyed Json} {type : PrimitiveType}
    {pointsAt : String} (isKey : IsKeySchema fields type pointsAt) (scalar : type.isScalar = true)
    (compiled : modelProperties registry required gathered declared = .ok properties)
    (found : Keyed.get? declared property = some (.obj fields))
    (notGathered : property ∉ Keyed.keys gathered) :
    ∃ column, properties.find? (fun other => other.name = property) =
        some ⟨property, .column column, .obj fields⟩ ∧ column.foreignKey = some pointsAt := by
  obtain ⟨first, foundFirst, isFirst⟩ := find?_of_modelProperties compiled found
  rw [compiledProperty?, (Keyed.get?_eq_none_iff _ _).mpr notGathered] at foundFirst
  obtain ⟨column, rfl, points⟩ := isKey.columnProperty? scalar (inContext_eq_ok.mp foundFirst)
  exact ⟨column, isFirst _ rfl, points⟩

/-- What is gathered from some properties was gathered from one of them. -/
theorem gathered_of_linkProperties {name : String} {before after : Compilation}
    (linked : (linkProperties name declared).runOn before = (.ok gathered, after)) :
    ∀ entry ∈ gathered, ∃ schema state, (entry.1, schema) ∈ declared ∧
      Registry.gather? state entry.1 schema = .ok (some entry.2) := by
  induction declared generalizing gathered before with
  | nil =>
    simp only [linkProperties, CompileM.runOn_pure, Prod.mk.injEq, Except.ok.injEq] at linked
    obtain ⟨rfl, -⟩ := linked
    simp
  | cons field rest ih =>
    obtain ⟨property, schema⟩ := field
    obtain ⟨one, middle, others, first, later, rfl⟩ := linkProperties_cons_eq_ok.mp linked
    intro entry member
    rcases List.mem_append.mp member with here | inOthers
    · obtain ⟨relationship, rfl, rfl⟩ := Option.map_eq_some_iff.mp (Option.mem_toList.mp here)
      exact ⟨schema, before.registry, List.mem_cons_self, (linkProperty_eq_some first).1⟩
    · obtain ⟨schema, state, inRest, found⟩ := ih later entry inOthers
      exact ⟨schema, state, List.mem_cons_of_mem _ inRest, found⟩

/-- Relationships are gathered in the order of the properties. -/
theorem sublist_of_linkProperties {name : String} {before after : Compilation}
    (linked : (linkProperties name declared).runOn before = (.ok gathered, after)) :
    List.Sublist (Keyed.keys gathered) (Keyed.keys declared) := by
  induction declared generalizing gathered before with
  | nil =>
    obtain ⟨same, -⟩ := Prod.mk.inj linked
    obtain rfl := Except.ok.inj same
    exact .slnil
  | cons field rest ih =>
    obtain ⟨property, schema⟩ := field
    obtain ⟨one, middle, others, first, later, rfl⟩ := linkProperties_cons_eq_ok.mp linked
    cases one with
    | none => exact (ih later).cons property
    | some relationship => exact (ih later).cons_cons property

end Compilation

end EntityMapping
