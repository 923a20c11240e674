import EntityMapping.Proofs.ForeignKeys
import EntityMapping.Proofs.Parents

/-!
Foreign key columns that are written into a registry. The entity has the column in its own schema
then, and the table that the key points at keeps its name, also where that entity is composed of the
one that has got the key.
-/

set_option autoImplicit false
set_option relaxedAutoImplicit false

namespace EntityMapping

open Keyed (Distinct)
open ForeignKey (Source IsKeySchema)
open Registry (wrap propertyFragment)

/-- A key column of an entity's own schema is flat. -/
theorem Registry.flatProperty?_of_isKeySchema {registry : Registry} {fields entity : Keyed Json}
    {property pointsAt : String} {type : PrimitiveType} (has : HasProperty entity property (.obj fields))
    (isKey : IsKeySchema fields type pointsAt) :
    registry.flatProperty? entity property = .ok (some ⟨property, fields⟩) := by
  obtain ⟨properties, written, found⟩ := has
  have listed : (Keyed.get? entity "properties").bind (·.get? property) = some (.obj fields) := by
    rw [written]
    exact found
  simp only [flatProperty?, listed, isKey.flatten]
  rfl

namespace Rewriting

/-- A key column that is written into a registry. -/
def ofKey {registry : Registry} {target pointsAt : String} {schema : Json}
    {fields : Keyed Json} {type : PrimitiveType} (property : String) (keyed : registry.WellKeyed)
    (registered : registry.get? target = some schema)
    (isKey : IsKeySchema fields type pointsAt) : Rewriting where
  registry := registry
  entity := target
  schema := schema
  fragment := propertyFragment property (.obj fields)
  keyed := keyed
  registered := registered
  isFragment := isFragment_propertyFragment _ _
  fragmentKeyed := by
    have listed : (Json.obj [(property, .obj fields)]).isWellKeyed = true :=
      (Json.isWellKeyed_obj _).mpr ⟨by simp [Distinct], by simp [isKey.keyed]⟩
    exact (Json.isWellKeyed_obj _).mpr
      ⟨by simp [propertyFragment, Distinct],
        by simp [propertyFragment, Json.isWellKeyed_str, listed]⟩
  noTable := rfl
  noParent := rfl

variable {rewriting : Rewriting} {keyword name property owning column : String}
  {added schema : Json} {related : Option Json → Option Json → Prop}

/-- An entity is registered and flattened alike in both registries. -/
theorem flatten_alike (registered : rewriting.registry.get? name = some schema)
    (carries : rewriting.Carries none schema keyword related) {flat : FlatSchema}
    (flattened : rewriting.registry.flatten name schema = .ok flat) :
    ∃ after other, rewriting.changed.get? name = some after ∧ rewriting.Rewritten schema after ∧
      rewriting.changed.flatten name after = .ok other ∧
      Related keyword related flat.fields other.fields := by
  have entries : Alike rewriting.Rewritten (rewriting.registry.registered name)
      (rewriting.changed.registered name) := registered_alike name
  rw [Registry.registered_eq_ok.mpr registered] at entries
  obtain ⟨after, entry, rewritten⟩ := entries.of_ok_left
  have flats : Alike (fun flat other => Related keyword related flat.fields other.fields)
      (rewriting.registry.flatten name schema) (rewriting.changed.flatten name after) :=
    carries.flattenWithout rewritten
  rw [flattened] at flats
  obtain ⟨other, flattenedToo, same⟩ := flats.of_ok_left
  exact ⟨after, other, Registry.registered_eq_ok.mp entry, rewritten, flattenedToo, same⟩

/-- The entity that gets a property has it in its own schema. -/
theorem ownSchema_of_property {own : Registry.OwnSchema}
    (fragment : rewriting.fragment = propertyFragment property added)
    (found : rewriting.registry.ownSchema rewriting.entity rewriting.schema = .ok own) :
    ∃ other, rewriting.changed.ownSchema rewriting.entity
        (wrap rewriting.schema rewriting.fragment) = .ok other ∧
      HasProperty other.fields property added := by
  obtain ⟨parentFound, flat, flattened, -⟩ := Registry.ownSchema_eq_ok.mp found
  have whole := rewriting.keyed.of_get? rewriting.registered
  have below : Alike (fun flat other => Related "x-tablename" (· = ·) flat.fields other.fields)
      (rewriting.registry.flattenWithout own.parent rewriting.entity rewriting.schema)
      (rewriting.changed.flattenWithout own.parent rewriting.entity rewriting.schema) :=
    (carries_of_silent rewriting.noTable (by decide) whole).flattenWithout (.inl rfl)
  rw [flattened] at below
  obtain ⟨other, flattenedToo, -⟩ := below.of_ok_left
  refine ⟨⟨own.parent, overlaid other.fields rewriting.fragment⟩, ?_, ?_⟩
  · refine Registry.ownSchema_eq_ok.mpr ⟨?_, ⟨rewriting.entity, _⟩, ?_, rfl⟩
    · rw [parent?_changed whole (.inr ⟨rfl, rfl⟩)]
      exact parentFound
    · rw [Registry.flattenWithout, Registry.flattenFrom_wrap rewriting.isFragment]
      rw [Registry.flattenWithout] at flattenedToo
      rw [flattenedToo]
      rfl
  · rw [fragment]
    exact hasProperty_overlaid _ _ _

/-- The table that a key points at keeps its name. -/
theorem keySource_tablename {source other : Source}
    (found : rewriting.registry.keySource owning column = .ok source)
    (foundToo : rewriting.changed.keySource owning column = .ok other) :
    other.tablename = source.tablename := by
  obtain ⟨schema, owner, entry, flattened, tablename, -⟩ := Registry.keySource_eq_ok.mp found
  obtain ⟨after, ownerToo, entryToo, flattenedToo, tablenameToo, -⟩ :=
    Registry.keySource_eq_ok.mp foundToo
  have whole := rewriting.keyed.of_get? entry
  obtain ⟨_, _, entry', -, flattened', -, -, same⟩ :=
    flatten_alike entry (carries_of_silent rewriting.noTable (by decide) whole) flattened
  obtain rfl := Option.some.inj (entryToo.symm.trans entry')
  obtain rfl := Except.ok.inj (flattenedToo.symm.trans flattened')
  have sameWord : owner.keywords.tablename? = ownerToo.keywords.tablename? :=
    KeywordReader.as_congr same
  rw [tablename, tablenameToo] at sameWord
  exact (Option.some.inj (Except.ok.inj sameWord)).symm

end Rewriting

end EntityMapping
