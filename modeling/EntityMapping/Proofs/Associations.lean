import EntityMapping.Proofs.Declarations

/-!
Association tables, read off the entities that they join. Either side has one primary key among all
its properties, and the table has a column for it; a run collects a table once under its name.
-/

set_option autoImplicit false
set_option relaxedAutoImplicit false

namespace EntityMapping

open Keyed (Distinct)

namespace Registry

variable {registry : Registry} {name property secondary : String} {schema : Json}
  {key : FlatSchema} {properties : Keyed Json}

section PrimaryKeys

/-- A property is a primary key. -/
def IsPrimaryKey (registry : Registry) (property : String) (schema : Json) (flat : FlatSchema) :
    Prop :=
  registry.flatten property schema = .ok flat ∧ flat.keywords.primaryKey? = .ok (some true)

/-- It can be told of every property whether it is a primary key. -/
def TellsPrimaryKeys (registry : Registry) (properties : Keyed Json) : Prop :=
  ∀ field ∈ properties, ∃ flat isKey, registry.flatten field.1 field.2 = .ok flat ∧
    flat.keywords.primaryKey? = .ok isKey

theorem primaryKeysOf_eq_ok {keys : Keyed FlatSchema}
    (found : registry.primaryKeysOf properties = .ok keys) :
    registry.TellsPrimaryKeys properties ∧ (Keyed.keys keys).Sublist (Keyed.keys properties) ∧
      ∀ property flat, (property, flat) ∈ keys ↔
        ∃ schema, (property, schema) ∈ properties ∧ registry.IsPrimaryKey property schema flat := by
  induction properties generalizing keys with
  | nil =>
    obtain rfl := Except.ok.inj found
    exact ⟨by simp [TellsPrimaryKeys], List.Sublist.slnil, by simp⟩
  | cons field rest ih =>
    obtain ⟨name, schema⟩ := field
    obtain ⟨flat, flattened, found⟩ := bind_eq_ok.mp found
    obtain ⟨isKey, told, found⟩ := bind_eq_ok.mp found
    obtain ⟨others, foundOthers, found⟩ := bind_eq_ok.mp found
    obtain rfl := Except.ok.inj found
    obtain ⟨tells, sublist, members⟩ := ih foundOthers
    have tellsAll : registry.TellsPrimaryKeys ((name, schema) :: rest) := by
      intro field member
      rcases List.mem_cons.mp member with rfl | later
      · exact ⟨flat, isKey, flattened, told⟩
      · exact tells field later
    have isPrimary : ∀ another, registry.IsPrimaryKey name schema another ↔
        another = flat ∧ isKey = some true := by
      intro another
      constructor
      · rintro ⟨flattenedToo, toldToo⟩
        obtain rfl := Except.ok.inj (flattened.symm.trans flattenedToo)
        exact ⟨rfl, Except.ok.inj (told.symm.trans toldToo)⟩
      · rintro ⟨rfl, rfl⟩
        exact ⟨flattened, told⟩
    refine ⟨tellsAll, ?_, fun property another => ?_⟩
    · by_cases isTrue : isKey = some true
      · simpa [isTrue] using sublist
      · simpa [isTrue] using sublist.trans (List.sublist_cons_self _ _)
    · have split : (∃ value, (property, value) ∈ (name, schema) :: rest ∧
            registry.IsPrimaryKey property value another) ↔
          (property = name ∧ another = flat ∧ isKey = some true) ∨ (property, another) ∈ others := by
        rw [members]
        constructor
        · rintro ⟨value, member, primary⟩
          rcases List.mem_cons.mp member with same | later
          · obtain ⟨rfl, rfl⟩ := Prod.mk.inj same
            exact .inl ⟨rfl, (isPrimary another).mp primary⟩
          · exact .inr ⟨value, later, primary⟩
        · rintro (⟨rfl, isHere⟩ | ⟨value, later, primary⟩)
          · exact ⟨schema, List.mem_cons_self, (isPrimary another).mpr isHere⟩
          · exact ⟨value, List.mem_cons_of_mem _ later, primary⟩
      rw [split]
      by_cases isTrue : isKey = some true
      · simp [isTrue]
      · simp [isTrue]

theorem exists_primaryKeysOf (tells : registry.TellsPrimaryKeys properties) :
    ∃ keys, registry.primaryKeysOf properties = .ok keys := by
  induction properties with
  | nil => exact ⟨[], rfl⟩
  | cons field rest ih =>
    obtain ⟨keys, found⟩ := ih fun other member => tells other (List.mem_cons_of_mem _ member)
    obtain ⟨flat, isKey, flattened, told⟩ := tells field List.mem_cons_self
    exact ⟨_, by rw [primaryKeysOf, flattened, ok_bind, told, ok_bind, found, ok_bind]; rfl⟩

/-- One property is the only primary key. -/
theorem primaryKeysOf_single (distinct : Distinct properties) :
    registry.primaryKeysOf properties = .ok [(property, key)] ↔
      registry.TellsPrimaryKeys properties ∧
      (∃ schema, (property, schema) ∈ properties ∧ registry.IsPrimaryKey property schema key) ∧
      ∀ other schema flat, (other, schema) ∈ properties →
        registry.IsPrimaryKey other schema flat → other = property := by
  constructor
  · intro found
    obtain ⟨tells, -, members⟩ := primaryKeysOf_eq_ok found
    refine ⟨tells, (members property key).mp (List.mem_singleton_self _),
      fun other schema flat member primary => ?_⟩
    have inKeys := (members other flat).mpr ⟨schema, member, primary⟩
    exact (Prod.mk.inj (List.mem_singleton.mp inKeys)).1
  · rintro ⟨tells, isKey, only⟩
    obtain ⟨keys, found⟩ := exists_primaryKeysOf tells
    obtain ⟨-, sublist, members⟩ := primaryKeysOf_eq_ok found
    have inKeys := (members property key).mpr isKey
    have names : Keyed.keys keys = [property] := by
      have nodup : (Keyed.keys keys).Nodup := distinct.sublist sublist
      have each : ∀ other ∈ Keyed.keys keys, other = property := by
        intro other member
        obtain ⟨⟨_, flat⟩, inList, rfl⟩ := List.mem_map.mp member
        obtain ⟨schema, listed, primary⟩ := (members _ flat).mp inList
        exact only _ schema flat listed primary
      have isIn : property ∈ Keyed.keys keys := List.mem_map.mpr ⟨_, inKeys, rfl⟩
      rw [List.eq_replicate_of_mem each] at nodup ⊢
      have atMost := List.nodup_replicate.mp nodup
      have atLeast : 0 < (Keyed.keys keys).length := List.length_pos_of_mem isIn
      rw [show (Keyed.keys keys).length = 1 by omega]
      rfl
    obtain ⟨pair, rfl⟩ : ∃ pair, keys = [pair] := by
      obtain ⟨pair, rest, rfl, -, isEmpty⟩ := List.map_eq_cons_iff.mp names
      obtain rfl := List.map_eq_nil_iff.mp isEmpty
      exact ⟨pair, rfl⟩
    rw [List.mem_singleton.mp inKeys]
    exact found

end PrimaryKeys

/-- The column of an association table for an entity, given its only primary key. -/
def associationColumn (tablename property : String) (key : FlatSchema) :
    Except SchemaError AssociationColumn := do
  let type ← key.keywords.typeText
  let format ← key.keywords.format?
  let maxLength ← key.keywords.maxLength?
  let schema := ForeignKey.columnSchema type format maxLength none
    (ForeignKey.target tablename property)
  return ⟨ForeignKey.propertyName tablename property, ← Column.ofSchema (.obj schema) none⟩

theorem associationColumn_eq_ok {tablename property : String} {side : AssociationColumn} :
    associationColumn tablename property key = .ok side ↔
      ∃ type format maxLength column, key.keywords.typeText = .ok type ∧
        key.keywords.format? = .ok format ∧ key.keywords.maxLength? = .ok maxLength ∧
        Column.ofSchema (.obj (ForeignKey.columnSchema type format maxLength none
          (ForeignKey.target tablename property))) none = .ok column ∧
        side = ⟨ForeignKey.propertyName tablename property, column⟩ := by
  unfold associationColumn
  simp only [bind_eq_ok, pure_eq_ok, Except.ok.injEq]
  constructor
  · rintro ⟨type, typed, format, formatted, maxLength, sized, column, isColumn, rfl⟩
    exact ⟨type, format, maxLength, column, typed, formatted, sized, isColumn, rfl⟩
  · rintro ⟨type, format, maxLength, column, typed, formatted, sized, isColumn, rfl⟩
    exact ⟨type, typed, format, formatted, maxLength, sized, column, isColumn, rfl⟩

theorem associationSide_eq_ok {side : AssociationColumn} :
    registry.associationSide secondary name = .ok side ↔
      ∃ schema flat tablename property key, registry.get? name = some schema ∧
        registry.flatten name schema = .ok flat ∧
        flat.keywords.tablename? = .ok (some tablename) ∧
        registry.primaryKeysOf (propertiesIn flat.fields) = .ok [(property, key)] ∧
        associationColumn tablename property key = .ok side := by
  constructor
  · intro found
    unfold associationSide at found
    cases entry : registry.get? name with
    | none => simp [entry] at found
    | some schema =>
    simp only [entry, pure_eq_ok, ok_bind] at found
    obtain ⟨flat, flattened, found⟩ := bind_eq_ok.mp found
    obtain ⟨tablename, named, found⟩ := bind_eq_ok.mp found
    cases tablename with
    | none => simp at found
    | some tablename =>
    obtain ⟨keys, foundKeys, found⟩ := bind_eq_ok.mp found
    split at found
    · cases found
    · exact ⟨schema, flat, tablename, _, _, rfl, flattened, named, foundKeys, found⟩
    · cases found
  · rintro ⟨schema, flat, tablename, property, key, entry, flattened, named, foundKeys, found⟩
    unfold associationSide
    simp only [entry, pure_eq_ok, ok_bind, flattened, named]
    have same : registry.primaryKeysOf (propertiesOf flat.fields) = .ok [(property, key)] := foundKeys
    rw [same, ok_bind]
    exact found

theorem association_eq_ok {left right : String} {table : AssociationTable} :
    registry.association secondary left right = .ok table ↔
      ∃ first second, registry.associationSide secondary left = .ok first ∧
        registry.associationSide secondary right = .ok second ∧ first.name ≠ second.name ∧
        table = ⟨secondary, first, second⟩ := by
  unfold association
  simp only [bind_eq_ok]
  constructor
  · rintro ⟨first, foundFirst, second, foundSecond, found⟩
    split at found
    · simp at found
    · rename_i different
      exact ⟨first, second, foundFirst, foundSecond, different, (Except.ok.inj found).symm⟩
  · rintro ⟨first, second, foundFirst, foundSecond, different, rfl⟩
    exact ⟨first, foundFirst, second, foundSecond, by simp [different]⟩

end Registry

namespace Compilation

variable {before after : Compilation} {table : AssociationTable}

/-- How a table is collected: it is new, or one like it is there already. -/
theorem addTable_eq_ok : (addTable table).runOn before = (.ok (), after) ↔
    match before.tables.find? fun existing => existing.name = table.name with
    | none => after = { before with tables := before.tables ++ [table] }
    | some existing => existing.isEquivalent table = true ∧ after = before := by
  unfold addTable
  simp only [CompileM.runOn_bind, CompileM.runOn_get]
  cases before.tables.find? fun existing => existing.name = table.name with
  | none => simp [eq_comm]
  | some existing =>
    by_cases equivalent : existing.isEquivalent table = true
    · simp [equivalent, @eq_comm _ before after]
    · simp [equivalent]

/-- Collecting a table leaves everything else as it is, and adds that table at most. -/
theorem mem_tables_of_addTable (added : (addTable table).runOn before = (.ok (), after)) :
    after.registry = before.registry ∧
      ∀ other ∈ after.tables, other ∈ before.tables ∨ other = table := by
  have isThere := addTable_eq_ok.mp added
  split at isThere
  · subst isThere
    exact ⟨rfl, fun other member => by simpa using member⟩
  · obtain ⟨-, rfl⟩ := isThere
    exact ⟨rfl, fun other member => .inl member⟩

end Compilation

end EntityMapping
