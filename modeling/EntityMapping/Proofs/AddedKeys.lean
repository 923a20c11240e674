import EntityMapping.Proofs.DressedDeclarations
import EntityMapping.Proofs.EnsuringTwice
import EntityMapping.Proofs.JoinedFields
import EntityMapping.Proofs.LocalRelationships
import EntityMapping.Proofs.Moments

/-!
The key columns that the relationships of a registry add, told from the registry as it is given.
They are settled if no entity but a child of their holder is composed of the holder, if nothing of
their names is there already, and if no key points at them. Then it does not matter to the keys
which of them have been added: what a key points at stays the same, and whether a key is needed is a
question of the holder's own schema and of the keys that it has got.
-/

set_option autoImplicit false
set_option relaxedAutoImplicit false

namespace EntityMapping

open Keyed (Distinct)
open ForeignKey (Source Requirement IsKeySchema keySchema)

theorem Additions.get?_keyProperties (additions : Additions) (key : String) :
    Keyed.get? additions.keyProperties key = (Keyed.get? additions.keys key).map .obj := by
  unfold keyProperties
  induction additions.keys with
  | nil => rfl
  | cons field rest ih =>
    rw [List.map_cons, Keyed.get?_cons, Keyed.get?_cons, ih]
    split <;> rfl

theorem IsFields.valueOver {additions : Additions} {value : Option Json} (isFields : IsFields value) :
    IsFields (additions.valueOver "properties" value) := by
  have each : ∀ fragment ∈ additions.fragments, IsFields (Keyed.get? fragment "properties") := by
    intro fragment member
    rcases List.mem_append.mp member with inBackrefs | inKeys
    · obtain ⟨backrefs, -, rfl⟩ := Option.map_eq_some_iff.mp (Option.mem_toList.mp inBackrefs)
      exact isFields_none
    · obtain ⟨key, -, rfl⟩ := List.mem_map.mp inKeys
      exact isFields_obj (by simp [Distinct])
  unfold Additions.valueOver
  generalize additions.fragments = fragments at each
  induction fragments generalizing value with
  | nil => exact isFields
  | cons first rest ih =>
    exact ih (isFields.laid (by decide) (each first List.mem_cons_self))
      fun fragment member => each fragment (List.mem_cons_of_mem _ member)

/-- Properties with key columns laid over them. -/
theorem Joined.valueOver {added : String → Json → Prop} {before after : Option Json}
    {additions : Additions} (joined : Joined added before after)
    (all : ∀ key ∈ additions.keys, added key.1 (.obj key.2)) :
    Joined added before (additions.valueOver "properties" after) := by
  refine ⟨joined.isFields, joined.isFieldsToo.valueOver, fun key => ?_⟩
  rw [additions.fieldsIn_valueOver_properties, Keyed.get?_setAll _ additions.distinct_keyProperties,
    additions.get?_keyProperties]
  cases found : Keyed.get? additions.keys key with
  | none => exact joined.each key
  | some fields => exact .inr ⟨.obj fields, rfl, all _ (Keyed.mem_of_get? found)⟩

namespace Registry

variable {registry base dressed : Registry} {holder property name entity column : String}
  {fields : Keyed Json} {schema : Json} {relationship : Relationship}
  {additions : String → Additions}

/-- An entity with a table declares a relationship. -/
def Relates (registry : Registry) (entity : String) (relationship : Relationship) : Prop :=
  ∃ schema own tablename property value, registry.get? entity = some schema ∧
    registry.ownSchema entity schema = .ok own ∧
    own.keywords.tablename? = .ok (some tablename) ∧ (property, value) ∈ propertiesIn own.fields ∧
    registry.gather? property value = .ok (some relationship)

/-- The relationships of an entity with a table are those that it declares. -/
theorem relates_iff {schema : Json} {own : OwnSchema} {tablename : String}
    {relationship : Relationship} (registered : base.get? name = some schema)
    (ownFound : base.ownSchema name schema = .ok own)
    (hasTable : own.keywords.tablename? = .ok (some tablename)) :
    base.Relates name relationship ↔ ∃ field ∈ base.declared name,
      base.gather? field.1 field.2 = .ok (some relationship) := by
  rw [declared_eq registered ownFound]
  constructor
  · rintro ⟨_, other, _, property, value, registeredToo, otherFound, -, member, isGathered⟩
    obtain rfl := Option.some.inj (registered.symm.trans registeredToo)
    obtain rfl := Except.ok.inj (ownFound.symm.trans otherFound)
    exact ⟨(property, value), member, isGathered⟩
  · rintro ⟨field, member, isGathered⟩
    exact ⟨schema, own, tablename, field.1, field.2, registered, ownFound, hasTable, member,
      isGathered⟩

/-- A relationship adds a key column to an entity. -/
def AddsKey (registry : Registry) (holder property : String) (fields : Keyed Json) : Prop :=
  ∃ entity relationship column, registry.Relates entity relationship ∧
    relationship.cardinality.needsAssociationTable = false ∧
    relationship.holder entity = holder ∧
    registry.foreignKey holder (relationship.owning entity) relationship.foreignKeyColumn
      relationship.keyNullable = .ok (.missing property (.obj fields) column)

/-- A key column that is missing from an entity. -/
structure IsMissing (registry : Registry) (holder property : String) (fields : Keyed Json) :
    Prop where
  own : ∃ schema own, registry.get? holder = some schema ∧ registry.ownSchema holder schema = .ok own
  isKey : ∃ type format maxLength nullable pointsAt, type.isScalar = true ∧
    fields = keySchema type format maxLength nullable pointsAt
  isColumn : ∃ column, Column.ofSchema (.obj fields) none = .ok column
  notDeclared : property ∉ Keyed.keys (registry.declared holder)

/-- How a key is missing: the column that it points at is found, and the holder's own schema has no
property of the key's name. -/
theorem foreignKey_eq_missing {owning : String} {nullable : Option Bool} {key : Column} :
    registry.foreignKey holder owning column nullable = .ok (.missing property schema key) ↔
      ∃ own source, (registry.registered holder >>= registry.ownSchema holder) = .ok own ∧
        registry.keySource owning column = .ok source ∧ source.property column = property ∧
        registry.flatProperty? own.fields property = .ok none ∧
        missingKey source column nullable = .ok (.missing property schema key) := by
  rw [foreignKey_eq]
  constructor
  · intro required
    obtain ⟨own, ownFound, required⟩ := bind_eq_ok.mp required
    obtain ⟨source, sourceFound, required⟩ := bind_eq_ok.mp required
    obtain ⟨existing, propertyFound, required⟩ := bind_eq_ok.mp required
    cases existing with
    | some existing =>
      obtain ⟨-, -, same⟩ := checkExistingKey_eq_ok.mp required
      cases same
    | none =>
      obtain ⟨fields, other, same, -⟩ := missingKey_eq_ok required
      obtain ⟨rfl, -, -⟩ := Requirement.missing.inj same
      exact ⟨own, source, ownFound, sourceFound, rfl, propertyFound, required⟩
  · rintro ⟨own, source, ownFound, sourceFound, rfl, propertyFound, missing⟩
    rw [ownFound, ok_bind, sourceFound, ok_bind, propertyFound, ok_bind]
    exact missing

theorem isMissing_of_foreignKey {owning : String} {nullable : Option Bool} {key : Column}
    (required : registry.foreignKey holder owning column nullable =
      .ok (.missing property schema key)) :
    ∃ fields, schema = .obj fields ∧ registry.IsMissing holder property fields := by
  obtain ⟨own, source, ownFound, sourceFound, rfl, propertyFound, missing⟩ :=
    foreignKey_eq_missing.mp required
  obtain ⟨entry, isEntry, ownFound⟩ := bind_eq_ok.mp ownFound
  have registered := registered_eq_ok.mp isEntry
  obtain ⟨-, -, -, -, -, -, -, scalar⟩ := keySource_eq_ok.mp sourceFound
  obtain ⟨format, maxLength, made, -, -, built, same⟩ := missingKey_iff.mp missing
  obtain ⟨-, rfl, -⟩ := Requirement.missing.inj same
  exact ⟨_, rfl, ⟨entry, own, registered, ownFound⟩, ⟨_, _, _, _, _, scalar, rfl⟩, ⟨_, built⟩,
    (not_declared_of_flatProperty? registered ownFound).mp propertyFound⟩

theorem IsMissing.isKeySchema (missing : registry.IsMissing holder property fields) :
    ∃ type pointsAt, IsKeySchema fields type pointsAt ∧ type.isScalar = true := by
  obtain ⟨type, format, maxLength, nullable, pointsAt, scalar, rfl⟩ := missing.isKey
  exact ⟨type, pointsAt, ForeignKey.isKeySchema_keySchema .., scalar⟩

theorem AddsKey.isMissing (adds : registry.AddsKey holder property fields) :
    registry.IsMissing holder property fields := by
  obtain ⟨entity, relationship, column, -, -, -, required⟩ := adds
  obtain ⟨_, same, missing⟩ := isMissing_of_foreignKey required
  exact Json.obj.inj same ▸ missing

/-- The key columns that relationships add keep out of the way of everything else. -/
structure KeysSettled (registry : Registry) : Prop where
  /-- All properties that entities are composed of are objects. -/
  objects : ∀ name schema, registry.get? name = some schema → registry.PropertiesAreObjects schema
  /-- What gets a key is an object of its own. -/
  entities : ∀ holder property fields, registry.AddsKey holder property fields →
    registry.IsObjectEntity holder
  /-- No entity is composed of one that gets a key, except of its parent. -/
  apart : ∀ holder property fields name schema parent, registry.AddsKey holder property fields →
    registry.get? name = some schema → registry.parent? name schema = .ok parent →
    ¬ registry.Meets parent schema holder
  /-- No entity has a property of the name of a key that it or a part of it gets. -/
  fresh : ∀ holder property fields name schema flat, registry.AddsKey holder property fields →
    registry.get? name = some schema → registry.flatten name schema = .ok flat →
    (holder = name ∨ registry.ReachesEntity schema holder) →
    property ∉ Keyed.keys (propertiesIn flat.fields)
  /-- No key points at another one that is added. -/
  pointing : ∀ holder property fields entity relationship,
    registry.AddsKey holder property fields → registry.Relates entity relationship →
    relationship.foreignKeyColumn ≠ property

/-- Back references of objects, and key columns that relationships add. -/
structure Admits (base : Registry) (additions : String → Additions) : Prop where
  objects : ∀ name, (additions name).backrefs ≠ none → base.IsObjectEntity name
  distinct : ∀ name fields, (additions name).backrefs = some fields → Distinct fields
  keys : ∀ name, ∀ key ∈ (additions name).keys, base.AddsKey name key.1 key.2

namespace Admits

theorem nothing (base : Registry) : base.Admits fun _ => .nothing where
  objects _ isSome := absurd rfl isSome
  distinct _ _ isSome := by cases isSome
  keys _ _ member := absurd member List.not_mem_nil

theorem isObjectEntity (admits : base.Admits additions) (settled : base.KeysSettled)
    (notEmpty : (additions name).fragments ≠ []) : base.IsObjectEntity name := by
  cases backrefs : (additions name).backrefs with
  | some value => exact admits.objects name (by simp [backrefs])
  | none =>
    cases keys : (additions name).keys with
    | nil => exact absurd (by simp [Additions.fragments, backrefs, keys]) notEmpty
    | cons key rest =>
      exact settled.entities _ _ _ (admits.keys name key (keys ▸ List.mem_cons_self))

theorem typed (admits : base.Admits additions) (settled : base.KeysSettled) :
    base.ObjectsDressed additions := by
  intro name schema flat notEmpty registered derivation
  obtain ⟨_, other, registeredToo, -, derivationToo, isObject⟩ :=
    admits.isObjectEntity settled notEmpty
  obtain rfl := Option.some.inj (registered.symm.trans registeredToo)
  exact derivation.unique derivationToo ▸ isObject

theorem named (admits : base.Admits additions) (settled : base.KeysSettled)
    (registered : base.get? name = some schema) :
    (additions name).fragments = [] ∨ schema.get? "$ref" = none := by
  by_cases empty : (additions name).fragments = []
  · exact .inl empty
  · obtain ⟨_, -, registeredToo, noReference, -⟩ := admits.isObjectEntity settled empty
    exact .inr (Option.some.inj (registered.symm.trans registeredToo) ▸ noReference)

theorem keysApart (admits : base.Admits additions) (settled : base.KeysSettled) :
    base.KeysApart additions where
  unmet name schema parent registered parentFound entity meets := by
    refine List.eq_nil_iff_forall_not_mem.mpr fun key member => ?_
    exact settled.apart _ _ _ _ _ _ (admits.keys entity key member) registered parentFound meets
  fresh name key member := (admits.keys name key member).isMissing.notDeclared
  schemas name key member := (admits.keys name key member).isMissing.isKeySchema

end Admits

/-- A key column that is added to an entity or to one that it is composed of. -/
def GetsKey (base : Registry) (name : String) (schema : Json) (property : String) (value : Json) :
    Prop :=
  ∃ holder fields, (holder = name ∨ base.ReachesEntity schema holder) ∧
    base.AddsKey holder property fields ∧ value = .obj fields

/-- Flat schemas of an entity that say the same, but for back references and added keys. -/
def Settled (base : Registry) (name : String) (schema : Json) (flat other : FlatSchema) : Prop :=
  SameBut ["properties", "x-backrefs"] flat other ∧
    Joined (base.GetsKey name schema) (Keyed.get? flat.fields "properties")
      (Keyed.get? other.fields "properties")

theorem isFields_of_areObjects (keyed : base.WellKeyed) (whole : schema.isWellKeyed = true)
    (objects : base.PropertiesAreObjects schema) {own : Keyed Json}
    (parts : base.Composes schema (.obj own)) : IsFields (Keyed.get? own "properties") :=
  isFields_of_isObject (keyed.of_composes parts whole) fun value => objects own value parts

/-- A property under which the same is found is flattened alike, where all schemas are. -/
theorem flatProperty?_congr {one two : Registry} {except : List String}
    (flattened : ∀ {name schema}, schema.isWellKeyed = true →
      Alike (SameBut except) (one.flatten name schema) (two.flatten name schema))
    {entity other : Keyed Json} (whole : (Json.obj entity).isWellKeyed = true)
    (same : Keyed.get? (propertiesIn other) property = Keyed.get? (propertiesIn entity) property) :
    Alike (Option.Rel (SameBut except)) (one.flatProperty? entity property)
      (two.flatProperty? other property) := by
  unfold flatProperty?
  rw [← get?_propertiesIn, ← get?_propertiesIn, same]
  cases found : Keyed.get? (propertiesIn entity) property with
  | none => exact .ok .none
  | some schema =>
    have inEntity : schema.isWellKeyed = true := by
      rw [get?_propertiesIn] at found
      obtain ⟨properties, written, member⟩ := Option.bind_eq_some_iff.mp found
      exact Json.isWellKeyed_of_member (Json.isWellKeyed_of_get? whole written) member
    exact (flattened inEntity).bind fun _ _ same => .ok (.some same)

namespace Dresses

variable (dresses : base.Dresses additions dressed) (keyed : base.WellKeyed)
  (settled : base.KeysSettled) (admits : base.Admits additions)

include settled admits in
theorem keeps_keys (keyed : base.WellKeyed) (registered : base.get? name = some schema)
    (skip : Option String) : Keeps base base (fun _ => .nothing) additions skip schema "properties"
      (Joined (base.GetsKey name schema)) where
  absent := .refl isFields_none
  written own follows := by
    have whole := keyed.of_get? registered
    exact ⟨keyed.distinct whole follows.composes,
      .refl (isFields_of_areObjects keyed whole (settled.objects _ _ registered) follows.composes)⟩
  laid below above := below.laid (by decide) above
  added entity _ flat value _ meets _ joined := by
    rw [Additions.valueOver_nothing]
    refine joined.valueOver fun key member => ?_
    exact ⟨entity, key.2, .inr meets.reachesEntity, admits.keys entity key member, rfl⟩

include dresses keyed settled admits

/-- An entity amounts to the same, but for back references and added keys. -/
theorem flatten_settled (registered : base.get? name = some schema) :
    Alike (base.Settled name schema) (base.flatten name schema)
      (dressed.flatten name ((additions name).apply schema)) := by
  have whole := keyed.of_get? registered
  have typed := admits.typed settled
  have same : Alike (SameBut ["properties", "x-backrefs"]) (base.flatten name schema)
      (dressed.flatten name ((additions name).apply schema)) :=
    dresses.flattenEntry_sameBut registered ⟨"x-tablename", by decide⟩
      (fun _ notAdded => keeps_typed keyed typed whole notAdded)
      fun _ notAdded _ derivation => typed.valueOver registered derivation notAdded
  have joined : Alike (Corresponds "properties" (Joined (base.GetsKey name schema)))
      (base.flatten name schema) (dressed.flatten name ((additions name).apply schema)) :=
    dresses.flattenEntry registered (keeps_keys settled admits keyed registered none)
      fun _ _ _ joined => joined.valueOver fun key member =>
        ⟨name, key.2, .inl rfl, admits.keys name key member, rfl⟩
  exact (same.and joined).mono fun _ _ both => ⟨both.1, both.2.2.2.2⟩

omit dresses admits in
/-- The properties of an entity itself are an object, if it has any. -/
theorem isFields_own {own : OwnSchema} (registered : base.get? name = some schema)
    (found : base.ownSchema name schema = .ok own) :
    IsFields (Keyed.get? own.fields "properties") := by
  obtain ⟨-, flat, flattened, same⟩ := ownSchema_eq_ok.mp found
  have flats : Alike (Corresponds "properties" (Joined (base.GetsKey name schema)))
      (base.flattenWithout own.parent name schema) (base.flattenWithout own.parent name schema) :=
    (keeps_keys settled (.nothing base) keyed registered own.parent).flattenFrom (.refl base)
      (.refl base) (.self schema)
  rw [flattened] at flats
  obtain ⟨_, -, -, -, -, joined⟩ := flats.of_ok_left
  exact same ▸ joined.isFields

omit keyed settled admits in
theorem registered_alike (name : String) :
    Alike (fun schema other => base.get? name = some schema ∧ other = (additions name).apply schema)
      (base.registered name) (dressed.registered name) := by
  unfold Registry.registered
  rw [dresses.get?]
  cases registered : base.get? name with
  | none => exact .error _
  | some schema => exact .ok ⟨rfl, rfl⟩

/-- A property under which the same is found is flattened alike. -/
theorem flatProperty?_alike {entity other : Keyed Json} (whole : (Json.obj entity).isWellKeyed = true)
    (same : Keyed.get? (propertiesIn other) property = Keyed.get? (propertiesIn entity) property) :
    Alike (Option.Rel (SameBut ["properties", "x-backrefs"]))
      (base.flatProperty? entity property) (dressed.flatProperty? other property) :=
  flatProperty?_congr (dresses.flatten_sameBut keyed (admits.typed settled)) whole same

end Dresses

/-- Columns that keys point at which amount to the same. -/
structure SameSource (source other : Source) : Prop where
  tablename : source.tablename = other.tablename
  type : source.type = other.type
  referenced : SameBut ["properties", "x-backrefs"] source.referenced other.referenced

namespace SameSource

variable {source other : Source}

theorem property_eq (same : SameSource source other) (column : String) :
    source.property column = other.property column := by
  rw [Source.property, Source.property, same.tablename]

theorem pointsAt_eq (same : SameSource source other) (column : String) :
    source.pointsAt column = other.pointsAt column := by
  rw [Source.pointsAt, Source.pointsAt, same.tablename]

theorem missingKey_eq (same : SameSource source other) (column : String) (nullable : Option Bool) :
    Registry.missingKey source column nullable = Registry.missingKey other column nullable := by
  have format : source.referenced.keywords.format? = other.referenced.keywords.format? :=
    same.referenced.as (by decide)
  have maxLength : source.referenced.keywords.maxLength? = other.referenced.keywords.maxLength? :=
    same.referenced.as (by decide)
  simp only [Registry.missingKey, format, maxLength, same.type, same.property_eq, same.pointsAt_eq]

end SameSource

theorem checkExistingKey_congr {target property pointsAt : String} {existing other : FlatSchema}
    {type : PrimitiveType} (same : SameBut ["properties", "x-backrefs"] existing other) :
    checkExistingKey target property existing type pointsAt =
      checkExistingKey target property other type pointsAt := by
  have text : existing.keywords.text? "type" = other.keywords.text? "type" := same.as (by decide)
  have key : existing.keywords.foreignKey? = other.keywords.foreignKey? := same.as (by decide)
  simp only [checkExistingKey, KeywordReader.typeText, text, key]

/-- Whether an entity needs a key column, given the keys that it has got since. -/
def requirement (registry : Registry) (keys : Keyed (Keyed Json)) (target owning column : String)
    (nullable : Option Bool) : Except SchemaError Requirement := do
  let own ← registry.registered target >>= registry.ownSchema target
  let source ← registry.keySource owning column
  let property := source.property column
  match Keyed.get? keys property with
  | some fields =>
      checkExistingKey target property ⟨property, fields⟩ source.type (source.pointsAt column)
  | none =>
      match ← registry.flatProperty? own.fields property with
      | some existing =>
          checkExistingKey target property existing source.type (source.pointsAt column)
      | none => missingKey source column nullable

namespace Dresses

variable (dresses : base.Dresses additions dressed) (keyed : base.WellKeyed)
  (settled : base.KeysSettled) (admits : base.Admits additions)

include dresses keyed settled admits

/-- What a key points at is the same whatever keys have been added, if it is none of them. -/
theorem keySource (owning : String)
    (pointing : ∀ holder fields, ¬ base.AddsKey holder column fields) :
    Alike SameSource (base.keySource owning column) (dressed.keySource owning column) := by
  unfold Registry.keySource
  refine (dresses.registered_alike owning).bind fun schema _ both => ?_
  obtain ⟨registered, rfl⟩ := both
  have flats := dresses.flatten_settled keyed settled admits registered
  refine flats.bind_of_eq fun flat other flattened same => ?_
  have tablename : flat.keywords.tablename? = other.keywords.tablename? := same.1.as (by decide)
  rw [tablename]
  refine (Alike.refl _).bind fun found _ sameFound => ?_
  subst sameFound
  cases found with
  | none => exact .error _
  | some tablename =>
  simp only [pure_eq_ok, ok_bind]
  have whole := keyed.of_derives (derives_of_flattenFrom flattened) (keyed.of_get? registered)
  have lookup : Keyed.get? (propertiesIn other.fields) column =
      Keyed.get? (propertiesIn flat.fields) column := by
    rcases same.2.each column with unchanged | ⟨value, -, holder, fields, -, adds, -⟩
    · exact unchanged
    · exact absurd adds (pointing holder fields)
  refine (dresses.flatProperty?_alike keyed settled admits whole lookup).bind
    fun referenced another sameReferenced => ?_
  cases sameReferenced with
  | none => exact .error _
  | @some referenced another sameReferenced =>
    dsimp only
    rw [sameReferenced.primitiveType]
    refine (Alike.refl _).bind fun type _ sameType => ?_
    subst sameType
    split
    · exact .error _
    · exact .ok ⟨rfl, rfl, sameReferenced⟩

/-- Whether a key is needed is a question of the holder as it is given, and of its own keys. -/
theorem foreignKey (target owning : String) (nullable : Option Bool)
    (pointing : ∀ holder fields, ¬ base.AddsKey holder column fields) :
    dressed.foreignKey target owning column nullable =
      base.requirement (additions target).keys target owning column nullable := by
  have apart := admits.keysApart settled
  rw [foreignKey_eq, requirement]
  refine (Alike.eq ?_).symm
  have owns : Alike (fun own other => OwnDressed (additions target) own other ∧
        (Json.obj own.fields).isWellKeyed = true ∧ propertiesIn own.fields = base.declared target)
      (base.registered target >>= base.ownSchema target)
      (dressed.registered target >>= dressed.ownSchema target) := by
    refine (dresses.registered_alike target).bind fun schema _ both => ?_
    obtain ⟨registered, rfl⟩ := both
    have alike := dresses.ownSchema_alike keyed apart registered
    generalize outcome : base.ownSchema target schema = below at alike ⊢
    generalize dressed.ownSchema target ((additions target).apply schema) = above at alike ⊢
    cases alike with
    | error e => exact .error e
    | @ok own other same =>
      have found := outcome
      obtain ⟨-, flat, flattened, sameFields⟩ := ownSchema_eq_ok.mp found
      have whole := keyed.of_derives (derives_of_flattenFrom flattened) (keyed.of_get? registered)
      exact .ok ⟨same, sameFields ▸ whole, (declared_eq registered found).symm⟩
  refine owns.bind fun own other both => ?_
  obtain ⟨same, whole, declared⟩ := both
  refine (dresses.keySource keyed settled admits owning pointing).bind fun source another sameSource => ?_
  rw [← sameSource.property_eq column, ← sameSource.pointsAt_eq column, ← sameSource.type,
    ← sameSource.missingKey_eq column]
  dsimp only
  generalize source.property column = property
  have fresh := apart.fresh target
  rw [← declared] at fresh
  have lookup := congrArg (Keyed.get? · property) (same.propertiesIn fresh)
  simp only [Keyed.get?_append, Additions.get?_keyProperties] at lookup
  cases found : Keyed.get? (additions target).keys property with
  | some fields =>
    obtain ⟨type, pointsAt, isKey, scalar⟩ := apart.schemas target _ (Keyed.mem_of_get? found)
    have notOwn := (Keyed.get?_eq_none_iff _ _).mpr (fresh _ (Keyed.mem_of_get? found))
    rw [found, notOwn, Option.none_or, Option.map_some] at lookup
    have existing : dressed.flatProperty? other.fields property = .ok (some ⟨property, fields⟩) := by
      rw [flatProperty?_eq_some]
      exact ⟨.obj fields, (get?_propertiesIn _ _).symm.trans lookup, isKey.flatten⟩
    rw [existing]
    exact .refl _
  | none =>
    rw [found, Option.map_none, Option.or_none] at lookup
    refine (dresses.flatProperty?_alike keyed settled admits whole lookup).bind
      fun existing another sameExisting => ?_
    cases sameExisting with
    | none => exact .refl _
    | some sameExisting =>
      dsimp only
      rw [checkExistingKey_congr sameExisting]
      exact .refl _

end Dresses

end Registry

end EntityMapping
