import EntityMapping.Proofs.AddedKeys
import EntityMapping.Proofs.Associations

/-!
Association tables of a registry with settled keys. A table reads all properties of the entities on
its sides, those of their parents included. Added keys are no primary keys, so the tables are those
of the registry as it is given.
-/

set_option autoImplicit false
set_option relaxedAutoImplicit false

namespace EntityMapping

open Keyed (Distinct)
open ForeignKey (keySchema)

namespace Registry

variable {registry base dressed : Registry} {name property secondary : String} {schema : Json}
  {flat other key : FlatSchema} {properties others : Keyed Json} {additions : String → Additions}

/-- Added keys are no primary keys. -/
theorem IsMissing.not_isPrimaryKey {holder : String} {fields : Keyed Json}
    (missing : base.IsMissing holder property fields) :
    registry.flatten property (.obj fields) = .ok ⟨property, fields⟩ ∧
      (FlatSchema.keywords ⟨property, fields⟩).primaryKey? = .ok none := by
  obtain ⟨type, pointsAt, isKey, -⟩ := missing.isKeySchema
  refine ⟨isKey.flatten, ?_⟩
  obtain ⟨type, format, maxLength, nullable, pointsAt, -, rfl⟩ := missing.isKey
  have notSaid : Keyed.get? (keySchema type format maxLength nullable pointsAt) "x-primary-key" =
      none := by
    rw [ForeignKey.get?_keySchema (by decide)]
    rfl
  simp [FlatSchema.keywords, KeywordReader.primaryKey?, KeywordReader.flag?, KeywordReader.as,
    KeywordReader.ofFields, presentValue?, notSaid]

/-- The same properties, and keys that are added. -/
def KeysBeside (base : Registry) (properties others : Keyed Json) : Prop :=
  ∀ key, Keyed.get? others key = Keyed.get? properties key ∨
    (Keyed.get? properties key = none ∧ ∃ holder fields,
      Keyed.get? others key = some (.obj fields) ∧ base.IsMissing holder key fields)

/-- A property is there as well once keys have been added. -/
theorem KeysBeside.later (beside : base.KeysBeside properties others) (distinct : Distinct properties)
    (member : (property, schema) ∈ properties) : (property, schema) ∈ others := by
  have found := Keyed.get?_of_mem distinct member
  rcases beside property with same | ⟨absent, -⟩
  · exact Keyed.mem_of_get? (same.trans found)
  · cases absent.symm.trans found

/-- A property was there before keys were added, or it is one of them and no primary key. -/
theorem KeysBeside.earlier (beside : base.KeysBeside properties others) (distinct : Distinct others)
    (member : (property, schema) ∈ others) : (property, schema) ∈ properties ∨
      ∃ flat, registry.flatten property schema = .ok flat ∧
        flat.keywords.primaryKey? = .ok none := by
  have found := Keyed.get?_of_mem distinct member
  rcases beside property with same | ⟨-, holder, fields, foundToo, missing⟩
  · exact .inl (Keyed.mem_of_get? (same.symm.trans found))
  · obtain rfl := Option.some.inj (found.symm.trans foundToo)
    exact .inr ⟨_, missing.not_isPrimaryKey⟩

/-- A column of an association table is made of keywords that additions to entities do not say. -/
theorem associationColumn_congr {tablename : String}
    (same : SameBut ["properties", "x-backrefs"] key other) :
    associationColumn tablename property key = associationColumn tablename property other := by
  have text : key.keywords.text? "type" = other.keywords.text? "type" := same.as (by decide)
  have format : key.keywords.format? = other.keywords.format? := same.as (by decide)
  have maxLength : key.keywords.maxLength? = other.keywords.maxLength? := same.as (by decide)
  simp only [associationColumn, KeywordReader.typeText, text, format, maxLength]

theorem Settled.keysBeside (keys : base.KeysSettled) (registered : base.get? name = some schema)
    (flattened : base.flatten name schema = .ok flat) (same : base.Settled name schema flat other) :
    base.KeysBeside (propertiesIn flat.fields) (propertiesIn other.fields) := by
  intro key
  rcases same.2.each key with unchanged | ⟨value, found, holder, fields, reaches, adds, rfl⟩
  · exact .inl unchanged
  · have fresh := keys.fresh holder key fields name schema flat adds registered flattened reaches
    exact .inr ⟨(Keyed.get?_eq_none_iff _ _).mpr fresh, holder, fields, found, adds.isMissing⟩

namespace Dresses

variable (dresses : base.Dresses additions dressed) (keyed : base.WellKeyed)
  (settled : base.KeysSettled) (admits : base.Admits additions)

include dresses keyed settled admits

/-- What a declared property tells about primary keys it tells once keys have been added. -/
theorem told_above {isKey : Option Bool} (whole : schema.isWellKeyed = true)
    (flattened : base.flatten property schema = .ok flat)
    (told : flat.keywords.primaryKey? = .ok isKey) :
    ∃ other, dressed.flatten property schema = .ok other ∧
      other.keywords.primaryKey? = .ok isKey ∧ SameBut ["properties", "x-backrefs"] flat other := by
  have flats : Alike _ (base.flatten property schema) (dressed.flatten property schema) :=
    dresses.flatten_sameBut keyed (admits.typed settled) whole
  rw [flattened] at flats
  obtain ⟨other, flattenedToo, same⟩ := flats.of_ok_left
  exact ⟨other, flattenedToo, same.primaryKey?.symm.trans told, same⟩

/-- What a declared property tells about primary keys it told before keys were added. -/
theorem told_below {isKey : Option Bool} (whole : schema.isWellKeyed = true)
    (flattened : dressed.flatten property schema = .ok other)
    (told : other.keywords.primaryKey? = .ok isKey) :
    ∃ flat, base.flatten property schema = .ok flat ∧
      flat.keywords.primaryKey? = .ok isKey ∧ SameBut ["properties", "x-backrefs"] flat other := by
  have flats : Alike _ (base.flatten property schema) (dressed.flatten property schema) :=
    dresses.flatten_sameBut keyed (admits.typed settled) whole
  rw [flattened] at flats
  obtain ⟨flat, flattenedBelow, same⟩ := flats.of_ok_right
  exact ⟨flat, flattenedBelow, same.primaryKey?.trans told, same⟩

section PrimaryKeys

variable (beside : base.KeysBeside properties others) (distinct : Distinct properties)
  (distinctToo : Distinct others) (whole : ∀ field ∈ properties, field.2.isWellKeyed = true)

include beside distinct distinctToo whole

/-- The only primary key stays so when keys are added. -/
theorem primaryKeysOf_single (found : base.primaryKeysOf properties = .ok [(property, key)]) :
    ∃ other, dressed.primaryKeysOf others = .ok [(property, other)] ∧
      SameBut ["properties", "x-backrefs"] key other := by
  obtain ⟨tells, ⟨schema, member, flattened, told⟩, only⟩ :=
    (Registry.primaryKeysOf_single distinct).mp found
  obtain ⟨other, flattenedToo, toldToo, same⟩ :=
    dresses.told_above keyed settled admits (whole _ member) flattened told
  refine ⟨other, (Registry.primaryKeysOf_single distinctToo).mpr
    ⟨?_, ⟨schema, beside.later distinct member, flattenedToo, toldToo⟩, ?_⟩, same⟩
  · rintro ⟨name, value⟩ inOthers
    rcases beside.earlier distinctToo inOthers with inProperties | ⟨flat, flattenedKey, noKey⟩
    · obtain ⟨flat, isKey, flattenedHere, toldHere⟩ := tells _ inProperties
      obtain ⟨another, flattenedThere, toldThere, -⟩ :=
        dresses.told_above keyed settled admits (whole _ inProperties) flattenedHere toldHere
      exact ⟨another, isKey, flattenedThere, toldThere⟩
    · exact ⟨flat, none, flattenedKey, noKey⟩
  · rintro name value flat inOthers ⟨flattenedHere, toldHere⟩
    rcases beside.earlier distinctToo inOthers with inProperties | ⟨flat', flattenedKey, noKey⟩
    · obtain ⟨below, flattenedBelow, toldBelow, -⟩ :=
        dresses.told_below keyed settled admits (whole _ inProperties) flattenedHere toldHere
      exact only name value below inProperties ⟨flattenedBelow, toldBelow⟩
    · obtain rfl := Except.ok.inj (flattenedHere.symm.trans flattenedKey)
      cases toldHere.symm.trans noKey

/-- The only primary key was so before keys were added. -/
theorem primaryKeysOf_single_below (found : dressed.primaryKeysOf others = .ok [(property, other)]) :
    ∃ key, base.primaryKeysOf properties = .ok [(property, key)] ∧
      SameBut ["properties", "x-backrefs"] key other := by
  obtain ⟨tells, ⟨schema, member, flattened, told⟩, only⟩ :=
    (Registry.primaryKeysOf_single distinctToo).mp found
  have inProperties : (property, schema) ∈ properties := by
    rcases beside.earlier distinctToo member with inProperties | ⟨flat, flattenedKey, noKey⟩
    · exact inProperties
    · obtain rfl := Except.ok.inj (flattened.symm.trans flattenedKey)
      cases told.symm.trans noKey
  obtain ⟨key, flattenedBelow, toldBelow, same⟩ :=
    dresses.told_below keyed settled admits (whole _ inProperties) flattened told
  refine ⟨key, (Registry.primaryKeysOf_single distinct).mpr
    ⟨?_, ⟨schema, inProperties, flattenedBelow, toldBelow⟩, ?_⟩, same⟩
  · rintro ⟨name, value⟩ inProperties
    obtain ⟨flat, isKey, flattenedHere, toldHere⟩ := tells _ (beside.later distinct inProperties)
    obtain ⟨below, flattenedThere, toldThere, -⟩ :=
      dresses.told_below keyed settled admits (whole _ inProperties) flattenedHere toldHere
    exact ⟨below, isKey, flattenedThere, toldThere⟩
  · rintro name value flat inProperties ⟨flattenedHere, toldHere⟩
    obtain ⟨above, flattenedAbove, toldAbove, -⟩ :=
      dresses.told_above keyed settled admits (whole _ inProperties) flattenedHere toldHere
    exact only name value above (beside.later distinct inProperties) ⟨flattenedAbove, toldAbove⟩

end PrimaryKeys

/-- What an entity amounts to has the same properties whatever keys have been added, and keys. -/
theorem properties_alike (registered : base.get? name = some schema) :
    Alike (fun flat other => base.Settled name schema flat other ∧
        base.KeysBeside (propertiesIn flat.fields) (propertiesIn other.fields) ∧
        Distinct (propertiesIn flat.fields) ∧ Distinct (propertiesIn other.fields) ∧
        ∀ field ∈ propertiesIn flat.fields, field.2.isWellKeyed = true)
      (base.flatten name schema) (dressed.flatten name ((additions name).apply schema)) := by
  have flats := dresses.flatten_settled keyed settled admits registered
  have itself : ∀ result : Except SchemaError FlatSchema, result = result.map id := by
    intro result
    cases result <;> rfl
  rw [itself (base.flatten name schema), itself (dressed.flatten name _)]
  refine flats.map_of_eq fun flat other flattened same => ?_
  have whole := keyed.of_derives (derives_of_flattenFrom flattened) (keyed.of_get? registered)
  refine ⟨same, same.keysBeside settled registered flattened, same.2.isFields.distinct,
    same.2.isFieldsToo.distinct, fun field member => ?_⟩
  exact isWellKeyed_of_mem_propertiesIn whole member

/-- An entity has the same column in association tables whatever keys have been added. -/
theorem associationSide {side : AssociationColumn} :
    dressed.associationSide secondary name = .ok side ↔
      base.associationSide secondary name = .ok side := by
  have sameTable : ∀ {flat other : FlatSchema}, SameBut ["properties", "x-backrefs"] flat other →
      flat.keywords.tablename? = other.keywords.tablename? := fun same => same.as (by decide)
  rw [associationSide_eq_ok, associationSide_eq_ok]
  constructor
  · rintro ⟨_, other, tablename, property, key, entry, flattened, named, found, built⟩
    rw [dresses.get?] at entry
    obtain ⟨schema, registered, rfl⟩ := Option.map_eq_some_iff.mp entry
    have flats := dresses.properties_alike keyed settled admits registered
    rw [flattened] at flats
    obtain ⟨flat, flattenedBelow, same, beside, distinct, distinctToo, whole⟩ := flats.of_ok_right
    obtain ⟨below, foundBelow, sameKey⟩ := dresses.primaryKeysOf_single_below keyed settled admits
      beside distinct distinctToo whole found
    exact ⟨schema, flat, tablename, property, below, registered, flattenedBelow,
      (sameTable same.1).trans named, foundBelow, (associationColumn_congr sameKey).trans built⟩
  · rintro ⟨schema, flat, tablename, property, key, registered, flattened, named, found, built⟩
    have flats := dresses.properties_alike keyed settled admits registered
    rw [flattened] at flats
    obtain ⟨other, flattenedAbove, same, beside, distinct, distinctToo, whole⟩ := flats.of_ok_left
    obtain ⟨above, foundAbove, sameKey⟩ := dresses.primaryKeysOf_single keyed settled admits
      beside distinct distinctToo whole found
    have entry : dressed.get? name = some ((additions name).apply schema) := by
      rw [dresses.get?, registered, Option.map_some]
    exact ⟨_, other, tablename, property, above, entry, flattenedAbove,
      (sameTable same.1).symm.trans named, foundAbove, (associationColumn_congr sameKey).symm.trans built⟩

/-- Association tables are the same whatever keys have been added. -/
theorem association {left right : String} {table : AssociationTable} :
    dressed.association secondary left right = .ok table ↔
      base.association secondary left right = .ok table := by
  simp only [association_eq_ok, dresses.associationSide keyed settled admits]

end Dresses

end Registry

end EntityMapping
