import Mathlib
import EntityMapping.Proofs.WrittenKeys
import EntityMapping.Proofs.Models

/-!
Ensuring the same foreign key a second time. The key column that was added is found again, so the
second call changes nothing. It may fail: laying properties over something that is no object forgets
what was below it, so the column that the key points at can change its type with the first call
where such properties are written. It succeeds where they are objects.
-/

set_option autoImplicit false
set_option relaxedAutoImplicit false

namespace EntityMapping

open Keyed (Distinct)
open ForeignKey (Source IsKeySchema)
open Registry (wrap propertyFragment)

/-- Properties that agree but for one property. They may be something else than an object, the same
on both sides, only if they do not appear where there were none. -/
inductive PropertiesAgree (property : String) (strict : Prop) : Option Json → Option Json → Prop
  | absent : PropertiesAgree property strict none none
  | malformed {value : Json} : strict → value.fields? = none →
      PropertiesAgree property strict (some value) (some value)
  | objects {old new : Keyed Json} : Distinct old → Distinct new →
      (∀ other, other ≠ property → Keyed.get? old other = Keyed.get? new other) →
      PropertiesAgree property strict (some (.obj old)) (some (.obj new))
  | appeared {new : Keyed Json} : ¬ strict → Distinct new →
      (∀ other, other ≠ property → Keyed.get? new other = none) →
      PropertiesAgree property strict none (some (.obj new))

namespace PropertiesAgree

variable {property : String} {strict : Prop} {before before' value value' : Option Json}

/-- Every other property is the same on both sides. -/
theorem get? (agree : PropertiesAgree property strict value value') {other : String}
    (different : other ≠ property) : value.bind (·.get? other) = value'.bind (·.get? other) := by
  cases agree with
  | absent => rfl
  | malformed => rfl
  | objects _ _ same => exact same other different
  | appeared _ _ nothing => exact (nothing other different).symm

theorem laid (below : PropertiesAgree property strict before before')
    (above : PropertiesAgree property strict value value') :
    PropertiesAgree property strict (laidValue "properties" before value)
      (laidValue "properties" before' value') := by
  cases above with
  | absent => exact below
  | malformed isStrict noObject =>
    rw [laidValue_properties_of_not_obj _ noObject, laidValue_properties_of_not_obj _ noObject]
    exact .malformed isStrict noObject
  | @objects old new distinctOld distinctNew same =>
    rw [laidValue_properties_obj, laidValue_properties_obj]
    cases below with
    | absent => exact .objects distinctOld distinctNew same
    | @malformed value _ noObject =>
      rw [propertiesOver_of_not_obj _ noObject, propertiesOver_of_not_obj _ noObject]
      exact .objects distinctOld distinctNew same
    | @objects under under' distinctUnder distinctUnder' sameUnder =>
      refine .objects (Keyed.distinct_setAll distinctUnder _)
        (Keyed.distinct_setAll distinctUnder' _) fun other different => ?_
      rw [propertiesOver_obj, propertiesOver_obj, Keyed.get?_setAll _ distinctOld,
        Keyed.get?_setAll _ distinctNew, same other different, sameUnder other different]
    | @appeared under _ distinctUnder nothing =>
      refine .objects distinctOld (Keyed.distinct_setAll distinctUnder _) fun other different => ?_
      rw [propertiesOver_none, propertiesOver_obj, Keyed.get?_setAll _ distinctNew,
        nothing other different, Option.or_none, same other different]
  | @appeared new notStrict distinctNew nothing =>
    rw [laidValue_properties_obj]
    cases below with
    | absent => exact .appeared notStrict distinctNew nothing
    | malformed isStrict => exact absurd isStrict notStrict
    | @objects under under' distinctUnder distinctUnder' sameUnder =>
      refine .objects distinctUnder (Keyed.distinct_setAll distinctUnder' _)
        fun other different => ?_
      rw [propertiesOver_obj, Keyed.get?_setAll _ distinctNew, nothing other different,
        Option.none_or, sameUnder other different]
    | @appeared under _ distinctUnder nothingUnder =>
      refine .appeared notStrict (Keyed.distinct_setAll distinctUnder _) fun other different => ?_
      rw [propertiesOver_obj, Keyed.get?_setAll _ distinctNew, nothing other different,
        Option.none_or, nothingUnder other different]

/-- The property itself may be laid over an object, and over nothing where that does not count. -/
theorem added (agree : PropertiesAgree property strict value value')
    (object : strict → ∃ fields, value = some (.obj fields)) (schema : Json) :
    PropertiesAgree property strict value
      (laidValue "properties" value' (some (.obj [(property, schema)]))) := by
  have single : Distinct [(property, schema)] := by simp [Distinct]
  have otherwise : ∀ other, other ≠ property → Keyed.get? [(property, schema)] other = none :=
    fun other different => by simp [Keyed.get?_cons, Ne.symm different]
  by_cases isStrict : strict
  · obtain ⟨fields, rfl⟩ := object isStrict
    cases agree with
    | malformed _ noObject => cases noObject
    | @objects _ new distinctOld distinctNew same =>
      rw [laidValue_properties_obj]
      refine .objects distinctOld (Keyed.distinct_setAll distinctNew _) fun other different => ?_
      rw [propertiesOver_obj, Keyed.get?_setAll _ single, otherwise other different,
        Option.none_or, same other different]
  · exact agree.laid (.appeared isStrict single otherwise)

end PropertiesAgree

/-- Properties that a schema is composed of are objects. -/
def Registry.PropertiesAreObjects (registry : Registry) (schema : Json) : Prop :=
  ∀ own value, registry.Composes schema (.obj own) →
    Keyed.get? own "properties" = some value → value.isObject = true

theorem PrimitiveType.spelling_injective : Function.Injective PrimitiveType.spelling := by
  intro type other same
  have found := ofSpelling?_spelling type
  rw [same, ofSpelling?_spelling] at found
  exact (Option.some.inj found).symm

namespace Rewriting

variable {rewriting : Rewriting} {skip : Option String} {schema after top : Json} {name : String}

/-- Types stay where the entity that gets an object fragment amounts to an object already. -/
theorem carries_type {flat : Keyed Json} (whole : top.isWellKeyed = true)
    (fragmentType : Keyed.get? rewriting.fragment "type" = some (.str "object"))
    (derivation : rewriting.registry.Derives none rewriting.schema flat)
    (isObject : Keyed.get? flat "type" = some (.str "object")) :
    rewriting.Carries none top "type" (· = ·) where
  notFragments := by decide
  absent := rfl
  written own parts := ⟨rewriting.keyed.distinct whole parts, rfl⟩
  laid below above := by rw [below, above]
  added other value _ derivationToo same := by
    obtain rfl := derivation.unique derivationToo
    rw [fragmentType, isObject, laidValue_replace (by decide)]
    rfl

theorem carries_properties {property : String} {added : Json} {strict : Prop}
    (whole : top.isWellKeyed = true)
    (fragmentProperties : Keyed.get? rewriting.fragment "properties" =
      some (.obj [(property, added)]))
    (objects : ¬ strict → rewriting.registry.PropertiesAreObjects top)
    (below : strict → rewriting.registry.Composes top rewriting.schema →
      ∀ flat, rewriting.registry.Derives none rewriting.schema flat →
        ∃ fields, Keyed.get? flat "properties" = some (.obj fields)) :
    rewriting.Carries none top "properties" (PropertiesAgree property strict) where
  notFragments := by decide
  absent := .absent
  written own parts := by
    refine ⟨rewriting.keyed.distinct whole parts, ?_⟩
    cases written : Keyed.get? own "properties" with
    | none => exact .absent
    | some value =>
      cases isFields : value.fields? with
      | some fields =>
        obtain rfl : value = .obj fields := by cases value <;> simp_all [Json.fields?]
        have object := Json.isWellKeyed_of_get? (rewriting.keyed.of_composes parts whole) written
        have distinct := ((Json.isWellKeyed_obj fields).mp object).1
        exact .objects distinct distinct fun _ _ => rfl
      | none =>
        refine .malformed ?_ isFields
        by_contra notStrict
        have isObject := objects notStrict own value parts written
        simp [Json.isObject, isFields] at isObject
  laid below above := below.laid above
  added flat value parts derivation agree := by
    rw [fragmentProperties]
    exact agree.added (fun isStrict => below isStrict parts flat derivation) added

end Rewriting

namespace Registry

variable {registry next : Registry} {store after : ModelStore} {target owning column : String}
  {nullable : Option Bool} {source : Source} {own : OwnSchema} {fields : Keyed Json}
  {schema : Json}

/-- The property of a key is never the column that the key points at. -/
theorem column_ne_property (source : Source) (column : String) :
    column ≠ source.property column := by
  intro same
  have sameLength := congrArg String.length same
  simp only [Source.property, ForeignKey.propertyName, String.length_append] at sameLength
  have separator : "_".length = 1 := by decide
  omega

/-- Whether an entity needs a key that it has got is a question of the type of the column that the
key points at. -/
theorem foreignKey_of_hasProperty {other : Source} (nullable : Option Bool)
    (entry : registry.get? target = some schema)
    (ownFound : registry.ownSchema target schema = .ok own)
    (has : HasProperty own.fields (source.property column) (.obj fields))
    (isKey : IsKeySchema fields source.type (source.pointsAt column))
    (found : registry.keySource owning column = .ok other)
    (sameTable : other.tablename = source.tablename) :
    registry.foreignKey target owning column nullable = .ok (.satisfied (source.property column)) ∧
        other.type = source.type ∨
      (∃ e, registry.foreignKey target owning column nullable = .error e) ∧
        other.type ≠ source.type := by
  have sameProperty : other.property column = source.property column := by
    rw [Source.property, Source.property, sameTable]
  have samePointsAt : other.pointsAt column = source.pointsAt column := by
    rw [Source.pointsAt, Source.pointsAt, sameTable]
  rw [foreignKey_eq, registered_eq_ok.mpr entry, ok_bind, ownFound, ok_bind, found, ok_bind,
    sameProperty, samePointsAt, flatProperty?_of_isKeySchema has isKey, ok_bind]
  have type : (FlatSchema.keywords ⟨source.property column, fields⟩).typeText =
      .ok source.type.spelling := isKey.typeText
  have pointsAt : (FlatSchema.keywords ⟨source.property column, fields⟩).foreignKey? =
      .ok (some (source.pointsAt column)) := KeywordReader.text?_of_str isKey.pointsAt
  by_cases sameType : other.type = source.type
  · exact .inl ⟨checkExistingKey_eq_ok.mpr ⟨sameType ▸ type, pointsAt, rfl⟩, sameType⟩
  · refine .inr ⟨?_, sameType⟩
    cases outcome : checkExistingKey target (source.property column)
        ⟨source.property column, fields⟩ other.type (source.pointsAt column) with
    | error e => exact ⟨e, outcome⟩
    | ok requirement =>
      obtain ⟨typeToo, -, -⟩ := checkExistingKey_eq_ok.mp outcome
      have sameSpelling := Except.ok.inj (type.symm.trans typeToo)
      exact absurd (PrimitiveType.spelling_injective sameSpelling).symm sameType

end Registry

namespace Rewriting

variable {rewriting : Rewriting} {keyword name property owning column : String}
  {added schema : Json} {related : Option Json → Option Json → Prop}

/-- The column that a key points at keeps its type where types are kept, and the properties of its
entity but for another one. -/
theorem keySource_changed {source : Source} {strict : Prop}
    (found : rewriting.registry.keySource owning column = .ok source)
    (different : column ≠ property)
    (types : ∀ top, top.isWellKeyed = true → rewriting.Carries none top "type" (· = ·))
    (properties : ∀ schema, rewriting.registry.get? owning = some schema →
      rewriting.Carries none schema "properties" (PropertiesAgree property strict)) :
    ∃ other, rewriting.changed.keySource owning column = .ok other ∧
      other.type = source.type := by
  obtain ⟨schema, owner, entry, flattened, tablename, referencedFound, typeFound, scalar⟩ :=
    Registry.keySource_eq_ok.mp found
  have whole := rewriting.keyed.of_get? entry
  obtain ⟨after, ownerToo, entryToo, -, flattenedToo, -, -, sameTable⟩ :=
    flatten_alike entry (carries_of_silent rewriting.noTable (by decide) whole) flattened
  obtain ⟨_, _, entry', -, flattened', -, -, agree⟩ :=
    flatten_alike entry (properties schema entry) flattened
  obtain rfl := Option.some.inj (entryToo.symm.trans entry')
  obtain rfl := Except.ok.inj (flattenedToo.symm.trans flattened')
  obtain ⟨columnSchema, listed, flattenedColumn⟩ :=
    Registry.flatProperty?_eq_some.mp referencedFound
  have ownerKeyed := rewriting.keyed.of_derives (Registry.derives_of_flattenFrom flattened) whole
  have columnKeyed : columnSchema.isWellKeyed = true := by
    obtain ⟨properties, written, inProperties⟩ := Option.bind_eq_some_iff.mp listed
    have object := Json.isWellKeyed_of_get? ownerKeyed written
    cases properties <;> simp [Json.get?, Json.fields?] at inProperties
    exact Json.isWellKeyed_of_get? object inProperties
  have columns : Alike (fun flat other => Related "type" (· = ·) flat.fields other.fields)
      (rewriting.registry.flatten column columnSchema)
      (rewriting.changed.flatten column columnSchema) :=
    (types columnSchema columnKeyed).flattenWithout (.inl rfl)
  rw [flattenedColumn] at columns
  obtain ⟨referenced, flattenedColumnToo, -, -, sameType⟩ := columns.of_ok_left
  have sameTableWord : owner.keywords.tablename? = ownerToo.keywords.tablename? :=
    KeywordReader.as_congr sameTable
  have sameTypeWord : source.referenced.keywords.typeText = referenced.keywords.typeText := by
    rw [KeywordReader.typeText, KeywordReader.typeText, KeywordReader.text?, KeywordReader.text?,
      FlatSchema.keywords, FlatSchema.keywords, KeywordReader.as_congr sameType]
  refine ⟨⟨source.tablename, referenced, source.type⟩, ?_, rfl⟩
  refine Registry.keySource_eq_ok.mpr ⟨after, ownerToo, entryToo, flattenedToo,
    sameTableWord ▸ tablename, ?_, ?_, scalar⟩
  · exact Registry.flatProperty?_eq_some.mpr
      ⟨columnSchema, agree.get? different ▸ listed, flattenedColumnToo⟩
  · rw [KeywordReader.primitiveType, ← sameTypeWord]
    exact typeFound

end Rewriting

/-- Where the key column has been written, the second call fails or changes nothing. It fails
exactly if the column that the key points at has another type now. -/
theorem Rewriting.ensureForeignKey_changed {rewriting : Rewriting} (store : ModelStore)
    {owning column : String} (nullable : Option Bool) {own : Registry.OwnSchema} {source : Source}
    {fields : Keyed Json}
    (ownFound : rewriting.registry.ownSchema rewriting.entity rewriting.schema = .ok own)
    (sourceFound : rewriting.registry.keySource owning column = .ok source)
    (fragment : rewriting.fragment = propertyFragment (source.property column) (.obj fields))
    (isKey : IsKeySchema fields source.type (source.pointsAt column)) :
    (rewriting.changed.ensureForeignKey store rewriting.entity owning column nullable =
        .ok (rewriting.changed, store) ∧
      ∃ other, rewriting.changed.keySource owning column = .ok other ∧ other.type = source.type) ∨
    ((∃ e, rewriting.changed.ensureForeignKey store rewriting.entity owning column nullable =
        .error e) ∧
      ∀ other, rewriting.changed.keySource owning column = .ok other →
        other.type ≠ source.type) := by
  obtain ⟨ownToo, ownFoundToo, has⟩ := rewriting.ownSchema_of_property fragment ownFound
  have entry := rewriting.get?_entity
  cases found : rewriting.changed.keySource owning column with
  | error e =>
    refine .inr ⟨⟨e, Registry.ensureForeignKey_of_error store ?_⟩, fun other same => by cases same⟩
    rw [Registry.foreignKey_eq, Registry.registered_eq_ok.mpr entry, ok_bind, ownFoundToo, ok_bind,
      found, error_bind]
  | ok other =>
    have sameTable := rewriting.keySource_tablename sourceFound found
    rcases Registry.foreignKey_of_hasProperty nullable entry ownFoundToo has isKey found sameTable
      with ⟨satisfied, sameType⟩ | ⟨⟨e, failed⟩, differs⟩
    · exact .inl ⟨Registry.ensureForeignKey_of_satisfied store satisfied, other, rfl, sameType⟩
    · refine .inr ⟨⟨e, Registry.ensureForeignKey_of_error store failed⟩, fun another same => ?_⟩
      exact Except.ok.inj same ▸ differs

namespace Registry

variable {registry next : Registry} {store after : ModelStore} {target owning column : String}
  {nullable : Option Bool} {schema : Json} {flat : FlatSchema}

/-- The column that a key points at keeps its type where properties are objects. -/
theorem keySource_of_objects {source : Source} {fields : Keyed Json} {ownerSchema : Json}
    (keyed : registry.WellKeyed) (entry : registry.get? target = some schema)
    (flattened : registry.flatten target schema = .ok flat)
    (isObject : flat.keywords.primitiveType = .ok .object)
    (sourceFound : registry.keySource owning column = .ok source)
    (isKey : IsKeySchema fields source.type (source.pointsAt column))
    (ownerEntry : registry.get? owning = some ownerSchema)
    (objects : registry.Composes ownerSchema schema →
      (∃ fields, Keyed.get? flat.fields "properties" = some (.obj fields)) ∨
        registry.PropertiesAreObjects ownerSchema) :
    ∃ other, (Rewriting.ofKey (source.property column) keyed entry isKey).changed.keySource owning
      column = .ok other ∧ other.type = source.type := by
  have derivation := derives_of_flattenFrom flattened
  have whole := keyed.of_get? ownerEntry
  let rewriting := Rewriting.ofKey (source.property column) keyed entry isKey
  have types : ∀ top, top.isWellKeyed = true → rewriting.Carries none top "type" (· = ·) :=
    fun top whole => Rewriting.carries_type whole rfl derivation
      (KeywordReader.get?_of_primitiveType isObject)
  obtain ⟨strict, properties⟩ : ∃ strict, rewriting.Carries none ownerSchema "properties"
      (PropertiesAgree (source.property column) strict) := by
    by_cases parts : registry.Composes ownerSchema schema
    · rcases objects parts with ⟨fields, written⟩ | areObjects
      · refine ⟨True, Rewriting.carries_properties whole rfl (fun no => absurd trivial no) ?_⟩
        intro _ _ other derivationToo
        exact ⟨fields, derivation.unique derivationToo ▸ written⟩
      · exact ⟨False, Rewriting.carries_properties whole rfl (fun _ => areObjects) False.elim⟩
    · exact ⟨True, Rewriting.carries_properties whole rfl (fun no => absurd trivial no)
        fun _ composed => absurd composed parts⟩
  exact rewriting.keySource_changed sourceFound (column_ne_property source column) types
    fun _ entry' => Option.some.inj (ownerEntry.symm.trans entry') ▸ properties

/-- Ensuring a key a second time changes nothing in any case. It succeeds exactly if the column that
the key points at has kept its type, and so it does where that entity is not composed of the one
that needs the key, or where that one amounts to an object of properties, or where no properties
are written that are something else than an object. -/
theorem ensureForeignKey_again (keyed : registry.WellKeyed)
    (entry : registry.get? target = some schema)
    (flattened : registry.flatten target schema = .ok flat)
    (isObject : flat.keywords.primitiveType = .ok .object)
    (ensured : registry.ensureForeignKey store target owning column nullable = .ok (next, after)) :
    (next.ensureForeignKey after target owning column nullable = .ok (next, after) ∨
      ∃ e, next.ensureForeignKey after target owning column nullable = .error e) ∧
    (next.ensureForeignKey after target owning column nullable = .ok (next, after) ↔
      ∃ source other, registry.keySource owning column = .ok source ∧
        next.keySource owning column = .ok other ∧ other.type = source.type) ∧
    (∀ ownerSchema, registry.get? owning = some ownerSchema →
      (registry.Composes ownerSchema schema →
        (∃ fields, Keyed.get? flat.fields "properties" = some (.obj fields)) ∨
          registry.PropertiesAreObjects ownerSchema) →
      next.ensureForeignKey after target owning column nullable = .ok (next, after)) := by
  obtain ⟨_, own, source, entry', ownFound, sourceFound, change⟩ :=
    ensuresKey_of_ensureForeignKey ensured
  obtain rfl := Option.some.inj (entry.symm.trans entry')
  cases change with
  | satisfied =>
    exact ⟨.inl ensured, ⟨fun _ => ⟨source, source, sourceFound, sourceFound, rfl⟩,
      fun _ => ensured⟩, fun _ _ _ => ensured⟩
  | taken =>
    exact ⟨.inl ensured, ⟨fun _ => ⟨source, source, sourceFound, sourceFound, rfl⟩,
      fun _ => ensured⟩, fun _ _ _ => ensured⟩
  | @attached fields key missing isKey built isBuilt lacks =>
    have has := ModelStore.hasProperty_attach isBuilt (source.property column) (.obj fields) key
    have again := ensureForeignKey_of_hasProperty ensured entry ownFound sourceFound missing has
    exact ⟨.inl again, ⟨fun _ => ⟨source, source, sourceFound, sourceFound, rfl⟩, fun _ => again⟩,
      fun _ _ _ => again⟩
  | @written fields missing isKey built notBuilt =>
    let rewriting := Rewriting.ofKey (source.property column) keyed entry isKey
    have properties : ∀ ownerSchema, registry.get? owning = some ownerSchema →
        (registry.Composes ownerSchema schema →
          (∃ fields, Keyed.get? flat.fields "properties" = some (.obj fields)) ∨
            registry.PropertiesAreObjects ownerSchema) →
        ∃ other, rewriting.changed.keySource owning column = .ok other ∧
          other.type = source.type :=
      fun ownerSchema ownerEntry objects => keySource_of_objects keyed entry flattened isObject
        sourceFound isKey ownerEntry objects
    rcases rewriting.ensureForeignKey_changed store nullable ownFound sourceFound rfl isKey with
      ⟨again, other, found, sameType⟩ | ⟨⟨e, failed⟩, differs⟩
    · exact ⟨.inl again, ⟨fun _ => ⟨source, other, sourceFound, found, sameType⟩, fun _ => again⟩,
        fun _ _ _ => again⟩
    · refine ⟨.inr ⟨e, failed⟩, ⟨fun again => ?_, ?_⟩, fun ownerSchema ownerEntry objects => ?_⟩
      · cases failed.symm.trans again
      · rintro ⟨source', other, sourceFound', found, sameType⟩
        obtain rfl := Except.ok.inj (sourceFound.symm.trans sourceFound')
        exact absurd sameType (differs other found)
      · obtain ⟨other, found, sameType⟩ := properties ownerSchema ownerEntry objects
        exact absurd sameType (differs other found)

/-- A person with a name. -/
def person : Json :=
  .obj [("type", .str "object"), ("properties", .obj [("name", .obj [("type", .str "string")])])]

/-- Persons, and employees that are composed of them. -/
def staff : Registry where
  entries := [("Person", person),
    ("Employee", .obj [("allOf", .arr [.obj [("$ref", .str "#/Person")],
      .obj [("x-tablename", .str "employee"),
        ("properties", .obj [("id", .obj [("type", .str "integer")])])]])])]
  place := none
  documents := Documents.empty

/-- A key that persons get, which changes what the employees amount to that it points at. -/
theorem ensureForeignKey_again_staff :
    let managed := staff.insert "Person" (wrap person (propertyFragment "employee_id" (.obj
      [("type", .str "integer"), ("x-foreign-key", .str "employee.id"),
        ("x-dict-ignore", .bool true)])))
    staff.ensureForeignKey [] "Person" "Employee" "id" none = .ok (managed, []) ∧
      managed.ensureForeignKey [] "Person" "Employee" "id" none = .ok (managed, []) := by
  intro managed
  have keyed : staff.WellKeyed := wellKeyed_of_entries (by decide) (by decide +kernel)
  have ensured : staff.ensureForeignKey [] "Person" "Employee" "id" none = .ok (managed, []) := by
    cbv
  have flattened : staff.flatten "Person" person = .ok ⟨"Person", [("type", .str "object"),
      ("properties", .obj [("name", .obj [("type", .str "string")])])]⟩ := by cbv
  have again := ensureForeignKey_again keyed rfl flattened rfl ensured
  exact ⟨ensured, again.2.2 _ rfl fun _ => .inl ⟨_, rfl⟩⟩

/-- An entity whose properties are no object, so that what it is laid over is forgotten. -/
def forgetful : Registry where
  entries := [
    ("T", .obj [("type", .str "object"), ("properties", .str "none")]),
    ("B", .obj [("allOf", .arr [
      .obj [("properties", .obj [("c", .obj [("type", .str "string")])])],
      .obj [("$ref", .str "#/T")],
      .obj [("properties", .obj [("d", .obj [("type", .str "integer")])])]])]),
    ("O", .obj [("allOf", .arr [
      .obj [("x-tablename", .str "o"),
        ("properties", .obj [("c", .obj [("type", .str "integer")])])],
      .obj [("$ref", .str "#/B")]])])]
  place := none
  documents := Documents.empty

/-- The second call does not succeed in every case: the key that the first one adds keeps properties
that were forgotten, among them one of the name of the column that the key points at. -/
theorem not_ensureForeignKey_again : ¬ ∀ (registry next : Registry) (store after : ModelStore)
    (target owning column : String) (nullable : Option Bool) (schema : Json) (flat : FlatSchema),
    registry.WellKeyed → registry.get? target = some schema →
    registry.flatten target schema = .ok flat → flat.keywords.primitiveType = .ok .object →
    registry.ensureForeignKey store target owning column nullable = .ok (next, after) →
    next.ensureForeignKey after target owning column nullable = .ok (next, after) := by
  intro claim
  let reminded := forgetful.insert "T"
    (wrap (.obj [("type", .str "object"), ("properties", .str "none")])
      (propertyFragment "o_c" (.obj [("type", .str "integer"), ("x-foreign-key", .str "o.c"),
        ("x-dict-ignore", .bool true)])))
  have keyed : forgetful.WellKeyed := wellKeyed_of_entries (by decide) (by decide +kernel)
  have flattened : forgetful.flatten "T" (.obj [("type", .str "object"),
      ("properties", .str "none")]) = .ok ⟨"T", [("type", .str "object"),
        ("properties", .str "none")]⟩ := by cbv
  have ensured : forgetful.ensureForeignKey [] "T" "O" "c" none = .ok (reminded, []) := by cbv
  have failed : reminded.ensureForeignKey [] "T" "O" "c" none =
      .error (.malformedRelationship (.keyTypeDiffers "T" "o_c" "integer" .string)) := by cbv
  have again := claim forgetful reminded [] [] "T" "O" "c" none _ _ keyed rfl flattened rfl ensured
  cases failed.symm.trans again

end Registry

end EntityMapping
