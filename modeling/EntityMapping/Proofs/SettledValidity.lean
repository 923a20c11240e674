import EntityMapping.Proofs.SettledTables

/-!
The validation of entities in a registry with settled keys. It reads all properties of an entity,
those of its parent included. Added keys are valid, and whether back references are valid does not
depend on their order.
-/

set_option autoImplicit false
set_option relaxedAutoImplicit false

namespace EntityMapping

open ForeignKey (IsKeySchema keySchema)

namespace Extension

theorem checkWrittenFields_eq_ok {level : Level} {fields : List (String × Json)} :
    checkWrittenFields level fields = .ok () ↔
      ∀ field ∈ fields, checkWrittenField level field.1 field.2 = .ok () := by
  induction fields with
  | nil => exact ⟨by simp, fun _ => rfl⟩
  | cons field rest ih =>
    obtain ⟨key, value⟩ := field
    rw [checkWrittenFields, bind_eq_ok, List.forall_mem_cons, ← ih]
    exact ⟨fun ⟨_, here, later⟩ => ⟨here, later⟩, fun ⟨here, later⟩ => ⟨(), here, later⟩⟩

theorem checkWrittenFields_set {level : Level} {fields : Keyed Json} {key : String} {value : Json}
    (before : checkWrittenFields level fields = .ok ())
    (here : checkWrittenField level key value = .ok ()) :
    checkWrittenFields level (Keyed.set fields key value) = .ok () := by
  rw [checkWrittenFields_eq_ok] at before ⊢
  intro field member
  rcases Keyed.mem_of_mem_set member with rfl | earlier
  · exact here
  · exact before field earlier

theorem checkWrittenFields_setSome {level : Level} {fields : Keyed Json} {key : String}
    {value : Option Json} (before : checkWrittenFields level fields = .ok ())
    (here : ∀ present, value = some present → checkWrittenField level key present = .ok ()) :
    checkWrittenFields level (Keyed.setSome fields key value) = .ok () := by
  cases value with
  | none => exact before
  | some value => exact checkWrittenFields_set before (here value rfl)

/-- The schema of a key that is a column is valid. -/
theorem checkWritten_keySchema {type : PrimitiveType} {format : Option String}
    {maxLength : Option Nat} {nullable : Option Bool} {pointsAt : String} {column : Column}
    (built : Column.ofSchema (.obj (keySchema type format maxLength nullable pointsAt)) none =
      .ok column) :
    checkWritten .column (.obj (keySchema type format maxLength nullable pointsAt)) = .ok () := by
  have isKey := ForeignKey.isKeySchema_keySchema type format maxLength nullable pointsAt
  have points := (isKey.foreignKeyTarget built).1
  have text : ∀ key text, key ∈ ["type", "format"] →
      checkWrittenField .column key (.str text) = .ok () := by
    intro key text member
    simp only [List.mem_cons, List.not_mem_nil, or_false] at member
    rcases member with rfl | rfl <;>
      simp [checkWrittenField, checkKeyword, forms, Keyed.get?]
  change checkWrittenFields .column (keySchema type format maxLength nullable pointsAt) = .ok ()
  refine checkWrittenFields_set (checkWrittenFields_set (checkWrittenFields_setSome
    (checkWrittenFields_setSome (checkWrittenFields_setSome ?_ ?_) ?_) ?_) ?_) ?_
  · rw [checkWrittenFields_eq_ok]
    rintro field member
    rw [List.mem_singleton.mp member]
    exact text _ _ (by simp)
  · intro present found
    obtain ⟨format, -, rfl⟩ := Option.map_eq_some_iff.mp found
    exact text _ _ (by simp)
  · intro present found
    obtain ⟨length, -, rfl⟩ := Option.map_eq_some_iff.mp found
    simp [checkWrittenField, checkKeyword, forms, Keyed.get?]
  · intro present found
    obtain ⟨nullable, -, rfl⟩ := Option.map_eq_some_iff.mp found
    simp [checkWrittenField, checkKeyword, forms, Keyed.get?]
  · simp [checkWrittenField, checkKeyword, forms, Keyed.get?, Form.check, Extension.foreignKey,
      points]
  · simp [checkWrittenField, checkKeyword, forms, Keyed.get?, Form.check, Json.isBool, Json.bool?]

/-- Back references are valid if they are schemas. -/
theorem checkBackrefs_obj {fields : Keyed Json} :
    checkBackrefs (.obj fields) = .ok () ↔ ∀ field ∈ fields, field.2.isObject = true := by
  rw [checkBackrefs]
  split
  · rename_i name schema found
    have member := List.mem_of_find?_eq_some found
    have notObject := List.find?_some found
    refine ⟨fun isOk => (by cases isOk), fun all => ?_⟩
    simp [all _ member] at notObject
  · rename_i found
    simpa using found

end Extension

namespace Registry

variable {registry base one two : Registry} {name property : String} {schema : Json}
  {flat other : FlatSchema} {first second : String → Additions}

/-- An added key is a valid property. -/
theorem IsMissing.validateProperty {holder : String} {fields : Keyed Json}
    (missing : base.IsMissing holder property fields) :
    registry.validateProperty property (.obj fields) = .ok () := by
  obtain ⟨type, pointsAt, isKey, scalar⟩ := missing.isKeySchema
  obtain ⟨column, built⟩ := missing.isColumn
  have noRelationship : Extension.isRelationship ⟨property, fields⟩ = .ok false := by
    rw [Extension.isRelationship, isKey.primitiveType]
    cases type <;> simp_all [PrimitiveType.isScalar]
  have written : Extension.checkWritten .column (.obj fields) = .ok () := by
    obtain ⟨_, format, maxLength, nullable, _, -, rfl⟩ := missing.isKey
    exact Extension.checkWritten_keySchema built
  rw [Registry.validateProperty, isKey.flatten, ok_bind, noRelationship, ok_bind]
  exact written

theorem validateEntity_eq_ok : registry.validateEntity name schema = .ok () ↔
    ∃ flat, registry.flatten name schema = .ok flat ∧
      (∀ field ∈ flat.fields, Extension.checkKeyword field.1 field.2 .entity = .ok ()) ∧
      ∀ value, Keyed.get? flat.fields "properties" = some value →
        ∃ properties, value = .obj properties ∧
          ∀ field ∈ properties, registry.validateProperty field.1 field.2 = .ok () := by
  have inside : ∀ {context : String} {check : Except SchemaError Unit},
      inContext context check = .ok () ↔ check = .ok () := inContext_eq_ok
  unfold validateEntity
  rw [bind_eq_ok]
  refine exists_congr fun flat => and_congr_right fun _ => ?_
  rw [bind_eq_ok]
  have keywords : (∃ done : PUnit, flat.fields.forM (fun field =>
        inContext name (Extension.checkKeyword field.1 field.2 .entity)) = .ok done) ↔
      ∀ field ∈ flat.fields, Extension.checkKeyword field.1 field.2 .entity = .ok () := by
    constructor
    · rintro ⟨_, checked⟩ field member
      exact inside.mp (forM_eq_ok_iff.mp checked field member)
    · exact fun checked => ⟨⟨⟩, forM_eq_ok_iff.mpr fun field member =>
        inside.mpr (checked field member)⟩
  rw [← keywords, ← exists_and_right]
  refine exists_congr fun _ => and_congr_right fun _ => ?_
  cases written : Keyed.get? flat.fields "properties" with
  | none => simp
  | some value =>
    cases value with
    | obj properties =>
      simp only [Option.some.injEq, forall_eq', Json.obj.injEq, exists_eq_left']
      rw [forM_eq_ok_iff]
      simp only [inside]
    | _ => simp

/-- Whether a property is valid in a registry is a question of its kind there. -/
theorem validateProperty_congr {after : Registry}
    (same : Alike (fun flat other => flat.keywords.primitiveType = other.keywords.primitiveType ∧
        flat.keywords.json? = other.keywords.json?)
      (registry.flatten property schema) (after.flatten property schema)) :
    after.validateProperty property schema = registry.validateProperty property schema := by
  refine (Alike.eq ?_).symm
  refine same.bind fun flat other same => ?_
  rw [Extension.isRelationship, Extension.isRelationship, same.1, same.2]
  exact .refl _

/-- A property is valid whatever keys have been added. -/
theorem Dresses.validateProperty {dressed : Registry} {additions : String → Additions}
    (dresses : base.Dresses additions dressed) (keyed : base.WellKeyed)
    (typed : base.ObjectsDressed additions) (whole : schema.isWellKeyed = true) :
    dressed.validateProperty property schema = base.validateProperty property schema :=
  validateProperty_congr <| (dresses.flatten_sameBut keyed typed whole).mono
    fun _ _ same => ⟨same.primitiveType, same.json?⟩

/-- Back references with the same pairs. -/
def SameBackrefs (first second : String → Additions) : Prop :=
  ∀ name, SameFields ((first name).backrefs.map .obj) ((second name).backrefs.map .obj)

theorem Admits.sameBackrefs (admits : base.Admits first)
    (same : ∀ name, (first name).backrefs = (second name).backrefs) : SameBackrefs first second := by
  intro name
  rw [← same name]
  refine .same fun fields isSome => ?_
  obtain ⟨backrefs, isBackrefs, isFields⟩ := Option.map_eq_some_iff.mp isSome
  exact Json.obj.inj isFields ▸ admits.distinct name backrefs isBackrefs

theorem valueOver_backrefs (additions : Additions) (value : Option Json) :
    additions.valueOver "x-backrefs" value =
      laidValue "x-backrefs" value (additions.backrefs.map .obj) := by
  have keys : ∀ below, (additions.keys.map fun key => propertyFragment key.1 (.obj key.2)).foldl
      (fun below fragment => laidValue "x-backrefs" below (Keyed.get? fragment "x-backrefs")) below =
      below := by
    intro below
    rw [List.foldl_map]
    induction additions.keys with
    | nil => rfl
    | cons key rest ih => exact ih
  rw [Additions.valueOver, Additions.fragments, List.foldl_append, keys]
  cases additions.backrefs <;> rfl

/-- The back references of an entity have the same pairs if those that are added have them. -/
theorem Dresses.backrefs_alike {skip : Option String} (dressesOne : base.Dresses first one)
    (dressesTwo : base.Dresses second two) (keyed : base.WellKeyed)
    (same : SameBackrefs first second) (registered : base.get? name = some schema) :
    Alike (Corresponds "x-backrefs" SameFields)
      (one.flattenWithout skip name ((first name).apply schema))
      (two.flattenWithout skip name ((second name).apply schema)) := by
  have joining : Joining.ofKeyword "x-backrefs" = .byKey := by decide
  have topped : ∀ entity (value value' : Option Json), SameFields value value' →
      SameFields ((first entity).valueOver "x-backrefs" value)
        ((second entity).valueOver "x-backrefs" value') := by
    intro entity value value' below
    rw [valueOver_backrefs, valueOver_backrefs]
    exact below.laid joining (same entity)
  have keeps : Keeps base one first second skip schema "x-backrefs" SameFields :=
    { absent := .same (by simp)
      written := fun own follows => by
        have whole := keyed.of_composes follows.composes (keyed.of_get? registered)
        refine ⟨((Json.isWellKeyed_obj own).mp whole).1, .same fun fields written => ?_⟩
        exact ((Json.isWellKeyed_obj _).mp (Json.isWellKeyed_of_get? whole written)).1
      laid := fun below above => below.laid joining above
      added := fun entity _ _ _ _ _ _ below => topped entity _ _ below }
  rw [flattenWithout_apply (dressesOne.named _ _ registered),
    flattenWithout_apply (dressesTwo.named _ _ registered)]
  unfold flattenWithout
  rw [dressesOne.chainLimit, dressesTwo.chainLimit]
  refine (keeps.flattenFrom dressesOne dressesTwo (.self schema)).map fun flat other same => ?_
  obtain ⟨sameName, distinct, distinctToo, same⟩ := same
  refine ⟨sameName, Additions.distinct_laidOn distinct, Additions.distinct_laidOn distinctToo, ?_⟩
  dsimp only
  rw [Additions.get?_laidOn distinct, Additions.get?_laidOn distinctToo]
  exact topped name _ _ same

theorem checkBackrefs_of_sameFields {value value' : Json}
    (same : SameFields (some value) (some value'))
    (checked : Extension.checkBackrefs value = .ok ()) :
    Extension.checkBackrefs value' = .ok () := by
  cases same with
  | same => exact checked
  | @objects fields others distinct distinctToo each =>
    rw [Extension.checkBackrefs_obj] at checked ⊢
    intro field member
    have found := (each field.1).trans (Keyed.get?_of_mem distinctToo member)
    exact checked (field.1, field.2) (Keyed.mem_of_get? found)

/-- Keywords that are valid stay so when only properties and the order of back references change. -/
theorem checkKeywords_of_sameBut {flat other : FlatSchema}
    (same : SameBut ["properties", "x-backrefs"] flat other)
    (backrefs : SameFields (Keyed.get? flat.fields "x-backrefs")
      (Keyed.get? other.fields "x-backrefs"))
    (checked : ∀ field ∈ flat.fields, Extension.checkKeyword field.1 field.2 .entity = .ok ()) :
    ∀ field ∈ other.fields, Extension.checkKeyword field.1 field.2 .entity = .ok () := by
  rintro ⟨keyword, value⟩ member
  have found := Keyed.get?_of_mem same.2.2.1 member
  by_cases isProperties : keyword = "properties"
  · subst isProperties
    rfl
  by_cases isBackrefs : keyword = "x-backrefs"
  · subst isBackrefs
    rw [found] at backrefs
    have inFlat : ∃ value', Keyed.get? flat.fields "x-backrefs" = some value' := by
      generalize Keyed.get? flat.fields "x-backrefs" = present at backrefs
      cases backrefs with
      | same => exact ⟨value, rfl⟩
      | objects => exact ⟨_, rfl⟩
    obtain ⟨value', found'⟩ := inFlat
    rw [found'] at backrefs
    exact checkBackrefs_of_sameFields backrefs (checked _ (Keyed.mem_of_get? found'))
  · have inFlat : Keyed.get? flat.fields keyword = some value :=
      (same.2.2.2 keyword (by simp [isProperties, isBackrefs])).trans found
    exact checked _ (Keyed.mem_of_get? inFlat)

section Valid

variable (dressesOne : base.Dresses first one) (dressesTwo : base.Dresses second two)
  (keyed : base.WellKeyed) (settled : base.KeysSettled) (admitsOne : base.Admits first)
  (admitsTwo : base.Admits second)

include dressesOne dressesTwo keyed settled admitsOne admitsTwo

/-- Properties that are valid stay so when keys are added or left out. -/
theorem Dresses.validateProperties {declared properties others : Keyed Json}
    (whole : ∀ field ∈ declared, field.2.isWellKeyed = true)
    (besideOne : base.KeysBeside declared properties) (besideTwo : base.KeysBeside declared others)
    (distinct : Keyed.Distinct others)
    (checked : ∀ field ∈ properties, one.validateProperty field.1 field.2 = .ok ()) :
    ∀ field ∈ others, two.validateProperty field.1 field.2 = .ok () := by
  rintro ⟨property, field⟩ member
  have inOthers := Keyed.get?_of_mem distinct member
  rcases besideTwo property with isDeclared | ⟨-, holder, fields, found, missing⟩
  · rw [inOthers] at isDeclared
    rcases besideOne property with isThere | ⟨absent, -⟩
    · -- a property of the entity as it is given
      have wholeField := whole _ (Keyed.mem_of_get? isDeclared.symm)
      rw [dressesTwo.validateProperty keyed (admitsTwo.typed settled) wholeField,
        ← dressesOne.validateProperty keyed (admitsOne.typed settled) wholeField]
      exact checked _ (Keyed.mem_of_get? (isThere.trans isDeclared.symm))
    · cases absent.symm.trans isDeclared.symm
  · obtain rfl := Option.some.inj (inOthers.symm.trans found)
    exact missing.validateProperty

/-- What is valid stays valid when the back references are the same and more keys, or fewer, have
been added. -/
theorem Dresses.validateEntity (same : SameBackrefs first second)
    (registered : base.get? name = some schema)
    (valid : one.validateEntity name ((first name).apply schema) = .ok ()) :
    two.validateEntity name ((second name).apply schema) = .ok () := by
  obtain ⟨flat, flattened, keywords, properties⟩ := validateEntity_eq_ok.mp valid
  have alike := dressesOne.properties_alike keyed settled admitsOne registered
  rw [flattened] at alike
  obtain ⟨below, flattenedBelow, settledOne, besideOne, -, -, whole⟩ := alike.of_ok_right
  have alike := dressesTwo.properties_alike keyed settled admitsTwo registered
  rw [flattenedBelow] at alike
  obtain ⟨other, flattenedTwo, settledTwo, besideTwo, -⟩ := alike.of_ok_left
  have backrefs : Alike (Corresponds "x-backrefs" SameFields)
      (one.flatten name ((first name).apply schema)) (two.flatten name ((second name).apply schema)) :=
    dressesOne.backrefs_alike dressesTwo keyed same registered
  obtain ⟨-, -, -, sameFields⟩ := backrefs.related_of_ok flattened flattenedTwo
  have sameBut : SameBut ["properties", "x-backrefs"] flat other :=
    ⟨settledOne.1.1.symm.trans settledTwo.1.1, settledOne.1.2.2.1, settledTwo.1.2.2.1,
      fun keyword notExcepted => (settledOne.1.2.2.2 keyword notExcepted).symm.trans
        (settledTwo.1.2.2.2 keyword notExcepted)⟩
  refine validateEntity_eq_ok.mpr
    ⟨other, flattenedTwo, checkKeywords_of_sameBut sameBut sameFields keywords, ?_⟩
  intro value written
  obtain ⟨fields, rfl, distinct⟩ := settledTwo.2.isFieldsToo value written
  have isOther : propertiesIn other.fields = fields := by
    rw [propertiesIn, written]
    rfl
  refine ⟨fields, rfl, ?_⟩
  refine dressesOne.validateProperties dressesTwo keyed settled admitsOne admitsTwo whole besideOne
    (isOther ▸ besideTwo) distinct ?_
  cases present : Keyed.get? flat.fields "properties" with
  | none => simp [propertiesIn, present]
  | some value =>
    obtain ⟨inOne, rfl, checked⟩ := properties value present
    have isFlat : propertiesIn flat.fields = inOne := by
      rw [propertiesIn, present]
      rfl
    rw [isFlat]
    exact checked

end Valid

end Registry

end EntityMapping
