import EntityMapping.Proofs.Declarations

/-!
Keywords whose values are joined key by key: properties and back references. What is found under a
key of a joined value is what the later value has there, or else the earlier one. Some ways in which
such values correspond outlast joining: the same is found under every key, what is found is as it
was or has been added, and a value stays or is an object afterwards.
-/

set_option autoImplicit false
set_option relaxedAutoImplicit false

namespace EntityMapping

open Keyed (Distinct)

variable {keyword : String} {before before' value value' : Option Json}

/-- All keywords that are joined key by key are joined alike. -/
theorem laidValue_byKey (joining : Joining.ofKeyword keyword = .byKey)
    (before value : Option Json) :
    laidValue keyword before value = laidValue "properties" before value := by
  have properties : Joining.ofKeyword "properties" = .byKey := by decide
  cases value with
  | none => rfl
  | some value => simp only [laidValue, joinValues, joining, properties]

theorem laidValue_obj (joining : Joining.ofKeyword keyword = .byKey) (before : Option Json)
    (new : Keyed Json) : laidValue keyword before (some (.obj new)) =
      some (.obj (propertiesOver new before)) := by
  rw [laidValue_byKey joining, laidValue_properties_obj]

theorem get?_propertiesOver {new : Keyed Json} (distinct : Distinct new) (before : Option Json)
    (key : String) : Keyed.get? (propertiesOver new before) key =
      (Keyed.get? new key).or (Keyed.get? (fieldsIn before) key) := by
  unfold propertiesOver
  split
  · rename_i old
    exact Keyed.get?_setAll old distinct key
  · rename_i notObject
    have empty : fieldsIn before = [] := by
      cases before with
      | none => rfl
      | some value =>
        cases value with
        | obj old => exact absurd rfl (notObject old)
        | _ => rfl
    simp [empty]

theorem distinct_propertiesOver {new : Keyed Json} (distinct : Distinct new)
    (below : ∀ fields, before = some (.obj fields) → Distinct fields) :
    Distinct (propertiesOver new before) := by
  unfold propertiesOver
  split
  · exact Keyed.distinct_setAll (below _ rfl) new
  · exact distinct

/-- A keyword that is absent or an object with pairwise different keys. -/
def IsFields (value : Option Json) : Prop :=
  ∀ present, value = some present → ∃ fields, present = .obj fields ∧ Distinct fields

theorem isFields_none : IsFields none := by
  intro present isPresent
  cases isPresent

theorem isFields_obj {fields : Keyed Json} (distinct : Distinct fields) :
    IsFields (some (.obj fields)) := by
  rintro present ⟨⟩
  exact ⟨fields, rfl, distinct⟩

/-- A keyword of a well keyed schema that is an object if it is there. -/
theorem isFields_of_isObject {own : Keyed Json} (whole : (Json.obj own).isWellKeyed = true)
    (isObject : ∀ present, Keyed.get? own keyword = some present → present.isObject = true) :
    IsFields (Keyed.get? own keyword) := by
  intro present written
  have object := isObject present written
  obtain ⟨fields, rfl⟩ : ∃ fields, present = .obj fields := by
    cases present <;> simp_all [Json.isObject, Json.fields?]
  exact ⟨fields, rfl, ((Json.isWellKeyed_obj _).mp (Json.isWellKeyed_of_get? whole written)).1⟩

theorem IsFields.distinct (isFields : IsFields value) : Distinct (fieldsIn value) := by
  cases value with
  | none => exact Keyed.distinct_nil
  | some value =>
    obtain ⟨fields, rfl, distinct⟩ := isFields value rfl
    exact distinct

theorem Compilation.propertiesOf_of_isFields {own : Keyed Json}
    (isFields : IsFields (Keyed.get? own "properties")) :
    propertiesOf own = .ok (propertiesIn own) := by
  unfold propertiesOf propertiesIn
  cases written : Keyed.get? own "properties" with
  | none => rfl
  | some value =>
    obtain ⟨fields, rfl, -⟩ := isFields value written
    rfl

theorem IsFields.laid (joining : Joining.ofKeyword keyword = .byKey) (below : IsFields before)
    (above : IsFields value) : IsFields (laidValue keyword before value) := by
  cases value with
  | none => exact below
  | some value =>
    obtain ⟨new, rfl, distinct⟩ := above value rfl
    rw [laidValue_obj joining]
    refine isFields_obj (distinct_propertiesOver distinct fun fields object => ?_)
    obtain ⟨_, same, distinctOld⟩ := below _ object
    exact Json.obj.inj same ▸ distinctOld

theorem isFields_mergeFragments (joining : Joining.ofKeyword keyword = .byKey)
    {fragments : List (Keyed Json)} (each : ∀ fragment ∈ fragments,
      Distinct fragment ∧ IsFields (Keyed.get? fragment keyword)) :
    IsFields (Keyed.get? (mergeFragments fragments) keyword) := by
  induction fragments using List.reverseRecOn with
  | nil => exact isFields_none
  | append_singleton before last ih =>
    obtain ⟨distinct, isFields⟩ := each last (by simp)
    rw [mergeFragments_append, get?_layOver _ distinct]
    exact (ih fun fragment member => each fragment (by simp [member])).laid joining isFields

/-- The later value counts under its keys. -/
theorem get?_fieldsIn_laid (joining : Joining.ofKeyword keyword = .byKey) (above : IsFields value)
    (key : String) : Keyed.get? (fieldsIn (laidValue keyword before value)) key =
      (Keyed.get? (fieldsIn value) key).or (Keyed.get? (fieldsIn before) key) := by
  cases value with
  | none => rfl
  | some value =>
    obtain ⟨new, rfl, distinct⟩ := above value rfl
    rw [laidValue_obj joining]
    exact get?_propertiesOver distinct before key

/-- Fragments that are merged have a key if one of them has it. -/
theorem get?_fieldsIn_mergeFragments_eq_none (joining : Joining.ofKeyword keyword = .byKey)
    {fragments : List (Keyed Json)} (key : String) (each : ∀ fragment ∈ fragments,
      Distinct fragment ∧ IsFields (Keyed.get? fragment keyword)) :
    Keyed.get? (fieldsIn (Keyed.get? (mergeFragments fragments) keyword)) key = none ↔
      ∀ fragment ∈ fragments, Keyed.get? (fieldsIn (Keyed.get? fragment keyword)) key = none := by
  induction fragments using List.reverseRecOn with
  | nil => simp [mergeFragments, fieldsIn]
  | append_singleton before last ih =>
    obtain ⟨distinct, isFields⟩ := each last (by simp)
    have earlier := ih fun fragment member => each fragment (by simp [member])
    rw [mergeFragments_append, get?_layOver _ distinct, get?_fieldsIn_laid joining isFields,
      Option.or_eq_none_iff, earlier]
    simp [or_imp, forall_and, and_comm]

/-- What is found under a key is what was found there, or has been added. -/
structure Joined (added : String → Json → Prop) (before after : Option Json) : Prop where
  isFields : IsFields before
  isFieldsToo : IsFields after
  each : ∀ key, Keyed.get? (fieldsIn after) key = Keyed.get? (fieldsIn before) key ∨
    ∃ value, Keyed.get? (fieldsIn after) key = some value ∧ added key value

namespace Joined

variable {added : String → Json → Prop}

theorem refl (isFields : IsFields value) : Joined added value value :=
  ⟨isFields, isFields, fun _ => .inl rfl⟩

theorem appeared {fields : Keyed Json} (distinct : Distinct fields)
    (all : ∀ key value, Keyed.get? fields key = some value → added key value) :
    Joined added none (some (.obj fields)) := by
  refine ⟨isFields_none, isFields_obj distinct, fun key => ?_⟩
  cases found : Keyed.get? fields key with
  | none => exact .inl found
  | some value => exact .inr ⟨value, found, all key value found⟩

theorem appeared_single {key : String} {value : Json} (isAdded : added key value) :
    Joined added none (some (.obj [(key, value)])) := by
  refine .appeared (by simp [Distinct]) fun other found isFound => ?_
  obtain ⟨rfl, rfl⟩ : key = other ∧ value = found := by simpa [Keyed.get?_cons] using isFound
  exact isAdded

theorem mono {addedToo : String → Json → Prop} (joined : Joined added before value)
    (wider : ∀ key found, added key found → addedToo key found) : Joined addedToo before value := by
  refine ⟨joined.isFields, joined.isFieldsToo, fun key => (joined.each key).imp_right ?_⟩
  exact fun ⟨found, isFound, isAdded⟩ => ⟨found, isFound, wider key found isAdded⟩

theorem laid (joining : Joining.ofKeyword keyword = .byKey) (below : Joined added before before')
    (above : Joined added value value') :
    Joined added (laidValue keyword before value) (laidValue keyword before' value') := by
  refine ⟨below.isFields.laid joining above.isFields, below.isFieldsToo.laid joining
    above.isFieldsToo, fun key => ?_⟩
  rw [get?_fieldsIn_laid joining above.isFields, get?_fieldsIn_laid joining above.isFieldsToo]
  rcases above.each key with same | ⟨found, isFound, isAdded⟩
  · rw [same]
    cases Keyed.get? (fieldsIn value) key with
    | none => exact below.each key
    | some found => exact .inl rfl
  · rw [isFound]
    exact .inr ⟨found, rfl, isAdded⟩

end Joined

/-- The same value, or objects in which the same is found under every key. Objects have pairwise
different keys. -/
inductive SameFields : Option Json → Option Json → Prop
  | same {value : Option Json} : (∀ fields, value = some (.obj fields) → Distinct fields) →
      SameFields value value
  | objects {fields others : Keyed Json} : Distinct fields → Distinct others →
      (∀ key, Keyed.get? fields key = Keyed.get? others key) →
      SameFields (some (.obj fields)) (some (.obj others))

namespace SameFields

theorem get? (same : SameFields before before') (key : String) :
    Keyed.get? (fieldsIn before) key = Keyed.get? (fieldsIn before') key := by
  cases same with
  | same => rfl
  | objects _ _ each => exact each key

theorem distinct (same : SameFields before before') {fields : Keyed Json}
    (object : before = some (.obj fields)) : Distinct fields := by
  cases same with
  | same distinct => exact distinct fields object
  | objects distinct _ _ => exact Json.obj.inj (Option.some.inj object) ▸ distinct

theorem symm (same : SameFields before before') : SameFields before' before := by
  cases same with
  | same distinct => exact .same distinct
  | objects distinct distinctToo each => exact .objects distinctToo distinct fun key => (each key).symm

theorem trans {last : Option Json} (one : SameFields before before') (two : SameFields before' last) :
    SameFields before last := by
  cases one with
  | same => exact two
  | objects distinct distinctToo each =>
    cases two with
    | same => exact .objects distinct distinctToo each
    | objects _ distinctLast eachToo =>
      exact .objects distinct distinctLast fun key => (each key).trans (eachToo key)

theorem laid (joining : Joining.ofKeyword keyword = .byKey) (below : SameFields before before')
    (above : SameFields value value') :
    SameFields (laidValue keyword before value) (laidValue keyword before' value') := by
  have objects : ∀ {fields others : Keyed Json}, Distinct fields → Distinct others →
      (∀ key, Keyed.get? fields key = Keyed.get? others key) →
      SameFields (some (.obj (propertiesOver fields before)))
        (some (.obj (propertiesOver others before'))) := by
    intro fields others distinct distinctToo each
    refine .objects (distinct_propertiesOver distinct fun _ => below.distinct)
      (distinct_propertiesOver distinctToo fun _ => below.symm.distinct) fun key => ?_
    rw [get?_propertiesOver distinct, get?_propertiesOver distinctToo, each key, below.get? key]
  cases above with
  | same distinct =>
    cases value with
    | none => exact below
    | some value =>
      cases isFields : value.fields? with
      | none =>
        rw [laidValue_byKey joining, laidValue_byKey joining,
          laidValue_properties_of_not_obj _ isFields, laidValue_properties_of_not_obj _ isFields]
        exact .same distinct
      | some new =>
        obtain rfl : value = .obj new := by cases value <;> simp_all [Json.fields?]
        rw [laidValue_obj joining, laidValue_obj joining]
        exact objects (distinct new rfl) (distinct new rfl) fun _ => rfl
  | objects distinct distinctToo each =>
    rw [laidValue_obj joining, laidValue_obj joining]
    exact objects distinct distinctToo each

end SameFields

theorem isSome_laidValue (before value : Option Json) :
    (laidValue keyword before value).isSome = (value.isSome || before.isSome) := by
  cases value <;> simp [laidValue]

/-- The value of a keyword stays, or is an object now. -/
def StaysOrIsObject (before after : Option Json) : Prop :=
  after = before ∨ ∃ fields, after = some (.obj fields)

theorem StaysOrIsObject.laid (joining : Joining.ofKeyword keyword = .byKey)
    (below : StaysOrIsObject before before') (above : StaysOrIsObject value value') :
    StaysOrIsObject (laidValue keyword before value) (laidValue keyword before' value') := by
  have object : ∀ new, StaysOrIsObject (laidValue keyword before value)
      (laidValue keyword before' (some (.obj new))) := fun new =>
    .inr ⟨_, laidValue_obj joining before' new⟩
  rcases above with rfl | ⟨new, rfl⟩
  · cases value' with
    | none => exact below
    | some present =>
      cases isFields : present.fields? with
      | none =>
        rw [laidValue_byKey joining, laidValue_byKey joining,
          laidValue_properties_of_not_obj _ isFields, laidValue_properties_of_not_obj _ isFields]
        exact .inl rfl
      | some new =>
        obtain rfl : present = .obj new := by cases present <;> simp_all [Json.fields?]
        exact object new
  · exact object new

/-- What is found under a key is what was found there, or has been added; or the value is no object,
and stays. Such values may only be there if nothing appears where nothing was. -/
inductive Widened (added : String → Json → Prop) (strict : Prop) :
    Option Json → Option Json → Prop
  | joined {before after : Option Json} : Joined added before after →
      (strict → before.isSome = after.isSome) → Widened added strict before after
  | malformed {value : Json} : strict → value.fields? = none →
      Widened added strict (some value) (some value)

namespace Widened

variable {added : String → Json → Prop} {strict : Prop}

theorem laid (joining : Joining.ofKeyword keyword = .byKey)
    (below : Widened added strict before before') (above : Widened added strict value value') :
    Widened added strict (laidValue keyword before value) (laidValue keyword before' value') := by
  cases above with
  | malformed isStrict noObject =>
    rw [laidValue_byKey joining, laidValue_byKey joining,
      laidValue_properties_of_not_obj _ noObject, laidValue_properties_of_not_obj _ noObject]
    exact .malformed isStrict noObject
  | joined above present =>
    cases below with
    | joined below presentBelow =>
      refine .joined (below.laid joining above) fun isStrict => ?_
      rw [isSome_laidValue, isSome_laidValue, present isStrict, presentBelow isStrict]
    | malformed isStrict noObject =>
      -- objects on both sides forget what is below, and nothing on both sides leaves it
      have same := present isStrict
      cases value with
      | none =>
        obtain rfl : value' = none := by cases value' <;> simp_all
        exact .malformed isStrict noObject
      | some given =>
        obtain ⟨other, rfl⟩ : ∃ other, value' = some other := by cases value' <;> simp_all
        obtain ⟨new, rfl, -⟩ := above.isFields given rfl
        obtain ⟨newToo, rfl, -⟩ := above.isFieldsToo other rfl
        rw [laidValue_obj joining, laidValue_obj joining, propertiesOver_of_not_obj _ noObject,
          propertiesOver_of_not_obj _ noObject]
        exact .joined above present

end Widened

end EntityMapping
