import EntityMapping.Proofs.Derivation
import EntityMapping.Proofs.Relocation
import EntityMapping.Table.ForeignKey

/-!
Values whose objects have pairwise different keys, as every value has that a reader makes. A
registry of such values, over documents of such values, composes its schemas of such values only.
-/

set_option autoImplicit false
set_option relaxedAutoImplicit false

namespace EntityMapping

open Keyed (Distinct)

namespace Json

mutual

/-- Whether no object in a value has a key twice. -/
def isWellKeyed : Json → Bool
  | .obj fields => decide (Distinct fields) && fieldsWellKeyed fields
  | .arr items => itemsWellKeyed items
  | _ => true

def itemsWellKeyed : List Json → Bool
  | [] => true
  | item :: rest => isWellKeyed item && itemsWellKeyed rest

def fieldsWellKeyed : List (String × Json) → Bool
  | [] => true
  | (_, value) :: rest => isWellKeyed value && fieldsWellKeyed rest

end

theorem itemsWellKeyed_iff (items : List Json) :
    itemsWellKeyed items = true ↔ ∀ item ∈ items, item.isWellKeyed = true := by
  induction items with
  | nil => simp [itemsWellKeyed]
  | cons item rest ih => simp [itemsWellKeyed, ih]

theorem fieldsWellKeyed_iff (fields : Keyed Json) :
    fieldsWellKeyed fields = true ↔ ∀ field ∈ fields, field.2.isWellKeyed = true := by
  induction fields with
  | nil => simp [fieldsWellKeyed]
  | cons field rest ih => simp [fieldsWellKeyed, ih]

theorem isWellKeyed_obj (fields : Keyed Json) : (Json.obj fields).isWellKeyed = true ↔
    Distinct fields ∧ ∀ field ∈ fields, field.2.isWellKeyed = true := by
  rw [isWellKeyed, Bool.and_eq_true, decide_eq_true_iff, fieldsWellKeyed_iff]

theorem isWellKeyed_arr (items : List Json) :
    (Json.arr items).isWellKeyed = true ↔ ∀ item ∈ items, item.isWellKeyed = true := by
  rw [isWellKeyed, itemsWellKeyed_iff]

theorem isWellKeyed_str (text : String) : (Json.str text).isWellKeyed = true := rfl

theorem isWellKeyed_of_get? {fields : Keyed Json} {key : String} {value : Json}
    (object : (Json.obj fields).isWellKeyed = true) (found : Keyed.get? fields key = some value) :
    value.isWellKeyed = true :=
  ((isWellKeyed_obj fields).mp object).2 _ (Keyed.mem_of_get? found)

theorem isWellKeyed_of_member {value found : Json} {key : String}
    (whole : value.isWellKeyed = true) (member : value.get? key = some found) :
    found.isWellKeyed = true := by
  cases value <;> simp [get?, fields?] at member
  exact isWellKeyed_of_get? whole member

theorem isWellKeyed_set {fields : Keyed Json} {value : Json}
    (object : (Json.obj fields).isWellKeyed = true) (key : String)
    (whole : value.isWellKeyed = true) :
    (Json.obj (Keyed.set fields key value)).isWellKeyed = true := by
  obtain ⟨distinct, values⟩ := (isWellKeyed_obj fields).mp object
  have distinctToo := Keyed.distinct_set distinct key value
  refine (isWellKeyed_obj _).mpr ⟨distinctToo, fun field member => ?_⟩
  have found := Keyed.get?_of_mem distinctToo member
  rw [Keyed.get?_set] at found
  split at found
  · exact Option.some.inj found ▸ whole
  · exact isWellKeyed_of_get? object found

theorem isWellKeyed_setSome {fields : Keyed Json} (object : (Json.obj fields).isWellKeyed = true)
    (key : String) {value : Option Json}
    (whole : ∀ present, value = some present → present.isWellKeyed = true) :
    (Json.obj (Keyed.setSome fields key value)).isWellKeyed = true := by
  cases value with
  | none => exact object
  | some value => exact isWellKeyed_set object key (whole value rfl)

theorem isWellKeyed_setAll {fields additions : Keyed Json}
    (object : (Json.obj fields).isWellKeyed = true)
    (values : ∀ field ∈ additions, field.2.isWellKeyed = true) :
    (Json.obj (Keyed.setAll fields additions)).isWellKeyed = true := by
  induction additions generalizing fields with
  | nil => exact object
  | cons field rest ih =>
    exact ih (isWellKeyed_set object _ (values field List.mem_cons_self))
      fun other member => values other (List.mem_cons_of_mem _ member)

theorem isWellKeyed_joinValues {keyword : String} {existing : Option Json} {incoming : Json}
    (before : ∀ value, existing = some value → value.isWellKeyed = true)
    (later : incoming.isWellKeyed = true) :
    (joinValues keyword existing incoming).isWellKeyed = true := by
  unfold joinValues
  split
  · rename_i old new _
    exact isWellKeyed_setAll (before _ rfl) ((isWellKeyed_obj new).mp later).2
  · rename_i old new _
    have olds := (isWellKeyed_arr old).mp (before _ rfl)
    have news := (isWellKeyed_arr new).mp later
    exact (isWellKeyed_arr _).mpr fun item member =>
      (mem_of_mem_joinItems member).elim (olds item) (news item)
  · exact later

theorem isWellKeyed_layOver {laid fragment : Keyed Json}
    (below : (Json.obj laid).isWellKeyed = true)
    (values : ∀ field ∈ fragment, field.2.isWellKeyed = true) :
    (Json.obj (layOver laid fragment)).isWellKeyed = true := by
  induction fragment generalizing laid with
  | nil => exact below
  | cons field rest ih =>
    refine ih ?_ fun other member => values other (List.mem_cons_of_mem _ member)
    refine isWellKeyed_set below _ (isWellKeyed_joinValues ?_ (values field List.mem_cons_self))
    exact fun value found => isWellKeyed_of_get? below found

theorem isWellKeyed_mergeFragments {fragments : List (Keyed Json)}
    (each : ∀ fragment ∈ fragments, (Json.obj fragment).isWellKeyed = true) :
    (Json.obj (mergeFragments fragments)).isWellKeyed = true := by
  induction fragments using List.reverseRecOn with
  | nil => rfl
  | append_singleton fragments last ih =>
    rw [mergeFragments_append]
    have lastObject := each last (by simp)
    exact isWellKeyed_layOver (ih fun other member => each other (by simp [member]))
      ((isWellKeyed_obj last).mp lastObject).2

theorem isWellKeyed_without {fields : Keyed Json} (object : (Json.obj fields).isWellKeyed = true)
    (key : String) : (Json.obj (Keyed.without fields key)).isWellKeyed = true := by
  obtain ⟨distinct, values⟩ := (isWellKeyed_obj fields).mp object
  exact (isWellKeyed_obj _).mpr ⟨Keyed.distinct_without distinct key,
    fun field member => values field (List.mem_of_mem_filter member)⟩

end Json

namespace Reference

/-- Relocating references leaves the keys of a value as they are. -/
theorem isWellKeyed_relocate (context : String) (value : Json) (whole : value.isWellKeyed = true) :
    (relocate context value).isWellKeyed = true := by
  induction value using Json.byParts with
  | scalar value noFields noItems => rwa [relocate_scalar noFields noItems]
  | arr items ih =>
    rw [relocate, relocateItems_eq_map, Json.isWellKeyed_arr, List.forall_mem_map]
    exact fun item member => ih item member ((Json.isWellKeyed_arr items).mp whole item member)
  | obj fields ih =>
    obtain ⟨distinct, values⟩ := (Json.isWellKeyed_obj fields).mp whole
    rw [relocate, Json.isWellKeyed_obj, Distinct, keys_relocateFields, relocateFields_eq_map,
      List.forall_mem_map]
    refine ⟨distinct, fun field member => ?_⟩
    dsimp only
    rcases relocateField_cases field.1 field.2 with ⟨text, -, -, reference⟩ | plain
    · rw [reference, Json.isWellKeyed_str]
    · rw [plain]
      exact ih field member (values field member)

end Reference

namespace Registry

/-- A registry all of whose objects have pairwise different keys, those in the documents that its
references lead to included. -/
structure WellKeyed (registry : Registry) : Prop where
  entries : Distinct registry.entries
  schemas : ∀ entry ∈ registry.entries, entry.2.isWellKeyed = true
  documents : ∀ path fields, registry.documents.find path = .ok fields →
    (Json.obj fields).isWellKeyed = true

/-- A registry of well keyed schemas without documents. -/
theorem wellKeyed_of_entries {entries : Keyed Json} (distinct : Distinct entries)
    (schemas : ∀ entry ∈ entries, entry.2.isWellKeyed = true) :
    WellKeyed ⟨entries, none, Documents.empty⟩ where
  entries := distinct
  schemas := schemas
  documents path fields found := by cases found

variable {registry : Registry} {skip : Option String} {schema part : Json}

theorem isWellKeyed_of_descend {reference document : String} {pointer : List String}
    {value found : Json} (whole : value.isWellKeyed = true)
    (descended : descend reference document pointer value = .ok found) :
    found.isWellKeyed = true := by
  induction pointer generalizing value with
  | nil => exact Except.ok.inj descended ▸ whole
  | cons segment rest ih =>
    rw [descend] at descended
    split at descended
    · rename_i next found
      exact ih (Json.isWellKeyed_of_member whole found) descended
    · cases descended

theorem WellKeyed.of_target (keyed : registry.WellKeyed) {text name : String}
    {parsed : Reference} (led : registry.target text parsed = .ok (name, schema)) :
    schema.isWellKeyed = true := by
  cases parsed with
  | entity entity =>
    cases found : registry.get? entity with
    | none => simp [Registry.target, found] at led
    | some registered =>
      obtain ⟨-, rfl⟩ : entity = name ∧ registered = schema := by
        simpa [Registry.target, found] using led
      exact keyed.schemas _ (Keyed.mem_of_get? found)
  | remote document pointer =>
    obtain ⟨place, root, inner, -, found, descended, -, rfl⟩ := target_remote_eq_ok.mp led
    exact Reference.isWellKeyed_relocate document inner
      (isWellKeyed_of_descend (keyed.documents _ root found) descended)

/-- The parts of a schema are well keyed as the schema is. -/
theorem WellKeyed.of_composes (keyed : registry.WellKeyed)
    (parts : registry.Composes schema part) (whole : schema.isWellKeyed = true) :
    part.isWellKeyed = true := by
  induction parts with
  | self => exact whole
  | fragment _ written member _ ih =>
    have listed := Json.isWellKeyed_of_get? whole written
    exact ih ((Json.isWellKeyed_arr _).mp listed _ member)
  | reference _ _ led _ ih => exact ih (keyed.of_target led)

theorem WellKeyed.of_get? (keyed : registry.WellKeyed) {name : String}
    (registered : registry.get? name = some schema) : schema.isWellKeyed = true :=
  keyed.schemas _ (Keyed.mem_of_get? registered)

/-- What a schema is composed of has pairwise different keywords. -/
theorem WellKeyed.distinct (keyed : registry.WellKeyed) (whole : schema.isWellKeyed = true)
    {own : Keyed Json} (parts : registry.Composes schema (.obj own)) : Distinct own :=
  ((Json.isWellKeyed_obj own).mp (keyed.of_composes parts whole)).1

theorem contains_of_get? {name : String}
    (found : registry.get? name = some schema) : registry.contains name = true := by
  simpa [contains, Keyed.contains, get?] using congrArg Option.isSome found

/-- What a well keyed schema amounts to is well keyed. -/
theorem WellKeyed.of_derives {flat : Keyed Json} (keyed : registry.WellKeyed)
    (derivation : registry.Derives skip schema flat) (whole : schema.isWellKeyed = true) :
    (Json.obj flat).isWellKeyed = true := by
  induction derivation with
  | plain => exact whole
  | skipped => rfl
  | reference _ _ _ led _ ih => exact ih (keyed.of_target led)
  | @fragments own items flats noReference written sameLength _ ih =>
    have listed := (Json.isWellKeyed_arr items).mp (Json.isWellKeyed_of_get? whole written)
    refine Json.isWellKeyed_mergeFragments fun fragment member => ?_
    rcases List.mem_append.mp member with inFlats | beside
    · obtain ⟨item, inItems, holds⟩ :=
        exists_of_forall₂_right (List.forall₂_iff_zip.mpr ⟨sameLength, ih _ _⟩) inFlats
      exact holds (listed item inItems)
    · rw [eq_of_mem_siblings beside]
      exact Json.isWellKeyed_without whole _

theorem WellKeyed.distinct_of_derives {flat : Keyed Json} (keyed : registry.WellKeyed)
    (derivation : registry.Derives skip schema flat) (whole : schema.isWellKeyed = true) :
    Distinct flat :=
  ((Json.isWellKeyed_obj flat).mp (keyed.of_derives derivation whole)).1

/-- A registry stays well keyed when the schema of an entity is set to a well keyed one. -/
theorem WellKeyed.insert (keyed : registry.WellKeyed) (name : String)
    (whole : schema.isWellKeyed = true) : (registry.insert name schema).WellKeyed where
  entries := Keyed.distinct_set keyed.entries _ _
  schemas := by
    have object : (Json.obj registry.entries).isWellKeyed = true :=
      (Json.isWellKeyed_obj _).mpr ⟨keyed.entries, keyed.schemas⟩
    exact ((Json.isWellKeyed_obj _).mp (Json.isWellKeyed_set object name whole)).2
  documents := keyed.documents

theorem isWellKeyed_wrap {fragment : Keyed Json} (whole : schema.isWellKeyed = true)
    (object : (Json.obj fragment).isWellKeyed = true) :
    (wrap schema fragment).isWellKeyed = true := by
  have listed : (Json.arr [schema, .obj fragment]).isWellKeyed = true :=
    (Json.isWellKeyed_arr _).mpr (by simp [whole, object])
  exact (Json.isWellKeyed_obj _).mpr ⟨by simp [Distinct], by simp [listed]⟩

end Registry

end EntityMapping
