import EntityMapping.Proofs.Merging
import EntityMapping.Schema.Reference

/-!
Relocating what was read from a document. Relocation goes through a value field by field, so
lookups, changes of fields and merging come to the same before and after it. The lists of required
properties are the exception: they are joined without repetition, and two items that differ may be
the same once they are relocated; where they are texts, relocation leaves them as they are.
-/

set_option autoImplicit false
set_option relaxedAutoImplicit false

namespace EntityMapping

namespace Json

/-- Proofs about a value follow its parts: the items of a list, the values of an object. -/
@[elab_as_elim]
theorem byParts {motive : Json → Prop}
    (scalar : ∀ value, value.fields? = none → value.items? = none → motive value)
    (arr : ∀ items, (∀ item ∈ items, motive item) → motive (.arr items))
    (obj : ∀ fields : Keyed Json, (∀ field ∈ fields, motive field.2) → motive (.obj fields))
    (value : Json) : motive value := by
  induction size : sizeOf value using Nat.strongRecOn generalizing value with
  | ind n ih =>
    subst size
    cases value with
    | arr items =>
      refine arr items fun item member => ih _ ?_ item rfl
      have smaller := List.sizeOf_lt_of_mem member
      simp
      omega
    | obj fields =>
      refine obj fields fun field member => ih _ ?_ field.2 rfl
      have smaller := List.sizeOf_lt_of_mem member
      obtain ⟨key, value⟩ := field
      simp at smaller ⊢
      omega
    | _ => exact scalar _ rfl rfl

mutual

/-- Whether every field of a value, however deep, is as it should be. -/
def everyField (holds : String → Json → Bool) : Json → Bool
  | .obj fields => everyFieldOf holds fields
  | .arr items => everyFieldIn holds items
  | _ => true

def everyFieldIn (holds : String → Json → Bool) : List Json → Bool
  | [] => true
  | item :: rest => everyField holds item && everyFieldIn holds rest

def everyFieldOf (holds : String → Json → Bool) : List (String × Json) → Bool
  | [] => true
  | (key, value) :: rest => holds key value && everyField holds value && everyFieldOf holds rest

end

variable {holds : String → Json → Bool} {key : String}

theorem everyField_arr {items : List Json} : everyField holds (.arr items) = true ↔
    ∀ item ∈ items, item.everyField holds = true := by
  rw [everyField]
  induction items with
  | nil => simp [everyFieldIn]
  | cons item rest ih => simp [everyFieldIn, ih]

theorem everyField_obj {fields : Keyed Json} : everyField holds (.obj fields) = true ↔
    ∀ field ∈ fields, holds field.1 field.2 = true ∧ field.2.everyField holds = true := by
  rw [everyField]
  induction fields with
  | nil => simp [everyFieldOf]
  | cons field rest ih => simp [everyFieldOf, ih, and_assoc]

/-- A list of required properties holds texts only. -/
def requiresTexts (key : String) (value : Json) : Bool :=
  match value with
  | .arr items => key ≠ "required" || items.all isString
  | _ => true

end Json

namespace Reference

variable {context key keyword : String} {value : Json} {fields laid fragment own : Keyed Json}
  {items : List Json}

theorem relocateField_of_ne (different : key ≠ "$ref") (value : Json) :
    relocateField context key value = relocate context value := by
  cases value <;> simp [relocateField, relocate, different]

theorem relocateField_of_not_text (noText : value.string? = none) (key : String) :
    relocateField context key value = relocate context value := by
  cases value <;> simp_all [relocateField, relocate, Json.string?]

/-- A field is relocated as its value, unless it holds a reference. -/
theorem relocateField_cases (key : String) (value : Json) :
    (∃ text, key = "$ref" ∧ value = .str text ∧
      relocateField context key value = .str (relocateText context text)) ∨
    relocateField context key value = relocate context value := by
  by_cases isReference : key = "$ref"
  · subst isReference
    cases value with
    | str text => exact .inl ⟨text, rfl, rfl, rfl⟩
    | _ => exact .inr (relocateField_of_not_text rfl _)
  · exact .inr (relocateField_of_ne isReference value)

theorem relocate_scalar (noFields : value.fields? = none) (noItems : value.items? = none) :
    relocate context value = value := by
  cases value <;> simp_all [relocate, Json.fields?, Json.items?]

theorem relocateItems_eq_map (items : List Json) :
    relocateItems context items = items.map (relocate context) := by
  induction items with
  | nil => rfl
  | cons item rest ih => rw [relocateItems, ih, List.map_cons]

theorem relocateFields_eq_map (fields : Keyed Json) : relocateFields context fields =
    fields.map fun field => (field.1, relocateField context field.1 field.2) := by
  induction fields with
  | nil => rfl
  | cons field rest ih => rw [relocateFields, ih, List.map_cons]

theorem keys_relocateFields (fields : Keyed Json) :
    Keyed.keys (relocateFields context fields) = Keyed.keys fields := by
  rw [relocateFields_eq_map, Keyed.keys, Keyed.keys, List.map_map]
  rfl

theorem fields?_relocate (value : Json) :
    (relocate context value).fields? = value.fields?.map (relocateFields context) := by
  cases value <;> simp [relocate, Json.fields?]

theorem items?_relocate (value : Json) :
    (relocate context value).items? = value.items?.map (relocateItems context) := by
  cases value <;> simp [relocate, Json.items?]

theorem string?_relocate (value : Json) : (relocate context value).string? = value.string? := by
  cases value <;> simp [relocate, Json.string?]

theorem get?_relocateFields (fields : Keyed Json) (key : String) :
    Keyed.get? (relocateFields context fields) key =
      (Keyed.get? fields key).map (relocateField context key) := by
  induction fields with
  | nil => rfl
  | cons field rest ih =>
    obtain ⟨existing, value⟩ := field
    rw [relocateFields, Keyed.get?_cons, Keyed.get?_cons, ih]
    split
    · rename_i same
      rw [same, Option.map_some]
    · rfl

theorem get?_relocateFields_of_none (absent : Keyed.get? fields key = none) :
    Keyed.get? (relocateFields context fields) key = none := by
  rw [get?_relocateFields, absent, Option.map_none]

theorem get?_relocateFields_of_some (found : Keyed.get? fields key = some value)
    (different : key ≠ "$ref") :
    Keyed.get? (relocateFields context fields) key = some (relocate context value) := by
  rw [get?_relocateFields, found, Option.map_some, relocateField_of_ne different]

theorem relocateFields_set (fields : Keyed Json) (key : String) (value : Json) :
    relocateFields context (Keyed.set fields key value) =
      Keyed.set (relocateFields context fields) key (relocateField context key value) := by
  induction fields with
  | nil => rfl
  | cons field rest ih =>
    obtain ⟨existing, old⟩ := field
    rw [relocateFields, Keyed.set, Keyed.set]
    split
    · rw [relocateFields]
    · rw [relocateFields, ih]

theorem relocateFields_setAll (fields additions : Keyed Json) :
    relocateFields context (Keyed.setAll fields additions) =
      Keyed.setAll (relocateFields context fields) (relocateFields context additions) := by
  induction additions generalizing fields with
  | nil => rfl
  | cons field rest ih =>
    rw [relocateFields, Keyed.setAll_cons, Keyed.setAll_cons, ih, relocateFields_set]

theorem relocateFields_without (fields : Keyed Json) (key : String) :
    relocateFields context (Keyed.without fields key) =
      Keyed.without (relocateFields context fields) key := by
  rw [relocateFields_eq_map, relocateFields_eq_map, Keyed.without, Keyed.without, List.filter_map]
  rfl

theorem relocateItems_of_texts (texts : items.all Json.isString = true) :
    relocateItems context items = items := by
  rw [List.all_eq_true] at texts
  have unchanged : items.map (relocate context) = items.map id := by
    refine List.map_congr_left fun item member => ?_
    cases item with
    | str text => rfl
    | _ => cases texts _ member
  rw [relocateItems_eq_map, unchanged, List.map_id]

theorem all_isString_joinItems {existing incoming : List Json}
    (texts : existing.all Json.isString = true) (textsToo : incoming.all Json.isString = true) :
    (joinItems existing incoming).all Json.isString = true := by
  rw [List.all_eq_true] at texts textsToo ⊢
  exact fun item member => (mem_of_mem_joinItems member).elim (texts item) (textsToo item)

theorem joining_union (joined : Joining.ofKeyword keyword = .union) : keyword = "required" := by
  unfold Joining.ofKeyword at joined
  split at joined
  · cases joined
  · split at joined
    · assumption
    · cases joined

/-- Values are joined alike before and after relocation. -/
theorem relocateField_joinValues {existing : Option Json} {incoming : Json}
    (texts : ∀ old, existing = some old → Json.requiresTexts keyword old = true)
    (textsToo : Json.requiresTexts keyword incoming = true) :
    relocateField context keyword (joinValues keyword existing incoming) =
      joinValues keyword (existing.map (relocateField context keyword))
        (relocateField context keyword incoming) := by
  by_cases isReference : keyword = "$ref"
  · subst isReference
    rfl
  have plain : relocateField context keyword = relocate context :=
    funext (relocateField_of_ne isReference)
  rw [plain]
  cases joined : Joining.ofKeyword keyword with
  | replace => simp [joinValues, joined]
  | byKey =>
    cases existing with
    | none => simp [joinValues, joined]
    | some old => cases old <;> cases incoming <;>
        simp [joinValues, joined, relocate, relocateFields_setAll]
  | union =>
    obtain rfl := joining_union joined
    cases existing with
    | none => simp [joinValues, joined]
    | some old =>
      have textsOld := texts old rfl
      cases old <;> cases incoming <;> simp only [joinValues, joined, relocate, Option.map_some]
      rename_i old new
      have allTexts : old.all Json.isString = true := by simpa [Json.requiresTexts] using textsOld
      have allTextsToo : new.all Json.isString = true := by
        simpa [Json.requiresTexts] using textsToo
      rw [relocateItems_of_texts allTexts, relocateItems_of_texts allTextsToo,
        relocateItems_of_texts (all_isString_joinItems allTexts allTextsToo)]

theorem requiresTexts_joinValues {existing : Option Json} {incoming : Json}
    (texts : ∀ old, existing = some old → Json.requiresTexts keyword old = true)
    (textsToo : Json.requiresTexts keyword incoming = true) :
    Json.requiresTexts keyword (joinValues keyword existing incoming) = true := by
  unfold joinValues
  split
  · rfl
  · rename_i old new joined
    obtain rfl := joining_union joined
    have textsOld := texts _ rfl
    simp only [Json.requiresTexts, ne_eq, not_true_eq_false, decide_false, Bool.false_or]
      at textsOld textsToo ⊢
    exact all_isString_joinItems textsOld textsToo
  · exact textsToo

/-- The lists of required properties among some fields hold texts only. -/
def RequireTexts (fields : Keyed Json) : Prop :=
  ∀ field ∈ fields, Json.requiresTexts field.1 field.2 = true

theorem RequireTexts.without (texts : RequireTexts fields) (key : String) :
    RequireTexts (Keyed.without fields key) :=
  fun field member => texts field (List.mem_filter.mp member).1

theorem RequireTexts.layKeyword {field : String × Json} (below : RequireTexts laid)
    (texts : Json.requiresTexts field.1 field.2 = true) :
    RequireTexts (EntityMapping.layKeyword laid field) := by
  intro other member
  rcases Keyed.mem_of_mem_set member with rfl | before
  · exact requiresTexts_joinValues (fun old found => below _ (Keyed.mem_of_get? found)) texts
  · exact below other before

theorem RequireTexts.layOver (below : RequireTexts laid) (above : RequireTexts fragment) :
    RequireTexts (EntityMapping.layOver laid fragment) := by
  induction fragment generalizing laid with
  | nil => exact below
  | cons field rest ih =>
    obtain ⟨here, later⟩ := List.forall_mem_cons.mp above
    exact ih (below.layKeyword here) later

/-- Relocating what fragments laid over each other come to is laying relocated fragments over each
other. -/
theorem relocateFields_layOver (below : RequireTexts laid) (above : RequireTexts fragment) :
    relocateFields context (layOver laid fragment) =
      layOver (relocateFields context laid) (relocateFields context fragment) := by
  induction fragment generalizing laid with
  | nil => rfl
  | cons field rest ih =>
    obtain ⟨here, later⟩ := List.forall_mem_cons.mp above
    have first : relocateFields context (layKeyword laid field) =
        layKeyword (relocateFields context laid)
          (field.1, relocateField context field.1 field.2) := by
      rw [layKeyword, layKeyword, relocateFields_set, get?_relocateFields,
        relocateField_joinValues (fun old found => below _ (Keyed.mem_of_get? found)) here]
    exact (ih (below.layKeyword here) later).trans (by rw [first]; rfl)

theorem RequireTexts.mergeFragments {fragments : List (Keyed Json)}
    (each : ∀ fragment ∈ fragments, RequireTexts fragment) :
    RequireTexts (EntityMapping.mergeFragments fragments) := by
  induction fragments using List.reverseRecOn with
  | nil => simp [RequireTexts, EntityMapping.mergeFragments]
  | append_singleton before last ih =>
    rw [mergeFragments_append]
    exact (ih fun other member => each other (List.mem_append_left _ member)).layOver
      (each last (List.mem_append_right _ List.mem_cons_self))

theorem relocateFields_mergeFragments {fragments : List (Keyed Json)}
    (each : ∀ fragment ∈ fragments, RequireTexts fragment) :
    relocateFields context (mergeFragments fragments) =
      mergeFragments (fragments.map (relocateFields context)) := by
  induction fragments using List.reverseRecOn with
  | nil => rfl
  | append_singleton before last ih =>
    have earlier : ∀ fragment ∈ before, RequireTexts fragment := fun other member =>
      each other (List.mem_append_left _ member)
    rw [mergeFragments_append, List.map_append, List.map_cons, List.map_nil, mergeFragments_append,
      relocateFields_layOver (.mergeFragments earlier)
        (each last (List.mem_append_right _ List.mem_cons_self)), ih earlier]

end Reference

end EntityMapping
