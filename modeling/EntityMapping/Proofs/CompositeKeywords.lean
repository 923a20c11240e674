import Mathlib
import EntityMapping.Artifacts.Model
import EntityMapping.Proofs.WellFormedness

/-!
Normal forms of composite keywords. Of the four notations, a list of objects says everything:
whatever a keyword is read as can be written so, and is read as the same again. The other notations
abbreviate it: an object or a list of columns stands for the list with nothing else in it, and lists
of entries are read entry by entry, as long as no entry is a text.
-/

set_option autoImplicit false
set_option relaxedAutoImplicit false

namespace EntityMapping

namespace Extension

/-- What the values of a composite keyword are read as, if entries have columns, plain ones nothing
else, and entries are written as objects. -/
structure NormalForms {α : Type} (read : Json → Except SchemaError (List α)) (write : α → Json)
    (plain : List String → α) (columns : α → List String) : Prop where
  /-- There is an entry, and every entry has a column. -/
  nonempty : ∀ value entries, read value = .ok entries →
    entries ≠ [] ∧ ∀ entry ∈ entries, columns entry ≠ []
  /-- The entries are read again from the list of objects that they are written as. -/
  again : ∀ value entries, read value = .ok entries → read (.arr (entries.map write)) = .ok entries
  /-- Nothing else restricts what can be read. -/
  reached : ∀ entries, entries ≠ [] → (∀ entry ∈ entries, columns entry ≠ []) →
    ∃ value, read value = .ok entries
  /-- An object stands for the list of it. -/
  object : ∀ fields, read (.obj fields) = read (.arr [.obj fields])
  /-- A list of columns stands for the list of it, which is a plain entry. -/
  texts : ∀ names, names ≠ [] → read (Json.texts names) = .ok [plain names] ∧
    read (.arr [Json.texts names]) = .ok [plain names]
  /-- Lists without texts are read one after the other. -/
  append : ∀ first later : List Json, first ≠ [] → later ≠ [] →
    (∀ item ∈ first ++ later, item.isString = false) → ∀ entries,
    read (.arr (first ++ later)) = .ok entries ↔ ∃ front back,
      read (.arr first) = .ok front ∧ read (.arr later) = .ok back ∧ entries = front ++ back

section Entries

variable {keyword : String} {value : Json} {items : List Json} {names : List String}

theorem compositeEntries_ne_nil (listed : compositeEntries keyword value = .ok items) :
    items ≠ [] := by
  unfold compositeEntries at listed
  split at listed
  · obtain rfl := Except.ok.inj listed
    exact List.cons_ne_nil _ _
  · split at listed
    · cases listed
    · rename_i notEmpty
      split at listed
      · obtain rfl := Except.ok.inj listed
        exact List.cons_ne_nil _ _
      · obtain rfl := Except.ok.inj listed
        rintro rfl
        exact notEmpty rfl
  · cases listed

/-- A list is a list of entries as soon as one item is no text. -/
theorem compositeEntries_items {item : Json} (member : item ∈ items)
    (noText : item.isString = false) : compositeEntries keyword (.arr items) = .ok items := by
  have notEmpty : ¬ items.isEmpty = true := fun empty =>
    List.ne_nil_of_mem member (List.isEmpty_iff.mp empty)
  have notTexts : ¬ items.all Json.isString = true := fun all =>
    Bool.false_ne_true (noText.symm.trans (List.all_eq_true.mp all item member))
  rw [compositeEntries, if_neg notEmpty, if_neg notTexts]

/-- A list of texts is one entry. -/
theorem compositeEntries_texts (nonempty : names ≠ []) :
    compositeEntries keyword (Json.texts names) = .ok [Json.texts names] := by
  have notEmpty : ¬ (names.map Json.str).isEmpty = true := by simpa using nonempty
  have allTexts : (names.map Json.str).all Json.isString = true := by
    simp [Json.isString, Json.string?]
  rw [Json.texts, compositeEntries, if_neg notEmpty, if_pos allTexts]

theorem columnList_texts (nonempty : names ≠ []) :
    columnList keyword (Json.texts names) = .ok names := by
  have notEmpty : ¬ (names.map Json.str).isEmpty = true := by simpa using nonempty
  rw [Json.texts, columnList, if_neg notEmpty, mapM_eq_ok_iff, List.forall₂_map_left_iff,
    List.forall₂_same]
  exact fun _ _ => rfl

theorem compositeName_orNull (name : Option String) :
    compositeName keyword (some (Record.orNull (name.map .str))) = .ok name := by
  cases name <;> rfl

end Entries

theorem compositeIndex_texts {names : List String} (nonempty : names ≠ []) :
    compositeIndex (Json.texts names) = .ok ⟨none, names, false⟩ := by
  change (do
    return (⟨none, ← columnList "x-composite-index" (Json.texts names), false⟩ :
      CompositeIndex)) = .ok ⟨none, names, false⟩
  rw [columnList_texts nonempty]
  rfl

theorem compositeUnique_texts {names : List String} (nonempty : names ≠ []) :
    compositeUnique (Json.texts names) = .ok ⟨none, names⟩ := by
  change (do
    return (⟨none, ← columnList "x-composite-unique" (Json.texts names)⟩ :
      CompositeUnique)) = .ok ⟨none, names⟩
  rw [columnList_texts nonempty]
  rfl

/-- Entries that have columns are read from the objects that they are written as. -/
theorem compositeIndex_toJson {index : CompositeIndex} (nonempty : index.expressions ≠ []) :
    compositeIndex index.toJson = .ok index := by
  change (do
    let name ← compositeName "x-composite-index" (some (Record.orNull (index.name.map .str)))
    let columns ← columnList "x-composite-index" (Json.texts index.expressions)
    let unique ← indexUnique (some (.bool index.unique))
    return (⟨name, columns, unique⟩ : CompositeIndex)) = .ok index
  rw [compositeName_orNull, columnList_texts nonempty]
  rfl

theorem compositeUnique_toJson {constraint : CompositeUnique} (nonempty : constraint.columns ≠ []) :
    compositeUnique constraint.toJson = .ok constraint := by
  change (do
    let name ← compositeName "x-composite-unique" (some (Record.orNull (constraint.name.map .str)))
    return (⟨name, ← columnList "x-composite-unique" (Json.texts constraint.columns)⟩ :
      CompositeUnique)) = .ok constraint
  rw [compositeName_orNull, columnList_texts nonempty]
  rfl

/-- A composite keyword has normal forms if its entries have columns, and are read from lists of
columns and from the objects that they are written as. -/
theorem normalForms_of_entries {α : Type} {keyword : String} {entry : Json → Except SchemaError α}
    {write : α → Json} {plain : List String → α} {columns : α → List String}
    (noText : ∀ item, (write item).isString = false)
    (nonempty : ∀ value item, entry value = .ok item → columns item ≠ [])
    (listed : ∀ names, names ≠ [] → entry (Json.texts names) = .ok (plain names))
    (again : ∀ item, columns item ≠ [] → entry (write item) = .ok item) :
    NormalForms (fun value => do (← compositeEntries keyword value).mapM entry) write plain
      columns := by
  have rewritten : ∀ entries, entries ≠ [] → (∀ item ∈ entries, columns item ≠ []) →
      (do (← compositeEntries keyword (.arr (entries.map write))).mapM entry) = .ok entries := by
    intro entries some each
    obtain ⟨item, member⟩ := List.exists_mem_of_ne_nil entries some
    rw [compositeEntries_items (List.mem_map_of_mem member) (noText item), ok_bind, mapM_eq_ok_iff,
      List.forall₂_map_left_iff, List.forall₂_same]
    exact fun item member => again item (each item member)
  have columned : ∀ value entries,
      (do (← compositeEntries keyword value).mapM entry) = .ok entries →
        entries ≠ [] ∧ ∀ item ∈ entries, columns item ≠ [] := by
    intro value entries read
    obtain ⟨items, listed, mapped⟩ := bind_eq_ok.mp read
    refine ⟨?_, forall_of_mapM_eq_ok nonempty mapped⟩
    rintro rfl
    obtain rfl := List.forall₂_nil_right_iff.mp (mapM_eq_ok_iff.mp mapped)
    exact compositeEntries_ne_nil listed rfl
  refine ⟨columned, fun value entries read => ?_,
    fun entries some each => ⟨_, rewritten _ some each⟩, fun fields => ?_, fun names some => ?_,
    fun first later some someLater noTexts entries => ?_⟩
  · obtain ⟨some, each⟩ := columned value entries read
    exact rewritten entries some each
  · rw [compositeEntries_items List.mem_cons_self rfl, compositeEntries]
  · rw [compositeEntries_items List.mem_cons_self rfl, compositeEntries_texts some, ok_bind,
      List.mapM_cons, List.mapM_nil, listed names some]
    exact ⟨rfl, rfl⟩
  · obtain ⟨item, inFirst⟩ := List.exists_mem_of_ne_nil first some
    obtain ⟨other, inLater⟩ := List.exists_mem_of_ne_nil later someLater
    have noText := noTexts item (List.mem_append_left _ inFirst)
    rw [compositeEntries_items (List.mem_append_left _ inFirst) noText,
      compositeEntries_items inFirst noText,
      compositeEntries_items inLater (noTexts other (List.mem_append_right _ inLater)), ok_bind,
      ok_bind, ok_bind, List.mapM_append, bind_eq_ok]
    simp only [bind_eq_ok, pure_eq_ok, Except.ok.injEq]
    constructor
    · rintro ⟨front, readFront, back, readBack, rfl⟩
      exact ⟨front, back, readFront, readBack, rfl⟩
    · rintro ⟨front, back, readFront, readBack, rfl⟩
      exact ⟨front, readFront, back, readBack, rfl⟩

/-- Both composite keywords have normal forms. -/
theorem normalForms_composite :
    NormalForms compositeIndexes CompositeIndex.toJson (fun names => ⟨none, names, false⟩)
        CompositeIndex.expressions ∧
      NormalForms compositeUniques CompositeUnique.toJson (fun names => ⟨none, names⟩)
        CompositeUnique.columns := by
  constructor
  · exact normalForms_of_entries (fun _ => rfl) (fun _ _ => compositeIndex_ne_nil)
      (fun _ => compositeIndex_texts) fun _ => compositeIndex_toJson
  · exact normalForms_of_entries (fun _ => rfl) (fun _ _ => compositeUnique_ne_nil)
      (fun _ => compositeUnique_texts) fun _ => compositeUnique_toJson

example : compositeIndexes (.arr [.obj [("expressions", Json.texts ["name"]),
      ("unique", .bool true)], Json.texts ["city", "street"]]) =
    .ok [⟨none, ["name"], true⟩, ⟨none, ["city", "street"], false⟩] := rfl

end Extension

end EntityMapping
