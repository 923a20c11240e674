import Mathlib.Data.List.Forall2
import Mathlib.Data.List.Nodup
import EntityMapping.Keyed

/-!
Lookups in keyed lists. A lookup after a change is a lookup before it; lists whose keys are
pairwise different stay so. Where the keys are different, setting all pairs of a second list lets
the second list win.
-/

set_option autoImplicit false
set_option relaxedAutoImplicit false

namespace EntityMapping

/-- What stands in a list without repetitions stands in no other place of it. -/
theorem notMem_of_nodup_cut {α : Type} {first later : List α} {item : α}
    (nodup : (first ++ item :: later).Nodup) : item ∉ first ∧ item ∉ later := by
  have elsewhere := (List.nodup_cons.mp (List.nodup_middle.mp nodup)).1
  simpa only [List.mem_append, not_or] using elsewhere

theorem takeWhile_append_cons {α : Type} {keeps : α → Bool} {first later : List α} {item : α}
    (kept : ∀ other ∈ first, keeps other = true) (ends : keeps item = false) :
    (first ++ item :: later).takeWhile keeps = first := by
  rw [List.takeWhile_append_of_pos kept, List.takeWhile_cons_of_neg (by simp [ends]),
    List.append_nil]

namespace Keyed

variable {α : Type}

/-- No two pairs have the same key. -/
def Distinct (fields : Keyed α) : Prop := (keys fields).Nodup

instance (fields : Keyed α) : Decidable (Distinct fields) :=
  inferInstanceAs (Decidable (keys fields).Nodup)

@[simp] theorem keys_nil : keys ([] : Keyed α) = [] := rfl

@[simp] theorem keys_cons (pair : String × α) (rest : Keyed α) :
    keys (pair :: rest) = pair.1 :: keys rest := rfl

theorem distinct_cons (pair : String × α) (rest : Keyed α) :
    Distinct (pair :: rest) ↔ pair.1 ∉ keys rest ∧ Distinct rest := by
  simp [Distinct]

theorem distinct_append_singleton (fields : Keyed α) (pair : String × α) :
    Distinct (fields ++ [pair]) ↔ Distinct fields ∧ pair.1 ∉ keys fields := by
  have appended : keys (fields ++ [pair]) = (keys fields).concat pair.1 := by
    rw [List.concat_eq_append, keys, List.map_append]
    rfl
  rw [Distinct, appended, List.nodup_concat, and_comm]
  rfl

theorem distinct_nil : Distinct ([] : Keyed α) := List.nodup_nil

/-- Where fields with different keys are cut at one of them, neither side has its key. -/
theorem notMem_keys_of_cut {first later : Keyed α} {key : String} {value : α}
    (distinct : Distinct (first ++ (key, value) :: later)) :
    key ∉ keys first ∧ key ∉ keys later := by
  rw [Distinct, keys, List.map_append, List.map_cons] at distinct
  exact notMem_of_nodup_cut distinct

theorem takeWhile_ne_of_cut {first later : Keyed α} {key : String} {value : α}
    (fresh : key ∉ keys first) :
    (first ++ (key, value) :: later).takeWhile (·.1 ≠ key) = first := by
  refine takeWhile_append_cons (fun other member => ?_) (by simp)
  have different : other.1 ≠ key := fun same =>
    fresh (List.mem_map.mpr ⟨other, member, same⟩)
  simpa using different

theorem get?_cons (key : String) (value : α) (rest : Keyed α) (wanted : String) :
    get? ((key, value) :: rest) wanted = if key = wanted then some value else get? rest wanted :=
  rfl

theorem get?_append (fields others : Keyed α) (key : String) :
    get? (fields ++ others) key = (get? fields key).or (get? others key) := by
  induction fields with
  | nil => rfl
  | cons field rest ih =>
    rw [List.cons_append, get?_cons, get?_cons, ih]
    split <;> rfl

theorem get?_eq_none_iff (fields : Keyed α) (key : String) :
    get? fields key = none ↔ key ∉ keys fields := by
  induction fields with
  | nil => simp
  | cons pair rest ih =>
    obtain ⟨existing, value⟩ := pair
    by_cases same : existing = key
    · simp [get?_cons, same]
    · simp [get?_cons, same, ih, Ne.symm same]

theorem contains_iff (fields : Keyed α) (key : String) :
    contains fields key = true ↔ key ∈ keys fields := by
  have absent := get?_eq_none_iff fields key
  cases found : get? fields key <;> simp_all [contains]

theorem mem_of_get? {fields : Keyed α} {key : String} {value : α}
    (found : get? fields key = some value) : (key, value) ∈ fields := by
  induction fields with
  | nil => simp at found
  | cons pair rest ih =>
    obtain ⟨existing, old⟩ := pair
    by_cases same : existing = key
    · have equal : old = value := by simpa [get?_cons, same] using found
      simp [same, equal]
    · exact List.mem_cons_of_mem _ (ih (by simpa [get?_cons, same] using found))

theorem mem_keys_of_get? {fields : Keyed α} {key : String} {value : α}
    (found : get? fields key = some value) : key ∈ keys fields :=
  List.mem_map.mpr ⟨(key, value), mem_of_get? found, rfl⟩

theorem get?_of_mem {fields : Keyed α} (distinct : Distinct fields) {key : String} {value : α}
    (member : (key, value) ∈ fields) : get? fields key = some value := by
  induction fields with
  | nil => simp at member
  | cons pair rest ih =>
    obtain ⟨existing, old⟩ := pair
    obtain ⟨fresh, distinctRest⟩ := (distinct_cons _ _).mp distinct
    rcases List.mem_cons.mp member with equal | later
    · obtain ⟨rfl, rfl⟩ := Prod.mk.inj equal
      simp [get?_cons]
    · have inRest : key ∈ keys rest := List.mem_map.mpr ⟨_, later, rfl⟩
      have different : existing ≠ key := fun same => fresh (by simpa [same] using inRest)
      simpa [get?_cons, different] using ih distinctRest later

theorem get?_set (fields : Keyed α) (key other : String) (value : α) :
    get? (set fields key value) other = if other = key then some value else get? fields other := by
  by_cases same : other = key
  · simp [same, get?_set_self]
  · simp [same, get?_set_of_ne fields value same]

theorem get?_setSome (fields : Keyed α) (key other : String) (value : Option α) :
    get? (setSome fields key value) other =
      if other = key then value.or (get? fields key) else get? fields other := by
  cases value with
  | none => by_cases same : other = key <;> simp [setSome, same]
  | some value => exact get?_set fields key other value

theorem get?_setSome_of_ne (fields : Keyed α) {key other : String} (value : Option α)
    (different : other ≠ key) : get? (setSome fields key value) other = get? fields other := by
  rw [get?_setSome, if_neg different]

theorem mem_keys_set (fields : Keyed α) (key other : String) (value : α) :
    other ∈ keys (set fields key value) ↔ other = key ∨ other ∈ keys fields := by
  have before := get?_eq_none_iff fields other
  have after := get?_eq_none_iff (set fields key value) other
  rw [get?_set] at after
  by_cases same : other = key
  · simpa [same] using after
  · simpa [same, before, not_iff_not, iff_comm] using after

theorem mem_of_mem_set {fields : Keyed α} {key : String} {value : α} {pair : String × α}
    (member : pair ∈ set fields key value) : pair = (key, value) ∨ pair ∈ fields := by
  induction fields with
  | nil => exact .inl (List.mem_singleton.mp member)
  | cons field rest ih =>
    obtain ⟨existing, old⟩ := field
    by_cases same : existing = key
    · rw [set, if_pos same] at member
      exact (List.mem_cons.mp member).imp_right (List.mem_cons_of_mem _)
    · rw [set, if_neg same] at member
      rcases List.mem_cons.mp member with rfl | later
      · exact .inr List.mem_cons_self
      · exact (ih later).imp_right (List.mem_cons_of_mem _)

theorem set_of_not_mem {fields : Keyed α} {key : String} (value : α) (absent : key ∉ keys fields) :
    set fields key value = fields ++ [(key, value)] := by
  induction fields with
  | nil => rfl
  | cons pair rest ih =>
    obtain ⟨existing, old⟩ := pair
    simp only [keys_cons, List.mem_cons, not_or] at absent
    simp [set, Ne.symm absent.1, ih absent.2]

theorem keys_set_of_not_mem {fields : Keyed α} {key : String} (value : α)
    (absent : key ∉ keys fields) : keys (set fields key value) = keys fields ++ [key] := by
  rw [set_of_not_mem value absent, keys, keys, List.map_append]
  rfl

theorem distinct_set {fields : Keyed α} (distinct : Distinct fields) (key : String) (value : α) :
    Distinct (set fields key value) := by
  unfold Distinct
  by_cases present : key ∈ keys fields
  · rw [keys_set_of_contains fields value ((contains_iff fields key).mpr present)]
    exact distinct
  · rw [keys_set_of_not_mem value present]
    exact List.Nodup.append distinct (List.nodup_singleton key) (by simpa using present)

/-- Setting a key to the value that it has changes nothing. -/
theorem set_of_get? {fields : Keyed α} {key : String} {value : α}
    (found : get? fields key = some value) : set fields key value = fields := by
  induction fields with
  | nil => simp at found
  | cons pair rest ih =>
    obtain ⟨existing, old⟩ := pair
    by_cases same : existing = key
    · obtain rfl : old = value := by simpa [get?_cons, same] using found
      simp [set, same]
    · simp [set, same, ih (by simpa [get?_cons, same] using found)]

@[simp] theorem set_set (fields : Keyed α) (key : String) (value later : α) :
    set (set fields key value) key later = set fields key later := by
  induction fields with
  | nil => simp [set]
  | cons pair rest ih =>
    obtain ⟨existing, old⟩ := pair
    by_cases same : existing = key <;> simp [set, same, ih]

/-- A key that is there keeps its place, so it may be set before or after another one. -/
theorem set_comm {fields : Keyed α} {key other : String} (value later : α)
    (present : key ∈ keys fields) (different : other ≠ key) :
    set (set fields key value) other later = set (set fields other later) key value := by
  induction fields with
  | nil => cases present
  | cons pair rest ih =>
    obtain ⟨existing, old⟩ := pair
    by_cases same : existing = key
    · subst same
      simp [set, Ne.symm different]
    · have inRest : key ∈ keys rest := by simpa [Ne.symm same] using present
      by_cases found : existing = other
      · subst found
        simp [set, same]
      · simp [set, same, found, ih inRest]

/-- Where a key is cut out of fields with different keys, its value alone changes. -/
theorem set_of_cut {first later : Keyed α} {key : String} {value : α} (new : α)
    (fresh : key ∉ keys first) :
    set (first ++ (key, value) :: later) key new = first ++ (key, new) :: later := by
  induction first with
  | nil => simp [set]
  | cons pair rest ih =>
    obtain ⟨existing, old⟩ := pair
    simp only [keys_cons, List.mem_cons, not_or] at fresh
    simp [set, Ne.symm fresh.1, ih fresh.2]

theorem length_set (fields : Keyed α) {key : String} (value : α) (present : key ∈ keys fields) :
    (set fields key value).length = fields.length := by
  have same := keys_set_of_contains fields value ((contains_iff fields key).mpr present)
  simpa [keys] using congrArg List.length same

/-- Setting a key that is there changes its first pair only. -/
theorem forall₂_set {β : Type} {related changed : String × β → String × α → Prop}
    {others : Keyed β} {fields : Keyed α} {key : String} {old new : α}
    (each : List.Forall₂ related others fields) (found : get? fields key = some old)
    (kept : ∀ other field, related other field → changed other field)
    (replaced : ∀ other, related other (key, old) → changed other (key, new)) :
    List.Forall₂ changed others (set fields key new) := by
  induction each with
  | nil => simp at found
  | @cons other field others fields first later ih =>
    obtain ⟨existing, value⟩ := field
    by_cases same : existing = key
    · obtain rfl : value = old := by simpa [get?_cons, same] using found
      subst same
      rw [set, if_pos rfl]
      exact .cons (replaced _ first) (later.imp kept)
    · rw [set, if_neg same]
      exact .cons (kept _ _ first) (ih (by simpa [get?_cons, same] using found))

section Joining

variable (combine : String → Option α → α → α)

/-- Set a key to what a new value makes of the one before. -/
def joinOne (fields : Keyed α) (pair : String × α) : Keyed α :=
  set fields pair.1 (combine pair.1 (get? fields pair.1) pair.2)

/-- Join every pair of a second list, in its order. -/
def joinAll (fields additions : Keyed α) : Keyed α := additions.foldl (joinOne combine) fields

@[simp] theorem joinAll_nil (fields : Keyed α) : joinAll combine fields [] = fields := rfl

@[simp] theorem joinAll_cons (fields : Keyed α) (pair : String × α) (rest : Keyed α) :
    joinAll combine fields (pair :: rest) = joinAll combine (joinOne combine fields pair) rest :=
  rfl

theorem joinAll_append (fields additions later : Keyed α) :
    joinAll combine fields (additions ++ later) =
      joinAll combine (joinAll combine fields additions) later :=
  List.foldl_append

variable {combine}

theorem distinct_joinAll {fields : Keyed α} (distinct : Distinct fields) (additions : Keyed α) :
    Distinct (joinAll combine fields additions) := by
  induction additions generalizing fields with
  | nil => exact distinct
  | cons pair rest ih => exact ih (distinct_set distinct pair.1 _)

theorem get?_joinAll (fields : Keyed α) {additions : Keyed α} (distinct : Distinct additions)
    (key : String) : get? (joinAll combine fields additions) key =
      ((get? additions key).map (combine key (get? fields key))).or (get? fields key) := by
  induction additions generalizing fields with
  | nil => simp
  | cons pair rest ih =>
    obtain ⟨existing, value⟩ := pair
    obtain ⟨fresh, distinctRest⟩ := (distinct_cons _ _).mp distinct
    rw [joinAll_cons, ih _ distinctRest, joinOne, get?_set, get?_cons]
    by_cases same : existing = key
    · subst same
      simp [(get?_eq_none_iff rest existing).mpr fresh]
    · simp [same, Ne.symm same]

/-- A key that is there can be joined before pairs of other keys, or after them. -/
theorem joinAll_joinOne {fields additions : Keyed α} {key : String} (value : α)
    (present : key ∈ keys fields) (fresh : key ∉ keys additions) :
    joinAll combine (joinOne combine fields (key, value)) additions =
      joinOne combine (joinAll combine fields additions) (key, value) := by
  induction additions generalizing fields with
  | nil => rfl
  | cons pair rest ih =>
    obtain ⟨other, later⟩ := pair
    simp only [keys_cons, List.mem_cons, not_or] at fresh
    have swapped : joinOne combine (joinOne combine fields (key, value)) (other, later) =
        joinOne combine (joinOne combine fields (other, later)) (key, value) := by
      simp only [joinOne, get?_set_of_ne _ _ fresh.1, get?_set_of_ne _ _ (Ne.symm fresh.1)]
      exact set_comm _ _ present (Ne.symm fresh.1)
    have still : key ∈ keys (joinOne combine fields (other, later)) :=
      (mem_keys_set _ _ _ _).mpr (.inr present)
    rw [joinAll_cons, swapped, ih still fresh.2, joinAll_cons]

/-- One more pair that is joined to what is joined. The value in the middle may be joined to either
side first. -/
theorem joinAll_joinOne_assoc {fields middle : Keyed α} {key : String} {value : α}
    (distinct : Distinct middle) (absent : combine key none value = value)
    (assoc : ∀ before between, get? middle key = some between →
      combine key before (combine key (some between) value) =
        combine key (some (combine key before between)) value) :
    joinAll combine fields (joinOne combine middle (key, value)) =
      joinOne combine (joinAll combine fields middle) (key, value) := by
  cases found : get? middle key with
  | none =>
    rw [joinOne, found, absent, set_of_not_mem _ ((get?_eq_none_iff middle key).mp found),
      joinAll_append]
    rfl
  | some between =>
    obtain ⟨first, later, rfl⟩ := List.append_of_mem (mem_of_get? found)
    obtain ⟨notFirst, notLater⟩ := notMem_keys_of_cut distinct
    -- what comes after the key in the middle does not meet it
    have joined : joinOne combine (joinAll combine fields first)
          (key, combine key (some between) value) =
        joinOne combine (joinOne combine (joinAll combine fields first) (key, between))
          (key, value) := by
      simp only [joinOne, get?_set_self, set_set, assoc _ between found]
    have present : key ∈ keys (joinOne combine (joinAll combine fields first) (key, between)) :=
      (mem_keys_set _ _ _ _).mpr (.inl rfl)
    rw [joinOne, found, set_of_cut _ notFirst, joinAll_append, joinAll_cons, joined,
      joinAll_joinOne _ present notLater, joinAll_append, joinAll_cons]

end Joining

@[simp] theorem setAll_nil (fields : Keyed α) : setAll fields [] = fields := rfl

@[simp] theorem setAll_cons (fields : Keyed α) (pair : String × α) (rest : Keyed α) :
    setAll fields (pair :: rest) = setAll (set fields pair.1 pair.2) rest := rfl

/-- Setting pairs is joining them, where the later value counts. -/
theorem setAll_eq_joinAll (fields additions : Keyed α) :
    setAll fields additions = joinAll (fun _ _ value => value) fields additions := rfl

theorem distinct_setAll {fields : Keyed α} (distinct : Distinct fields) (additions : Keyed α) :
    Distinct (setAll fields additions) := by
  rw [setAll_eq_joinAll]
  exact distinct_joinAll distinct additions

theorem get?_setAll (fields : Keyed α) {additions : Keyed α} (distinct : Distinct additions)
    (key : String) : get? (setAll fields additions) key =
      (get? additions key).or (get? fields key) := by
  rw [setAll_eq_joinAll, get?_joinAll fields distinct, Option.map_id']

theorem mem_keys_setAll (fields additions : Keyed α) (key : String) :
    key ∈ keys (setAll fields additions) ↔ key ∈ keys fields ∨ key ∈ keys additions := by
  induction additions generalizing fields with
  | nil => simp
  | cons pair rest ih =>
    rw [setAll_cons, ih, mem_keys_set, keys_cons, List.mem_cons]
    tauto

/-- Pairs under new keys come behind the others. -/
theorem setAll_eq_append {fields additions : Keyed α}
    (fresh : ∀ key ∈ keys additions, key ∉ keys fields) (distinct : Distinct additions) :
    setAll fields additions = fields ++ additions := by
  induction additions generalizing fields with
  | nil => simp
  | cons pair rest ih =>
    obtain ⟨notLater, distinctRest⟩ := (distinct_cons _ _).mp distinct
    have absent := fresh pair.1 List.mem_cons_self
    rw [setAll_cons, set_of_not_mem pair.2 absent, ih _ distinctRest, List.append_assoc]
    · rfl
    · intro key inRest inFields
      have either : key ∈ keys fields ∨ key = pair.1 := by simpa [keys] using inFields
      rcases either with before | same
      · exact fresh key (List.mem_cons_of_mem _ inRest) before
      · exact notLater (same ▸ inRest)

theorem get?_without (fields : Keyed α) (key other : String) :
    get? (without fields key) other = if other = key then none else get? fields other := by
  induction fields with
  | nil => simp [without]
  | cons pair rest ih =>
    obtain ⟨existing, value⟩ := pair
    unfold without at ih ⊢
    by_cases dropped : existing = key
    · by_cases same : other = key
      · simpa [dropped, same] using ih
      · simpa [dropped, get?_cons, same, Ne.symm same] using ih
    · by_cases same : existing = other
      · subst same
        simp [dropped, get?_cons]
      · simpa [dropped, get?_cons, same] using ih

theorem distinct_without {fields : Keyed α} (distinct : Distinct fields) (key : String) :
    Distinct (without fields key) :=
  List.Nodup.sublist (List.Sublist.map _ List.filter_sublist) distinct

end Keyed

end EntityMapping
