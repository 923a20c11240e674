/-!
Keyed lists: lists of key and value pairs in the order in which the keys were first set.
Looking a key up finds its first pair; setting a key again keeps its place.
-/

set_option autoImplicit false
set_option relaxedAutoImplicit false

namespace EntityMapping

/-- Values under text keys, in the order in which the keys were first set. -/
abbrev Keyed (α : Type) := List (String × α)

namespace Keyed

variable {α β : Type}

/-- The value under a key. -/
def get? : Keyed α → String → Option α
  | [], _ => none
  | (key, value) :: rest, wanted => if key = wanted then some value else get? rest wanted

/-- Whether a key is present. -/
def contains (fields : Keyed α) (key : String) : Bool :=
  (get? fields key).isSome

/-- The keys in order. -/
def keys (fields : Keyed α) : List String :=
  List.map Prod.fst fields

/-- Put a value under a key: in the key's place if it has one, otherwise at the end. -/
def set : Keyed α → String → α → Keyed α
  | [], key, value => [(key, value)]
  | (existing, old) :: rest, key, value =>
      if existing = key then (key, value) :: rest else (existing, old) :: set rest key value

/-- Put a value under a key, if there is one. -/
def setSome (fields : Keyed α) (key : String) : Option α → Keyed α
  | some value => set fields key value
  | none => fields

/-- Set every pair of a second list, in its order. -/
def setAll (fields additions : Keyed α) : Keyed α :=
  List.foldl (fun current pair => set current pair.1 pair.2) fields additions

/-- The pairs without those of one key. -/
def without (fields : Keyed α) (key : String) : Keyed α :=
  List.filter (fun pair => pair.1 ≠ key) fields

@[simp] theorem get?_nil (key : String) : get? ([] : Keyed α) key = none := rfl

theorem get?_set_self (fields : Keyed α) (key : String) (value : α) :
    get? (set fields key value) key = some value := by
  induction fields with
  | nil => simp [set, get?]
  | cons pair rest ih =>
    obtain ⟨existing, old⟩ := pair
    by_cases same : existing = key <;> simp [set, get?, same, ih]

theorem get?_set_of_ne (fields : Keyed α) {key other : String} (value : α)
    (different : other ≠ key) : get? (set fields key value) other = get? fields other := by
  induction fields with
  | nil => simp [set, get?, Ne.symm different]
  | cons pair rest ih =>
    obtain ⟨existing, old⟩ := pair
    by_cases same : existing = key
    · subst same
      simp [set, get?, Ne.symm different]
    · by_cases found : existing = other
      · subst found
        simp [set, get?, same]
      · simp [set, get?, same, found, ih]

theorem keys_set_of_contains (fields : Keyed α) {key : String} (value : α)
    (present : contains fields key = true) : keys (set fields key value) = keys fields := by
  induction fields with
  | nil => simp [contains] at present
  | cons pair rest ih =>
    obtain ⟨existing, old⟩ := pair
    by_cases same : existing = key
    · simp [set, keys, same]
    · have inRest : contains rest key = true := by simpa [contains, get?, same] using present
      simpa [set, keys, same] using ih inRest

end Keyed

end EntityMapping
