/-!
Cutting a text at every occurrence of a character, and joining the pieces again.
-/

set_option autoImplicit false
set_option relaxedAutoImplicit false

namespace EntityMapping

namespace Text

/-- The pieces between the occurrences of a separator. There is one more piece than occurrences. -/
def split (separator : Char) : List Char → List (List Char)
  | [] => [[]]
  | c :: rest =>
      if c = separator then [] :: split separator rest
      else match split separator rest with
        | [] => [[c]]
        | piece :: pieces => (c :: piece) :: pieces

/-- The pieces with a separator between each two of them. -/
def join (separator : Char) : List (List Char) → List Char
  | [] => []
  | [piece] => piece
  | piece :: pieces => piece ++ separator :: join separator pieces

/-- The text before the first occurrence of a separator and the text after it. -/
def splitOnce? (separator : Char) : List Char → Option (List Char × List Char)
  | [] => none
  | c :: rest =>
      if c = separator then some ([], rest)
      else (splitOnce? separator rest).map fun (before, after) => (c :: before, after)

/-- The text after a beginning, if it begins so. -/
def strip? : (beginning text : List Char) → Option (List Char)
  | [], text => some text
  | _ :: _, [] => none
  | b :: beginning, c :: text => if b = c then strip? beginning text else none

/-- Whether a text begins in a given way. -/
def beginsWith (text : List Char) (beginning : String) : Bool :=
  (strip? beginning.toList text).isSome

theorem split_ne_nil (separator : Char) (text : List Char) : split separator text ≠ [] := by
  cases text with
  | nil => simp [split]
  | cons c rest =>
    by_cases same : c = separator
    · simp [split, same]
    · simp only [split, same, if_false]
      split <;> simp

theorem join_split (separator : Char) (text : List Char) :
    join separator (split separator text) = text := by
  induction text with
  | nil => rfl
  | cons c rest ih =>
    by_cases same : c = separator
    · subst same
      simp only [split, if_true]
      cases pieces : split c rest with
      | nil => exact absurd pieces (split_ne_nil c rest)
      | cons piece more =>
        rw [pieces] at ih
        simp [join, ih]
    · simp only [split, same, if_false]
      cases pieces : split separator rest with
      | nil => exact absurd pieces (split_ne_nil separator rest)
      | cons piece more =>
        rw [pieces] at ih
        cases more <;> simp_all [join]

end Text

end EntityMapping
