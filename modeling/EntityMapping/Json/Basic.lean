import EntityMapping.Keyed
import EntityMapping.Number.Binary64

/-!
JSON values. Objects keep the order of their keys; two objects are the same value whatever the
order. Integers and floating point numbers are different values.
-/

set_option autoImplicit false
set_option relaxedAutoImplicit false

namespace EntityMapping

/-- A JSON value. A reader makes integers of 64 bits only, signed or unsigned, and objects whose
keys are pairwise different. -/
inductive Json where
  | null
  | bool (value : Bool)
  | int (value : Int)
  | float (value : Binary64)
  | str (value : String)
  | arr (items : List Json)
  | obj (fields : List (String × Json))
  deriving Inhabited

namespace Json

mutual

/-- Equality of values, whatever the order of object keys. -/
def sameValue : Json → Json → Bool
  | .null, .null => true
  | .bool a, .bool b => a == b
  | .int a, .int b => a == b
  | .float a, .float b => a.sameValue b
  | .str a, .str b => a == b
  | .arr xs, .arr ys => sameItems xs ys
  | .obj xs, .obj ys => List.length xs == List.length ys && sameFields xs ys
  | _, _ => false

/-- Equality of lists of values, place by place. -/
def sameItems : List Json → List Json → Bool
  | [], [] => true
  | x :: xs, y :: ys => sameValue x y && sameItems xs ys
  | _, _ => false

/-- Whether every field of the first list has the same value in the second. -/
def sameFields : List (String × Json) → Keyed Json → Bool
  | [], _ => true
  | (key, x) :: xs, ys =>
      (match Keyed.get? ys key with
        | some y => sameValue x y
        | none => false) && sameFields xs ys

end

instance : BEq Json := ⟨sameValue⟩

mutual

/-- How many values a value consists of, itself included. -/
def size : Json → Nat
  | .arr items => sizeOfItems items + 1
  | .obj fields => sizeOfFields fields + 1
  | _ => 1

def sizeOfItems : List Json → Nat
  | [] => 0
  | item :: rest => size item + sizeOfItems rest

def sizeOfFields : List (String × Json) → Nat
  | [] => 0
  | (_, value) :: rest => size value + sizeOfFields rest

end

/-- The fields of an object. -/
def fields? : Json → Option (Keyed Json)
  | .obj fields => some fields
  | _ => none

/-- The items of a list. -/
def items? : Json → Option (List Json)
  | .arr items => some items
  | _ => none

def string? : Json → Option String
  | .str value => some value
  | _ => none

def bool? : Json → Option Bool
  | .bool value => some value
  | _ => none

/-- A non-negative integer. -/
def nat? : Json → Option Nat
  | .int value => if 0 ≤ value then some value.toNat else none
  | _ => none

def isNull : Json → Bool
  | .null => true
  | _ => false

def isString (value : Json) : Bool := value.string?.isSome

def isBool (value : Json) : Bool := value.bool?.isSome

def isObject (value : Json) : Bool := value.fields?.isSome

def isList (value : Json) : Bool := value.items?.isSome

def isInteger : Json → Bool
  | .int _ => true
  | _ => false

def isNumber : Json → Bool
  | .int _ => true
  | .float _ => true
  | _ => false

/-- The value under a key of an object; none for any other value. -/
def get? (value : Json) (key : String) : Option Json :=
  value.fields?.bind (Keyed.get? · key)

/-- A list of texts. -/
def texts (values : List String) : Json := .arr (values.map .str)

end Json

end EntityMapping
