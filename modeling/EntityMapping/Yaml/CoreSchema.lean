import EntityMapping.Json.Basic
import EntityMapping.Yaml.Tag

/-!
The values of YAML scalars. A plain scalar may be null, a boolean, an integer or a floating point
number; every other scalar is a text. Integers may be written in base 16, 8 or 2. Infinite numbers
and numbers that are none have no JSON value and become null.
-/

set_option autoImplicit false
set_option relaxedAutoImplicit false

namespace EntityMapping

namespace Yaml

def isNullText (text : String) : Bool :=
  text = "null" || text = "Null" || text = "NULL" || text = "~"

def boolOfText? (text : String) : Option Bool :=
  if text = "true" || text = "True" || text = "TRUE" then some true
  else if text = "false" || text = "False" || text = "FALSE" then some false
  else none

/-- The value of a digit in a base. -/
def digitOf? (base : Nat) (c : Char) : Option Nat :=
  let value? : Option Nat :=
    if c.isDigit then some (c.toNat - '0'.toNat)
    else if 'a' ≤ c && c ≤ 'z' then some (c.toNat - 'a'.toNat + 10)
    else if 'A' ≤ c && c ≤ 'Z' then some (c.toNat - 'A'.toNat + 10)
    else none
  value?.filter (· < base)

/-- A natural number in a base: one digit or more. -/
def naturalIn? (base : Nat) (digits : List Char) : Option Nat :=
  if digits.isEmpty then none
  else digits.foldlM (fun value c => (digitOf? base c).map (value * base + ·)) 0

/-- A number in base 16, 8 or 2, after the zero and the letter of the base. -/
def markedNatural? : List Char → Option Nat
  | '0' :: 'x' :: digits => naturalIn? 16 digits
  | '0' :: 'o' :: digits => naturalIn? 8 digits
  | '0' :: 'b' :: digits => naturalIn? 2 digits
  | _ => none

/-- Digits that begin with a zero and are more than one: they are a text, not a number. -/
def isPaddedNumber (text : List Char) : Bool :=
  let digits := match text with
    | '-' :: rest => rest
    | '+' :: rest => rest
    | rest => rest
  match digits with
  | '0' :: rest => !rest.isEmpty && rest.all Char.isDigit
  | _ => false

/-- An integer. A number in another base than ten may have a sign, too. -/
def integer? (text : List Char) : Option Int :=
  let (negative, magnitude) :=
    match text with
    | '-' :: rest => (true, rest)
    | '+' :: rest => (false, rest)
    | rest => (false, rest)
  let natural? : Option Nat :=
    match markedNatural? magnitude with
    | some value => some value
    | none => if isPaddedNumber text then none else naturalIn? 10 magnitude
  natural?.map fun value => if negative then -(value : Int) else (value : Int)

/-- Whether an integer fits in a number of bits, signed if negative. -/
def fitsIn (bits : Nat) (value : Int) : Bool :=
  -(Number.twoTo (bits - 1) : Int) ≤ value && value < (Number.twoTo bits : Int)

/-- Digits with a point among them or none, and an exponent or none. -/
def decimal? (text : List Char) : Option (Nat × Int) :=
  let whole := text.takeWhile Char.isDigit
  let afterWhole := text.dropWhile Char.isDigit
  let (fraction, rest) :=
    match afterWhole with
    | '.' :: more => (more.takeWhile Char.isDigit, more.dropWhile Char.isDigit)
    | more => ([], more)
  let exponent? : Option Int :=
    match rest with
    | [] => some 0
    | c :: more =>
        if c = 'e' || c = 'E' then
          match more with
          | '-' :: digits => (naturalIn? 10 digits).map fun value => -(value : Int)
          | '+' :: digits => (naturalIn? 10 digits).map fun value => (value : Int)
          | digits => (naturalIn? 10 digits).map fun value => (value : Int)
        else none
  if whole.isEmpty && fraction.isEmpty then none
  else do
    let digits ← naturalIn? 10 (whole ++ fraction)
    let exponent ← exponent?
    return (digits, exponent - fraction.length)

/-- The signs before a floating point number: one at most. -/
def finite? (text : List Char) : Option Binary64 :=
  let (negative, magnitude) :=
    match text with
    | '-' :: rest => (true, rest)
    | '+' :: rest => (false, rest)
    | rest => (false, rest)
  (decimal? magnitude).bind fun (digits, exponent) => Binary64.ofDecimal negative digits exponent

/-- Whether a text names an infinite number or no number. -/
def isBeyondNumbers (text : String) : Bool :=
  [".inf", ".Inf", ".INF", "+.inf", "+.Inf", "+.INF", "-.inf", "-.Inf", "-.INF",
    ".nan", ".NaN", ".NAN"].contains text

/-- A floating point number as a JSON value. -/
def float? (text : String) : Option Json :=
  if isBeyondNumbers text then some .null else (finite? text.toList).map .float

/-- An integer as a JSON value. One that fits in 128 bits only is refused; one that does not is
no integer. -/
def integerValue? (text : String) : Option (Option Json) :=
  match integer? text.toList with
  | none => none
  | some value =>
      if fitsIn 64 value then some (some (.int value))
      else if fitsIn 128 value then some none
      else none

/-- The value of a plain scalar without a tag; none if it is an integer that is refused. -/
def plainValue? (text : String) : Option Json :=
  if text = "" || isNullText text then some .null
  else match boolOfText? text with
    | some value => some (.bool value)
    | none =>
        match integerValue? text with
        | some value => value
        | none =>
            if isPaddedNumber text.toList then some (.str text)
            else some ((float? text).getD (.str text))

/-- The value of a scalar. A tag of the core schema asks for a kind of value, which the text must
then have. Local tags have no JSON value; one that is no text only looks like a local tag, and a
plain scalar is then read as if it had no tag. Every other tag asks for a text. -/
def scalarValue? (text : String) (plain : Bool) (tag : Option Tag) : Option Json :=
  match tag with
  | none => if plain then plainValue? text else some (.str text)
  | some tag =>
      if tag.isLocal then none
      else if tag = Tag.core "bool" then (boolOfText? text).map .bool
      else if tag = Tag.core "int" then (integerValue? text).join
      else if tag = Tag.core "float" then float? text
      else if tag = Tag.core "null" then if isNullText text then some .null else none
      else if tag.isMarked && plain then plainValue? text
      else some (.str text)

end Yaml

end EntityMapping
