import EntityMapping.Json.Basic
import EntityMapping.Number.Shortest

/-!
Compact JSON text: no blanks between tokens, object keys in their order, floating point numbers
with the fewest digits that read back.
-/

set_option autoImplicit false
set_option relaxedAutoImplicit false

namespace EntityMapping

namespace Json

/-- A digit of lower-case hexadecimal. -/
def hexDigit (value : Nat) : Char :=
  if value < 10 then Char.ofNat ('0'.toNat + value) else Char.ofNat ('a'.toNat + (value - 10))

/-- A character inside a JSON string: the quote, the backslash and control characters are
escaped, all else stands for itself. -/
def escape (c : Char) : List Char :=
  if c = '"' then ['\\', '"']
  else if c = '\\' then ['\\', '\\']
  else if c.toNat = 0x08 then ['\\', 'b']
  else if c.toNat = 0x0c then ['\\', 'f']
  else if c = '\n' then ['\\', 'n']
  else if c = '\r' then ['\\', 'r']
  else if c = '\t' then ['\\', 't']
  else if c.toNat < 0x20 then
    ['\\', 'u', '0', '0', hexDigit (c.toNat / 16), hexDigit (c.toNat % 16)]
  else [c]

/-- A text in quotes. -/
def quoted (value : String) : String :=
  "\"" ++ String.ofList (value.toList.flatMap escape) ++ "\""

/-- Positional notation is used for leading exponents from `-5` to `15`. -/
def isPositional (leading : Int) : Bool := -5 ≤ leading && leading ≤ 15

/-- The magnitude of a decimal: positional with at least one place after the point, or one digit
before the point and a signed exponent. -/
def decimalText (decimal : Decimal) : String :=
  let digits := Nat.toDigits 10 decimal.digits
  let leading : Int := decimal.exponent + (digits.length : Int) - 1
  if isPositional leading then
    let text :=
      if 0 ≤ decimal.exponent then
        digits ++ List.replicate decimal.exponent.toNat '0' ++ ['.', '0']
      else if 0 ≤ leading then
        digits.take (leading.toNat + 1) ++ '.' :: digits.drop (leading.toNat + 1)
      else
        ['0', '.'] ++ List.replicate (-leading - 1).toNat '0' ++ digits
    String.ofList text
  else
    let fraction :=
      match digits.drop 1 with
      | [] => []
      | rest => '.' :: rest
    let sign := if 0 ≤ leading then '+' else '-'
    String.ofList (digits.take 1 ++ fraction ++ ['e', sign] ++ Nat.toDigits 10 leading.natAbs)

/-- A floating point number. -/
def floatText (value : Binary64) : String :=
  (if value.negative then "-" else "") ++ decimalText value.shortest

mutual

/-- The compact text of a value. -/
def compact : Json → String
  | .null => "null"
  | .bool value => if value then "true" else "false"
  | .int value => toString value
  | .float value => floatText value
  | .str value => quoted value
  | .arr items => "[" ++ compactItems items ++ "]"
  | .obj fields => "\x7b" ++ compactFields fields ++ "\x7d"

/-- The items of a list, separated by commas. -/
def compactItems : List Json → String
  | [] => ""
  | [item] => compact item
  | item :: rest => compact item ++ "," ++ compactItems rest

/-- The fields of an object, separated by commas. -/
def compactFields : List (String × Json) → String
  | [] => ""
  | [(key, value)] => quoted key ++ ":" ++ compact value
  | (key, value) :: rest => quoted key ++ ":" ++ compact value ++ "," ++ compactFields rest

end

end Json

end EntityMapping
