import EntityMapping.Number.Binary64
import EntityMapping.Text.Split
import EntityMapping.Toml.Value

/-!
The scalars of TOML text: strings in four kinds of quotes, booleans, numbers and moments. Of
floating point numbers and moments only the form is checked.
-/

set_option autoImplicit false
set_option relaxedAutoImplicit false

namespace EntityMapping

namespace Toml

def isBlank (c : Char) : Bool := c = ' ' || c = '\t'

/-- The characters of comments and literal strings: all but control characters. -/
def isFree (c : Char) : Bool := c = '\t' || (0x20 ≤ c.toNat && c.toNat ≠ 0x7F)

/-- The text after a line break, if one follows. -/
def afterBreak? : List Char → Option (List Char)
  | '\n' :: rest => some rest
  | '\r' :: '\n' :: rest => some rest
  | _ => none

/-- The value of a hexadecimal digit. -/
def hexDigit? (c : Char) : Option Nat :=
  if c.isDigit then some (c.toNat - '0'.toNat)
  else if 'a' ≤ c && c ≤ 'f' then some (c.toNat - 'a'.toNat + 10)
  else if 'A' ≤ c && c ≤ 'F' then some (c.toNat - 'A'.toNat + 10)
  else none

/-- The character whose code has a number of hexadecimal digits, and the rest. -/
def readCode (width : Nat) (text : List Char) : Option (Char × List Char) := do
  let digits := text.take width
  if digits.length ≠ width then none
  else
    let code ← digits.foldlM (fun value c => (hexDigit? c).map (value * 16 + ·)) 0
    if (0xD800 ≤ code && code ≤ 0xDFFF) || 0x10FFFF < code then none
    else return (Char.ofNat code, text.drop width)

/-- The character of an escape, after its backslash, and the rest. -/
def readEscape : List Char → Option (Char × List Char)
  | 'b' :: rest => some (Char.ofNat 0x08, rest)
  | 't' :: rest => some ('\t', rest)
  | 'n' :: rest => some ('\n', rest)
  | 'f' :: rest => some (Char.ofNat 0x0C, rest)
  | 'r' :: rest => some ('\r', rest)
  | '"' :: rest => some ('"', rest)
  | '\\' :: rest => some ('\\', rest)
  | 'u' :: rest => readCode 4 rest
  | 'U' :: rest => readCode 8 rest
  | _ => none

/-- A string on one line, after its opening quote. -/
def readLine (literal : Bool) : (fuel : Nat) → (read : List Char) → List Char →
    Option (String × List Char)
  | 0, _, _ => none
  | fuel + 1, read, text =>
      match text with
      | [] => none
      | c :: rest =>
          if c = (if literal then '\'' else '"') then some (String.ofList read.reverse, rest)
          else if !literal && c = '\\' then do
            let (char, beyond) ← readEscape rest
            readLine literal fuel (char :: read) beyond
          else if isFree c then readLine literal fuel (c :: read) rest
          else none

/-- Go on past blanks and line breaks. -/
def afterBlankLines : List Char → List Char
  | '\r' :: '\n' :: rest => afterBlankLines rest
  | c :: rest => if isBlank c || c = '\n' then afterBlankLines rest else c :: rest
  | [] => []

/-- Blanks and line breaks after a backslash at the end of a line; there must be a line break. -/
def afterLineJoint? (text : List Char) : Option (List Char) :=
  (afterBreak? (text.dropWhile isBlank)).map afterBlankLines

/-- A string over several lines, after its opening quotes. One or two quotes may stand inside it
or before the closing ones. -/
def readLines (literal : Bool) : (fuel : Nat) → (read : List Char) → List Char →
    Option (String × List Char)
  | 0, _, _ => none
  | fuel + 1, read, text =>
      let quote := if literal then '\'' else '"'
      match text with
      | [] => none
      | c :: rest =>
          if c = quote then
            let count := (text.takeWhile (· = quote)).length
            if count < 3 then readLines literal fuel (c :: read) rest
            else if 5 < count then none
            else
              some (String.ofList (read.reverse ++ List.replicate (count - 3) quote),
                text.drop count)
          else if !literal && c = '\\' then
            match afterLineJoint? rest with
            | some beyond => readLines literal fuel read beyond
            | none => do
                let (char, beyond) ← readEscape rest
                readLines literal fuel (char :: read) beyond
          else match afterBreak? text with
            | some beyond => readLines literal fuel ('\n' :: read) beyond
            | none => if isFree c then readLines literal fuel (c :: read) rest else none

/-- A string value, from its first quote on. A line break right after three quotes is dropped. -/
def readString (text : List Char) : Option (String × List Char) :=
  let fuel := text.length + 1
  let body (rest : List Char) : List Char := (afterBreak? rest).getD rest
  match text with
  | '"' :: '"' :: '"' :: rest => readLines false fuel [] (body rest)
  | '\'' :: '\'' :: '\'' :: rest => readLines true fuel [] (body rest)
  | '"' :: rest => readLine false fuel [] rest
  | '\'' :: rest => readLine true fuel [] rest
  | _ => none

/-- Digits of a base, with single low lines between them. -/
def digits? (base : Nat) (text : List Char) : Option (List Nat) := do
  let groups := Text.split '_' text
  if groups.any List.isEmpty then none
  else groups.flatten.mapM fun c => (hexDigit? c).filter (· < base)

/-- A sign, if there is one, and the rest. -/
def withoutSign : List Char → Bool × List Char
  | '-' :: rest => (true, rest)
  | '+' :: rest => (false, rest)
  | rest => (false, rest)

/-- The digits of a decimal integer, which must not be padded with zeros. -/
def wholeDigits? (text : List Char) : Option (List Nat) :=
  (digits? 10 text).filter fun digits => digits.head? ≠ some 0 || digits.length = 1

def ofDigits (base : Nat) (digits : List Nat) : Nat :=
  digits.foldl (fun value digit => value * base + digit) 0

/-- An integer of 64 bits with a sign. -/
def integer? (text : List Char) : Option Int := do
  let value : Int ← match text with
    | '0' :: 'x' :: rest => (digits? 16 rest).map fun digits => (ofDigits 16 digits : Int)
    | '0' :: 'o' :: rest => (digits? 8 rest).map fun digits => (ofDigits 8 digits : Int)
    | '0' :: 'b' :: rest => (digits? 2 rest).map fun digits => (ofDigits 2 digits : Int)
    | _ =>
        let (negative, magnitude) := withoutSign text
        (wholeDigits? magnitude).map fun digits =>
          if negative then -(ofDigits 10 digits : Int) else (ofDigits 10 digits : Int)
  let bound : Int := Number.twoTo 63
  if -bound ≤ value && value < bound then return value else none

/-- Whether a text has the form of a floating point number that is not too big. -/
def isFloat (text : List Char) : Bool :=
  let (negative, magnitude) := withoutSign text
  if magnitude = "inf".toList || magnitude = "nan".toList then true
  else
    let mantissa := magnitude.takeWhile fun c => c ≠ 'e' && c ≠ 'E'
    let exponent? : Option Int :=
      match magnitude.drop mantissa.length with
      | [] => some 0
      | _ :: written =>
          let (down, digits) := withoutSign written
          (digits? 10 digits).map fun digits =>
            if down then -(ofDigits 10 digits : Int) else (ofDigits 10 digits : Int)
    let parts := Text.split '.' mantissa
    let digits? : Option (List Nat × List Nat) :=
      match parts with
      | [whole] =>
          if mantissa.length = magnitude.length then none
          else (wholeDigits? whole).map fun digits => (digits, [])
      | [whole, fraction] => do return (← wholeDigits? whole, ← digits? 10 fraction)
      | _ => none
    match digits?, exponent? with
    | some (whole, fraction), some exponent =>
        negative || (Binary64.ofDecimal false (ofDigits 10 (whole ++ fraction))
          (exponent - fraction.length)).isSome
    | _, _ => false

/-- A number of exactly so many digits. -/
def fixedNumber? (width : Nat) (text : List Char) : Option Nat :=
  if text.length = width && text.all Char.isDigit then
    some (text.foldl (fun value c => value * 10 + (c.toNat - '0'.toNat)) 0)
  else none

def daysIn (year month : Nat) : Nat :=
  if month = 2 then
    if year % 4 = 0 && (year % 100 ≠ 0 || year % 400 = 0) then 29 else 28
  else if month = 4 || month = 6 || month = 9 || month = 11 then 30
  else 31

/-- A day: year, month and day of the month. -/
def isDate (text : List Char) : Bool :=
  match Text.split '-' text with
  | [year, month, day] =>
      match fixedNumber? 4 year, fixedNumber? 2 month, fixedNumber? 2 day with
      | some year, some month, some day =>
          1 ≤ month && month ≤ 12 && 1 ≤ day && day ≤ daysIn year month
      | _, _, _ => false
  | _ => false

/-- A time of day; the last minute may have a leap second. -/
def isTime (text : List Char) : Bool :=
  match Text.split ':' text with
  | [hour, minute, second] =>
      let whole := second.takeWhile (· ≠ '.')
      let fraction := second.drop whole.length
      let fractionOk :=
        fraction.isEmpty || (1 < fraction.length && (fraction.drop 1).all Char.isDigit)
      match fixedNumber? 2 hour, fixedNumber? 2 minute, fixedNumber? 2 whole with
      | some hour, some minute, some second =>
          hour ≤ 23 && minute ≤ 59 && second ≤ 60 && fractionOk
      | _, _, _ => false
  | _ => false

/-- A distance from universal time. -/
def isOffset (text : List Char) : Bool :=
  match Text.split ':' text with
  | [hour, minute] =>
      match fixedNumber? 2 hour, fixedNumber? 2 minute with
      | some hour, some minute => hour ≤ 23 && minute ≤ 59
      | _, _ => false
  | _ => false

/-- A time of day, perhaps with a distance from universal time. -/
def isZonedTime (text : List Char) : Bool :=
  let time := text.takeWhile fun c => c ≠ 'Z' && c ≠ 'z' && c ≠ '+' && c ≠ '-'
  isTime time &&
    match text.drop time.length with
    | [] => true
    | c :: offset => if c = 'Z' || c = 'z' then offset.isEmpty else isOffset offset

/-- A day, a time of day, or both. -/
def isMoment (text : List Char) : Bool :=
  isDate text || isTime text ||
    (isDate (text.take 10) &&
      match text.drop 10 with
      | c :: time => (c = 'T' || c = 't' || c = ' ') && isZonedTime time
      | [] => false)

/-- A value written without quotes and brackets. -/
def bareValue? (text : List Char) : Option Value :=
  if text = "true".toList then some (.boolean true)
  else if text = "false".toList then some (.boolean false)
  else match integer? text with
    | some value => some (.integer value)
    | none => if isFloat text then some .float else if isMoment text then some .moment else none

/-- The characters of values without quotes and brackets. -/
def isBareValue (c : Char) : Bool := c.isAlphanum || "+-_.:".toList.contains c

/-- A value without quotes and brackets, and the rest. A day and a time may have a space between
them. -/
def readBare (text : List Char) : Option (Value × List Char) :=
  let word := text.takeWhile isBareValue
  let rest := text.drop word.length
  let timed? : Option (Value × List Char) :=
    match rest with
    | ' ' :: more =>
        let time := more.takeWhile isBareValue
        let both := word ++ ' ' :: time
        if isDate word && (time.head?.any Char.isDigit) && isMoment both then
          some (.moment, more.drop time.length)
        else none
    | _ => none
  match timed? with
  | some found => some found
  | none => (bareValue? word).map fun value => (value, rest)

end Toml

end EntityMapping
