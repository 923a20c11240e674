import EntityMapping.Json.Basic

/-!
JSON numbers. A number without fraction and exponent that fits in 64 bits, signed or unsigned, is
an integer; every other number is a floating point number. A floating point number is read from
the digits that fit in 64 bits, scaled by one rounded power of ten at a time.
-/

set_option autoImplicit false
set_option relaxedAutoImplicit false

namespace EntityMapping

namespace Json

/-- The greatest significand that is kept while digits are read. -/
def maxSignificand : Nat := Number.twoTo 64 - 1

/-- The greatest exponent that is kept while digits are read. -/
def maxWrittenExponent : Nat := Number.twoTo 31 - 1

/-- The greatest power of ten that is a finite number. -/
def greatestPower : Nat := 308

def digitValue (c : Char) : Nat := c.toNat - '0'.toNat

/-- Append the digits that fit to a significand; the rest of the digits is returned. -/
def takeDigits : (significand : Nat) → List Char → Nat × List Char
  | significand, [] => (significand, [])
  | significand, c :: rest =>
      let next := significand * 10 + digitValue c
      if maxSignificand < next then (significand, c :: rest) else takeDigits next rest

/-- Scale a number by a power of ten; none if it gets too big. A power below the table of powers
is applied in steps of the greatest one, until the number is zero. -/
def scale : (steps : Nat) → Binary64 → Int → Option Binary64
  | steps, number, exponent =>
      if exponent.natAbs ≤ greatestPower then do
        let power ← Binary64.ofNat false (Number.tenTo exponent.natAbs)
        if 0 ≤ exponent then number.mul power else number.div power
      else if number.isZero then some number
      else if 0 ≤ exponent then none
      else match steps with
        | 0 => some (Binary64.zero number.negative)
        | steps + 1 => do
            let power ← Binary64.ofNat false (Number.tenTo greatestPower)
            scale steps (← number.div power) (exponent + greatestPower)

/-- The floating point number `significand * 10 ^ exponent`. -/
def scaled (negative : Bool) (significand : Nat) (exponent : Int) : Option Json := do
  let number ← scale 4 (← Binary64.ofNat negative significand) exponent
  return .float number

/-- A number with a written exponent, after the digits before it. -/
def withExponent (negative : Bool) (significand : Nat) (exponent : Int) (text : List Char) :
    Option Json :=
  let (minus, digits) :=
    match text with
    | '+' :: rest => (false, rest)
    | '-' :: rest => (true, rest)
    | rest => (false, rest)
  if digits.isEmpty || !digits.all Char.isDigit then none
  else
    let written := digits.foldl (fun value c => value * 10 + digitValue c) 0
    if maxWrittenExponent < written then
      if significand ≠ 0 && !minus then none else some (.float (Binary64.zero negative))
    else
      let total : Int := if minus then exponent - written else exponent + written
      scaled negative significand
        (max (-(maxWrittenExponent : Int) - 1) (min maxWrittenExponent total))

/-- What may follow the integer part: a fraction, an exponent, both or neither. -/
def afterInteger (negative : Bool) (significand : Nat) (dropped : Nat) (text : List Char) :
    Option Json :=
  let finish (significand : Nat) (exponent : Int) : List Char → Option Json
    | [] => scaled negative significand exponent
    | c :: rest =>
        if c = 'e' || c = 'E' then withExponent negative significand exponent rest else none
  match text with
  | '.' :: rest =>
      let digits := rest.takeWhile Char.isDigit
      if digits.isEmpty then none
      else
        let (grown, unused) := takeDigits significand digits
        finish grown ((dropped : Int) - ((digits.length - unused.length : Nat) : Int))
          (rest.dropWhile Char.isDigit)
  | rest => finish significand dropped rest

/-- An integer without fraction and exponent whose digits fit. -/
def integer (negative : Bool) (significand : Nat) : Option Json :=
  if !negative then some (.int significand)
  else if significand = 0 || Number.twoTo 63 < significand then
    (Binary64.ofNat true significand).map .float
  else some (.int (-significand))

/-- A number; none if the text is not one or it is too big. -/
def number? (text : List Char) : Option Json :=
  let (negative, magnitude) :=
    match text with
    | '-' :: rest => (true, rest)
    | rest => (false, rest)
  let digits := magnitude.takeWhile Char.isDigit
  let rest := magnitude.dropWhile Char.isDigit
  if digits.isEmpty || (digits.head? = some '0' && digits.length ≠ 1) then none
  else
    let (significand, unused) := takeDigits 0 digits
    if rest.isEmpty && unused.isEmpty then integer negative significand
    else afterInteger negative significand unused.length rest

end Json

end EntityMapping
