import EntityMapping.Number.Power

/-!
Finite 64-bit binary floating point numbers as exact values: a sign, a significand below
`2 ^ 53` and a power of two. A quotient of natural numbers is rounded to the nearest number, a
tie going to the even significand.
-/

set_option autoImplicit false
set_option relaxedAutoImplicit false

namespace EntityMapping

/-- The number `significand * 2 ^ exponent`, negated if `negative`. Numbers made by this library
have the greatest significand below `2 ^ 53` that an exponent of at least `-1074` allows. -/
structure Binary64 where
  negative : Bool
  significand : Nat
  exponent : Int
  deriving DecidableEq, Repr

namespace Binary64

/-- The least exponent: the step between subnormal numbers. -/
def minExponent : Int := -1074

/-- The greatest exponent of a finite number. -/
def maxExponent : Int := 971

/-- Zero, with a sign. -/
def zero (negative : Bool) : Binary64 := ⟨negative, 0, minExponent⟩

def isZero (number : Binary64) : Bool := number.significand == 0

/-- Equality of values: the two zeros are equal. -/
def sameValue (a b : Binary64) : Bool :=
  a == b || (a.isZero && b.isZero)

/-- The quotient rounded to the nearest natural number, a tie going to the even one. -/
def roundDiv (num den : Nat) : Nat :=
  let quotient := num / den
  let rest := num % den
  if 2 * rest < den then quotient
  else if den < 2 * rest then quotient + 1
  else if quotient % 2 = 0 then quotient else quotient + 1

/-- The exponent that leaves `num / den` a significand of 53 bits, or the least exponent. -/
def exponentOf (num den : Nat) : Int :=
  let guess := max minExponent ((Nat.log2 num : Int) - (Nat.log2 den : Int) - 53)
  let (stepNum, stepDen) := Number.inSteps Number.twoTo num den guess
  if Number.twoTo 53 ≤ stepNum / stepDen then guess + 1 else guess

/-- The number nearest to `num / den`; none if it is too big to be finite. -/
def ofRatio (negative : Bool) (num den : Nat) : Option Binary64 :=
  if num = 0 then some (zero negative)
  else
    let exponent := exponentOf num den
    let (stepNum, stepDen) := Number.inSteps Number.twoTo num den exponent
    let rounded := roundDiv stepNum stepDen
    let number : Binary64 :=
      if rounded = Number.twoTo 53 then ⟨negative, Number.twoTo 52, exponent + 1⟩
      else ⟨negative, rounded, exponent⟩
    if maxExponent < number.exponent then none else some number

/-- The number nearest to a natural number. -/
def ofNat (negative : Bool) (value : Nat) : Option Binary64 := ofRatio negative value 1

/-- The magnitude as a fraction. -/
def toRatio (number : Binary64) : Nat × Nat :=
  if 0 ≤ number.exponent then (number.significand * Number.twoTo number.exponent.toNat, 1)
  else (number.significand, Number.twoTo (-number.exponent).toNat)

/-- The product, rounded; none if it is too big to be finite. -/
def mul (a b : Binary64) : Option Binary64 :=
  let (numA, denA) := a.toRatio
  let (numB, denB) := b.toRatio
  ofRatio (a.negative != b.negative) (numA * numB) (denA * denB)

/-- The quotient by a number other than zero, rounded; none if it is too big to be finite. -/
def div (a b : Binary64) : Option Binary64 :=
  let (numA, denA) := a.toRatio
  let (numB, denB) := b.toRatio
  ofRatio (a.negative != b.negative) (numA * denB) (denA * numB)

/-- The number nearest to a decimal number `digits * 10 ^ exponent`. Beyond the exponents whose
decimals all round to zero or all are too big, a nearer exponent decides the same. -/
def ofDecimal (negative : Bool) (digits : Nat) (exponent : Int) : Option Binary64 :=
  if digits = 0 then some (zero negative)
  else if 400 < exponent then none
  else if 0 ≤ exponent then ofRatio negative (digits * Number.tenTo exponent.toNat) 1
  else if exponent < -(400 + (Nat.log2 digits : Int)) then some (zero negative)
  else ofRatio negative digits (Number.tenTo (-exponent).toNat)

end Binary64

end EntityMapping
