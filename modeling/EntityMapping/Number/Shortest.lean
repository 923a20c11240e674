import EntityMapping.Number.Binary64

/-!
The shortest decimal that reads back as a given binary number. Among decimals of equally many
digits the one nearest to the number is taken, an exact tie going to the even digit.
-/

set_option autoImplicit false
set_option relaxedAutoImplicit false

namespace EntityMapping

/-- The decimal number `digits * 10 ^ exponent`. -/
structure Decimal where
  digits : Nat
  exponent : Int
  deriving DecidableEq, Repr

namespace Decimal

/-- The number of decimal digits. -/
def digitCount (value : Nat) : Nat := (Nat.toDigits 10 value).length

/-- The exponent of the leading digit of a positive fraction. -/
def leadingExponent (num den : Nat) : Int :=
  let guess : Int := (digitCount num : Int) - (digitCount den : Int)
  let (stepNum, stepDen) := Number.inSteps Number.tenTo num den guess
  if stepDen ≤ stepNum then guess else guess - 1

end Decimal

namespace Binary64

/-- The numbers that round to a given one, as fractions over one denominator: the lower end, the
number itself and the upper end, and whether the ends belong to it. -/
structure RoundingInterval where
  low : Nat
  value : Nat
  high : Nat
  denominator : Nat
  closed : Bool

/-- The interval of a positive number. Below a power of two the numbers lie twice as close. -/
def roundingInterval (number : Binary64) : RoundingInterval :=
  let scale := number.exponent - 2
  let unit : Nat := if 0 ≤ scale then Number.twoTo scale.toNat else 1
  let quarter := 4 * number.significand
  let narrow := number.significand = Number.twoTo 52 ∧ minExponent < number.exponent
  { low := (if narrow then quarter - 1 else quarter - 2) * unit
    value := quarter * unit
    high := (quarter + 2) * unit
    denominator := if 0 ≤ scale then 1 else Number.twoTo (-scale).toNat
    closed := number.significand % 2 == 0 }

/-- Whether `digits * 10 ^ exponent` lies in the interval. -/
def RoundingInterval.holds (interval : RoundingInterval) (decimal : Decimal) : Bool :=
  let scaled (bound : Nat) :=
    Number.inSteps Number.tenTo bound interval.denominator decimal.exponent
  let (lowNum, den) := scaled interval.low
  let (highNum, _) := scaled interval.high
  let point := decimal.digits * den
  if interval.closed then lowNum ≤ point && point ≤ highNum else lowNum < point && point < highNum

/-- The decimal on the grid of steps `10 ^ exponent` that lies in the interval, if one does. -/
def RoundingInterval.onGrid? (interval : RoundingInterval) (exponent : Int) : Option Decimal :=
  let (num, den) := Number.inSteps Number.tenTo interval.value interval.denominator exponent
  let below : Decimal := ⟨num / den, exponent⟩
  let above : Decimal := ⟨num / den + 1, exponent⟩
  let nearest : Decimal := ⟨roundDiv num den, exponent⟩
  if interval.holds nearest then some nearest
  else if interval.holds below then some below
  else if interval.holds above then some above
  else none

/-- Try some grids from the coarsest on. -/
def shortestFrom (interval : RoundingInterval) : (grids : Nat) → (exponent : Int) → Decimal
  | 0, exponent =>
      let (num, den) := Number.inSteps Number.tenTo interval.value interval.denominator exponent
      ⟨roundDiv num den, exponent⟩
  | grids + 1, exponent =>
      match interval.onGrid? exponent with
      | some decimal => decimal
      | none => shortestFrom interval grids (exponent - 1)

/-- The shortest decimal that reads back as the magnitude of the number. The first grid is coarser
than the leading digit, for a number just below a power of ten; seventeen digits always suffice. -/
def shortest (number : Binary64) : Decimal :=
  if number.isZero then ⟨0, 0⟩
  else
    let interval := number.roundingInterval
    shortestFrom interval 17 (Decimal.leadingExponent interval.value interval.denominator + 1)

end Binary64

end EntityMapping
