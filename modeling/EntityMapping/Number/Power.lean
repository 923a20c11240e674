/-!
Powers of two and of ten, and fractions counted in steps of a power.
-/

set_option autoImplicit false
set_option relaxedAutoImplicit false

namespace EntityMapping

namespace Number

/-- A power of two. -/
def twoTo (exponent : Nat) : Nat := Nat.pow 2 exponent

/-- A power of ten. -/
def tenTo (exponent : Nat) : Nat := Nat.pow 10 exponent

@[simp] theorem twoTo_zero : twoTo 0 = 1 := rfl

theorem twoTo_succ (exponent : Nat) : twoTo (exponent + 1) = twoTo exponent * 2 := rfl

@[simp] theorem tenTo_zero : tenTo 0 = 1 := rfl

theorem tenTo_succ (exponent : Nat) : tenTo (exponent + 1) = tenTo exponent * 10 := rfl

/-- The fraction `num / den` in steps of a power with an exponent, again as a fraction. -/
def inSteps (power : Nat → Nat) (num den : Nat) (exponent : Int) : Nat × Nat :=
  if 0 ≤ exponent then (num, den * power exponent.toNat) else (num * power (-exponent).toNat, den)

end Number

end EntityMapping
