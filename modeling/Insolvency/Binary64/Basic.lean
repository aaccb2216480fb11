/-
Numbers of 53 binary digits.

A magnitude is `mantissa · 2^exponent` with a mantissa below 2⁵³ and an exponent from
-1074 to 971.  `nearest?` rounds a ratio to one, a half going to the even mantissa; a
product or quotient is the exact one rounded so.  Everything is exact arithmetic on
naturals, and a sign is kept apart.
-/
import Insolvency.Decimal.Basic

namespace Insolvency

/-- The power of two. -/
def pow2 (k : Nat) : Nat := Nat.pow 2 k

/-- A magnitude `mantissa · 2^exponent`. -/
structure Binary64 where
  mantissa : Nat
  exponent : Int
deriving DecidableEq, Repr

namespace Binary64

/-- The smallest exponent there is. -/
def minExponent : Int := -1074

/-- The largest exponent there is. -/
def maxExponent : Int := 971

/-- `num / den` in units of a power of two, as numerator and denominator. -/
def inUnits (num den : Nat) (exponent : Int) : Nat × Nat :=
  (num * pow2 (-exponent).toNat, den * pow2 exponent.toNat)

/-- The exponent at which the mantissa of `num / den` has 53 digits, or the smallest. -/
def exponentOf (num den : Nat) : Int :=
  let guess : Int := (Nat.log2 num : Int) - (Nat.log2 den : Int) - 53
  let (n, d) := inUnits num den guess
  max (if pow2 53 ≤ n / d then guess + 1 else guess) minExponent

/-- The magnitude nearest to `num / den`; `none` if that is too large for any. -/
def nearest? (num den : Nat) : Option Binary64 :=
  if num = 0 then some ⟨0, 0⟩
  else
    let exponent := exponentOf num den
    let (n, d) := inUnits num den exponent
    let mantissa := (roundHalfEven n d).toNat
    let rounded : Binary64 :=
      if mantissa = pow2 53 then ⟨pow2 52, exponent + 1⟩ else ⟨mantissa, exponent⟩
    if maxExponent < rounded.exponent then none else some rounded

/-! ### Arithmetic -/

/-- The numerator of a magnitude as a ratio. -/
def num (x : Binary64) : Nat := x.mantissa * pow2 x.exponent.toNat

/-- The denominator of a magnitude as a ratio. -/
def den (x : Binary64) : Nat := pow2 (-x.exponent).toNat

/-- The product, rounded once; `none` if it is too large. -/
def mul? (x y : Binary64) : Option Binary64 := nearest? (x.num * y.num) (x.den * y.den)

/-- The quotient, rounded once; `none` if it is too large.  The divisor is not nothing. -/
def div? (x y : Binary64) : Option Binary64 := nearest? (x.num * y.den) (x.den * y.num)

end Binary64

end Insolvency
