/-
The shortest decimal that stands for a number of 53 binary digits.

Of all decimals that round to the number it is one with the fewest digits, of these the
nearest, and of two equally near the even one.  The grids of the powers of ten are
tried from the coarsest on, and on each only the two points beside the number can
round to it.
-/
import Insolvency.Binary64.Basic

namespace Insolvency.Binary64

/-- The decimals that round to a magnitude: the bounds of an interval, the magnitude between
them, all over one denominator, and whether the bounds belong to it. -/
structure Interval where
  lower : Nat
  middle : Nat
  upper : Nat
  den : Nat
  closed : Bool

/-- The decimals that round to a magnitude.  Below a power of two the neighbour is only half as
far away. -/
def interval (x : Binary64) : Interval :=
  let scale := pow2 (x.exponent - 2).toNat
  let below := if x.mantissa = pow2 52 ∧ minExponent < x.exponent then 1 else 2
  { lower := (4 * x.mantissa - below) * scale
    middle := 4 * x.mantissa * scale
    upper := (4 * x.mantissa + 2) * scale
    den := pow2 (2 - x.exponent).toNat
    closed := x.mantissa % 2 == 0 }

/-- `digits · 10^power` over the interval's denominator, and what the bounds are then multiplied
by. -/
def Interval.holds (i : Interval) (power : Int) (digits : Nat) : Bool :=
  let point := digits * i.den * pow10 power.toNat
  let unit := pow10 (-power).toNat
  if i.closed then i.lower * unit ≤ point && point ≤ i.upper * unit
  else i.lower * unit < point && point < i.upper * unit

/-- The point of the grid of a power of ten that rounds to the magnitude; of two the nearer, and
of two equally near the even one. -/
def Interval.gridPoint? (i : Interval) (power : Int) : Option Nat :=
  let unit := pow10 (-power).toNat
  let grid := i.den * pow10 power.toNat
  let floor := i.middle * unit / grid
  match i.holds power floor, i.holds power (floor + 1) with
  | true, true => some (roundHalfEven (i.middle * unit : Nat) grid).toNat
  | true, false => some floor
  | false, true => some (floor + 1)
  | false, false => none

/-- The first of so many ever finer grids that has a point rounding to the magnitude. -/
def Interval.search (i : Interval) (power : Int) : (grids : Nat) → Nat × Int
  | 0 => (0, 0)
  | grids + 1 =>
    match i.gridPoint? power with
    | some digits => (digits, power)
    | none => i.search (power - 1) grids

/-- A power of ten above the magnitude, and not by much. -/
def Interval.powerAbove (i : Interval) : Int :=
  if i.den ≤ i.middle then (toString (i.middle / i.den)).length
  else 2 - ((toString (i.den / i.middle)).length : Int)

/-- Digits without the zeros they end in, the power growing accordingly. -/
def dropZeros : (fuel : Nat) → Nat → Int → Nat × Int
  | 0, digits, power => (digits, power)
  | fuel + 1, digits, power =>
    if digits ≠ 0 ∧ digits % 10 = 0 then dropZeros fuel (digits / 10) (power + 1)
    else (digits, power)

/-- The shortest decimal `digits · 10^power` that rounds to the magnitude. -/
def shortest (x : Binary64) : Nat × Int :=
  if x.mantissa = 0 then (0, 0)
  else
    let i := x.interval
    let (digits, power) := i.search i.powerAbove 24
    dropZeros 24 digits power

end Insolvency.Binary64
