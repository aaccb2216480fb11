/-
Amounts of money and of shares.

An amount is a whole number of units of 10⁻²⁸, and only some numbers of units are
amounts: those written `m · 10ᵏ` with `k ≤ 28` and `|m| < 2⁹⁶`, which is to say a
96-bit mantissa and between 0 and 28 places.  The type carries the number of units
and the proof that it can be written so; two writings of one number are one amount.

Every operation works out the exact result first and rounds it once, to as many
places as leave the mantissa in bounds, a half going to the even neighbour
(`ofRatio?`).  What does not fit even without places is a `Fault`.  So order and
equality are those of the integers, and the only thing to reason about is one
rounding per operation.
-/

namespace Insolvency

/-- The number written as a one with `k` zeros. -/
def pow10 (k : Nat) : Nat := Nat.pow 10 k

theorem pow10_pos (k : Nat) : 0 < pow10 k := Nat.pow_pos (by decide)

/-- The whole number nearest to `num / den`; of two that are equally near, the even one. -/
def roundHalfEven (num : Int) (den : Nat) : Int :=
  let floor := num / (den : Int)
  let rest := num % (den : Int)
  if 2 * rest < den then floor
  else if (den : Int) < 2 * rest then floor + 1
  else if floor % 2 = 0 then floor
  else floor + 1

namespace Decimal

/-- The most places an amount can have. -/
def maxPlaces : Nat := 28

/-- Every mantissa is smaller than this, which is 2⁹⁶. -/
def mantissaBound : Nat := 79228162514264337593543950336

/-- How many units make one. -/
def unitsPerOne : Nat := pow10 maxPlaces

/-- These units can be written with a mantissa in bounds and at most 28 places. -/
def Fits (units : Int) : Prop :=
  ∃ (m : Int) (k : Nat), k ≤ maxPlaces ∧ m.natAbs < mantissaBound ∧ units = m * pow10 k

end Decimal

/-- An amount, as a number of units of 10⁻²⁸. -/
structure Decimal where
  units : Int
  fits : Decimal.Fits units

namespace Decimal

theorem ext_units {a b : Decimal} (h : a.units = b.units) : a = b := by
  cases a
  cases b
  cases h
  rfl

instance : DecidableEq Decimal := fun a b =>
  if h : a.units = b.units then isTrue (ext_units h)
  else isFalse fun e => h (e ▸ rfl)

/-! ### Writing down an amount -/

/-- The amount `m · 10⁻ˢ`. -/
def ofMantissa (m : Int) (s : Nat) (hm : m.natAbs < mantissaBound) : Decimal :=
  ⟨m * pow10 (maxPlaces - s), m, maxPlaces - s, Nat.sub_le _ _, hm, rfl⟩

instance : OfNat Decimal 0 := ⟨ofMantissa 0 0 (by decide)⟩

instance : OfNat Decimal 1 := ⟨ofMantissa 1 0 (by decide)⟩

instance : Inhabited Decimal := ⟨0⟩

/-- The largest amount there is. -/
def largest : Decimal := ofMantissa 79228162514264337593543950335 0 (by decide)

/-- Differences up to this one, 10⁻¹², are dust: they stand for nothing. -/
def epsilon : Decimal := ofMantissa 1 12 (by decide)

@[simp] theorem units_zero : (0 : Decimal).units = 0 := by decide

theorem units_one : (1 : Decimal).units = unitsPerOne := by decide

theorem units_epsilon : epsilon.units = pow10 16 := by decide

/-- The exact number an amount stands for. -/
def toRat (d : Decimal) : Rat := (d.units : Rat) / (unitsPerOne : Nat)

/-! ### Order -/

instance : LE Decimal := ⟨fun a b => a.units ≤ b.units⟩

instance : LT Decimal := ⟨fun a b => a.units < b.units⟩

theorem le_def {a b : Decimal} : a ≤ b ↔ a.units ≤ b.units := Iff.rfl

theorem lt_def {a b : Decimal} : a < b ↔ a.units < b.units := Iff.rfl

instance : DecidableLE Decimal := fun a b => inferInstanceAs (Decidable (a.units ≤ b.units))

instance : DecidableLT Decimal := fun a b => inferInstanceAs (Decidable (a.units < b.units))

instance : Min Decimal := minOfLe

instance : Max Decimal := maxOfLe

/-! ### Rounding -/

/-- `num / den` units rounded to `s` places, if the mantissa stays in bounds. -/
def atPlaces? (num : Int) (den : Nat) (s : Nat) : Option Decimal :=
  let m := roundHalfEven num (den * pow10 (maxPlaces - s))
  if hm : m.natAbs < mantissaBound then some (ofMantissa m s hm) else none

/-- `num / den` units rounded to as many of `s` places as leave the mantissa in bounds. -/
def upToPlaces? (num : Int) (den : Nat) : Nat → Option Decimal
  | 0 => atPlaces? num den 0
  | s + 1 => (atPlaces? num den (s + 1)).or (upToPlaces? num den s)

/-- The amount that `num / den` units are rounded to; `none` if they are too many. -/
def ofRatio? (num : Int) (den : Nat) : Option Decimal :=
  upToPlaces? num den maxPlaces

/-- The amount that `m · 10ᵉ` is rounded to.  A power beyond 10⁶⁰ of anything but nothing is
too large to be worked out. -/
def ofScientific? (m : Int) (e : Int) : Option Decimal :=
  if m = 0 then some 0
  else if 60 < e then none
  else ofRatio? (m * pow10 e.toNat * unitsPerOne) (pow10 (-e).toNat)

/-- An amount written with a point, such as `0.08`; one too large to be an amount is nothing. -/
instance : OfScientific Decimal :=
  ⟨fun m below e => (ofScientific? m (if below then -e else e)).getD 0⟩

/-! ### Arithmetic -/

/-- Why an operation has no result. -/
inductive Fault
  | additionOverflow
  | subtractionOverflow
  | multiplicationOverflow
  | divisionOverflow
  | divisionByZero
deriving DecidableEq, Repr

/-- The wording of a fault. -/
def Fault.message : Fault → String
  | .additionOverflow => "Addition overflowed"
  | .subtractionOverflow => "Subtraction overflowed"
  | .multiplicationOverflow => "Multiplication overflowed"
  | .divisionOverflow => "Division overflowed"
  | .divisionByZero => "Division by zero"

/-- A rounded result, or the fault of having none. -/
def orFault (result : Option Decimal) (fault : Fault) : Except Fault Decimal :=
  match result with
  | some d => .ok d
  | none => .error fault

/-- The negated amount; a mantissa and its negation are equally long. -/
def neg (a : Decimal) : Decimal :=
  ⟨-a.units, by
    obtain ⟨m, k, hk, hm, hu⟩ := a.fits
    exact ⟨-m, k, hk, by rwa [Int.natAbs_neg], by rw [hu, Int.neg_mul]⟩⟩

instance : Neg Decimal := ⟨neg⟩

@[simp] theorem units_neg (a : Decimal) : (-a).units = -a.units := rfl

/-- The sum, rounded once. -/
def add (a b : Decimal) : Except Fault Decimal :=
  orFault (ofRatio? (a.units + b.units) 1) .additionOverflow

/-- The difference, rounded once. -/
def sub (a b : Decimal) : Except Fault Decimal :=
  orFault (ofRatio? (a.units - b.units) 1) .subtractionOverflow

/-- The product, rounded once. -/
def mul (a b : Decimal) : Except Fault Decimal :=
  orFault (ofRatio? (a.units * b.units) unitsPerOne) .multiplicationOverflow

/-- The quotient, rounded once.  The sign of the divisor goes to the dividend. -/
def div (a b : Decimal) : Except Fault Decimal :=
  if b = 0 then .error .divisionByZero
  else orFault (ofRatio? (a.units * b.units.sign * unitsPerOne) b.units.natAbs) .divisionOverflow

/-- The amounts of a list added up from the left. -/
def sum (ds : List Decimal) : Except Fault Decimal :=
  ds.foldlM add 0

end Decimal

end Insolvency
