/-
When an operation has a result.

An operation rounds to as few places as it must, down to none, so it has no result only
where the exact one is too large even for that: sums, differences and products up to the
largest amount always have one.  Dividing apart, no operation fails for another reason.

`FailsOnlyBy` says of a computation that all its failures are of one kind.  It goes through
the steps of the computation, so whoever proves it need not know which step fails.
-/
import Insolvency.Proofs.Decimal.Arithmetic

namespace Insolvency

/-! ### Failures of one kind -/

section FailsOnlyBy

variable {ε α β : Type} {P : ε → Prop}

/-- The computation has a result, or fails with an error of this kind. -/
def FailsOnlyBy (P : ε → Prop) (x : Except ε α) : Prop := ∀ err, x = .error err → P err

theorem failsOnlyBy_ok (a : α) : FailsOnlyBy P (.ok a : Except ε α) := fun _ h => by cases h

theorem failsOnlyBy_pure (a : α) : FailsOnlyBy P (pure a : Except ε α) := failsOnlyBy_ok a

theorem FailsOnlyBy.bind {x : Except ε α} {f : α → Except ε β} (hx : FailsOnlyBy P x)
    (hf : ∀ a, x = .ok a → FailsOnlyBy P (f a)) : FailsOnlyBy P (x >>= f) := by
  intro err herr
  rcases bind_eq_error.mp herr with herr | ⟨a, ha, herr⟩
  · exact hx err herr
  · exact hf a ha err herr

theorem FailsOnlyBy.of_exists {x : Except ε α} (h : ∃ a, x = .ok a) : FailsOnlyBy P x := by
  obtain ⟨a, rfl⟩ := h
  exact failsOnlyBy_ok a

/-- A loop fails only as its steps do. -/
theorem failsOnlyBy_foldlM {f : β → α → Except ε β} {xs : List α}
    (hf : ∀ b, ∀ a ∈ xs, FailsOnlyBy P (f b a)) (b : β) : FailsOnlyBy P (xs.foldlM f b) := by
  induction xs generalizing b with
  | nil => exact failsOnlyBy_pure b
  | cons x rest ih =>
      rw [List.foldlM_cons]
      exact (hf b x (List.mem_cons_self ..)).bind fun c _ =>
        ih (fun b a ha => hf b a (List.mem_cons_of_mem x ha)) c

theorem failsOnlyBy_mapM {f : α → Except ε β} {xs : List α} (hf : ∀ a ∈ xs, FailsOnlyBy P (f a)) :
    FailsOnlyBy P (xs.mapM f) := by
  induction xs with
  | nil => exact failsOnlyBy_pure []
  | cons x rest ih =>
      rw [List.mapM_cons]
      obtain ⟨hx, hrest⟩ := List.forall_mem_cons.mp hf
      exact hx.bind fun y _ => (ih hrest).bind fun ys _ => failsOnlyBy_pure (y :: ys)

end FailsOnlyBy

namespace Decimal

/-- The result would be too large for an amount. -/
def Fault.IsOverflow (fault : Fault) : Prop := fault ≠ .divisionByZero

end Decimal

/-- An amount would have become too large. -/
def Error.IsOverflow (err : Error) : Prop :=
  ∃ fault : Decimal.Fault, err = .arithmetic fault ∧ fault.IsOverflow

theorem FailsOnlyBy.lift {α : Type} {x : Except Decimal.Fault α}
    (h : FailsOnlyBy Decimal.Fault.IsOverflow x) :
    FailsOnlyBy Error.IsOverflow (liftM x : Except Error α) := by
  cases x with
  | error fault => exact fun err herr => ⟨fault, (Except.error.inj herr).symm, h fault rfl⟩
  | ok a => exact failsOnlyBy_ok a

namespace Decimal

/-! ### The operations fail by overflow only -/

theorem failsOnlyBy_orFault {result : Option Decimal} {fault : Fault} (h : fault.IsOverflow) :
    FailsOnlyBy Fault.IsOverflow (orFault result fault) := by
  cases result with
  | none => exact fun err herr => Except.error.inj herr ▸ h
  | some d => exact failsOnlyBy_ok d

theorem failsOnlyBy_add (a b : Decimal) : FailsOnlyBy Fault.IsOverflow (a.add b) :=
  failsOnlyBy_orFault (by simp [Fault.IsOverflow])

theorem failsOnlyBy_sub (a b : Decimal) : FailsOnlyBy Fault.IsOverflow (a.sub b) :=
  failsOnlyBy_orFault (by simp [Fault.IsOverflow])

theorem failsOnlyBy_mul (a b : Decimal) : FailsOnlyBy Fault.IsOverflow (a.mul b) :=
  failsOnlyBy_orFault (by simp [Fault.IsOverflow])

theorem failsOnlyBy_div (a : Decimal) {b : Decimal} (hb : b ≠ 0) :
    FailsOnlyBy Fault.IsOverflow (a.div b) := by
  rw [div, if_neg hb]
  exact failsOnlyBy_orFault (by simp [Fault.IsOverflow])

theorem ne_zero_of_epsilon_lt {d : Decimal} (h : epsilon < d) : d ≠ 0 := by
  rintro rfl
  exact absurd h (by decide)

/-- A part is never taken of nothing. -/
theorem failsOnlyBy_proportion (part whole : Decimal) :
    FailsOnlyBy Fault.IsOverflow (proportion part whole) := by
  unfold proportion
  split_ifs with hdust
  · exact failsOnlyBy_ok 0
  · have hwhole := ne_zero_of_epsilon_lt (not_le_iff.mp hdust)
    exact (failsOnlyBy_div part hwhole).bind fun q _ => failsOnlyBy_pure _

theorem failsOnlyBy_sum (ds : List Decimal) : FailsOnlyBy Fault.IsOverflow (sum ds) :=
  failsOnlyBy_foldlM (fun s d _ => failsOnlyBy_add s d) 0

/-! ### Nothing -/

theorem zero_le_iff {d : Decimal} : 0 ≤ d ↔ 0 ≤ d.toRat := by rw [le_iff_toRat, toRat_zero]

theorem zero_lt_iff {d : Decimal} : 0 < d ↔ 0 < d.toRat := by rw [lt_iff_toRat, toRat_zero]

theorem le_one_iff {d : Decimal} : d ≤ 1 ↔ d.toRat ≤ 1 := by rw [le_iff_toRat, toRat_one]

/-- Taking nothing off is exact. -/
theorem sub_zero_eq_ok (d : Decimal) : d.sub 0 = .ok d := by
  unfold sub
  rw [units_zero, Int.sub_zero, ofRatio?_units]
  rfl

/-! ### What is not too large has a result -/

theorem toRat_largest : largest.toRat = mantissaBound - 1 := by
  rw [largest, toRat_ofMantissa (Nat.zero_le _)]
  norm_num [mantissaBound]

theorem abs_toRat_le_largest (d : Decimal) : |d.toRat| ≤ largest.toRat := by
  obtain ⟨m, k, -, hm, hd⟩ := d.exists_mantissa
  have hmq : |(m : ℚ)| + 1 ≤ mantissaBound := by
    rw [← Int.cast_abs, ← Nat.cast_natAbs]
    exact_mod_cast hm
  rw [toRat_largest, hd, abs_div, abs_of_pos (by positivity : (0 : ℚ) < 10 ^ k)]
  have hpow : (1 : ℚ) ≤ 10 ^ k := one_le_pow₀ (by norm_num)
  exact (div_le_self (abs_nonneg _) hpow).trans (by linarith)

/-- Up to the largest amount every number is rounded to one. -/
theorem exists_ofRatio? {num : Int} {den : Nat} (hden : 0 < den)
    (h : |(num : ℚ) / (den * 10 ^ maxPlaces)| ≤ largest.toRat) :
    ∃ r, ofRatio? num den = some r := by
  obtain ⟨m, hm⟩ := exists_isNearest ((num : ℚ) / (den * 10 ^ maxPlaces))
  obtain ⟨hlow, hhigh⟩ := abs_le.mp (toRat_largest ▸ h)
  have hcast : ((mantissaBound - 1 : Int) : ℚ) = mantissaBound - 1 := by push_cast; rfl
  have hle : m ≤ (mantissaBound - 1 : Int) :=
    hm.mono (hcast ▸ isNearest_intCast (mantissaBound - 1 : Int)) hhigh
  have hge : -(mantissaBound - 1 : Int) ≤ m := by
    refine IsNearest.mono (x := -((mantissaBound : ℚ) - 1)) ?_ hm hlow
    rw [← hcast]
    exact (isNearest_intCast (mantissaBound - 1 : Int)).neg
  refine isSome_ofRatio? hden (Nat.zero_le _) (m := m) ?_ (by rwa [pow_zero, mul_one])
  have : 0 < mantissaBound := by decide
  omega

theorem exists_add {a b : Decimal} (h : |a.toRat + b.toRat| ≤ largest.toRat) :
    ∃ r, a.add b = .ok r := by
  have hx : ((a.units + b.units : Int) : ℚ) / ((1 : Nat) * 10 ^ maxPlaces) = a.toRat + b.toRat := by
    rw [Nat.cast_one, one_mul, Int.cast_add, add_div, toRat_eq_units_div, toRat_eq_units_div]
  obtain ⟨r, hr⟩ := exists_ofRatio? one_pos (hx ▸ h)
  exact ⟨r, orFault_eq_ok.mpr hr⟩

theorem exists_sub {a b : Decimal} (h : |a.toRat - b.toRat| ≤ largest.toRat) :
    ∃ r, a.sub b = .ok r := by
  have hx : ((a.units - b.units : Int) : ℚ) / ((1 : Nat) * 10 ^ maxPlaces) = a.toRat - b.toRat := by
    rw [Nat.cast_one, one_mul, sub_toRat]
  obtain ⟨r, hr⟩ := exists_ofRatio? one_pos (hx ▸ h)
  exact ⟨r, orFault_eq_ok.mpr hr⟩

theorem mul_toRat (a b : Decimal) :
    ((a.units * b.units : Int) : ℚ) / ((unitsPerOne : Nat) * 10 ^ maxPlaces)
      = a.toRat * b.toRat := by
  have hone : ((unitsPerOne : Nat) : ℚ) = 10 ^ maxPlaces := by
    show ((10 ^ maxPlaces : Nat) : ℚ) = 10 ^ maxPlaces
    push_cast
    rfl
  rw [toRat_eq_units_div, toRat_eq_units_div, hone, div_mul_div_comm, Int.cast_mul]

theorem exists_mul {a b : Decimal} (h : |a.toRat * b.toRat| ≤ largest.toRat) :
    ∃ r, a.mul b = .ok r := by
  obtain ⟨r, hr⟩ := exists_ofRatio? (pow10_pos maxPlaces) (mul_toRat a b ▸ h)
  exact ⟨r, orFault_eq_ok.mpr hr⟩

/-- Taking an amount once is exact. -/
theorem mul_one_eq_ok (d : Decimal) : d.mul 1 = .ok d := by
  have hexact : d.toRat * (1 : Decimal).toRat = d.toRat := by rw [toRat_one, mul_one]
  obtain ⟨r, hr⟩ := exists_mul (hexact.symm ▸ abs_toRat_le_largest d)
  have hround := rounds_mul hr
  rw [hexact] at hround
  rw [hr, hround.eq_of_amount]

/-- Of nothing every part is nothing. -/
theorem zero_div_eq_ok {d : Decimal} (hd : d ≠ 0) : div 0 d = .ok 0 := by
  have hunits : d.units ≠ 0 := fun hu => hd (ext_units (by rw [hu, units_zero]))
  have hnum : (0 : Decimal).units * d.units.sign * unitsPerOne = 0 := by
    rw [units_zero, Int.zero_mul, Int.zero_mul]
  have hsmall : |((0 : Int) : ℚ) / ((d.units.natAbs : Nat) * 10 ^ maxPlaces)| ≤ largest.toRat := by
    rw [Int.cast_zero, zero_div, abs_zero, ← abs_zero, ← toRat_zero]
    exact abs_toRat_le_largest 0
  obtain ⟨r, hr⟩ := exists_ofRatio? (Int.natAbs_pos.mpr hunits) hsmall
  have hdiv : div 0 d = .ok r := by
    rw [div, if_neg hd, hnum]
    exact orFault_eq_ok.mpr hr
  have hround := (rounds_div hdiv).2
  rw [toRat_zero, zero_div, ← toRat_zero] at hround
  rw [hdiv, hround.eq_of_amount]

/-- What is no further from nothing than an amount is not rounded further from it. -/
theorem Rounds.abs_le_abs {x : ℚ} {r d : Decimal} (h : Rounds x r) (hx : |x| ≤ |d.toRat|) :
    |r.toRat| ≤ |d.toRat| := by
  obtain ⟨hlow, hhigh⟩ := abs_le.mp hx
  rcases le_total 0 d.toRat with hd | hd
  · rw [abs_of_nonneg hd] at hlow hhigh ⊢
    exact abs_le.mpr ⟨toRat_neg d ▸ h.ge_of_ge (toRat_neg d ▸ hlow), h.le_of_le hhigh⟩
  · rw [abs_of_nonpos hd] at hlow hhigh ⊢
    refine abs_le.mpr ⟨?_, toRat_neg d ▸ h.le_of_le (toRat_neg d ▸ hhigh)⟩
    rw [neg_neg] at hlow ⊢
    exact h.ge_of_ge hlow

/-- Seven times 10²⁸ is an amount, so what is within it is rounded to something within it. -/
theorem Rounds.abs_le_pow {x : ℚ} {r : Decimal} (h : Rounds x r) {n : ℕ} (hn : n ≤ 7)
    (hx : |x| ≤ n * 10 ^ 28) : |r.toRat| ≤ n * 10 ^ 28 := by
  have hbound : ((n * 10 ^ 28 : ℕ) : ℤ).natAbs < mantissaBound := by
    rw [Int.natAbs_natCast, mantissaBound]
    omega
  have hd : (ofMantissa ((n * 10 ^ 28 : ℕ) : ℤ) 0 hbound).toRat = n * 10 ^ 28 := by
    rw [toRat_ofMantissa (Nat.zero_le _), pow_zero, div_one]
    push_cast
    rfl
  have hpos : (0 : ℚ) ≤ n * 10 ^ 28 := by positivity
  have hle := h.abs_le_abs (d := ofMantissa ((n * 10 ^ 28 : ℕ) : ℤ) 0 hbound)
    (by rwa [hd, abs_of_nonneg hpos])
  rwa [hd, abs_of_nonneg hpos] at hle

theorem seven_pow_le_largest : (7 : ℚ) * 10 ^ 28 ≤ largest.toRat := by
  rw [toRat_largest, mantissaBound]
  norm_num

/-- A difference is the sum with the negated amount. -/
theorem add_neg_eq_ok {a b r : Decimal} : a.add (-b) = .ok r ↔ a.sub b = .ok r := by
  rw [add, sub, units_neg, ← Int.sub_eq_add_neg, orFault_eq_ok, orFault_eq_ok]

/-- What is taken off of an amount not below nothing, and is no more than it, leaves an amount. -/
theorem exists_sub_of_le {a b : Decimal} (hb : 0 ≤ b.toRat) (hle : b.toRat ≤ a.toRat) :
    ∃ r, a.sub b = .ok r := by
  refine exists_sub ?_
  rw [abs_of_nonneg (by linarith)]
  linarith [(abs_le.mp (abs_toRat_le_largest a)).2]

end Decimal

end Insolvency
