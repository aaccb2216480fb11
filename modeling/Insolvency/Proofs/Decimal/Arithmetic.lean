/-
What the operations on amounts answer.

An operation that does not fault answers with its exact result rounded, and that is all
that is said of it here: the proofs above this file never look at units, mantissas or
places.  Order and equality of amounts are those of the numbers they stand for.
-/
import Insolvency.Decimal.Proportion
import Insolvency.Proofs.Computation
import Insolvency.Proofs.Decimal.Rounding

namespace Insolvency

namespace Decimal

/-! ### Amounts as numbers -/

theorem toRat_eq_units_div (d : Decimal) : d.toRat = (d.units : ℚ) / 10 ^ maxPlaces := by
  show (d.units : ℚ) / ((10 ^ maxPlaces : Nat) : ℚ) = (d.units : ℚ) / 10 ^ maxPlaces
  push_cast
  rfl

theorem le_iff_toRat {a b : Decimal} : a ≤ b ↔ a.toRat ≤ b.toRat := by
  rw [le_def, toRat_eq_units_div, toRat_eq_units_div,
    div_le_div_iff_of_pos_right (by positivity : (0 : ℚ) < 10 ^ maxPlaces)]
  exact_mod_cast Iff.rfl

theorem lt_iff_toRat {a b : Decimal} : a < b ↔ a.toRat < b.toRat := by
  rw [lt_def, toRat_eq_units_div, toRat_eq_units_div,
    div_lt_div_iff_of_pos_right (by positivity : (0 : ℚ) < 10 ^ maxPlaces)]
  exact_mod_cast Iff.rfl

theorem not_le_iff {a b : Decimal} : ¬ a ≤ b ↔ b < a := by
  rw [le_iff_toRat, lt_iff_toRat, not_le]

@[simp] theorem toRat_zero : (0 : Decimal).toRat = 0 := by
  rw [toRat_eq_units_div, units_zero, Int.cast_zero, zero_div]

@[simp] theorem toRat_one : (1 : Decimal).toRat = 1 := by
  rw [toRat_eq_units_div, units_one]
  show ((10 ^ maxPlaces : Nat) : ℚ) / 10 ^ maxPlaces = 1
  push_cast
  exact div_self (by positivity)

theorem toRat_epsilon : epsilon.toRat = 1 / 10 ^ 12 := by
  rw [toRat_eq_units_div, units_epsilon]
  norm_num [pow10, maxPlaces]

theorem epsilon_nonneg : 0 ≤ epsilon.toRat := by
  rw [toRat_epsilon]
  positivity

/-- What is more than dust is more than nothing. -/
theorem toRat_pos_of_epsilon_lt {d : Decimal} (h : epsilon < d) : 0 < d.toRat :=
  epsilon_nonneg.trans_lt (lt_iff_toRat.mp h)

theorem toRat_eq_zero {d : Decimal} : d.toRat = 0 ↔ d = 0 :=
  ⟨fun h => toRat_injective (h.trans toRat_zero.symm), fun h => h ▸ toRat_zero⟩

/-- No amount above nothing is below a grain. -/
theorem grain_le_of_pos {d : Decimal} (h : 0 < d.toRat) : grain ≤ d.toRat := by
  have hu : (1 : Int) ≤ d.units := lt_iff_toRat.mpr (h.trans_eq' toRat_zero.symm)
  rw [toRat_eq_units_div, grain]
  exact div_le_div_of_nonneg_right (by exact_mod_cast hu) (by positivity)

theorem toRat_min (a b : Decimal) : (min a b).toRat = min a.toRat b.toRat := by
  show (if a ≤ b then a else b).toRat = _
  split_ifs with h
  · rw [min_eq_left (le_iff_toRat.mp h)]
  · rw [min_eq_right (le_of_lt (not_le.mp fun hc => h (le_iff_toRat.mpr hc)))]

theorem toRat_max (a b : Decimal) : (max a b).toRat = max a.toRat b.toRat := by
  show (if a ≤ b then b else a).toRat = _
  split_ifs with h
  · rw [max_eq_right (le_iff_toRat.mp h)]
  · rw [max_eq_left (le_of_lt (not_le.mp fun hc => h (le_iff_toRat.mpr hc)))]

theorem zero_min {d : Decimal} (h : 0 ≤ d.toRat) : min 0 d = 0 := by
  apply toRat_injective
  rw [toRat_min, toRat_zero]
  exact min_eq_left h

/-! ### One rounding per operation -/

theorem orFault_eq_ok {result : Option Decimal} {fault : Fault} {r : Decimal} :
    orFault result fault = .ok r ↔ result = some r := by
  cases result with
  | none => simp [orFault]
  | some d => simp [orFault]

theorem rounds_add {a b r : Decimal} (h : a.add b = .ok r) : Rounds (a.toRat + b.toRat) r := by
  have hround := rounds_of_ofRatio? one_pos (orFault_eq_ok.mp h)
  rw [Nat.cast_one, one_mul, Int.cast_add, add_div] at hround
  rwa [toRat_eq_units_div, toRat_eq_units_div]

theorem rounds_sub {a b r : Decimal} (h : a.sub b = .ok r) : Rounds (a.toRat - b.toRat) r := by
  have hround := rounds_of_ofRatio? one_pos (orFault_eq_ok.mp h)
  rw [Nat.cast_one, one_mul, Int.cast_sub, sub_div] at hround
  rwa [toRat_eq_units_div, toRat_eq_units_div]

theorem rounds_mul {a b r : Decimal} (h : a.mul b = .ok r) : Rounds (a.toRat * b.toRat) r := by
  have hround := rounds_of_ofRatio? (pow10_pos maxPlaces) (orFault_eq_ok.mp h)
  have hx : ((a.units * b.units : Int) : ℚ) / ((pow10 maxPlaces : Nat) * 10 ^ maxPlaces)
      = a.toRat * b.toRat := by
    rw [toRat_eq_units_div, toRat_eq_units_div, div_mul_div_comm]
    show _ = _ / ((10 : ℚ) ^ maxPlaces * 10 ^ maxPlaces)
    rw [← Nat.cast_ofNat (R := ℚ), ← Nat.cast_pow]
    push_cast
    rfl
  rwa [hx] at hround

theorem div_sign_natAbs {z : Int} (hz : z ≠ 0) :
    ((z.sign : Int) : ℚ) / ((z.natAbs : Nat) : ℚ) = 1 / z := by
  rcases lt_or_gt_of_ne hz with hneg | hpos
  · rw [Int.sign_eq_neg_one_of_neg hneg, Nat.cast_natAbs, abs_of_neg hneg]
    push_cast
    rw [neg_div_neg_eq]
  · rw [Int.sign_eq_one_of_pos hpos, Nat.cast_natAbs, abs_of_pos hpos, Int.cast_one]

theorem div_toRat (a : Decimal) {b : Decimal} (hb : b.units ≠ 0) :
    ((a.units * b.units.sign * unitsPerOne : Int) : ℚ) / ((b.units.natAbs : Nat) * 10 ^ maxPlaces)
      = a.toRat / b.toRat := by
  have hone : ((unitsPerOne : Int) : ℚ) = 10 ^ maxPlaces := by
    show (((10 ^ maxPlaces : Nat) : Int) : ℚ) = 10 ^ maxPlaces
    push_cast
    rfl
  rw [Int.cast_mul, hone, mul_div_mul_right _ _ (by positivity), Int.cast_mul, mul_div_assoc,
    div_sign_natAbs hb, toRat_eq_units_div, toRat_eq_units_div,
    div_div_div_cancel_right₀ (by positivity), mul_one_div]

theorem rounds_div {a b r : Decimal} (h : a.div b = .ok r) :
    b ≠ 0 ∧ Rounds (a.toRat / b.toRat) r := by
  unfold div at h
  split_ifs at h with hb
  have hu : b.units ≠ 0 := fun hu => hb (ext_units (by rw [hu, units_zero]))
  have hround := rounds_of_ofRatio? (Int.natAbs_pos.mpr hu) (orFault_eq_ok.mp h)
  rw [div_toRat a hu] at hround
  exact ⟨hb, hround⟩

/-! ### Exact results -/

/-- A small number of whole grains is an amount, so rounding leaves it alone. -/
theorem Rounds.eq_of_grains {u : Int} {r : Decimal} (h : Rounds (u / 10 ^ maxPlaces) r)
    (hu : u.natAbs < mantissaBound) : r.toRat = u / 10 ^ maxPlaces := by
  have hd := toRat_ofMantissa (le_refl maxPlaces) hu
  rw [← hd] at h ⊢
  rw [h.eq_of_amount]

theorem sub_toRat (a b : Decimal) :
    a.toRat - b.toRat = ((a.units - b.units : Int) : ℚ) / 10 ^ maxPlaces := by
  rw [toRat_eq_units_div, toRat_eq_units_div, Int.cast_sub, sub_div]

/-- Differences up to one are exact. -/
theorem sub_exact {a b r : Decimal} (h : a.sub b = .ok r) (hsmall : |a.toRat - b.toRat| ≤ 1) :
    r.toRat = a.toRat - b.toRat := by
  have hround := rounds_sub h
  rw [sub_toRat] at hround hsmall ⊢
  refine hround.eq_of_grains ?_
  rw [abs_div, abs_of_pos (by positivity : (0 : ℚ) < 10 ^ maxPlaces), div_le_one (by positivity),
    ← Int.cast_abs, ← Nat.cast_natAbs] at hsmall
  have hle : (a.units - b.units).natAbs ≤ 10 ^ maxPlaces := by exact_mod_cast hsmall
  exact lt_of_le_of_lt hle (by decide)

/-- Whether a difference is dust can be told from the rounded one. -/
theorem sub_le_epsilon_iff {a b r : Decimal} (h : a.sub b = .ok r) :
    r ≤ epsilon ↔ a.toRat - b.toRat ≤ epsilon.toRat := by
  have hround := rounds_sub h
  refine ⟨fun hr => ?_, fun hx => le_iff_toRat.mpr (hround.le_of_le hx)⟩
  by_contra hgt
  -- The difference is a whole number of grains, so it is at least the next amount.
  have hnext : (ofMantissa (10 ^ 16 + 1) maxPlaces (by decide)).toRat ≤ a.toRat - b.toRat := by
    rw [toRat_ofMantissa le_rfl, sub_toRat]
    rw [not_le, sub_toRat, toRat_eq_units_div, units_epsilon,
      div_lt_div_iff_of_pos_right (by positivity : (0 : ℚ) < 10 ^ maxPlaces)] at hgt
    refine div_le_div_of_nonneg_right ?_ (by positivity)
    have hlt : ((pow10 16 : Nat) : Int) < a.units - b.units := by exact_mod_cast hgt
    have hle : (10 ^ 16 + 1 : Int) ≤ a.units - b.units := hlt
    exact_mod_cast hle
  have hlow := hround.ge_of_ge hnext
  have hhigh := le_iff_toRat.mp hr
  rw [toRat_ofMantissa le_rfl] at hlow
  rw [toRat_epsilon] at hhigh
  norm_num [maxPlaces] at hlow hhigh
  linarith

theorem Rounds.nonneg {x : ℚ} {r : Decimal} (h : Rounds x r) (hx : 0 ≤ x) : 0 ≤ r.toRat := by
  have := h.ge_of_ge (d := 0) (by rwa [toRat_zero])
  rwa [toRat_zero] at this

/-- Adding nothing is exact. -/
theorem add_zero_eq_ok (d : Decimal) : d.add 0 = .ok d := by
  unfold add
  rw [units_zero, add_zero, ofRatio?_units]
  rfl

theorem zero_add_eq_ok (d : Decimal) : add 0 d = .ok d := by
  unfold add
  rw [units_zero, Int.zero_add, ofRatio?_units]
  rfl

/-- Nothing times an amount is nothing. -/
theorem zero_mul_eq_ok (d : Decimal) : mul 0 d = .ok 0 := by
  unfold mul
  rw [units_zero, Int.zero_mul]
  rfl

theorem mul_zero_eq_ok (d : Decimal) : d.mul 0 = .ok 0 := by
  unfold mul
  rw [units_zero, Int.mul_zero]
  rfl

/-! ### Parts of a whole -/

theorem proportion_eq_ok {part whole p : Decimal} (h : proportion part whole = .ok p) :
    (whole ≤ epsilon ∧ p = 0) ∨
      (epsilon < whole ∧ ∃ q, Rounds (part.toRat / whole.toRat) q ∧
        p.toRat = min (max q.toRat 0) 1) := by
  unfold proportion at h
  split_ifs at h with hw
  · exact Or.inl ⟨hw, (pure_eq_ok.mp h).symm⟩
  · obtain ⟨q, hq, hp⟩ := bind_eq_ok.mp h
    refine Or.inr ⟨not_le_iff.mp hw, q, (rounds_div hq).2, ?_⟩
    rw [← pure_eq_ok.mp hp, clamp, toRat_min, toRat_max, toRat_zero, toRat_one]

theorem proportion_nonneg {part whole p : Decimal} (h : proportion part whole = .ok p) :
    0 ≤ p.toRat := by
  rcases proportion_eq_ok h with ⟨-, rfl⟩ | ⟨-, q, -, hp⟩
  · rw [toRat_zero]
  · rw [hp]
    exact le_min (le_max_right _ _) zero_le_one

theorem proportion_le_one {part whole p : Decimal} (h : proportion part whole = .ok p) :
    p.toRat ≤ 1 := by
  rcases proportion_eq_ok h with ⟨-, rfl⟩ | ⟨-, q, -, hp⟩
  · rw [toRat_zero]
    exact zero_le_one
  · rw [hp]
    exact min_le_right _ _

/-- Of a whole that is more than dust, a proportion is the part it stands for, but for less than
a grain. -/
theorem abs_proportion_sub_le {part whole p : Decimal} (h : proportion part whole = .ok p)
    (hwhole : epsilon < whole) (hpart : 0 ≤ part.toRat) :
    |p.toRat - min (part.toRat / whole.toRat) 1| ≤ 2 / 3 * grain := by
  have hw := toRat_pos_of_epsilon_lt hwhole
  have hgrain := grain_pos
  rcases proportion_eq_ok h with ⟨hle, -⟩ | ⟨-, q, hq, hp⟩
  · exact absurd hle (not_le_iff.mpr hwhole)
  have hx : 0 ≤ part.toRat / whole.toRat := div_nonneg hpart hw.le
  rw [hp, max_eq_left (hq.nonneg hx)]
  rcases le_total (part.toRat / whole.toRat) 1 with hone | hone
  · have hq1 : q.toRat ≤ 1 := by simpa using hq.le_of_le (d := 1) (by simpa using hone)
    rw [min_eq_left hq1, min_eq_left hone]
    have := hq.abs_sub_le le_rfl (by rwa [abs_of_nonneg hx])
    linarith
  · have hq1 : 1 ≤ q.toRat := by simpa using hq.ge_of_ge (d := 1) (by simpa using hone)
    rw [min_eq_right hq1, min_eq_right hone, sub_self, abs_zero]
    positivity

end Decimal

end Insolvency
