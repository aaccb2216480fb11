/-
A count of shares split into parts.

Everybody who gets new shares gets as large a part of the count as an amount of its own
is of all amounts.  Each part is rounded on its own, so is the sum of the amounts, and so
is each account that a part goes to; nothing makes them add up to the count again.  They
come to it within a hundred grains for each part, of the size that the figures have.

Two ways to work out a part are in use.  Taking the proportion first keeps all figures
within the size of the count.  Multiplying first and dividing afterwards rounds a product
that is small where the amounts are, and dividing by a small whole brings the error up:
there the size is one over the whole as well.
-/
import Insolvency.Proofs.Ledger.Shares

namespace Insolvency.Shares

open Decimal

variable {count size : ℚ} {whole : Decimal}

/-! ### One part -/

/-- A part of the count as large as the amount is of the whole, but for rounding. -/
structure IsPart (count size : ℚ) (whole amount part : Decimal) : Prop where
  nonneg : 0 ≤ part.toRat
  error : |part.toRat - count * (amount.toRat / whole.toRat)| ≤ 2 * grain * size

/-- Nothing is the part that nothing gets. -/
theorem isPart_zero (hsize : 1 ≤ size) : IsPart count size whole 0 0 where
  nonneg := toRat_zero.ge
  error := by
    have := grain_pos
    rw [toRat_zero, zero_div, mul_zero, sub_zero, abs_zero]
    positivity

/-- Everything is the part that the whole gets. -/
theorem isPart_whole {total : Decimal} (hwhole : .epsilon < whole) (htotal : 0 ≤ total.toRat)
    (hsize : 1 ≤ size) : IsPart total.toRat size whole whole total where
  nonneg := htotal
  error := by
    have := grain_pos
    rw [div_self (toRat_pos_of_epsilon_lt hwhole).ne', mul_one, sub_self, abs_zero]
    positivity

/-- The proportion first, then the count. -/
theorem isPart_of_proportion {total amount p part : Decimal} (hp : proportion amount whole = .ok p)
    (hpart : total.mul p = .ok part) (hwhole : .epsilon < whole) (hamount : 0 ≤ amount.toRat)
    (hle : amount.toRat ≤ whole.toRat) (htotal : 0 ≤ total.toRat) (hsize : 1 ≤ size)
    (hbound : total.toRat ≤ size) : IsPart total.toRat size whole amount part := by
  have hw := toRat_pos_of_epsilon_lt hwhole
  have hp0 := proportion_nonneg hp
  have hproduct0 : 0 ≤ total.toRat * p.toRat := mul_nonneg htotal hp0
  have hproduct : total.toRat * p.toRat ≤ size :=
    (mul_le_of_le_one_right htotal (proportion_le_one hp)).trans hbound
  refine ⟨(rounds_mul hpart).nonneg hproduct0, ?_⟩
  have hratio : |p.toRat - amount.toRat / whole.toRat| ≤ 2 / 3 * grain := by
    have := abs_proportion_sub_le hp hwhole hamount
    rwa [min_eq_left ((div_le_one hw).mpr hle)] at this
  have hscaled : |total.toRat * p.toRat - total.toRat * (amount.toRat / whole.toRat)|
      ≤ 2 / 3 * grain * size := by
    rw [← mul_sub, abs_mul, abs_of_nonneg htotal]
    calc total.toRat * |p.toRat - amount.toRat / whole.toRat|
        ≤ total.toRat * (2 / 3 * grain) := by gcongr
      _ ≤ size * (2 / 3 * grain) := by
          have := grain_pos
          gcongr
      _ = 2 / 3 * grain * size := by ring
  have hround := (rounds_mul hpart).abs_sub_le hsize ((abs_of_nonneg hproduct0).trans_le hproduct)
  have hsplit : part.toRat - total.toRat * (amount.toRat / whole.toRat)
      = (part.toRat - total.toRat * p.toRat)
        + (total.toRat * p.toRat - total.toRat * (amount.toRat / whole.toRat)) := by ring
  rw [hsplit]
  refine (abs_add_le _ _).trans ?_
  have hgrain : 0 ≤ grain * size := grain_mul_nonneg (by linarith)
  linarith

/-- The product first, then the division. -/
theorem isPart_of_div {total amount product part : Decimal}
    (hproduct : total.mul amount = .ok product) (hpart : product.div whole = .ok part)
    (hwhole : 0 < whole.toRat) (hamount : 0 ≤ amount.toRat) (hle : amount.toRat ≤ whole.toRat)
    (htotal : 0 ≤ total.toRat) (hsize : 1 ≤ size) (hbound : total.toRat ≤ size)
    (hsmall : 1 / whole.toRat ≤ size) : IsPart total.toRat size whole amount part := by
  have hgrain : 0 ≤ grain * size := grain_mul_nonneg (by linarith)
  have hexact0 : 0 ≤ total.toRat * amount.toRat := mul_nonneg htotal hamount
  have hexact : total.toRat * amount.toRat ≤ size * whole.toRat :=
    mul_le_mul hbound hle hamount (by linarith)
  have hproduct0 : 0 ≤ product.toRat := (rounds_mul hproduct).nonneg hexact0
  obtain ⟨-, hround⟩ := rounds_div hpart
  have hquotient0 : 0 ≤ product.toRat / whole.toRat := div_nonneg hproduct0 hwhole.le
  refine ⟨hround.nonneg hquotient0, ?_⟩
  -- The product is rounded at the size of the whole, and the division takes that out again.
  have hquotient : |product.toRat / whole.toRat - total.toRat * (amount.toRat / whole.toRat)|
      ≤ 2 / 3 * grain * size := by
    have hone : 1 ≤ size * whole.toRat := (div_le_iff₀ hwhole).mp hsmall
    have := (rounds_mul hproduct).abs_sub_le hone ((abs_of_nonneg hexact0).trans_le hexact)
    rw [← mul_div_assoc, ← sub_div, abs_div, abs_of_pos hwhole, div_le_iff₀ hwhole]
    linarith
  have hexactle : total.toRat * (amount.toRat / whole.toRat) ≤ size := by
    rw [← mul_div_assoc, div_le_iff₀ hwhole]
    exact hexact
  have hlarge : product.toRat / whole.toRat ≤ 2 * size := by
    have hhundred := hundred_grains_le (x := size) (by linarith)
    linarith [(abs_le.mp hquotient).2]
  have hlast := hround.abs_sub_le (by linarith : 1 ≤ 2 * size)
    ((abs_of_nonneg hquotient0).trans_le hlarge)
  have hsplit : part.toRat - total.toRat * (amount.toRat / whole.toRat)
      = (part.toRat - product.toRat / whole.toRat)
        + (product.toRat / whole.toRat - total.toRat * (amount.toRat / whole.toRat)) := by ring
  rw [hsplit]
  refine (abs_add_le _ _).trans ?_
  linarith

/-! ### All parts -/

theorem parts_error_of_exact {amounts parts : List Decimal}
    (h : List.Forall₂ (IsPart count size whole) amounts parts) :
    |exactSum parts - count * (exactSum amounts / whole.toRat)|
      ≤ parts.length * (2 * grain * size) := by
  induction h with
  | nil => simp
  | @cons amount part amounts parts hpart _ ih =>
      have hsplit : part.toRat + exactSum parts
            - count * ((amount.toRat + exactSum amounts) / whole.toRat)
          = (part.toRat - count * (amount.toRat / whole.toRat))
            + (exactSum parts - count * (exactSum amounts / whole.toRat)) := by ring
      rw [exactSum_cons, exactSum_cons, hsplit, List.length_cons, Nat.cast_add_one]
      refine (abs_add_le _ _).trans ((add_le_add hpart.error ih).trans_eq ?_)
      ring

/-- **The parts add up to the count**, but for three grains of the size for each. -/
theorem parts_error {amounts parts : List Decimal}
    (h : List.Forall₂ (IsPart count size whole) amounts parts)
    (hamounts : AllNonneg amounts) (hsum : sum amounts = .ok whole) (hwhole : 0 < whole.toRat)
    (hcount : 0 ≤ count) (hbound : count ≤ size) :
    |exactSum parts - count| ≤ parts.length * (3 * grain * size) := by
  have hparts := parts_error_of_exact h
  have hwholes := sum_relative_error hamounts hsum hwhole
  rw [h.length_eq] at hwholes
  have hgrain := grain_pos
  have hscaled : |count * (exactSum amounts / whole.toRat) - count|
      ≤ parts.length * (2 / 3 * grain * size) := by
    rw [← mul_sub_one, abs_mul, abs_of_nonneg hcount]
    calc count * |exactSum amounts / whole.toRat - 1|
        ≤ count * (parts.length * (2 / 3 * grain)) := by gcongr
      _ ≤ size * (parts.length * (2 / 3 * grain)) := by gcongr
      _ = parts.length * (2 / 3 * grain * size) := by ring
  have hsplit : exactSum parts - count
      = (exactSum parts - count * (exactSum amounts / whole.toRat))
        + (count * (exactSum amounts / whole.toRat) - count) := by ring
  rw [hsplit]
  refine (abs_add_le _ _).trans ?_
  have hn : 0 ≤ grain * (parts.length * size) :=
    grain_mul_count_nonneg parts.length (hcount.trans hbound)
  linarith

/-! ### The parts issued -/

variable {r : Shares} {parts : List Decimal}

/-- Where parts of a count are all the shares that there are, there are as many as the count,
but for the rounding. -/
theorem Issued.total_error (h : Issued .empty r parts)
    (hparts : |exactSum parts - count| ≤ parts.length * (3 * grain * size)) (hsize : 1 ≤ size)
    (hbound : count ≤ size) :
    |r.holders.exactTotal - count| ≤ parts.length * (60 * grain * size) := by
  have hle := h.le
  have herror := h.error
  have hstart : Shares.empty.holders.exactTotal = 0 := rfl
  have hnn := Accounts.exactTotal_nonneg h.nonneg
  rw [hstart, zero_add] at hle
  simp only [hstart, zero_add] at herror
  have hparts' := abs_le.mp hparts
  -- All errors are multiples of this one.
  obtain ⟨y, hy⟩ : ∃ y : ℚ, y = parts.length * (grain * size) := ⟨_, rfl⟩
  rcases le_or_gt (2 * y) size with hfew | hmany
  · have hissued := abs_le.mp (herror (30 * size) (by linarith) (by linarith))
    rw [abs_le]
    constructor
    · linarith [hissued.1, hparts'.1]
    · linarith [hissued.2, hparts'.2]
  · -- With so many parts the bound is larger than anything that there is.
    rw [abs_le]
    constructor
    · linarith
    · linarith

/-- So it is with the number of shares as the books add it up, short of absurdly many. -/
theorem Issued.rounded_total_error {t : Decimal} (h : Issued .empty r parts)
    (ht : r.total = .ok t)
    (hparts : |exactSum parts - count| ≤ parts.length * (3 * grain * size)) (hsize : 1 ≤ size)
    (hbound : count ≤ size) (hfew : parts.length * (2 * grain) ≤ 1) :
    |t.toRat - count| ≤ parts.length * (100 * grain * size) := by
  have hgrain := grain_pos
  have hle := h.le
  have hissued := h.error (30 * size) (by linarith)
  have hlength : r.holders.entries.length ≤ parts.length := h.length_le.trans_eq (Nat.zero_add _)
  have hstart : Shares.empty.holders.exactTotal = 0 := rfl
  rw [hstart, zero_add] at hle hissued
  have hparts' := abs_le.mp hparts
  obtain ⟨y, hy⟩ : ∃ y : ℚ, y = parts.length * (grain * size) := ⟨_, rfl⟩
  have hhalf : 2 * y ≤ size := by
    have := mul_le_mul_of_nonneg_right hfew (by linarith : 0 ≤ size)
    linarith
  have hissued' := abs_le.mp (hissued (by linarith))
  have hlength' : (r.holders.entries.length : ℚ) ≤ parts.length := by exact_mod_cast hlength
  have hvalues : (r.holders.values.length : ℚ) * (4 / 3 * grain) ≤ 1 := by
    rw [Accounts.length_values]
    have := mul_le_mul_of_nonneg_right hlength' (by positivity : 0 ≤ 4 / 3 * grain)
    linarith
  have htwice : t.toRat ≤ 2 * (14 * size) := by
    refine sum_le_two_mul h.nonneg ht hvalues (by linarith) ?_
    show r.holders.exactTotal ≤ 14 * size
    linarith [hissued'.2, hparts'.2]
  have hsum := Accounts.total_error ht h.nonneg (by linarith : 1 ≤ 28 * size) (by linarith)
  have hcounted : (r.holders.entries.length : ℚ) * (2 / 3 * grain * (28 * size))
      ≤ parts.length * (2 / 3 * grain * (28 * size)) := by
    refine mul_le_mul_of_nonneg_right hlength' ?_
    have := grain_mul_nonneg (by linarith : 0 ≤ size)
    linarith
  have hsum' := abs_le.mp (hsum.trans hcounted)
  rw [abs_le]
  constructor
  · linarith [hissued'.1, hparts'.1, hsum'.1]
  · linarith [hissued'.2, hparts'.2, hsum'.2]

end Insolvency.Shares
