/-
Amounts with few places.

Rounding takes places away only where the mantissa would be out of bounds.  So among the
multiples of `10⁻ᵏ` sums and differences are exact as long as they stay below 2⁹⁶ of them,
whatever `k` is, and books kept in cents can be added up in any order.  With more than 28
places the bound is the same number of smaller units, and there it is the multiples of
`10⁻²⁸` that amounts are, which count.
-/
import Insolvency.Proofs.Decimal.Overflow
import Insolvency.Proofs.Decimal.Sum

namespace Insolvency.Decimal

/-- The number is a multiple of `10⁻ᵏ`. -/
def OnGrid (k : Nat) (x : ℚ) : Prop := ∃ n : Int, x = n / 10 ^ k

/-- As many times `10⁻ᵏ` as no mantissa reaches. -/
def gridBound (k : Nat) : ℚ := mantissaBound / 10 ^ k

section OnGrid

variable {k l : Nat} {x y : ℚ}

theorem onGrid_zero (k : Nat) : OnGrid k 0 := ⟨0, by simp⟩

theorem OnGrid.neg (hx : OnGrid k x) : OnGrid k (-x) := by
  obtain ⟨n, rfl⟩ := hx
  exact ⟨-n, by rw [Int.cast_neg, neg_div]⟩

theorem OnGrid.add (hx : OnGrid k x) (hy : OnGrid k y) : OnGrid k (x + y) := by
  obtain ⟨m, rfl⟩ := hx
  obtain ⟨n, rfl⟩ := hy
  exact ⟨m + n, by rw [Int.cast_add, add_div]⟩

theorem OnGrid.sub (hx : OnGrid k x) (hy : OnGrid k y) : OnGrid k (x - y) := by
  rw [sub_eq_add_neg]
  exact hx.add hy.neg

/-- Every amount is a multiple of the smallest. -/
theorem onGrid_toRat (d : Decimal) : OnGrid maxPlaces d.toRat := ⟨d.units, toRat_eq_units_div d⟩

/-- An amount without places is the number that it is written as. -/
theorem toRat_of_whole {d : Decimal} {n : Int} (h : d.units = n * unitsPerOne) : d.toRat = n := by
  have hone : (unitsPerOne : ℚ) ≠ 0 := by norm_num [unitsPerOne, pow10, maxPlaces]
  rw [toRat, h, Int.cast_mul, Int.cast_natCast, mul_div_cancel_right₀ _ hone]

theorem onGrid_intCast (n : Int) : OnGrid 0 n := ⟨n, by rw [pow_zero, div_one]⟩

theorem gridBound_zero : gridBound 0 = mantissaBound := by rw [gridBound, pow_zero, div_one]

theorem gridBound_anti (hkl : k ≤ l) : gridBound l ≤ gridBound k := by
  unfold gridBound
  have hpow : (10 : ℚ) ^ k ≤ 10 ^ l := pow_le_pow_right₀ (by norm_num) hkl
  gcongr

/-- Of the multiples of `10⁻ᵏ` those in bounds are amounts. -/
theorem OnGrid.exists_eq (hx : OnGrid k x) (hk : k ≤ maxPlaces) (hlt : |x| < gridBound k) :
    ∃ d : Decimal, d.toRat = x := by
  obtain ⟨n, rfl⟩ := hx
  have hpow : (0 : ℚ) < 10 ^ k := by positivity
  have hn : n.natAbs < mantissaBound := by
    rw [abs_div, abs_of_pos hpow, gridBound, div_lt_div_iff_of_pos_right hpow, ← Int.cast_abs,
      ← Nat.cast_natAbs] at hlt
    exact_mod_cast hlt
  exact ⟨ofMantissa n k hn, toRat_ofMantissa hk hn⟩

/-- With more places than an amount can have, it is the multiples of the smallest that count. -/
theorem OnGrid.exists_eq_of_grains (hx : OnGrid k x) (hgrains : OnGrid maxPlaces x)
    (hlt : |x| < gridBound k) : ∃ d : Decimal, d.toRat = x := by
  by_cases hk : k ≤ maxPlaces
  · exact hx.exists_eq hk hlt
  · have hbound := gridBound_anti (not_le.mp hk).le
    exact hgrains.exists_eq le_rfl (hlt.trans_le hbound)

end OnGrid

/-! ### Exact sums and differences -/

section Exact

variable {k : Nat} {a b : Decimal}

/-- A sum in bounds is exact. -/
theorem exists_add_of_onGrid (ha : OnGrid k a.toRat) (hb : OnGrid k b.toRat)
    (hlt : |a.toRat + b.toRat| < gridBound k) :
    ∃ r, a.add b = .ok r ∧ r.toRat = a.toRat + b.toRat := by
  have hgrains := (onGrid_toRat a).add (onGrid_toRat b)
  obtain ⟨d, hd⟩ := (ha.add hb).exists_eq_of_grains hgrains hlt
  obtain ⟨r, hr⟩ := exists_add (hd ▸ abs_toRat_le_largest d)
  have hround := rounds_add hr
  rw [← hd] at hround
  exact ⟨r, hr, by rw [hround.eq_of_amount, hd]⟩

/-- A difference in bounds is exact. -/
theorem exists_sub_of_onGrid (ha : OnGrid k a.toRat) (hb : OnGrid k b.toRat)
    (hlt : |a.toRat - b.toRat| < gridBound k) :
    ∃ r, a.sub b = .ok r ∧ r.toRat = a.toRat - b.toRat := by
  have hgrains := (onGrid_toRat a).sub (onGrid_toRat b)
  obtain ⟨d, hd⟩ := (ha.sub hb).exists_eq_of_grains hgrains hlt
  obtain ⟨r, hr⟩ := exists_sub (hd ▸ abs_toRat_le_largest d)
  have hround := rounds_sub hr
  rw [← hd] at hround
  exact ⟨r, hr, by rw [hround.eq_of_amount, hd]⟩

/-- Every running total stays below as many times `10⁻ᵏ` as no mantissa reaches. -/
def RunsWithin (k : Nat) (s : ℚ) (ds : List Decimal) : Prop :=
  ∀ n, |s + exactSum (ds.take n)| < gridBound k

theorem RunsWithin.tail {s : ℚ} {d : Decimal} {ds : List Decimal} (h : RunsWithin k s (d :: ds)) :
    RunsWithin k (s + d.toRat) ds := by
  intro n
  have hnext := h (n + 1)
  rwa [List.take_succ_cons, exactSum_cons, ← add_assoc] at hnext

/-- A list is added up exactly if every running total is in bounds. -/
theorem foldlM_add_of_onGrid {ds : List Decimal} {s : Decimal} (hs : OnGrid k s.toRat)
    (hds : ∀ d ∈ ds, OnGrid k d.toRat) (h : RunsWithin k s.toRat ds) :
    ∃ r, ds.foldlM add s = .ok r ∧ r.toRat = s.toRat + exactSum ds := by
  induction ds generalizing s with
  | nil => exact ⟨s, rfl, by rw [exactSum_nil, add_zero]⟩
  | cons d rest ih =>
      obtain ⟨hd, hrest⟩ := List.forall_mem_cons.mp hds
      have hfirst := h.tail 0
      rw [List.take_zero, exactSum_nil, add_zero] at hfirst
      obtain ⟨t, ht, heq⟩ := exists_add_of_onGrid hs hd hfirst
      have hnext := h.tail
      rw [← heq] at hnext
      obtain ⟨r, hr, hsum⟩ := ih (heq ▸ hs.add hd) hrest hnext
      refine ⟨r, ?_, ?_⟩
      · rw [List.foldlM_cons, ht]
        exact hr
      · rw [hsum, heq, exactSum_cons, add_assoc]

end Exact

end Insolvency.Decimal
