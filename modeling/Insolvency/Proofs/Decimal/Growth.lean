/-
How much of a running total is growth by rounding.

A term can raise a sum by much more than itself, but only where the sum gets too large for its
places and loses one.  Places are never won back, so all that is gained this way is bounded by
the place value that the sum ends with, which is about a grain of its size.  While the places
stay the same the sum so far is on the grid that the next one is rounded to, and no rounding is
larger than its term.

The induction carries the place value as a potential: what a step gains over twice its term, it
adds to the place value (`add_le_of_roundsAt`).
-/
import Insolvency.Proofs.Decimal.Sum

namespace Insolvency.Decimal

variable {x : ℚ} {s t q r : Decimal} {k l : Nat} {m n : Int}

/-! ### What a place is worth -/

/-- What a unit in the last of some places is worth. -/
def placeValue (k : Nat) : ℚ := 1 / 10 ^ k

theorem placeValue_nonneg (k : Nat) : 0 ≤ placeValue k := by
  unfold placeValue
  positivity

theorem placeValue_le_of_lt (h : l < k) : placeValue k ≤ placeValue l / 10 := by
  have hpow : (10 : ℚ) ^ (l + 1) ≤ 10 ^ k := pow_le_pow_right₀ (by norm_num) h
  unfold placeValue
  rw [div_div, ← pow_succ]
  gcongr

/-- Where places are lost, what is left of them is worth little more than a grain of the size. -/
theorem RoundsAt.placeValue_le (h : RoundsAt x r k m) (hk : k < maxPlaces) (hx : 0 ≤ x) :
    placeValue k ≤ 9 / 5 * (grain * r.toRat) := by
  have hsize := h.result_ge hk hx
  rw [div_le_iff₀ (by positivity), pow_succ, ← mul_assoc] at hsize
  unfold placeValue grain maxPlaces
  rw [div_le_iff₀ (by positivity)]
  unfold mantissaBound at hsize
  push_cast at hsize
  linarith

/-! ### One term -/

/-- A sum has no more places than its first term, since it is no smaller. -/
theorem places_add_le (hs : RoundsAt x s k m) (hx : 0 ≤ x) (h : s.add q = .ok r)
    (hq : 0 ≤ q.toRat) (hr : RoundsAt (s.toRat + q.toRat) r l n) : l ≤ k := by
  by_contra hkl
  have hsmall := hs.result_ge (lt_of_lt_of_le (not_le.mp hkl) hr.places) hx
  have hle := (add_bounds h hq).1
  have hlarge : r.toRat < (mantissaBound : ℚ) / 10 ^ l := (le_abs_self _).trans_lt hr.abs_lt
  have hpow : (mantissaBound : ℚ) / 10 ^ l ≤ mantissaBound / 10 ^ (k + 1) := by
    have := pow_le_pow_right₀ (by norm_num : (1 : ℚ) ≤ 10) (not_le.mp hkl : k + 1 ≤ l)
    gcongr
  linarith

/-- While the places stay the same, no rounding is larger than the term. -/
theorem abs_add_sub_le_of_places (hs : RoundsAt x s k m)
    (hr : RoundsAt (s.toRat + q.toRat) r k n) (hq : 0 ≤ q.toRat) :
    |r.toRat - (s.toRat + q.toRat)| ≤ q.toRat := by
  have hpow : (0 : ℚ) < 10 ^ k := by positivity
  have hgrid : s.toRat * 10 ^ k = m := by
    rw [hs.value]
    field_simp
  have hresult : r.toRat * 10 ^ k = n := by
    rw [hr.value]
    field_simp
  have hnear := hr.nearest.abs_sub_le m
  rw [← hgrid, ← hresult, ← sub_mul, ← sub_mul, abs_mul, abs_mul, sub_add_cancel_left, abs_neg,
    abs_of_nonneg hq] at hnear
  exact le_of_mul_le_mul_right hnear (abs_pos.mpr hpow.ne')

/-- A step gains no more over twice its term than it adds to the place value. -/
theorem add_le_of_roundsAt (h : s.add q = .ok r) (hq : 0 ≤ q.toRat) (hs : RoundsAt x s k m)
    (hx : 0 ≤ x) : ∃ l n, l ≤ k ∧ RoundsAt (s.toRat + q.toRat) r l n ∧
      r.toRat + 5 / 9 * placeValue k ≤ s.toRat + 2 * q.toRat + 5 / 9 * placeValue l := by
  obtain ⟨l, n, hr⟩ := rounds_add h
  have hle := places_add_le hs hx h hq hr
  refine ⟨l, n, hle, hr, ?_⟩
  rcases hle.eq_or_lt with rfl | hlost
  · have hnear := (abs_le.mp (abs_add_sub_le_of_places hs hr hq)).2
    linarith
  · have hnear := (abs_le.mp hr.abs_sub_le).2
    rw [div_eq_mul_one_div] at hnear
    change r.toRat - (s.toRat + q.toRat) ≤ 1 / 2 * placeValue l at hnear
    linarith [placeValue_le_of_lt hlost]

/-! ### All terms -/

theorem foldlM_add_le_of_roundsAt {ds : List Decimal} (hds : AllNonneg ds)
    (h : ds.foldlM add s = .ok t) (hs0 : 0 ≤ s.toRat) (hs : RoundsAt x s k m) (hx : 0 ≤ x) :
    ∃ y l n, 0 ≤ y ∧ l ≤ k ∧ RoundsAt y t l n ∧
      t.toRat + 5 / 9 * placeValue k ≤ s.toRat + 2 * exactSum ds + 5 / 9 * placeValue l := by
  induction ds generalizing s x k m with
  | nil =>
      obtain rfl := pure_eq_ok.mp h
      exact ⟨x, k, m, hx, le_rfl, hs, by rw [exactSum_nil]; linarith⟩
  | cons q rest ih =>
      rw [List.foldlM_cons, bind_eq_ok] at h
      obtain ⟨r, hr, h⟩ := h
      obtain ⟨hq, hrest⟩ := allNonneg_cons.mp hds
      have hsum : 0 ≤ s.toRat + q.toRat := add_nonneg hs0 hq
      have hr0 := hs0.trans (add_bounds hr hq).1
      obtain ⟨l, n, hle, hround, hstep⟩ := add_le_of_roundsAt hr hq hs hx
      obtain ⟨y, l', n', hy, hle', ht, hrun⟩ := ih hrest h hr0 hround hsum
      refine ⟨y, l', n', hy, hle'.trans hle, ht, ?_⟩
      rw [exactSum_cons]
      linarith

/-- **However many terms a sum has, it grows by no more than twice what they come to and a grain
of its size.** -/
theorem foldlM_add_le_twice {ds : List Decimal} (hds : AllNonneg ds) (h : ds.foldlM add s = .ok t)
    (hs : 0 ≤ s.toRat) : t.toRat ≤ s.toRat + 2 * exactSum ds + grain * t.toRat := by
  obtain ⟨k, m, hround⟩ := rounds_self s
  obtain ⟨y, l, n, hy, hle, ht, hgrowth⟩ := foldlM_add_le_of_roundsAt hds h hs hround hs
  rcases hle.eq_or_lt with rfl | hlost
  · linarith [grain_mul_nonneg (hs.trans (foldlM_add_bounds hds h).1)]
  · linarith [ht.placeValue_le (hlost.trans_le hround.places) hy, placeValue_nonneg k]

end Insolvency.Decimal
