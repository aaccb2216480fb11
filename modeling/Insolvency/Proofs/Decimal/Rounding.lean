/-
What rounding does to an exact number.

An amount has at most 28 places and a mantissa below 2⁹⁶, so an operation rounds its
exact result to as many places as fit.  `Rounds x r` says that without mentioning how
it is computed: `r` is the multiple of `10⁻ᵏ` nearest to `x`, the even one of two, and
with more than `k` places the mantissa would be out of bounds.

All that the proofs about amounts need of it is here.

  * It keeps the order, and an amount is rounded to itself.  So what lies between two
    amounts is rounded to something between them.
  * It moves a number by two thirds of a grain at most, a grain being 10⁻²⁸, or by as
    much of its size where that is larger.
  * It is all but to the nearest amount.  Just above the largest mantissa of a number of
    places it is not, since what is rounded there has one place less; but no amount is
    more than ten times nearer.
-/
import Mathlib.Algebra.Order.Field.Rat
import Mathlib.Algebra.Order.Ring.Int
import Mathlib.Algebra.Ring.Int.Parity
import Mathlib.Tactic.FieldSimp
import Mathlib.Tactic.Linarith
import Mathlib.Tactic.Positivity
import Mathlib.Tactic.Ring
import Insolvency.Decimal.Basic

namespace Insolvency

/-! ### To a whole number -/

/-- `m` is the whole number nearest to `x`, and the even one of two that are equally near. -/
structure IsNearest (x : ℚ) (m : Int) : Prop where
  near : |(m : ℚ) - x| ≤ 1 / 2
  even : |(m : ℚ) - x| = 1 / 2 → Even m

/-- A quotient is its floor and a remainder below one. -/
theorem div_eq_floor_add (num : Int) {den : Nat} (hden : 0 < den) :
    (num : ℚ) / den = (num / (den : Int) : Int) + (num % (den : Int) : Int) / den := by
  have hne : (den : ℚ) ≠ 0 := by positivity
  have hsplit : (num : ℚ) = den * (num / (den : Int) : Int) + (num % (den : Int) : Int) := by
    exact_mod_cast (Int.mul_ediv_add_emod num den).symm
  rw [hsplit]
  field_simp

theorem isNearest_roundHalfEven (num : Int) {den : Nat} (hden : 0 < den) :
    IsNearest (num / den) (roundHalfEven num den) := by
  have hpos : (0 : ℚ) < den := by positivity
  have hx := div_eq_floor_add num hden
  have hrest0 := Int.emod_nonneg num (b := den) (by omega)
  have hrest1 := Int.emod_lt_of_pos num (b := den) (by omega)
  unfold roundHalfEven
  generalize num / (den : Int) = fl at hx
  generalize num % (den : Int) = rest at hx hrest0 hrest1
  rw [hx]
  have hq0 : (0 : ℚ) ≤ rest / den := div_nonneg (by exact_mod_cast hrest0) hpos.le
  have hq1 : (rest : ℚ) / den < 1 := (div_lt_one hpos).mpr (by exact_mod_cast hrest1)
  have hlt : 2 * rest < den ↔ (rest : ℚ) / den < 1 / 2 := by
    rw [div_lt_div_iff₀ hpos two_pos, one_mul, mul_comm]
    exact_mod_cast Iff.rfl
  have hgt : (den : Int) < 2 * rest ↔ (1 : ℚ) / 2 < rest / den := by
    rw [div_lt_div_iff₀ two_pos hpos, one_mul, mul_comm (rest : ℚ)]
    exact_mod_cast Iff.rfl
  simp only [hlt, hgt]
  generalize (rest : ℚ) / den = q at hq0 hq1
  split_ifs with h1 h2 h3
  · have habs : |(fl : ℚ) - (fl + q)| = q := by rw [sub_add_cancel_left, abs_neg, abs_of_nonneg hq0]
    exact ⟨by rw [habs]; exact h1.le, fun h => absurd (habs ▸ h) h1.ne⟩
  · have habs : |((fl + 1 : Int) : ℚ) - (fl + q)| = 1 - q := by
      rw [Int.cast_add, Int.cast_one, add_sub_add_left_eq_sub, abs_of_nonneg (by linarith)]
    exact ⟨by rw [habs]; linarith, fun h => by rw [habs] at h; linarith⟩
  · have hq : q = 1 / 2 := le_antisymm (not_lt.mp h2) (not_lt.mp h1)
    refine ⟨?_, fun _ => Int.even_iff.mpr h3⟩
    rw [hq, sub_add_cancel_left, abs_neg, abs_of_nonneg (by norm_num)]
  · have hq : q = 1 / 2 := le_antisymm (not_lt.mp h2) (not_lt.mp h1)
    refine ⟨?_, fun _ => ?_⟩
    · rw [hq, Int.cast_add, Int.cast_one, add_sub_add_left_eq_sub, abs_of_nonneg (by norm_num)]
      norm_num
    · rw [Int.even_add_one, Int.not_even_iff]
      omega

/-- Of two numbers the smaller is not rounded above the larger. -/
theorem IsNearest.mono {x y : ℚ} {m n : Int} (hm : IsNearest x m) (hn : IsNearest y n)
    (hxy : x ≤ y) : m ≤ n := by
  by_contra hlt
  have hstep : (n : ℚ) + 1 ≤ m := by exact_mod_cast (not_le.mp hlt : n < m)
  have hm1 := (abs_le.mp hm.near).2
  have hn1 := (abs_le.mp hn.near).1
  -- Both are a half away, so both would be even, and they are neighbours.
  have hx : (m : ℚ) - x = 1 / 2 := by linarith
  have hy : (n : ℚ) - y = -(1 / 2) := by linarith
  have hme := hm.even (by rw [hx, abs_of_pos (by norm_num)])
  have hne := hn.even (by rw [hy, abs_neg, abs_of_pos (by norm_num)])
  have hmn : m = n + 1 := by
    have : (m : ℚ) = n + 1 := by linarith
    exact_mod_cast this
  rw [hmn, Int.even_add_one] at hme
  exact hme hne

theorem IsNearest.unique {x : ℚ} {m n : Int} (hm : IsNearest x m) (hn : IsNearest x n) : m = n :=
  le_antisymm (hm.mono hn le_rfl) (hn.mono hm le_rfl)

theorem isNearest_intCast (m : Int) : IsNearest m m :=
  ⟨by simp, fun h => by norm_num at h⟩

theorem IsNearest.neg {x : ℚ} {m : Int} (h : IsNearest x m) : IsNearest (-x) (-m) := by
  have habs : |((-m : Int) : ℚ) - -x| = |(m : ℚ) - x| := by
    rw [Int.cast_neg, ← abs_neg]
    ring_nf
  exact ⟨habs ▸ h.near, fun he => (h.even (habs ▸ he)).neg⟩

/-- No whole number is nearer. -/
theorem IsNearest.abs_sub_le {x : ℚ} {m : Int} (h : IsNearest x m) (n : Int) :
    |(m : ℚ) - x| ≤ |(n : ℚ) - x| := by
  rcases eq_or_ne m n with rfl | hne
  · exact le_rfl
  have hone : (1 : ℚ) ≤ |(m : ℚ) - n| := by
    have : (1 : ℤ) ≤ |m - n| := Int.one_le_abs (sub_ne_zero.mpr hne)
    exact_mod_cast this
  have htri : |(m : ℚ) - n| ≤ |(m : ℚ) - x| + |(n : ℚ) - x| := by
    rw [abs_sub_comm (n : ℚ), show (m : ℚ) - n = (m - x) + (x - n) by ring]
    exact abs_add_le _ _
  linarith [h.near]

/-- Every number has a nearest whole number. -/
theorem exists_isNearest (x : ℚ) : ∃ m, IsNearest x m :=
  ⟨roundHalfEven x.num x.den, by
    simpa [Rat.num_div_den] using isNearest_roundHalfEven x.num x.den_pos⟩

namespace Decimal

/-! ### To as many places as fit -/

/-- `r` is `x` rounded to `k` places, with mantissa `m`, and more places would not fit. -/
structure RoundsAt (x : ℚ) (r : Decimal) (k : Nat) (m : Int) : Prop where
  places : k ≤ maxPlaces
  nearest : IsNearest (x * 10 ^ k) m
  inBounds : m.natAbs < mantissaBound
  value : r.toRat = m / 10 ^ k
  finest : ∀ j n, k < j → j ≤ maxPlaces → IsNearest (x * 10 ^ j) n → mantissaBound ≤ n.natAbs

/-- `r` is the amount that the exact number `x` is rounded to. -/
def Rounds (x : ℚ) (r : Decimal) : Prop := ∃ k m, RoundsAt x r k m

theorem upToPlaces?_eq_some {num : Int} {den s : Nat} {r : Decimal}
    (h : upToPlaces? num den s = some r) :
    ∃ k ≤ s, atPlaces? num den k = some r ∧
      ∀ j, k < j → j ≤ s → atPlaces? num den j = none := by
  induction s with
  | zero => exact ⟨0, le_rfl, h, fun j hj hj' => by omega⟩
  | succ s ih =>
      rw [upToPlaces?] at h
      cases hs : atPlaces? num den (s + 1) with
      | some d =>
          rw [hs, Option.some_or] at h
          exact ⟨s + 1, le_rfl, by rw [hs, h], fun j hj hj' => by omega⟩
      | none =>
          rw [hs, Option.none_or] at h
          obtain ⟨k, hk, hat, hnone⟩ := ih h
          refine ⟨k, by omega, hat, fun j hj hj' => ?_⟩
          rcases Nat.lt_or_ge j (s + 1) with hlt | hge
          · exact hnone j hj (by omega)
          · rw [show j = s + 1 by omega, hs]

theorem toRat_ofMantissa {m : Int} {s : Nat} (hs : s ≤ maxPlaces) (hm : m.natAbs < mantissaBound) :
    (ofMantissa m s hm).toRat = m / 10 ^ s := by
  have hsplit : (10 : ℚ) ^ maxPlaces = 10 ^ (maxPlaces - s) * 10 ^ s := by
    rw [← pow_add, Nat.sub_add_cancel hs]
  show ((m * (10 ^ (maxPlaces - s) : Nat) : Int) : ℚ) / ((10 ^ maxPlaces : Nat) : ℚ) = m / 10 ^ s
  push_cast
  rw [hsplit]
  field_simp

theorem isNearest_places {num : Int} {den s : Nat} (hden : 0 < den) (hs : s ≤ maxPlaces) :
    IsNearest (num / (den * 10 ^ maxPlaces) * 10 ^ s)
      (roundHalfEven num (den * pow10 (maxPlaces - s))) := by
  have hsplit : (10 : ℚ) ^ maxPlaces = 10 ^ (maxPlaces - s) * 10 ^ s := by
    rw [← pow_add, Nat.sub_add_cancel hs]
  have hx : (num : ℚ) / (den * 10 ^ maxPlaces) * 10 ^ s
      = num / ((den * pow10 (maxPlaces - s) : Nat) : ℚ) := by
    have hne : (den : ℚ) ≠ 0 := by positivity
    show (num : ℚ) / (den * 10 ^ maxPlaces) * 10 ^ s
      = num / ((den * 10 ^ (maxPlaces - s) : Nat) : ℚ)
    push_cast
    rw [hsplit]
    field_simp
  rw [hx]
  exact isNearest_roundHalfEven num (Nat.mul_pos hden (pow10_pos _))

/-- The one rounding that every operation ends with. -/
theorem rounds_of_ofRatio? {num : Int} {den : Nat} {r : Decimal} (hden : 0 < den)
    (h : ofRatio? num den = some r) : Rounds (num / (den * 10 ^ maxPlaces)) r := by
  obtain ⟨k, hk, hat, hnone⟩ := upToPlaces?_eq_some h
  unfold atPlaces? at hat
  simp only [Option.dite_none_right_eq_some, Option.some.injEq] at hat
  obtain ⟨hm, rfl⟩ := hat
  refine ⟨k, _, hk, isNearest_places hden hk, hm, toRat_ofMantissa hk hm, ?_⟩
  intro j n hj hj' hn
  have hno := hnone j hj hj'
  unfold atPlaces? at hno
  rw [(isNearest_places hden hj').unique hn] at hno
  simpa using hno

/-! ### What is an amount already stays as it is -/

theorem exists_mantissa (d : Decimal) :
    ∃ (m : Int) (k : Nat), k ≤ maxPlaces ∧ m.natAbs < mantissaBound ∧ d.toRat = m / 10 ^ k := by
  obtain ⟨m, k, hk, hm, hu⟩ := d.fits
  refine ⟨m, maxPlaces - k, Nat.sub_le _ _, hm, ?_⟩
  have hd : d = ofMantissa m (maxPlaces - k) hm :=
    ext_units (by rw [hu]; show m * pow10 k = m * pow10 (maxPlaces - (maxPlaces - k))
                  rw [Nat.sub_sub_self hk])
  rw [hd]
  exact toRat_ofMantissa (Nat.sub_le _ _) hm

theorem toRat_injective {a b : Decimal} (h : a.toRat = b.toRat) : a = b := by
  have hne : ((unitsPerOne : Nat) : ℚ) ≠ 0 := by
    have : unitsPerOne ≠ 0 := (pow10_pos maxPlaces).ne'
    exact_mod_cast this
  unfold toRat at h
  rw [div_left_inj' hne] at h
  exact ext_units (by exact_mod_cast h)

/-- A number that has a mantissa in bounds at some number of places is rounded to an amount. -/
theorem isSome_ofRatio? {num : Int} {den k : Nat} {m : Int} (hden : 0 < den)
    (hk : k ≤ maxPlaces) (hm : m.natAbs < mantissaBound)
    (h : IsNearest (num / (den * 10 ^ maxPlaces) * 10 ^ k) m) :
    ∃ r, ofRatio? num den = some r := by
  have hat : ∃ r, atPlaces? num den k = some r := by
    unfold atPlaces?
    rw [(isNearest_places hden hk).unique h]
    exact ⟨_, dif_pos hm⟩
  suffices ∀ s, k ≤ s → ∃ r, upToPlaces? num den s = some r from this _ hk
  intro s hs
  induction s with
  | zero =>
      obtain rfl : k = 0 := by omega
      exact hat
  | succ s ih =>
      rw [upToPlaces?]
      cases hs' : atPlaces? num den (s + 1) with
      | some d => exact ⟨d, rfl⟩
      | none =>
          rw [Option.none_or]
          refine ih ?_
          by_contra hlt
          obtain rfl : k = s + 1 := by omega
          obtain ⟨r, hr⟩ := hat
          rw [hs'] at hr
          cases hr

theorem Rounds.eq_of_amount {d r : Decimal} (h : Rounds d.toRat r) : r = d := by
  obtain ⟨k, m, h⟩ := h
  obtain ⟨m', k', hk', hm', hd⟩ := d.exists_mantissa
  -- The places of `d` suffice, so the rounding keeps at least as many.
  have hkk : k' ≤ k := by
    by_contra hlt
    have hint : d.toRat * 10 ^ k' = (m' : ℚ) := by
      rw [hd]
      field_simp
    have := h.finest k' m' (by omega) hk' (hint ▸ isNearest_intCast m')
    omega
  have hint : d.toRat * 10 ^ k = ((m' * 10 ^ (k - k') : Int) : ℚ) := by
    have hsplit : (10 : ℚ) ^ k = 10 ^ (k - k') * 10 ^ k' := by
      rw [← pow_add, Nat.sub_add_cancel hkk]
    rw [hd, hsplit]
    push_cast
    field_simp
  have hm : m = m' * 10 ^ (k - k') := h.nearest.unique (hint ▸ isNearest_intCast _)
  refine toRat_injective ?_
  rw [h.value, hm, ← hint]
  field_simp

theorem ofRatio?_units (d : Decimal) : ofRatio? d.units 1 = some d := by
  have hx : (d.units : ℚ) / ((1 : Nat) * 10 ^ maxPlaces) = d.toRat := by
    rw [Nat.cast_one, one_mul]
    show (d.units : ℚ) / 10 ^ maxPlaces = d.units / ((10 ^ maxPlaces : Nat) : ℚ)
    push_cast
    rfl
  obtain ⟨m, k, hk, hm, hd⟩ := d.exists_mantissa
  have hint : d.toRat * 10 ^ k = (m : ℚ) := by
    rw [hd]
    field_simp
  have hnear : IsNearest ((d.units : ℚ) / ((1 : Nat) * 10 ^ maxPlaces) * 10 ^ k) m := by
    rw [hx, hint]
    exact isNearest_intCast m
  obtain ⟨r, hr⟩ := isSome_ofRatio? one_pos hk hm hnear
  have hround := rounds_of_ofRatio? one_pos hr
  rw [hx] at hround
  rw [hr, hround.eq_of_amount]

/-- **An amount is rounded to itself.** -/
theorem rounds_self (d : Decimal) : Rounds d.toRat d := by
  have h := rounds_of_ofRatio? one_pos (ofRatio?_units d)
  rw [Nat.cast_one, one_mul] at h
  have hx : (d.units : ℚ) / 10 ^ maxPlaces = d.toRat := by
    show (d.units : ℚ) / 10 ^ maxPlaces = d.units / ((10 ^ maxPlaces : Nat) : ℚ)
    push_cast
    rfl
  rwa [hx] at h

/-! ### Rounding keeps the order -/

theorem toRat_neg (a : Decimal) : (-a).toRat = -a.toRat := by
  unfold toRat
  rw [units_neg, Int.cast_neg, neg_div]

theorem RoundsAt.neg {x : ℚ} {r : Decimal} {k : Nat} {m : Int} (h : RoundsAt x r k m) :
    RoundsAt (-x) (-r) k (-m) := by
  refine ⟨h.places, ?_, by rw [Int.natAbs_neg]; exact h.inBounds, ?_, ?_⟩
  · rw [neg_mul]
    exact h.nearest.neg
  · rw [toRat_neg, h.value, Int.cast_neg, neg_div]
  · intro j n hj hj' hn
    rw [neg_mul] at hn
    have := h.finest j (-n) hj hj' (by simpa using hn.neg)
    rwa [Int.natAbs_neg] at this

/-- A number that is rounded to fewer places than there are is too large for one place more. -/
theorem RoundsAt.abs_ge {x : ℚ} {r : Decimal} {k : Nat} {m : Int} (h : RoundsAt x r k m)
    (hk : k < maxPlaces) : (mantissaBound : ℚ) - 1 / 2 ≤ |x| * 10 ^ (k + 1) := by
  obtain ⟨n, hn⟩ := exists_isNearest (x * 10 ^ (k + 1))
  have hbound : (mantissaBound : ℚ) ≤ |(n : ℚ)| := by
    have := h.finest (k + 1) n (by omega) (by omega) hn
    rw [← Int.cast_abs, ← Nat.cast_natAbs]
    exact_mod_cast this
  have hsub : |(n : ℚ)| - |x * 10 ^ (k + 1)| ≤ 1 / 2 :=
    (abs_sub_abs_le_abs_sub _ _).trans hn.near
  rw [abs_mul, abs_of_pos (by positivity : (0 : ℚ) < 10 ^ (k + 1))] at hsub
  linarith

/-- And so is what it is rounded to. -/
theorem RoundsAt.result_ge {x : ℚ} {r : Decimal} {k : Nat} {m : Int} (h : RoundsAt x r k m)
    (hk : k < maxPlaces) (hx : 0 ≤ x) : (mantissaBound : ℚ) / 10 ^ (k + 1) ≤ r.toRat := by
  have hlarge := h.abs_ge hk
  rw [abs_of_nonneg hx, pow_succ, ← mul_assoc] at hlarge
  have hnear := (abs_le.mp h.nearest.near).1
  have hm : (mantissaBound : ℤ) ≤ 10 * m := by
    have hq : (mantissaBound : ℚ) - 1 / 2 - 5 ≤ 10 * m := by linarith
    unfold mantissaBound at hq ⊢
    have hz : (79228162514264337593543950330 : ℤ) < 10 * m := by
      have : ((79228162514264337593543950330 : ℤ) : ℚ) < ((10 * m : ℤ) : ℚ) := by
        push_cast at hq ⊢
        linarith
      exact_mod_cast this
    push_cast
    omega
  rw [h.value, pow_succ, div_le_div_iff₀ (by positivity) (by positivity)]
  have hmq : (mantissaBound : ℚ) ≤ 10 * m := by exact_mod_cast hm
  calc (mantissaBound : ℚ) * 10 ^ k ≤ 10 * m * 10 ^ k := by gcongr
    _ = m * (10 ^ k * 10) := by ring

theorem RoundsAt.abs_lt {x : ℚ} {r : Decimal} {k : Nat} {m : Int} (h : RoundsAt x r k m) :
    |r.toRat| < (mantissaBound : ℚ) / 10 ^ k := by
  have hm : |(m : ℚ)| < mantissaBound := by
    rw [← Int.cast_abs, ← Nat.cast_natAbs]
    exact_mod_cast h.inBounds
  rw [h.value, abs_div, abs_of_pos (by positivity : (0 : ℚ) < 10 ^ k)]
  exact div_lt_div_of_pos_right hm (by positivity)

/-- The larger number has fewer places because it is too large for those of the smaller. -/
theorem RoundsAt.le_of_fewer {x y : ℚ} {a b : Decimal} {k l : Nat} {m n : Int}
    (ha : RoundsAt x a k m) (hb : RoundsAt y b l n) (hlk : l < k) (hxy : x ≤ y) :
    a.toRat ≤ b.toRat := by
  obtain ⟨n', hn'⟩ := exists_isNearest (y * 10 ^ k)
  have hmn : m ≤ n' := ha.nearest.mono hn' (mul_le_mul_of_nonneg_right hxy (by positivity))
  have hbig := hb.finest k n' hlk ha.places hn'
  have hm := ha.inBounds
  have hpos : 0 < n' := by
    unfold mantissaBound at hbig hm
    omega
  have hy : 0 ≤ y := by
    have h0 := (abs_le.mp hn'.near).2
    have h1 : (1 : ℚ) ≤ n' := by exact_mod_cast hpos
    by_contra hneg
    have : y * 10 ^ k ≤ 0 := mul_nonpos_of_nonpos_of_nonneg (not_le.mp hneg).le (by positivity)
    linarith
  calc a.toRat ≤ |a.toRat| := le_abs_self _
    _ ≤ (mantissaBound : ℚ) / 10 ^ k := ha.abs_lt.le
    _ ≤ (mantissaBound : ℚ) / 10 ^ (l + 1) := by
        have : (10 : ℚ) ^ (l + 1) ≤ 10 ^ k := pow_le_pow_right₀ (by norm_num) hlk
        gcongr
    _ ≤ b.toRat := hb.result_ge (by have := ha.places; omega) hy

/-- **Of two numbers the smaller is not rounded above the larger.** -/
theorem Rounds.mono {x y : ℚ} {a b : Decimal} (ha : Rounds x a) (hb : Rounds y b)
    (hxy : x ≤ y) : a.toRat ≤ b.toRat := by
  obtain ⟨k, m, ha⟩ := ha
  obtain ⟨l, n, hb⟩ := hb
  rcases lt_trichotomy l k with hlt | rfl | hgt
  · exact ha.le_of_fewer hb hlt hxy
  · have hmn : (m : ℚ) ≤ n := by
      exact_mod_cast ha.nearest.mono hb.nearest (mul_le_mul_of_nonneg_right hxy (by positivity))
    rw [ha.value, hb.value]
    gcongr
  · have := hb.neg.le_of_fewer ha.neg hgt (neg_le_neg hxy)
    rw [toRat_neg, toRat_neg] at this
    linarith

/-- What a number is rounded to is one amount. -/
theorem Rounds.unique {x : ℚ} {a b : Decimal} (ha : Rounds x a) (hb : Rounds x b) : a = b :=
  toRat_injective (le_antisymm (ha.mono hb le_rfl) (hb.mono ha le_rfl))

/-- What is at least an amount is not rounded below it. -/
theorem Rounds.ge_of_ge {x : ℚ} {d r : Decimal} (h : Rounds x r) (hx : d.toRat ≤ x) :
    d.toRat ≤ r.toRat :=
  (rounds_self d).mono h hx

/-- What is at most an amount is not rounded above it. -/
theorem Rounds.le_of_le {x : ℚ} {d r : Decimal} (h : Rounds x r) (hx : x ≤ d.toRat) :
    r.toRat ≤ d.toRat :=
  h.mono (rounds_self d) hx

/-! ### How far rounding moves a number -/

/-- The smallest amount above nothing. -/
def grain : ℚ := 1 / 10 ^ maxPlaces

theorem grain_pos : 0 < grain := by
  unfold grain
  positivity

theorem grain_mul_nonneg {x : ℚ} (hx : 0 ≤ x) : 0 ≤ grain * x :=
  mul_nonneg grain_pos.le hx

theorem grain_mul_count_nonneg (n : Nat) {x : ℚ} (hx : 0 ≤ x) : 0 ≤ grain * (n * x) :=
  grain_mul_nonneg (mul_nonneg n.cast_nonneg hx)

/-- A hundred grains of a size are less than the size. -/
theorem hundred_grains_le {x : ℚ} (hx : 0 ≤ x) : grain * (100 * x) ≤ x := by
  unfold grain maxPlaces
  linarith

theorem RoundsAt.abs_sub_le {x : ℚ} {r : Decimal} {k : Nat} {m : Int} (h : RoundsAt x r k m) :
    |r.toRat - x| ≤ 1 / 2 / 10 ^ k := by
  have hx : r.toRat - x = (m - x * 10 ^ k) / 10 ^ k := by
    rw [h.value]
    field_simp
  rw [hx, abs_div, abs_of_pos (by positivity : (0 : ℚ) < 10 ^ k)]
  exact div_le_div_of_nonneg_right h.nearest.near (by positivity)

/-- Half of the last place is at most two thirds of a grain of a size that is too large for one
place more. -/
theorem RoundsAt.half_place_le {x : ℚ} {r : Decimal} {k : Nat} {m : Int} (h : RoundsAt x r k m)
    {c : ℚ} (hc : 1 ≤ c)
    (hlarge : k < maxPlaces → (mantissaBound : ℚ) - 1 / 2 ≤ c * 10 ^ (k + 1)) :
    1 / 2 / 10 ^ k ≤ 2 / 3 * grain * c := by
  rcases Nat.lt_or_ge k maxPlaces with hk | hk
  · have hsize := hlarge hk
    rw [pow_succ, ← mul_assoc] at hsize
    rw [div_le_iff₀ (by positivity)]
    unfold grain maxPlaces
    unfold mantissaBound at hsize
    push_cast at hsize
    linarith
  · obtain rfl : k = maxPlaces := le_antisymm h.places hk
    have hpos := grain_pos
    calc (1 : ℚ) / 2 / 10 ^ maxPlaces = 1 / 2 * grain := by unfold grain; ring
      _ ≤ 2 / 3 * grain * 1 := by linarith
      _ ≤ 2 / 3 * grain * c := by gcongr

/-- A number is moved by at most two thirds of a grain, or of a grain of its size. -/
theorem Rounds.abs_sub_le {x : ℚ} {r : Decimal} (h : Rounds x r) {c : ℚ} (hc : 1 ≤ c)
    (hx : |x| ≤ c) : |r.toRat - x| ≤ 2 / 3 * grain * c := by
  obtain ⟨k, m, h⟩ := h
  refine h.abs_sub_le.trans (h.half_place_le hc fun hk => ?_)
  exact (h.abs_ge hk).trans (mul_le_mul_of_nonneg_right hx (by positivity))

theorem RoundsAt.abs_result_ge {x : ℚ} {r : Decimal} {k : Nat} {m : Int} (h : RoundsAt x r k m)
    (hk : k < maxPlaces) : (mantissaBound : ℚ) / 10 ^ (k + 1) ≤ |r.toRat| := by
  rcases le_total 0 x with hx | hx
  · exact (h.result_ge hk hx).trans (le_abs_self _)
  · have := h.neg.result_ge hk (neg_nonneg.mpr hx)
    rw [toRat_neg] at this
    exact this.trans (neg_le_abs _)

/-- The same in terms of the result. -/
theorem Rounds.abs_sub_le_result {x : ℚ} {r : Decimal} (h : Rounds x r) {c : ℚ} (hc : 1 ≤ c)
    (hr : |r.toRat| ≤ c) : |r.toRat - x| ≤ 2 / 3 * grain * c := by
  obtain ⟨k, m, h⟩ := h
  refine h.abs_sub_le.trans (h.half_place_le hc fun hk => ?_)
  have hlarge := (h.abs_result_ge hk).trans hr
  rw [div_le_iff₀ (by positivity)] at hlarge
  linarith

/-- Rounding is all but to the nearest amount: none is more than ten times nearer. -/
theorem Rounds.abs_sub_le_ten_mul {x : ℚ} {r : Decimal} (h : Rounds x r) (d : Decimal) :
    |r.toRat - x| ≤ 10 * |d.toRat - x| := by
  obtain ⟨k, m, h⟩ := h
  obtain ⟨m', l, hl, hm', hd⟩ := d.exists_mantissa
  rcases Nat.lt_or_ge k l with hkl | hlk
  · -- `d` has more places than the result, so it is below what the result is too large for.
    have hlarge := h.abs_ge (by omega)
    have hsmall : |d.toRat| * 10 ^ (k + 1) ≤ mantissaBound - 1 := by
      have hm : |(m' : ℚ)| ≤ mantissaBound - 1 := by
        have hq : ((m'.natAbs + 1 : Nat) : ℚ) ≤ mantissaBound := by exact_mod_cast hm'
        rw [Nat.cast_add, Nat.cast_natAbs, Int.cast_abs, Nat.cast_one] at hq
        linarith
      have hpow : (10 : ℚ) ^ (k + 1) ≤ 10 ^ l := pow_le_pow_right₀ (by norm_num) hkl
      calc |d.toRat| * 10 ^ (k + 1) ≤ |d.toRat| * 10 ^ l := by gcongr
        _ = |(m' : ℚ)| := by
            rw [hd, abs_div, abs_of_pos (by positivity : (0 : ℚ) < 10 ^ l)]
            field_simp
        _ ≤ mantissaBound - 1 := hm
    have hgap : 1 / 2 ≤ |d.toRat - x| * 10 ^ (k + 1) := by
      have htri : |x| - |d.toRat| ≤ |d.toRat - x| := by
        rw [abs_sub_comm]
        exact abs_sub_abs_le_abs_sub x d.toRat
      have := mul_le_mul_of_nonneg_right htri (by positivity : (0 : ℚ) ≤ 10 ^ (k + 1))
      linarith
    refine h.abs_sub_le.trans ?_
    rw [div_le_iff₀ (by positivity)]
    rw [pow_succ, ← mul_assoc] at hgap
    linarith
  · -- `d` is on the grid that the result is nearest on.
    have hint : d.toRat * 10 ^ k = ((m' * 10 ^ (k - l) : Int) : ℚ) := by
      have hsplit : (10 : ℚ) ^ k = 10 ^ (k - l) * 10 ^ l := by
        rw [← pow_add, Nat.sub_add_cancel hlk]
      rw [hd, hsplit]
      push_cast
      field_simp
    have hnear := h.nearest.abs_sub_le (m' * 10 ^ (k - l))
    rw [← hint] at hnear
    have hr : r.toRat * 10 ^ k = m := by
      rw [h.value]
      field_simp
    rw [← hr, ← sub_mul, ← sub_mul, abs_mul, abs_mul] at hnear
    have := le_of_mul_le_mul_right hnear (abs_pos.mpr (by positivity))
    linarith [abs_nonneg (d.toRat - x)]

/-- What is rounded to nothing is half a grain at most. -/
theorem Rounds.abs_le_half_grain {x : ℚ} (h : Rounds x 0) : |x| ≤ grain / 2 := by
  obtain ⟨k, m, h⟩ := h
  have hzero : (0 : Decimal).toRat = 0 := by rw [toRat, units_zero, Int.cast_zero, zero_div]
  -- With fewer places the result would have been larger than nothing.
  obtain rfl : k = maxPlaces := by
    refine le_antisymm h.places (not_lt.mp fun hk => ?_)
    have hlarge := h.abs_result_ge hk
    rw [hzero, abs_zero] at hlarge
    have : (0 : ℚ) < (mantissaBound : ℚ) / 10 ^ (k + 1) := by
      unfold mantissaBound
      positivity
    linarith
  have hnear := h.abs_sub_le
  rw [hzero, zero_sub, abs_neg] at hnear
  exact hnear.trans_eq (by unfold grain; ring)

end Decimal

end Insolvency
