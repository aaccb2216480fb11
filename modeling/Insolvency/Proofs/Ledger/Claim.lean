/-
How far a claim is written down.

A write-down is capped by what is left of the claim, and both the rest and what is written down
by then are rounded.  Where the rest is rounded down, or the sum is nearer to the amount than to
what comes after it, the amount is not passed.  That leaves one way to pass it: the rest is half a
unit of the last place short of what it is rounded to, so that the sum is half a unit above the
amount, and the amount has an odd last digit, so that this half is rounded up as well
(`Overdrawn`).  It takes an amount with less than 28 places and a write-down with more places than
the amount has.

The next write-down then takes it back, however much it asks for: the rest is below nothing, caps
it, and is exact.
-/
import Insolvency.Ledger.Claim
import Insolvency.Proofs.Decimal.Grid
import Insolvency.Proofs.Decimal.Growth
import Insolvency.Proofs.Decimal.Range

namespace Insolvency

open Decimal

/-! ### Half a unit above an amount -/

namespace Decimal

variable {x y δ : ℚ} {a b d r : Decimal} {k l : Nat} {m n : Int}

/-- What is too large for some places is so for a larger number. -/
theorem RoundsAt.finest_of_le (ha : RoundsAt x a k m) (hx : 0 ≤ x) (hxy : x ≤ y) {j : Nat}
    (hj : k < j) (hj' : j ≤ maxPlaces) (hn : IsNearest (y * 10 ^ j) n) :
    mantissaBound ≤ n.natAbs := by
  obtain ⟨n₀, hn₀⟩ := exists_isNearest (x * 10 ^ j)
  have hlarge := ha.finest j n₀ hj hj' hn₀
  have hmono : n₀ ≤ n := hn₀.mono hn (mul_le_mul_of_nonneg_right hxy (by positivity))
  have hnonneg : 0 ≤ n₀ :=
    IsNearest.mono (x := 0) (by exact_mod_cast isNearest_intCast 0) hn₀ (by positivity)
  omega

/-- Of two numbers not below nothing, the larger has no more places. -/
theorem RoundsAt.places_le (ha : RoundsAt x a k m) (hb : RoundsAt y b l n) (hx : 0 ≤ x)
    (hxy : x ≤ y) : l ≤ k := by
  by_contra hlt
  have hlarge := ha.finest_of_le hx hxy (not_le.mp hlt) hb.places hb.nearest
  exact absurd hb.inBounds (not_lt.mpr hlarge)

/-- An amount with less than half a unit of its last place added is rounded to the amount, and so
it is with half a unit, if the last digit is even. -/
theorem RoundsAt.add_half (hd : RoundsAt d.toRat d k m) (hd0 : 0 ≤ d.toRat) (h0 : 0 ≤ δ)
    (hle : δ ≤ 1 / 2 / 10 ^ k) (heven : δ = 1 / 2 / 10 ^ k → Even m) :
    Rounds (d.toRat + δ) d := by
  have hpow : (0 : ℚ) < 10 ^ k := by positivity
  have hoff : (m : ℚ) - (d.toRat + δ) * 10 ^ k = -(δ * 10 ^ k) := by
    rw [hd.value]
    field_simp
    ring
  have habs : |(m : ℚ) - (d.toRat + δ) * 10 ^ k| = δ * 10 ^ k := by
    rw [hoff, abs_neg, abs_of_nonneg (by positivity)]
  refine ⟨k, m, hd.places, ⟨?_, fun hhalf => heven ?_⟩, hd.inBounds, hd.value, ?_⟩
  · rw [habs]
    exact (le_div_iff₀ hpow).mp hle
  · rw [habs] at hhalf
    rw [eq_div_iff hpow.ne', hhalf]
  · intro j n hj hj' hn
    exact hd.finest_of_le hd0 (le_add_of_nonneg_right h0) hj hj' hn

/-- With as many places or more, a rounded number is on the grid. -/
theorem RoundsAt.onGrid (h : RoundsAt x r l n) (hlk : l ≤ k) :
    r.toRat = (n * 10 ^ (k - l) : Int) / 10 ^ k := by
  have hsplit : (10 : ℚ) ^ k = 10 ^ (k - l) * 10 ^ l := by
    rw [← pow_add, Nat.sub_add_cancel hlk]
  rw [h.value, hsplit]
  push_cast
  field_simp

/-- A sum fails only for being too large. -/
theorem add_eq_error {fault : Fault} (h : a.add b = .error fault) : fault = .additionOverflow := by
  unfold add orFault at h
  split at h
  · cases h
  · exact (Except.error.inj h).symm

/-- There is no amount between the largest and one less. -/
theorem le_largest_sub_one (h : d ≠ largest) : d.toRat ≤ largest.toRat - 1 := by
  obtain ⟨m, k, -, hm, hd⟩ := d.exists_mantissa
  rw [toRat_largest]
  rcases Nat.eq_zero_or_pos k with rfl | hk
  · rw [pow_zero, div_one] at hd
    have hne : m ≠ mantissaBound - 1 := by
      rintro rfl
      refine h (toRat_injective ?_)
      rw [hd, toRat_largest]
      push_cast
      rfl
    have hle : m ≤ mantissaBound - 2 := by omega
    rw [hd]
    have : (m : ℚ) ≤ ((mantissaBound - 2 : Int) : ℚ) := by exact_mod_cast hle
    push_cast at this
    linarith
  · have hpow : (10 : ℚ) ≤ 10 ^ k := le_self_pow₀ (by norm_num) hk.ne'
    have hmq : |(m : ℚ)| ≤ mantissaBound := by
      rw [← Int.cast_abs, ← Nat.cast_natAbs]
      exact_mod_cast hm.le
    have hsmall : d.toRat ≤ mantissaBound / 10 :=
      calc d.toRat ≤ |d.toRat| := le_abs_self _
        _ = |(m : ℚ)| / 10 ^ k := by rw [hd, abs_div, abs_of_pos (by positivity : (0 : ℚ) < 10 ^ k)]
        _ ≤ mantissaBound / 10 := by gcongr
    unfold mantissaBound at hsmall ⊢
    push_cast at hsmall ⊢
    linarith

end Decimal

namespace Claim

variable {c c' : Claim} {k : Nat} {m : Int}

/-! ### Past the amount -/

/-- What is written down is half a unit of the amount's last place above the amount, rounded, and
the last digit of the amount is odd. -/
structure OverdrawnAt (c : Claim) (k : Nat) (m : Int) : Prop where
  places : k < maxPlaces
  nonneg : 0 ≤ c.amount.toRat
  amount : RoundsAt c.amount.toRat c.amount k m
  odd : Odd m
  writtenDown : Rounds (c.amount.toRat + 1 / 2 / 10 ^ k) c.writtenDown

/-- The claim is written down past its amount. -/
def Overdrawn (c : Claim) : Prop := ∃ k m, c.OverdrawnAt k m

namespace OverdrawnAt

/-- What is written down has no more places than the amount. -/
theorem exists_onGrid (h : c.OverdrawnAt k m) : ∃ l n, l ≤ k ∧
    RoundsAt (c.amount.toRat + 1 / 2 / 10 ^ k) c.writtenDown l n := by
  obtain ⟨l, n, hwritten⟩ := h.writtenDown
  have hle : c.amount.toRat ≤ c.amount.toRat + 1 / 2 / 10 ^ k :=
    le_add_of_nonneg_right (by positivity)
  exact ⟨l, n, h.amount.places_le hwritten h.nonneg hle, hwritten⟩

theorem amount_lt (h : c.OverdrawnAt k m) : c.amount.toRat < c.writtenDown.toRat := by
  obtain ⟨l, n, hlk, hwritten⟩ := h.exists_onGrid
  have hpow : (0 : ℚ) < 10 ^ k := by positivity
  have hhalf : (0 : ℚ) ≤ 1 / 2 / 10 ^ k := by positivity
  refine lt_of_le_of_ne (h.writtenDown.ge_of_ge (le_add_of_nonneg_right hhalf)) fun heq => ?_
  have hm : m = n * 10 ^ (k - l) := by
    rw [hwritten.onGrid hlk, h.amount.value, div_left_inj' hpow.ne'] at heq
    exact_mod_cast heq
  refine Int.not_even_iff_odd.mpr h.odd ?_
  rcases hlk.eq_or_lt with rfl | hlt
  · -- With as many places the half would have been rounded to the even neighbour.
    rw [Nat.sub_self, pow_zero, mul_one] at hm
    have hoff : |(n : ℚ) - (c.amount.toRat + 1 / 2 / 10 ^ l) * 10 ^ l| = 1 / 2 := by
      rw [h.amount.value, hm, add_mul, div_mul_cancel₀ _ hpow.ne', div_mul_cancel₀ _ hpow.ne',
        sub_add_cancel_left, abs_neg, abs_of_pos (by norm_num)]
    exact hm ▸ hwritten.nearest.even hoff
  · have hten : Even ((10 : Int) ^ (k - l)) :=
      (by decide : Even (10 : Int)).pow_of_ne_zero (by omega)
    exact hm ▸ hten.mul_left n

/-- It is past the amount by no more than two grains of the amount's size. -/
theorem writtenDown_le (h : c.OverdrawnAt k m) :
    c.writtenDown.toRat ≤ c.amount.toRat + 2 * (grain * c.amount.toRat) := by
  have hplace := h.amount.placeValue_le h.places h.nonneg
  have hhalf : (1 : ℚ) / 2 / 10 ^ k = placeValue k / 2 := by
    unfold placeValue
    ring
  have hone : 1 ≤ c.amount.toRat := by
    refine le_trans ?_ (h.amount.result_ge h.places h.nonneg)
    have hpow : (10 : ℚ) ^ (k + 1) ≤ 10 ^ maxPlaces := pow_le_pow_right₀ (by norm_num) h.places
    rw [one_le_div (by positivity)]
    exact hpow.trans (by norm_num [maxPlaces, mantissaBound])
  have hplace0 := placeValue_nonneg k
  have hnear := h.writtenDown.abs_sub_le (c := c.amount.toRat + 1 / 2 / 10 ^ k) (by linarith)
    (abs_of_nonneg (by linarith)).le
  rw [hhalf] at hnear
  have hsize : placeValue k ≤ c.amount.toRat := by linarith [hundred_grains_le h.nonneg]
  have hscaled := mul_le_mul_of_nonneg_left hsize grain_pos.le
  linarith [(abs_le.mp hnear).2]

theorem abs_sub_lt (h : c.OverdrawnAt k m) :
    |c.amount.toRat - c.writtenDown.toRat| < gridBound k := by
  have hpow : (0 : ℚ) < 10 ^ k := by positivity
  have hnear :
      |c.writtenDown.toRat - (c.amount.toRat + 1 / 2 / 10 ^ k)| ≤ 10 * (1 / 2 / 10 ^ k) := by
    refine (h.writtenDown.abs_sub_le_ten_mul c.amount).trans_eq ?_
    rw [sub_add_cancel_left, abs_neg, abs_of_pos (by positivity)]
  have hbound : 11 * (1 / 2 / 10 ^ k) < gridBound k := by
    rw [gridBound, ← mul_div_assoc]
    gcongr
    norm_num [mantissaBound]
  obtain ⟨hlow, hhigh⟩ := abs_le.mp hnear
  rw [abs_lt]
  constructor
  · linarith
  · linarith [h.amount_lt, (by positivity : (0 : ℚ) < 1 / 2 / 10 ^ k)]

/-- What is left is below nothing, and exact. -/
theorem exists_remaining (h : c.OverdrawnAt k m) :
    ∃ r, c.remaining = .ok r ∧ r.toRat = c.amount.toRat - c.writtenDown.toRat := by
  obtain ⟨l, n, hlk, hwritten⟩ := h.exists_onGrid
  exact exists_sub_of_onGrid ⟨m, h.amount.value⟩ ⟨_, hwritten.onGrid hlk⟩ h.abs_sub_lt

/-- Whatever is asked for next, the claim is then written down by its amount. -/
theorem writeDown_eq (h : c.OverdrawnAt k m) (d : Decimal) :
    c.writeDown d = .ok { c with writtenDown := c.amount } := by
  obtain ⟨r, hr, hrest⟩ := h.exists_remaining
  have hcapped : min (max d 0) r = r := by
    refine toRat_injective ?_
    rw [toRat_min, toRat_max, toRat_zero]
    exact min_eq_right ((sub_neg.mpr h.amount_lt).le.trans' hrest.le |>.trans (le_max_right _ _))
  have hsum : c.writtenDown.toRat + r.toRat = c.amount.toRat := by
    rw [hrest]
    ring
  obtain ⟨w, hw⟩ := exists_add (hsum.symm ▸ abs_toRat_le_largest c.amount)
  have hround := rounds_add hw
  rw [hsum] at hround
  rw [writeDown, hr]
  show (do let w ← c.writtenDown.add (min (max d 0) r); _) = _
  rw [hcapped, hw, hround.eq_of_amount]
  rfl

end OverdrawnAt

/-! ### One write-down -/

variable {rest capped sum : Decimal}

/-- No grain is split in halves. -/
theorem ne_half_of_onGrid {x : ℚ} (hx : OnGrid maxPlaces x) : x ≠ 1 / 2 / 10 ^ maxPlaces := by
  rintro rfl
  obtain ⟨z, hz⟩ := hx
  rw [div_left_inj' (by positivity)] at hz
  have hodd : (1 : ℚ) = ((2 * z : Int) : ℚ) := by
    push_cast
    linarith
  have : (1 : Int) = 2 * z := by exact_mod_cast hodd
  omega

/-- What is written down and some of the rest come to no more than the amount, or to what an
overdrawn claim is written down by. -/
theorem add_le_or_overdrawn (h0 : 0 ≤ c.writtenDown.toRat)
    (hle : c.writtenDown.toRat ≤ c.amount.toRat) (hrest : c.remaining = .ok rest)
    (hcapped : capped.toRat ≤ rest.toRat) (hsum : c.writtenDown.add capped = .ok sum) :
    sum ≤ c.amount ∨ Overdrawn { c with writtenDown := sum } := by
  have hround := rounds_sub hrest
  have hadd := rounds_add hsum
  rcases le_or_gt capped.toRat (c.amount.toRat - c.writtenDown.toRat) with hexact | habove
  · exact Or.inl (le_iff_toRat.mpr (hadd.le_of_le (by linarith)))
  -- Nothing but the rest itself is between the exact rest and the rounded one.
  obtain rfl : capped = rest := toRat_injective (le_antisymm hcapped (hround.le_of_le habove.le))
  obtain ⟨l, n, hl⟩ := hround
  obtain ⟨k, m, hk⟩ := rounds_self c.amount
  have hkl : k ≤ l := hl.places_le hk (sub_nonneg.mpr hle) (sub_le_self _ h0)
  obtain ⟨δ, hδ⟩ : ∃ δ, δ = capped.toRat - (c.amount.toRat - c.writtenDown.toRat) := ⟨_, rfl⟩
  have hδ0 : 0 ≤ δ := by linarith
  have hδ1 : δ ≤ 1 / 2 / 10 ^ k := by
    have hpow : (10 : ℚ) ^ k ≤ 10 ^ l := pow_le_pow_right₀ (by norm_num) hkl
    rw [hδ]
    refine ((abs_le.mp hl.abs_sub_le).2).trans ?_
    gcongr
  have hsplit : c.writtenDown.toRat + capped.toRat = c.amount.toRat + δ := by
    rw [hδ]
    ring
  rw [hsplit] at hadd
  by_cases hhalf : δ = 1 / 2 / 10 ^ k ∧ Odd m
  · refine Or.inr ⟨k, m, lt_of_le_of_ne hk.places ?_, h0.trans hle, hk, hhalf.2, hhalf.1 ▸ hadd⟩
    rintro rfl
    refine ne_half_of_onGrid ?_ hhalf.1
    rw [hδ]
    exact (onGrid_toRat _).sub ((onGrid_toRat _).sub (onGrid_toRat _))
  · have hself := hk.add_half (h0.trans hle) hδ0 hδ1 fun hδ' =>
      Int.not_odd_iff_even.mp fun hodd => hhalf ⟨hδ', hodd⟩
    exact Or.inl (le_iff_toRat.mpr (hadd.mono hself le_rfl))

/-- The sum is too large at the largest amount only. -/
theorem exists_add_rest (h0 : 0 ≤ c.writtenDown.toRat) (hlarge : c.amount ≠ largest)
    (hrest : c.remaining = .ok rest) (hcapped0 : 0 ≤ capped.toRat)
    (hcapped : capped.toRat ≤ rest.toRat) : ∃ sum, c.writtenDown.add capped = .ok sum := by
  have hround : Rounds _ rest := rounds_sub hrest
  have hnear := (abs_le.mp hround.abs_sub_le_half).2
  have hamount := le_largest_sub_one hlarge
  refine exists_add ?_
  rw [abs_of_nonneg (add_nonneg h0 hcapped0)]
  linarith

/-- What a write-down does to a claim that is not overdrawn. -/
theorem writeDown_cases (h0 : 0 ≤ c.writtenDown.toRat) (hle : c.writtenDown.toRat ≤ c.amount.toRat)
    (d : Decimal) :
    (∃ w, c.writeDown d = .ok { c with writtenDown := w } ∧ c.writtenDown ≤ w ∧
      (w ≤ c.amount ∨ Overdrawn { c with writtenDown := w })) ∨
    (c.writeDown d = .error .additionOverflow ∧ c.amount = largest) := by
  obtain ⟨rest, hrest⟩ := exists_sub_of_le h0 hle
  have hrest0 : 0 ≤ rest.toRat := (rounds_sub hrest).nonneg (sub_nonneg.mpr hle)
  have hcapped0 : 0 ≤ (min (max d 0) rest).toRat := by
    rw [toRat_min, toRat_max, toRat_zero]
    exact le_min (le_max_right _ _) hrest0
  have hcapped : (min (max d 0) rest).toRat ≤ rest.toRat := by
    rw [toRat_min]
    exact min_le_right _ _
  have hcall : c.writeDown d = (do
      return { c with writtenDown := ← c.writtenDown.add (min (max d 0) rest) }) := by
    rw [writeDown, show c.remaining = .ok rest from hrest]
    rfl
  rw [hcall]
  cases hsum : c.writtenDown.add (min (max d 0) rest) with
  | ok w =>
      refine Or.inl ⟨w, rfl, ?_, add_le_or_overdrawn h0 hle hrest hcapped hsum⟩
      exact le_iff_toRat.mpr ((rounds_add hsum).ge_of_ge (le_add_of_nonneg_right hcapped0))
  | error fault =>
      obtain rfl := add_eq_error hsum
      refine Or.inr ⟨rfl, ?_⟩
      by_contra hlarge
      obtain ⟨w, hw⟩ := exists_add_rest h0 hlarge hrest hcapped0 hcapped
      cases hsum.symm.trans hw

/-! ### One write-down after the other -/

/-- All that is asked for, what is below nothing counting as nothing. -/
def asked (ds : List Decimal) : ℚ := exactSum (ds.map fun d => max d 0)

theorem asked_cons (d : Decimal) (ds : List Decimal) :
    asked (d :: ds) = max d.toRat 0 + asked ds := by
  rw [asked, List.map_cons, exactSum_cons, toRat_max, toRat_zero]
  rfl

theorem asked_nonneg (ds : List Decimal) : 0 ≤ asked ds := by
  induction ds with
  | nil => exact exactSum_nil.ge
  | cons d rest ih =>
      rw [asked_cons]
      exact add_nonneg (le_max_right _ _) ih

theorem onGrid_capped {d : Decimal} (hd : OnGrid k d.toRat) (hrest : OnGrid k rest.toRat) :
    OnGrid k (min (max d 0) rest).toRat := by
  rw [toRat_min, toRat_max, toRat_zero]
  rcases min_choice (max d.toRat 0) rest.toRat with h | h
  · rcases max_choice d.toRat 0 with h' | h'
    · rw [h, h']
      exact hd
    · rw [h, h']
      exact onGrid_zero k
  · rw [h]
    exact hrest

/-- With few places a write-down is exact. -/
theorem writeDown_of_onGrid {d : Decimal} (hamount : OnGrid k c.amount.toRat)
    (hwritten : OnGrid k c.writtenDown.toRat) (hd : OnGrid k d.toRat)
    (h0 : 0 ≤ c.writtenDown.toRat) (hle : c.writtenDown.toRat ≤ c.amount.toRat)
    (hlt : c.amount.toRat < gridBound k) :
    ∃ w, c.writeDown d = .ok { c with writtenDown := w } ∧ OnGrid k w.toRat ∧
      w.toRat = min c.amount.toRat (c.writtenDown.toRat + max d.toRat 0) := by
  obtain ⟨rest, hrest, hexact⟩ := exists_sub_of_onGrid hamount hwritten (by
    rw [abs_of_nonneg (sub_nonneg.mpr hle)]
    linarith)
  have hvalue : (min (max d 0) rest).toRat
      = min (max d.toRat 0) (c.amount.toRat - c.writtenDown.toRat) := by
    rw [toRat_min, toRat_max, toRat_zero, hexact]
  have hsplit : c.writtenDown.toRat + (min (max d 0) rest).toRat
      = min c.amount.toRat (c.writtenDown.toRat + max d.toRat 0) := by
    rw [hvalue, min_comm, ← min_add_add_left, add_sub_cancel]
  have hcapped := onGrid_capped hd (hexact ▸ hamount.sub hwritten)
  have hsum0 : 0 ≤ c.writtenDown.toRat + (min (max d 0) rest).toRat := by
    rw [hsplit]
    exact le_min (h0.trans hle) (add_nonneg h0 (le_max_right _ _))
  obtain ⟨w, hw, hsum⟩ := exists_add_of_onGrid hwritten hcapped (by
    rw [abs_of_nonneg hsum0, hsplit]
    exact (min_le_left _ _).trans_lt hlt)
  refine ⟨w, ?_, hsum ▸ hwritten.add hcapped, hsum.trans hsplit⟩
  rw [writeDown, show c.remaining = .ok rest from hrest]
  show (do let w ← c.writtenDown.add (min (max d 0) rest); _) = _
  rw [hw]
  rfl

/-- With few places the amount is never passed, and less is written down only where less is
asked for. -/
theorem writeDowns_of_onGrid {ds : List Decimal} (h : ds.foldlM writeDown c = .ok c')
    (hamount : OnGrid k c.amount.toRat) (hwritten : OnGrid k c.writtenDown.toRat)
    (hds : ∀ d ∈ ds, OnGrid k d.toRat) (h0 : 0 ≤ c.writtenDown.toRat)
    (hle : c.writtenDown.toRat ≤ c.amount.toRat) (hlt : c.amount.toRat < gridBound k) :
    c'.writtenDown.toRat = min c.amount.toRat (c.writtenDown.toRat + asked ds) := by
  induction ds generalizing c with
  | nil =>
      obtain rfl := pure_eq_ok.mp h
      rw [asked, List.map_nil, exactSum_nil, add_zero, min_eq_right hle]
  | cons d rest ih =>
      obtain ⟨hd, hrest⟩ := List.forall_mem_cons.mp hds
      obtain ⟨w, hw, hgrid, hvalue⟩ := writeDown_of_onGrid hamount hwritten hd h0 hle hlt
      rw [List.foldlM_cons, hw] at h
      have hasked := asked_nonneg rest
      have hmax := le_max_right d.toRat 0
      rw [ih h hamount hgrid hrest (hvalue ▸ le_min (h0.trans hle) (add_nonneg h0 hmax))
        (hvalue ▸ min_le_left _ _) hlt, asked_cons, ← add_assoc]
      show min c.amount.toRat (w.toRat + asked rest) = _
      rw [hvalue]
      rcases le_total c.amount.toRat (c.writtenDown.toRat + max d.toRat 0) with hcap | hcap
      · rw [min_eq_left hcap, min_eq_left (by linarith), min_eq_left (by linarith)]
      · rw [min_eq_right hcap]

/-- A claim is written down by something not below nothing, and by no more than its amount unless
it is overdrawn. -/
structure InOrder (c : Claim) : Prop where
  nonneg : 0 ≤ c.writtenDown
  le : c.writtenDown ≤ c.amount ∨ c.Overdrawn

theorem inOrder_fresh (creditor : AgentId) {amount : Decimal} (h : 0 ≤ amount) :
    (fresh creditor amount).InOrder :=
  ⟨zero_le_iff.mpr toRat_zero.ge, Or.inl h⟩

/-- What is left of a claim in order is not below nothing unless it is overdrawn. -/
theorem InOrder.exists_remaining (h : c.InOrder) :
    ∃ r, c.remaining = .ok r ∧ (0 ≤ r ∨ c.Overdrawn) := by
  rcases h.le with hle | ⟨k, m, hover⟩
  · rw [le_iff_toRat] at hle
    obtain ⟨r, hr⟩ := exists_sub_of_le (zero_le_iff.mp h.nonneg) hle
    exact ⟨r, hr, Or.inl (zero_le_iff.mpr ((rounds_sub hr).nonneg (sub_nonneg.mpr hle)))⟩
  · obtain ⟨r, hr, -⟩ := hover.exists_remaining
    exact ⟨r, hr, Or.inr ⟨k, m, hover⟩⟩

/-- A write-down takes an overdrawn claim back to its amount, and else takes nothing back. -/
theorem InOrder.writeDown_cases (h : c.InOrder) (d : Decimal) :
    (∃ w, c.writeDown d = .ok { c with writtenDown := w } ∧
      InOrder { c with writtenDown := w } ∧
      (c.writtenDown ≤ w ∨ c.Overdrawn ∧ w = c.amount)) ∨
    (c.writeDown d = .error .additionOverflow ∧ c.amount = largest) := by
  rcases h.le with hle | hover
  · rw [le_iff_toRat] at hle
    obtain ⟨w, hw, hmono, hle'⟩ | hfails :=
      Claim.writeDown_cases (zero_le_iff.mp h.nonneg) hle d
    · have h0 := (zero_le_iff.mp h.nonneg).trans (le_iff_toRat.mp hmono)
      exact Or.inl ⟨w, hw, ⟨zero_le_iff.mpr h0, hle'⟩, Or.inl hmono⟩
    · exact Or.inr hfails
  · obtain ⟨k, m, hat⟩ := hover
    exact Or.inl ⟨c.amount, hat.writeDown_eq d,
      ⟨zero_le_iff.mpr hat.nonneg, Or.inl (le_iff_toRat.mpr le_rfl)⟩, Or.inr ⟨⟨k, m, hat⟩, rfl⟩⟩

/-- What a sequence of write-downs keeps. -/
theorem inOrder_of_writeDowns {ds : List Decimal} (h : ds.foldlM writeDown c = .ok c')
    (hc : c.InOrder) : c'.InOrder ∧ c'.creditor = c.creditor ∧ c'.amount = c.amount := by
  refine foldlM_induction (P := fun x => x.InOrder ∧ x.creditor = c.creditor ∧ x.amount = c.amount)
    h ⟨hc, rfl, rfl⟩ fun d _ x x' hx hstep => ?_
  obtain ⟨w, hw, horder, -⟩ | ⟨hfails, -⟩ := hx.1.writeDown_cases d
  · obtain rfl := Except.ok.inj (hw.symm.trans hstep)
    exact ⟨horder, hx.2⟩
  · cases hfails.symm.trans hstep

/-- What has become of a claim by a sequence of write-downs, and what becomes of it by another. -/
structure After (creditor : AgentId) (amount : Decimal) (ds : List Decimal) (c : Claim) : Prop where
  /-- It is the same creditor's claim on the same amount. -/
  same : c.creditor = creditor ∧ c.amount = amount
  nonneg : 0 ≤ c.writtenDown
  le : c.writtenDown ≤ amount ∨ c.Overdrawn
  remaining : ∃ r, c.remaining = .ok r ∧ (0 ≤ r ∨ c.Overdrawn)
  /-- The next write-down takes nothing back unless the claim is overdrawn, and has a result unless
  the amount is the largest there is. -/
  next : ∀ d, (∃ w, c.writeDown d = .ok { c with writtenDown := w } ∧
      (c.writtenDown ≤ w ∨ c.Overdrawn)) ∨
    (c.writeDown d = .error .additionOverflow ∧ amount = largest)
  /-- An overdrawn claim is so by a rounding, and whatever is asked for next takes it back. -/
  overdrawn : c.Overdrawn → amount < c.writtenDown ∧
    c.writtenDown.toRat ≤ amount.toRat + 2 * (grain * amount.toRat) ∧
    ∀ d, c.writeDown d = .ok { c with writtenDown := amount }
  /-- With few places nothing is rounded, and so no claim overdrawn. -/
  exact : ∀ k, OnGrid k amount.toRat → (∀ d ∈ ds, OnGrid k d.toRat) →
    amount.toRat < gridBound k →
    ¬ c.Overdrawn ∧ c.writtenDown.toRat = min amount.toRat (asked ds)

/-- **A claim is written down within its amount**, but for a half unit of the last place that is
rounded up twice, and goes with the next write-down. -/
theorem after_writeDowns {creditor : AgentId} {amount : Decimal} (hamount : 0 ≤ amount)
    {ds : List Decimal} (h : ds.foldlM writeDown (fresh creditor amount) = .ok c) :
    c.After creditor amount ds := by
  obtain ⟨horder, hcreditor, rfl⟩ := inOrder_of_writeDowns h (inOrder_fresh creditor hamount)
  refine {
    same := ⟨hcreditor, rfl⟩
    nonneg := horder.nonneg
    le := horder.le
    remaining := horder.exists_remaining
    next := fun d => ?_
    overdrawn := ?_
    exact := fun k hgrid hds hlt => ?_ }
  · obtain ⟨w, hw, -, hkept⟩ | hfails := horder.writeDown_cases d
    · exact Or.inl ⟨w, hw, hkept.imp_right And.left⟩
    · exact Or.inr hfails
  · rintro ⟨k, m, hat⟩
    exact ⟨lt_iff_toRat.mpr hat.amount_lt, hat.writtenDown_le, hat.writeDown_eq⟩
  · have hwritten : c.writtenDown.toRat = min c.amount.toRat (asked ds) := by
      rw [writeDowns_of_onGrid h hgrid (toRat_zero ▸ onGrid_zero k) hds toRat_zero.ge
        (le_iff_toRat.mp hamount) hlt]
      show min c.amount.toRat ((0 : Decimal).toRat + asked ds) = _
      rw [toRat_zero, zero_add]
    refine ⟨?_, hwritten⟩
    rintro ⟨k, m, hat⟩
    exact absurd hat.amount_lt (not_lt.mpr (hwritten ▸ min_le_left _ _))

/-- A claim on 150 is written down by 100, by nothing where less than that is asked for, and then
by the 50 that are left. -/
theorem after_writeDowns_sampleClaim : ∃ c : Claim,
    [100.0, -20.0, 80.0].foldlM writeDown (fresh ⟨.fund, "alpha"⟩ 150.0) = .ok c ∧
      c.After ⟨.fund, "alpha"⟩ 150.0 [100.0, -20.0, 80.0] ∧ c.writtenDown = 150.0 :=
  ⟨_, rfl, after_writeDowns (by decide) rfl, by decide⟩

/-- Of a claim on 2⁹⁶ - 3 units of the 27th place first one and a half units are written down, then
all that is left, and that is a unit too much.  The next write-down takes it back. -/
theorem overdrawn_by_rounding :
    let amount : Decimal := 79.228162514264337593543950333
    ∃ c c' : Claim, 0 ≤ amount ∧
      [0.0000000000000000000000000015, amount].foldlM writeDown (fresh ⟨.fund, "alpha"⟩ amount)
        = .ok c ∧ amount < c.writtenDown ∧ (∃ r, c.remaining = .ok r ∧ r < 0) ∧
      c.writeDown 0 = .ok c' ∧ c'.writtenDown < c.writtenDown :=
  ⟨_, _, by decide, rfl, by decide, ⟨_, rfl, by decide⟩, rfl, by decide⟩

end Claim

end Insolvency
