/-
What books show a lender.

The risk of books with equity is a quotient whose divisor can be a single grain, so the size of
the assets alone does not say that there is one.  What does is that the divisor is a difference
of two amounts, and these have only so many places.  On the places that both have, each is a
whole number and they differ by one at least.  If the assets are the finer of the two, their
own mantissa bounds the quotient.  If they are not, they end in nought on the places of the
debts; and should their mantissa not fit there, they keep a distance from all that do
(`five_le_sub`).

A lender's answer is then a matter of order: no risk is below one, more debts never lower it, and
so a threshold below one is never met.
-/
import Insolvency.Credit.Approval
import Insolvency.Proofs.Capital.Monotonicity
import Insolvency.Proofs.Decimal.Range

namespace Insolvency

namespace Decimal

/-! ### A whole divided by what is left of it -/

/-- A mantissa written on more places. -/
theorem div_pow_eq_more_places (m : Int) (k d : Nat) :
    (m : ℚ) / 10 ^ k = ((m * 10 ^ d : Int) : ℚ) / 10 ^ (k + d) := by
  push_cast
  rw [pow_add]
  field_simp

/-- On the same places a whole goes into a part as its mantissa does. -/
theorem div_sub_of_same_places (m n : Int) (k : Nat) :
    (m : ℚ) / 10 ^ k / ((m : ℚ) / 10 ^ k - (n : ℚ) / 10 ^ k) = (m : ℚ) / ((m - n : Int) : ℚ) := by
  rw [← sub_div, div_div_div_cancel_right₀ (by positivity), Int.cast_sub]

theorem le_mantissaBound_sub_one {m : Int} (h : m < mantissaBound) :
    (m : ℚ) ≤ mantissaBound - 1 := by
  have hq : (m : ℚ) + 1 ≤ mantissaBound := by exact_mod_cast h
  linarith

/-- A mantissa goes into itself less anything no more often than its size. -/
theorem div_sub_le_of_lt {m n : Int} (hm0 : 0 ≤ m) (hm : m < mantissaBound) (hlt : n < m) :
    (m : ℚ) / ((m - n : Int) : ℚ) ≤ mantissaBound - 1 := by
  have hone : (1 : ℚ) ≤ ((m - n : Int) : ℚ) := by exact_mod_cast Int.sub_pos.mpr hlt
  exact (div_le_self (by exact_mod_cast hm0) hone).trans (le_mantissaBound_sub_one hm)

/-- What ends in nought and is out of bounds for a mantissa is no neighbour of one in bounds, as
the first out of bounds ends in six. -/
theorem five_le_sub {m n : Int} (hm : (mantissaBound : Int) ≤ m * 10) (hn : n < mantissaBound) :
    5 ≤ m * 10 - n := by
  unfold mantissaBound at hm hn
  omega

/-- So it goes into itself less a mantissa no more often than the largest mantissa says. -/
theorem div_sub_le_of_noughts {m n : Int} (hm0 : 0 ≤ m * 10) (hn : n < mantissaBound)
    (hlt : n < m * 10) : ((m * 10 : Int) : ℚ) / ((m * 10 - n : Int) : ℚ) ≤ mantissaBound - 1 := by
  rcases lt_or_ge (m * 10) (mantissaBound : Int) with hfits | hlarge
  · exact div_sub_le_of_lt hm0 hfits hlt
  have hfive : (5 : ℚ) ≤ ((m * 10 - n : Int) : ℚ) := by exact_mod_cast five_le_sub hlarge hn
  have hnq := le_mantissaBound_sub_one hn
  have hbound : (mantissaBound : ℚ) = 79228162514264337593543950336 := rfl
  have hsplit : ((m * 10 : Int) : ℚ) = ((m * 10 - n : Int) : ℚ) + n := by
    push_cast
    ring
  rw [hsplit, div_le_iff₀ (by linarith)]
  rw [hbound] at hnq ⊢
  linarith

/-- **A whole is no more than the largest amount times what is left of it**, however little that
is. -/
theorem div_sub_le_largest {whole part : Decimal} (hpart : 0 ≤ part.toRat)
    (hlt : part.toRat < whole.toRat) :
    whole.toRat / (whole.toRat - part.toRat) ≤ largest.toRat := by
  obtain ⟨m, k, -, hm, hwhole⟩ := whole.exists_mantissa
  obtain ⟨n, j, -, hn, hrest⟩ := part.exists_mantissa
  have hpos : (0 : ℚ) < m / 10 ^ k := hwhole ▸ hpart.trans_lt hlt
  have hm0 : (0 : Int) < m := by
    rw [div_pos_iff_of_pos_right (by positivity)] at hpos
    exact_mod_cast hpos
  rw [hrest, hwhole] at hlt
  rw [toRat_largest, hwhole, hrest]
  rcases Nat.lt_or_ge k j with hkj | hjk
  · -- On the places of the part the whole ends in nought.
    obtain ⟨d, rfl⟩ : ∃ d, j = k + (d + 1) := ⟨j - k - 1, by omega⟩
    rw [div_pow_eq_more_places m k (d + 1), pow_succ, ← mul_assoc] at hlt ⊢
    rw [div_lt_div_iff_of_pos_right (by positivity)] at hlt
    rw [div_sub_of_same_places]
    exact div_sub_le_of_noughts (by positivity) (by omega) (by exact_mod_cast hlt)
  · obtain ⟨d, rfl⟩ : ∃ d, k = j + d := ⟨k - j, by omega⟩
    rw [div_pow_eq_more_places n j d] at hlt ⊢
    rw [div_lt_div_iff_of_pos_right (by positivity)] at hlt
    rw [div_sub_of_same_places]
    exact div_sub_le_of_lt hm0.le (by omega) (by exact_mod_cast hlt)

/-- **Dividing an amount by what is left of it never fails.** -/
theorem exists_div_of_sub {whole part rest : Decimal} (h : whole.sub part = .ok rest)
    (hpart : 0 ≤ part.toRat) (hrest : 0 < rest.toRat) : ∃ q, whole.div rest = .ok q := by
  have hround := rounds_sub h
  have hlt : part.toRat < whole.toRat := by
    by_contra hge
    have := hround.le_of_le (d := 0) (by rw [toRat_zero]; linarith)
    rw [toRat_zero] at this
    linarith
  have hwhole : 0 ≤ whole.toRat := hpart.trans hlt.le
  refine exists_div (fun hzero => hrest.ne' (toRat_eq_zero.mpr hzero)) ?_
  rw [abs_of_nonneg (div_nonneg hwhole hrest.le)]
  rcases le_total (whole.toRat - part.toRat) 1 with hsmall | hone
  · -- So small a difference is exact.
    rw [sub_exact h (by rwa [abs_of_nonneg (sub_nonneg.mpr hlt.le)])]
    exact div_sub_le_largest hpart hlt
  · have hrest1 : 1 ≤ rest.toRat := by simpa using hround.ge_of_ge (d := 1) (by rwa [toRat_one])
    exact (div_le_self hwhole hrest1).trans ((le_abs_self _).trans (abs_toRat_le_largest whole))

theorem le_largest (d : Decimal) : d ≤ largest :=
  le_iff_toRat.mpr ((le_abs_self _).trans (abs_toRat_le_largest d))

end Decimal

open Decimal

/-! ### Leverage -/

namespace RiskMeasure

/-- What the risk of books with these assets and this equity is. -/
inductive Leverage (assets equity : Decimal) : Decimal → Prop
  | exhausted (h : equity.toRat ≤ 0) : Leverage assets equity .largest
  | levered {r : Decimal} (h : 0 < equity.toRat) (hle : equity.toRat ≤ assets.toRat)
      (hr : Rounds (assets.toRat / equity.toRat) r) : Leverage assets equity r

namespace Leverage

variable {assets assets' equity equity' r r' : Decimal}

theorem one_le (h : Leverage assets equity r) : 1 ≤ r := by
  cases h with
  | exhausted => exact le_largest 1
  | levered h hle hr =>
      refine le_iff_toRat.mpr (hr.ge_of_ge ?_)
      rwa [toRat_one, le_div_iff₀ h, one_mul]

/-- More assets on less equity are no less of a risk. -/
theorem mono (h : Leverage assets equity r) (h' : Leverage assets' equity' r')
    (hassets : assets.toRat ≤ assets'.toRat) (hequity : equity'.toRat ≤ equity.toRat) : r ≤ r' := by
  cases h' with
  | exhausted => exact le_largest r
  | levered hpos' hle' hr' =>
      cases h with
      | exhausted hnone => linarith
      | levered hpos hle hr =>
          refine le_iff_toRat.mpr (hr.mono hr' ?_)
          exact div_le_div₀ (hpos'.le.trans hle') hassets hpos' hequity

end Leverage

variable {s s' : BalanceSheet} {assets debts : Decimal}

/-- **Books with nothing below nothing have a risk**, if what they own and owe can be added up. -/
theorem exists_risk (hs : s.Nonneg) (hassets : s.totalAssets = .ok assets)
    (hdebts : s.totalLiabilities = .ok debts) :
    ∃ equity r, s.equity = .ok equity ∧ simpleLeverage.risk s = .ok r ∧
      Leverage assets equity r := by
  have hassets0 : 0 ≤ assets.toRat := Accounts.total_nonneg hassets hs.assets
  have hdebts0 := Liabilities.total_nonneg hs.loans hs.deposits hdebts
  obtain ⟨equity, hsub⟩ : ∃ equity, assets.sub debts = .ok equity := by
    refine exists_sub (abs_le.mpr ⟨?_, ?_⟩)
    · linarith [(abs_le.mp (abs_toRat_le_largest debts)).2]
    · linarith [(abs_le.mp (abs_toRat_le_largest assets)).2]
  have hequity : s.equity = .ok equity := by
    unfold BalanceSheet.equity
    rw [hassets, hdebts]
    exact hsub
  have hrisk : simpleLeverage.risk s = if equity ≤ 0 then .ok .largest else assets.div equity := by
    simp only [risk]
    rw [hequity, hassets]
    rfl
  refine ⟨equity, ?_⟩
  by_cases hnone : equity ≤ 0
  · rw [if_pos hnone] at hrisk
    exact ⟨_, hequity, hrisk, .exhausted (by simpa [le_iff_toRat] using hnone)⟩
  · have hpos : 0 < equity.toRat := by simpa [le_iff_toRat] using hnone
    obtain ⟨r, hdiv⟩ := exists_div_of_sub hsub hdebts0 hpos
    rw [if_neg hnone, hdiv] at hrisk
    have hle : equity.toRat ≤ assets.toRat := (rounds_sub hsub).le_of_le (by linarith)
    exact ⟨r, hequity, hrisk, .levered hpos hle (rounds_div hdiv).2⟩

/-- **The risk of valid books is defined and at least one, debts that are nowhere smaller never
lower it, and no threshold below one is met by it**, the one that is standard included. -/
theorem leverage_of_valid (hs : s.check = .ok ()) (hassets : s.totalAssets = .ok assets)
    (hdebts : s.totalLiabilities = .ok debts) :
    ∃ r, simpleLeverage.risk s = .ok r ∧ 1 ≤ r ∧
      (∀ (s' : BalanceSheet) (assets' debts' : Decimal), s'.check = .ok () →
        s'.totalAssets = .ok assets' → s'.totalLiabilities = .ok debts' →
        (∀ cls, s'.assets.holding cls = s.assets.holding cls) →
        (∀ c, s.liabilities.loan c ≤ s'.liabilities.loan c) →
        (∀ c, s.liabilities.deposit c ≤ s'.liabilities.deposit c) →
        ∃ r', simpleLeverage.risk s' = .ok r' ∧ r ≤ r') ∧
      (∀ threshold, threshold < 1 → (LoanApproval.riskBased threshold).approves r = false) ∧
      LoanApproval.standardRiskBased.approves r = false := by
  obtain ⟨equity, r, hequity, hrisk, hr⟩ := exists_risk (Authority.check_eq_ok hs) hassets hdebts
  have hdenied : ∀ threshold, threshold < 1 →
      (LoanApproval.riskBased threshold).approves r = false := by
    intro threshold hbelow
    refine decide_eq_false (not_le_iff.mpr ?_)
    exact lt_iff_toRat.mpr ((lt_iff_toRat.mp hbelow).trans_le (le_iff_toRat.mp hr.one_le))
  refine ⟨r, hrisk, hr.one_le, ?_, hdenied, hdenied 0.1 (by decide)⟩
  intro s' assets' debts' hs' hassets' hdebts' hsame hloans hdeposits
  obtain ⟨equity', r', hequity', hrisk', hr'⟩ :=
    exists_risk (Authority.check_eq_ok hs') hassets' hdebts'
  refine ⟨r', hrisk', hr.mono hr' ?_ ?_⟩
  · exact Accounts.total_mono (fun cls => le_iff_toRat.mpr (congrArg toRat (hsame cls)).ge) hassets
      hassets'
  · exact BalanceSheet.equity_mono (fun cls => le_iff_toRat.mpr (hsame cls ▸ le_rfl)) hloans
      hdeposits hequity hequity'

/-- The sample bank has four times its equity, and nearly five times with the larger loan. -/
theorem leverage_of_valid_sampleBank :
    simpleLeverage.risk sampleBank.sheet = .ok 4.0 ∧
    simpleLeverage.risk Authority.indebtedBank.sheet = .ok 4.8 ∧
    (1 : Decimal) ≤ 4.0 ∧ (4.0 : Decimal) ≤ 4.8 ∧
    LoanApproval.standardRiskBased.approves 4.0 = false := by
  have hassets : sampleBank.sheet.totalAssets = .ok 1200.0 := rfl
  have hdebts : sampleBank.sheet.totalLiabilities = .ok 900.0 := rfl
  have hfour : simpleLeverage.risk sampleBank.sheet = .ok 4.0 := rfl
  have hnearly : simpleLeverage.risk Authority.indebtedBank.sheet = .ok 4.8 := rfl
  obtain ⟨r, hrisk, hone, hmono, -, hdenied⟩ := leverage_of_valid rfl hassets hdebts
  obtain ⟨r', hrisk', hle⟩ := hmono Authority.indebtedBank.sheet 1200.0 950.0 rfl rfl rfl
    (fun _ => rfl) Authority.loan_le_indebtedBank (fun _ => le_iff_toRat.mpr le_rfl)
  obtain rfl := Except.ok.inj (hrisk.symm.trans hfour)
  obtain rfl := Except.ok.inj (hrisk'.symm.trans hnearly)
  exact ⟨hfour, hnearly, hone, hle, hdenied⟩

/-- A single grain of equity is enough. -/
example : simpleLeverage.risk
    ⟨⟨Table.ofList [(.cash, 1)]⟩,
      ⟨∅, Table.ofList [(⟨.household, "smith"⟩, 0.9999999999999999999999999999)]⟩, .empty⟩
      = .ok 1e28 := rfl

end RiskMeasure

end Insolvency
