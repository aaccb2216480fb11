/-
What an assessment says.

The equity that an assessment works out is off by the roundings of three sums and two
differences, and where it is not large it is not off by much (`equity_error`): equity that
a shortfall is worked out from is below what is required, and then the assets are hardly
more than what is owed and required together.
-/
import Insolvency.Authority
import Insolvency.Proofs.Capital.RiskWeights

namespace Insolvency

open Decimal

/-! ### Equity -/

/-- All that is owed, beside the exact total. -/
theorem Liabilities.total_error {l : Liabilities} {owed : Decimal} {M : ℚ}
    (h : l.total = .ok owed) (hloans : l.loans.Nonneg) (hdeposits : l.deposits.Nonneg)
    (hM : 1 ≤ M) (hL : l.exactTotal ≤ M) : 0 ≤ owed.toRat ∧ owed.toRat ≤ 12 * M ∧
      |owed.toRat - l.exactTotal| ≤ grain * (8 * (l.entryCount * M) + 8 * M) := by
  simp only [total, bind_eq_ok] at h
  obtain ⟨loans, hsumLoans, deposits, hsumDeposits, hadd⟩ := h
  have hround := rounds_add hadd
  have hL0 := Accounts.exactTotal_nonneg hloans
  have hD0 := Accounts.exactTotal_nonneg hdeposits
  have hloans0 := Accounts.total_nonneg hsumLoans hloans
  have hdeposits0 := Accounts.total_nonneg hsumDeposits hdeposits
  have hloansLe := Accounts.total_le hsumLoans hloans
  have hdepositsLe := Accounts.total_le hsumDeposits hdeposits
  unfold exactTotal at hL ⊢
  unfold entryCount
  have hstep := abs_le.mp (hround.abs_sub_le (c := 11 * M) (by linarith)
    (by rw [abs_of_nonneg (by linarith)]; linarith))
  have h1 := abs_le.mp (Accounts.total_error hsumLoans hloans (c := 11 * M) (by linarith)
    (by linarith))
  have h2 := abs_le.mp (Accounts.total_error hsumDeposits hdeposits (c := 11 * M) (by linarith)
    (by linarith))
  have hpos := grain_pos
  have hgM : 0 ≤ grain * M := by positivity
  have hnL : 0 ≤ grain * (l.loans.entries.length * M) := by positivity
  have hnD : 0 ≤ grain * (l.deposits.entries.length * M) := by positivity
  have hgrain := hundred_grains_le (by linarith : 0 ≤ M)
  push_cast
  refine ⟨hround.nonneg (by linarith), by linarith [hstep.2], abs_le.mpr ⟨?_, ?_⟩⟩
  · linarith [hstep.1, h1.1, h2.1]
  · linarith [hstep.2, h1.2, h2.2]

namespace BalanceSheet

/-- Equity that is not large, beside the exact one. -/
theorem equity_error {s : BalanceSheet} {equity : Decimal} {M : ℚ} (h : s.equity = .ok equity)
    (hs : s.Nonneg) (hM : 1 ≤ M) (hL : s.liabilities.exactTotal ≤ M)
    (hsmall : equity.toRat ≤ 2 * M) : -(12 * M) ≤ equity.toRat ∧
      |equity.toRat - s.exactEquity| ≤ grain *
        (10 * (s.assets.entryCount * M) + 8 * (s.liabilities.entryCount * M) + 16 * M) := by
  simp only [BalanceSheet.equity, totalAssets, totalLiabilities, bind_eq_ok] at h
  obtain ⟨owned, hsum, owed, htotal, hsub⟩ := h
  have hround := rounds_sub hsub
  obtain ⟨howed0, howedLe, howed⟩ := Liabilities.total_error htotal hs.loans hs.deposits hM hL
  have howned0 := Accounts.total_nonneg hsum hs.assets
  have hlow : -owed.toRat ≤ equity.toRat := by
    rw [← toRat_neg]
    refine hround.ge_of_ge ?_
    rw [toRat_neg]
    linarith
  have hstep := abs_le.mp (hround.abs_sub_le_result (c := 12 * M) (by linarith)
    (abs_le.mpr ⟨by linarith, by linarith⟩))
  have hgrain := hundred_grains_le (by linarith : 0 ≤ M)
  have hgM : 0 ≤ grain * M := grain_mul_nonneg (by linarith)
  have howned := abs_le.mp (Accounts.total_error hsum hs.assets (c := 15 * M) (by linarith)
    (by linarith [hstep.1]))
  rw [abs_le] at howed
  unfold exactEquity Assets.exactTotal Assets.entryCount
  refine ⟨by linarith, abs_le.mpr ⟨?_, ?_⟩⟩
  · linarith [hstep.1, howned.1, howed.2]
  · linarith [hstep.2, howned.2, howed.1]

end BalanceSheet

/-! ### The shortfall -/

theorem Decimal.epsilon_lt_of_not_negligible {d : Decimal} (hpos : ¬ d ≤ 0)
    (hmore : ¬ d.isNegligible = true) : epsilon < d := by
  refine not_le_iff.mp fun hle => hmore ?_
  refine decide_eq_true ⟨le_iff_toRat.mpr ?_, hle⟩
  have := lt_iff_toRat.mp (not_le_iff.mp hpos)
  rw [toRat_zero] at this
  rw [toRat_neg]
  linarith [epsilon_nonneg]

/-- What is lacking is the difference to what is required, if that is more than dust. -/
theorem CapitalTarget.shortfall_eq_ok {t : CapitalTarget} {equity riskWeighted s : Decimal}
    (h : t.shortfall equity riskWeighted = .ok s) :
    ∃ required, Rounds (t.ratio.toRat * riskWeighted.toRat) required ∧
      (s = 0 ∨ (epsilon < s ∧ Rounds (required.toRat - equity.toRat) s)) := by
  unfold shortfall at h
  split_ifs at h
  · cases h
  · simp only [bind_eq_ok, pure_eq_ok, liftM_eq_ok] at h
    obtain ⟨required, hrequired, lacking, hlacking, rfl⟩ := h
    refine ⟨required, rounds_mul hrequired, ?_⟩
    split_ifs with hnone
    · exact Or.inl rfl
    · obtain ⟨hpos, hmore⟩ := not_or.mp hnone
      exact Or.inr ⟨epsilon_lt_of_not_negligible hpos hmore, rounds_sub hlacking⟩

/-- Only the arithmetic can keep a shortfall from being worked out. -/
theorem CapitalTarget.shortfall_eq_error {t : CapitalTarget} {equity riskWeighted : Decimal}
    {err : Error} (h : t.shortfall equity riskWeighted = .error err)
    (hweighted : 0 ≤ riskWeighted.toRat) : ∃ fault, err = .arithmetic fault := by
  unfold shortfall at h
  rw [if_neg (by rw [lt_iff_toRat, toRat_zero]; linarith)] at h
  rcases bind_eq_error.mp h with hreq | ⟨required, -, h⟩
  · exact liftM_eq_error hreq
  · rcases bind_eq_error.mp h with hlack | ⟨lacking, -, h⟩
    · exact liftM_eq_error hlack
    · cases h

/-! ### The assessment -/

/-- A rulebook is in range just if all of its parameters are. -/
theorem Rulebook.fault?_eq_none {b : Rulebook} : b.fault? = none ↔
    b.riskWeights.fault? = none ∧ b.target.fault? = none ∧ b.terms.fault? = none ∧
      b.loanApproval.fault? = none ∧ b.policy.fault? = none := by
  simp only [fault?, Option.orElse_eq_orElse, Option.orElse_eq_or, Option.or_eq_none_iff]

theorem Rulebook.inRange_of_fault? {b : Rulebook} (h : b.fault? = none) :
    b.riskWeights.fault? = none ∧ 0 ≤ b.target.ratio.toRat := by
  obtain ⟨hweights, htarget, -⟩ := fault?_eq_none.mp h
  refine ⟨hweights, ?_⟩
  unfold CapitalTarget.fault? at htarget
  split_ifs at htarget with hneg
  rw [lt_iff_toRat, toRat_zero] at hneg
  exact not_lt.mp hneg

namespace Authority

variable {a : Authority} {i : Institution}

/-- What an assessment is worked out from. -/
structure Assessed (a : Authority) (i : Institution) (x : Assessment) : Prop where
  sheet : i.sheet.Nonneg
  equity : i.sheet.equity = .ok x.equity
  weighted : a.rulebook.riskWeights.weighted i.sheet.assets = .ok x.riskWeightedAssets
  shortfall : ∃ required,
    Rounds (a.rulebook.target.ratio.toRat * x.riskWeightedAssets.toRat) required ∧
      (x.shortfall = 0 ∨
        (epsilon < x.shortfall ∧ Rounds (required.toRat - x.equity.toRat) x.shortfall))

theorem check_eq_ok {s : BalanceSheet} {u : Unit} (h : s.check = .ok u) : s.Nonneg := by
  refine BalanceSheet.nonneg_iff.mpr ?_
  unfold BalanceSheet.check at h
  cases hfault : s.fault? with
  | none => rfl
  | some fault =>
      rw [hfault] at h
      cases h

theorem assessed_of_assess {x : Assessment} (h : a.assess i = .ok x) : a.Assessed i x := by
  simp only [assess, Institution.equity, RiskWeights.riskWeightedAssets, bind_eq_ok, pure_eq_ok,
    liftM_eq_ok] at h
  obtain ⟨_, hcheck, equity, hequity, weighted, hweighted, shortfall, hshortfall, rfl⟩ := h
  have hs := check_eq_ok hcheck
  rw [if_neg (Bool.not_eq_true _ ▸ Accounts.nonneg_iff.mp hs.assets)] at hweighted
  exact ⟨hs, hequity, liftM_eq_ok.mp hweighted, CapitalTarget.shortfall_eq_ok hshortfall⟩

/-- Only the arithmetic can keep books in order from being assessed. -/
theorem assess_eq_error {err : Error} (h : a.assess i = .error err) (hs : i.sheet.Nonneg) :
    ∃ fault, err = .arithmetic fault := by
  have hcheck : i.sheet.check = .ok () := by
    unfold BalanceSheet.check
    rw [BalanceSheet.nonneg_iff.mp hs]
  have hassets : ¬ i.sheet.assets.hasNegative = true := by
    rw [Bool.not_eq_true]
    exact Accounts.nonneg_iff.mp hs.assets
  unfold assess RiskWeights.riskWeightedAssets at h
  rw [if_neg hassets] at h
  simp only [bind_eq_error, liftM_eq_ok] at h
  rcases h with hfail | ⟨_, -, hequity | ⟨equity, -, hweighted | ⟨weighted, hok, h⟩⟩⟩
  · rw [hcheck] at hfail
    cases hfail
  · exact liftM_eq_error hequity
  · exact liftM_eq_error hweighted
  · rcases h with hshortfall | ⟨_, -, hdone⟩
    · exact CapitalTarget.shortfall_eq_error hshortfall
        (RiskWeights.weighted_nonneg (Rulebook.inRange_of_fault? a.inRange).1 hs.assets hok)
    · cases hdone

section Shortfall

variable {x : Assessment} {M : ℚ}

theorem Assessed.weighted_nonneg (h : a.Assessed i x) : 0 ≤ x.riskWeightedAssets.toRat :=
  RiskWeights.weighted_nonneg (Rulebook.inRange_of_fault? a.inRange).1 h.sheet.assets h.weighted

theorem Assessed.shortfall_nonneg (h : a.Assessed i x) : 0 ≤ x.shortfall.toRat := by
  obtain ⟨required, -, hnone | ⟨hmore, -⟩⟩ := h.shortfall
  · rw [hnone, toRat_zero]
  · exact (toRat_pos_of_epsilon_lt hmore).le

/-- **What is reported as lacking is what the exact equity lacks**, but for the rounding. -/
theorem Assessed.shortfall_error (h : a.Assessed i x) (hshort : x.shortfall ≠ 0) (hM : 1 ≤ M)
    (hL : i.sheet.liabilities.exactTotal ≤ M)
    (hrequired : a.rulebook.target.ratio.toRat * x.riskWeightedAssets.toRat ≤ M) :
    ∃ required, Rounds (a.rulebook.target.ratio.toRat * x.riskWeightedAssets.toRat) required ∧
      x.shortfall.toRat ≤ 15 * M ∧
      |x.shortfall.toRat - (required.toRat - i.sheet.exactEquity)| ≤ grain *
        (10 * (i.sheet.assets.entryCount * M) + 8 * (i.sheet.liabilities.entryCount * M)
          + 26 * M) := by
  obtain ⟨required, hround, hnone | ⟨hmore, hlacking⟩⟩ := h.shortfall
  · exact absurd hnone hshort
  refine ⟨required, hround, ?_⟩
  have hproduct : 0 ≤ a.rulebook.target.ratio.toRat * x.riskWeightedAssets.toRat :=
    mul_nonneg (Rulebook.inRange_of_fault? a.inRange).2 h.weighted_nonneg
  have hgrain := hundred_grains_le (by linarith : 0 ≤ M)
  have hgM : 0 ≤ grain * M := grain_mul_nonneg (by linarith)
  have hrequiredLe : required.toRat ≤ 2 * M := by
    have := (abs_le.mp (hround.abs_sub_le hM (by rwa [abs_of_nonneg hproduct]))).2
    linarith
  have hpos := toRat_pos_of_epsilon_lt hmore
  have hbelow : 0 < required.toRat - x.equity.toRat := by
    by_contra hle
    have := hlacking.le_of_le (d := 0) (by rw [toRat_zero]; exact not_lt.mp hle)
    rw [toRat_zero] at this
    linarith
  obtain ⟨hlow, hequity⟩ :=
    BalanceSheet.equity_error h.equity h.sheet hM hL (by linarith)
  have hstep := abs_le.mp (hlacking.abs_sub_le (c := 14 * M) (by linarith)
    (by rw [abs_of_nonneg hbelow.le]; linarith))
  rw [abs_le] at hequity
  refine ⟨by linarith [hstep.2], abs_le.mpr ⟨?_, ?_⟩⟩
  · linarith [hstep.1, hequity.2]
  · linarith [hstep.2, hequity.1]

end Shortfall

end Authority

end Insolvency
