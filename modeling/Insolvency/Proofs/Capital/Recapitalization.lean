/-
A bank that is resolved meets its target again.

Both ways of recapitalizing a bank come to the same for an assessment, and `Raised` is what
they have in common: the equity has risen by the shortfall, and no class of assets weighs
more than before.  So no more is required, and what was lacking is there.

A bail-in takes the bank's own shares off its assets and deepens the shortfall by them, so
that they cancel out in the equity; and it lowers what a class weighs, never raises it.  A
bail-out adds to the cash, which is why cash must not weigh anything there.
-/
import Insolvency.Proofs.Bailin.Conservation
import Insolvency.Proofs.Capital.Assessment
import Insolvency.Proofs.Episode.Bailout

namespace Insolvency

open Decimal

/-! ### Books that are raised -/

/-- The equity of some books is raised by an amount, in books of a size, and no class weighs
more. -/
structure BalanceSheet.Raised (w : RiskWeights) (amount : Decimal) (size : ℚ)
    (before after : BalanceSheet) : Prop where
  nonneg : after.Nonneg
  assets_count : after.assets.entryCount ≤ before.assets.entryCount + 1
  liabilities_count : after.liabilities.entryCount ≤ before.liabilities.entryCount
  liabilities_le : after.liabilities.exactTotal ≤ before.liabilities.exactTotal
  lighter : ∀ cls, (after.assets.holding cls).toRat * (w.weight cls).toRat
    ≤ (before.assets.holding cls).toRat * (w.weight cls).toRat
  gain : amount.toRat - (after.exactEquity - before.exactEquity)
    ≤ epsilon.toRat + grain * (24 * (before.liabilities.entryCount * size) + 28 * size)

namespace Authority

variable {a : Authority} {i j : Institution} {before after : Assessment} {M : ℚ}

theorem weighted_le_of_raised (hbefore : a.Assessed i before) (hafter : a.Assessed j after)
    (hraised : i.sheet.Raised a.rulebook.riskWeights before.shortfall M j.sheet) :
    after.riskWeightedAssets.toRat ≤ before.riskWeightedAssets.toRat :=
  RiskWeights.weighted_mono hraised.lighter hafter.weighted hbefore.weighted

/-- **Whoever is raised by its shortfall has hardly any left.** -/
theorem shortfall_le_of_raised (hbefore : a.Assessed i before) (hafter : a.Assessed j after)
    (hraised : i.sheet.Raised a.rulebook.riskWeights before.shortfall M j.sheet)
    (hshort : before.shortfall ≠ 0) (hM : 1 ≤ M) (hL : i.sheet.liabilities.exactTotal ≤ M)
    (hrequired : a.rulebook.target.ratio.toRat * before.riskWeightedAssets.toRat ≤ M) :
    after.shortfall.toRat ≤ epsilon.toRat + grain *
      (40 * ((i.sheet.assets.entryCount + i.sheet.liabilities.entryCount : Nat) * M)
        + 90 * M) := by
  have hgM : 0 ≤ grain * M := grain_mul_nonneg (by linarith)
  have hnA := grain_mul_count_nonneg i.sheet.assets.entryCount (by linarith : 0 ≤ M)
  have hnL := grain_mul_count_nonneg i.sheet.liabilities.entryCount (by linarith : 0 ≤ M)
  push_cast
  by_cases hnone : after.shortfall = 0
  · rw [hnone, toRat_zero]
    linarith [epsilon_nonneg]
  · have hratio := (Rulebook.inRange_of_fault? a.inRange).2
    have hproduct := mul_le_mul_of_nonneg_left (weighted_le_of_raised hbefore hafter hraised) hratio
    obtain ⟨required, hround, -, herror⟩ :=
      hbefore.shortfall_error hshort hM hL hrequired
    obtain ⟨required', hround', -, herror'⟩ :=
      hafter.shortfall_error hnone hM (hraised.liabilities_le.trans hL) (hproduct.trans hrequired)
    have hless : required'.toRat ≤ required.toRat := hround'.mono hround hproduct
    have hassets : grain * (j.sheet.assets.entryCount * M)
        ≤ grain * ((i.sheet.assets.entryCount + 1) * M) := by
      have : (j.sheet.assets.entryCount : ℚ) ≤ i.sheet.assets.entryCount + 1 := by
        exact_mod_cast hraised.assets_count
      have := grain_pos
      gcongr
    have hliabilities : grain * (j.sheet.liabilities.entryCount * M)
        ≤ grain * (i.sheet.liabilities.entryCount * M) := by
      have : (j.sheet.liabilities.entryCount : ℚ) ≤ i.sheet.liabilities.entryCount := by
        exact_mod_cast hraised.liabilities_count
      have := grain_pos
      gcongr
    have hgain := hraised.gain
    linarith [(abs_le.mp herror).1, (abs_le.mp herror').2]

end Authority

/-! ### By the creditors -/

/-- What a bail-in leaves of the assets: no class has more than before. -/
theorem Bailin.Course.Shows.assets_le {bank : Institution} {shortfall : Decimal} {c : Course}
    {f : Figures} (h : c.Shows bank shortfall f) (hassets : bank.sheet.assets.holdings.Nonneg) :
    c.depositsDown.assets.holdings.Nonneg ∧
      c.depositsDown.assets.entryCount ≤ bank.sheet.assets.entryCount + 1 ∧
      ∀ cls, (c.depositsDown.assets.holding cls).toRat ≤ (bank.sheet.assets.holding cls).toRat := by
  rcases h.assets with ⟨-, hsame⟩ | hcredit
  · rw [hsame]
    exact ⟨hassets, Nat.le_succ _, fun _ => le_rfl⟩
  · -- What is taken off the equity holding was in it.
    have hheld : 0 ≤ (bank.sheet.assets.holding .equity).toRat + (-f.removed).toRat := by
      rw [toRat_neg]
      linarith [h.removed_le]
    refine ⟨Assets.nonneg_creditHolding hcredit hassets hheld,
      Assets.entryCount_creditHolding_le hcredit, fun cls => ?_⟩
    obtain ⟨hnew, hothers⟩ := Assets.holding_creditHolding hcredit
    by_cases hcls : cls = .equity
    · rw [hcls]
      refine hnew.le_of_le ?_
      rw [toRat_neg]
      linarith [h.removed_nonneg]
    · rw [hothers cls hcls]

/-- A bail-in that hands out shares raises the bank by its shortfall. -/
theorem Bailin.raised_of_compensateAll {bank : Institution} {shortfall : Decimal} {c : Course}
    {f : Figures} {e : Episode} {ctx ctx' : Context} {w : RiskWeights} {M : ℚ}
    (h : c.Shows bank shortfall f) (hbase : 0 ≤ c.base.toRat) (hsheet : bank.sheet.Nonneg)
    (hshortfall : 0 ≤ shortfall.toRat) (hdone : ¬ 0 < f.afterDeposits)
    (hend : compensateAll bank c.base c.lost c.depositsDown ctx = .ok (e, ctx'))
    (hw : w.fault? = none) (hM : 1 ≤ M) (hA : bank.sheet.assets.exactTotal ≤ M)
    (hL : bank.sheet.liabilities.exactTotal ≤ M) :
    bank.sheet.Raised w shortfall M e.institution.sheet := by
  obtain ⟨hbooks, -⟩ := compensateAll_eq_ok hend h.lost_nonneg h.allotments
  obtain ⟨total, p, hclass⟩ := h.loans
  have hloans := hclass.shrunk
  have hdeposits := h.deposits.shrunk hsheet.deposits
  obtain ⟨hassetsNonneg, hassetsCount, hassetsLe⟩ := h.assets_le hsheet.assets
  have hassets : e.institution.sheet.assets = c.depositsDown.assets := hbooks.assets
  have hliabilities : e.institution.sheet.liabilities = c.depositsDown.liabilities :=
    hbooks.liabilities
  have hequity := (abs_le.mp (h.equity_error hsheet hshortfall hdone hM hA hL)).1
  have hkept : e.institution.sheet.exactEquity = c.depositsDown.institution.sheet.exactEquity := by
    unfold BalanceSheet.exactEquity
    rw [hassets, hliabilities]
    rfl
  exact {
    nonneg := {
      assets := hassets ▸ hassetsNonneg
      loans := hliabilities ▸ hloans.nonneg
      deposits := hliabilities ▸ hdeposits.nonneg
      shares := by
        refine nonneg_shares_compensateAll hend h.lost_nonneg hbase ?_
        rw [h.shares]
        exact Accounts.nonneg_empty }
    assets_count := hassets ▸ hassetsCount
    liabilities_count := by
      rw [hliabilities]
      exact Nat.add_le_add hloans.length_le hdeposits.length_le
    liabilities_le := by
      rw [hliabilities]
      exact add_le_add hloans.exactTotal_le hdeposits.exactTotal_le
    lighter := fun cls => by
      rw [hassets]
      exact mul_le_mul_of_nonneg_right (hassetsLe cls) (RiskWeights.weight_nonneg hw cls)
    gain := by
      rw [hkept]
      linarith }

/-! ### By the government -/

/-- A bail-out that is funded raises the bank by what it is paid. -/
theorem Bailout.raised_of_funded {bank : Institution} {amount : Decimal} {e : Episode}
    {w : RiskWeights} {M : ℚ} (h : Funded bank amount e) (hsheet : bank.sheet.Nonneg)
    (hcash : w.weight .cash = 0) (hamount : 0 ≤ amount.toRat) (hM : 1 ≤ M)
    (hA : bank.sheet.assets.exactTotal ≤ M) (hle : amount.toRat ≤ 15 * M) :
    bank.sheet.Raised w amount M e.institution.sheet := by
  have hcredit := h.assets
  have hliabilities : e.institution.sheet.liabilities = bank.sheet.liabilities := h.liabilities
  have hheld := Accounts.amount_nonneg hsheet.assets AssetClass.cash
  have hheldLe := Accounts.amount_le_exactTotal hsheet.assets AssetClass.cash
  obtain ⟨-, hothers⟩ := Assets.holding_creditHolding hcredit
  exact {
    nonneg := {
      assets := Assets.nonneg_creditHolding hcredit hsheet.assets (add_nonneg hheld hamount)
      loans := hliabilities ▸ hsheet.loans
      deposits := hliabilities ▸ hsheet.deposits
      shares := h.shares }
    assets_count := Assets.entryCount_creditHolding_le hcredit
    liabilities_count := by rw [hliabilities]
    liabilities_le := by rw [hliabilities]
    lighter := fun cls => by
      by_cases hcls : cls = .cash
      · rw [hcls, hcash, toRat_zero, mul_zero, mul_zero]
      · show (e.assets.holding cls).toRat * _ ≤ _
        rw [hothers cls hcls]
    gain := by
      have hgM : 0 ≤ grain * M := grain_mul_nonneg (by linarith)
      have hnL := grain_mul_count_nonneg bank.sheet.liabilities.entryCount (by linarith : 0 ≤ M)
      have hsize : |(bank.sheet.assets.holding .cash).toRat + amount.toRat| ≤ 16 * M := by
        unfold Assets.exactTotal at hA
        unfold Assets.holding
        rw [abs_of_nonneg (add_nonneg hheld hamount)]
        linarith
      have herror := (abs_le.mp (Assets.exactTotal_creditHolding hcredit (by linarith) hsize)).1
      show amount.toRat - ((e.assets.exactTotal - e.institution.sheet.liabilities.exactTotal)
        - (bank.sheet.assets.exactTotal - bank.sheet.liabilities.exactTotal)) ≤ _
      rw [hliabilities]
      linarith [epsilon_nonneg] }

/-! ### The law -/

namespace Authority

variable {a : Authority} {i j : Institution} {before : Assessment}

/-- The tolerance that the shortfall left by an episode keeps to, by the books on entry and what
is required of them. -/
def capitalTolerance (a : Authority) (i : Institution) (before : Assessment) : ℚ :=
  tolerance (i.sheet.assets.entryCount + i.sheet.liabilities.entryCount)
    (max (max i.sheet.assets.exactTotal i.sheet.liabilities.exactTotal)
      (a.rulebook.target.ratio.toRat * before.riskWeightedAssets.toRat))

/-- An institution that was assessed before meets its target again. -/
structure Recapitalized (a : Authority) (i : Institution) (before : Assessment)
    (j : Institution) : Prop where
  /-- Nothing but the arithmetic can keep it from being assessed. -/
  assessable : ∀ err, a.assess j = .error err → ∃ fault, err = .arithmetic fault
  /-- It has no more risk-weighted assets than before. -/
  lighter : ∀ after, a.assess j = .ok after →
    after.riskWeightedAssets.toRat ≤ before.riskWeightedAssets.toRat
  restored : ∀ after, a.assess j = .ok after →
    after.shortfall.toRat ≤ a.capitalTolerance i before

theorem recapitalized_of_raised (hbefore : a.Assessed i before) (hshort : before.shortfall ≠ 0)
    (hraised : ∀ M, 1 ≤ M → i.sheet.assets.exactTotal ≤ M → i.sheet.liabilities.exactTotal ≤ M →
      before.shortfall.toRat ≤ 15 * M →
        i.sheet.Raised a.rulebook.riskWeights before.shortfall M j.sheet) :
    Recapitalized a i before j := by
  set size := max (max i.sheet.assets.exactTotal i.sheet.liabilities.exactTotal)
    (a.rulebook.target.ratio.toRat * before.riskWeightedAssets.toRat)
  have hM : (1 : ℚ) ≤ max 1 size := le_max_left _ _
  have hbooks : max i.sheet.assets.exactTotal i.sheet.liabilities.exactTotal ≤ max 1 size :=
    (le_max_left _ _).trans (le_max_right _ _)
  have hA := (le_max_left _ _).trans hbooks
  have hL := (le_max_right _ _).trans hbooks
  have hrequired : a.rulebook.target.ratio.toRat * before.riskWeightedAssets.toRat ≤ max 1 size :=
    (le_max_right _ _).trans (le_max_right _ _)
  obtain ⟨-, -, hle, -⟩ := hbefore.shortfall_error hshort hM hL hrequired
  have hraised := hraised (max 1 size) hM hA hL hle
  refine ⟨fun err h => assess_eq_error h hraised.nonneg, fun after h => ?_, fun after h => ?_⟩
  · exact weighted_le_of_raised hbefore (assessed_of_assess h) hraised
  · exact le_tolerance (shortfall_le_of_raised hbefore (assessed_of_assess h) hraised hshort hM hL
      hrequired) (by norm_num) (by norm_num)

/-- **Whoever is resolved by a bail-in, or by a bail-out in cash that weighs nothing, meets its
target again.** -/
theorem recapitalized_of_resolve {ctx ctx' : Context} {e : Episode}
    (hpolicy : a.rulebook.policy = .bailin ∨
      (a.rulebook.policy = .bailout ∧ a.rulebook.riskWeights.weight .cash = 0))
    (h : a.resolve i ctx = .ok (e, ctx')) (hprice : ∀ price ∈ ctx.book.price? i.id, 0 ≤ price)
    (hout : e.outcome = .resolved) :
    ∃ before, a.assess i = .ok before ∧ Recapitalized a i before e.institution := by
  unfold resolve at h
  obtain ⟨before, hassess, h⟩ := bind_eq_ok.mp h
  refine ⟨before, hassess, ?_⟩
  have hbefore := assessed_of_assess hassess
  split_ifs at h with hcompliant
  · cases hout.symm.trans (Episode.outcome_of_compliant (pure_eq_ok.mp h))
  have hshort : before.shortfall ≠ 0 := by
    intro hnone
    exact hcompliant (beq_iff_eq.mpr hnone)
  obtain ⟨-, hrun⟩ := Policy.resolve_eq_ok.mp h
  refine recapitalized_of_raised hbefore hshort fun M hM hA hL hle => ?_
  rcases hpolicy with hpolicy | ⟨hpolicy, hcash⟩
  · rw [hpolicy] at hrun
    obtain ⟨c, f, hc, hf, hdone, hend⟩ :=
      Bailin.shows_of_resolved hrun hbefore.sheet hprice hout
    exact Bailin.raised_of_compensateAll hf (Episode.nonneg_of_shareCount hc.count) hbefore.sheet
      hbefore.shortfall_nonneg hdone hend (Rulebook.inRange_of_fault? a.inRange).1 hM hA hL
  · rw [hpolicy] at hrun
    rcases Bailout.run_cases hrun with ⟨-, hr⟩ | ⟨cancelled, hr⟩ | hfunded
    · cases hout.symm.trans (Episode.outcome_of_compliant hr.symm)
    · cases hout.symm.trans (Episode.outcome_of_giveUp hr)
    · exact Bailout.raised_of_funded hfunded hbefore.sheet hcash hbefore.shortfall_nonneg hM hA hle

/-- It asks for more equity than the sample bank has, and has its creditors bring it up. -/
def strictAuthority : Authority := ⟨{ Rulebook.standard with target := ⟨0.6⟩ }, by decide⟩

/-- It asks for as much, and has the government bring it up. -/
def generousAuthority : Authority :=
  ⟨{ Rulebook.standard with target := ⟨0.6⟩, policy := .bailout }, by decide⟩

/-- The sample bank written down, and the sample bank paid for. -/
theorem recapitalized_of_resolve_sampleBank :
    (∃ e ctx' before, strictAuthority.resolve sampleBank sampleContext = .ok (e, ctx') ∧
      e.outcome = .resolved ∧ strictAuthority.assess sampleBank = .ok before ∧
        Recapitalized strictAuthority sampleBank before e.institution) ∧
    ∃ e ctx' before, generousAuthority.resolve sampleBank
      { sampleContext with government := some ⟨"treasury", 500.0, 0⟩ } = .ok (e, ctx') ∧
        e.outcome = .resolved ∧ generousAuthority.assess sampleBank = .ok before ∧
          Recapitalized generousAuthority sampleBank before e.institution := by
  obtain ⟨e, ctx', h, hout⟩ : ∃ e ctx',
      strictAuthority.resolve sampleBank sampleContext = .ok (e, ctx') ∧
        e.outcome = .resolved := ⟨_, _, rfl, rfl⟩
  obtain ⟨e', ctx'', h', hout'⟩ : ∃ e ctx', generousAuthority.resolve sampleBank
      { sampleContext with government := some ⟨"treasury", 500.0, 0⟩ } = .ok (e, ctx') ∧
        e.outcome = .resolved := ⟨_, _, rfl, rfl⟩
  obtain ⟨before, hassess, hdown⟩ :=
    recapitalized_of_resolve (Or.inl rfl) h sampleContext_price_nonneg hout
  obtain ⟨before', hassess', hpaid⟩ :=
    recapitalized_of_resolve (Or.inr ⟨rfl, rfl⟩) h' sampleContext_price_nonneg hout'
  exact ⟨⟨e, ctx', before, h, hout, hassess, hdown⟩,
    ⟨e', ctx'', before', h', hout', hassess', hpaid⟩⟩

end Authority

end Insolvency
