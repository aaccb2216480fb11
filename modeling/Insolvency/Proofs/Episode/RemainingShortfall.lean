/-
What is left of a shortfall, and what is reported of it.

An episode that goes through with a policy raises the equity: a bail-in and a bail-out by the
shortfall, a swap by the loans that are exchanged, an asset threshold by the debts that the
cash does not cover.  Loans paid off are no relief, since the cash is gone with them.  What
is really left of the shortfall is what the relief does not reach.

The reported figure is that for bail-ins and bail-outs.  A swap reports that nothing is left,
whatever its relief comes to, and an asset threshold that everything is.
-/
import Insolvency.Proofs.Bailin.Conservation
import Insolvency.Proofs.Episode.DebtAccounting
import Insolvency.Proofs.Episode.LifeCycle
import Insolvency.Proofs.Episode.Validity
import Mathlib.Algebra.Order.Group.MinMax

namespace Insolvency

open Decimal

variable {i : Institution} {shortfall : Decimal} {ctx ctx' : Context} {e e' : Episode}

namespace Episode

/-- By how much an institution's equity has risen, as a number. -/
def raised (e : Episode) (i : Institution) : ℚ :=
  e.institution.sheet.exactEquity - i.sheet.exactEquity

/-- What is really left of a shortfall. -/
def shortfallLeft (e : Episode) (i : Institution) (shortfall : Decimal) : ℚ :=
  max (shortfall.toRat - e.raised i) 0

theorem SameBooks.raised_eq (h : e.SameBooks e') (i : Institution) : e'.raised i = e.raised i := by
  show e'.assets.exactTotal - e'.liabilities.exactTotal - _ = _
  rw [h.assets, h.liabilities]
  rfl

end Episode

namespace Policy

/-- What a policy raises the equity by, as a number. -/
def relief (p : Policy) (i : Institution) (shortfall : Decimal) (e : Episode) : ℚ :=
  match p with
  | bailin | bailout => shortfall.toRat
  | assetThreshold _ => i.sheet.liabilities.exactTotal
      - (min e.totals.cashPaid i.sheet.assets.cash).toRat
  | debtEquitySwap =>
      if .stocksTerminated ∈ e.trace then i.sheet.liabilities.loans.exactTotal else 0
  | liquidate => 0

/-- What is reported to be left of a shortfall by an episode that goes through with the policy. -/
def reportedLeft (p : Policy) (shortfall : Decimal) : Decimal :=
  match p with
  | bailin | bailout | debtEquitySwap => 0
  | assetThreshold _ | liquidate => shortfall

/-- The size of the figures that the policy works with.  A bail-out adds the shortfall to the cash,
however large it is. -/
def sizeOf (p : Policy) (i : Institution) (shortfall : Decimal) : ℚ :=
  match p with
  | bailout => max (max i.sheet.assets.exactTotal i.sheet.liabilities.exactTotal) shortfall.toRat
  | _ => max i.sheet.assets.exactTotal i.sheet.liabilities.exactTotal

/-- The tolerance that the shortfall left keeps to, by the books on entry. -/
def leftTolerance (p : Policy) (i : Institution) (shortfall : Decimal) : ℚ :=
  tolerance i.sheet.entryCount (p.sizeOf i shortfall)

/-- An episode has gone through with a policy and reports what is left of the shortfall. -/
structure Relieves (p : Policy) (i : Institution) (shortfall : Decimal) (e : Episode) : Prop where
  raised : |e.raised i - p.relief i shortfall e| ≤ p.leftTolerance i shortfall
  reported : e.totals.remainingShortfall = p.reportedLeft shortfall

variable {p : Policy}

/-- A policy whose report is what its relief does not reach reports truthfully. -/
theorem Relieves.truthful (h : p.Relieves i shortfall e)
    (hreport : (p.reportedLeft shortfall).toRat
      = max (shortfall.toRat - p.relief i shortfall e) 0) :
    |e.totals.remainingShortfall.toRat - e.shortfallLeft i shortfall|
      ≤ p.leftTolerance i shortfall := by
  rw [h.reported, hreport, Episode.shortfallLeft]
  refine (abs_max_sub_max_le_abs _ _ _).trans ?_
  rw [sub_sub_sub_cancel_left]
  exact h.raised

theorem leftTolerance_nonneg : 0 ≤ p.leftTolerance i shortfall := by
  unfold leftTolerance
  rw [tolerance_eq]
  linarith [epsilon_nonneg, allowance_nonneg i.sheet.entryCount (p.sizeOf i shortfall)]

/-- Two grains of the size for each entry and two besides are within the tolerance. -/
theorem le_leftTolerance {x : ℚ} {n : Nat} (hn : n ≤ i.sheet.entryCount)
    (hx : x ≤ 2 * grain * ((n + 1) * max 1 (p.sizeOf i shortfall))) :
    x ≤ p.leftTolerance i shortfall := by
  have hone : (1 : ℚ) ≤ max 1 (p.sizeOf i shortfall) := le_max_left _ _
  have hn' : (n : ℚ) ≤ i.sheet.entryCount := by exact_mod_cast hn
  have hgrain := grain_pos
  refine le_tolerance (a := 2) (b := 2) ?_ (by norm_num) (by norm_num)
  calc x ≤ 2 * grain * ((i.sheet.entryCount + 1) * max 1 (p.sizeOf i shortfall)) := by
        refine hx.trans ?_
        gcongr
    _ ≤ _ := by linarith [epsilon_nonneg]

end Policy

open Episode

/-! ### Bail-in -/

theorem Bailin.relieves_of_run {r : Episode × Context} (h : Bailin.run i shortfall ctx = .ok r)
    (hsheet : i.sheet.Nonneg) (hshortfall : 0 ≤ shortfall.toRat)
    (hprice : ∀ price ∈ ctx.book.price? i.id, 0 ≤ price) (hout : r.1.outcome = .resolved) :
    Policy.bailin.Relieves i shortfall r.1 := by
  obtain ⟨c, f, -, hf, hdone, hend⟩ := Bailin.shows_of_resolved h hsheet hprice hout
  have hconserves := Bailin.conserves_of_course hf hsheet hshortfall hdone hend
  refine ⟨hconserves.equity.trans ?_, ?_⟩
  · have hentries : (i.sheet.liabilities.entryCount : ℚ) ≤ i.sheet.entryCount := by
      unfold BalanceSheet.entryCount
      push_cast
      linarith [Nat.cast_nonneg (α := ℚ) i.sheet.assets.entryCount,
        Nat.cast_nonneg (α := ℚ) i.sheet.shares.holders.entries.length]
    unfold Bailin.bankTolerance Policy.leftTolerance Policy.sizeOf tolerance
    rw [max_comm i.sheet.liabilities.exactTotal]
    gcongr
  · obtain ⟨hbooks, -⟩ := Bailin.compensateAll_eq_ok hend hf.lost_nonneg hf.allotments
    rw [hbooks.totals, hf.totals]
    rcases Bailin.leftAfter_eq_ok hf.afterDeposits with ⟨-, hzero⟩ | ⟨-, hpos, -⟩
    · exact hzero
    · refine absurd (lt_iff_toRat.mpr ?_) hdone
      rw [toRat_zero]
      exact toRat_pos_of_epsilon_lt hpos

/-! ### Bail-out -/

/-- Nothing that comes after the payment changes what is left. -/
theorem Bailout.remainingShortfall_of_run {r : Episode × Context}
    (h : Bailout.run i shortfall ctx = .ok r) (hout : r.1.outcome = .resolved) :
    r.1.totals.remainingShortfall = 0 := by
  rcases Bailout.run_course h with ⟨-, rfl⟩ | ⟨-, base, filed, cancelled, -, -, -, h⟩
  · cases hout
  · rcases h with ⟨-, h⟩ |
      ⟨government, paid, injected, allotted, newPrice, -, hinject, hallot, -, rfl⟩
    · cases hout.symm.trans (Episode.outcome_of_giveUp h)
    · simp only [Bailout.inject, bind_eq_ok, pure_eq_ok] at hinject
      obtain ⟨assets, -, rfl⟩ := hinject
      show allotted.totals.remainingShortfall = 0
      rw [(allot_eq_ok hallot).1.totals]
      rfl

theorem Bailout.relieves_of_run {r : Episode × Context} (h : Bailout.run i shortfall ctx = .ok r)
    (hsheet : i.sheet.Nonneg) (hshortfall : 0 ≤ shortfall.toRat)
    (hout : r.1.outcome = .resolved) : Policy.bailout.Relieves i shortfall r.1 := by
  refine ⟨?_, Bailout.remainingShortfall_of_run h hout⟩
  rcases Bailout.run_cases h with ⟨-, rfl⟩ | ⟨e, hr⟩ | hfunded
  · cases hout
  · cases hout.symm.trans (Episode.outcome_of_giveUp hr)
  · set M := max 1 (Policy.bailout.sizeOf i shortfall) with hM
    have hone : (1 : ℚ) ≤ M := le_max_left _ _
    have hsize : max (max i.sheet.assets.exactTotal i.sheet.liabilities.exactTotal)
        shortfall.toRat ≤ M := le_max_right _ _
    have hcash : (i.sheet.assets.holding .cash).toRat ≤ i.sheet.assets.exactTotal :=
      Accounts.amount_le_exactTotal hsheet.assets _
    have hcash0 : 0 ≤ (i.sheet.assets.holding .cash).toRat := Accounts.amount_nonneg hsheet.assets _
    obtain ⟨hbooks, hdue⟩ := max_le_iff.mp hsize
    obtain ⟨hA, -⟩ := max_le_iff.mp hbooks
    have herror := Assets.exactTotal_creditHolding hfunded.assets (c := 2 * M) (by linarith)
      (by rw [abs_of_nonneg (add_nonneg hcash0 hshortfall)]; linarith)
    have hsplit : r.1.raised i - Policy.bailout.relief i shortfall r.1
        = r.1.assets.exactTotal - (i.sheet.assets.exactTotal + shortfall.toRat) := by
      show r.1.assets.exactTotal - r.1.liabilities.exactTotal
        - (i.sheet.assets.exactTotal - i.sheet.liabilities.exactTotal) - shortfall.toRat = _
      rw [hfunded.liabilities]
      ring
    rw [hsplit]
    refine Policy.le_leftTolerance (n := 0) (Nat.zero_le _) (herror.trans ?_)
    rw [← hM]
    have hgM : 0 ≤ grain * M := grain_mul_nonneg (by linarith)
    push_cast
    linarith

/-! ### Debt-for-equity swap -/

namespace DebtEquitySwap

/-- Loans exchanged are off the books, and nothing else changes in them. -/
theorem sameBooks_exchange {totalLoans : Decimal} (h : exchange e totalLoans ctx = .ok (e', ctx')) :
    e'.assets = e.assets ∧ e'.liabilities = e.liabilities.withoutLoans := by
  obtain ⟨count, cancelled, price, exchanged, -, hcancel, -, hfold, hr⟩ := exchange_eq_ok h
  obtain ⟨rfl, -⟩ := Prod.mk.inj hr
  have hcancelled := sameBooks_cancelShares hcancel
  have hexchanged := givesShares_exchangeLoans hfold
  exact ⟨hexchanged.assets.trans hcancelled.assets,
    hexchanged.liabilities.trans hcancelled.liabilities⟩

theorem exactTotal_withoutLoans (l : Liabilities) :
    l.withoutLoans.exactTotal = l.exactTotal - l.loans.exactTotal := by
  show (∅ : Accounts AgentId).exactTotal + l.deposits.exactTotal = _
  rw [Accounts.exactTotal_empty, Liabilities.exactTotal]
  ring

/-- What is paid for the loans is off the cash, but for the rounding of their sum and of the
cash. -/
theorem raised_error_of_repaid {totalLoans : Decimal} (h : Repaid i totalLoans e)
    (htotal : i.sheet.liabilities.loans.total = .ok totalLoans)
    (hcash : totalLoans ≤ i.sheet.assets.cash) (hsheet : i.sheet.Nonneg) :
    |e.raised i| ≤ Policy.debtEquitySwap.leftTolerance i shortfall := by
  set M := max 1 (Policy.debtEquitySwap.sizeOf i shortfall) with hM
  have hone : (1 : ℚ) ≤ M := le_max_left _ _
  have hsize : max i.sheet.assets.exactTotal i.sheet.liabilities.exactTotal ≤ M := le_max_right _ _
  obtain ⟨hA, -⟩ := max_le_iff.mp hsize
  have hheld : (i.sheet.assets.holding .cash).toRat ≤ i.sheet.assets.exactTotal :=
    Accounts.amount_le_exactTotal hsheet.assets _
  have hpaid : totalLoans.toRat ≤ (i.sheet.assets.holding .cash).toRat := le_iff_toRat.mp hcash
  have hpaid0 := Accounts.total_nonneg htotal hsheet.loans
  have hsum := abs_le.mp (Accounts.total_error htotal hsheet.loans hone (by linarith))
  have hcredit := Assets.exactTotal_creditHolding h.assets hone (by
    rw [toRat_neg, abs_of_nonneg (by linarith)]
    linarith)
  rw [toRat_neg] at hcredit
  have hcredit := abs_le.mp hcredit
  have hraised : e.raised i = e.assets.exactTotal - i.sheet.assets.exactTotal
      + i.sheet.liabilities.loans.exactTotal := by
    show e.assets.exactTotal - e.liabilities.exactTotal
      - (i.sheet.assets.exactTotal - i.sheet.liabilities.exactTotal) = _
    rw [h.liabilities, exactTotal_withoutLoans]
    ring
  have hentries : i.sheet.liabilities.loans.entries.length ≤ i.sheet.entryCount := by
    unfold BalanceSheet.entryCount Liabilities.entryCount
    omega
  refine Policy.le_leftTolerance hentries ?_
  rw [← hM, hraised, abs_le]
  have hgM : 0 ≤ grain * M := grain_mul_nonneg (by linarith)
  have hnM := grain_mul_count_nonneg i.sheet.liabilities.loans.entries.length (by linarith : 0 ≤ M)
  constructor
  · linarith [hsum.2, hcredit.1]
  · linarith [hsum.1, hcredit.2]

theorem relieves_of_run {r : Episode × Context} (h : run i shortfall ctx = .ok r)
    (hsheet : i.sheet.Nonneg) (hend : r.1.outcome = .resolved ∨ r.1.outcome = .liquidated) :
    Policy.debtEquitySwap.Relieves i shortfall r.1 := by
  rcases run_cases h with rfl | ⟨e, hr⟩ | hsettled
  · rcases hend with hout | hout
    all_goals cases hout
  · have hflagged := Episode.outcome_of_giveUp hr
    rcases hend with hout | hout
    all_goals cases hflagged.symm.trans hout
  · cases hsettled with
    | @paid opened e totalLoans hopened htotal hcash hrepay =>
        obtain ⟨-, hrepaid⟩ := repaid_of_repay hrepay hopened.institution htotal
        have htrace : .stocksTerminated ∉ ((covered e).conclude .resolved ctx).1.trace := by
          show .stocksTerminated ∉ e.trace ++ _
          rw [trace_of_repay hrepay, hopened.trace]
          decide
        have hcovered : e.SameBooks ((covered e).conclude .resolved ctx).1 := ⟨rfl, rfl⟩
        refine ⟨?_, rfl⟩
        rw [Policy.relief, if_neg htrace, sub_zero, hcovered.raised_eq]
        exact raised_error_of_repaid hrepaid htotal hcash hsheet
    | @swapped opened e ctx'' totalLoans hopened htotal hexchange =>
        have htrace : .stocksTerminated ∈ ((covered e).conclude .resolved ctx'').1.trace := by
          show .stocksTerminated ∈ e.trace ++ _
          rw [(through_exchange hexchange).1.trace, hopened.trace]
          decide
        obtain ⟨hassets, hliabilities⟩ := sameBooks_exchange hexchange
        have hraised : ((covered e).conclude .resolved ctx'').1.raised i
            = i.sheet.liabilities.loans.exactTotal := by
          show e.assets.exactTotal - e.liabilities.exactTotal
            - (i.sheet.assets.exactTotal - i.sheet.liabilities.exactTotal) = _
          rw [hassets, hliabilities, exactTotal_withoutLoans, Episode.assets, Episode.liabilities,
            hopened.institution]
          ring
        refine ⟨?_, rfl⟩
        rw [Policy.relief, if_pos htrace, hraised, sub_self, abs_zero]
        exact Policy.leftTolerance_nonneg

end DebtEquitySwap

/-! ### Asset threshold -/

namespace AssetThreshold

/-- What the creditors got in cash and what is reported to be left are the same. -/
structure SameFigures (e e' : Episode) : Prop where
  assets : e'.assets = e.assets
  cashPaid : e'.totals.cashPaid = e.totals.cashPaid
  left : e'.totals.remainingShortfall = e.totals.remainingShortfall

theorem SameFigures.trans {e'' : Episode} (h : SameFigures e e') (h' : SameFigures e' e'') :
    SameFigures e e'' :=
  ⟨h'.assets.trans h.assets, h'.cashPaid.trans h.cashPaid, h'.left.trans h.left⟩

theorem SameFigures.of_givesShares (h : GivesShares e e') : SameFigures e e' :=
  ⟨h.assets, by rw [h.totals], by rw [h.totals]⟩

theorem sameFigures_handOutShares {debts holdings : List (AgentId × Decimal)}
    {remainingDebt value price : Decimal}
    (h : handOutShares e debts holdings remainingDebt value price ctx = .ok e') :
    SameFigures e e' := by
  obtain ⟨given, settled, hgiven, rfl⟩ := handOutShares_eq_ok h
  exact (SameFigures.of_givesShares hgiven).trans ⟨rfl, rfl, rfl⟩

theorem sameFigures_handOverFirm {debts : List (AgentId × Decimal)} {remainingDebt : Decimal}
    (h : handOverFirm e debts remainingDebt ctx = .ok (e', ctx')) : SameFigures e e' := by
  obtain ⟨count, cancelled, equity, price, hands⟩ := handsOver_of_handOverFirm h
  have htotals := Episode.totals_cancelShares hands.cancelling
  have hcancelled : SameFigures e ((withoutDebts cancelled).publishPrice price ctx).1 := by
    refine ⟨(sameBooks_cancelShares hands.cancelling).assets, ?_, ?_⟩
    · show cancelled.totals.cashPaid = _
      rw [htotals]
    · show cancelled.totals.remainingShortfall = _
      rw [htotals]
  exact hcancelled.trans (.of_givesShares hands.gives)

theorem liabilities_handOutShares {debts holdings : List (AgentId × Decimal)}
    {remainingDebt value price : Decimal}
    (h : handOutShares e debts holdings remainingDebt value price ctx = .ok e') :
    e'.liabilities = ⟨∅, ∅⟩ := by
  obtain ⟨given, settled, -, rfl⟩ := handOutShares_eq_ok h
  rfl

theorem liabilities_handOverFirm {debts : List (AgentId × Decimal)} {remainingDebt : Decimal}
    (h : handOverFirm e debts remainingDebt ctx = .ok (e', ctx')) : e'.liabilities = ⟨∅, ∅⟩ := by
  obtain ⟨count, cancelled, equity, price, hands⟩ := handsOver_of_handOverFirm h
  exact hands.gives.liabilities

/-- However the episode ends, the debts are gone, and beside what was paid in cash nothing else. -/
theorem sameFigures_of_run {c : Course} {r : Episode × Context}
    (hrun : (c.remainingDebt ≤ .epsilon ∧ r = (withoutDebts c.paid).conclude .resolved ctx) ∨
      (.epsilon < c.remainingDebt ∧ settleRest c.paid c.debts c.remainingDebt ctx = .ok r)) :
    SameFigures c.paid r.1 ∧ r.1.liabilities = ⟨∅, ∅⟩ := by
  rcases hrun with ⟨-, rfl⟩ | ⟨-, hrest⟩
  · exact ⟨⟨rfl, rfl, rfl⟩, rfl⟩
  · rcases settleRest_cases hrest with ⟨value, handed, -, hhand, rfl⟩ | ⟨handed, ctx'', hhand, rfl⟩
    · have hnone := liabilities_handOutShares hhand
      exact ⟨(sameFigures_handOutShares hhand).trans ⟨rfl, rfl, rfl⟩, hnone⟩
    · have hnone := liabilities_handOverFirm hhand
      exact ⟨(sameFigures_handOverFirm hhand).trans ⟨rfl, rfl, rfl⟩, hnone⟩

theorem relieves_of_run {cash : CashRule} {r : Episode × Context}
    (h : run cash i shortfall ctx = .ok r) (hsheet : i.sheet.Nonneg)
    (hend : r.1.outcome = .resolved ∨ r.1.outcome = .liquidated) :
    (Policy.assetThreshold cash).Relieves i shortfall r.1 := by
  rcases run_cases h with rfl | ⟨c, hc, hrun⟩
  · rcases hend with hout | hout
    all_goals cases hout
  · obtain ⟨paid, hshared⟩ := hc.cashShared hsheet
    obtain ⟨hsame, hnone⟩ := sameFigures_of_run hrun
    have hpaid0 : 0 ≤ paid.toRat := sum_nonneg (hc.split hshared hsheet).paid_nonneg hshared.total
    have hcash : r.1.totals.cashPaid = paid := by rw [hsame.cashPaid, hshared.totals]
    refine ⟨?_, by rw [hsame.left, hshared.totals]; rfl⟩
    set M := max 1 ((Policy.assetThreshold cash).sizeOf i shortfall) with hM
    have hone : (1 : ℚ) ≤ M := le_max_left _ _
    have hsize : max i.sheet.assets.exactTotal i.sheet.liabilities.exactTotal ≤ M :=
      le_max_right _ _
    obtain ⟨hA, -⟩ := max_le_iff.mp hsize
    have hheld : (i.sheet.assets.holding .cash).toRat ≤ i.sheet.assets.exactTotal :=
      Accounts.amount_le_exactTotal hsheet.assets _
    have hheld0 : 0 ≤ (i.sheet.assets.holding .cash).toRat := Accounts.amount_nonneg hsheet.assets _
    have hcredit : i.sheet.assets.creditHolding .cash (-min paid i.sheet.assets.cash)
        = .ok c.paid.assets := hshared.assets
    have herror := Assets.exactTotal_creditHolding hcredit hone (by
      rw [toRat_neg, toRat_min]
      have hspent : 0 ≤ min paid.toRat i.sheet.assets.cash.toRat := le_min hpaid0 hheld0
      have hleft : min paid.toRat i.sheet.assets.cash.toRat
        ≤ (i.sheet.assets.holding .cash).toRat := min_le_right _ _
      rw [abs_of_nonneg (by linarith)]
      linarith)
    rw [toRat_neg] at herror
    have hraised : r.1.raised i - (Policy.assetThreshold cash).relief i shortfall r.1
        = c.paid.assets.exactTotal
          - (i.sheet.assets.exactTotal + -(min paid i.sheet.assets.cash).toRat) := by
      show r.1.assets.exactTotal - r.1.liabilities.exactTotal
        - (i.sheet.assets.exactTotal - i.sheet.liabilities.exactTotal)
        - (i.sheet.liabilities.exactTotal - (min r.1.totals.cashPaid _).toRat) = _
      rw [hnone, hsame.assets, hcash]
      show _ - ((∅ : Accounts AgentId).exactTotal + (∅ : Accounts AgentId).exactTotal) - _ - _ = _
      rw [Accounts.exactTotal_empty]
      ring
    rw [hraised]
    refine Policy.le_leftTolerance (n := 0) (Nat.zero_le _) (herror.trans ?_)
    rw [← hM]
    have hgM : 0 ≤ grain * M := grain_mul_nonneg (by linarith)
    push_cast
    linarith

end AssetThreshold

/-! ### All policies -/

namespace Policy

theorem relieves_of_run {p : Policy} {r : Episode × Context} (h : p.run i shortfall ctx = .ok r)
    (hsheet : i.sheet.Nonneg) (hshortfall : 0 ≤ shortfall.toRat)
    (hprice : ∀ price ∈ ctx.book.price? i.id, 0 ≤ price)
    (hend : r.1.outcome = .resolved ∨ r.1.outcome = .liquidated) : p.Relieves i shortfall r.1 := by
  cases p with
  | bailin =>
      refine Bailin.relieves_of_run h hsheet hshortfall hprice (hend.resolve_right fun hout => ?_)
      rcases Bailin.run_cases h with ⟨-, rfl⟩ | ⟨c, -, ⟨-, hr⟩ | ⟨-, hr⟩⟩
      · cases hout
      · cases hout.symm.trans (Episode.outcome_of_giveUp hr)
      · cases hout.symm.trans (Bailin.compensateAll_outcome hr)
  | assetThreshold cash => exact AssetThreshold.relieves_of_run h hsheet hend
  | bailout =>
      refine Bailout.relieves_of_run h hsheet hshortfall (hend.resolve_right fun hout => ?_)
      rcases Bailout.run_cases h with ⟨-, rfl⟩ | ⟨e, hr⟩ | hfunded
      · cases hout
      · cases hout.symm.trans (Episode.outcome_of_giveUp hr)
      · cases hout.symm.trans hfunded.outcome
  | debtEquitySwap => exact DebtEquitySwap.relieves_of_run h hsheet hend
  | liquidate =>
      rcases flag_cases h with ⟨-, rfl⟩ | ⟨-, filed, -, rfl⟩
      all_goals
        rcases hend with hout | hout
        all_goals cases hout

/-- **What is reported to be left of a shortfall.**  Each policy has its relief and its report.  The
report is true for bail-ins and bail-outs, and for swaps that relieve the firm of all that it is
short of. -/
theorem remainingShortfall_of_resolve {p : Policy}
    (h : p.resolve i shortfall ctx = .ok (e, ctx'))
    (hprice : ∀ price ∈ ctx.book.price? i.id, 0 ≤ price)
    (hend : e.outcome = .resolved ∨ e.outcome = .liquidated) :
    p.Relieves i shortfall e ∧
      (p = .bailin ∨ p = .bailout ∨
          p = .debtEquitySwap ∧ shortfall.toRat ≤ p.relief i shortfall e →
        |e.totals.remainingShortfall.toRat - e.shortfallLeft i shortfall|
          ≤ p.leftTolerance i shortfall) := by
  obtain ⟨hnone, hrun⟩ := resolve_eq_ok.mp h
  obtain ⟨hsheet, hshortfall⟩ := inOrder_of_objection? hnone
  have hrelieves := relieves_of_run hrun hsheet hshortfall hprice hend
  refine ⟨hrelieves, fun hpolicy => hrelieves.truthful ?_⟩
  have hcovered : p.reportedLeft shortfall = 0 ∧ shortfall.toRat ≤ p.relief i shortfall e := by
    rcases hpolicy with rfl | rfl | ⟨rfl, hcovers⟩
    · exact ⟨rfl, le_rfl⟩
    · exact ⟨rfl, le_rfl⟩
    · exact ⟨rfl, hcovers⟩
  rw [hcovered.1, toRat_zero, max_eq_right (sub_nonpos.mpr hcovered.2)]

theorem remainingShortfall_of_resolve_sampleBank : ∃ e ctx',
    Policy.bailin.resolve sampleBank 700.0 sampleContext = .ok (e, ctx') ∧
      e.outcome = .resolved ∧ Policy.bailin.Relieves sampleBank 700.0 e ∧
      |e.totals.remainingShortfall.toRat - e.shortfallLeft sampleBank 700.0|
        ≤ Policy.bailin.leftTolerance sampleBank 700.0 := by
  obtain ⟨e, ctx', h, hout⟩ : ∃ e ctx',
      Policy.bailin.resolve sampleBank 700.0 sampleContext = .ok (e, ctx') ∧
        e.outcome = .resolved := ⟨_, _, rfl, rfl⟩
  obtain ⟨hrelieves, htruthful⟩ :=
    remainingShortfall_of_resolve h sampleContext_price_nonneg (Or.inl hout)
  exact ⟨e, ctx', h, hout, hrelieves, htruthful (Or.inl rfl)⟩

/-- A swap that only pays the loans off reports that nothing is left of the shortfall, and all of it
is; an asset threshold reports that all of it is left, and more than half of it is covered by the
debts that are cancelled. -/
theorem untruthful_of_resolve_sampleFirm :
    (∃ e ctx', debtEquitySwap.resolve sampleFirm 700.0 sampleContext = .ok (e, ctx') ∧
      e.outcome = .resolved ∧ e.totals.remainingShortfall = 0 ∧
      e.shortfallLeft sampleFirm 700.0 = 700 ∧
      debtEquitySwap.leftTolerance sampleFirm 700.0
        < |e.totals.remainingShortfall.toRat - e.shortfallLeft sampleFirm 700.0|) ∧
    ∃ e ctx', (assetThreshold (.cashFraction 0.5)).resolve sampleFirm 700.0 sampleContext
        = .ok (e, ctx') ∧
      e.outcome = .liquidated ∧ e.totals.remainingShortfall = 700.0 ∧
      e.shortfallLeft sampleFirm 700.0 = 300 ∧
      (assetThreshold (.cashFraction 0.5)).leftTolerance sampleFirm 700.0
        < |e.totals.remainingShortfall.toRat - e.shortfallLeft sampleFirm 700.0| := by
  refine ⟨⟨_, _, rfl, rfl, rfl, ?_, ?_⟩, ⟨_, _, rfl, rfl, ?_, ?_, ?_⟩⟩
  all_goals decide +kernel

end Policy

end Insolvency
