/-
What an episode leaves alone.

The books are one ledger beside another, and an episode changes them through steps that sweep
entries of nothing out of whatever they touch.  So what is left alone is told by the amounts:
each policy has accounts that it never changes, on none of its endings
(`leavesAlone_of_resolve`).  Of the assets it is at most one class that changes, the equity
assets in a bail-in and cash in the others, and where creditors are paid in cash, what is left
of it is the cash less what was paid.

What an episode does to liabilities it may do in many small steps, each of them rounded.  An
asset-threshold episode does not have to come out even with them: at its end it strikes out
all that is left.
-/
import Insolvency.Proofs.Bailin.Agreement
import Insolvency.Proofs.Episode.RemainingShortfall

namespace Insolvency

open Decimal Episode

variable {i : Institution} {shortfall : Decimal} {ctx ctx' : Context} {e e' : Episode}

/-! ### Assets with one class changed -/

/-- No class of assets is different but this one. -/
def Assets.SameBut (cls : AssetClass) (a b : Assets) : Prop := ∀ c ≠ cls, b.holding c = a.holding c

theorem Assets.SameBut.of_eq {cls : AssetClass} {a b : Assets} (h : b = a) : a.SameBut cls b :=
  fun _ _ => h ▸ rfl

theorem Assets.sameBut_creditHolding {cls : AssetClass} {a b : Assets} {v : Decimal}
    (h : a.creditHolding cls v = .ok b) : a.SameBut cls b := (add_of_creditHolding h).2

theorem Episode.sheet_of_giveUp {r : Episode × Context} (h : e.giveUp i ctx = .ok r) :
    r.1.institution.sheet = i.sheet := by
  rw [(flagged_of_giveUp h).institution]

/-! ### Bail-in -/

/-- A bail-in changes no asset but the institution's equity assets, these only if they were its
own shares, and does not overdraw them. -/
structure Bailin.LeavesAlone (bank : Institution) (e : Episode) : Prop where
  assets : bank.sheet.assets.SameBut .equity e.assets
  equity : bank.sheet.shares.held bank.agentId = 0 →
    e.assets.holding .equity = bank.sheet.assets.holding .equity
  equity_nonneg : 0 ≤ e.assets.holding .equity

/-- A bail-out changes no liability and no asset but cash. -/
structure Bailout.LeavesAlone (bank : Institution) (e : Episode) : Prop where
  liabilities : e.liabilities = bank.sheet.liabilities
  assets : bank.sheet.assets.SameBut .cash e.assets

/-- A debt-for-equity swap changes no deposit; where the loans are paid off, no share account
and no asset but cash, and where they are swapped, no asset at all. -/
structure DebtEquitySwap.LeavesAlone (firm : Institution) (e : Episode) : Prop where
  deposits : e.liabilities.deposits = firm.sheet.liabilities.deposits
  paid : .cashCompensated ∈ e.trace →
    e.shares = firm.sheet.shares ∧ firm.sheet.assets.SameBut .cash e.assets
  swapped : .stocksTerminated ∈ e.trace → e.assets = firm.sheet.assets

/-- An asset-threshold episode changes no asset but cash, by what was paid of it, and leaves no
liability unless there was nothing to do. -/
structure AssetThreshold.LeavesAlone (firm : Institution) (e : Episode) : Prop where
  assets : firm.sheet.assets.SameBut .cash e.assets
  cash : firm.sheet.assets.cash.sub (min e.totals.cashPaid firm.sheet.assets.cash)
    = .ok e.assets.cash
  liabilities : e.outcome ≠ .compliant → e.liabilities = ⟨∅, ∅⟩

/-- What each policy leaves alone of an institution's books. -/
def Policy.LeavesAlone (p : Policy) (i : Institution) (e : Episode) : Prop :=
  match p with
  | bailin => Bailin.LeavesAlone i e
  | assetThreshold _ => AssetThreshold.LeavesAlone i e
  | bailout => Bailout.LeavesAlone i e
  | debtEquitySwap => DebtEquitySwap.LeavesAlone i e
  | liquidate => e.institution.sheet = i.sheet

namespace Bailin

theorem leavesAlone_of_sheet (h : e.institution.sheet = i.sheet) (hi : i.sheet.Nonneg) :
    LeavesAlone i e := by
  have hassets : e.assets = i.sheet.assets := congrArg BalanceSheet.assets h
  exact {
    assets := .of_eq hassets
    equity := fun _ => hassets ▸ rfl
    equity_nonneg := zero_le_iff.mpr (hassets ▸ Accounts.amount_nonneg hi.assets .equity) }

/-- Taking self-held shares off the equity assets takes nothing where nothing was held. -/
theorem sameBut_removeSelfHeld {held : Option Decimal} {price : Decimal}
    (h : removeSelfHeld e held price = .ok e') (hassets : e.assets.holdings.Nonneg) :
    e.assets.SameBut .equity e'.assets ∧
      (held.getD 0 = 0 → e'.assets.holding .equity = e.assets.holding .equity) := by
  cases held with
  | none =>
      obtain rfl := pure_eq_ok.mp h
      exact ⟨.of_eq rfl, fun _ => rfl⟩
  | some quantity =>
      simp only [removeSelfHeld, selfHeldValue, bind_eq_ok, pure_eq_ok] at h
      obtain ⟨removed, ⟨value, hvalue, rfl⟩, assets, hcredit, remaining, -, due, -, rfl⟩ := h
      refine ⟨Assets.sameBut_creditHolding hcredit, fun hzero => ?_⟩
      obtain rfl : quantity = 0 := hzero
      obtain rfl := Except.ok.inj ((zero_mul_eq_ok price).symm.trans hvalue)
      have hequity : 0 ≤ (e.assets.holding .equity).toRat := Accounts.amount_nonneg hassets .equity
      rw [zero_min hequity] at hcredit
      have hsum := (Assets.add_of_creditHolding hcredit).1
      exact (Except.ok.inj ((add_zero_eq_ok _).symm.trans hsum)).symm

theorem leavesAlone_of_run {r : Episode × Context} (h : run i shortfall ctx = .ok r)
    (hi : i.sheet.Nonneg) : LeavesAlone i r.1 := by
  rcases run_cases h with ⟨-, rfl⟩ | ⟨c, hc, ⟨-, hr⟩ | ⟨-, hr⟩⟩
  · exact leavesAlone_of_sheet rfl hi
  · exact leavesAlone_of_sheet (sheet_of_giveUp hr) hi
  · obtain ⟨filed, hfiled, hcancel⟩ := hc.cancelling
    obtain ⟨claims, -, rfl⟩ := Episode.fileClaims_eq_ok.mp hfiled
    have hleaves := hc.leaves hi
    have hsame := (sameBooks_compensateAll hr hleaves.lost_nonneg).assets
    simp only [cancelSharesAtCost, bind_eq_ok, pure_eq_ok] at hcancel
    obtain ⟨gone, hgone, removed, hremoved, hcancelled⟩ := hcancel
    have hbooks := (sameBooks_cancelShares hgone).assets
    have hassets : r.1.assets = removed.assets := by
      rw [hsame, hc.assets_depositsDown, ← hcancelled]
      rfl
    obtain ⟨hothers, hequity⟩ := sameBut_removeSelfHeld hremoved (hbooks ▸ hi.assets)
    rw [← hassets, hbooks] at hothers hequity
    exact {
      assets := hothers
      equity := hequity
      equity_nonneg := by
        rw [zero_le_iff, hsame]
        exact Accounts.amount_nonneg hleaves.assets .equity }

end Bailin

/-! ### Bail-out -/

namespace Bailout

theorem leavesAlone_of_sheet (h : e.institution.sheet = i.sheet) : LeavesAlone i e where
  liabilities := congrArg BalanceSheet.liabilities h
  assets := .of_eq (congrArg BalanceSheet.assets h)

theorem leavesAlone_of_run {r : Episode × Context} (h : run i shortfall ctx = .ok r) :
    LeavesAlone i r.1 := by
  rcases run_cases h with ⟨-, rfl⟩ | ⟨given, hr⟩ | hfunded
  · exact leavesAlone_of_sheet rfl
  · exact leavesAlone_of_sheet (sheet_of_giveUp hr)
  · exact ⟨hfunded.liabilities, Assets.sameBut_creditHolding hfunded.assets⟩

end Bailout

/-! ### Debt-for-equity swap -/

namespace DebtEquitySwap

theorem leavesAlone_of_sheet (h : e.institution.sheet = i.sheet) : LeavesAlone i e where
  deposits := congrArg (fun s => s.liabilities.deposits) h
  paid := fun _ => ⟨congrArg BalanceSheet.shares h, .of_eq (congrArg BalanceSheet.assets h)⟩
  swapped := fun _ => congrArg BalanceSheet.assets h

theorem leavesAlone_of_run {r : Episode × Context} (h : run i shortfall ctx = .ok r) :
    LeavesAlone i r.1 := by
  rcases run_cases h with rfl | ⟨given, hr⟩ | hsettled
  · exact leavesAlone_of_sheet rfl
  · exact leavesAlone_of_sheet (sheet_of_giveUp hr)
  · cases hsettled with
    | @paid opened paid totalLoans hopened htotal hcash hrepay =>
        obtain ⟨hshares, hrepaid⟩ := repaid_of_repay hrepay hopened.institution htotal
        have htrace : ((covered paid).conclude .resolved ctx).1.trace
            = [.start, .cashCompensated, .resolved] := by
          show paid.trace ++ _ = _
          rw [trace_of_repay hrepay, hopened.trace]
          rfl
        refine ⟨?_, fun _ => ⟨?_, Assets.sameBut_creditHolding hrepaid.assets⟩, fun hswapped => ?_⟩
        · show paid.liabilities.deposits = _
          rw [hrepaid.liabilities]
          rfl
        · exact (hopened.sameShares.trans hshares).shares
        · rw [htrace] at hswapped
          exact absurd hswapped (by decide)
    | @swapped opened swapped ctx' totalLoans hopened htotal hexchange =>
        obtain ⟨hassets, hliabilities⟩ := sameBooks_exchange hexchange
        have htrace : ((covered swapped).conclude .resolved ctx').1.trace
            = [.start, .loansWrittenDown, .stocksTerminated, .sharesIssued, .resolved] := by
          show swapped.trace ++ _ = _
          rw [(through_exchange hexchange).1.trace, hopened.trace]
          rfl
        have hfirm := congrArg Institution.sheet hopened.institution
        refine ⟨?_, fun hpaid => ?_, fun _ => ?_⟩
        · show swapped.liabilities.deposits = _
          rw [hliabilities]
          exact congrArg (fun s => s.liabilities.deposits) hfirm
        · rw [htrace] at hpaid
          exact absurd hpaid (by decide)
        · exact hassets.trans (congrArg BalanceSheet.assets hfirm)

end DebtEquitySwap

/-! ### Asset threshold -/

namespace AssetThreshold

theorem leavesAlone_compliant (hi : i.sheet.Nonneg) : LeavesAlone i (.compliant i) where
  assets := .of_eq rfl
  cash := by
    have hcash : 0 ≤ i.sheet.assets.cash.toRat := Accounts.amount_nonneg hi.assets .cash
    show i.sheet.assets.cash.sub (min 0 i.sheet.assets.cash) = .ok i.sheet.assets.cash
    rw [zero_min hcash, sub_zero_eq_ok]
  liabilities := fun h => absurd rfl h

theorem leavesAlone_of_run {cash : CashRule} {r : Episode × Context}
    (h : run cash i shortfall ctx = .ok r) (hi : i.sheet.Nonneg) : LeavesAlone i r.1 := by
  rcases run_cases h with rfl | ⟨c, hc, hend⟩
  · exact leavesAlone_compliant hi
  · obtain ⟨paid, hshared⟩ := hc.cashShared hi
    obtain ⟨hsame, hnone⟩ := sameFigures_of_run hend
    have hcredit : i.sheet.assets.creditHolding .cash (-min paid i.sheet.assets.cash)
        = .ok r.1.assets := by
      rw [hsame.assets]
      exact hshared.assets
    have hpaid : r.1.totals.cashPaid = paid := by rw [hsame.cashPaid, hshared.totals]
    obtain ⟨hleft, hothers⟩ := Assets.add_of_creditHolding hcredit
    rw [add_neg_eq_ok, ← hpaid] at hleft
    exact ⟨hothers, hleft, fun _ => hnone⟩

end AssetThreshold

/-! ### Any policy -/

namespace Policy

theorem sheet_of_flag {r : Episode × Context} (h : flag i shortfall ctx = .ok r) :
    r.1.institution.sheet = i.sheet := by
  rcases flag_cases h with ⟨-, rfl⟩ | ⟨-, filed, hfiled, rfl⟩
  · rfl
  · obtain ⟨claims, -, rfl⟩ := Episode.fileClaims_eq_ok.mp hfiled
    rfl

/-- **Each policy leaves alone what is not its own.**  On every ending, entry by entry: a bail-in
all assets but the equity assets that are the institution's own shares, a bail-out all
liabilities and all assets but cash, a swap all deposits and at most cash of the assets, an
asset-threshold episode all assets but the cash that is paid, and a liquidation everything. -/
theorem leavesAlone_of_resolve {p : Policy} (h : p.resolve i shortfall ctx = .ok (e, ctx')) :
    p.LeavesAlone i e := by
  obtain ⟨hnone, hrun⟩ := Policy.resolve_eq_ok.mp h
  obtain ⟨hi, -⟩ := Policy.inOrder_of_objection? hnone
  cases p with
  | bailin => exact Bailin.leavesAlone_of_run hrun hi
  | assetThreshold cash => exact AssetThreshold.leavesAlone_of_run hrun hi
  | bailout => exact Bailout.leavesAlone_of_run hrun
  | debtEquitySwap => exact DebtEquitySwap.leavesAlone_of_run hrun
  | liquidate => exact sheet_of_flag hrun

/-- A bail-in that takes the bank's own shares off its equity assets, a firm handed to its
creditors, and one that pays off its loan. -/
theorem leavesAlone_of_resolve_sampleBank :
    (∃ e ctx', bailin.resolve sampleBank 700.0 sampleContext = .ok (e, ctx') ∧
      e.assets.holding .equity = 180.0 ∧ bailin.LeavesAlone sampleBank e) ∧
    (∃ e ctx', (assetThreshold (.cashFraction 0.5)).resolve sampleFirm 700.0 sampleContext
        = .ok (e, ctx') ∧
      e.outcome = .liquidated ∧ (assetThreshold (.cashFraction 0.5)).LeavesAlone sampleFirm e) ∧
    ∃ e ctx', debtEquitySwap.resolve sampleFirm 700.0 sampleContext = .ok (e, ctx') ∧
      .cashCompensated ∈ e.trace ∧ debtEquitySwap.LeavesAlone sampleFirm e := by
  obtain ⟨e₁, ctx₁, h₁, hequity⟩ : ∃ e ctx',
      bailin.resolve sampleBank 700.0 sampleContext = .ok (e, ctx') ∧
        e.assets.holding .equity = 180.0 := ⟨_, _, rfl, rfl⟩
  obtain ⟨e₂, ctx₂, h₂, hliquidated⟩ : ∃ e ctx',
      (assetThreshold (.cashFraction 0.5)).resolve sampleFirm 700.0 sampleContext = .ok (e, ctx') ∧
        e.outcome = .liquidated := ⟨_, _, rfl, rfl⟩
  obtain ⟨e₃, ctx₃, h₃, hpaid⟩ : ∃ e ctx',
      debtEquitySwap.resolve sampleFirm 700.0 sampleContext = .ok (e, ctx') ∧
        .cashCompensated ∈ e.trace := ⟨_, _, rfl, by decide⟩
  exact ⟨⟨e₁, ctx₁, h₁, hequity, leavesAlone_of_resolve h₁⟩,
    ⟨e₂, ctx₂, h₂, hliquidated, leavesAlone_of_resolve h₂⟩,
    ⟨e₃, ctx₃, h₃, hpaid, leavesAlone_of_resolve h₃⟩⟩

end Policy

end Insolvency
