/-
Every policy leaves valid books.

On the way through an episode books need not be valid: while creditors share the cash, a
deposit can be paid more than is left of it.  What makes the result valid is a cap at each
place where something is taken off: self-held shares by the equity assets, cash by what is
on hand, loans paid off by a test beforehand, write-downs by a factor between nothing and
one.  Debts that a cap does not cover are cancelled whole.  Shares are seen to already.
-/
import Insolvency.Proofs.Episode.GivingShares
import Insolvency.Proofs.Shares.Policies

namespace Insolvency

open Decimal

variable {i : Institution} {shortfall : Decimal} {ctx ctx' : Context} {e e' : Episode}

/-! ### Steps that leave assets and liabilities alone -/

namespace Episode

/-- Assets and liabilities are the same. -/
structure SameBooks (e e' : Episode) : Prop where
  assets : e'.assets = e.assets
  liabilities : e'.liabilities = e.liabilities

theorem SameBooks.trans {e e' e'' : Episode} (h : SameBooks e e') (h' : SameBooks e' e'') :
    SameBooks e e'' :=
  ⟨h'.assets.trans h.assets, h'.liabilities.trans h.liabilities⟩

theorem GivesShares.sameBooks (h : GivesShares e e') : SameBooks e e' := ⟨h.assets, h.liabilities⟩

theorem sameBooks_cancelShares {price : Decimal} (h : e.cancelShares price = .ok e') :
    SameBooks e e' := by
  obtain ⟨lost, -, rfl⟩ := cancelShares_eq_ok.mp h
  exact ⟨rfl, rfl⟩

end Episode

open Episode

/-! ### What is owned and owed at the end -/

/-- Nothing owned or owed is below nothing. -/
structure Episode.ValidBooks (e : Episode) : Prop where
  assets : e.assets.holdings.Nonneg
  loans : e.liabilities.loans.Nonneg
  deposits : e.liabilities.deposits.Nonneg

theorem BalanceSheet.Nonneg.validBooks (h : i.sheet.Nonneg) (he : e.institution.sheet = i.sheet) :
    e.ValidBooks where
  assets := by
    rw [Episode.assets, he]
    exact h.assets
  loans := by
    rw [Episode.liabilities, he]
    exact h.loans
  deposits := by
    rw [Episode.liabilities, he]
    exact h.deposits

theorem Episode.ValidBooks.congr (h : e.ValidBooks) (hsame : e.SameBooks e') : e'.ValidBooks where
  assets := hsame.assets ▸ h.assets
  loans := hsame.liabilities ▸ h.loans
  deposits := hsame.liabilities ▸ h.deposits

theorem Episode.validBooks_giveUp {r : Episode × Context} (h : e.giveUp i ctx = .ok r)
    (hi : i.sheet.Nonneg) : r.1.ValidBooks :=
  hi.validBooks (by rw [(flagged_of_giveUp h).institution])

/-- Taking off no more than there is leaves nothing below nothing. -/
theorem Assets.nonneg_creditHolding_neg {a b : Assets} {cls : AssetClass} {v : Decimal}
    (h : a.creditHolding cls (-v) = .ok b) (ha : a.holdings.Nonneg)
    (hv : v.toRat ≤ (a.holding cls).toRat) : b.holdings.Nonneg := by
  refine Assets.nonneg_creditHolding h ha ?_
  rw [toRat_neg]
  linarith

/-- Compensating the losers of a bail-in leaves what is owned and owed alone. -/
theorem Bailin.sameBooks_compensateAll {base : Decimal} {lost : List (AgentId × Decimal)}
    {r : Episode × Context} (h : Bailin.compensateAll i base lost e ctx = .ok r)
    (hlost : AllNonneg (lost.map Prod.snd)) : SameBooks e r.1 := by
  simp only [Bailin.compensateAll, bind_eq_ok, pure_eq_ok] at h
  obtain ⟨⟨recorded, writeDowns⟩, hrecord, total, -, handed, hfold, price, -, rfl⟩ := h
  have hrecorded : SameBooks e recorded := by
    rw [(Bailin.recorded_of_foldlM hrecord Accounts.nonneg_empty hlost).books]
    exact ⟨rfl, rfl⟩
  have hhanded := foldlM_related GivesShares.refl .trans hfold fun _ _ _ _ =>
    Bailin.givesShares_compensate
  exact (hrecorded.trans hhanded.sameBooks).trans ⟨rfl, rfl⟩

theorem Bailin.validBooks_of_run {r : Episode × Context} (h : Bailin.run i shortfall ctx = .ok r)
    (hi : i.sheet.Nonneg) : r.1.ValidBooks := by
  rcases Bailin.run_cases h with ⟨-, rfl⟩ | ⟨c, hc, ⟨-, hr⟩ | ⟨-, hr⟩⟩
  · exact hi.validBooks rfl
  · exact validBooks_giveUp hr hi
  · have hleaves := hc.leaves hi
    have hdown : c.depositsDown.ValidBooks := ⟨hleaves.assets, hleaves.loans, hleaves.deposits⟩
    exact hdown.congr (sameBooks_compensateAll hr hleaves.lost_nonneg)

theorem Bailout.validBooks_of_run {r : Episode × Context} (h : Bailout.run i shortfall ctx = .ok r)
    (hi : i.sheet.Nonneg) (hshortfall : 0 ≤ shortfall.toRat) : r.1.ValidBooks := by
  rcases Bailout.run_cases h with ⟨-, rfl⟩ | ⟨e, hr⟩ | hfunded
  · exact hi.validBooks rfl
  · exact validBooks_giveUp hr hi
  · exact {
      assets := Assets.nonneg_creditHolding hfunded.assets hi.assets
        (add_nonneg (Accounts.amount_nonneg hi.assets _) hshortfall)
      loans := by
        rw [hfunded.liabilities]
        exact hi.loans
      deposits := by
        rw [hfunded.liabilities]
        exact hi.deposits }

theorem DebtEquitySwap.validBooks_of_run {r : Episode × Context}
    (h : DebtEquitySwap.run i shortfall ctx = .ok r) (hi : i.sheet.Nonneg) : r.1.ValidBooks := by
  rcases DebtEquitySwap.run_cases h with rfl | ⟨e, hr⟩ | hsettled
  · exact hi.validBooks rfl
  · exact validBooks_giveUp hr hi
  · cases hsettled with
    | @paid opened e totalLoans hopened htotal hcash hrepay =>
        obtain ⟨-, hrepaid⟩ := repaid_of_repay hrepay hopened.institution htotal
        have hend : e.ValidBooks := {
          assets := Assets.nonneg_creditHolding_neg hrepaid.assets hi.assets
            (le_iff_toRat.mp hcash)
          loans := by
            rw [hrepaid.liabilities]
            exact Accounts.nonneg_empty
          deposits := by
            rw [hrepaid.liabilities]
            exact hi.deposits }
        exact hend.congr ⟨rfl, rfl⟩
    | @swapped opened _ _ totalLoans hopened _ hexchange =>
        obtain ⟨count, cancelled, price, exchanged, -, hcancel, -, hfold, hr⟩ :=
          exchange_eq_ok hexchange
        obtain ⟨rfl, rfl⟩ := Prod.mk.inj hr
        have hforgiven : (forgiven opened totalLoans).ValidBooks := {
          assets := by
            show opened.institution.sheet.assets.holdings.Nonneg
            rw [hopened.institution]
            exact hi.assets
          loans := Accounts.nonneg_empty
          deposits := by
            show opened.institution.sheet.liabilities.deposits.Nonneg
            rw [hopened.institution]
            exact hi.deposits }
        have hcancelled := hforgiven.congr (sameBooks_cancelShares hcancel)
        have hexchanged := givesShares_exchangeLoans hfold
        exact (hcancelled.congr ⟨hexchanged.assets, hexchanged.liabilities⟩).congr ⟨rfl, rfl⟩

namespace AssetThreshold

/-- Without debts in the books only the assets are left to check. -/
theorem validBooks_withoutDebts (h : e.assets.holdings.Nonneg) : (withoutDebts e).ValidBooks :=
  ⟨h, Accounts.nonneg_empty, Accounts.nonneg_empty⟩

theorem validBooks_handOutShares {debts holdings : List (AgentId × Decimal)}
    {remainingDebt value price : Decimal}
    (h : handOutShares e debts holdings remainingDebt value price ctx = .ok e')
    (hassets : e.assets.holdings.Nonneg) : e'.ValidBooks := by
  obtain ⟨given, settled, hgiven, rfl⟩ := handOutShares_eq_ok h
  have hend := hgiven.assets ▸ hassets
  exact ⟨hend, Accounts.nonneg_empty, Accounts.nonneg_empty⟩

theorem validBooks_handOverFirm {debts : List (AgentId × Decimal)} {remainingDebt : Decimal}
    (h : handOverFirm e debts remainingDebt ctx = .ok (e', ctx'))
    (hassets : e.assets.holdings.Nonneg) : e'.ValidBooks := by
  obtain ⟨count, cancelled, equity, price, hands⟩ := handsOver_of_handOverFirm h
  have hcancelled := (sameBooks_cancelShares hands.cancelling).assets ▸ hassets
  have hcleared : ((withoutDebts cancelled).publishPrice price ctx).1.ValidBooks :=
    (validBooks_withoutDebts hcancelled).congr ⟨rfl, rfl⟩
  exact hcleared.congr hands.gives.sameBooks

theorem validBooks_of_run {cash : CashRule} {r : Episode × Context}
    (h : run cash i shortfall ctx = .ok r) (hi : i.sheet.Nonneg) : r.1.ValidBooks := by
  rcases run_cases h with rfl | ⟨c, hc, hend⟩
  · exact hi.validBooks rfl
  · obtain ⟨spent, hspent, hcredit⟩ := hc.assets
    have hpaid := Assets.nonneg_creditHolding_neg hcredit hi.assets hspent
    rcases hend with ⟨-, rfl⟩ | ⟨-, hrest⟩
    · exact (validBooks_withoutDebts hpaid).congr ⟨rfl, rfl⟩
    · rcases settleRest_cases hrest with ⟨value, handed, -, hhand, rfl⟩ |
        ⟨handed, ctx'', hhand, rfl⟩
      · exact (validBooks_handOutShares hhand hpaid).congr ⟨rfl, rfl⟩
      · exact (validBooks_handOverFirm hhand hpaid).congr ⟨rfl, rfl⟩

end AssetThreshold

/-! ### The whole sheet -/

namespace Policy

theorem validBooks_of_run {p : Policy} {r : Episode × Context} (h : p.run i shortfall ctx = .ok r)
    (hi : i.sheet.Nonneg) (hshortfall : 0 ≤ shortfall.toRat) : r.1.ValidBooks := by
  cases p with
  | bailin => exact Bailin.validBooks_of_run h hi
  | assetThreshold cash => exact AssetThreshold.validBooks_of_run h hi
  | bailout => exact Bailout.validBooks_of_run h hi hshortfall
  | debtEquitySwap => exact DebtEquitySwap.validBooks_of_run h hi
  | liquidate =>
      rcases flag_cases h with ⟨-, rfl⟩ | ⟨-, filed, hfiled, rfl⟩
      · exact hi.validBooks rfl
      · obtain ⟨claims, -, rfl⟩ := Episode.fileClaims_eq_ok.mp hfiled
        exact hi.validBooks rfl

/-- **Books that pass the check before an episode pass it afterwards**, whatever the policy, the
shortfall and the prices. -/
theorem check_of_resolve {p : Policy} (h : p.resolve i shortfall ctx = .ok (e, ctx')) :
    e.institution.sheet.check = .ok () := by
  obtain ⟨hnone, hrun⟩ := resolve_eq_ok.mp h
  obtain ⟨hi, hshortfall⟩ := inOrder_of_objection? hnone
  have hbooks := validBooks_of_run hrun hi hshortfall
  obtain ⟨s, hsteps⟩ := shareSteps_of_resolve h
  have hnn : e.institution.sheet.Nonneg :=
    ⟨hbooks.assets, hbooks.loans, hbooks.deposits, hsteps.nonneg hi.shares⟩
  rw [BalanceSheet.check, BalanceSheet.nonneg_iff.mp hnn]

end Policy

end Insolvency
