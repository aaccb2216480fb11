/-
The course of a debt-for-equity swap.

`run` is taken apart here once: the firm needs nothing, or would be insolvent even without
its loans and is given up, or pays its loans off, or hands itself over for them.
-/
import Insolvency.Proofs.Episode.SameShares

namespace Insolvency.DebtEquitySwap

open Decimal

/-- The episode of a firm with its claims on file. -/
def Opened (firm : Institution) (shortfall : Decimal) (e : Episode) : Prop :=
  ∃ filed, (Episode.opening firm shortfall).fileClaims = .ok filed ∧ e = filed.reach .start

theorem Opened.sameShares {firm : Institution} {shortfall : Decimal} {e : Episode}
    (h : Opened firm shortfall e) : (Episode.opening firm shortfall).SameShares e := by
  obtain ⟨filed, hfiled, rfl⟩ := h
  exact (Episode.sameShares_fileClaims hfiled).trans (Episode.sameShares_reach filed .start)

theorem Opened.institution {firm : Institution} {shortfall : Decimal} {e : Episode}
    (h : Opened firm shortfall e) : e.institution = firm := by
  obtain ⟨filed, hfiled, rfl⟩ := h
  obtain ⟨claims, -, rfl⟩ := Episode.fileClaims_eq_ok.mp hfiled
  rfl

theorem Opened.trace {firm : Institution} {shortfall : Decimal} {e : Episode}
    (h : Opened firm shortfall e) : e.trace = [.start] := by
  obtain ⟨filed, hfiled, rfl⟩ := h
  obtain ⟨claims, -, rfl⟩ := Episode.fileClaims_eq_ok.mp hfiled
  rfl

/-- How a firm that is neither fine nor given up gets rid of its loans. -/
inductive Settled (firm : Institution) (shortfall : Decimal) (ctx : Context) :
    Episode × Context → Prop
  | paid {opened e : Episode} {totalLoans : Decimal} (hopened : Opened firm shortfall opened)
      (htotal : firm.sheet.liabilities.loans.total = .ok totalLoans)
      (hcash : totalLoans ≤ firm.sheet.assets.cash) (hrepay : repay opened = .ok e) :
      Settled firm shortfall ctx ((covered e).conclude .resolved ctx)
  | swapped {opened e : Episode} {ctx' : Context} {totalLoans : Decimal}
      (hopened : Opened firm shortfall opened)
      (htotal : firm.sheet.liabilities.loans.total = .ok totalLoans)
      (hexchange : exchange opened totalLoans ctx = .ok (e, ctx')) :
      Settled firm shortfall ctx ((covered e).conclude .resolved ctx')

/-- All that a debt-for-equity swap can come to. -/
theorem run_cases {firm : Institution} {shortfall : Decimal} {ctx : Context}
    {r : Episode × Context} (h : run firm shortfall ctx = .ok r) :
    r = (.compliant firm, ctx) ∨ (∃ e : Episode, e.giveUp firm ctx = .ok r) ∨
      Settled firm shortfall ctx r := by
  simp only [run, bind_eq_ok] at h
  obtain ⟨totalLoans, htotal, equity, -, h⟩ := h
  split_ifs at h
  · exact Or.inl (pure_eq_ok.mp h).symm
  · simp only [bind_eq_ok] at h
    obtain ⟨filed, hfiled, withoutLoans, -, h⟩ := h
    have hopened : Opened firm shortfall (filed.reach .start) := ⟨filed, hfiled, rfl⟩
    refine Or.inr ?_
    split_ifs at h with _ hcash
    · exact Or.inl ⟨_, h⟩
    · simp only [bind_eq_ok, pure_eq_ok] at h
      obtain ⟨e, hrepay, rfl⟩ := h
      refine Or.inr (.paid hopened htotal ?_ hrepay)
      rw [← hopened.institution]
      exact hcash.1
    · simp only [bind_eq_ok, pure_eq_ok] at h
      obtain ⟨⟨e, ctx'⟩, hexchange, rfl⟩ := h
      exact Or.inr (.swapped hopened htotal hexchange)

/-! ### Paying the loans off -/

theorem payLender_paysOut {state state' : Episode × Decimal} {loan : AgentId × Decimal}
    (h : payLender state loan = .ok state') : state.1.PaysOut state'.1 ∧
      state'.1.institution = state.1.institution ∧ state.2.add loan.2 = .ok state'.2 := by
  simp only [payLender, bind_eq_ok, pure_eq_ok] at h
  obtain ⟨e, hclaim, paid, hpaid, rfl⟩ := h
  have hdown := Episode.paysOut_writeDownClaim hclaim
  have hkept : e.institution = state.1.institution := Episode.institution_writeDownClaim hclaim
  exact ⟨⟨⟨hdown.same.id, hdown.same.shares, hdown.same.cancelled, hdown.same.allotments,
    hdown.same.handovers, hdown.same.intermediaries⟩, hdown.assets, hdown.claimants, hdown.trace⟩,
    hkept, hpaid⟩

/-- What the lenders are paid is the sum of the loans, added up as the books add it up. -/
theorem payLenders_paysOut {loans : List (AgentId × Decimal)} {state state' : Episode × Decimal}
    (h : loans.foldlM payLender state = .ok state') : state.1.PaysOut state'.1 ∧
      state'.1.institution = state.1.institution ∧
      (loans.map Prod.snd).foldlM Decimal.add state.2 = .ok state'.2 := by
  induction loans generalizing state with
  | nil =>
      obtain rfl := pure_eq_ok.mp h
      exact ⟨.refl _, rfl, rfl⟩
  | cons loan rest ih =>
      rw [List.foldlM_cons, bind_eq_ok] at h
      obtain ⟨mid, hmid, h⟩ := h
      obtain ⟨hout, hinstitution, hadd⟩ := payLender_paysOut hmid
      obtain ⟨hout', hinstitution', hadd'⟩ := ih h
      refine ⟨hout.trans hout', hinstitution'.trans hinstitution, ?_⟩
      rw [List.map_cons, List.foldlM_cons, hadd]
      exact hadd'

/-- The loans are gone, and what they came to is off the cash. -/
structure Repaid (firm : Institution) (totalLoans : Decimal) (e : Episode) : Prop where
  assets : firm.sheet.assets.creditHolding .cash (-totalLoans) = .ok e.assets
  liabilities : e.liabilities = firm.sheet.liabilities.withoutLoans

theorem repaid_of_repay {firm : Institution} {totalLoans : Decimal} {opened e : Episode}
    (h : repay opened = .ok e) (hfirm : opened.institution = firm)
    (htotal : firm.sheet.liabilities.loans.total = .ok totalLoans) :
    opened.SameShares e ∧ Repaid firm totalLoans e := by
  subst hfirm
  simp only [repay, bind_eq_ok, pure_eq_ok] at h
  obtain ⟨⟨e1, paid⟩, hpaid, assets, hassets, rfl⟩ := h
  obtain ⟨hout, hinstitution, hsum⟩ := payLenders_paysOut hpaid
  obtain rfl : totalLoans = paid := Except.ok.inj (htotal.symm.trans hsum)
  refine ⟨⟨hout.same.id, hout.same.shares, hout.same.cancelled, hout.same.allotments,
    hout.same.handovers, hout.same.intermediaries⟩, ?_, ?_⟩
  · have hkept : e1.assets = opened.assets := hout.assets
    have hcredit : e1.assets.creditHolding .cash (-totalLoans) = .ok assets := hassets
    rw [hkept] at hcredit
    exact hcredit
  · show e1.institution.sheet.liabilities = _
    have hkept : e1.institution
        = (opened.withLiabilities opened.liabilities.withoutLoans).institution := hinstitution
    rw [hkept]
    rfl

theorem trace_of_repay {opened e : Episode} (h : repay opened = .ok e) :
    e.trace = opened.trace ++ [.cashCompensated] := by
  simp only [repay, bind_eq_ok, pure_eq_ok] at h
  obtain ⟨⟨e1, paid⟩, hpaid, assets, -, rfl⟩ := h
  obtain ⟨hout, -, -⟩ := payLenders_paysOut hpaid
  show e1.trace ++ [.cashCompensated] = _
  rw [hout.trace]
  rfl

/-! ### Exchanging the loans for shares -/

/-- The loans are off the books before the shares are cancelled. -/
def forgiven (e : Episode) (totalLoans : Decimal) : Episode :=
  { e.withLiabilities e.liabilities.withoutLoans with
    totals := { e.totals with loansWrittenDown := totalLoans } }.reach .loansWrittenDown

theorem sameShares_forgiven (e : Episode) (totalLoans : Decimal) :
    e.SameShares (forgiven e totalLoans) :=
  ⟨rfl, rfl, rfl, rfl, rfl, rfl⟩

/-- Once loans and shares are cancelled the price is worked out, and every loan is exchanged for its
part of the count. -/
theorem exchange_eq_ok {e : Episode} {totalLoans : Decimal} {ctx : Context}
    {r : Episode × Context} (h : exchange e totalLoans ctx = .ok r) :
    ∃ count cancelled price exchanged, e.shareCount = .ok count ∧
      (forgiven e totalLoans).cancelShares (ctx.book.value e.institution.id) = .ok cancelled ∧
      (∃ equity, cancelled.institution.equity = .ok equity ∧
        (max equity 0).div count = .ok price) ∧
      e.liabilities.loans.entries.foldlM
        (exchangeLoan count totalLoans price (ctx.publish cancelled.institution.id price))
        ((cancelled.reach .stocksTerminated).publishPrice price ctx).1 = .ok exchanged ∧
      r = (exchanged.reach .sharesIssued, ctx.publish cancelled.institution.id price) := by
  simp only [exchange, bind_eq_ok, pure_eq_ok] at h
  obtain ⟨count, hcount, cancelled, hcancelled, equity, hequity, price, hprice, exchanged, hfold,
    rfl⟩ := h
  exact ⟨count, cancelled, price, exchanged, hcount, hcancelled, ⟨equity, hequity, hprice⟩,
    hfold, rfl⟩

end Insolvency.DebtEquitySwap
