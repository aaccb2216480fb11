/-
Entries of nothing.

An institution is resolved by what it owns, owes and has issued, and an entry of nothing is
none of that.  So an episode should come to the same whether its books have such entries or
not: the same outcome and stages, the same shares, payments and intermediaries, the same
figures and the same published price, and every amount of the books the same, or the same
refusal.

It does, except where a policy goes by entries instead of by amounts (`SameStanding`).  A
bail-in and an asset threshold ask whether a shareholder is a creditor, and take whoever has
an entry for one; so an entry of nothing costs a shareholder its compensation, or spares it from
giving up shares.  A debt-for-equity swap serves every lender that has an entry, and so makes
payments, allotments and intermediaries of nothing.  A loan of nothing to a shareholder shows
all three.
-/
import Insolvency.Proofs.AssetThreshold.Agreement
import Insolvency.Proofs.Bailin.Agreement
import Insolvency.Proofs.Episode.DebtAccounting

namespace Insolvency

open Decimal

variable {i j : Institution} {e e' : Episode} {ctx : Context}

/-! ### Bail-outs -/

namespace Bailout

theorem agree_inject (h : e.Agree e') (amount : Decimal) :
    Parallel Episode.Agree (inject e amount) (inject e' amount) := by
  refine (Assets.agree_creditHolding h.assets .cash amount).bind fun assets _ hassets => ?_
  subst hassets
  rw [h.totals]
  exact parallel_pure (((h.withAssets (.refl assets.holdings)).withTotals _).reach _)

/-- Two bail-outs of banks with books that agree come to the same. -/
theorem agree_run (h : i.Agree j) (shortfall : Decimal) (ctx : Context) :
    Parallel Episode.AgreeBeside (run i shortfall ctx) (run j shortfall ctx) := by
  unfold run
  rw [← h.id]
  split_ifs
  · exact parallel_pure ⟨Episode.agree_opening h 0, rfl⟩
  have hopening := Episode.agree_opening h shortfall
  refine parallel_bind hopening.shareCount fun base _ => ?_
  refine hopening.fileClaims.bind fun filed filed' hfiled => ?_
  refine ((hfiled.reach .start).cancelShares _).bind fun gone gone' hgone => ?_
  have hgone' := hgone.reach .stocksTerminated
  cases funder? ctx shortfall with
  | none => exact hgone'.giveUp h ctx
  | some government =>
      refine parallel_bind rfl fun paid _ => (agree_inject hgone' shortfall).bind
        fun injected injected' hinjected => ?_
      refine (hinjected.allot _ base shortfall .funding _).bind
        fun allotted allotted' hallotted => ?_
      have hissued := hallotted.reach .sharesIssued
      refine parallel_bind (hissued.sharePrice base) fun newPrice _ => parallel_pure ?_
      obtain ⟨hpublished, hctx⟩ :=
        hissued.publishPrice newPrice { ctx with government := some paid }
      exact hpublished.conclude .resolved hctx

end Bailout

/-! ### Debt-for-equity swaps -/

namespace DebtEquitySwap

theorem agree_payLender {p q : Episode × Decimal} (h : Episode.AgreeBeside p q)
    (loan : AgentId × Decimal) :
    Parallel Episode.AgreeBeside (payLender p loan) (payLender q loan) := by
  obtain ⟨e, paid⟩ := p
  obtain ⟨e', paid'⟩ := q
  obtain ⟨hagree, rfl⟩ := h
  refine (hagree.writeDownClaim loan.1 loan.2).bind fun down down' hdown => ?_
  refine parallel_bind rfl fun total _ => parallel_pure ⟨?_, rfl⟩
  exact { hdown with payments := congrArg (· ++ [_]) hdown.payments }

theorem agree_withoutLoans (h : e.Agree e') :
    (e.withLiabilities e.liabilities.withoutLoans).Agree
      (e'.withLiabilities e'.liabilities.withoutLoans) :=
  h.withLiabilities ⟨.refl ∅, h.liabilities.deposits⟩

theorem agree_repay (h : e.Agree e')
    (hloans : e.liabilities.loans.entries = e'.liabilities.loans.entries) :
    Parallel Episode.Agree (repay e) (repay e') := by
  unfold repay
  rw [hloans]
  refine Parallel.bind (parallel_foldlM (R := Episode.AgreeBeside)
    (fun loan _ _ _ hst => agree_payLender hst loan) ⟨agree_withoutLoans h, rfl⟩) fun p q hpq => ?_
  obtain ⟨e1, paid⟩ := p
  obtain ⟨e2, paid'⟩ := q
  obtain ⟨hagree, rfl⟩ := hpq
  refine (Assets.agree_creditHolding hagree.assets .cash _).bind fun assets _ hassets => ?_
  subst hassets
  rw [hagree.totals]
  exact parallel_pure (((hagree.withAssets (.refl assets.holdings)).withTotals _).reach _)

theorem agree_exchangeLoan (h : e.Agree e') (count totalLoans price : Decimal)
    (loan : AgentId × Decimal) :
    Parallel Episode.Agree (exchangeLoan count totalLoans price ctx e loan)
      (exchangeLoan count totalLoans price ctx e' loan) := by
  refine parallel_bind rfl fun _ _ => parallel_bind rfl fun quantity _ => ?_
  refine parallel_bind rfl fun value _ => ?_
  refine (h.allot loan.1 quantity value .writeDown ctx).bind fun allotted allotted' hallotted => ?_
  refine (hallotted.writeDownClaim loan.1 loan.2).bind fun down down' hdown => ?_
  rw [hdown.totals]
  exact parallel_bind rfl fun totals _ => parallel_pure (hdown.withTotals totals)

theorem agree_exchange (h : e.Agree e')
    (hloans : e.liabilities.loans.entries = e'.liabilities.loans.entries) (totalLoans : Decimal) :
    Parallel Episode.AgreeBeside (exchange e totalLoans ctx) (exchange e' totalLoans ctx) := by
  unfold exchange
  rw [hloans]
  refine parallel_bind h.shareCount fun count _ => ?_
  have hdown := ((agree_withoutLoans h).withTotals
    { e'.totals with loansWrittenDown := totalLoans }).reach .loansWrittenDown
  rw [h.totals]
  have hid : e.institution.id = e'.institution.id := h.institution.id
  refine Parallel.bind (R := Episode.Agree) (hid ▸ hdown.cancelShares _) fun gone gone' hgone => ?_
  have hgone' := hgone.reach .stocksTerminated
  refine parallel_bind hgone'.equity fun equity _ => parallel_bind rfl fun price _ => ?_
  obtain ⟨hpublished, hctx⟩ := hgone'.publishPrice price ctx
  dsimp only
  rw [hctx]
  refine Parallel.bind (parallel_foldlM (fun loan _ _ _ hst =>
    agree_exchangeLoan hst count totalLoans price loan) hpublished) fun last last' hlast => ?_
  exact parallel_pure ⟨hlast.reach .sharesIssued, rfl⟩

theorem agree_covered (h : e.Agree e') : (covered e).Agree (covered e') :=
  { h with totals := congrArg ({ · with remainingShortfall := 0 }) h.totals }

/-- Two swaps of firms with books that agree come to the same, if the same lenders have entries. -/
theorem agree_run (h : i.Agree j)
    (hstanding : i.sheet.liabilities.loans.keys = j.sheet.liabilities.loans.keys)
    (shortfall : Decimal) (ctx : Context) :
    Parallel Episode.AgreeBeside (run i shortfall ctx) (run j shortfall ctx) := by
  refine parallel_bind h.sheet.liabilities.loans.total fun totalLoans _ => ?_
  refine parallel_bind h.sheet.equity fun equity _ => ?_
  split_ifs
  · exact parallel_pure ⟨Episode.agree_opening h 0, rfl⟩
  refine (Episode.agree_opening h shortfall).fileClaims.with_results.bind
    fun filed filed' hfiled => ?_
  obtain ⟨hfiled, hfile, hfile'⟩ := hfiled
  have hopened := hfiled.reach .start
  have hfirm : (filed.reach .start).institution = i := Opened.institution ⟨filed, hfile, rfl⟩
  have hfirm' : (filed'.reach .start).institution = j := Opened.institution ⟨filed', hfile', rfl⟩
  have hloans : (filed.reach .start).liabilities.loans.entries
      = (filed'.reach .start).liabilities.loans.entries := by
    rw [Episode.liabilities, Episode.liabilities, hfirm, hfirm']
    exact h.sheet.liabilities.loans.entries_eq hstanding
  have hcash : (filed.reach .start).assets.cash = (filed'.reach .start).assets.cash :=
    hopened.assets .cash
  dsimp only
  rw [hcash]
  refine parallel_bind rfl fun solvency _ => ?_
  split_ifs
  · exact hopened.giveUp h ctx
  · exact (agree_repay hopened hloans).bind fun _ _ hrepaid =>
      parallel_pure ((agree_covered hrepaid).conclude .resolved rfl)
  · exact (agree_exchange hopened hloans totalLoans).bind fun _ _ hexchanged =>
      parallel_pure ((agree_covered hexchanged.1).conclude .resolved hexchanged.2)

end DebtEquitySwap

/-! ### All policies -/

namespace Policy

/-- What the policy asks of the entries, and not of the amounts, is answered alike by the books of
both institutions. -/
def SameStanding : Policy → Institution → Institution → Prop
  | bailin, i, j => ∀ a ≠ i.agentId, i.sheet.shares.held a ≠ 0 →
      i.sheet.liabilities.isCreditor a = j.sheet.liabilities.isCreditor a
  | assetThreshold _, i, j => ∀ a, i.sheet.shares.held a ≠ 0 →
      i.sheet.liabilities.isCreditor a = j.sheet.liabilities.isCreditor a
  | debtEquitySwap, i, j => i.sheet.liabilities.loans.keys = j.sheet.liabilities.loans.keys
  | bailout, _, _ => True
  | liquidate, _, _ => True

theorem objection?_of_agree (p : Policy) (h : i.Agree j) (shortfall : Decimal) :
    p.objection? i shortfall = p.objection? j shortfall := by
  rw [objection?, objection?, h.isDeleted, h.sheet.fault?, h.kind]

theorem agree_flag (h : i.Agree j) (shortfall : Decimal) (ctx : Context) :
    Parallel Episode.AgreeBeside (flag i shortfall ctx) (flag j shortfall ctx) := by
  unfold flag
  split_ifs
  · exact parallel_pure ⟨Episode.agree_opening h 0, rfl⟩
  · exact (Episode.agree_opening h shortfall).fileClaims.bind fun _ _ hfiled =>
      parallel_pure ((hfiled.reach .start).conclude .flaggedForLiquidation rfl)

theorem agree_run {p : Policy} (h : i.Agree j) (hi : i.sheet.Nonneg) (hj : j.sheet.Nonneg)
    (hstanding : p.SameStanding i j) (shortfall : Decimal) (ctx : Context) :
    Parallel Episode.AgreeBeside (p.run i shortfall ctx) (p.run j shortfall ctx) := by
  cases p with
  | bailin => exact Bailin.agree_run h hi hj hstanding shortfall ctx
  | assetThreshold cash => exact AssetThreshold.agree_run h hstanding cash shortfall ctx
  | bailout => exact Bailout.agree_run h shortfall ctx
  | debtEquitySwap => exact DebtEquitySwap.agree_run h hstanding shortfall ctx
  | liquidate => exact agree_flag h shortfall ctx

/-- **Entries of nothing mean nothing**, where the policy goes by amounts: two institutions that
differ in nothing else are refused alike, or their episodes have done the same, leave contexts that
are the same, and leave books with the same amount under every key. -/
theorem agree_of_resolve {p : Policy} (h : i.Agree j) (hstanding : p.SameStanding i j)
    (shortfall : Decimal) (ctx : Context) :
    Parallel Episode.AgreeBeside (p.resolve i shortfall ctx) (p.resolve j shortfall ctx) := by
  unfold resolve
  rw [← objection?_of_agree p h shortfall]
  cases hobjection : p.objection? i shortfall with
  | some err => exact .error err
  | none =>
      have hi := (inOrder_of_objection? hobjection).1
      have hj :=
        (inOrder_of_objection? ((objection?_of_agree p h shortfall).symm.trans hobjection)).1
      exact (agree_run h hi hj hstanding shortfall ctx).lift

end Policy

/-! ### Sample institutions with entries of nothing -/

namespace Institution

/-- An institution whose books have one more loan, of nothing, to a shareholder of the sample
bank's. -/
def withZeroLoan (i : Institution) : Institution :=
  i.withLiabilities { i.sheet.liabilities with
    loans := i.sheet.liabilities.loans.insert ⟨.fund, "beta"⟩ 0 }

/-- An institution whose books have one more entry of nothing in each account, none of them for a
shareholder of the sample bank's. -/
def withZeroEntries (i : Institution) : Institution :=
  { i with sheet := {
      assets := ⟨i.sheet.assets.holdings.insert .other 0⟩
      liabilities := ⟨i.sheet.liabilities.loans.insert ⟨.household, "smith"⟩ 0,
        i.sheet.liabilities.deposits.insert ⟨.fund, "gamma"⟩ 0⟩
      shares := ⟨i.sheet.shares.holders.insert ⟨.fund, "alpha"⟩ 0⟩ } }

theorem agree_withZeroLoan (h : i.sheet.liabilities.loans.get? ⟨.fund, "beta"⟩ = none) :
    i.Agree i.withZeroLoan where
  sheet := ⟨.refl _, ⟨Accounts.agree_insert_zero h, .refl _⟩, .refl _⟩
  others := rfl

theorem sampleBank_agree_withZeroEntries : sampleBank.Agree sampleBank.withZeroEntries where
  sheet := {
    assets := Accounts.agree_insert_zero rfl
    liabilities := ⟨Accounts.agree_insert_zero rfl, Accounts.agree_insert_zero rfl⟩
    shares := Accounts.agree_insert_zero rfl }
  others := rfl

/-- No shareholder of the sample bank's is a creditor, with or without the entries of nothing. -/
theorem sampleBank_sameStanding_withZeroEntries :
    Policy.bailin.SameStanding sampleBank sampleBank.withZeroEntries := by
  intro a _ hheld
  have hholder : ∀ b ∈ sampleBank.sheet.shares.holders.keys,
      sampleBank.sheet.liabilities.isCreditor b
        = sampleBank.withZeroEntries.sheet.liabilities.isCreditor b := by decide
  exact hholder a (Accounts.mem_keys_of_amount_ne_zero hheld)

end Institution

namespace Policy

theorem agree_of_resolve_sampleBank : ∃ r r',
    bailin.resolve sampleBank 700.0 sampleContext = .ok r ∧
      bailin.resolve sampleBank.withZeroEntries 700.0 sampleContext = .ok r' ∧
      r.1.allotments ≠ [] ∧ Episode.AgreeBeside r r' := by
  have hparallel := agree_of_resolve Institution.sampleBank_agree_withZeroEntries
    Institution.sampleBank_sameStanding_withZeroEntries 700.0 sampleContext
  obtain ⟨r, hr, hallotments⟩ : ∃ r, bailin.resolve sampleBank 700.0 sampleContext = .ok r ∧
      r.1.allotments ≠ [] := ⟨_, rfl, by decide⟩
  obtain ⟨r', hr', hagree⟩ := hparallel.exists_ok hr
  exact ⟨r, r', hr, hr', hallotments, hagree⟩

/-- With a loan of nothing, a shareholder is not compensated by a bail-in, and gives up no shares
for an asset threshold, so that the firm is handed over instead; and a swap that pays the loans off
makes a payment of nothing. -/
theorem disagree_of_resolve_zeroLoan :
    sampleBank.Agree sampleBank.withZeroLoan ∧ sampleFirm.Agree sampleFirm.withZeroLoan ∧
    (∃ r r', bailin.resolve sampleBank 700.0 sampleContext = .ok r ∧
      bailin.resolve sampleBank.withZeroLoan 700.0 sampleContext = .ok r' ∧
      r.1.allotments.length = 3 ∧ r'.1.allotments.length = 2 ∧ ¬ Episode.AgreeBeside r r') ∧
    (∃ r r', (assetThreshold (.cashFraction 0.8)).resolve sampleFirm 700.0 sampleContext = .ok r ∧
      (assetThreshold (.cashFraction 0.8)).resolve sampleFirm.withZeroLoan 700.0 sampleContext
        = .ok r' ∧
      r.1.outcome = .resolved ∧ r'.1.outcome = .liquidated ∧ ¬ Episode.AgreeBeside r r') ∧
    ∃ r r', debtEquitySwap.resolve sampleFirm 700.0 sampleContext = .ok r ∧
      debtEquitySwap.resolve sampleFirm.withZeroLoan 700.0 sampleContext = .ok r' ∧
      r.1.payments.length = 1 ∧ r'.1.payments.length = 2 ∧ ¬ Episode.AgreeBeside r r' := by
  refine ⟨Institution.agree_withZeroLoan rfl, Institution.agree_withZeroLoan rfl,
    ⟨_, _, rfl, rfl, rfl, rfl, fun h => ?_⟩, ⟨_, _, rfl, rfl, rfl, rfl, fun h => ?_⟩,
    ⟨_, _, rfl, rfl, rfl, rfl, fun h => ?_⟩⟩
  · exact absurd (congrArg List.length h.1.allotments) (by decide)
  · exact absurd h.1.outcome (by decide)
  · exact absurd (congrArg List.length h.1.payments) (by decide)

end Policy

end Insolvency
