/-
The course of a bail-out.

`run` is taken apart here once: nothing is due, or nobody can pay and the bank is given
up, or the government pays.  In the last case the books change in one place, the cash.
-/
import Insolvency.Proofs.Episode.Allotment

namespace Insolvency.Bailout

/-- The government has paid an amount, and the bank has it in cash. -/
structure Funded (bank : Institution) (amount : Decimal) (e : Episode) : Prop where
  outcome : e.outcome = .resolved
  assets : bank.sheet.assets.creditHolding .cash amount = .ok e.assets
  liabilities : e.liabilities = bank.sheet.liabilities
  shares : e.shares.holders.Nonneg

/-- The amount is in the cash when it is paid, and stays there. -/
theorem funded_of_inject {bank : Institution} {amount base newPrice : Decimal}
    {cancelled injected allotted : Episode} {funder : AgentId} {ctx : Context}
    (hinject : inject cancelled amount = .ok injected)
    (hallot : injected.allot funder base amount .funding ctx = .ok allotted)
    (hassets : cancelled.assets = bank.sheet.assets)
    (hliabilities : cancelled.liabilities = bank.sheet.liabilities)
    (hshares : cancelled.shares = .empty) (hbase : 0 ≤ base.toRat) :
    Funded bank amount (((allotted.reach .sharesIssued).publishPrice newPrice ctx).1.conclude
      .resolved ((allotted.reach .sharesIssued).publishPrice newPrice ctx).2).1 := by
  simp only [inject, bind_eq_ok, pure_eq_ok] at hinject
  obtain ⟨assets, hcredit, rfl⟩ := hinject
  obtain ⟨hbooks, -⟩ := Episode.allot_eq_ok hallot
  have hkept : allotted.assets = assets := hbooks.assets
  exact {
    outcome := rfl
    assets := by
      rw [hassets] at hcredit
      rw [hcredit, ← hkept]
      rfl
    liabilities := hbooks.liabilities.trans hliabilities
    shares := by
      have hstart : cancelled.shares.holders.Nonneg := by
        rw [hshares]
        exact Accounts.nonneg_empty
      show allotted.shares.holders.Nonneg
      exact Episode.nonneg_shares_allot hallot hstart hbase }

/-- The end of a bail-out that a government has paid for. -/
def rescued (allotted : Episode) (newPrice : Decimal) (ctx : Context) : Episode × Context :=
  ((allotted.reach .sharesIssued).publishPrice newPrice ctx).1.conclude .resolved
    ((allotted.reach .sharesIssued).publishPrice newPrice ctx).2

/-- A government that can pay an amount has paid it. -/
structure PaidBy (ctx : Context) (amount : Decimal) (government paid : Government) : Prop where
  funder : funder? ctx amount = some government
  disbursed : government.disburse amount = .ok paid

/-- The course of a bail-out: the shares are cancelled, and then either nobody can pay or a
government does. -/
theorem run_course {bank : Institution} {shortfall : Decimal} {ctx : Context}
    {r : Episode × Context} (h : run bank shortfall ctx = .ok r) :
    (shortfall ≤ .epsilon ∧ r = (.compliant bank, ctx)) ∨
      (.epsilon < shortfall ∧ ∃ base filed cancelled,
        (Episode.opening bank shortfall).shareCount = .ok base ∧
        (Episode.opening bank shortfall).fileClaims = .ok filed ∧
        (filed.reach .start).cancelShares (ctx.book.value bank.id) = .ok cancelled ∧
        ((funder? ctx shortfall = none ∧
            (cancelled.reach .stocksTerminated).giveUp bank ctx = .ok r) ∨
          ∃ (government paid : Government) (injected allotted : Episode) (newPrice : Decimal),
            PaidBy ctx shortfall government paid ∧
            inject (cancelled.reach .stocksTerminated) shortfall = .ok injected ∧
            injected.allot government.agentId base shortfall .funding
              { ctx with government := some paid } = .ok allotted ∧
            (allotted.reach .sharesIssued).sharePrice base = .ok newPrice ∧
            r = rescued allotted newPrice { ctx with government := some paid })) := by
  unfold run at h
  split_ifs at h with hdue
  · exact Or.inl ⟨hdue, (pure_eq_ok.mp h).symm⟩
  · simp only [bind_eq_ok] at h
    obtain ⟨base, hbase, filed, hfiled, cancelled, hcancelled, h⟩ := h
    refine Or.inr ⟨Decimal.not_le_iff.mp hdue, base, filed, cancelled, hbase, hfiled,
      hcancelled, ?_⟩
    cases hfunder : funder? ctx shortfall with
    | none =>
        rw [hfunder] at h
        exact Or.inl ⟨rfl, h⟩
    | some government =>
        simp only [hfunder, bind_eq_ok, pure_eq_ok] at h
        obtain ⟨paid, hpaid, injected, hinject, allotted, hallot, newPrice, hprice, rfl⟩ := h
        exact Or.inr
          ⟨government, paid, injected, allotted, newPrice, ⟨hfunder, hpaid⟩, hinject, hallot,
            hprice, rfl⟩

/-- All that a bail-out can come to. -/
theorem run_cases {bank : Institution} {shortfall : Decimal} {ctx : Context}
    {r : Episode × Context} (h : run bank shortfall ctx = .ok r) :
    (shortfall ≤ .epsilon ∧ r = (.compliant bank, ctx)) ∨
      (∃ e : Episode, e.giveUp bank ctx = .ok r) ∨ Funded bank shortfall r.1 := by
  rcases run_course h with hnone | ⟨-, base, filed, cancelled, hbase, hfiled, hcancelled, h⟩
  · exact Or.inl hnone
  · refine Or.inr ?_
    rcases h with ⟨-, h⟩ |
      ⟨government, paid, injected, allotted, newPrice, -, hinject, hallot, -, rfl⟩
    · exact Or.inl ⟨_, h⟩
    · obtain ⟨claims, -, rfl⟩ := Episode.fileClaims_eq_ok.mp hfiled
      obtain ⟨lost, -, rfl⟩ := Episode.cancelShares_eq_ok.mp hcancelled
      exact Or.inr (funded_of_inject hinject hallot rfl rfl rfl
        (Episode.nonneg_of_shareCount hbase))

end Insolvency.Bailout
