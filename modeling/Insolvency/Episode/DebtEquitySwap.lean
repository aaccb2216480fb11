/-
Debt-for-equity swap: a firm pays its lenders off, or they get the firm.

A firm with equity and enough cash pays all loans in full.  One that cannot, but
would be solvent without its loans, cancels loans and shares, and its lenders get as
many shares as there were before, in proportion to what they lent.  A firm that would
be insolvent even without loans is flagged for liquidation.
-/
import Insolvency.Episode.Context

namespace Insolvency.DebtEquitySwap

/-! ### Paying the loans off -/

/-- One lender paid in full, and all that was paid so far. -/
def payLender (state : Episode × Decimal) (loan : AgentId × Decimal) :
    Except Decimal.Fault (Episode × Decimal) := do
  let e ← state.1.writeDownClaim loan.1 loan.2
  return ({ e with payments := e.payments ++ [⟨loan.1, loan.2⟩] }, ← state.2.add loan.2)

/-- Every lender paid in full out of cash. -/
def repay (e : Episode) : Except Decimal.Fault Episode := do
  let loans := e.liabilities.loans.entries
  let e := e.withLiabilities e.liabilities.withoutLoans
  let (e, paid) ← loans.foldlM payLender (e, 0)
  let assets ← e.assets.creditHolding .cash (-paid)
  let totals := { e.totals with cashPaid := paid, claimsSettled := paid }
  return { e.withAssets assets with totals }.reach .cashCompensated

/-! ### Exchanging the loans for shares -/

/-- One loan exchanged for its part of the shares. -/
def exchangeLoan (count totalLoans price : Decimal) (ctx : Context) (e : Episode)
    (loan : AgentId × Decimal) : Except Decimal.Fault Episode := do
  let quantity ← count.mul (← Decimal.proportion loan.2 totalLoans)
  let value ← quantity.mul price
  let e ← e.allot loan.1 quantity value .writeDown ctx
  let e ← e.writeDownClaim loan.1 loan.2
  return { e with totals := ← e.totals.settle loan.2 (min value loan.2) value }

/-- Loans and shares cancelled, and the firm handed to its lenders. -/
def exchange (e : Episode) (totalLoans : Decimal) (ctx : Context) :
    Except Decimal.Fault (Episode × Context) := do
  let count ← e.shareCount
  let loans := e.liabilities.loans.entries
  let totals := { e.totals with loansWrittenDown := totalLoans }
  let e := { e.withLiabilities e.liabilities.withoutLoans with totals }.reach .loansWrittenDown
  let e := (← e.cancelShares (ctx.book.value e.institution.id)).reach .stocksTerminated
  let equity := max (← e.institution.equity) 0
  let price ← equity.div count
  let (e, ctx) := e.publishPrice price ctx
  let e ← loans.foldlM (exchangeLoan count totalLoans price ctx) e
  return (e.reach .sharesIssued, ctx)

/-- The shortfall counted as covered. -/
def covered (e : Episode) : Episode :=
  { e with totals := { e.totals with remainingShortfall := 0 } }

/-- A firm's loans paid off or swapped for the firm. -/
def run (firm : Institution) (shortfall : Decimal) (ctx : Context) :
    Except Decimal.Fault (Episode × Context) := do
  let totalLoans ← firm.sheet.liabilities.loans.total
  let equity ← firm.equity
  if totalLoans ≤ .epsilon ∧ 0 ≤ equity then return (.compliant firm, ctx)
  let e := (← (Episode.opening firm shortfall).fileClaims).reach .start
  if (← equity.add totalLoans) < 0 then e.giveUp firm ctx
  else if totalLoans ≤ e.assets.cash ∧ 0 ≤ equity then
    return (covered (← repay e)).conclude .resolved ctx
  else
    let (e, ctx) ← exchange e totalLoans ctx
    return (covered e).conclude .resolved ctx

end Insolvency.DebtEquitySwap
