/-
Asset threshold: a firm's creditors are paid in cash, then in shares, then by the firm.

First the creditors share the cash, each in proportion to what it is owed.  If debts
are left and the shares of those who are not creditors are worth at least as much,
each of these gives up the same fraction, split among the creditors by what they are
still owed.  Otherwise all shares and debts are cancelled and the creditors get the
firm.  Either way no debt is left.
-/
import Insolvency.Episode.Context

namespace Insolvency

/-- How much of a firm's cash goes to its creditors. -/
inductive CashRule
  | allCash
  | cashFraction (fraction : Decimal)
deriving DecidableEq

namespace CashRule

/-- A fraction out of range. -/
def fault? : CashRule → Option ConfigFault
  | allCash => none
  | cashFraction f => if f < 0 ∨ 1 < f then some .cashFractionOutOfRange else none

/-- The cash that can go to creditors. -/
def spendable : CashRule → Assets → Except Decimal.Fault Decimal
  | allCash, assets => .ok assets.cash
  | cashFraction f, assets => assets.cash.mul f

end CashRule

namespace AssetThreshold

/-! ### Paying in cash -/

/-- What a creditor gets of the cash: its part of the debt, but no more than it is owed. -/
def payment (available totalDebt : Decimal) (owed : Owed) :
    Except Decimal.Fault Decimal := do
  let total ← owed.total
  return min (← (← available.mul total).div totalDebt) total

/-- A payment taken off a creditor's loan first and off its deposit for the rest. -/
def takeOff (l : Liabilities) (creditor : AgentId) (loan amount : Decimal) :
    Except Decimal.Fault Liabilities := do
  let fromLoan := min amount loan
  let l ← l.creditLoan creditor (-fromLoan)
  l.creditDeposit creditor (-(← amount.sub fromLoan))

/-- One creditor paid its part of the cash, and all that was paid so far. -/
def payCreditor (available totalDebt : Decimal) (state : Episode × Decimal)
    (owed : AgentId × Owed) : Except Decimal.Fault (Episode × Decimal) := do
  let amount ← payment available totalDebt owed.2
  if amount = 0 then return state
  let liabilities ← takeOff state.1.liabilities owed.1 owed.2.loanValue amount
  let e ← (state.1.withLiabilities liabilities).writeDownClaim owed.1 amount
  return ({ e with payments := e.payments ++ [⟨owed.1, amount⟩] }, ← state.2.add amount)

/-- Every creditor paid, if there is anything to pay with, and all that was paid. -/
def payCreditors (e : Episode) (available totalDebt : Decimal) :
    Except Decimal.Fault (Episode × Decimal) :=
  if 0 < available then
    e.liabilities.byCreditor.entries.foldlM (payCreditor available totalDebt) (e, 0)
  else .ok (e, 0)

/-- The stage of payments in cash. -/
def compensateInCash (e : Episode) (cash : CashRule) (totalDebt : Decimal) :
    Except Decimal.Fault Episode := do
  let onHand := e.assets.cash
  let available := min (← cash.spendable e.assets) totalDebt
  let (e, paid) ← payCreditors e available totalDebt
  let assets ← e.assets.creditHolding .cash (-(min paid onHand))
  let totals := { e.totals with cashPaid := paid, claimsSettled := paid }
  return { e.withAssets assets with totals }.reach .cashCompensated

/-- The episode without debts in the books. -/
def withoutDebts (e : Episode) : Episode :=
  e.withLiabilities e.liabilities.withoutLoans.withoutDeposits

/-- What each creditor is still owed, in the order of the claims. -/
def debtsOf (claims : List Claim) : Except Decimal.Fault (List (AgentId × Decimal)) := do
  let left ← claims.mapM fun c => return (c.creditor, ← c.remaining)
  return left.filter fun d => decide (0 < d.2)

/-! ### Paying in shares -/

/-- The share accounts of those who have no claim. -/
def outsiders (e : Episode) : List (AgentId × Decimal) :=
  e.shares.holders.entries.filter fun x => !e.claims.any (·.creditor == x.1)

/-- A creditor's part of what one holder gives up, moved to it. -/
def giveTo (source : AgentId) (give remainingDebt price : Decimal) (ctx : Context)
    (e : Episode) (debt : AgentId × Decimal) : Except Decimal.Fault Episode := do
  let quantity ← (← give.mul debt.2).div remainingDebt
  if quantity = 0 then return e
  let (e, holder) ← e.assignHolder debt.1 quantity ctx
  let (shares, moved) ← e.shares.transfer source holder quantity
  let value ← moved.mul price
  let equityValueDelivered ← e.totals.equityValueDelivered.add value
  return { e.withShares shares with
    totals := { e.totals with equityValueDelivered }
    handovers := e.handovers ++ [⟨source, debt.1, holder, moved, value⟩] }

/-- What a holder gives up: as large a part of its shares as the debt is of all outsiders'
shares, but no more than it has. -/
def surrendered (held remainingDebt value : Decimal) : Except Decimal.Fault Decimal := do
  return min (← (← held.mul remainingDebt).div value) held

/-- One holder's part given to the creditors. -/
def handOutFrom (debts : List (AgentId × Decimal)) (remainingDebt value price : Decimal)
    (ctx : Context) (e : Episode) (holding : AgentId × Decimal) :
    Except Decimal.Fault Episode := do
  let give ← surrendered holding.2 remainingDebt value
  debts.foldlM (giveTo holding.1 give remainingDebt price ctx) e

/-- Outsiders' shares handed to the creditors, and the debts cancelled for it. -/
def handOutShares (e : Episode) (debts holdings : List (AgentId × Decimal))
    (remainingDebt value price : Decimal) (ctx : Context) : Except Decimal.Fault Episode := do
  let e ← holdings.foldlM (handOutFrom debts remainingDebt value price ctx) e
  let e ← debts.foldlM (fun e d => e.writeDownClaim d.1 d.2) e
  let claimsSettled ← e.totals.claimsSettled.add remainingDebt
  return (withoutDebts { e with totals := { e.totals with claimsSettled } }).reach
    .stockRedistributed

/-! ### Handing over the firm -/

/-- One debt cancelled for its part of the firm. -/
def handOverPart (count equity remainingDebt : Decimal) (ctx : Context) (e : Episode)
    (debt : AgentId × Decimal) : Except Decimal.Fault Episode := do
  let quantity ← (← count.mul debt.2).div remainingDebt
  let value ← (← equity.mul debt.2).div remainingDebt
  let e ← e.allot debt.1 quantity value .writeDown ctx
  let settled := min value debt.2
  let e ← e.writeDownClaim debt.1 settled
  return { e with totals := ← e.totals.settle debt.2 settled value }

/-- All shares and debts cancelled, and the firm handed to its creditors. -/
def handOverFirm (e : Episode) (debts : List (AgentId × Decimal)) (remainingDebt : Decimal)
    (ctx : Context) : Except Decimal.Fault (Episode × Context) := do
  let count ← e.shareCount
  let e := withoutDebts (← e.cancelShares (ctx.book.value e.institution.id))
  let equity ← e.assets.total
  let price ← equity.div count
  let (e, ctx) := e.publishPrice price ctx
  return (← debts.foldlM (handOverPart count equity remainingDebt ctx) e, ctx)

/-! ### The episode -/

/-- The debts that cash did not cover, paid in shares or by the firm. -/
def settleRest (e : Episode) (debts : List (AgentId × Decimal)) (remainingDebt : Decimal)
    (ctx : Context) : Except Decimal.Fault (Episode × Context) := do
  let price := ctx.book.value e.institution.id
  let holdings := outsiders e
  let value ← (← Decimal.sum (holdings.map Prod.snd)).mul price
  if .epsilon < value ∧ remainingDebt ≤ value then
    return (← handOutShares e debts holdings remainingDebt value price ctx).conclude .resolved ctx
  else
    let (e, ctx) ← handOverFirm e debts remainingDebt ctx
    return e.conclude .liquidated ctx

/-- A firm's creditors paid in cash, in shares, or by the firm. -/
def run (cash : CashRule) (firm : Institution) (shortfall : Decimal) (ctx : Context) :
    Except Decimal.Fault (Episode × Context) := do
  let totalDebt ← firm.sheet.totalLiabilities
  if totalDebt ≤ .epsilon then return (.compliant firm, ctx)
  let e := (← (Episode.opening firm shortfall).fileClaims).reach .start
  let e ← compensateInCash e cash totalDebt
  let debts ← debtsOf e.claims
  let remainingDebt ← Decimal.sum (debts.map Prod.snd)
  if remainingDebt ≤ .epsilon then return (withoutDebts e).conclude .resolved ctx
  else settleRest e debts remainingDebt ctx

end AssetThreshold

end Insolvency
