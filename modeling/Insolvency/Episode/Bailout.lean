/-
Bail-out: the government pays the shortfall and gets the bank for it.

All shares are cancelled.  If the government's budget covers the shortfall, it is
paid in cash and as many shares as there were before go to the government; if there
is no government or its budget does not suffice, the episode is given up.
-/
import Insolvency.Episode.Context

namespace Insolvency.Bailout

/-- The government that can pay an amount, if there is one. -/
def funder? (ctx : Context) (amount : Decimal) : Option Government :=
  ctx.government.filter fun g => decide (amount ≤ g.budget)

/-- The amount paid in cash. -/
def inject (e : Episode) (amount : Decimal) : Except Decimal.Fault Episode := do
  let assets ← e.assets.creditHolding .cash amount
  let totals := { e.totals with governmentFunding := amount, remainingShortfall := 0 }
  return { e.withAssets assets with totals }.reach .governmentFunded

/-- A bank's shortfall paid by the government. -/
def run (bank : Institution) (shortfall : Decimal) (ctx : Context) :
    Except Decimal.Fault (Episode × Context) := do
  if shortfall ≤ .epsilon then return (.compliant bank, ctx)
  let price := ctx.book.value bank.id
  let e := Episode.opening bank shortfall
  let base ← e.shareCount
  let e := (← e.fileClaims).reach .start
  let e := (← e.cancelShares price).reach .stocksTerminated
  match funder? ctx shortfall with
  | none => e.giveUp bank ctx
  | some government =>
    let ctx := { ctx with government := some (← government.disburse shortfall) }
    let e ← inject e shortfall
    let e := (← e.allot government.agentId base shortfall .funding ctx).reach .sharesIssued
    let newPrice ← e.sharePrice base
    let (e, ctx) := e.publishPrice newPrice ctx
    return e.conclude .resolved ctx

end Insolvency.Bailout
