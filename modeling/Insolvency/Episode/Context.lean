/-
What an episode works with: prices, the liquidation queue, a government if there is
one, the terms for intermediaries, and the time.

An episode answers with its report and with the context as it leaves it.  Ids for
the intermediaries that an episode spawns come from `newId`, counted from nothing in
every episode, so that what an episode does hangs on its context alone.
-/
import Insolvency.Credit.Government
import Insolvency.Decimal.Proportion
import Insolvency.Episode.Basic
import Insolvency.Market

namespace Insolvency

/-- What an episode finds and leaves behind. -/
structure Context where
  book : PriceBook
  /-- Institutions waiting to be liquidated, in order. -/
  queue : List (InstitutionId × Outcome)
  government : Option Government
  terms : SellOffTerms
  now : Timestamp
  /-- The ids of the intermediaries that one episode spawns, in order. -/
  newId : Nat → IntermediaryId

namespace Context

/-- The context with a price published. -/
def publish (ctx : Context) (stock : InstitutionId) (price : Decimal) : Context :=
  { ctx with book := ctx.book.publish stock price }

/-- The context with an institution queued for liquidation, if the outcome asks for it. -/
def schedule (ctx : Context) (id : InstitutionId) (outcome : Outcome) : Context :=
  if outcome.needsLiquidation then { ctx with queue := ctx.queue ++ [(id, outcome)] } else ctx

end Context

namespace Episode

/-! ### Ending an episode -/

/-- The episode ended: the outcome is recorded, the institution stands accordingly, and the
queue hears of it if it has to. -/
def conclude (e : Episode) (outcome : Outcome) (ctx : Context) : Episode × Context :=
  ({ e with
      outcome := outcome
      trace := e.trace ++ outcome.lastStage?.toList
      institution := { e.institution with status := outcome.status, updated := ctx.now } },
    ctx.schedule e.institution.id outcome)

/-- The episode given up: the institution is put back as it was and flagged for liquidation.
Only the stages, fresh claims and the shortfall figures stay. -/
def giveUp (e : Episode) (before : Institution) (ctx : Context) :
    Except Decimal.Fault (Episode × Context) := do
  let blank : Episode :=
    { opening before e.totals.shortfall with
      trace := e.trace
      totals := {
        shortfall := e.totals.shortfall, remainingShortfall := e.totals.remainingShortfall } }
  return (← blank.fileClaims).conclude .flaggedForLiquidation ctx

/-- The institution's new share price published and noted. -/
def publishPrice (e : Episode) (price : Decimal) (ctx : Context) : Episode × Context :=
  ({ e with totals := { e.totals with newSharePrice := some price } },
    ctx.publish e.institution.id price)

/-! ### Shares for creditors -/

/-- One more lot of shares for the intermediary that already holds for a beneficiary; `none` if
there is no such intermediary yet. -/
def addToHolding (beneficiary : AgentId) (stock : InstitutionId) (quantity : Decimal) :
    List Intermediary → Except Decimal.Fault (Option (List Intermediary × Intermediary))
  | [] => .ok none
  | m :: rest => do
    if m.beneficiary = beneficiary ∧ m.stock = stock then
      let m := { m with shares := ← m.shares.add quantity }
      return some (m :: rest, m)
    else match ← addToHolding beneficiary stock quantity rest with
      | some (rest, found) => return some (m :: rest, found)
      | none => return none

/-- Who holds shares for a creditor: itself if it may, else an intermediary, of which there is
one per creditor and episode.  The intermediary's own count grows by the quantity. -/
def assignHolder (e : Episode) (creditor : AgentId) (quantity : Decimal) (ctx : Context) :
    Except Decimal.Fault (Episode × AgentId) := do
  if creditor.canHoldEquity then return (e, creditor)
  match ← addToHolding creditor e.institution.id quantity e.intermediaries with
  | some (intermediaries, found) => return ({ e with intermediaries }, found.agentId)
  | none =>
    let fresh := Intermediary.spawn (ctx.newId e.intermediaries.length) creditor
      e.institution.id quantity ctx.terms ctx.now
    return ({ e with intermediaries := e.intermediaries ++ [fresh] }, fresh.agentId)

/-- New shares for a creditor, held by whoever may hold them. -/
def allot (e : Episode) (creditor : AgentId) (quantity value : Decimal)
    (basis : Entitlement) (ctx : Context) : Except Decimal.Fault Episode := do
  let (e, holder) ← e.assignHolder creditor quantity ctx
  let shares ← e.shares.issue holder quantity
  let sharesIssued ← e.totals.sharesIssued.add quantity
  return { e.withShares shares with
    totals := { e.totals with sharesIssued }
    allotments := e.allotments ++ [⟨creditor, holder, quantity, value, basis⟩] }

/-- The number of shares that the institution's new equity is split into. -/
def shareCount (e : Episode) : Except Decimal.Fault Decimal :=
  return normalizedCount (← e.shares.total)

/-- The share price that equity over a number of shares makes, never below nothing. -/
def sharePrice (e : Episode) (count : Decimal) : Except Decimal.Fault Decimal := do
  return max (← (← e.institution.equity).div count) 0

end Episode

end Insolvency
