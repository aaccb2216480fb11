/-
Bail-in: creditors and shareholders cover the shortfall and get the institution for it.

All shares are cancelled, then loans and, as far as they do not suffice, deposits are
written down, each class by one proportion.  If both together do not cover the
shortfall, the episode is given up.  Otherwise as many shares as there were before
go to those who lost something, in proportion to their losses.  An institution's
shares in itself are worth nothing once they are cancelled: they come off its equity
assets and deepen the shortfall.
-/
import Insolvency.Episode.Context

namespace Insolvency.Bailin

/-- What is left to cover after a recovery, dust counting as nothing. -/
def leftAfter (remaining recovered : Decimal) : Except Decimal.Fault Decimal := do
  let left ← remaining.sub recovered
  return if left ≤ .epsilon then 0 else left

/-! ### Cancelling the shares -/

/-- The value that cancelled shares of the institution in itself take off its equity assets. -/
def selfHeldValue (e : Episode) (quantity price : Decimal) : Except Decimal.Fault Decimal :=
  return min (← quantity.mul price) (e.assets.holding .equity)

/-- The institution's cancelled shares in itself taken off its assets, which deepens the
shortfall. -/
def removeSelfHeld (e : Episode) (held : Option Decimal) (price : Decimal) :
    Except Decimal.Fault Episode := do
  match held with
  | none => return e
  | some quantity =>
    let removed ← selfHeldValue e quantity price
    let assets ← e.assets.creditHolding .equity (-removed)
    let remainingShortfall ← e.totals.remainingShortfall.add removed
    let shortfall ← e.totals.shortfall.add removed
    return { e.withAssets assets with
      totals := { e.totals with shortfall, remainingShortfall } }

/-- All shares cancelled, those of the institution in itself at its own cost. -/
def cancelSharesAtCost (e : Episode) (price : Decimal) : Except Decimal.Fault Episode := do
  let held := e.shares.holders.get? e.institution.agentId
  return (← removeSelfHeld (← e.cancelShares price) held price).reach .stocksTerminated

/-! ### Writing down the liabilities -/

/-- The factor that a class of liabilities of a total value is scaled by; `none` if nothing of
it is needed. -/
def writeDownFactor (remaining total : Decimal) : Except Decimal.Fault (Option Decimal) := do
  let p ← Decimal.proportion remaining total
  if p = 0 then return none else return some (← Decimal.sub 1 p)

/-- The liabilities with the loans scaled by what is needed of them, and what each creditor
lost. -/
def scaleLoans (e : Episode) : Except Decimal.Fault (Liabilities × Accounts AgentId) := do
  let total ← e.liabilities.loans.total
  match ← writeDownFactor e.totals.remainingShortfall total with
  | none => return (e.liabilities, ∅)
  | some factor => e.liabilities.scaleLoans factor

/-- The loans written down, and what each creditor lost. -/
def writeDownLoans (e : Episode) : Except Decimal.Fault (Episode × Accounts AgentId) := do
  let (liabilities, lost) ← scaleLoans e
  let recovered ← lost.total
  let remainingShortfall ← leftAfter e.totals.remainingShortfall recovered
  let totals := { e.totals with loansWrittenDown := recovered, remainingShortfall }
  return ({ e.withLiabilities liabilities with totals }.reach .loansWrittenDown, lost)

/-- The liabilities with the deposits scaled by what is needed of them, if anything is left to
cover, and what each creditor lost. -/
def scaleDeposits (e : Episode) : Except Decimal.Fault (Liabilities × Accounts AgentId) := do
  if 0 < e.totals.remainingShortfall then
    let total ← e.liabilities.deposits.total
    match ← writeDownFactor e.totals.remainingShortfall total with
    | none => return (e.liabilities, ∅)
    | some factor => e.liabilities.scaleDeposits factor
  else return (e.liabilities, ∅)

/-- The deposits written down if anything is left to cover, and what each creditor lost. -/
def writeDownDeposits (e : Episode) :
    Except Decimal.Fault (Episode × Accounts AgentId) := do
  let (liabilities, lost) ← scaleDeposits e
  let recovered ← lost.total
  let remainingShortfall ← leftAfter e.totals.remainingShortfall recovered
  let totals := { e.totals with depositsWrittenDown := recovered, remainingShortfall }
  return ({ e.withLiabilities liabilities with totals }.reach .depositsWrittenDown, lost)

/-! ### Compensating the losses -/

/-- Who lost something, and how. -/
structure Loser where
  party : AgentId
  basis : Entitlement
deriving DecidableEq

/-- The place of a loser's basis in the order. -/
def Loser.rank (l : Loser) : Nat := l.basis.rank

/-- By party, then by basis. -/
instance : Ord Loser := ⟨compareLex (compareOn Loser.party) (compareOn Loser.rank)⟩

instance : Std.TransOrd Loser :=
  inferInstanceAs (Std.TransCmp (compareLex (compareOn Loser.party) (compareOn Loser.rank)))

instance : Std.LawfulEqOrd Loser where
  eq_of_compare {a b} h := by
    have h' : (compare a.party b.party).then (compare a.basis.rank b.basis.rank) = .eq := h
    obtain ⟨hp, hb⟩ := Ordering.then_eq_eq.mp h'
    have hparty := Std.LawfulEqCmp.eq_of_compare hp
    have hbasis := Entitlement.rank_injective (Std.LawfulEqCmp.eq_of_compare hb)
    cases a
    cases b
    cases hparty
    cases hbasis
    rfl

/-- A loss on a liability: the claim is written down and the loss is added to the losses. -/
def recordWriteDown (state : Episode × Accounts Loser) (loss : AgentId × Decimal) :
    Except Decimal.Fault (Episode × Accounts Loser) := do
  let e ← state.1.writeDownClaim loss.1 loss.2
  return (e, ← state.2.credit ⟨loss.1, .writeDown⟩ loss.2)

/-- A cancelled account that counts as a loss: not the institution's own, nor a creditor's, and
worth more than dust. -/
def compensated (before : Institution) (h : CancelledAccount) : Bool :=
  h.holder != before.agentId && !before.sheet.liabilities.isCreditor h.holder
    && decide (Decimal.epsilon < h.lostValue)

/-- A cancelled account added to the losses if it counts. -/
def recordCancellation (before : Institution) (losses : Accounts Loser) (h : CancelledAccount) :
    Accounts Loser :=
  if compensated before h then losses.insert ⟨h.holder, .cancelledShares⟩ h.lostValue
  else losses

/-- Shares allotted for one loss, as large a part of the base as the loss is of all losses. -/
def compensate (base totalLoss : Decimal) (ctx : Context) (e : Episode)
    (loss : Loser × Decimal) : Except Decimal.Fault Episode := do
  if loss.2 ≤ 0 then return e
  let quantity ← base.mul (← Decimal.proportion loss.2 totalLoss)
  e.allot loss.1.party quantity loss.2 loss.1.basis ctx

/-- The shares handed to those who lost something, and the new price published. -/
def compensateAll (before : Institution) (base : Decimal) (lost : List (AgentId × Decimal))
    (e : Episode) (ctx : Context) : Except Decimal.Fault (Episode × Context) := do
  let (e, writeDowns) ← lost.foldlM recordWriteDown (e, ∅)
  let losses := e.cancelled.foldl (recordCancellation before) writeDowns
  let totalLoss ← losses.total
  let e ← losses.entries.foldlM (compensate base totalLoss ctx) e
  let e := e.reach .sharesIssued
  let price ← e.sharePrice base
  let (e, ctx) := e.publishPrice price ctx
  return e.conclude .resolved ctx

/-- A bank's shortfall covered by its creditors. -/
def run (bank : Institution) (shortfall : Decimal) (ctx : Context) :
    Except Decimal.Fault (Episode × Context) := do
  if shortfall ≤ .epsilon then return (.compliant bank, ctx)
  let price := ctx.book.value bank.id
  let e := Episode.opening bank shortfall
  let base ← e.shareCount
  let e := (← e.fileClaims).reach .start
  let e ← cancelSharesAtCost e price
  let (e, loansLost) ← writeDownLoans e
  let (e, depositsLost) ← writeDownDeposits e
  if 0 < e.totals.remainingShortfall then e.giveUp bank ctx
  else compensateAll bank base (loansLost.entries ++ depositsLost.entries) e ctx

end Insolvency.Bailin
