/-
Resolution episodes.

An episode takes an institution that is short of capital and ends with the
institution as it then stands and a record of everything done to it: claims written
down, shares cancelled, allotted and moved, cash paid, intermediaries spawned, and
totals over all of it.  The record is built up stage by stage, and the functions
here are the steps that need nothing but the episode itself.
-/
import Insolvency.Change
import Insolvency.Episode.Outcome
import Insolvency.Ledger.Claim

namespace Insolvency

/-- A share account cancelled without compensation. -/
structure CancelledAccount where
  holder : AgentId
  quantity : Decimal
  /-- The quantity at the price before the cancellation. -/
  lostValue : Decimal
deriving DecidableEq

/-- New shares.  The holder is an intermediary where the creditor may hold none. -/
structure Allotment where
  creditor : AgentId
  holder : AgentId
  quantity : Decimal
  /-- What the creditor is credited with for these shares. -/
  value : Decimal
  /-- Why the creditor gets them. -/
  basis : Entitlement
deriving DecidableEq

/-- Shares moved from a holder to a creditor without compensation. -/
structure Handover where
  source : AgentId
  creditor : AgentId
  holder : AgentId
  quantity : Decimal
  value : Decimal
deriving DecidableEq

/-- Cash paid to a creditor. -/
structure Payment where
  creditor : AgentId
  amount : Decimal
deriving DecidableEq

/-- Figures over a whole episode. -/
structure Totals where
  /-- What the episode set out to cover, with the value of self-held shares. -/
  shortfall : Decimal := 0
  /-- What is left of it at the end. -/
  remainingShortfall : Decimal := 0
  loansWrittenDown : Decimal := 0
  depositsWrittenDown : Decimal := 0
  cashPaid : Decimal := 0
  /-- Value of the equity handed to creditors, at the price used for it. -/
  equityValueDelivered : Decimal := 0
  /-- Claims extinguished by a payment or by equity. -/
  claimsSettled : Decimal := 0
  /-- Claims cancelled for nothing. -/
  debtForgiven : Decimal := 0
  /-- Equity value that creditors got beyond what they were owed. -/
  surplusToCreditors : Decimal := 0
  governmentFunding : Decimal := 0
  sharesIssued : Decimal := 0
  /-- The share price published at the end, if one was. -/
  newSharePrice : Option Decimal := none
deriving DecidableEq

/-- All that was written down of loans and deposits. -/
def Totals.writtenDown (t : Totals) : Except Decimal.Fault Decimal :=
  t.loansWrittenDown.add t.depositsWrittenDown

/-- What a creditor gets in equity for a debt, booked: settled as far as the value goes, the rest
of the debt forgiven, the rest of the value a surplus. -/
def Totals.settle (t : Totals) (debt settled value : Decimal) : Except Decimal.Fault Totals := do
  let claimsSettled ← t.claimsSettled.add settled
  let debtForgiven ← t.debtForgiven.add (← debt.sub settled)
  let surplusToCreditors ← t.surplusToCreditors.add (← value.sub settled)
  let equityValueDelivered ← t.equityValueDelivered.add value
  return { t with claimsSettled, debtForgiven, surplusToCreditors, equityValueDelivered }

/-- An episode with everything done in it so far, and at its end its result. -/
structure Episode where
  outcome : Outcome
  /-- The stages it has come to, in order. -/
  trace : List Stage
  /-- The institution as it stands. -/
  institution : Institution
  claims : List Claim
  cancelled : List CancelledAccount
  allotments : List Allotment
  handovers : List Handover
  payments : List Payment
  /-- The intermediaries spawned, in order. -/
  intermediaries : List Intermediary
  totals : Totals
deriving DecidableEq

namespace Episode

/-- An episode in which nothing has happened yet. -/
def opening (institution : Institution) (shortfall : Decimal) : Episode where
  outcome := .compliant
  trace := []
  institution := institution
  claims := []
  cancelled := []
  allotments := []
  handovers := []
  payments := []
  intermediaries := []
  totals := { shortfall := shortfall, remainingShortfall := shortfall }

/-- The result for an institution that needs nothing. -/
def compliant (institution : Institution) : Episode := opening institution 0

/-- The episode has come to a stage. -/
def reach (e : Episode) (stage : Stage) : Episode :=
  { e with trace := e.trace ++ [stage] }

/-- The changes to store: the institution updated and the intermediaries created. -/
def changes (e : Episode) : List Change :=
  if e.outcome = .compliant then []
  else ⟨.update, .institution e.institution⟩
    :: e.intermediaries.map fun m => ⟨.create, .intermediary m⟩

/-! ### The institution's books inside an episode -/

/-- The assets as they stand. -/
def assets (e : Episode) : Assets := e.institution.sheet.assets

/-- The liabilities as they stand. -/
def liabilities (e : Episode) : Liabilities := e.institution.sheet.liabilities

/-- The share accounts as they stand. -/
def shares (e : Episode) : Shares := e.institution.sheet.shares

/-- The episode with other assets. -/
def withAssets (e : Episode) (assets : Assets) : Episode :=
  { e with institution := e.institution.withAssets assets }

/-- The episode with other liabilities. -/
def withLiabilities (e : Episode) (liabilities : Liabilities) : Episode :=
  { e with institution := e.institution.withLiabilities liabilities }

/-- The episode with other share accounts. -/
def withShares (e : Episode) (shares : Shares) : Episode :=
  { e with institution := e.institution.withShares shares }

/-! ### Claims -/

/-- Fresh claims for what each creditor is owed. -/
def claimsOf (l : Liabilities) : Except Decimal.Fault (List Claim) :=
  l.byCreditor.entries.mapM fun x => return .fresh x.1 (← x.2.total)

/-- The episode with a fresh claim on file for every creditor. -/
def fileClaims (e : Episode) : Except Decimal.Fault Episode :=
  return { e with claims := ← claimsOf e.liabilities }

/-- The first claim of a creditor written down in a list of claims. -/
def writeDownIn (creditor : AgentId) (amount : Decimal) :
    List Claim → Except Decimal.Fault (List Claim)
  | [] => .ok []
  | c :: rest =>
    if c.creditor = creditor then return (← c.writeDown amount) :: rest
    else return c :: (← writeDownIn creditor amount rest)

/-- A creditor's claim written down. -/
def writeDownClaim (e : Episode) (creditor : AgentId) (amount : Decimal) :
    Except Decimal.Fault Episode :=
  return { e with claims := ← writeDownIn creditor amount e.claims }

/-! ### Shares -/

/-- The record of a cancelled account. -/
def cancelledAccount (price : Decimal) (holder : AgentId) (quantity : Decimal) :
    Except Decimal.Fault CancelledAccount :=
  return ⟨holder, quantity, ← quantity.mul price⟩

/-- Every share account cancelled, with a record of what each holder lost at a price. -/
def cancelShares (e : Episode) (price : Decimal) : Except Decimal.Fault Episode := do
  let lost ← e.shares.holders.entries.mapM fun x => cancelledAccount price x.1 x.2
  return { e.withShares .empty with cancelled := e.cancelled ++ lost }

/-- The number of shares that new equity is split into: as many as there were, or a single one
if there were none to speak of. -/
def normalizedCount (outstanding : Decimal) : Decimal :=
  if outstanding ≤ .epsilon then 1 else outstanding

end Episode

end Insolvency
