/-
Who holds how many shares of an institution.

The number of shares issued is the sum of the accounts, never a figure of its own.
Moving and retiring are capped by what the account holds and never move a negative
quantity; both answer how much was really moved.
-/
import Insolvency.Party.Agent
import Insolvency.Ledger.Accounts

namespace Insolvency

/-- An institution's share accounts. -/
structure Shares where
  holders : Accounts AgentId
deriving DecidableEq

namespace Shares

/-- No shares at all. -/
def empty : Shares := ⟨∅⟩

/-- The shares a party holds. -/
def held (r : Shares) (holder : AgentId) : Decimal := r.holders.amount holder

/-- A share account set to a quantity. -/
def setHeld (r : Shares) (holder : AgentId) (q : Decimal) : Shares :=
  ⟨r.holders.setTo holder q⟩

/-- New shares for a party. -/
def issue (r : Shares) (holder : AgentId) (q : Decimal) :
    Except Decimal.Fault Shares :=
  return ⟨Accounts.swept (← r.holders.credit holder q)⟩

/-- How much of a wanted quantity an account can give. -/
def movable (r : Shares) (holder : AgentId) (q : Decimal) : Decimal :=
  max (min q (r.held holder)) 0

/-- Shares moved between parties, and how many could be. -/
def transfer (r : Shares) (source target : AgentId) (q : Decimal) :
    Except Decimal.Fault (Shares × Decimal) := do
  let moved := r.movable source q
  let debited ← r.issue source (-moved)
  return (← debited.issue target moved, moved)

/-- Shares taken out of circulation, and how many could be. -/
def retire (r : Shares) (holder : AgentId) (q : Decimal) :
    Except Decimal.Fault (Shares × Decimal) := do
  let retired := r.movable holder q
  return (← r.issue holder (-retired), retired)

/-- All accounts multiplied by a factor, and by how much each shrank. -/
def scaleHolders (r : Shares) (factor : Decimal) :
    Except Decimal.Fault (Shares × Accounts AgentId) := do
  let (scaled, shrunk) ← r.holders.scale factor
  return (⟨scaled.swept⟩, shrunk)

/-- The shares issued and outstanding. -/
def total (r : Shares) : Except Decimal.Fault Decimal := r.holders.total

/-- No shares are held. -/
def isZero (r : Shares) : Bool := r.holders.isZero

/-- Some account is below nothing. -/
def hasNegative (r : Shares) : Bool := r.holders.hasNegative

end Shares

end Insolvency
