/-
Claims: what a creditor is owed when an episode begins, and how much of it is gone.

A claim is never written down by a negative amount, nor by more than is left of it.
-/
import Insolvency.Party.Agent
import Insolvency.Decimal.Basic

namespace Insolvency

/-- A creditor's claim. -/
structure Claim where
  creditor : AgentId
  /-- What was owed when the episode began. -/
  amount : Decimal
  /-- How much of it is written down or settled. -/
  writtenDown : Decimal
deriving DecidableEq

namespace Claim

/-- A claim of which nothing is written down. -/
def fresh (creditor : AgentId) (amount : Decimal) : Claim := ⟨creditor, amount, 0⟩

/-- What is left of the claim. -/
def remaining (c : Claim) : Except Decimal.Fault Decimal := c.amount.sub c.writtenDown

/-- The claim reduced by an amount, as far as that is possible. -/
def writeDown (c : Claim) (amount : Decimal) : Except Decimal.Fault Claim := do
  let capped := min (max amount 0) (← c.remaining)
  return { c with writtenDown := ← c.writtenDown.add capped }

end Claim

end Insolvency
