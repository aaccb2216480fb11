/-
The words of an episode: how it ended, the stages it went through, and what entitled
somebody to new shares.
-/
import Insolvency.Party.Institution

namespace Insolvency

/-- How an episode ended. -/
inductive Outcome
  /-- Nothing needed doing. -/
  | compliant
  /-- The institution is solvent again. -/
  | resolved
  /-- The institution could not be saved; its books are untouched. -/
  | flaggedForLiquidation
  /-- Shares and debts were cancelled and the creditors own the institution. -/
  | liquidated
deriving DecidableEq, Repr

/-- The states an episode moves through. -/
inductive Stage
  | start
  | stocksTerminated
  | loansWrittenDown
  | depositsWrittenDown
  | cashCompensated
  | stockRedistributed
  | governmentFunded
  | sharesIssued
  | resolved
  | flaggedForLiquidation
  | liquidated
deriving DecidableEq, Repr

/-- The word a stage is written as. -/
def Stage.name : Stage → String
  | .start => "start"
  | .stocksTerminated => "stocks_terminated"
  | .loansWrittenDown => "loans_written_down"
  | .depositsWrittenDown => "deposits_written_down"
  | .cashCompensated => "cash_compensated"
  | .stockRedistributed => "stock_redistributed"
  | .governmentFunded => "government_funded"
  | .sharesIssued => "shares_issued"
  | .resolved => "resolved"
  | .flaggedForLiquidation => "flagged_for_liquidation"
  | .liquidated => "liquidated"

namespace Outcome

/-- All outcomes. -/
def all : List Outcome := [compliant, resolved, flaggedForLiquidation, liquidated]

/-- The word an outcome is written as. -/
def name : Outcome → String
  | compliant => "compliant"
  | resolved => "resolved"
  | flaggedForLiquidation => "flagged_for_liquidation"
  | liquidated => "liquidated"

/-- The outcome that a word is for. -/
def ofName? (word : String) : Option Outcome := all.find? (·.name == word)

/-- The outcome goes to the liquidation queue. -/
def needsLiquidation : Outcome → Bool
  | flaggedForLiquidation | liquidated => true
  | compliant | resolved => false

/-- Where the institution stands after the outcome. -/
def status : Outcome → InstitutionStatus
  | compliant => .operating
  | resolved => .resolved
  | flaggedForLiquidation => .flaggedForLiquidation
  | liquidated => .liquidated

/-- The stage that an episode ends at; one with nothing to do has no stages. -/
def lastStage? : Outcome → Option Stage
  | compliant => none
  | resolved => some .resolved
  | flaggedForLiquidation => some .flaggedForLiquidation
  | liquidated => some .liquidated

end Outcome

/-- What entitles the recipient of new shares to them. -/
inductive Entitlement
  /-- A claim of theirs was written down. -/
  | writeDown
  /-- Their shares were cancelled. -/
  | cancelledShares
  /-- They put up cash. -/
  | funding
deriving DecidableEq, Repr

namespace Entitlement

/-- The place of a basis in the order. -/
def rank : Entitlement → Nat
  | writeDown => 0
  | cancelledShares => 1
  | funding => 2

theorem rank_injective {a b : Entitlement} (h : a.rank = b.rank) : a = b := by
  revert h
  cases a <;> cases b <;> decide

/-- The word a basis is written as. -/
def name : Entitlement → String
  | writeDown => "write_down"
  | cancelledShares => "terminated_holding"
  | funding => "funding"

end Entitlement

end Insolvency
