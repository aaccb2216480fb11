/-
Whether an institution gets an emergency loan.

A risk measure makes one number of the books; an approval rule compares it with a
threshold.  Neither keeps anything between loans.
-/
import Insolvency.Ledger.BalanceSheet

namespace Insolvency

/-- A number for how risky an institution looks to a lender. -/
inductive RiskMeasure
  /-- Assets over equity; without equity the risk is the largest there is. -/
  | simpleLeverage
deriving DecidableEq, Repr

namespace RiskMeasure

/-- The word a measure is written as. -/
def name : RiskMeasure → String
  | simpleLeverage => "simple_leverage"

/-- The measure that a word is for. -/
def ofName? (word : String) : Option RiskMeasure := [simpleLeverage].find? (·.name == word)

/-- The risk that the books show. -/
def risk : RiskMeasure → BalanceSheet → Except Decimal.Fault Decimal
  | simpleLeverage, s => do
    let equity ← s.equity
    if equity ≤ 0 then return .largest else (← s.totalAssets).div equity

end RiskMeasure

/-- Whom to lend to. -/
inductive LoanApproval
  | alwaysDeny
  /-- Whoever is no riskier than the threshold. -/
  | riskBased (threshold : Decimal)
deriving DecidableEq

namespace LoanApproval

/-- The risk-based rule with the threshold used where no other is given. -/
def standardRiskBased : LoanApproval := .riskBased 0.1

/-- A threshold below nothing. -/
def fault? : LoanApproval → Option ConfigFault
  | alwaysDeny => none
  | riskBased threshold => if threshold < 0 then some .negativeLoanThreshold else none

/-- The rule lends at this risk. -/
def approves : LoanApproval → Decimal → Bool
  | alwaysDeny, _ => false
  | riskBased threshold, risk => decide (risk ≤ threshold)

end LoanApproval

end Insolvency
