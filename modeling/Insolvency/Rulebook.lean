/-
The rulebook: every parameter of a resolution authority.

Each parameter has a standard value, so a rulebook can be written down by the
parameters that differ.  Checking finds the first parameter out of range, in the
order of the fields.  A draft is checked in what it sets and standard in the rest,
which comes to the same because the standard values are all in range.
-/
import Insolvency.Capital.RiskWeights
import Insolvency.Capital.Shortfall
import Insolvency.Credit.Approval
import Insolvency.Episode.Policy

namespace Insolvency

/-- The parameters of a resolution authority. -/
structure Rulebook where
  riskWeights : RiskWeights
  target : CapitalTarget
  /-- The terms of intermediaries spawned in an episode. -/
  terms : SellOffTerms
  loanApproval : LoanApproval
  riskMeasure : RiskMeasure
  /-- The procedure for an institution short of capital. -/
  policy : Policy
deriving DecidableEq

namespace Rulebook

/-- The rulebook used where no other is given: a target of 8 % and bail-ins. -/
def standard : Rulebook where
  riskWeights := .standard
  target := ⟨0.08⟩
  terms := .standard
  loanApproval := .alwaysDeny
  riskMeasure := .simpleLeverage
  policy := .bailin

/-- The first parameter out of range, in the order of the fields. -/
def fault? (b : Rulebook) : Option ConfigFault :=
  b.riskWeights.fault?
    <|> b.target.fault?
    <|> b.terms.fault?
    <|> b.loanApproval.fault?
    <|> b.policy.fault?

/-- Refuses a rulebook with a parameter out of range. -/
def check (b : Rulebook) : Except Error Unit := ConfigFault.refuse b.fault?

/-- A rulebook with parameters still open. -/
structure Draft where
  riskWeights : Option RiskWeights := none
  target : Option CapitalTarget := none
  terms : Option SellOffTerms := none
  loanApproval : Option LoanApproval := none
  riskMeasure : Option RiskMeasure := none
  policy : Option Policy := none

namespace Draft

/-- The first parameter set out of range, in the order of the fields. -/
def fault? (d : Draft) : Option ConfigFault :=
  d.riskWeights.bind RiskWeights.fault?
    <|> d.target.bind CapitalTarget.fault?
    <|> d.terms.bind SellOffTerms.fault?
    <|> d.loanApproval.bind LoanApproval.fault?
    <|> d.policy.bind Policy.fault?

/-- The rulebook with the open parameters at their standard values. -/
def filled (d : Draft) : Rulebook where
  riskWeights := d.riskWeights.getD standard.riskWeights
  target := d.target.getD standard.target
  terms := d.terms.getD standard.terms
  loanApproval := d.loanApproval.getD standard.loanApproval
  riskMeasure := d.riskMeasure.getD standard.riskMeasure
  policy := d.policy.getD standard.policy

/-- The rulebook that a draft describes, if all it sets is in range. -/
def build (d : Draft) : Except Error Rulebook := do
  ConfigFault.refuse d.fault?
  return d.filled

end Draft

end Rulebook

end Insolvency
