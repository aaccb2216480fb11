/-
The resolution authority: it assesses institutions against the capital target and
resolves those that fall short.

An authority is a rulebook that has passed its check, so whatever depends on the
parameters being in range can rely on it.
-/
import Insolvency.Credit.CentralBank
import Insolvency.Rulebook

namespace Insolvency

/-- A rulebook whose parameters are all in range. -/
structure Authority where
  rulebook : Rulebook
  inRange : rulebook.fault? = none

/-- Where an institution stands against its capital requirement. -/
structure Assessment where
  equity : Decimal
  riskWeightedAssets : Decimal
  /-- The equity lacking; nothing if the institution complies. -/
  shortfall : Decimal
deriving DecidableEq

/-- The institution meets its target. -/
def Assessment.isCompliant (a : Assessment) : Bool := a.shortfall == 0

namespace Authority

/-- The authority of a rulebook, if it passes the check. -/
def found (b : Rulebook) : Except Error Authority :=
  match h : b.fault? with
  | none => .ok ⟨b, h⟩
  | some fault => .error (.invalidConfiguration fault)

/-- An institution measured against the target. -/
def assess (a : Authority) (i : Institution) : Except Error Assessment := do
  i.sheet.check
  let equity : Decimal ← i.equity
  let riskWeightedAssets ← a.rulebook.riskWeights.riskWeightedAssets i.sheet.assets
  let shortfall ← a.rulebook.target.shortfall equity riskWeightedAssets
  return ⟨equity, riskWeightedAssets, shortfall⟩

/-- The policy of the rulebook run on an institution that falls short, with intermediaries on
the rulebook's terms.  One that complies is left alone, and so is the context. -/
def resolve (a : Authority) (i : Institution) (ctx : Context) :
    Except Error (Episode × Context) := do
  let assessment ← a.assess i
  if assessment.isCompliant then return (.compliant i, ctx)
  a.rulebook.policy.resolve i assessment.shortfall { ctx with terms := a.rulebook.terms }

/-- A central bank that lends by the rulebook. -/
def centralBank (a : Authority) (id : String) : Except Error CentralBank :=
  CentralBank.found id a.rulebook.loanApproval a.rulebook.riskMeasure

end Authority

end Insolvency
