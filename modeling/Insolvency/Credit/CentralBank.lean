/-
The central bank: emergency loans in cash, one at a time per institution.

A loan is booked on both sides of the borrower's sheet and remembered until it is
settled; while it is, the borrower gets no other.
-/
import Insolvency.Credit.Approval
import Insolvency.Change

namespace Insolvency

/-- Why a loan is denied. -/
inductive Denial
  | policy
  | outstanding
deriving DecidableEq, Repr

/-- The lender of last resort. -/
structure CentralBank where
  id : String
  approval : LoanApproval
  measure : RiskMeasure
  /-- The unsettled loans by borrower. -/
  outstanding : Accounts InstitutionId
deriving DecidableEq

namespace CentralBank

/-- The central bank as a party. -/
def agentId (b : CentralBank) : AgentId := ⟨.centralBank, b.id⟩

/-- A central bank without loans; its approval rule has to be in range. -/
def found (id : String) (approval : LoanApproval) (measure : RiskMeasure) :
    Except Error CentralBank := do
  ConfigFault.refuse approval.fault?
  return ⟨id, approval, measure, ∅⟩

/-- The risk at which an institution would get a loan, or why it would not. -/
def assess (b : CentralBank) (i : Institution) :
    Except Decimal.Fault (Except Denial Decimal) := do
  if b.outstanding.contains i.id then return .error .outstanding
  let risk ← b.measure.risk i.sheet
  return if b.approval.approves risk then .ok risk else .error .policy

/-- The borrower with a loan in its books. -/
def book (b : CentralBank) (i : Institution) (amount : Decimal) (now : Timestamp) :
    Except Decimal.Fault Institution := do
  let assets ← i.sheet.assets.creditHolding .cash amount
  let liabilities ← i.sheet.liabilities.creditLoan b.agentId amount
  return { (i.withAssets assets).withLiabilities liabilities with updated := now }

/-- Asks for a loan.  An approved one comes back as the borrower with the loan in its books. -/
def request (b : CentralBank) (i : Institution) (amount : Decimal) (now : Timestamp) :
    Except Error (CentralBank × Except Denial Institution) := do
  if amount ≤ 0 then throw (.invalidAmount amount)
  if i.isDeleted then throw (.objectIsDeleted .institution)
  match ← b.assess i with
  | .error denial => return (b, .error denial)
  | .ok _ =>
    let borrower : Institution ← b.book i amount now
    return ({ b with outstanding := b.outstanding.insert i.id amount }, .ok borrower)

/-- The loan of an institution settled, and how much it was. -/
def settle (b : CentralBank) (id : InstitutionId) : CentralBank × Option Decimal :=
  ({ b with outstanding := b.outstanding.erase id }, b.outstanding.get? id)

end CentralBank

end Insolvency
