/-
What an institution owes: loans and deposits, each by creditor.

The two are written down in turn, loans first, so they are separate accounts.  An
operation on one of them sweeps entries of nothing out of both.  Seen by creditor
they are what claims are opened for.
-/
import Insolvency.Party.Agent
import Insolvency.Ledger.Accounts

namespace Insolvency

/-- What one creditor is owed. -/
structure Owed where
  loanValue : Decimal
  depositValue : Decimal
deriving DecidableEq

/-- All that the creditor is owed. -/
def Owed.total (l : Owed) : Except Decimal.Fault Decimal :=
  l.loanValue.add l.depositValue

/-- An institution's liabilities by creditor. -/
structure Liabilities where
  loans : Accounts AgentId
  deposits : Accounts AgentId
deriving DecidableEq

namespace Liabilities

/-- No liabilities at all. -/
def empty : Liabilities := ⟨∅, ∅⟩

/-- The loan owed to a creditor. -/
def loan (l : Liabilities) (creditor : AgentId) : Decimal := l.loans.amount creditor

/-- The deposit owed to a creditor. -/
def deposit (l : Liabilities) (creditor : AgentId) : Decimal := l.deposits.amount creditor

/-- The liabilities without entries of nothing. -/
def swept (l : Liabilities) : Liabilities := ⟨l.loans.swept, l.deposits.swept⟩

/-- A loan set to a value. -/
def setLoan (l : Liabilities) (creditor : AgentId) (v : Decimal) : Liabilities :=
  { l with loans := l.loans.setTo creditor v }

/-- A deposit set to a value. -/
def setDeposit (l : Liabilities) (creditor : AgentId) (v : Decimal) : Liabilities :=
  { l with deposits := l.deposits.setTo creditor v }

/-- A value added to a loan. -/
def creditLoan (l : Liabilities) (creditor : AgentId) (v : Decimal) :
    Except Decimal.Fault Liabilities :=
  return swept { l with loans := ← l.loans.credit creditor v }

/-- A value added to a deposit. -/
def creditDeposit (l : Liabilities) (creditor : AgentId) (v : Decimal) :
    Except Decimal.Fault Liabilities :=
  return swept { l with deposits := ← l.deposits.credit creditor v }

/-- All loans multiplied by a factor, and by how much each shrank. -/
def scaleLoans (l : Liabilities) (factor : Decimal) :
    Except Decimal.Fault (Liabilities × Accounts AgentId) := do
  let (scaled, shrunk) ← l.loans.scale factor
  return (swept { l with loans := scaled }, shrunk)

/-- All deposits multiplied by a factor, and by how much each shrank. -/
def scaleDeposits (l : Liabilities) (factor : Decimal) :
    Except Decimal.Fault (Liabilities × Accounts AgentId) := do
  let (scaled, shrunk) ← l.deposits.scale factor
  return (swept { l with deposits := scaled }, shrunk)

/-- The liabilities without the loans. -/
def withoutLoans (l : Liabilities) : Liabilities := { l with loans := ∅ }

/-- The liabilities without the deposits. -/
def withoutDeposits (l : Liabilities) : Liabilities := { l with deposits := ∅ }

/-- The value of everything owed, loans first. -/
def total (l : Liabilities) : Except Decimal.Fault Decimal := do
  let loans ← l.loans.total
  loans.add (← l.deposits.total)

/-- Nothing is owed. -/
def isZero (l : Liabilities) : Bool := l.loans.isZero && l.deposits.isZero

/-- Some liability is below nothing. -/
def hasNegative (l : Liabilities) : Bool := l.loans.hasNegative || l.deposits.hasNegative

/-- The party has an entry among the loans or the deposits. -/
def isCreditor (l : Liabilities) (a : AgentId) : Bool :=
  l.loans.contains a || l.deposits.contains a

/-- What each creditor is owed. -/
def byCreditor (l : Liabilities) : Table AgentId Owed :=
  Table.ofList <| (l.loans.keys ++ l.deposits.keys).map fun c => (c, ⟨l.loan c, l.deposit c⟩)

end Liabilities

end Insolvency
