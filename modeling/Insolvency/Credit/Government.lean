/-
The government: a budget for bailing institutions out.
-/
import Insolvency.Error

namespace Insolvency

/-- A funder with what it can still give and what it has given. -/
structure Government where
  id : String
  budget : Decimal
  disbursed : Decimal
deriving DecidableEq

namespace Government

/-- The government as a party. -/
def agentId (g : Government) : AgentId := ⟨.government, g.id⟩

/-- A government that has given nothing yet; its budget must not be below nothing. -/
def found (id : String) (budget : Decimal) : Except Error Government := do
  ConfigFault.refuse (if budget < 0 then some .negativeBudget else none)
  return ⟨id, budget, 0⟩

/-- The government after giving an amount, whatever its budget. -/
def disburse (g : Government) (amount : Decimal) : Except Decimal.Fault Government := do
  let budget ← g.budget.sub amount
  return { g with budget, disbursed := ← g.disbursed.add amount }

/-- The government after giving an amount that its budget allows. -/
def fund (g : Government) (amount : Decimal) : Except Error Government := do
  if amount < 0 then throw (.invalidAmount amount)
  if g.budget < amount then throw .insufficientFunds
  g.disburse amount

end Government

end Insolvency
