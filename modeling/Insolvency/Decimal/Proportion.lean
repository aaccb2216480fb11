/-
Amounts that count as nothing, and shares of a whole.

Write-downs and the splitting of shares all go through `proportion`, which answers
with a part between 0 and 1 even where the whole is dust or the part exceeds it.
The quotient is worked out before it is clamped, so a quotient that is no amount is
a fault and not a 1.
-/
import Insolvency.Decimal.Basic

namespace Insolvency.Decimal

/-- The amount is dust: at most 10⁻¹² away from nothing. -/
def isNegligible (d : Decimal) : Bool :=
  decide (-epsilon ≤ d ∧ d ≤ epsilon)

/-- The value kept between two bounds; of bounds that cross, the upper one counts. -/
def clamp (lower value upper : Decimal) : Decimal :=
  min (max value lower) upper

/-- How much of the whole a part is, between 0 and 1; nothing if the whole is dust or less. -/
def proportion (part whole : Decimal) : Except Fault Decimal :=
  if whole ≤ epsilon then .ok 0
  else return clamp 0 (← part.div whole) 1

end Insolvency.Decimal
