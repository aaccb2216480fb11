/-
The capital shortfall: the equity an institution lacks for its target ratio.
-/
import Insolvency.Decimal.Proportion
import Insolvency.Error

namespace Insolvency

/-- The ratio of equity to risk-weighted assets that is asked for. -/
structure CapitalTarget where
  ratio : Decimal
deriving DecidableEq

namespace CapitalTarget

/-- A ratio below nothing asks for nothing meaningful. -/
def fault? (t : CapitalTarget) : Option ConfigFault :=
  if t.ratio < 0 then some .negativeTargetRatio else none

/-- `max(0, ratio · riskWeighted - equity)`, dust counting as nothing. -/
def shortfall (t : CapitalTarget) (equity riskWeighted : Decimal) : Except Error Decimal := do
  if riskWeighted < 0 then throw (.corruptLedger .negativeRiskWeightedAssets)
  let required : Decimal ← t.ratio.mul riskWeighted
  let lacking : Decimal ← required.sub equity
  return if lacking ≤ 0 ∨ lacking.isNegligible then 0 else lacking

end CapitalTarget

end Insolvency
