/-
Risk-weighted assets: how much of each class counts towards the capital requirement.

A class without a weight of its own takes the fallback.
-/
import Insolvency.Error
import Insolvency.Ledger.Assets

namespace Insolvency

/-- The weight of each class of asset. -/
structure RiskWeights where
  weights : Accounts AssetClass
  fallback : Decimal
deriving DecidableEq

namespace RiskWeights

/-- The weights used where no others are given. -/
def standard : RiskWeights where
  weights := Table.ofList [
    (.cash, 0), (.governmentBond, 0), (.mortgage, 0.5), (.interbankLoan, 0.2), (.repoLoan, 0.2),
    (.commercialLoan, 1), (.equity, 3.0), (.other, 1)]
  fallback := 1

/-- The first weight below nothing, the fallback before the classes. -/
def fault? (w : RiskWeights) : Option ConfigFault :=
  if w.fallback < 0 then some .negativeFallbackWeight
  else (w.weights.entries.find? (·.2 < 0)).map fun e => .negativeWeight e.1

/-- Refuses weights below nothing. -/
def check (w : RiskWeights) : Except Error Unit := ConfigFault.refuse w.fault?

/-- The table with another weight for a class, if it passes the check. -/
def reweight (w : RiskWeights) (cls : AssetClass) (weight : Decimal) :
    Except Error RiskWeights := do
  let changed : RiskWeights := { w with weights := w.weights.insert cls weight }
  changed.check
  return changed

/-- The weight of a class. -/
def weight (w : RiskWeights) (cls : AssetClass) : Decimal := (w.weights.get? cls).getD w.fallback

/-- The value of each holding times the weight of its class, added up. -/
def weighted (w : RiskWeights) (assets : Assets) : Except Decimal.Fault Decimal :=
  assets.holdings.entries.foldlM (fun sum e => do sum.add (← e.2.mul (w.weight e.1))) 0

/-- The risk-weighted assets; a book that holds anything negative has none. -/
def riskWeightedAssets (w : RiskWeights) (assets : Assets) : Except Error Decimal :=
  if assets.hasNegative then .error (.corruptLedger .negativeAsset)
  else w.weighted assets

end RiskWeights

end Insolvency
