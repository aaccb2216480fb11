/-
What an institution owns: an amount for each class of asset.
-/
import Insolvency.Ledger.Accounts
import Insolvency.Ledger.AssetClass

namespace Insolvency

/-- An institution's assets by class. -/
structure Assets where
  holdings : Accounts AssetClass
deriving DecidableEq

namespace Assets

/-- No assets at all. -/
def empty : Assets := ⟨∅⟩

/-- The value held in a class. -/
def holding (a : Assets) (cls : AssetClass) : Decimal := a.holdings.amount cls

/-- Cash on hand. -/
def cash (a : Assets) : Decimal := a.holding .cash

/-- A holding set to a value. -/
def setHolding (a : Assets) (cls : AssetClass) (v : Decimal) : Assets :=
  ⟨a.holdings.setTo cls v⟩

/-- A value added to a holding. -/
def creditHolding (a : Assets) (cls : AssetClass) (v : Decimal) :
    Except Decimal.Fault Assets :=
  return ⟨Accounts.swept (← a.holdings.credit cls v)⟩

/-- All holdings multiplied by a factor, and by how much each shrank. -/
def scaleHoldings (a : Assets) (factor : Decimal) :
    Except Decimal.Fault (Assets × Accounts AssetClass) := do
  let (scaled, shrunk) ← a.holdings.scale factor
  return (⟨scaled.swept⟩, shrunk)

/-- The assets that some entries add up to. -/
def ofEntries (entries : List (AssetClass × Decimal)) : Except Decimal.Fault Assets :=
  entries.foldlM (fun a e => a.creditHolding e.1 e.2) empty

/-- The value of everything owned. -/
def total (a : Assets) : Except Decimal.Fault Decimal := a.holdings.total

/-- Nothing is held. -/
def isZero (a : Assets) : Bool := a.holdings.isZero

/-- Some holding is below nothing. -/
def hasNegative (a : Assets) : Bool := a.holdings.hasNegative

end Assets

end Insolvency
