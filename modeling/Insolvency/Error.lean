/-
What can go wrong, by cause.

Every refusal of the library is one of these constructors, with what a caller needs
to tell the cases apart; the wording is in `message` and nowhere else.  Running out
of money in the middle of an episode is not among them: that is an outcome.
-/
import Insolvency.Decimal.Text
import Insolvency.Ledger.AssetClass
import Insolvency.Party.Agent
import Insolvency.Party.Kind

namespace Insolvency

/-- What a book must not hold. -/
inductive LedgerFault
  | negativeAsset
  | negativeLiability
  | negativeShares
  | negativeRiskWeightedAssets
deriving DecidableEq, Repr

/-- The wording of a ledger fault. -/
def LedgerFault.message : LedgerFault → String
  | .negativeAsset => "negative asset value"
  | .negativeLiability => "negative liability"
  | .negativeShares => "negative share quantity"
  | .negativeRiskWeightedAssets => "negative risk-weighted assets"

/-- What is wrong with a parameter. -/
inductive ConfigFault
  | negativeFallbackWeight
  | negativeWeight (cls : AssetClass)
  | negativeTargetRatio
  | negativeValueThreshold
  | sellRateOutOfRange
  | negativeSellAllQuantity
  | negativeLoanThreshold
  | cashFractionOutOfRange
  | negativeBudget
  | negativeDepth
deriving DecidableEq, Repr

/-- The wording of a parameter fault. -/
def ConfigFault.message : ConfigFault → String
  | .negativeFallbackWeight => "negative fallback risk weight"
  | .negativeWeight cls => "negative risk weight for " ++ cls.title
  | .negativeTargetRatio => "negative target CAR"
  | .negativeValueThreshold => "negative intermediary asset value threshold"
  | .sellRateOutOfRange => "intermediary sell rate must be above 0 and at most 1"
  | .negativeSellAllQuantity => "negative intermediary sell-all quantity"
  | .negativeLoanThreshold => "negative loan approval threshold"
  | .cashFractionOutOfRange => "cash compensation fraction must be between 0 and 1"
  | .negativeBudget => "negative government budget"
  | .negativeDepth => "negative market depth"

/-- Why an operation was refused or could not be worked out. -/
inductive Error
  | arithmetic (fault : Decimal.Fault)
  | corruptLedger (fault : LedgerFault)
  | insufficientFunds
  | invalidAmount (amount : Decimal)
  | invalidConfiguration (fault : ConfigFault)
  | issuerMismatch (issuer : InstitutionId)
  | objectIsDeleted (model : ModelKind)
  | operationMismatch
  | unsupportedDebtor (kind : InstitutionKind)
  | wrongAgentKind
  | wrongModelKind
deriving DecidableEq

/-- The wording of an error. -/
def Error.message : Error → String
  | .arithmetic fault => fault.message
  | .corruptLedger fault => "corrupt ledger: " ++ fault.message
  | .insufficientFunds => "insufficient funds"
  | .invalidAmount amount => "invalid amount: " ++ amount.toText
  | .invalidConfiguration fault => "invalid configuration: " ++ fault.message
  | .issuerMismatch issuer =>
    "institution " ++ issuer ++ " did not issue the intermediary's stock"
  | .objectIsDeleted model => "the " ++ model.name ++ " object is deleted"
  | .operationMismatch => "operation mismatch"
  | .unsupportedDebtor kind => "policy does not apply to institutions of kind " ++ kind.title
  | .wrongAgentKind => "wrong AgentID type"
  | .wrongModelKind => "wrong model type"

/-- Refuses parameters of which the first fault is given. -/
def ConfigFault.refuse : Option ConfigFault → Except Error Unit
  | some fault => .error (.invalidConfiguration fault)
  | none => .ok ()

/-- An arithmetic fault is an error like any other. -/
instance : MonadLift (Except Decimal.Fault) (Except Error) where
  monadLift
    | .ok x => .ok x
    | .error fault => .error (.arithmetic fault)

end Insolvency
