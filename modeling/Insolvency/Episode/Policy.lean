/-
The policies, and the episodes they run.

A policy refuses a deleted institution, a shortfall below nothing, books that hold
anything negative, an institution of a kind it is not for, and parameters out of
range, in this order.  Past these checks only arithmetic can fail.
-/
import Insolvency.Episode.AssetThreshold
import Insolvency.Episode.Bailin
import Insolvency.Episode.Bailout
import Insolvency.Episode.DebtEquitySwap

namespace Insolvency

/-- The procedure run on an institution that is short of capital. -/
inductive Policy
  /-- Creditors are written down and get the equity. -/
  | bailin
  /-- Creditors are paid in cash, in shares, or by the firm. -/
  | assetThreshold (cash : CashRule)
  /-- The government pays and gets the equity. -/
  | bailout
  /-- Loans are paid off or swapped for the firm. -/
  | debtEquitySwap
  /-- The institution is flagged for liquidation straight away. -/
  | liquidate
deriving DecidableEq

namespace Policy

/-- A parameter out of range. -/
def fault? : Policy → Option ConfigFault
  | assetThreshold cash => cash.fault?
  | _ => none

/-- The only kind of institution that the policy is for. -/
def requiredKind? : Policy → Option InstitutionKind
  | bailin | bailout => some .bank
  | assetThreshold _ | debtEquitySwap => some .macroFirm
  | liquidate => none

/-- The policy is for institutions of this kind. -/
def appliesTo (p : Policy) (kind : InstitutionKind) : Bool :=
  p.requiredKind?.all (· == kind)

/-- An institution flagged for liquidation straight away. -/
def flag (i : Institution) (shortfall : Decimal) (ctx : Context) :
    Except Decimal.Fault (Episode × Context) := do
  if shortfall ≤ .epsilon then return (.compliant i, ctx)
  let e ← (Episode.opening i shortfall).fileClaims
  return (e.reach .start).conclude .flaggedForLiquidation ctx

/-- The episode that a policy runs on an institution that has passed the checks. -/
def run : Policy → Institution → Decimal → Context → Except Decimal.Fault (Episode × Context)
  | bailin => Bailin.run
  | assetThreshold cash => AssetThreshold.run cash
  | bailout => Bailout.run
  | debtEquitySwap => DebtEquitySwap.run
  | liquidate => flag

/-- What speaks against running the policy on an institution. -/
def objection? (p : Policy) (i : Institution) (shortfall : Decimal) : Option Error :=
  if i.isDeleted then some (.objectIsDeleted .institution)
  else if shortfall < 0 then some (.invalidAmount shortfall)
  else match i.sheet.fault? with
    | some fault => some (.corruptLedger fault)
    | none =>
      if !p.appliesTo i.kind then some (.unsupportedDebtor i.kind)
      else p.fault?.map .invalidConfiguration

/-- The policy run on an institution with a shortfall. -/
def resolve (p : Policy) (i : Institution) (shortfall : Decimal) (ctx : Context) :
    Except Error (Episode × Context) :=
  match p.objection? i shortfall with
  | some error => .error error
  | none => liftM (p.run i shortfall ctx)

end Policy

end Insolvency
