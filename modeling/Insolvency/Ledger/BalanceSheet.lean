/-
A balance sheet: what an institution owns, what it owes, and who owns it.

Equity is always worked out from the other two, so it cannot drift away from them.
Episodes refuse a sheet that holds anything negative (`check`); they never mend one.
-/
import Insolvency.Error
import Insolvency.Ledger.Assets
import Insolvency.Ledger.Liabilities
import Insolvency.Ledger.Shares

namespace Insolvency

/-- The books of an institution. -/
structure BalanceSheet where
  assets : Assets
  liabilities : Liabilities
  shares : Shares
deriving DecidableEq

namespace BalanceSheet

/-- Books without entries. -/
def empty : BalanceSheet := ⟨.empty, .empty, .empty⟩

/-- The value of everything owned. -/
def totalAssets (s : BalanceSheet) : Except Decimal.Fault Decimal := s.assets.total

/-- The value of everything owed. -/
def totalLiabilities (s : BalanceSheet) : Except Decimal.Fault Decimal := s.liabilities.total

/-- Assets less liabilities; may be below nothing. -/
def equity (s : BalanceSheet) : Except Decimal.Fault Decimal := do
  let assets ← s.totalAssets
  assets.sub (← s.totalLiabilities)

/-- The first negative part of the books, in the order assets, liabilities, shares. -/
def fault? (s : BalanceSheet) : Option LedgerFault :=
  if s.assets.hasNegative then some .negativeAsset
  else if s.liabilities.hasNegative then some .negativeLiability
  else if s.shares.hasNegative then some .negativeShares
  else none

/-- Refuses books that hold anything negative. -/
def check (s : BalanceSheet) : Except Error Unit :=
  match s.fault? with
  | some fault => .error (.corruptLedger fault)
  | none => .ok ()

end BalanceSheet

end Insolvency
