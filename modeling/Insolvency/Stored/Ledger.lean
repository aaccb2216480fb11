/-
The stored form of books and claims.
-/
import Insolvency.Ledger.BalanceSheet
import Insolvency.Ledger.Claim
import Insolvency.Stored.Record

namespace Insolvency

/-- A party from its text. -/
def AgentId.ofJson? (j : Json) : Option AgentId := do ofText? (← j.str?)

/-- A party as its text. -/
def AgentId.toJson (a : AgentId) : Json := .str a.toText

/-- A class of asset from its word. -/
def AssetClass.ofJson? (j : Json) : Option AssetClass := do ofName? (← j.word?)

/-- A class of asset as its word. -/
def AssetClass.toJson (c : AssetClass) : Json := .str c.name

/-- Amounts by class. -/
def AssetClass.accountsOfJson? : Json → Option (Accounts AssetClass) :=
  Accounts.ofJson? AssetClass.ofName?

/-- Amounts by party. -/
def AgentId.accountsOfJson? : Json → Option (Accounts AgentId) := Accounts.ofJson? AgentId.ofText?

/-- Assets from `holdings`. -/
def Assets.ofJson? (j : Json) : Option Assets := do
  let r ← j.record? 1 1
  return ⟨← r.get 0 "holdings" AssetClass.accountsOfJson?⟩

/-- Assets as `holdings`. -/
def Assets.toJson (a : Assets) : Json :=
  .obj [("holdings", a.holdings.toJson AssetClass.name)]

/-- Liabilities from `loans` and `deposits`. -/
def Liabilities.ofJson? (j : Json) : Option Liabilities := do
  let r ← j.record? 2 2
  return ⟨← r.get 0 "loans" AgentId.accountsOfJson?, ← r.get 1 "deposits" AgentId.accountsOfJson?⟩

/-- Liabilities as `loans` and `deposits`. -/
def Liabilities.toJson (l : Liabilities) : Json :=
  .obj [("loans", l.loans.toJson AgentId.toText), ("deposits", l.deposits.toJson AgentId.toText)]

/-- A creditor's liability from its two values. -/
def Owed.ofJson? (j : Json) : Option Owed := do
  let r ← j.record? 2 2
  return ⟨← r.get 0 "loan_value" Decimal.ofJson?, ← r.get 1 "deposit_value" Decimal.ofJson?⟩

/-- A creditor's liability as its two values. -/
def Owed.toJson (l : Owed) : Json :=
  .obj [("loan_value", l.loanValue.toJson), ("deposit_value", l.depositValue.toJson)]

/-- Share accounts from `holders`. -/
def Shares.ofJson? (j : Json) : Option Shares := do
  let r ← j.record? 1 1
  return ⟨← r.get 0 "holders" AgentId.accountsOfJson?⟩

/-- Share accounts as `holders`. -/
def Shares.toJson (s : Shares) : Json :=
  .obj [("holders", s.holders.toJson AgentId.toText)]

/-- A balance sheet from its three books. -/
def BalanceSheet.ofJson? (j : Json) : Option BalanceSheet := do
  let r ← j.record? 3 3
  return {
    assets := ← r.get 0 "assets" Assets.ofJson?
    liabilities := ← r.get 1 "liabilities" Liabilities.ofJson?
    shares := ← r.get 2 "shares" Shares.ofJson? }

/-- A balance sheet as its three books. -/
def BalanceSheet.toJson (s : BalanceSheet) : Json :=
  .obj [("assets", s.assets.toJson), ("liabilities", s.liabilities.toJson),
    ("shares", s.shares.toJson)]

/-- A claim from its creditor and its two amounts. -/
def Claim.ofJson? (j : Json) : Option Claim := do
  let r ← j.record? 3 3
  return {
    creditor := ← r.get 0 "creditor" AgentId.ofJson?
    amount := ← r.get 1 "original_amount" Decimal.ofJson?
    writtenDown := ← r.get 2 "written_down_amount" Decimal.ofJson? }

/-- A claim as its creditor and its two amounts. -/
def Claim.toJson (c : Claim) : Json :=
  .obj [("creditor", c.creditor.toJson), ("original_amount", c.amount.toJson),
    ("written_down_amount", c.writtenDown.toJson)]

end Insolvency
