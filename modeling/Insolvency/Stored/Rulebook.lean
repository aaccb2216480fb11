/-
The stored form of rulebooks and their parts, and of what else an economy keeps.

Every parameter of a rulebook and of selling terms can be left out and is standard
then.
-/
import Insolvency.Rulebook
import Insolvency.Stored.Party

namespace Insolvency

/-- Risk weights from `weights`, none by themselves, and `fallback`. -/
def RiskWeights.ofJson? (j : Json) : Option RiskWeights := do
  let r ← j.record? 2 2
  return {
    weights := ← r.getD 0 "weights" AssetClass.accountsOfJson? ∅
    fallback := ← r.get 1 "fallback" Decimal.ofJson? }

/-- Risk weights as `weights` and `fallback`. -/
def RiskWeights.toJson (w : RiskWeights) : Json :=
  .obj [("weights", w.weights.toJson AssetClass.name), ("fallback", w.fallback.toJson)]

/-- A capital target from its ratio. -/
def CapitalTarget.ofJson? (j : Json) : Option CapitalTarget := (Decimal.ofJson? j).map .mk

/-- Selling terms from their three parameters. -/
def SellOffTerms.ofJson? (j : Json) : Option SellOffTerms := do
  let r ← j.record? 0 3
  return {
    valueThreshold := ← r.getD 0 "asset_value_threshold" Decimal.ofJson? standard.valueThreshold
    sellRate := ← r.getD 1 "sell_rate" Decimal.ofJson? standard.sellRate
    sellAllBelow := ← r.getD 2 "sell_all_below" Decimal.ofJson? standard.sellAllBelow }

/-- Selling terms as their three parameters. -/
def SellOffTerms.toJson (t : SellOffTerms) : Json :=
  .obj [("asset_value_threshold", t.valueThreshold.toJson), ("sell_rate", t.sellRate.toJson),
    ("sell_all_below", t.sellAllBelow.toJson)]

/-- The word a loan approval rule is written as. -/
def LoanApproval.name : LoanApproval → String
  | alwaysDeny => "always_deny"
  | riskBased _ => "risk_based"

/-- A loan approval rule from its case. -/
def LoanApproval.ofJson? (j : Json) : Option LoanApproval := do
  match ← j.case? with
  | ("always_deny", r) => if r.hasBetween 0 0 then some .alwaysDeny else none
  | ("risk_based", r) =>
    if r.hasBetween 1 1 then (r.get 0 "threshold" Decimal.ofJson?).map .riskBased else none
  | _ => none

/-- A loan approval rule as its case. -/
def LoanApproval.toJson (a : LoanApproval) : Json :=
  .obj <| ("type", .str a.name) :: match a with
    | alwaysDeny => []
    | riskBased threshold => [("threshold", threshold.toJson)]

/-- A risk measure from its word. -/
def RiskMeasure.ofJson? (j : Json) : Option RiskMeasure := do ofName? (← j.word?)

/-- The word a cash compensation is written as. -/
def CashRule.name : CashRule → String
  | allCash => "all_cash"
  | cashFraction _ => "cash_fraction"

/-- A cash compensation from its case, which stands inside that of a policy. -/
def CashRule.ofJson? (j : Json) : Option CashRule := do
  match ← j.innerCase? ["all_cash", "cash_fraction"] with
  | ("all_cash", r) => if r.hasBetween 0 0 then some .allCash else none
  | ("cash_fraction", r) =>
    if r.hasBetween 1 1 then (r.get 0 "fraction" Decimal.ofJson?).map .cashFraction else none
  | _ => none

/-- A cash compensation as its case. -/
def CashRule.toJson (c : CashRule) : Json :=
  .obj <| ("type", .str c.name) :: match c with
    | allCash => []
    | cashFraction fraction => [("fraction", fraction.toJson)]

/-- The word a policy is written as. -/
def Policy.name : Policy → String
  | bailin => "bailin"
  | assetThreshold _ => "asset_threshold"
  | bailout => "bailout"
  | debtEquitySwap => "debt_equity_swap"
  | liquidate => "liquidate"

/-- A policy from its case. -/
def Policy.ofJson? (j : Json) : Option Policy := do
  let (name, r) ← j.case?
  if name == "asset_threshold" then
    if r.hasBetween 0 1 then
      (r.getD 0 "cash" CashRule.ofJson? .allCash).map .assetThreshold
    else none
  else if r.hasBetween 0 0 then [bailin, bailout, debtEquitySwap, liquidate].find? (·.name == name)
  else none

/-- A policy as its case. -/
def Policy.toJson (p : Policy) : Json :=
  .obj <| ("type", .str p.name) :: match p with
    | assetThreshold cash => [("cash", cash.toJson)]
    | _ => []

/-- A rulebook from its parameters. -/
def Rulebook.ofJson? (j : Json) : Option Rulebook := do
  let r ← j.record? 0 6
  return {
    riskWeights := ← r.getD 0 "risk_weights" RiskWeights.ofJson? standard.riskWeights
    target := ← r.getD 1 "target_car" CapitalTarget.ofJson? standard.target
    terms := ← r.getD 2 "intermediary" SellOffTerms.ofJson? standard.terms
    loanApproval := ← r.getD 3 "loan_approval" LoanApproval.ofJson? standard.loanApproval
    riskMeasure := ← r.getD 4 "risk_measure" RiskMeasure.ofJson? standard.riskMeasure
    policy := ← r.getD 5 "policy" Policy.ofJson? standard.policy }

/-- A rulebook as its parameters. -/
def Rulebook.toJson (b : Rulebook) : Json :=
  .obj [("risk_weights", b.riskWeights.toJson), ("target_car", b.target.ratio.toJson),
    ("intermediary", b.terms.toJson), ("loan_approval", b.loanApproval.toJson),
    ("risk_measure", .str b.riskMeasure.name), ("policy", b.policy.toJson)]

/-- An outcome from its word. -/
def Outcome.ofJson? (j : Json) : Option Outcome := do ofName? (← j.word?)

/-- An outcome as its word. -/
def Outcome.toJson (o : Outcome) : Json := .str o.name

/-- A government from its fields; one that says nothing of it has disbursed nothing. -/
def Government.ofJson? (j : Json) : Option Government := do
  let r ← j.record? 2 3
  return {
    id := ← r.get 0 "id" Json.str?
    budget := ← r.get 1 "budget" Decimal.ofJson?
    disbursed := ← r.getD 2 "disbursed" Decimal.ofJson? 0 }

/-- A government as its fields. -/
def Government.toJson (g : Government) : Json :=
  .obj [("id", .str g.id), ("budget", g.budget.toJson), ("disbursed", g.disbursed.toJson)]

/-- A price book from `prices`. -/
def PriceBook.ofJson? (j : Json) : Option PriceBook := do
  let r ← j.record? 1 1
  return ⟨← r.get 0 "prices" (Accounts.ofJson? some)⟩

/-- A price book as `prices`. -/
def PriceBook.toJson (b : PriceBook) : Json := .obj [("prices", b.prices.toJson id)]

/-- A sale from its quantity and proceeds. -/
def Sale.ofJson? (j : Json) : Option Sale := do
  let r ← j.record? 2 2
  return ⟨← r.get 0 "quantity" Decimal.ofJson?, ← r.get 1 "proceeds" Decimal.ofJson?⟩

/-- A sale as its quantity and proceeds. -/
def Sale.toJson (s : Sale) : Json :=
  .obj [("quantity", s.quantity.toJson), ("proceeds", s.proceeds.toJson)]

end Insolvency
