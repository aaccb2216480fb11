/-
Selling off a holding, period by period.

`review` is one period: part of the holding is sold, the proceeds are forwarded, and
once what is left is worth no more than the threshold, the intermediary disbands.
`disband` sells the rest; what the market does not take is written off.  The issuer
of the stock goes along with the intermediary, so that its share accounts follow
every sale, and both come back changed: the intermediary first, then the issuer.
-/
import Insolvency.Market
import Insolvency.Change

namespace Insolvency

/-- What happened to an intermediary in one period. -/
structure Period where
  /-- Who the proceeds go to. -/
  beneficiary : AgentId
  /-- Shares sold in this period. -/
  sold : Decimal
  /-- Cash raised and forwarded in this period. -/
  proceeds : Decimal
  /-- What the remaining holding is worth. -/
  residualValue : Decimal
  /-- Shares that the market would not take, removed without compensation. -/
  writtenOff : Decimal
  disbanded : Bool
deriving DecidableEq

/-- A period's result: the changed models, the market, and what was forwarded. -/
structure SellOff where
  subject : Intermediary
  issuer : Institution
  market : Market
  period : Period

namespace SellOff

/-- The changes to store, the intermediary's first. -/
def changes (s : SellOff) : List Change :=
  [⟨if s.period.disbanded then .delete else .update, .intermediary s.subject⟩,
   ⟨.update, .institution s.issuer⟩]

/-- The intermediary is live and the institution issued its stock. -/
def check (subject : Intermediary) (issuer : Institution) : Except Error Unit :=
  if subject.isDeleted then .error (.objectIsDeleted .intermediary)
  else if issuer.id ≠ subject.stock then .error (.issuerMismatch issuer.id)
  else .ok ()

/-- Shares sold leave the holder's account: for the buyer's if there is one, else for none. -/
def deliver (buyer : Option AgentId) (holder : AgentId) (sold : Decimal) (r : Shares) :
    Except Decimal.Fault Shares :=
  match buyer with
  | some buyer => return (← r.transfer holder buyer sold).1
  | none => return (← r.retire holder sold).1

/-- All the shares left in the holder's account taken out of circulation, and how many. -/
def writeOff (holder : AgentId) (r : Shares) :
    Except Decimal.Fault (Shares × Decimal) :=
  r.retire holder (r.held holder)

/-- An order for the whole holding, if there is one to sell. -/
def sellAll (subject : Intermediary) (market : Market) : Except Error (Market × Sale) :=
  if 0 < subject.shares then market.sell subject.id subject.stock subject.shares
  else return (market, .none)

/-- Sells what is left, forwards it, and shuts the intermediary down. -/
def disband (subject : Intermediary) (issuer : Institution) (market : Market)
    (now : Timestamp) : Except Error SellOff := do
  check subject issuer
  let (market, sale) ← sellAll subject market
  let sold := min sale.quantity subject.shares
  let delivered : Shares ← deliver market.buyer subject.agentId sold issuer.sheet.shares
  let (shares, writtenOff) ← writeOff subject.agentId delivered
  let forwarded : Decimal ← subject.forwarded.add sale.proceeds
  return {
    subject := { subject with
      shares := 0, forwarded := forwarded, active := false, updated := now, deleted := some now }
    issuer := { issuer.withShares shares with updated := now }
    market := market
    period := ⟨subject.beneficiary, sold, sale.proceeds, 0, writtenOff, true⟩ }

/-- How much of the holding one period puts up for sale. -/
def onOffer (subject : Intermediary) : Except Decimal.Fault Decimal :=
  if subject.shares < subject.terms.sellAllBelow then .ok subject.shares
  else subject.shares.mul subject.terms.sellRate

/-- One period that leaves the intermediary in business. -/
def sellPart (subject : Intermediary) (issuer : Institution) (market : Market)
    (now : Timestamp) : Except Error SellOff := do
  let price := market.book.value subject.stock
  let offered : Decimal ← onOffer subject
  let (market, sale) ← market.sell subject.id subject.stock offered
  let sold := min sale.quantity subject.shares
  let shares : Shares ← deliver market.buyer subject.agentId sold issuer.sheet.shares
  let left : Decimal ← subject.shares.sub sold
  let forwarded : Decimal ← subject.forwarded.add sale.proceeds
  let subject := { subject with shares := left, forwarded := forwarded, updated := now }
  let residual : Decimal ← subject.holdingValue price
  return {
    subject := subject
    issuer := { issuer.withShares shares with updated := now }
    market := market
    period := ⟨subject.beneficiary, sold, sale.proceeds, residual, 0, false⟩ }

/-- One period: sells part of the holding and disbands if the rest is worth too little, before
the sale or after it.  Sales of one period are reported together. -/
def review (subject : Intermediary) (issuer : Institution) (market : Market)
    (now : Timestamp) : Except Error SellOff := do
  check subject issuer
  let value : Decimal ← subject.holdingValue (market.book.value subject.stock)
  if value ≤ subject.terms.valueThreshold then
    disband subject issuer market now
  else
    let part ← sellPart subject issuer market now
    if part.period.residualValue ≤ subject.terms.valueThreshold then
      let last ← disband part.subject part.issuer part.market now
      let sold : Decimal ← part.period.sold.add last.period.sold
      let proceeds : Decimal ← part.period.proceeds.add last.period.proceeds
      return { last with period := { last.period with sold := sold, proceeds := proceeds } }
    else return part

/-- A new intermediary for a beneficiary, on terms that are in range. -/
def create (id : IntermediaryId) (beneficiary : AgentId) (stock : InstitutionId)
    (shares : Decimal) (terms : SellOffTerms) (now : Timestamp) : Except Error Intermediary := do
  if shares < 0 then throw (.invalidAmount shares)
  ConfigFault.refuse terms.fault?
  return .spawn id beneficiary stock shares terms now

end SellOff

end Insolvency
