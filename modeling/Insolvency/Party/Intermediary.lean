/-
Intermediaries: they hold shares for creditors who may not hold any.

An intermediary sells its holding off a little at a time and forwards what it raises
to its beneficiary; when what is left is worth next to nothing, it sells the rest
and disbands.  `SellOffTerms` says how fast.  The selling itself is in
`Insolvency.SellOff`.
-/
import Insolvency.Party.Institution

namespace Insolvency

/-- How an intermediary sells off its holding. -/
structure SellOffTerms where
  /-- A holding worth this much or less is sold off entirely and the intermediary disbands. -/
  valueThreshold : Decimal
  /-- The fraction of the holding sold each period. -/
  sellRate : Decimal
  /-- Below this many shares the whole holding is sold at once. -/
  sellAllBelow : Decimal
deriving DecidableEq

namespace SellOffTerms

/-- The terms used where no others are given. -/
def standard : SellOffTerms :=
  ⟨.epsilon, 0.2, 0.0001⟩

/-- The first parameter out of range.  A rate of nothing would never sell anything. -/
def fault? (t : SellOffTerms) : Option ConfigFault :=
  if t.valueThreshold < 0 then some .negativeValueThreshold
  else if t.sellRate ≤ 0 ∨ 1 < t.sellRate then some .sellRateOutOfRange
  else if t.sellAllBelow < 0 then some .negativeSellAllQuantity
  else none

end SellOffTerms

/-- The seller of a holding on behalf of a beneficiary. -/
structure Intermediary where
  id : IntermediaryId
  beneficiary : AgentId
  stock : InstitutionId
  shares : Decimal
  terms : SellOffTerms
  /-- All proceeds passed on to the beneficiary so far. -/
  forwarded : Decimal
  active : Bool
  created : Timestamp
  updated : Timestamp
  deleted : Option Timestamp
deriving DecidableEq

namespace Intermediary

/-- The intermediary has been deleted. -/
def isDeleted (m : Intermediary) : Bool := m.deleted.isSome

/-- The intermediary is in business. -/
def isActive (m : Intermediary) : Bool := m.active && !m.isDeleted

/-- The intermediary as a party. -/
def agentId (m : Intermediary) : AgentId := .ofIntermediary m.id

/-- What the holding is worth at a price. -/
def holdingValue (m : Intermediary) (price : Decimal) : Except Decimal.Fault Decimal :=
  m.shares.mul price

/-- A new intermediary that has forwarded nothing yet. -/
def spawn (id : IntermediaryId) (beneficiary : AgentId) (stock : InstitutionId)
    (shares : Decimal) (terms : SellOffTerms) (now : Timestamp) : Intermediary where
  id := id
  beneficiary := beneficiary
  stock := stock
  shares := shares
  terms := terms
  forwarded := 0
  active := true
  created := now
  updated := now
  deleted := none

end Intermediary

/-- An intermediary with fields still open. -/
structure Intermediary.Draft where
  id : Option IntermediaryId := none
  beneficiary : Option AgentId := none
  stock : Option InstitutionId := none
  shares : Option Decimal := none
  valueThreshold : Option Decimal := none
  sellRate : Option Decimal := none
  sellAllBelow : Option Decimal := none
  forwarded : Option Decimal := none
  active : Option Bool := none
  created : Option Timestamp := none
  updated : Option Timestamp := none
  deleted : Option Timestamp := none

/-- The intermediary that a draft describes; the first field missing, in their order, counts. -/
def Intermediary.Draft.build (d : Intermediary.Draft) : Except MissingField Intermediary := do
  return {
    id := ← MissingField.require "id" d.id
    beneficiary := ← MissingField.require "beneficiary" d.beneficiary
    stock := ← MissingField.require "stock" d.stock
    shares := ← MissingField.require "shares" d.shares
    terms := {
      valueThreshold := ← MissingField.require "asset_value_threshold" d.valueThreshold
      sellRate := ← MissingField.require "sell_rate" d.sellRate
      sellAllBelow := ← MissingField.require "sell_all_below" d.sellAllBelow }
    forwarded := d.forwarded.getD 0
    active := d.active.getD false
    created := ← MissingField.require "created" d.created
    updated := ← MissingField.require "updated" d.updated
    deleted := d.deleted }

end Insolvency
