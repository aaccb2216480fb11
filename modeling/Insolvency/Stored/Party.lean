/-
The stored form of institutions, intermediaries and changes to them.

Every field has to be there except `deleted`, which is left out of an object while
the model lives.
-/
import Insolvency.Change
import Insolvency.Stored.Ledger

namespace Insolvency

/-- A kind of institution from its word. -/
def InstitutionKind.ofJson? (j : Json) : Option InstitutionKind := do ofName? (← j.word?)

/-- A status from its word. -/
def InstitutionStatus.ofJson? (j : Json) : Option InstitutionStatus := do ofName? (← j.word?)

/-- When a model was deleted, if it was. -/
def Timestamp.orNull? : Json → Option (Option Timestamp) := Json.orNull Timestamp.ofJson?

/-- The field that tells when a model was deleted, if it was. -/
def Timestamp.deletedField (deleted : Option Timestamp) : List (String × Json) :=
  deleted.toList.map fun t => ("deleted", t.toJson)

/-- An institution from its fields. -/
def Institution.ofJson? (j : Json) : Option Institution := do
  let r ← j.record? 9 9
  return {
    id := ← r.get 0 "id" Json.str?
    name := ← r.get 1 "name" Json.str?
    kind := ← r.get 2 "kind" InstitutionKind.ofJson?
    sheet := ← r.get 3 "balance_sheet" BalanceSheet.ofJson?
    status := ← r.get 4 "status" InstitutionStatus.ofJson?
    active := ← r.get 5 "active" Json.bool?
    created := ← r.get 6 "created" Timestamp.ofJson?
    updated := ← r.get 7 "updated" Timestamp.ofJson?
    deleted := ← r.getD 8 "deleted" Timestamp.orNull? none }

/-- An institution as its fields. -/
def Institution.toJson (i : Institution) : Json :=
  .obj <| [("id", .str i.id), ("name", .str i.name), ("kind", .str i.kind.name),
      ("balance_sheet", i.sheet.toJson), ("status", .str i.status.name),
      ("active", .bool i.active), ("created", i.created.toJson), ("updated", i.updated.toJson)]
    ++ Timestamp.deletedField i.deleted

/-- An intermediary from its fields. -/
def Intermediary.ofJson? (j : Json) : Option Intermediary := do
  let r ← j.record? 12 12
  return {
    id := ← r.get 0 "id" Json.str?
    beneficiary := ← r.get 1 "beneficiary" AgentId.ofJson?
    stock := ← r.get 2 "stock" Json.str?
    shares := ← r.get 3 "shares" Decimal.ofJson?
    terms := {
      valueThreshold := ← r.get 4 "asset_value_threshold" Decimal.ofJson?
      sellRate := ← r.get 5 "sell_rate" Decimal.ofJson?
      sellAllBelow := ← r.get 6 "sell_all_below" Decimal.ofJson? }
    forwarded := ← r.get 7 "forwarded" Decimal.ofJson?
    active := ← r.get 8 "active" Json.bool?
    created := ← r.get 9 "created" Timestamp.ofJson?
    updated := ← r.get 10 "updated" Timestamp.ofJson?
    deleted := ← r.getD 11 "deleted" Timestamp.orNull? none }

/-- An intermediary as its fields. -/
def Intermediary.toJson (m : Intermediary) : Json :=
  .obj <| [("id", .str m.id), ("beneficiary", m.beneficiary.toJson), ("stock", .str m.stock),
      ("shares", m.shares.toJson), ("asset_value_threshold", m.terms.valueThreshold.toJson),
      ("sell_rate", m.terms.sellRate.toJson), ("sell_all_below", m.terms.sellAllBelow.toJson),
      ("forwarded", m.forwarded.toJson), ("active", .bool m.active),
      ("created", m.created.toJson), ("updated", m.updated.toJson)]
    ++ Timestamp.deletedField m.deleted

/-- A model from an object that names its kind. -/
def Model.ofJson? : Json → Option Model
  | .obj [("Institution", j)] => (Institution.ofJson? j).map .institution
  | .obj [("Intermediary", j)] => (Intermediary.ofJson? j).map .intermediary
  | _ => none

/-- A model as an object that names its kind. -/
def Model.toJson : Model → Json
  | .institution i => .obj [(ModelKind.institution.title, i.toJson)]
  | .intermediary m => .obj [(ModelKind.intermediary.title, m.toJson)]

/-- A kind of change from its title. -/
def ChangeKind.ofJson? (j : Json) : Option ChangeKind := do ofTitle? (← j.word?)

/-- A change from its kind and its model. -/
def Change.ofJson? (j : Json) : Option Change := do
  let r ← j.record? 2 2
  return ⟨← r.get 0 "op" ChangeKind.ofJson?, ← r.get 1 "model" Model.ofJson?⟩

/-- A change as its kind and its model. -/
def Change.toJson (m : Change) : Json :=
  .obj [("op", .str m.kind.title), ("model", m.model.toJson)]

/-- Changes in their order, from `modifications`. -/
def Change.listOfJson? (j : Json) : Option (List Change) := do
  let r ← j.record? 1 1
  r.get 0 "modifications" fun items => do (← items.arr?).mapM Change.ofJson?

/-- Changes in their order, as `modifications`. -/
def Change.listToJson (ms : List Change) : Json :=
  .obj [("modifications", .arr (ms.map Change.toJson))]

end Insolvency
