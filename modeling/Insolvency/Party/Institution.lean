/-
Institutions: banks, and the firms that banks lend to.

An institution is its books together with where it stands with respect to
resolution and the times of its life.  A draft is an institution with fields still
open; it becomes one once every field without a default is there.
-/
import Insolvency.Ledger.BalanceSheet
import Insolvency.Party.Draft
import Insolvency.Timestamp

namespace Insolvency

/-- Where an institution stands with respect to resolution. -/
inductive InstitutionStatus
  | operating
  | resolved
  | flaggedForLiquidation
  | liquidated
deriving DecidableEq, Repr

namespace InstitutionStatus

/-- All statuses. -/
def all : List InstitutionStatus := [operating, resolved, flaggedForLiquidation, liquidated]

/-- The word a status is written as. -/
def name : InstitutionStatus → String
  | operating => "operating"
  | resolved => "resolved"
  | flaggedForLiquidation => "flagged_for_liquidation"
  | liquidated => "liquidated"

/-- The status that a word is for. -/
def ofName? (word : String) : Option InstitutionStatus := all.find? (·.name == word)

end InstitutionStatus

/-- A bank or a firm, with its books. -/
structure Institution where
  id : InstitutionId
  name : String
  kind : InstitutionKind
  sheet : BalanceSheet
  status : InstitutionStatus
  active : Bool
  created : Timestamp
  updated : Timestamp
  deleted : Option Timestamp
deriving DecidableEq

namespace Institution

/-- The institution has been deleted. -/
def isDeleted (i : Institution) : Bool := i.deleted.isSome

/-- The institution is in business. -/
def isActive (i : Institution) : Bool := i.active && !i.isDeleted

/-- The institution as a party. -/
def agentId (i : Institution) : AgentId := .ofInstitution i.id

/-- Assets less liabilities. -/
def equity (i : Institution) : Except Decimal.Fault Decimal := i.sheet.equity

/-- The institution with other assets. -/
def withAssets (i : Institution) (assets : Assets) : Institution :=
  { i with sheet := { i.sheet with assets } }

/-- The institution with other liabilities. -/
def withLiabilities (i : Institution) (liabilities : Liabilities) : Institution :=
  { i with sheet := { i.sheet with liabilities } }

/-- The institution with other share accounts. -/
def withShares (i : Institution) (shares : Shares) : Institution :=
  { i with sheet := { i.sheet with shares } }

end Institution

/-- An institution with fields still open. -/
structure Institution.Draft where
  id : Option InstitutionId := none
  name : Option String := none
  kind : Option InstitutionKind := none
  sheet : Option BalanceSheet := none
  status : Option InstitutionStatus := none
  active : Option Bool := none
  created : Option Timestamp := none
  updated : Option Timestamp := none
  deleted : Option Timestamp := none

/-- The institution that a draft describes; the first field missing, in their order, counts. -/
def Institution.Draft.build (d : Institution.Draft) : Except MissingField Institution := do
  return {
    id := ← MissingField.require "id" d.id
    name := ← MissingField.require "name" d.name
    kind := ← MissingField.require "kind" d.kind
    sheet := ← MissingField.require "balance_sheet" d.sheet
    status := d.status.getD .operating
    active := d.active.getD false
    created := ← MissingField.require "created" d.created
    updated := ← MissingField.require "updated" d.updated
    deleted := d.deleted }

end Insolvency
