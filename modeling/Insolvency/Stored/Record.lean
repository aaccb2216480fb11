/-
How values are stored as JSON.

A record is an object by the names of its fields, or a list of its fields in their
order.  Fields that a record does not know are ignored in an object and refused in a
list.  A case of an enumeration is its word; a case that carries something is a
record with the word under `type`, or in front of the list.  Inside another such case
the word can be given by its place among the words.

Amounts are written as floating-point numbers and read from numbers and from text.
-/
import Insolvency.Decimal.Text
import Insolvency.Json.Document
import Insolvency.Ledger.Accounts
import Insolvency.Timestamp

namespace Insolvency

namespace Json

/-- The fields of a record, by name or in order. -/
inductive Record
  | named (fields : List (String × Json))
  | listed (items : List Json)

namespace Record

/-- A field, by its place and its name. -/
def find? (r : Record) (place : Nat) (name : String) : Option Json :=
  match r with
  | named fields => fields.lookup name
  | listed items => items[place]?

/-- A list of fields has at least and at most so many. -/
def hasBetween (r : Record) (least most : Nat) : Bool :=
  match r with
  | named _ => true
  | listed items => least ≤ items.length && items.length ≤ most

/-- A field that has to be there. -/
def get {α : Type} (r : Record) (place : Nat) (name : String) (read : Json → Option α) :
    Option α := do
  read (← r.find? place name)

/-- A field that may be absent; one that is there has to be right. -/
def getD {α : Type} (r : Record) (place : Nat) (name : String) (read : Json → Option α)
    (standard : α) : Option α :=
  match r.find? place name with
  | none => some standard
  | some j => read j

end Record

/-- A record of at least and at most so many fields. -/
def record? (j : Json) (least most : Nat) : Option Record :=
  let found : Option Record := match j with
    | obj fields => some (.named fields)
    | arr items => some (.listed items)
    | _ => none
  found.filter (·.hasBetween least most)

/-- A case of an enumeration, by how its tag is read, with the record that it carries. -/
def caseBy? {α : Type} (tag? : Json → Option α) : Json → Option (α × Record)
  | obj fields => do return (← tag? (← fields.lookup "type"), .named fields)
  | arr (tag :: items) => do return (← tag? tag, .listed items)
  | _ => none

/-- A case of an enumeration with the record that it carries. -/
def case? (j : Json) : Option (String × Record) := j.caseBy? str?

/-- A case of an enumeration inside another one, where the place among all of its words may stand
for a word. -/
def innerCase? (words : List String) (j : Json) : Option (String × Record) :=
  j.caseBy? fun tag => tag.str?.or (tag.nat? >>= fun place => words[place]?)

/-- A case of an enumeration that carries nothing. -/
def word? : Json → Option String
  | str s => some s
  | obj [(s, null)] => some s
  | _ => none

/-- A value that may be null. -/
def orNull {α : Type} (read : Json → Option α) : Json → Option (Option α)
  | null => some none
  | j => (read j).map some

end Json

/-- An amount from a number or a text. -/
def Decimal.ofJson? : Json → Option Decimal
  | .str s => ofText? s
  | .int n => ofScientific? n 0
  | .float t => ofScientific? t.digits t.power
  | _ => none

/-- An amount as a floating-point number. -/
def Decimal.toJson (d : Decimal) : Json := .float (.ofDecimal d)

/-- A time from its text. -/
def Timestamp.ofJson? (j : Json) : Option Timestamp := do ofText? (← j.str?)

/-- A time as its text. -/
def Timestamp.toJson (t : Timestamp) : Json := .str t.toText

namespace Accounts

variable {κ : Type} [Ord κ]

/-- Accounts from an object, by the text of their keys. -/
def ofJson? [Std.TransOrd κ] [Std.LawfulEqOrd κ] (key? : String → Option κ) (j : Json) :
    Option (Accounts κ) := do
  let pairs ← (← j.obj?).mapM fun (name, v) => do return (← key? name, ← Decimal.ofJson? v)
  return Table.ofList pairs

/-- Accounts as an object, in their order. -/
def toJson (name : κ → String) (a : Accounts κ) : Json :=
  .obj <| a.entries.map fun e => (name e.1, e.2.toJson)

end Accounts

end Insolvency
