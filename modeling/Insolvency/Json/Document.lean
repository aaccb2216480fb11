/-
JSON documents.

Whole numbers that a signed or unsigned 64-bit word can hold are kept as they are;
every other number is a binary floating-point number and is kept as the shortest
decimal that stands for it.  An object's names are distinct, and it keeps them in the
order of their last mention.
-/
import Insolvency.Binary64.Text

namespace Insolvency

/-- A JSON document. -/
inductive Json
  | null
  | bool (b : Bool)
  | int (n : Int)
  | float (t : FloatText)
  | str (s : String)
  | arr (items : List Json)
  | obj (fields : List (String × Json))
deriving Inhabited

namespace Json

/-- The field of an object. -/
def field? (name : String) : Json → Option Json
  | obj fields => fields.lookup name
  | _ => none

/-- The field of an object, unless it is null. -/
def given? (name : String) (j : Json) : Option Json :=
  match j.field? name with
  | some null => none
  | found => found

/-- A text. -/
def str? : Json → Option String
  | str s => some s
  | _ => none

/-- A truth value. -/
def bool? : Json → Option Bool
  | bool b => some b
  | _ => none

/-- A whole number that is not below zero. -/
def nat? : Json → Option Nat
  | int n => if 0 ≤ n then some n.toNat else none
  | _ => none

/-- A list. -/
def arr? : Json → Option (List Json)
  | arr items => some items
  | _ => none

/-- An object's fields. -/
def obj? : Json → Option (List (String × Json))
  | obj fields => some fields
  | _ => none

end Json

end Insolvency
