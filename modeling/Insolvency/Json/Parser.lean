/-
Documents from tokens.

The parser keeps the lists and objects that are still open on a stack and knows what
may come next; every token is one step, so the whole text is one fold over its
tokens.  At most 127 lists and objects can be open at once.
-/
import Insolvency.Json.Token

namespace Insolvency.Json

/-- A list or object still open.  Items and fields are kept last first. -/
inductive Frame
  | list (items : List Json)
  /-- The name waits for its value. -/
  | object (fields : List (String × Json)) (name : String)

/-- What may come next. -/
inductive Expected
  | value
  /-- A value, or the end of an empty list. -/
  | firstItem
  /-- A name, or the end of an empty object. -/
  | firstName
  | name
  | colon
  /-- A comma or the end of what is open. -/
  | separator
  | nothing

/-- The parser's state. -/
structure Parser where
  stack : List Frame
  expected : Expected
  /-- The whole document, once it is complete. -/
  done : Option Json

/-- The most lists and objects open at once. -/
def maxDepth : Nat := 127

/-- A complete value: it goes into what is open, or it is the document. -/
def Parser.accept (p : Parser) (j : Json) : Parser :=
  match p.stack with
  | [] => ⟨[], .nothing, some j⟩
  | .list items :: rest => ⟨.list (j :: items) :: rest, .separator, none⟩
  | .object fields name :: rest =>
    ⟨.object ((name, j) :: fields.filter (·.1 != name)) name :: rest, .separator, none⟩

/-- A list or object opened. -/
def Parser.push (p : Parser) (frame : Frame) (expected : Expected) : Option Parser :=
  if p.stack.length < maxDepth then some ⟨frame :: p.stack, expected, none⟩ else none

/-- The start of a value. -/
def Parser.begin (p : Parser) : Token → Option Parser
  | .text s => some (p.accept (.str s))
  | .scalar j => some (p.accept j)
  | .openList => p.push (.list []) .firstItem
  | .openObject => p.push (.object [] "") .firstName
  | _ => none

/-- The end of the list that is open. -/
def Parser.closeList (p : Parser) : Option Parser :=
  match p.stack with
  | .list items :: rest => some ({ p with stack := rest }.accept (.arr items.reverse))
  | _ => none

/-- The end of the object that is open. -/
def Parser.closeObject (p : Parser) : Option Parser :=
  match p.stack with
  | .object fields _ :: rest => some ({ p with stack := rest }.accept (.obj fields.reverse))
  | _ => none

/-- A field's name. -/
def Parser.startField (p : Parser) (name : String) : Option Parser :=
  match p.stack with
  | .object fields _ :: rest => some ⟨.object fields name :: rest, .colon, none⟩
  | _ => none

/-- What follows a comma. -/
def Parser.goOn (p : Parser) : Option Parser :=
  match p.stack with
  | .list _ :: _ => some { p with expected := .value }
  | .object _ _ :: _ => some { p with expected := .name }
  | [] => none

/-- One token read. -/
def Parser.read (p : Parser) (t : Token) : Option Parser :=
  match p.expected, t with
  | .value, t => p.begin t
  | .firstItem, .closeList => p.closeList
  | .firstItem, t => p.begin t
  | .firstName, .closeObject => p.closeObject
  | .firstName, .text name => p.startField name
  | .name, .text name => p.startField name
  | .colon, .colon => some { p with expected := .value }
  | .separator, .comma => p.goOn
  | .separator, .closeList => p.closeList
  | .separator, .closeObject => p.closeObject
  | _, _ => none

/-- The document that a text is. -/
def parse? (text : String) : Option Json := do
  let tokens ← tokens? text.toList
  let p ← tokens.foldlM Parser.read ⟨[], .value, none⟩
  p.done

end Insolvency.Json
