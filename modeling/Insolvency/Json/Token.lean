/-
The tokens of JSON text.

Reading goes character by character through a handful of modes, so the whole text is
one fold and needs no look-ahead.  A number or a word ends at the first character
that cannot belong to it and is judged as a whole then.  Text holds no control
characters; an escaped surrogate has to be followed by its other half.
-/
import Insolvency.Json.Number

namespace Insolvency.Json

/-- A token: punctuation, a text, or a number or word. -/
inductive Token
  | openList
  | closeList
  | openObject
  | closeObject
  | colon
  | comma
  | text (s : String)
  | scalar (j : Json)

/-- The number or word that a text stands for. -/
def readScalar? (text : List Char) : Option Json :=
  match String.ofList text with
  | "null" => some .null
  | "true" => some (.bool true)
  | "false" => some (.bool false)
  | _ => readNumber? text

/-! ### Characters -/

/-- What the reader is in the middle of.  Characters read so far are kept last first. -/
inductive Mode
  | between
  | word (chars : List Char)
  | text (chars : List Char)
  /-- After a backslash. -/
  | escape (chars : List Char)
  /-- In an escaped code, with so many digits to come; a first half of a pair may precede it. -/
  | code (chars : List Char) (high : Option Nat) (toCome : Nat) (value : Nat)
  /-- After the first half of a pair: the backslash of the second half has to come. -/
  | pair (chars : List Char) (high : Nat)
  /-- After that backslash: the mark of a code has to come. -/
  | pairEscape (chars : List Char) (high : Nat)

/-- The reader's state: the mode, and the tokens so far, last first. -/
structure Reader where
  mode : Mode
  tokens : List Token

/-- The value of a hexadecimal digit. -/
def hexValue? (c : Char) : Option Nat :=
  if c.isDigit then some (Numeral.digitValue c)
  else if 'a' ≤ c ∧ c ≤ 'f' then some (c.toNat - 'a'.toNat + 10)
  else if 'A' ≤ c ∧ c ≤ 'F' then some (c.toNat - 'A'.toNat + 10)
  else none

/-- What a single escaped character stands for. -/
def escaped? : Char → Option Char
  | '"' => some '"'
  | '\\' => some '\\'
  | '/' => some '/'
  | 'b' => some (Char.ofNat 8)
  | 'f' => some (Char.ofNat 12)
  | 'n' => some '\n'
  | 'r' => some '\r'
  | 't' => some '\t'
  | _ => none

/-- The code is the first half of a pair. -/
def isHigh (code : Nat) : Bool := 0xD800 ≤ code && code < 0xDC00

/-- The code is the second half of a pair. -/
def isLow (code : Nat) : Bool := 0xDC00 ≤ code && code < 0xE000

/-- What a complete code, with the half before it, goes on with. -/
def afterCode (chars : List Char) (high : Option Nat) (code : Nat) : Option Mode :=
  match high with
  | some h =>
    if isLow code then
      some (.text (Char.ofNat (0x10000 + (h - 0xD800) * 0x400 + (code - 0xDC00)) :: chars))
    else none
  | none =>
    if isHigh code then some (.pair chars code)
    else if isLow code then none
    else some (.text (Char.ofNat code :: chars))

/-- The token that a single character is, between others. -/
def punctuation? : Char → Option Token
  | '[' => some .openList
  | ']' => some .closeList
  | '\x7b' => some .openObject
  | '\x7d' => some .closeObject
  | ':' => some .colon
  | ',' => some .comma
  | _ => none

/-- The character separates tokens. -/
def isBlank (c : Char) : Bool := c == ' ' || c == '\n' || c == '\t' || c == '\r'

/-- The number or word that was being read is complete. -/
def Reader.endWord (r : Reader) : Option Reader :=
  match r.mode with
  | .word chars => do
    return ⟨.between, .scalar (← readScalar? chars.reverse) :: r.tokens⟩
  | _ => some r

/-- A character outside texts. -/
def Reader.readOutside (r : Reader) (c : Char) : Option Reader :=
  if isBlank c then r.endWord
  else if c = '"' then do return ⟨.text [], (← r.endWord).tokens⟩
  else match punctuation? c with
    | some token => do return ⟨.between, token :: (← r.endWord).tokens⟩
    | none =>
      match r.mode with
      | .word chars => some ⟨.word (c :: chars), r.tokens⟩
      | _ => some ⟨.word [c], r.tokens⟩

/-- One character read. -/
def Reader.read (r : Reader) (c : Char) : Option Reader :=
  match r.mode with
  | .between => r.readOutside c
  | .word _ => r.readOutside c
  | .text chars =>
    if c = '"' then some ⟨.between, .text (String.ofList chars.reverse) :: r.tokens⟩
    else if c = '\\' then some { r with mode := .escape chars }
    else if c.toNat < 0x20 then none
    else some { r with mode := .text (c :: chars) }
  | .escape chars =>
    if c = 'u' then some { r with mode := .code chars none 4 0 }
    else (escaped? c).map fun e => { r with mode := .text (e :: chars) }
  | .code chars high toCome value => do
    let value := 16 * value + (← hexValue? c)
    if toCome ≤ 1 then return { r with mode := ← afterCode chars high value }
    else return { r with mode := .code chars high (toCome - 1) value }
  | .pair chars high => if c = '\\' then some { r with mode := .pairEscape chars high } else none
  | .pairEscape chars high =>
    if c = 'u' then some { r with mode := .code chars (some high) 4 0 } else none

/-- The tokens of a text. -/
def tokens? (text : List Char) : Option (List Token) := do
  let r ← text.foldlM Reader.read ⟨.between, []⟩
  let r ← r.endWord
  match r.mode with
  | .between => some r.tokens.reverse
  | _ => none

end Insolvency.Json
