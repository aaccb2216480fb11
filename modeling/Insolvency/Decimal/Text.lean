/-
Amounts as text.

An amount is written plainly: a minus sign if it is below nothing, the whole part
with at least one digit, and after a point the fraction without trailing zeros.
There is no exponent, no plus sign and no negative zero, so each amount has one
text.

Reading is more generous.  A numeral has an optional sign and digits with at most
one point among them, where underscores are skipped once a digit has been seen, and
it has to be an amount.  An exponent may follow it, which moves the point by at most
28 places and has to lead to an amount again.
-/
import Insolvency.Decimal.Basic
import Insolvency.Numeral

namespace Insolvency.Decimal

/-! ### Writing -/

/-- Digits without the zeros they end in. -/
def withoutTrailingZeros (digits : List Char) : List Char :=
  (digits.reverse.dropWhile (· == '0')).reverse

/-- The digits after the point, `units` being less than one. -/
def fractionDigits (units : Nat) : List Char :=
  withoutTrailingZeros (Numeral.lastDigits maxPlaces units)

/-- The one way an amount is written. -/
def toText (d : Decimal) : String :=
  let sign := if d.units < 0 then "-" else ""
  let whole := toString (d.units.natAbs / unitsPerOne)
  match fractionDigits (d.units.natAbs % unitsPerOne) with
  | [] => sign ++ whole
  | fraction => sign ++ whole ++ "." ++ String.ofList fraction

/-! ### Reading -/

/-- The value of a character that is a digit. -/
def digit? (c : Char) : Option Nat :=
  if c.isDigit then some (Numeral.digitValue c) else none

/-- The digits after the point: the number read so far, its places, and whether there was a
digit yet. -/
def readFraction (n places : Nat) (seen : Bool) : List Char → Option (Nat × Nat)
  | [] => if seen then some (n, places) else none
  | '_' :: rest => if seen then readFraction n places seen rest else none
  | c :: rest => do readFraction (10 * n + (← digit? c)) (places + 1) true rest

/-- The digits before the point, and those after it if there is one. -/
def readNumeral (n : Nat) (seen : Bool) : List Char → Option (Nat × Nat)
  | [] => if seen then some (n, 0) else none
  | '.' :: rest => readFraction n 0 seen rest
  | '_' :: rest => if seen then readNumeral n seen rest else none
  | c :: rest => do readNumeral (10 * n + (← digit? c)) true rest

/-- A sign and what it stands before. -/
def readSign : List Char → Int × List Char
  | '-' :: rest => (-1, rest)
  | '+' :: rest => (1, rest)
  | rest => (1, rest)

/-- Digits that may have a plus sign before them. -/
def readUnsigned? : List Char → Option Nat
  | '+' :: digits => Numeral.read? digits
  | digits => Numeral.read? digits

/-- An integer exponent; the minus sign of one below zero stands before all else. -/
def readExponent? : List Char → Option Int
  | '-' :: rest => (readUnsigned? rest).map fun n => -n
  | rest => (readUnsigned? rest).map Int.ofNat

/-- An amount with its point moved, to the right or to the left, by as many places as there are
at most. -/
def movePoint? (d : Decimal) (places : Int) : Option Decimal :=
  if maxPlaces < places.natAbs then none
  else ofRatio? (d.units * pow10 places.toNat) (pow10 (-places).toNat)

/-- A mark that an exponent follows. -/
def isExponentMark (c : Char) : Bool := c == 'e' || c == 'E'

/-- The amount that a text stands for. -/
def ofText? (text : String) : Option Decimal := do
  let (base, rest) := text.toList.span (!isExponentMark ·)
  let (sign, numeral) := readSign base
  let (n, places) ← readNumeral 0 false numeral
  let d ← ofScientific? (sign * n) (-places)
  match rest with
  | [] => some d
  | _ :: exponent => d.movePoint? (← readExponent? exponent)

end Insolvency.Decimal
