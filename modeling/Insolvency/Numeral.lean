/-
Whole numbers as decimal digits.

`value` reads digits and `padded` writes them to a width.  The readers of amounts,
times and documents all stand on these.
-/

namespace Insolvency.Numeral

/-- The value of a digit. -/
def digitValue (c : Char) : Nat := c.toNat - '0'.toNat

/-- The number with these digits. -/
def value (digits : List Char) : Nat := digits.foldl (fun n c => 10 * n + digitValue c) 0

/-- The number with these digits, if there is one at least and they are all digits. -/
def read? (digits : List Char) : Option Nat :=
  if !digits.isEmpty && digits.all Char.isDigit then some (value digits) else none

/-- A number with as many zeros before it as bring it to a width. -/
def padded (width n : Nat) : String :=
  let digits := toString n
  String.ofList (List.replicate (width - digits.length) '0') ++ digits

/-- The last `width` digits of a number. -/
def lastDigits : (width : Nat) → Nat → List Char
  | 0, _ => []
  | width + 1, n => lastDigits width (n / 10) ++ [Nat.digitChar (n % 10)]

end Insolvency.Numeral
