/-
Numbers in JSON text.

A whole number written plainly stays whole if a 64-bit word holds it.  Any other
number is a floating-point number, and two steps round on the way to it: the digits
make a word, whose nearest floating-point number is then multiplied or divided by that
of a power of ten.  Digits that the word has no room for count as places only.  So the
number read can be a neighbour of the nearest one, and what was written in full does
not always read back.
-/
import Insolvency.Json.Document
import Insolvency.Numeral

namespace Insolvency.Json

/-! ### The parts of a number -/

/-- Digits from the front of a text, at least one, and the rest. -/
def takeDigits (text : List Char) : Option (List Char × List Char) :=
  match text.span Char.isDigit with
  | ([], _) => none
  | found => some found

/-- Digits before the point: no zero in front of others. -/
def takeWhole (text : List Char) : Option (List Char × List Char) :=
  match takeDigits text with
  | some ('0' :: _ :: _, _) => none
  | found => found

/-- The digits after a point, if there is one. -/
def takeFraction : List Char → Option (List Char × List Char)
  | '.' :: rest => takeDigits rest
  | rest => some ([], rest)

/-- The exponent after its mark, if there is one. -/
def takeExponent : List Char → Option (Int × List Char)
  | [] => some (0, [])
  | mark :: rest =>
    if mark = 'e' ∨ mark = 'E' then
      match rest with
      | '-' :: digits => (takeDigits digits).map fun (d, rest) => (-Numeral.value d, rest)
      | '+' :: digits => (takeDigits digits).map fun (d, rest) => (Numeral.value d, rest)
      | digits => (takeDigits digits).map fun (d, rest) => (Numeral.value d, rest)
    else some (0, mark :: rest)

/-! ### Floating-point numbers -/

/-- The largest number that a 64-bit word holds. -/
def wordMax : Nat := 18446744073709551615

/-- A word with digits appended as long as it holds them, and how many are left over from the
first on that does not fit. -/
def appendDigits (word : Nat) : List Char → Nat × Nat
  | [] => (word, 0)
  | c :: rest =>
    let longer := 10 * word + Numeral.digitValue c
    if longer ≤ wordMax then appendDigits longer rest else (word, rest.length + 1)

/-- The digits before and after a point as a word, and the power of ten to multiply it by. -/
def significand (whole fraction : List Char) : Nat × Int :=
  let (word, wholeLeft) := appendDigits 0 whole
  let (word, fractionLeft) := appendDigits word fraction
  (word, (wholeLeft + fractionLeft : Nat) - (fraction.length : Int))

/-- The largest exponent of a power of ten that is a floating-point number. -/
def maxPower : Nat := 308

/-- The floating-point number nearest to a power of ten. -/
def tenTo? (k : Nat) : Option Binary64 := Binary64.nearest? (pow10 k) 1

/-- A word times a power of ten; `none` if that is too large.  A division takes 10³⁰⁸ at a time,
and after two of these nothing is left of a word. -/
def scaled? (word : Nat) (power : Int) : Option Binary64 := do
  let x ← Binary64.nearest? word 1
  let k := power.natAbs
  if 0 ≤ power then
    if k ≤ maxPower then x.mul? (← tenTo? k)
    else if word = 0 then some x
    else none
  else if k ≤ maxPower then x.div? (← tenTo? k)
  else if k ≤ 2 * maxPower then (← x.div? (← tenTo? maxPower)).div? (← tenTo? (k - maxPower))
  else some ⟨0, 0⟩

/-! ### Reading -/

/-- The number fits a signed 64-bit word, or an unsigned one. -/
def fitsWord (n : Int) : Bool := -9223372036854775808 ≤ n && n ≤ wordMax

/-- The number that a text stands for.  Whole numbers written plainly stay whole, a negative
zero apart. -/
def readNumber? (text : List Char) : Option Json := do
  let (sign, rest) := match text with
    | '-' :: rest => ((-1 : Int), rest)
    | rest => (1, rest)
  let (whole, rest) ← takeWhole rest
  let plain := rest.isEmpty
  let (fraction, rest) ← takeFraction rest
  let (exponent, rest) ← takeExponent rest
  if !rest.isEmpty then none
  let n := sign * Numeral.value whole
  if plain && fitsWord n && !(n == 0 && sign == -1) then some (.int n)
  else
    let (word, power) := significand whole fraction
    some (.float (.ofMagnitude sign (← scaled? word (power + exponent))))

end Insolvency.Json
