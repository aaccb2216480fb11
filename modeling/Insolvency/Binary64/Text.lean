/-
Floating-point numbers as text.

A number is written as its shortest decimal, always with a fraction or an exponent.
-/
import Insolvency.Binary64.Shortest

namespace Insolvency

/-- A signed decimal `digits · 10^power` as binary floating-point numbers are written. -/
structure FloatText where
  digits : Int
  power : Int
deriving DecidableEq, Repr

namespace FloatText

/-- The shortest decimal of a magnitude, with a sign. -/
def ofMagnitude (sign : Int) (x : Binary64) : FloatText :=
  let (digits, power) := x.shortest
  ⟨sign * digits, power⟩

/-- The shortest decimal of the floating-point number nearest to an amount. -/
def ofDecimal (d : Decimal) : FloatText :=
  match Binary64.nearest? d.units.natAbs Decimal.unitsPerOne with
  | some x => ofMagnitude d.units.sign x
  | none => ⟨0, 0⟩

/-- The decimal as text.  With at most four zeros between the point and the first digit, or at
most sixteen digits before the point, the number is written plainly and always with a fraction;
otherwise with an exponent, which always has a sign. -/
def toText (t : FloatText) : String :=
  let sign := if t.digits < 0 then "-" else ""
  let digits := (toString t.digits.natAbs).toList
  let point : Int := digits.length + t.power
  let zeros (n : Int) : List Char := List.replicate n.toNat '0'
  let body : List Char :=
    if t.digits = 0 then ['0', '.', '0']
    else if 0 ≤ t.power ∧ point ≤ 16 then digits ++ zeros t.power ++ ['.', '0']
    else if 0 < point ∧ point ≤ 16 then
      digits.take point.toNat ++ '.' :: digits.drop point.toNat
    else if -5 < point ∧ point ≤ 0 then '0' :: '.' :: zeros (-point) ++ digits
    else
      let fraction := match digits.drop 1 with
        | [] => []
        | rest => '.' :: rest
      let mark := if point < 1 then ['e', '-'] else ['e', '+']
      digits.take 1 ++ fraction ++ mark ++ (toString (point - 1).natAbs).toList
  sign ++ String.ofList body

end FloatText

end Insolvency
