/-
Points in time, to the second.

Models carry when they were created, last changed and deleted.  Nothing is ever
computed with these times, so a time is its calendar date and its time of day, read
from and written as `2024-02-29T12:30:45Z`.  The one thing to check is that the date
exists.
-/
import Insolvency.Numeral

namespace Insolvency

/-- A second of a calendar day, in universal time. -/
structure Timestamp where
  year : Nat
  month : Nat
  day : Nat
  hour : Nat
  minute : Nat
  second : Nat
deriving DecidableEq, Repr

namespace Timestamp

/-- The year has a 29th of February. -/
def isLeapYear (year : Nat) : Bool :=
  year % 4 == 0 && (year % 100 != 0 || year % 400 == 0)

/-- How many days a month has. -/
def daysIn (year month : Nat) : Nat :=
  match month with
  | 2 => if isLeapYear year then 29 else 28
  | 4 | 6 | 9 | 11 => 30
  | _ => 31

/-- The date and the time of day exist; a minute may have a leap second. -/
def isOnCalendar (t : Timestamp) : Bool :=
  1 ≤ t.month && t.month ≤ 12 && 1 ≤ t.day && t.day ≤ daysIn t.year t.month
    && t.hour ≤ 23 && t.minute ≤ 59 && t.second ≤ 60

/-- A number written with exactly `width` digits. -/
def readField (width : Nat) (text : List Char) : Option (Nat × List Char) :=
  let field := text.take width
  if field.length == width then (Numeral.read? field).map (·, text.drop width) else none

/-- The text after a mark it has to start with. -/
def skip (mark : Char) : List Char → Option (List Char)
  | [] => none
  | c :: rest => if c = mark then some rest else none

/-- The time that a text stands for. -/
def ofText? (text : String) : Option Timestamp := do
  let (year, rest) ← readField 4 text.toList
  let (month, rest) ← readField 2 (← skip '-' rest)
  let (day, rest) ← readField 2 (← skip '-' rest)
  let (hour, rest) ← readField 2 (← skip 'T' rest)
  let (minute, rest) ← readField 2 (← skip ':' rest)
  let (second, rest) ← readField 2 (← skip ':' rest)
  let rest ← skip 'Z' rest
  let time : Timestamp := ⟨year, month, day, hour, minute, second⟩
  if rest.isEmpty && time.isOnCalendar then some time else none

/-- The one way a time is written. -/
def toText (t : Timestamp) : String :=
  let two := Numeral.padded 2
  Numeral.padded 4 t.year ++ "-" ++ two t.month ++ "-" ++ two t.day ++ "T"
    ++ two t.hour ++ ":" ++ two t.minute ++ ":" ++ two t.second ++ "Z"

end Timestamp

end Insolvency
