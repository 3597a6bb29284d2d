/-! # Calendar dates

Dates of the Gregorian calendar, extended to all years, and their number as days. Years are counted
from March here, so that the leap day is the last of its year, and days from 1 March of year 0; one
era of four hundred years has `146097` days. -/

namespace Xlsx.Calendar

/-- A day of the Gregorian calendar. -/
structure Date where
  year : Int
  month : Nat
  day : Nat
deriving DecidableEq, Inhabited, Repr

/-- The years with a 29th of February. -/
def isLeap (year : Int) : Bool := year % 4 == 0 && (year % 100 != 0 || year % 400 == 0)

/-- How many days a month has. -/
def monthLength (year : Int) (month : Nat) : Nat :=
  if month = 2 then (if isLeap year then 29 else 28)
  else if month = 4 ∨ month = 6 ∨ month = 9 ∨ month = 11 then 30
  else 31

/-- The first year that can be written. -/
def firstYear : Int := -262143

/-- The last year that can be written. -/
def lastYear : Int := 262142

namespace Date

/-- A day that the calendar has, in a year that can be written. -/
def isValid (d : Date) : Bool :=
  decide (firstYear ≤ d.year ∧ d.year ≤ lastYear ∧ 1 ≤ d.month ∧ d.month ≤ 12 ∧ 1 ≤ d.day ∧
    d.day ≤ monthLength d.year d.month)

/-- The date with these parts, if the calendar has it. -/
def ofParts? (year : Int) (month day : Nat) : Option Date :=
  let d : Date := ⟨year, month, day⟩
  if d.isValid then some d else none

/-- The number of a day, counted from 1 March of year 0. -/
def ordinal (d : Date) : Int :=
  let y : Int := if d.month ≤ 2 then d.year - 1 else d.year
  let m : Int := if d.month ≤ 2 then d.month + 9 else d.month - 3
  365 * y + y / 4 - y / 100 + y / 400 + (153 * m + 2) / 5 + d.day - 1

/-- The day with a given number. -/
def ofOrdinal (n : Int) : Date :=
  let era := n / 146097
  let e := n % 146097
  let y := (e - e / 1460 + e / 36524 - e / 146096) / 365
  let dayOfYear := e - (365 * y + y / 4 - y / 100)
  let m := (5 * dayOfYear + 2) / 153
  let day := dayOfYear - (153 * m + 2) / 5 + 1
  let month := if m < 10 then m + 3 else m - 9
  let year := y + 400 * era + (if m < 10 then 0 else 1)
  ⟨year, month.toNat, day.toNat⟩

/-- The day with a given number, if its year can be written. -/
def ofOrdinal? (n : Int) : Option Date :=
  let d := ofOrdinal n
  if firstYear ≤ d.year ∧ d.year ≤ lastYear then some d else none

end Date

end Xlsx.Calendar
