import Xlsx.Calendar.Date
import Xlsx.Text.Digits

/-! # Moments

A date with a time of day, and the text of both. A time counts whole seconds of its day and
nanoseconds; a leap second is a fifty-ninth second whose nanoseconds go on past `10 ^ 9`. -/

namespace Xlsx.Calendar

/-- A time of day. -/
structure Time where
  second : Nat
  nano : Nat
deriving DecidableEq, Inhabited, Repr

/-- A date with a time of day. -/
structure Moment where
  date : Date
  time : Time
deriving DecidableEq, Inhabited, Repr

namespace Time

/-- The first moment of a day. -/
def midnight : Time := ⟨0, 0⟩

/-- The time with these parts; sixty seconds are the leap second. -/
def ofParts? (hour minute second nano : Nat) : Option Time :=
  if hour < 24 ∧ minute < 60 ∧ second ≤ 60 then
    let leap := if second = 60 then 1 else 0
    some ⟨hour * 3600 + minute * 60 + second - leap, nano + leap * 1000000000⟩
  else none

/-- The time that lies a number of milliseconds after midnight. -/
def ofMillis (ms : Nat) : Time := ⟨ms / 1000, ms % 1000 * 1000000⟩

/-- Whole milliseconds since midnight. -/
def millis (t : Time) : Nat := t.second * 1000 + t.nano / 1000000

/-- The hour of the day. -/
def hour (t : Time) : Nat := t.second / 3600

/-- The minute of the hour. -/
def minute (t : Time) : Nat := t.second / 60 % 60

/-- The second of the minute. -/
def secondOfMinute (t : Time) : Nat := t.second % 60

/-- Hours, minutes and seconds, two digits each. -/
def chars (t : Time) : List Char :=
  Text.paddedDecimal 2 t.hour ++ ':' :: Text.paddedDecimal 2 t.minute ++
    ':' :: Text.paddedDecimal 2 t.secondOfMinute

end Time

namespace Date

/-- A year of four digits, or of more with a sign in front. -/
def yearChars (year : Int) : List Char :=
  if 0 ≤ year ∧ year < 10000 then Text.paddedDecimal 4 year.toNat
  else (if year < 0 then '-' else '+') :: Text.paddedDecimal 4 year.natAbs

/-- Year, month and day. -/
def chars (d : Date) : List Char :=
  yearChars d.year ++ '-' :: Text.paddedDecimal 2 d.month ++ '-' :: Text.paddedDecimal 2 d.day

end Date

namespace Moment

/-- The moment a number of milliseconds, at most a day, after the start of the day `n`. -/
def ofDayMillis? (n : Int) (ms : Nat) : Option Moment := do
  let date ← Date.ofOrdinal? (n + (ms / 86400000 : Nat))
  return ⟨date, Time.ofMillis (ms % 86400000)⟩

/-- The date, the letter `T` and the time to the second. -/
def chars (m : Moment) : List Char := m.date.chars ++ 'T' :: m.time.chars

end Moment

end Xlsx.Calendar
