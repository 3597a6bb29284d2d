import Xlsx.Calendar.Notation
import Xlsx.Decimal.Layout

/-! # Serial dates

A sheet stores a moment as a number of days, the time of day being its fraction. A workbook counts
either from the start of 1900 or from the start of 1904. The first system has a 29 February 1900,
serial 60, that no calendar has: it is read as 28 February, the days before it are counted from 31
December 1899 and the days after it from 30 December. -/

namespace Xlsx

/-- The day that serial numbers of a workbook are counted from. -/
inductive Epoch
  | since1900
  | since1904
deriving DecidableEq, Inhabited, Repr

namespace Epoch

open Calendar

/-- The number of 30 December 1899. -/
def base1900 : Int := Date.ordinal ⟨1899, 12, 30⟩

/-- The number of 1 January 1904. -/
def base1904 : Int := Date.ordinal ⟨1904, 1, 1⟩

/-- Milliseconds in a day. -/
def dayMillis : Nat := 86400000

/-- The number of the day that a whole serial stands for. -/
def dayOfSerial (e : Epoch) (days : Nat) : Int :=
  match e with
  | .since1904 => base1904 + days
  | .since1900 =>
    -- Serial 60 falls together with serial 59.
    if 61 ≤ days then base1900 + days
    else if days = 60 then base1900 + 60
    else base1900 + 1 + days

/-- The whole serial of a day, negative for a day before the epoch. -/
def serialOfDay (e : Epoch) (n : Int) : Int :=
  match e with
  | .since1904 => n - base1904
  | .since1900 => if n - base1900 < 61 then n - base1900 - 1 else n - base1900

/-- The time of day of a serial in whole milliseconds, up to a full day: the fraction times the
length of a day, first to the nearest binary64 value and then to the nearest integer. -/
def millisOfSerial (x : Double) : Nat :=
  Double.roundUp (Double.ofRatio false (x.fractionPart * dayMillis) Double.unit).magnitude Double.unit

/-- The moment that a serial stands for: none when it is negative, not finite, or beyond the
calendar. -/
def moment? (e : Epoch) (serial : Double) : Option Moment :=
  if !serial.isFinite || (serial.isNegative && !serial.isZero) then none
  else do
    let day := e.dayOfSerial serial.wholePart
    let _ ← Date.ofOrdinal? day
    Moment.ofDayMillis? day (millisOfSerial serial)

/-- The part of a day that milliseconds are. -/
def fractionOfMillis (ms : Nat) : Double := Double.ofRatio false ms dayMillis

/-- The serial of a moment: none for a day before the epoch. -/
def serial? (e : Epoch) (m : Moment) : Option Double :=
  let days := e.serialOfDay m.date.ordinal
  if days < 0 then none
  else
    let fraction := fractionOfMillis m.time.millis
    some (Double.ofRatio false (days.toNat * Double.unit + fraction.magnitude) Double.unit)

/-- The serial of a written date or time: a date with a time to the second or to the minute, a date,
or a time, which is a part of a day; one `Z` at the end is passed over. The first notation that reads
the text decides. -/
def serialOfText? (e : Epoch) (cs : List Char) : Option Double :=
  let cs := if cs.getLast? = some 'Z' then cs.dropLast else cs
  match momentOf? secondFields cs with
  | some m => e.serial? m
  | none =>
    match momentOf? minuteFields cs with
    | some m => e.serial? m
    | none =>
      match dateOf? cs with
      | some d => e.serial? ⟨d, Time.midnight⟩
      | none =>
        ((timeOf? secondFields cs).or (timeOf? minuteFields cs)).map fun t =>
          fractionOfMillis t.millis

/-- The text of a serial: its date, with the time when it is not a whole day, and the bare number
when it stands for no moment. -/
def display (e : Epoch) (serial : Double) : String :=
  match e.moment? serial with
  | some m => String.ofList (if serial.isWhole then m.date.chars else m.chars)
  | none => serial.display

end Epoch

end Xlsx
