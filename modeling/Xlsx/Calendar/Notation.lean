import Xlsx.Calendar.Moment
import Xlsx.Text.Blank

/-! # Date and time notation

A notation is a list of fields and marks. A field is a number after optional white space; a mark is
itself. A text is read by a notation when the fields and marks use it up, and the parts they give
make a date or a time. -/

namespace Xlsx.Calendar

/-- A part of a notation. -/
inductive Field
  | year
  | month
  | day
  | hour
  | minute
  | second
  /-- A point and the digits after it, or nothing. -/
  | fraction
  | mark (c : Char)
deriving DecidableEq, Repr

/-- The parts of a date and a time that a text gives. -/
structure Parts where
  year : Int := 0
  month : Nat := 0
  day : Nat := 0
  hour : Nat := 0
  minute : Nat := 0
  second : Nat := 0
  nano : Nat := 0
deriving DecidableEq, Repr

namespace Notation

/-- A number of at least one digit and at most `limit`, with what follows it. -/
def number? (limit : Nat) (cs : List Char) : Option (Nat × List Char) := do
  let digits := (cs.take limit).takeWhile Char.isDigit
  let n ← Text.natural? digits
  return (n, cs.drop digits.length)

/-- A number of at most two digits after white space. -/
def short? (cs : List Char) : Option (Nat × List Char) := number? 2 (Text.trimLeft cs)

/-- A year after white space: up to four digits, or any number of them after a sign. -/
def year? (cs : List Char) : Option (Int × List Char) :=
  match Text.trimLeft cs with
  | '-' :: rest => (number? rest.length rest).map fun (n, more) => (-(n : Int), more)
  | '+' :: rest => (number? rest.length rest).map fun (n, more) => ((n : Int), more)
  | rest => (number? 4 rest).map fun (n, more) => ((n : Int), more)

/-- Nanoseconds after a point: nine digits count, and any further ones are passed over. -/
def fraction? (cs : List Char) : Option (Nat × List Char) :=
  match cs with
  | '.' :: rest => do
    let (n, more) ← number? 9 rest
    let used := rest.length - more.length
    return (n * Nat.pow 10 (9 - used), more.dropWhile Char.isDigit)
  | _ => some (0, cs)

/-- One field or mark at the head of a text. -/
def step? (field : Field) (p : Parts) (cs : List Char) : Option (Parts × List Char) :=
  match field with
  | .year => (year? cs).map fun (n, more) => ({ p with year := n }, more)
  | .month => (short? cs).map fun (n, more) => ({ p with month := n }, more)
  | .day => (short? cs).map fun (n, more) => ({ p with day := n }, more)
  | .hour => (short? cs).map fun (n, more) => ({ p with hour := n }, more)
  | .minute => (short? cs).map fun (n, more) => ({ p with minute := n }, more)
  | .second => (short? cs).map fun (n, more) => ({ p with second := n }, more)
  | .fraction => (fraction? cs).map fun (n, more) => ({ p with nano := n }, more)
  | .mark c =>
    match cs with
    | d :: more => if c = d then some (p, more) else none
    | [] => none

/-- The parts that a text gives when it is used up by the fields. -/
def parts? : List Field → Parts → List Char → Option Parts
  | [], p, [] => some p
  | [], _, _ :: _ => none
  | field :: fields, p, cs =>
    match step? field p cs with
    | some (p, rest) => parts? fields p rest
    | none => none

end Notation

/-- The calendar date of the parts. -/
def Parts.date? (p : Parts) : Option Date := Date.ofParts? p.year p.month p.day

/-- The time of day of the parts. -/
def Parts.time? (p : Parts) : Option Time := Time.ofParts? p.hour p.minute p.second p.nano

/-- Year, month and day. -/
def dateFields : List Field := [.year, .mark '-', .month, .mark '-', .day]

/-- Hour and minute. -/
def minuteFields : List Field := [.hour, .mark ':', .minute]

/-- Hour, minute, second and an optional fraction of it. -/
def secondFields : List Field := minuteFields ++ [.mark ':', .second, .fraction]

/-- A date and a time with the letter `T` between them. -/
def momentOf? (timeFields : List Field) (cs : List Char) : Option Moment := do
  let p ← Notation.parts? (dateFields ++ .mark 'T' :: timeFields) {} cs
  let date ← p.date?
  let time ← p.time?
  return ⟨date, time⟩

/-- A date alone. -/
def dateOf? (cs : List Char) : Option Date := do (← Notation.parts? dateFields {} cs).date?

/-- A time alone. -/
def timeOf? (timeFields : List Field) (cs : List Char) : Option Time := do
  (← Notation.parts? timeFields {} cs).time?

end Xlsx.Calendar
