import Xlsx.Reference.Range
import Xlsx.Sheet.CellScan
import Xlsx.Text.Blank

/-! # The rows of a sheet

A sheet is read from front to back: what stands before its rows, and then row by row as far as rows
are wanted. A row without a number stands behind the one before it. The reading ends with the rows,
or with the first row behind those that are wanted, or with an error; after that it gives nothing. -/

namespace Xlsx.Sheet

/-- A row as it is stored: its selected cells, the last first. -/
structure RawRow where
  index : Nat
  cells : List RawCell
deriving DecidableEq, Inhabited, Repr

/-- How far a sheet has been read: the number of a row that does not state one and the events to
come, or that no row follows. -/
inductive Reading
  | streaming (nextIndex : Nat) (rest : Markup.Stream)
  | finished
  | failed

/-- Whether a reading goes on, and how it ended if not. -/
inductive State
  | streaming
  | finished
  | failed
deriving DecidableEq, Repr

/-- The state of a reading. -/
def Reading.state : Reading → State
  | streaming _ _ => .streaming
  | finished => .finished
  | failed => .failed

/-- The row that the octets of an attribute number, counting from one. -/
def rowOfOctets? (octets : List UInt8) : Option Nat :=
  (((Text.utf8? octets).bind fun s => Text.word? (Text.trimChars s.toList)).filter fun n =>
    decide (1 ≤ n) && decide (n ≤ maxRows)).map (· - 1)

/-- The number of a row with given attributes: the first one stated, or else `next`. -/
def rowIndex? (next : Nat) :
    List (Except Markup.AttributeFault Markup.Attribute) → Except RowFault Nat
  | [] => .ok next
  | .error cause :: _ => .error (.attribute cause)
  | .ok a :: rest =>
    if a.key = "r" then
      match rowOfOctets? a.value with
      | some row => .ok row
      | none => .error (.invalidRowNumber (Text.utf8Lossy a.value))
    else rowIndex? next rest

/-- The tag of a row and whether the row has content, if an event opens one. -/
def opensRow? : Markup.Event → Option (Markup.Tag × Bool)
  | .start tag => if tag.localName = "row" then some (tag, true) else none
  | .empty tag => if tag.localName = "row" then some (tag, false) else none
  | _ => none

/-- Whether an event ends the rows. -/
def endsRows : Markup.Event → Bool
  | .finish name => Markup.localPart name == "sheetData"
  | _ => false

/-- The cells of a row that has content, or none. -/
def contentOf (selects : Nat → Bool) (row : Nat) (fault? : Option Markup.Fault) (hasContent : Bool)
    (events : List Markup.Event) : Except StreamError (List RawCell × List Markup.Event) :=
  if hasContent then readCells selects row fault? {} events else .ok ([], events)

/-- Behind the content of a row there are no more events than in front of it. -/
theorem contentOf_length {selects : Nat → Bool} {row : Nat} {fault? : Option Markup.Fault}
    {hasContent : Bool} {events rest : List Markup.Event} {cells : List RawCell}
    (h : contentOf selects row fault? hasContent events = .ok (cells, rest)) :
    rest.length ≤ events.length := by
  unfold contentOf at h
  split at h
  · exact Nat.le_of_lt (readCells_length h)
  · simp only [Except.ok.injEq, Prod.mk.injEq] at h
    simp [h.2]

/-- The next row with a number from `first` to `last`, with the events behind it; none when the rows
are over or the next one lies behind `last`. Rows before `first` are passed over. -/
def readRow (selects : Nat → Bool) (first last : Nat) (fault? : Option Markup.Fault) (next : Nat)
    (events : List Markup.Event) : Except StreamError (Option (RawRow × List Markup.Event)) :=
  match events with
  | [] => .error (overAt fault? (if next = 0 then none else some (next - 1)))
  | e :: rest =>
    if endsRows e then .ok none
    else
      match opensRow? e with
      | none => readRow selects first last fault? next rest
      | some (tag, hasContent) =>
        match rowIndex? next tag.attributes with
        | .error cause => .error (.malformed (some next) cause)
        | .ok index =>
          if last < index then .ok none
          else
            -- The cells of a row that is passed over are read for their faults alone.
            let isSkipped := decide (index < first)
            match h : contentOf (fun c => !isSkipped && selects c) index fault? hasContent rest with
            | .error cause => .error cause
            | .ok (cells, after) =>
              have : after.length < rest.length + 1 := Nat.lt_succ_of_le (contentOf_length h)
              if isSkipped then readRow selects first last fault? (Text.successor index) after
              else .ok (some (⟨index, cells⟩, after))
termination_by events.length
decreasing_by
  · exact Nat.lt_succ_self _
  · exact this

/-- A row uses events up, which is why the rows come to an end. -/
theorem readRow_length {selects : Nat → Bool} {first last next : Nat} {fault? : Option Markup.Fault}
    {events rest : List Markup.Event} {row : RawRow}
    (h : readRow selects first last fault? next events = .ok (some (row, rest))) :
    rest.length < events.length := by
  fun_induction readRow selects first last fault? next events with
  | case1 | case2 | case4 | case5 | case6 => simp at h
  | case3 next e events hend hopen ih =>
    have := ih h
    simp only [List.length_cons]
    omega
  | case7 next e events hend tag hasContent hopen index hindex hlast isSkipped cells after hcells
      hlength hskip ih =>
    have := ih h
    simp only [List.length_cons]
    omega
  | case8 next e events hend tag hasContent hopen index hindex hlast isSkipped cells after hcells
      hlength hskip =>
    simp only [Except.ok.injEq, Option.some.injEq, Prod.mk.injEq] at h
    rw [← h.2]
    simpa using hlength

/-- How many events a reading has to come. -/
def Reading.size : Reading → Nat
  | streaming _ rest => rest.events.length
  | finished => 0
  | failed => 0

/-- The next wanted row, and the reading behind it. -/
def Reading.next (selects : Nat → Bool) (first last : Nat) (r : Reading) :
    Except StreamError (Option RawRow) × Reading :=
  match r with
  | .streaming next rest =>
    match readRow selects first last rest.fault? next rest.events with
    | .ok (some (row, events)) =>
      (.ok (some row), .streaming (Text.successor row.index) ⟨events, rest.fault?⟩)
    | .ok none => (.ok none, .finished)
    | .error cause => (.error cause, .failed)
  | r => (.ok none, r)

/-- A reading that gives a row has fewer events to come. -/
theorem Reading.size_next_lt {selects : Nat → Bool} {first last : Nat} {r after : Reading}
    {row : RawRow} (h : r.next selects first last = (.ok (some row), after)) :
    after.size < r.size := by
  unfold Reading.next at h
  split at h
  · split at h
    · rename_i hrow
      simp only [Prod.mk.injEq] at h
      rw [← h.2]
      exact readRow_length hrow
    · simp at h
    · simp at h
  · simp at h

/-- The used range that a tag declares: a range, or a single cell. -/
def dimensionOfTag? (tag : Markup.Tag) : Option Range := do
  let a ← (tag.attributes.filterMap Except.toOption).find? (·.key == "ref")
  let value ← Text.utf8? a.value
  match Range.ofText? value with
  | .ok range => some range
  | .error _ => (Position.ofText? value).toOption.map .single

/-- The reading at the start of the rows, and the used range that is declared before them. A sheet
whose elements are all closed may lack rows altogether. -/
def openRows (fault? : Option Markup.Fault) (depth : Nat) (sawRoot : Bool) (dimension : Option Range) :
    List Markup.Event → Except StreamError (Reading × Option Range)
  | [] =>
    if fault?.isNone && sawRoot && depth == 0 then .ok (.finished, dimension)
    else .error (overAt fault? none)
  | e :: rest =>
    match e with
    | .start tag =>
      if tag.localName = "sheetData" then .ok (.streaming 0 ⟨rest, fault?⟩, dimension)
      else openRows fault? (depth + 1) true dimension rest
    | .empty tag =>
      match tag.localName with
      | "sheetData" => .ok (.finished, dimension)
      | "dimension" => openRows fault? depth sawRoot (dimensionOfTag? tag) rest
      | _ => openRows fault? depth true dimension rest
    | .finish _ => openRows fault? (depth - 1) sawRoot dimension rest
    | _ => openRows fault? depth sawRoot dimension rest

/-- The reading of a sheet, and its declared used range. -/
def Reading.ofStream? (s : Markup.Stream) : Except StreamError (Reading × Option Range) :=
  openRows s.fault? 0 false none s.events

end Xlsx.Sheet
