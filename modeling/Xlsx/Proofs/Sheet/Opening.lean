import Xlsx.Proofs.Markup.Nesting
import Xlsx.Sheet.Cursor

/-! # Opening a cursor

What stands before the rows of a sheet is read when a cursor is opened, and no option has a say in
it.

* **`Sheet.openRows_behind`**: the rows that are reached stand behind what was read.
* **`Cursor.ofStream?_eq`**: a cursor is `Cursor.opened` where the rows of its sheet can be reached. -/

namespace Xlsx

namespace Sheet

section Equations

variable {fault? : Option Markup.Fault} {depth : Nat} {sawRoot : Bool} {dimension : Option Range}
  {tag : Markup.Tag} {rest : List Markup.Event}

/-- The start tag of the rows. -/
theorem openRows_reached (h : tag.localName = "sheetData") :
    openRows fault? depth sawRoot dimension (.start tag :: rest) =
      .ok (.streaming 0 ⟨rest, fault?⟩, dimension) := by
  rw [openRows, if_pos h]

/-- The empty tag of rows that are none. -/
theorem openRows_noRows (h : tag.localName = "sheetData") :
    openRows fault? depth sawRoot dimension (.empty tag :: rest) = .ok (.finished, dimension) := by
  simp only [openRows, h]

/-- A start tag before the rows. -/
theorem openRows_start (h : tag.localName ≠ "sheetData") :
    openRows fault? depth sawRoot dimension (.start tag :: rest) =
      openRows fault? (depth + 1) true dimension rest := by
  rw [openRows, if_neg h]

/-- An empty tag before the rows that declares no used range. -/
theorem openRows_empty (hrows : tag.localName ≠ "sheetData") (hdim : tag.localName ≠ "dimension") :
    openRows fault? depth sawRoot dimension (.empty tag :: rest) =
      openRows fault? depth true dimension rest := by
  rw [openRows]
  split
  · contradiction
  · contradiction
  · rfl

end Equations

/-- The rows of a sheet stand behind what is read before them. -/
theorem openRows_behind {fault? : Option Markup.Fault} {depth next : Nat} {sawRoot : Bool}
    {dimension declared : Option Range} {events : List Markup.Event} {rest : Markup.Stream}
    (h : openRows fault? depth sawRoot dimension events = .ok (.streaming next rest, declared)) :
    next = 0 ∧ rest.fault? = fault? ∧ ∃ before, events = before ++ rest.events := by
  induction events generalizing depth sawRoot dimension with
  | nil =>
    rw [openRows] at h
    split at h <;> simp at h
  | cons e events ih =>
    -- Each event but the one that opens the rows leads to the events behind it.
    have hskip : ∀ {depth : Nat} {sawRoot : Bool} {dimension : Option Range},
        openRows fault? depth sawRoot dimension events = .ok (.streaming next rest, declared) →
        next = 0 ∧ rest.fault? = fault? ∧ ∃ before, e :: events = before ++ rest.events := by
      intro depth sawRoot dimension h
      obtain ⟨hnext, hfault, before, hbefore⟩ := ih h
      exact ⟨hnext, hfault, e :: before, by rw [hbefore, List.cons_append]⟩
    cases e with
    | start tag =>
      simp only [openRows] at h
      split at h
      · simp only [Except.ok.injEq, Prod.mk.injEq, Reading.streaming.injEq] at h
        obtain ⟨⟨rfl, rfl⟩, -⟩ := h
        exact ⟨rfl, rfl, [.start tag], rfl⟩
      · exact hskip h
    | empty tag =>
      simp only [openRows] at h
      split at h
      · simp at h
      · exact hskip h
      · exact hskip h
    | finish name => exact hskip h
    | text content => exact hskip h
    | literal content => exact hskip h
    | aside => exact hskip h

/-- No cell stands inside another in what a reading still has before it. -/
def Reading.CellsApart : Reading → Prop
  | streaming _ rest => Markup.Apart "c" false rest.events
  | finished => True
  | failed => True

/-- Cells that are apart in a sheet are so in its reading. -/
theorem Reading.cellsApart_of_open {s : Markup.Stream} {reading : Reading} {dimension : Option Range}
    (h : Reading.ofStream? s = .ok (reading, dimension)) (hapart : Markup.Apart "c" false s.events) :
    reading.CellsApart := by
  cases reading with
  | finished => trivial
  | failed => trivial
  | streaming next rest =>
    obtain ⟨-, -, before, hbefore⟩ := openRows_behind h
    rw [hbefore] at hapart
    exact hapart.behind

/-- A sheet of two rows: one with a number in its first column and an empty cell behind it, and one
without cells. -/
def sampleStream : Markup.Stream where
  events := [.start ⟨"worksheet", []⟩, .start ⟨"sheetData", []⟩, .start ⟨"row", []⟩, .start ⟨"c", []⟩,
    .start ⟨"v", []⟩, .text (.ok "7"), .finish "v", .finish "c", .empty ⟨"c", []⟩, .finish "row",
    .start ⟨"row", []⟩, .finish "row", .finish "sheetData", .finish "worksheet"]

end Sheet

namespace Cursor

/-- The cursor at the start of the rows, if they can be reached. -/
def opened (sheet : Sheet) (decoder : Decoder) (o : CursorOptions) (reading : Sheet.Reading)
    (dimension : Option Range) : Cursor where
  sheet := sheet
  decoder := decoder
  reading := reading
  dimension := dimension
  projection := projectionOf o.columns o.range
  range := o.range
  firstRow := (o.range.map (·.first.row)).getD 0
  lastRow := (o.range.map (·.last.row)).getD (maxRows - 1)
  dense := o.dense
  nextDense := (o.range.map (·.first.row)).getD 0

/-- **Opening a cursor is reaching the rows of its sheet**, whatever the options are. -/
theorem ofStream?_eq (sheet : Sheet) (decoder : Decoder) (o : CursorOptions) (s : Markup.Stream) :
    ofStream? sheet decoder o s =
      (Sheet.Reading.ofStream? s).map fun p => opened sheet decoder o p.1 p.2 := by
  unfold ofStream?
  cases Sheet.Reading.ofStream? s <;> rfl

/-- A cursor is opened on a reading of the sheet. -/
theorem ofStream?_eq_ok {sheet : Sheet} {decoder : Decoder} {o : CursorOptions} {s : Markup.Stream}
    {c : Cursor} (h : ofStream? sheet decoder o s = .ok c) :
    ∃ reading dimension, Sheet.Reading.ofStream? s = .ok (reading, dimension) ∧
      c = opened sheet decoder o reading dimension := by
  rw [ofStream?_eq] at h
  cases hopen : Sheet.Reading.ofStream? s with
  | error cause => simp [hopen, Except.map] at h
  | ok p =>
    simp only [hopen, Except.map, Except.ok.injEq] at h
    exact ⟨p.1, p.2, rfl, h.symm⟩

end Cursor

end Xlsx
