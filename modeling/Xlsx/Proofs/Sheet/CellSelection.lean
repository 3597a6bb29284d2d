import Mathlib.Tactic.Common
import Xlsx.Proofs.Markup.Nesting
import Xlsx.Sheet.CellScan

/-! # Reading some of the cells of a row

A reading of a row that keeps only some columns goes through other states than one that keeps all:
while a cell that is not selected is open, it holds no cell and takes no notice of what stands in
it. This file relates the two.

* **`CellScan.restrict selects s`**: the state of the selecting reading, as a function of the state
  `s` of the reading that keeps every cell.
* **`CellScan.Settled`**: the invariant that makes it one: text goes nowhere while no cell is open.
* **`readCells_restrict`**: if no cell stands inside another, a row that can be read in full can be
  read in part, with the selected ones of its cells and with the same events behind it. -/

namespace Xlsx.Sheet

open Markup (Apart)

variable {selects : Nat → Bool}

/-- Text changes nothing about where a cell stands. -/
@[simp] theorem Capture.put_column (c : Capture) (text : String) (cell : RawCell) :
    (c.put text cell).column = cell.column := by
  cases c <;> rfl

/-- Nor does its end. -/
@[simp] theorem complete_column (cell : RawCell) : (complete cell).column = cell.column := by
  unfold complete
  split <;> rfl

namespace CellScan

/-- The selected ones of some cells. -/
abbrev chosen (selects : Nat → Bool) (cells : List RawCell) : List RawCell :=
  cells.filter fun cell => selects cell.column

/-- **The state of a reading that keeps only selected cells**, when the one that keeps all is in
state `s`. A cell that is open and not selected leaves no trace. -/
def restrict (selects : Nat → Bool) (s : CellScan) : CellScan :=
  match s.current with
  | none => { nextColumn := s.nextColumn, cells := chosen selects s.cells }
  | some cell =>
    if selects cell.column then { s with cells := chosen selects s.cells }
    else { nextColumn := s.nextColumn, cells := chosen selects s.cells }

/-- **The invariant of reading all cells.** A cell is open only inside of an element `c`, and while
none is, no text is collected and no inline text is open. -/
structure Settled (inside : Bool) (s : CellScan) : Prop where
  inside_of_isSome : s.current.isSome = true → inside = true
  capture : s.current = none → s.capture = none
  inInline : s.current = none → s.inInline = false
  phoneticDepth : s.current = none → s.phoneticDepth = 0

/-- The state at the start of a row is settled. -/
theorem settled_start (inside : Bool) : Settled inside {} :=
  ⟨by simp, fun _ => rfl, fun _ => rfl, fun _ => rfl⟩

/-- A row that begins has no trace of any column. -/
@[simp] theorem restrict_start : restrict selects {} = {} := rfl

/-- While no cell is open, the cells that were read are restricted. -/
theorem restrict_of_none {s : CellScan} (h : s.current = none) :
    s.restrict selects = { nextColumn := s.nextColumn, cells := chosen selects s.cells } := by
  simp [restrict, h]

/-- A selected cell stays open. -/
theorem restrict_of_selected {s : CellScan} {cell : RawCell} (h : s.current = some cell)
    (hsel : selects cell.column = true) :
    s.restrict selects = { s with cells := chosen selects s.cells } := by
  simp [restrict, h, hsel]

/-- Of a cell that is not selected the next column stays. -/
theorem restrict_of_unselected {s : CellScan} {cell : RawCell} (h : s.current = some cell)
    (hsel : selects cell.column = false) :
    s.restrict selects = { nextColumn := s.nextColumn, cells := chosen selects s.cells } := by
  simp [restrict, h, hsel]

/-- The next column is counted in either case. -/
@[simp] theorem restrict_nextColumn (s : CellScan) :
    (s.restrict selects).nextColumn = s.nextColumn := by
  unfold restrict
  split
  · rfl
  · split <;> rfl

/-- The cells that were read are those of the selected columns. -/
@[simp] theorem restrict_cells (s : CellScan) :
    (s.restrict selects).cells = chosen selects s.cells := by
  unfold restrict
  split
  · rfl
  · split <;> rfl

/-- Another column and other cells in the full state are that column and the selected ones of those
cells in the restricted one. -/
theorem restrict_update (s : CellScan) (column : Nat) (cells : List RawCell) :
    CellScan.restrict selects { s with nextColumn := column, cells } =
      { s.restrict selects with nextColumn := column, cells := chosen selects cells } := by
  unfold restrict
  cases s.current with
  | none => rfl
  | some cell => by_cases hsel : selects cell.column = true <;> simp [hsel]

/-! ## One event -/

/-- The start of a cell, when none is open: it is selected or leaves no trace. -/
theorem open?_restrict (selects : Nat → Bool) {s after : CellScan} {tag : Markup.Tag}
    (hs : Settled false s) (h : s.open? (fun _ => true) tag = .ok after) :
    (s.restrict selects).open? selects tag = .ok (after.restrict selects) ∧ Settled true after := by
  have hnone : s.current = none := by
    by_contra hne
    exact absurd (hs.inside_of_isSome (Option.isSome_iff_ne_none.mpr hne)) (by simp)
  unfold open? at h ⊢
  rw [restrict_nextColumn]
  cases hcell : cellOfTag? s.nextColumn tag with
  | error cause => simp [hcell, Except.map] at h
  | ok cell =>
    simp only [hcell, Except.map, if_true, Except.ok.injEq] at h ⊢
    subst h
    refine ⟨?_, ⟨fun _ => rfl, by simp, by simp, by simp⟩⟩
    rw [restrict_of_none hnone]
    -- The state before is settled, so that a selected cell finds no text or inline text going on.
    by_cases hsel : selects cell.column = true
    · rw [restrict_of_selected rfl hsel, if_pos hsel, hs.capture hnone, hs.inInline hnone,
        hs.phoneticDepth hnone]
    · rw [restrict_of_unselected rfl (by simpa using hsel), if_neg hsel]

/-- A cell without content is kept or left out, whatever is open. -/
theorem openEmpty?_restrict {inside : Bool} {s after : CellScan} {tag : Markup.Tag}
    (hs : Settled inside s) (h : s.openEmpty? (fun _ => true) tag = .ok after) :
    (s.restrict selects).openEmpty? selects tag = .ok (after.restrict selects) ∧
      Settled inside after := by
  unfold openEmpty? at h ⊢
  rw [restrict_nextColumn]
  cases hcell : cellOfTag? s.nextColumn tag with
  | error cause => simp [hcell, Except.map] at h
  | ok cell =>
    simp only [hcell, Except.map, if_true, Except.ok.injEq] at h ⊢
    subst h
    refine ⟨?_, ⟨hs.1, hs.2, hs.3, hs.4⟩⟩
    have hcells : (if selects cell.column = true then cell :: (s.restrict selects).cells
        else (s.restrict selects).cells) = chosen selects (cell :: s.cells) := by
      rw [restrict_cells, chosen, chosen, List.filter_cons]
    rw [hcells, ← restrict_update]

/-! While no cell is open the start and the end of the elements inside of cells, and text, pass
without effect. While one is open, they change only what is put to it. -/

/-- While no cell is open, an element changes nothing. -/
theorem enter_idle (column : Nat) (cells : List RawCell) (name : String) :
    CellScan.enter { nextColumn := column, cells } name = { nextColumn := column, cells } := by
  unfold enter
  split <;> rfl

/-- An element in a cell changes nothing about the next column. -/
@[simp] theorem enter_nextColumn (s : CellScan) (name : String) :
    (s.enter name).nextColumn = s.nextColumn := by
  unfold enter
  split <;> (try split) <;> rfl

/-- Nor about the cells that were read. -/
@[simp] theorem enter_cells (s : CellScan) (name : String) : (s.enter name).cells = s.cells := by
  unfold enter
  split <;> (try split) <;> rfl

/-- What is collected does not look at the cells before. -/
theorem enter_withCells (s : CellScan) (cells : List RawCell) (name : String) :
    CellScan.enter { s with cells } name = { s.enter name with cells } := by
  obtain ⟨column, current, capture, inInline, depth, before⟩ := s
  unfold enter
  split
  · split <;> rfl
  · cases current <;> rfl
  · split <;> rfl
  · split <;> rfl
  · rfl

/-- An open cell stays open in its column. -/
theorem enter_current {s : CellScan} {cell : RawCell} (h : s.current = some cell) (name : String) :
    ∃ held, (s.enter name).current = some held ∧ held.column = cell.column := by
  unfold enter
  split
  · exact ⟨cell, by simp [h], rfl⟩
  · exact ⟨Capture.inlineText.put "" cell, by simp [h], Capture.put_column _ _ _⟩
  · exact ⟨cell, by split <;> exact h, rfl⟩
  · exact ⟨cell, by split <;> exact h, rfl⟩
  · exact ⟨cell, h, rfl⟩

/-- While a cell is open inside of an element `c`, nothing else is asked of a state. -/
theorem settled_of_some {inside : Bool} {s : CellScan} {cell : RawCell} (h : s.current = some cell)
    (hin : inside = true) : Settled inside s :=
  ⟨fun _ => hin, by simp [h], by simp [h], by simp [h]⟩

/-- A settled state without an open cell has nothing but a column and cells. -/
theorem Settled.eq_of_none {inside : Bool} {s : CellScan} (hs : Settled inside s)
    (h : s.current = none) : s = { nextColumn := s.nextColumn, cells := s.cells } := by
  rw [← hs.capture h, ← hs.inInline h, ← hs.phoneticDepth h, ← h]

/-- The start of an element inside of a cell. Inside one that is not selected it changes nothing. -/
theorem enter_restrict {inside : Bool} {s : CellScan} (hs : Settled inside s) (name : String) :
    (s.restrict selects).enter name = (s.enter name).restrict selects ∧
      Settled inside (s.enter name) := by
  cases hopen : s.current with
  | none =>
    have henter : s.enter name = s := by
      rw [hs.eq_of_none hopen, enter_idle]
    rw [henter, restrict_of_none hopen, enter_idle]
    exact ⟨rfl, hs⟩
  | some cell =>
    obtain ⟨held, hheld, hcolumn⟩ := enter_current hopen name
    refine ⟨?_, settled_of_some hheld (hs.inside_of_isSome (by simp [hopen]))⟩
    by_cases hsel : selects cell.column = true
    · rw [restrict_of_selected hopen hsel, restrict_of_selected hheld (by rw [hcolumn, hsel]),
        enter_withCells, enter_cells]
    · -- The full reading collects for a cell that the other one does not have.
      have hsel : selects cell.column = false := by simpa using hsel
      rw [restrict_of_unselected hopen hsel, restrict_of_unselected hheld (by rw [hcolumn, hsel]),
        enter_idle, enter_nextColumn, enter_cells]

/-- The end of an element other than a cell leaves an idle state as it is. -/
theorem leave_idle (column : Nat) (cells : List RawCell) (name : String) :
    CellScan.leave { nextColumn := column, cells } name = { nextColumn := column, cells } := by
  unfold leave
  split <;> rfl

/-- The end of an element other than a cell keeps the open cell, the next column and the cells. -/
theorem leave_of_ne (s : CellScan) {name : String} (h : name ≠ "c") :
    (s.leave name).current = s.current ∧ (s.leave name).nextColumn = s.nextColumn ∧
      (s.leave name).cells = s.cells ∧
      ∀ cells, CellScan.leave { s with cells } name = { s.leave name with cells } := by
  unfold leave
  split
  · exact ⟨rfl, rfl, rfl, fun _ => rfl⟩
  · exact ⟨rfl, rfl, rfl, fun _ => rfl⟩
  · exact ⟨rfl, rfl, rfl, fun _ => rfl⟩
  · exact ⟨rfl, rfl, rfl, fun _ => rfl⟩
  · exact absurd rfl h
  · exact ⟨rfl, rfl, rfl, fun _ => rfl⟩

/-- The end of a cell gives it, if it is selected, and leaves none open. -/
theorem leave_cell_restrict (s : CellScan) :
    (s.restrict selects).leave "c" = (s.leave "c").restrict selects := by
  cases hopen : s.current with
  | none =>
    rw [restrict_of_none hopen]
    simp [leave, restrict, hopen]
  | some cell =>
    by_cases hsel : selects cell.column = true
    · rw [restrict_of_selected hopen hsel]
      simp [leave, restrict, hopen, hsel]
    · have hsel : selects cell.column = false := by simpa using hsel
      rw [restrict_of_unselected hopen hsel]
      simp [leave, restrict, hopen, hsel]

/-- The end of an element. -/
theorem leave_restrict {inside : Bool} {s : CellScan} (hs : Settled inside s) (name : String) :
    (s.restrict selects).leave name = (s.leave name).restrict selects ∧
      Settled (inside && name != "c") (s.leave name) := by
  by_cases hname : name = "c"
  · subst hname
    exact ⟨leave_cell_restrict s, by simp [leave], fun _ => rfl, fun _ => rfl, fun _ => rfl⟩
  · have hin : (inside && name != "c") = inside := by simp [hname]
    obtain ⟨hcurrent, hcolumn, hcells, hwith⟩ := leave_of_ne s hname
    rw [hin]
    cases hopen : s.current with
    | none =>
      have hleave : s.leave name = s := by
        rw [hs.eq_of_none hopen, leave_idle]
      rw [hleave, restrict_of_none hopen, leave_idle]
      exact ⟨rfl, hs⟩
    | some cell =>
      have hheld : (s.leave name).current = some cell := by rw [hcurrent, hopen]
      refine ⟨?_, settled_of_some hheld (hs.inside_of_isSome (by simp [hopen]))⟩
      by_cases hsel : selects cell.column = true
      · rw [restrict_of_selected hopen hsel, restrict_of_selected hheld hsel, hwith, hcells]
      · have hsel : selects cell.column = false := by simpa using hsel
        rw [restrict_of_unselected hopen hsel, restrict_of_unselected hheld hsel, leave_idle, hcolumn,
          hcells]

/-- Text inside of a row. Where the full reading can read it, so can the selecting one, which looks
at less of it. -/
theorem addText_restrict {inside : Bool} {s after : CellScan} (hs : Settled inside s)
    {content : Except Markup.TextFault String} (h : s.addText content = .ok after) :
    (s.restrict selects).addText content = .ok (after.restrict selects) ∧ Settled inside after := by
  cases hopen : s.current with
  | none =>
    rw [addText, hopen] at h
    simp only [Except.ok.injEq] at h
    subst h
    refine ⟨?_, hs⟩
    rw [restrict_of_none hopen]
    rfl
  | some cell =>
    have hin := hs.inside_of_isSome (by simp [hopen])
    cases hcapture : s.capture with
    | none =>
      rw [addText, hopen, hcapture] at h
      simp only [Except.ok.injEq] at h
      subst h
      refine ⟨?_, hs⟩
      unfold restrict
      rw [hopen]
      by_cases hsel : selects cell.column = true
      · simp [addText, hsel, hcapture]
      · simp [addText, hsel]
    | some capture =>
      cases content with
      | error cause => simp [addText, hopen, hcapture] at h
      | ok text =>
        simp only [addText, hopen, hcapture, Except.ok.injEq] at h
        subst h
        refine ⟨?_, settled_of_some rfl hin⟩
        -- Text does not move a cell to another column, so it stays selected or not.
        by_cases hsel : selects cell.column = true
        · rw [restrict_of_selected hopen hsel,
            restrict_of_selected rfl (by rw [Capture.put_column, hsel])]
          simp [addText, hopen, hcapture]
        · have hsel : selects cell.column = false := by simpa using hsel
          rw [restrict_of_unselected hopen hsel,
            restrict_of_unselected rfl (by rw [Capture.put_column, hsel])]
          simp [addText]

/-- **One event.** What the full reading of a row makes of an event, the selecting one makes of it
in its restricted state; and the full reading stays settled. -/
theorem step_restrict (selects : Nat → Bool) {inside : Bool} {s after : CellScan}
    (hs : Settled inside s) {e : Markup.Event} (htag : e.isTag "c" = true → inside = false)
    (h : s.step (fun _ => true) e = .ok after) :
    (s.restrict selects).step selects e = .ok (after.restrict selects) ∧
      Settled (e.insideAfter "c" inside) after := by
  cases e with
  | start tag =>
    by_cases hname : tag.localName = "c"
    · have hin : inside = false := htag (by simp [Markup.Event.isTag, hname])
      subst hin
      simp only [step, hname, if_true] at h ⊢
      simpa [Markup.Event.insideAfter, hname] using open?_restrict selects hs h
    · simp only [step, hname, if_false, Except.ok.injEq] at h ⊢
      subst h
      have hinside : (inside || tag.localName == "c") = inside := by simp [hname]
      rw [Markup.Event.insideAfter, hinside]
      exact enter_restrict hs _
  | empty tag =>
    by_cases hname : tag.localName = "c"
    · simp only [step, hname, if_true] at h ⊢
      exact openEmpty?_restrict hs h
    · simp only [step, hname, if_false, Except.ok.injEq] at h ⊢
      subst h
      exact ⟨rfl, hs⟩
  | finish name =>
    simp only [step, Except.ok.injEq] at h ⊢
    subst h
    exact leave_restrict hs _
  | text content => exact addText_restrict hs h
  | literal content => exact addText_restrict hs h
  | aside =>
    simp only [step, Except.ok.injEq] at h ⊢
    subst h
    exact ⟨rfl, hs⟩

end CellScan

/-! ## A whole row -/

/-- **A row read in part.** If no cell stands inside another and the row can be read in full, a
reading that keeps some columns keeps the cells in them and stops at the same place. -/
theorem readCells_restrict (selects : Nat → Bool) {row : Nat} {fault? : Option Markup.Fault}
    {inside : Bool} {s : CellScan} {events rest : List Markup.Event} {cells : List RawCell}
    (hs : s.Settled inside) (hapart : Apart "c" inside events)
    (h : readCells (fun _ => true) row fault? s events = .ok (cells, rest)) :
    readCells selects row fault? (s.restrict selects) events =
      .ok (CellScan.chosen selects cells, rest) := by
  -- The induction carries the settled state and whether a cell is open from event to event.
  induction events generalizing s inside with
  | nil => simp [readCells] at h
  | cons e events ih =>
    rw [readCells] at h ⊢
    by_cases hend : endsRow e = true
    · simp only [hend, if_true, Except.ok.injEq, Prod.mk.injEq] at h ⊢
      exact ⟨by rw [CellScan.restrict_cells, h.1], h.2⟩
    · simp only [hend] at h ⊢
      cases hstep : s.step (fun _ => true) e with
      | error cause => simp [hstep] at h
      | ok after =>
        simp only [hstep] at h
        obtain ⟨hrestrict, hsettled⟩ := CellScan.step_restrict selects hs hapart.1 hstep
        rw [hrestrict]
        exact ih hsettled hapart.2 h

/-- What follows a row that was read stands behind the row's events. -/
theorem readCells_behind {row : Nat} {fault? : Option Markup.Fault} {s : CellScan}
    {events rest : List Markup.Event} {cells : List RawCell}
    (h : readCells selects row fault? s events = .ok (cells, rest)) :
    ∃ before, events = before ++ rest := by
  induction events generalizing s with
  | nil => simp [readCells] at h
  | cons e events ih =>
    rw [readCells] at h
    by_cases hend : endsRow e = true
    · simp only [hend, if_true, Except.ok.injEq, Prod.mk.injEq] at h
      exact ⟨[e], by rw [h.2]; rfl⟩
    · simp only [hend] at h
      cases hstep : s.step selects e with
      | error cause => simp [hstep] at h
      | ok after =>
        simp only [hstep] at h
        obtain ⟨before, hbefore⟩ := ih h
        exact ⟨e :: before, by rw [hbefore, List.cons_append]⟩

end Xlsx.Sheet
