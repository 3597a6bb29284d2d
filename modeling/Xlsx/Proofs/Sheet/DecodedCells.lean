import Xlsx.Proofs.Sheet.InsideSheet

/-! # How many cells are decoded

A cursor counts the cells that it decodes. What it should have counted can be read off the events of
the sheet without any cursor: the rows that stand in it with their numbers, and the columns of the
cells in the content of each row.

* **`Sheet.RowElement`**, **`Sheet.rowElements`**: the rows of a sheet as they stand in its events.
* **`Sheet.cellColumns`**: the columns of the cells in the content of a row.
* **`Sheet.readCells_count`**: a row that is read has as many cells as there are in the selected
  columns.
* **`Sheet.readRow_found`**: which of the rows is read next.
* **`Sheet.Reading.outcome_counted`**: which of them are given in all, and with how many cells.
* **`Cursor.counts_of_reading`**: what a cursor has counted when it has ended.
* **`Cursor.counts_exactly`**: at the start of a sheet, and below a header. -/

namespace Xlsx.Sheet

open Markup (Apart Event Tag)

/-! ## What stands in a sheet -/

/-- The end tag of a cell. -/
def endsCell : Event → Bool
  | .finish name => Markup.localPart name == "c"
  | _ => false

/-- A tag of a cell is an element if it is empty, or if an end tag of a cell follows. -/
def isElement : Event → List Event → Bool
  | .start _, rest => rest.any endsCell
  | .empty _, _ => true
  | _, _ => false

/-- **The columns of the cells** in the content of a row, repeated ones as often as they stand there. The
first cell is in column `next` if it does not state one. -/
def cellColumns (next : Nat) : List Event → List Nat
  | [] => []
  | e :: rest =>
    match cellTag? e with
    | none => cellColumns next rest
    | some tag =>
      match cellOfTag? next tag with
      | .error _ => cellColumns next rest
      | .ok cell =>
        if isElement e rest then cell.column :: cellColumns (Text.successor cell.column) rest
        else cellColumns (Text.successor cell.column) rest

/-- The events of a row that has content, up to its end tag. -/
def rowContent (events : List Event) : List Event := events.takeWhile fun e => !endsRow e

/-- **A row of a sheet**: its number, and the events in it. -/
structure RowElement where
  index : Nat
  content : List Event

/-- The columns of its cells. -/
def RowElement.columns (r : RowElement) : List Nat := cellColumns 0 r.content

/-- **The rows that stand in the events** of a sheet, behind the start tag of the rows and as far as
their numbers can be read. The next row has number `next` if it does not state one; `inside` says
whether the content of a row comes first, which is passed over. -/
def rowElements (next : Nat) (inside : Bool) : List Event → List RowElement
  | [] => []
  | e :: rest =>
    if inside then rowElements next (!endsRow e) rest
    else if endsRows e then []
    else
      match opensRow? e with
      | none => rowElements next false rest
      | some (tag, hasContent) =>
        match rowIndex? next tag.attributes with
        | .error _ => []
        | .ok index =>
          ⟨index, if hasContent then rowContent rest else []⟩ ::
            rowElements (Text.successor index) hasContent rest

/-- The events behind the start tag of the rows; none if the rows are an empty element. -/
def behindStart : List Event → List Event
  | [] => []
  | .start tag :: rest => if tag.localName = "sheetData" then rest else behindStart rest
  | .empty tag :: rest => if tag.localName = "sheetData" then [] else behindStart rest
  | _ :: rest => behindStart rest

/-- **All rows of a sheet**, from its events. -/
def allRows (events : List Event) : List RowElement := rowElements 0 false (behindStart events)

/-! ## The cells of a row -/

section Row

variable {selects : Nat → Bool} {row : Nat} {fault? : Option Markup.Fault}

/-- What opens and ends no cell leaves the open cell, the cells before and the next column as they are. -/
theorem CellScan.samePlace_step {s after : CellScan} {e : Event} (htag : cellTag? e = none)
    (hend : endsCell e = false) (h : s.step selects e = .ok after) : s.SamePlace after := by
  cases e with
  | start tag =>
    have hname : tag.localName ≠ "c" := by simpa [cellTag?] using htag
    simp only [CellScan.step, hname, if_false, Except.ok.injEq] at h
    exact h ▸ s.samePlace_enter _
  | empty tag =>
    have hname : tag.localName ≠ "c" := by simpa [cellTag?] using htag
    simp only [CellScan.step, hname, if_false, Except.ok.injEq] at h
    exact h ▸ s.samePlace_refl
  | finish name =>
    have hname : Markup.localPart name ≠ "c" := by simpa [endsCell] using hend
    simp only [CellScan.step, Except.ok.injEq] at h
    exact h ▸ s.samePlace_leave hname
  | text content => exact CellScan.samePlace_of_addText h
  | literal content => exact CellScan.samePlace_of_addText h
  | aside =>
    simp only [CellScan.step, Except.ok.injEq] at h
    exact h ▸ s.samePlace_refl

/-- The cell that is open is still to be counted if its end tag follows. -/
def CellScan.due (s : CellScan) (content : List Event) : Nat :=
  if s.current.isSome && content.any endsCell then 1 else 0

/-- While no cell is open none is to be counted. -/
theorem CellScan.due_of_none {s : CellScan} (h : s.current = none) (content : List Event) :
    s.due content = 0 := by
  rw [due, h]
  rfl

/-- What is counted: the cells that were read, the one that is open if it is complete, and one for each
that follows in a selected column. -/
def CellScan.count (selects : Nat → Bool) (s : CellScan) (content : List Event) : Nat :=
  s.cells.length + s.due content + (cellColumns s.nextColumn content).countP selects

/-- An event that is no cell counts for nothing. -/
theorem cellColumns_other {e : Event} (htag : cellTag? e = none) (next : Nat) (content : List Event) :
    cellColumns next (e :: content) = cellColumns next content := by
  rw [cellColumns, htag]

/-- A cell counts if it is complete, and moves the next column in any case. -/
theorem cellColumns_cell {e : Event} {tag : Tag} {next : Nat} {cell : RawCell} (htag : cellTag? e = some tag)
    (hcell : cellOfTag? next tag = .ok cell) (content : List Event) :
    cellColumns next (e :: content) =
      if isElement e content then cell.column :: cellColumns (Text.successor cell.column) content
      else cellColumns (Text.successor cell.column) content := by
  rw [cellColumns, htag]
  simp only [hcell]

/-- **One event** of a row leaves the count as it is: a cell that opens is counted as one that is open,
and then as one that was read. -/
theorem CellScan.count_step {inside : Bool} {s after : CellScan} {e : Event}
    (hopen : s.current.isSome = true → inside = true) (htag : e.isTag "c" = true → inside = false)
    (h : s.step selects e = .ok after) (content : List Event) :
    after.count selects content = s.count selects (e :: content) ∧
      (after.current.isSome = true → e.insideAfter "c" inside = true) := by
  -- Where a cell begins none is open.
  have hnone : e.isTag "c" = true → s.current = none := by
    intro hcell
    cases hcurrent : s.current with
    | none => rfl
    | some cell =>
      have hinside := hopen (by rw [hcurrent]; rfl)
      rw [htag hcell] at hinside
      exact nomatch hinside
  have hother : cellTag? e = none → endsCell e = false → e.insideAfter "c" inside = inside →
      after.count selects content = s.count selects (e :: content) ∧
        (after.current.isSome = true → e.insideAfter "c" inside = true) := by
    intro hcell hend hinside
    have hplace := CellScan.samePlace_step hcell hend h
    have hsome : after.current.isSome = s.current.isSome := by
      rw [← Option.isSome_map (f := RawCell.column), hplace.column, Option.isSome_map]
    refine ⟨?_, fun hafter => by rw [hinside]; exact hopen (hsome ▸ hafter)⟩
    rw [count, count, due, due, hplace.cells, hplace.nextColumn, hsome, cellColumns_other hcell,
      List.any_cons, hend, Bool.false_or]
  cases e with
  | start tag =>
    by_cases hname : tag.localName = "c"
    · have hcurrent := hnone (by simp [Event.isTag, hname])
      simp only [step, hname, if_true] at h
      obtain ⟨cell, hcell, rfl⟩ := map_eq_ok.mp h
      refine ⟨?_, fun _ => by simp [Event.insideAfter, hname]⟩
      rw [count, count, due_of_none hcurrent, cellColumns_cell (by simp [cellTag?, hname]) hcell, due,
        isElement]
      -- It is counted if it is selected and complete.
      cases content.any endsCell <;> cases hsel : selects cell.column <;> simp [hsel]
      omega
    · exact hother (by simp [cellTag?, hname]) rfl (by simp [Event.insideAfter, hname])
  | empty tag =>
    by_cases hname : tag.localName = "c"
    · have hcurrent := hnone (by simp [Event.isTag, hname])
      simp only [step, hname, if_true] at h
      obtain ⟨cell, hcell, rfl⟩ := map_eq_ok.mp h
      refine ⟨?_, fun hafter => by simp [hcurrent] at hafter⟩
      rw [count, count, cellColumns_cell (by simp [cellTag?, hname]) hcell, isElement]
      cases hsel : selects cell.column <;> simp [due, hcurrent, hsel]
      omega
    · exact hother (by simp [cellTag?, hname]) rfl rfl
  | finish name =>
    by_cases hname : Markup.localPart name = "c"
    · simp only [step, hname, Except.ok.injEq] at h
      subst h
      refine ⟨?_, fun hafter => by simp [leave] at hafter⟩
      rw [count, count, due_of_none rfl, due, cellColumns_other rfl]
      cases hcurrent : s.current <;> simp [leave, endsCell, hname, hcurrent]
    · exact hother rfl (by simp [endsCell, hname]) (by simp [Event.insideAfter, hname])
  | text content => exact hother rfl rfl rfl
  | literal content => exact hother rfl rfl rfl
  | aside => exact hother rfl rfl rfl

/-- **A row that is read** has the cells that are counted from its start on. -/
theorem readCells_count {inside : Bool} {s : CellScan} {events rest : List Event} {cells : List RawCell}
    (hopen : s.current.isSome = true → inside = true) (hapart : Apart "c" inside events)
    (h : readCells selects row fault? s events = .ok (cells, rest)) :
    cells.length = s.count selects (rowContent events) := by
  -- From one event to the next the count stays the same, and in the end only cells are left of it.
  induction events generalizing s inside with
  | nil => simp [readCells] at h
  | cons e events ih =>
    rw [readCells] at h
    by_cases hend : endsRow e = true
    · rw [if_pos hend] at h
      obtain ⟨rfl, -⟩ := Prod.mk.inj (Except.ok.inj h)
      have hnone : rowContent (e :: events) = [] := List.takeWhile_cons_of_neg (by simp [hend])
      simp [hnone, CellScan.count, cellColumns, CellScan.due]
    · have hcontent : rowContent (e :: events) = e :: rowContent events :=
        List.takeWhile_cons_of_pos (by simpa using hend)
      rw [if_neg hend] at h
      cases hstep : s.step selects e with
      | error cause => simp [hstep] at h
      | ok after =>
        simp only [hstep] at h
        obtain ⟨hcount, hafter⟩ := CellScan.count_step hopen hapart.1 hstep (rowContent events)
        rw [hcontent, ← hcount]
        exact ih hafter hapart.2 h

/-! ## The rows -/

section Equations

variable {next : Nat} {e : Event} {rest : List Event}

/-- Where the rows end no row follows. -/
theorem rowElements_end (hend : endsRows e = true) : rowElements next false (e :: rest) = [] := by
  rw [rowElements, if_neg Bool.false_ne_true, if_pos hend]

/-- An event that opens no row is passed over. -/
theorem rowElements_other (hend : ¬ endsRows e = true) (hopen : opensRow? e = none) :
    rowElements next false (e :: rest) = rowElements next false rest := by
  rw [rowElements, if_neg Bool.false_ne_true, if_neg hend, hopen]

/-- A row is counted with its content, and what follows behind it. -/
theorem rowElements_row {tag : Tag} {hasContent : Bool} {index : Nat} (hend : ¬ endsRows e = true)
    (hopen : opensRow? e = some (tag, hasContent)) (hindex : rowIndex? next tag.attributes = .ok index) :
    rowElements next false (e :: rest) =
      ⟨index, if hasContent then rowContent rest else []⟩ ::
        rowElements (Text.successor index) hasContent rest := by
  rw [rowElements, if_neg Bool.false_ne_true, if_neg hend, hopen]
  simp only [hindex]

end Equations

/-- The content of a row that is read is passed over. -/
theorem rowElements_behind {s : CellScan} {events rest : List Event} {cells : List RawCell}
    (h : readCells selects row fault? s events = .ok (cells, rest)) (next : Nat) :
    rowElements next true events = rowElements next false rest := by
  induction events generalizing s with
  | nil => simp [readCells] at h
  | cons e events ih =>
    rw [readCells] at h
    by_cases hend : endsRow e = true
    · rw [if_pos hend] at h
      rw [rowElements, if_pos rfl, hend, ← (Prod.mk.inj (Except.ok.inj h)).2]
      rfl
    · rw [if_neg hend] at h
      cases hstep : s.step selects e with
      | error cause => simp [hstep] at h
      | ok after =>
        simp only [hstep] at h
        rw [rowElements, if_pos rfl, Bool.eq_false_iff.mpr hend]
        exact ih h

/-- **The content of a row** that is read: its cells, and the rows behind it. -/
theorem contentOf_count {index : Nat} {hasContent : Bool} {events rest : List Event} {cells : List RawCell}
    (hapart : Apart "c" false events)
    (h : contentOf selects index fault? hasContent events = .ok (cells, rest)) :
    cells.length = (cellColumns 0 (if hasContent then rowContent events else [])).countP selects ∧
      rowElements (Text.successor index) hasContent events = rowElements (Text.successor index) false rest ∧
      Apart "c" false rest := by
  obtain ⟨before, hbefore⟩ := contentOf_behind h
  have hrest : Apart "c" false rest := (hbefore ▸ hapart).behind
  cases hasContent with
  | false =>
    simp only [contentOf, Bool.false_eq_true, if_false, Except.ok.injEq, Prod.mk.injEq] at h
    obtain ⟨rfl, rfl⟩ := h
    exact ⟨rfl, rfl, hrest⟩
  | true =>
    have hclosed : ({} : CellScan).current.isSome = true → false = true := fun hopen => hopen
    have hcount := readCells_count hclosed hapart h
    refine ⟨?_, rowElements_behind h (Text.successor index), hrest⟩
    rw [hcount]
    simp [CellScan.count, CellScan.due]

/-- **What the reading of a row says of the rows of a sheet**: it passes over those before the wanted ones,
and gives the next one, or has found that none of them is left. -/
def Found (selects : Nat → Bool) (first last : Nat) (elements : List RowElement) :
    Except StreamError (Option (RawRow × List Event)) → Prop
  | .error _ => True
  | .ok none => ∀ e ∈ elements.takeWhile (fun e => decide (e.index ≤ last)), e.index < first
  | .ok (some (raw, rest)) =>
    ∃ passed e, elements = passed ++ e :: rowElements (Text.successor raw.index) false rest ∧
      (∀ p ∈ passed, p.index < first ∧ p.index ≤ last) ∧ e.index = raw.index ∧ first ≤ raw.index ∧
      raw.index ≤ last ∧ raw.cells.length = e.columns.countP selects ∧ Apart "c" false rest

/-- A row that is passed over does not change what is found behind it. -/
theorem Found.passed {first last : Nat} {elements : List RowElement} {e : RowElement}
    {answer : Except StreamError (Option (RawRow × List Event))} (hfirst : e.index < first)
    (hlast : e.index ≤ last) (h : Found selects first last elements answer) :
    Found selects first last (e :: elements) answer := by
  match answer with
  | .error _ => trivial
  | .ok none =>
    have hall : ∀ other ∈ elements.takeWhile (fun e => decide (e.index ≤ last)), other.index < first := h
    show ∀ other ∈ (e :: elements).takeWhile (fun e => decide (e.index ≤ last)), other.index < first
    rw [List.takeWhile_cons_of_pos (by simpa using hlast)]
    exact List.forall_mem_cons.mpr ⟨hfirst, hall⟩
  | .ok (some (raw, rest)) =>
    obtain ⟨passed, given, rfl, hpassed, hgiven⟩ := h
    exact ⟨e :: passed, given, rfl, List.forall_mem_cons.mpr ⟨⟨hfirst, hlast⟩, hpassed⟩, hgiven⟩

/-- **Which row is read next**, and how many cells it has. -/
theorem readRow_found {first last next : Nat} {events : List Event} (hapart : Apart "c" false events) :
    Found selects first last (rowElements next false events) (readRow selects first last fault? next events) := by
  -- What stands next is passed over, ends the rows, or is a row: one behind the wanted ones, before them
  -- (where the reading goes on), or the one that is given.
  fun_induction readRow selects first last fault? next events with
  | case1 next => trivial
  | case2 next e rest hend =>
    rw [rowElements_end hend]
    exact fun e he => absurd he List.not_mem_nil
  | case3 next e rest hend hopen ih =>
    rw [rowElements_other hend hopen]
    exact ih hapart.2.outside
  | case4 next e rest hend tag hasContent hopen cause hindex => trivial
  | case5 next e rest hend tag hasContent hopen index hindex hlast =>
    rw [rowElements_row hend hopen hindex]
    intro e he
    rw [List.takeWhile_cons_of_neg (by simpa using hlast)] at he
    exact absurd he List.not_mem_nil
  | case6 next e rest hend tag hasContent hopen index hindex hlast isSkipped cause hcontent => trivial
  | case7 next e rest hend tag hasContent hopen index hindex hlast isSkipped cells after hcontent
      hlength hskip ih =>
    obtain ⟨-, hbehind, hafter⟩ := contentOf_count hapart.2.outside hcontent
    rw [rowElements_row hend hopen hindex, hbehind]
    exact (ih hafter).passed (of_decide_eq_true hskip) (Nat.not_lt.mp hlast)
  | case8 next e rest hend tag hasContent hopen index hindex hlast isSkipped cells after hcontent
      hlength hskip =>
    obtain ⟨hcount, hbehind, hafter⟩ := contentOf_count hapart.2.outside hcontent
    have hfirst : ¬ index < first := fun h => hskip (decide_eq_true h)
    rw [rowElements_row hend hopen hindex, hbehind]
    refine ⟨[], _, rfl, fun p hp => absurd hp List.not_mem_nil, rfl, Nat.not_lt.mp hfirst,
      Nat.not_lt.mp hlast, ?_, hafter⟩
    -- A row that is given has been read in all selected columns.
    have hselects : (fun c => !isSkipped && selects c) = selects := by
      funext column
      simp [isSkipped, hfirst]
    rw [hselects] at hcount
    exact hcount

end Row

/-! ## A reading -/

/-- The rows that a reading has before it. -/
def Reading.elements : Reading → List RowElement
  | streaming next rest => rowElements next false rest.events
  | finished => []
  | failed => []

section Reading

variable {selects : Nat → Bool} {first last : Nat} {r after : Reading}

/-- A reading that gives no row has none before it that is wanted, and then none at all. -/
theorem Reading.found_none (hapart : r.CellsApart) (h : r.next selects first last = (.ok none, after)) :
    (∀ e ∈ r.elements.takeWhile (fun e => decide (e.index ≤ last)), e.index < first) ∧ after.elements = [] := by
  refine ⟨?_, ?_⟩
  · cases r with
    | finished => exact fun e he => absurd he List.not_mem_nil
    | failed => exact fun e he => absurd he List.not_mem_nil
    | streaming next rest =>
      have hfound : Found selects first last (rowElements next false rest.events)
          (readRow selects first last rest.fault? next rest.events) := readRow_found hapart
      simp only [Reading.next] at h
      split at h
      · simp at h
      · rename_i hread
        rw [hread] at hfound
        exact hfound
      · simp at h
  · rcases Reading.stopped_of_none h with rfl | rfl <;> rfl

/-- **A reading that gives a row** has passed over those before the wanted ones. -/
theorem Reading.found_row {raw : RawRow} (hapart : r.CellsApart)
    (h : r.next selects first last = (.ok (some raw), after)) :
    ∃ passed e, r.elements = passed ++ e :: after.elements ∧
      (∀ p ∈ passed, p.index < first ∧ p.index ≤ last) ∧ e.index = raw.index ∧ first ≤ raw.index ∧
      raw.index ≤ last ∧ raw.cells.length = e.columns.countP selects ∧ after.CellsApart := by
  obtain ⟨next, rest, events, rfl, rfl, hread⟩ := Reading.streaming_of_row h
  have hfound : Found selects first last (rowElements next false rest.events)
      (readRow selects first last rest.fault? next rest.events) := readRow_found hapart
  rw [hread] at hfound
  exact hfound

/-- **All rows of a reading**, as they stand in the sheet: those of `read` were read without an error,
and the wanted ones of them were given, with as many cells as they have in the selected columns. -/
structure Outcome.Counted (selects : Nat → Bool) (first last : Nat) (elements read : List RowElement)
    (o : Outcome) : Prop where
  begins : read <+: elements
  within : ∀ e ∈ read, e.index ≤ last
  rows : List.Forall₂ (fun (raw : RawRow) (e : RowElement) => raw.index = e.index ∧
    raw.cells.length = e.columns.countP selects) o.rows (read.filter fun e => decide (first ≤ e.index))
  whole : o.ending.error? = none → read = elements.takeWhile fun e => decide (e.index ≤ last)

/-- The rows that are given are numbered as they are in the sheet. -/
theorem Outcome.Counted.indices {elements read : List RowElement} {o : Outcome}
    (h : o.Counted selects first last elements read) :
    o.rows.map RawRow.index = (read.filter fun e => decide (first ≤ e.index)).map RowElement.index := by
  have hrows := h.rows
  generalize o.rows = raws at hrows ⊢
  generalize (read.filter fun e => decide (first ≤ e.index)) = given at hrows ⊢
  induction hrows with
  | nil => rfl
  | cons hrow _ ih => rw [List.map_cons, List.map_cons, ih, hrow.1]

/-- All their cells are those in the selected columns. -/
theorem Outcome.Counted.total {elements read : List RowElement} {o : Outcome}
    (h : o.Counted selects first last elements read) :
    (o.rows.flatMap fun row => row.cells).length =
      ((read.filter fun e => decide (first ≤ e.index)).flatMap RowElement.columns).countP selects := by
  have hrows := h.rows
  generalize o.rows = raws at hrows ⊢
  generalize (read.filter fun e => decide (first ≤ e.index)) = given at hrows ⊢
  induction hrows with
  | nil => rfl
  | cons hrow _ ih => rw [List.flatMap_cons, List.flatMap_cons, List.length_append, List.countP_append, hrow.2, ih]

/-- One more row in front, behind those that are passed over. -/
theorem Outcome.Counted.cons {o : Outcome} {raw : RawRow} {passed elements read : List RowElement}
    {e : RowElement} (h : o.Counted selects first last elements read)
    (hpassed : ∀ p ∈ passed, p.index < first ∧ p.index ≤ last) (hindex : e.index = raw.index)
    (hfirst : first ≤ raw.index) (hlast : raw.index ≤ last)
    (hcells : raw.cells.length = e.columns.countP selects) :
    (o.cons raw).Counted selects first last (passed ++ e :: elements) (passed ++ e :: read) where
  begins := (List.prefix_append_right_inj passed).mpr (List.cons_prefix_cons.mpr ⟨rfl, h.begins⟩)
  within := by
    intro p hp
    rcases List.mem_append.mp hp with hp | hp
    · exact (hpassed p hp).2
    · rcases List.mem_cons.mp hp with rfl | hp
      · exact hindex ▸ hlast
      · exact h.within p hp
  rows := by
    have hnone : passed.filter (fun e => decide (first ≤ e.index)) = [] := by
      rw [List.filter_eq_nil_iff]
      intro p hp
      simpa using (hpassed p hp).1
    rw [List.filter_append, hnone, List.nil_append, List.filter_cons_of_pos (by simpa [hindex] using hfirst)]
    exact .cons ⟨hindex.symm, hcells⟩ h.rows
  whole := by
    intro hok
    rw [List.takeWhile_append_of_pos fun p hp => by simpa using (hpassed p hp).2,
      List.takeWhile_cons_of_pos (by simpa [hindex] using hlast), h.whole hok]

/-- **What a reading gives** are rows of the sheet, each with its cells in the selected columns. -/
theorem Reading.outcome_counted (hapart : r.CellsApart) :
    ∃ read, (r.outcome selects first last).Counted selects first last r.elements read := by
  -- The induction is on what the reading has before it.
  induction hsize : r.size using Nat.strongRecOn generalizing r with
  | ind n ih =>
    match hnext : r.next selects first last with
    | (.error cause, after) =>
      rw [(Reading.outcome_of_error hnext).1]
      exact ⟨[], List.nil_prefix, fun e he => absurd he List.not_mem_nil, .nil, fun h => nomatch h⟩
    | (.ok none, after) =>
      obtain ⟨hrows, -⟩ := Reading.outcome_of_none hnext
      obtain ⟨hpassed, -⟩ := Reading.found_none hapart hnext
      refine ⟨r.elements.takeWhile fun e => decide (e.index ≤ last), List.takeWhile_prefix _, ?_, ?_,
        fun _ => rfl⟩
      · intro e he
        simpa using List.mem_takeWhile_imp he
      · have hnone : (r.elements.takeWhile fun e => decide (e.index ≤ last)).filter
            (fun e => decide (first ≤ e.index)) = [] := by
          rw [List.filter_eq_nil_iff]
          intro e he
          simpa using hpassed e he
        rw [hrows, hnone]
        exact .nil
    | (.ok (some raw), after) =>
      obtain ⟨passed, e, helements, hpassed, hindex, hfirst, hlast, hcells, hafter⟩ :=
        Reading.found_row hapart hnext
      obtain ⟨read, hread⟩ := ih after.size (hsize ▸ Reading.size_next_lt hnext) hafter rfl
      rw [Reading.outcome_of_row hnext, helements]
      exact ⟨passed ++ e :: read, hread.cons hpassed hindex hfirst hlast hcells⟩

end Reading

/-- What stands before the rows has no part in them. -/
theorem allRows_cons {e : Event} (h : ∀ rest, behindStart (e :: rest) = behindStart rest) (rest : List Event) :
    allRows (e :: rest) = allRows rest := by
  rw [allRows, h, allRows]

/-- **The rows that are reached** at the start of a sheet are all its rows. -/
theorem Reading.elements_of_open {s : Markup.Stream} {reading : Reading} {dimension : Option Range}
    (h : Reading.ofStream? s = .ok (reading, dimension)) : reading.elements = allRows s.events := by
  have hopen : ∀ (events : List Event) (depth : Nat) (sawRoot : Bool) (declared : Option Range),
      openRows s.fault? depth sawRoot declared events = .ok (reading, dimension) →
      reading.elements = allRows events := by
    intro events
    induction events with
    | nil =>
      intro depth sawRoot declared h
      rw [openRows] at h
      split at h
      · rw [← (Prod.mk.inj (Except.ok.inj h)).1]
        rfl
      · simp at h
    | cons e events ih =>
      intro depth sawRoot declared h
      cases e with
      | start tag =>
        by_cases hname : tag.localName = "sheetData"
        · rw [openRows_reached hname] at h
          rw [← (Prod.mk.inj (Except.ok.inj h)).1, allRows, behindStart, if_pos hname]
          rfl
        · rw [openRows_start hname] at h
          rw [allRows_cons fun rest => by rw [behindStart, if_neg hname]]
          exact ih _ _ _ h
      | empty tag =>
        simp only [openRows] at h
        split at h
        · rename_i hname
          rw [← (Prod.mk.inj (Except.ok.inj h)).1, allRows, behindStart, if_pos hname]
          rfl
        · rename_i hname
          rw [allRows_cons fun rest => by rw [behindStart, if_neg (by rw [hname]; decide)]]
          exact ih _ _ _ h
        · rename_i hname _
          rw [allRows_cons fun rest => by rw [behindStart, if_neg hname]]
          exact ih _ _ _ h
      | finish name => exact ih _ _ _ h
      | text content => exact ih _ _ _ h
      | literal content => exact ih _ _ _ h
      | aside => exact ih _ _ _ h
  exact hopen s.events 0 false none h

end Xlsx.Sheet

namespace Xlsx

open Sheet (RowElement allRows)

namespace Cursor

/-! ## What a cursor has counted -/

/-- **The rows of a run and the cells that were decoded**, of a cursor that had decoded `before` and has
the rows `elements` before it: those of `read` are read, and the wanted ones of them are the rows `rows`
that the run gives, with the missing ones between them if the cursor is dense. -/
structure Counts (c : Cursor) (elements : List RowElement) (before : Nat) (read : List RowElement)
    (rows : List Row) : Prop where
  begins : read <+: elements
  within : ∀ e ∈ read, e.index ≤ c.lastRow
  given : c.run.rows = c.shown rows
  indices : rows.map Row.index = (read.filter fun e => decide (c.firstRow ≤ e.index)).map RowElement.index
  /-- Without an error all rows are read up to the first one behind the wanted ones. -/
  whole : c.run.error? = none → read = elements.takeWhile fun e => decide (e.index ≤ c.lastRow)
  /-- A cell is counted if it stands in a row that is given and in a column that is read. -/
  decodedCells : c.run.final.decodedCells =
    before + ((read.filter fun e => decide (c.firstRow ≤ e.index)).flatMap RowElement.columns).countP c.selects

/-- **What a cursor counts** is decided by the rows that its reading has before it. -/
theorem counts_of_reading {c : Cursor} (hpending : c.pending = none) (hapart : c.reading.CellsApart) :
    ∃ read rows, c.Counts c.reading.elements c.decodedCells read rows := by
  have hrun := run_spec hpending
  obtain ⟨read, hread⟩ : ∃ read, c.outcome.Counted c.selects c.firstRow c.lastRow c.reading.elements read :=
    Sheet.Reading.outcome_counted hapart
  refine ⟨read, c.outcome.rows.map c.decodeRow, ?_⟩
  constructor
  case begins => exact hread.begins
  case within => exact hread.within
  case given => exact hrun.rows
  case indices =>
    rw [List.map_map, ← hread.indices]
    exact List.map_congr_left fun raw _ => decodeRow_index c raw
  case whole =>
    intro hok
    exact hread.whole (hrun.error? ▸ hok)
  case decodedCells =>
    rw [decodedCells_run, cellCount, ← hread.total]

/-- Without other columns those of the range are read. -/
theorem selects_of_range {c : Cursor} {range : Option Range} (h : c.projection = projectionOf none range) :
    c.selects = fun column => range.all (·.hasColumn column) := by
  funext column
  cases range with
  | none =>
    have hall : c.projection = none := h
    rw [selects, hall]
    rfl
  | some range =>
    have hcolumns : c.projection = some range.columns := h
    rw [selects, hcolumns, Bool.eq_iff_iff]
    simp [mem_columns_iff, Range.hasColumn]

/-- **The header and the rows below it**, of a sheet with rows `all`: the first one that does not lie before
the header row is the header, and its cells in the columns of the range are decoded; or there is none. -/
inductive BelowHeader (o : ReadOptions) (headerRow last : Nat) (all : List RowElement) :
    Option Header → List RowElement → Nat → Prop
  | found {passed behind : List RowElement} {header : RowElement} {fields : List (Nat × String)}
      (hall : all = passed ++ header :: behind) (hpassed : ∀ e ∈ passed, e.index < headerRow)
      (hindex : headerRow ≤ header.index) :
      BelowHeader o headerRow last all (some ⟨header.index, fields⟩) behind
        (header.columns.countP fun column => o.range.all (·.hasColumn column))
  | missing (hpassed : ∀ e ∈ all.takeWhile (fun e => decide (e.index ≤ last)), e.index < headerRow) :
      BelowHeader o headerRow last all (some { row := headerRow }) [] 0

/-- A cursor that reads on behind its first row, with other columns, counts on from the cells of this row. -/
theorem counts_readingOn {o : ReadOptions} {header : Header} {columns : Option (List Nat)} {start : Cursor}
    {later : Sheet.Reading} {cells : Nat} (hpending : start.pending = none) (hnothing : start.decodedCells = 0)
    (hapart : later.CellsApart) :
    ∃ read rows, (Rows.readingOn o header columns (start.advanced later cells)).Counts later.elements cells
      read rows := by
  obtain ⟨read, rows, hcounts⟩ := counts_of_reading
    (c := Rows.readingOn o header columns (start.advanced later cells)) (Rows.readingOn_pending hpending) hapart
  have hdecoded : (Rows.readingOn o header columns (start.advanced later cells)).decodedCells = cells := by
    show start.decodedCells + cells = cells
    rw [hnothing, Nat.zero_add]
  rw [hdecoded] at hcounts
  exact ⟨read, rows, hcounts⟩

/-- **Below a header** a cursor counts on behind the cells of the header. -/
theorem counts_openBelow {w : Workbook} {o : ReadOptions} {sheet : Sheet} {s : Markup.Stream} {headerRow : Nat}
    {below : Rows} (hsheet : w.resolve o.sheet = .ok sheet) (hscan : w.container.scan sheet.entry = .ok s)
    (hapart : Markup.Apart "c" false s.events) (h : Rows.openBelow w o headerRow = .ok below) :
    ∃ behind decoded read rows, below.cursor.Counts behind decoded read rows ∧
      BelowHeader o headerRow below.cursor.lastRow (allRows s.events) below.header behind decoded := by
  obtain ⟨sheet', s', reading, dimension, start, hsheet', hscan', hreading, hstart, found, later, columns,
    header, hread, hheader, -, rfl⟩ := Rows.eq_of_openBelow_decoded h
  obtain rfl := Except.ok.inj (hsheet.symm.trans hsheet')
  obtain rfl := Except.ok.inj (hscan.symm.trans hscan')
  have helements : start.reading.elements = allRows s.events := by
    rw [hstart]
    exact Sheet.Reading.elements_of_open hreading
  have hopened : start.reading.CellsApart := by
    rw [hstart]
    exact Sheet.Reading.cellsApart_of_open hreading hapart
  have hpending : start.pending = none := by rw [hstart]; rfl
  have hfirst : start.firstRow = headerRow := by rw [hstart]; rfl
  have hnothing : start.decodedCells = 0 := by rw [hstart]; rfl
  have hselects : start.selects = fun column => o.range.all (·.hasColumn column) :=
    selects_of_range (by rw [hstart]; rfl)
  have hbelow : later.CellsApart → ∃ read rows,
      (Rows.readingOn o header columns (start.advanced later (found.elim 0 (·.cells.length)))).Counts
        later.elements (found.elim 0 (·.cells.length)) read rows :=
    counts_readingOn hpending hnothing
  cases found with
  | none =>
    obtain ⟨hpassed, hlater⟩ := Sheet.Reading.found_none hopened hread
    obtain ⟨read, rows, hcounts⟩ := hbelow (by
      rcases Sheet.Reading.stopped_of_none hread with rfl | rfl <;> trivial)
    rw [helements, hfirst] at hpassed
    rw [hlater] at hcounts
    refine ⟨[], 0, read, rows, hcounts, ?_⟩
    rw [hheader]
    exact .missing hpassed
  | some raw =>
    obtain ⟨passed, e, hall, hpassed, hindex, hwanted, -, hcells, hafter⟩ :=
      Sheet.Reading.found_row hopened hread
    obtain ⟨read, rows, hcounts⟩ := hbelow hafter
    rw [helements] at hall
    rw [hfirst] at hpassed hwanted
    rw [hselects] at hcells
    refine ⟨later.elements, raw.cells.length, read, rows, hcounts, ?_⟩
    have hrow : header = ⟨e.index, header.fields⟩ := by
      rw [hheader, hindex]
      show Header.ofRow (start.decodeRow raw) = _
      rw [Header.ofRow, decodeRow_index]
      rfl
    rw [hrow, hcells]
    exact .found hall (fun p hp => (hpassed p hp).1) (hindex ▸ hwanted)

/-- **The cells that are decoded are those that are selected.** Let no cell of a sheet stand inside
another. A cursor with any options has counted, when it has ended in whatever way, the cells of the rows
that it gave in the columns that it reads, and no others; below a header those of the header in the
columns of the range come to them. -/
theorem counts_exactly {s : Markup.Stream} (hapart : Markup.Apart "c" false s.events) :
    (∀ {sheet : Sheet} {decoder : Decoder} {o : CursorOptions} {c : Cursor},
      ofStream? sheet decoder o s = .ok c → ∃ read rows, c.Counts (allRows s.events) 0 read rows) ∧
    ∀ {w : Workbook} {r : SheetReader} {sheet : Sheet} {headerRow : Nat} {below : Rows},
      w.resolve r.options.sheet = .ok sheet → w.container.scan sheet.entry = .ok s →
      r.options.headerRow = some headerRow → r.rows w = .ok below →
      ∃ behind decoded read rows, below.cursor.Counts behind decoded read rows ∧
        BelowHeader r.options headerRow below.cursor.lastRow (allRows s.events) below.header behind decoded := by
  constructor
  · intro sheet decoder o c hopen
    obtain ⟨reading, dimension, hreading, rfl⟩ := ofStream?_eq_ok hopen
    rw [← Sheet.Reading.elements_of_open hreading]
    exact counts_of_reading rfl (Sheet.Reading.cellsApart_of_open hreading hapart)
  · intro w r sheet headerRow below hsheet hscan hheader hrows
    rw [SheetReader.rows, hheader] at hrows
    exact counts_openBelow hsheet hscan hapart hrows

end Cursor

/-- A sheet that breaks off in its third row. In column B the first row has two cells, and the others have
one each. -/
def Sheet.sampleRepeated : Markup.Stream where
  events := [.start ⟨"sheetData", []⟩, .start ⟨"row", []⟩, .empty ⟨"c", []⟩,
    .start ⟨"c", []⟩, .start ⟨"v", []⟩, .text (.ok "7"), .finish "v", .finish "c",
    .empty ⟨"c", [.ok ⟨"r", Text.octets "B1"⟩]⟩, .finish "row",
    .start ⟨"row", [.ok ⟨"r", Text.octets "3"⟩]⟩, .empty ⟨"c", [.ok ⟨"r", Text.octets "B3"⟩]⟩, .finish "row",
    .start ⟨"row", []⟩, .empty ⟨"c", [.ok ⟨"r", Text.octets "B4"⟩]⟩]

/-- The cells of column B are counted in the rows that are given, and both cells of a header row. -/
theorem Cursor.counts_exactly_repeated : ∃ c below read rows,
    ofStream? default default { columns := some [1], dense := true } Sheet.sampleRepeated = .ok c ∧
      c.Counts (allRows Sheet.sampleRepeated.events) 0 read rows ∧
      c.run.rows.map Row.index = [0, 1, 2] ∧ c.run.error?.isSome = true ∧ c.run.final.decodedCells = 3 ∧
      SheetReader.sample.rows Workbook.sample = .ok below ∧ below.cursor.run.final.decodedCells = 2 ∧
      ∃ behind decoded read rows, below.cursor.Counts behind decoded read rows := by
  obtain ⟨c, hc⟩ : ∃ c, c = Cursor.opened default default { columns := some [1], dense := true }
    (.streaming 0 ⟨Sheet.sampleRepeated.events.tail, none⟩) none := ⟨_, rfl⟩
  have hopen : ofStream? default default { columns := some [1], dense := true } Sheet.sampleRepeated = .ok c := by
    rw [hc]
    rfl
  have hapart : Markup.Apart "c" false Sheet.sampleRepeated.events := by decide +kernel
  obtain ⟨read, rows, hcounts⟩ := (Cursor.counts_exactly hapart).1 hopen
  have hrows : c.run.rows.map Row.index = [0, 1, 2] := by
    rw [hc, (run_spec rfl).rows]
    decide +kernel
  have herror : c.run.error?.isSome = true := by
    rw [hc, (run_spec rfl).error?]
    decide +kernel
  have hdecoded : c.run.final.decodedCells = 3 := by
    rw [hc, decodedCells_run]
    decide +kernel
  have hscan : Workbook.sample.container.scan "s" = .ok Workbook.sampleStream := by
    with_unfolding_all rfl
  have hheader : (SheetReader.sample.rows Workbook.sample).toOption.map (fun below =>
      below.cursor.decodedCells + below.cursor.cellCount) = some 2 := by decide +kernel
  obtain ⟨below, hbelow⟩ : ∃ below, SheetReader.sample.rows Workbook.sample = .ok below := by
    cases hrows : SheetReader.sample.rows Workbook.sample with
    | error cause => simp [hrows, Except.toOption] at hheader
    | ok below => exact ⟨below, rfl⟩
  obtain ⟨behind, decoded, read', rows', hcounts', -⟩ :=
    (Cursor.counts_exactly (s := Workbook.sampleStream) (by decide +kernel)).2 rfl hscan rfl hbelow
  refine ⟨c, below, read, rows, hopen, hcounts, hrows, herror, hdecoded, hbelow, ?_, behind, decoded, read',
    rows', hcounts'⟩
  rw [hbelow] at hheader
  rw [decodedCells_run]
  exact Option.some.inj hheader

end Xlsx
