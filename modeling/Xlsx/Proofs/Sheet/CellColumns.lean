import Xlsx.Proofs.Reference.OctetReading
import Xlsx.Proofs.Sheet.ImpliedPlace

/-! # The columns of the cells of a sheet

A reference names a column of a sheet, but a cell that states none stands in the column behind the
last cell, wherever that is. If no such cell follows one in the last column, every cell that is read
stands in a column of the sheet.

* **`Sheet.PlacesInside`**: no cell without a reference stands behind the last column.
* **`Sheet.cellOfTag?_column_lt`**: the column of a cell, from its tag.
* **`Sheet.CellScan.Inside.step`**, **`Sheet.readCells_inside`**: the cells of a row.
* **`Sheet.readRow_inside`**: a row, and what is behind it.
* **`Sheet.Reading.Inside.next`**: a reading as it goes on. -/

namespace Xlsx.Sheet

open Markup (Attribute AttributeFault Event Tag)

/-! ## The column of a cell -/

/-- A tag states an attribute. -/
def statesKey (key : String) (tag : Tag) : Bool :=
  tag.attributes.any fun
    | .ok a => a.key == key
    | .error _ => false

/-- A reference among the attributes names a column of the sheet, and without one a cell stays in the
column that it has. -/
theorem foldlM_addReference_lt {attributes : List (Except AttributeFault Attribute)} {start column : Nat}
    (hstart : statesKey "r" ⟨"c", attributes⟩ = true ∨ start < maxColumns)
    (h : attributes.foldlM addReference start = .ok column) : column < maxColumns := by
  induction attributes generalizing start with
  | nil =>
    rw [← Except.ok.inj h]
    rcases hstart with hstates | hlt
    · simp [statesKey] at hstates
    · exact hlt
  | cons a attributes ih =>
    rw [List.foldlM_cons] at h
    obtain ⟨next, hnext, hrest⟩ := bind_eq_ok.mp h
    refine ih ?_ hrest
    cases a with
    | error cause => simp [addReference] at hnext
    | ok a =>
      rw [addReference] at hnext
      split at hnext
      · -- The reference decides, whatever was known before.
        split at hnext
        · rename_i p hp
          rw [← Except.ok.inj hnext]
          exact Or.inr (Position.ofOctets?_column_lt hp)
        · simp at hnext
      · rename_i hkey
        rw [← Except.ok.inj hnext]
        have hne : (a.key == "r") = false := beq_eq_false_iff_ne.mpr hkey
        simpa [statesKey, hne] using hstart

/-- **The column of a cell** is one of the sheet if it is named by a reference, or if it is the column
that comes next and that is one of the sheet. -/
theorem cellOfTag?_column_lt {next : Nat} {tag : Tag} {cell : RawCell}
    (hnext : statesKey "r" tag = true ∨ next < maxColumns) (h : cellOfTag? next tag = .ok cell) :
    cell.column < maxColumns := by
  have hcolumn : tag.attributes.foldlM addReference next = .ok cell.column := by
    rw [← placing_foldlM, ← cellOfTag?_column, h]
    rfl
  exact foldlM_addReference_lt hnext hcolumn

/-! ## Where cells without a reference stand -/

/-- A cell of a row that states no reference stands in a column of the sheet. -/
def Scope.isInside (s : Scope) (e : Event) : Bool :=
  match s with
  | .among p =>
    match p.row?, cellTag? e with
    | some _, some tag => statesKey "r" tag || decide (p.nextColumn < maxColumns)
    | _, _ => true
  | _ => true

/-- **No cell without a reference stands behind the last column** of the sheet. -/
def PlacesInside : Scope → List Event → Prop
  | _, [] => True
  | s, e :: events => s.isInside e = true ∧ PlacesInside (s.step e) events

instance PlacesInside.decidable : ∀ (s : Scope) (events : List Event), Decidable (PlacesInside s events)
  | _, [] => isTrue trivial
  | s, e :: events =>
      have := PlacesInside.decidable (s.step e) events
      inferInstanceAs (Decidable (_ ∧ _))

/-! ## The cells of a row -/

/-- The cells of a row that were read, and the one that is open, stand in columns of the sheet. -/
structure CellScan.Inside (s : CellScan) : Prop where
  cells : ∀ cell ∈ s.cells, cell.column < maxColumns
  current : ∀ column ∈ s.current.map RawCell.column, column < maxColumns

/-- A row that begins has no cell outside of the sheet. -/
theorem CellScan.inside_start : CellScan.Inside {} := by
  constructor
  case cells =>
    intro cell hmem
    exact absurd hmem List.not_mem_nil
  case current =>
    intro column hcolumn
    simp at hcolumn

/-- What changes no place keeps cells where they are. -/
theorem CellScan.Inside.samePlace {s after : CellScan} (hs : s.Inside) (h : s.SamePlace after) :
    after.Inside := by
  constructor
  case cells =>
    rw [h.cells]
    exact hs.cells
  case current =>
    rw [h.column]
    exact hs.current

/-- Text moves no cell. -/
theorem CellScan.Inside.addText {s after : CellScan} {content : Except Markup.TextFault String}
    (hs : s.Inside) (h : s.addText content = .ok after) : after.Inside :=
  hs.samePlace (CellScan.samePlace_of_addText h)

section Row

variable {selects : Nat → Bool} {row : Nat} {fault? : Option Markup.Fault}

/-- **One event of a row.** -/
theorem CellScan.Inside.step {s after : CellScan} {e : Event} (hs : s.Inside)
    (hcell : ∀ tag cell, cellTag? e = some tag → cellOfTag? s.nextColumn tag = .ok cell →
      cell.column < maxColumns)
    (h : s.step selects e = .ok after) : after.Inside := by
  cases e with
  | start tag =>
    by_cases hname : tag.localName = "c"
    · simp only [CellScan.step, hname, if_true] at h
      obtain ⟨cell, hok, rfl⟩ := map_eq_ok.mp h
      have hlt := hcell tag cell (by simp [cellTag?, hname]) hok
      constructor
      case cells => exact hs.cells
      case current =>
        intro column hcolumn
        by_cases hsel : selects cell.column = true
        · simp only [hsel, if_true, Option.map_some, Option.mem_def, Option.some.injEq] at hcolumn
          exact hcolumn ▸ hlt
        · simp [hsel] at hcolumn
    · simp only [CellScan.step, hname, if_false, Except.ok.injEq] at h
      subst h
      exact hs.samePlace (s.samePlace_enter _)
  | empty tag =>
    by_cases hname : tag.localName = "c"
    · simp only [CellScan.step, hname, if_true] at h
      obtain ⟨cell, hok, rfl⟩ := map_eq_ok.mp h
      have hlt := hcell tag cell (by simp [cellTag?, hname]) hok
      constructor
      case cells =>
        intro stored hmem
        by_cases hsel : selects cell.column = true
        · simp only [hsel, if_true, List.mem_cons] at hmem
          rcases hmem with rfl | hmem
          · exact hlt
          · exact hs.cells stored hmem
        · simp only [hsel] at hmem
          exact hs.cells stored hmem
      case current => exact hs.current
    · simp only [CellScan.step, hname, if_false, Except.ok.injEq] at h
      subst h
      exact hs
  | finish name =>
    simp only [CellScan.step, Except.ok.injEq] at h
    subst h
    by_cases hname : Markup.localPart name = "c"
    · rw [hname]
      constructor
      case cells =>
        -- The cell that was open, if one was, is stored where it stands.
        intro stored hmem
        simp only [leave] at hmem
        cases hopen : s.current with
        | none =>
          rw [hopen] at hmem
          exact hs.cells stored hmem
        | some cell =>
          rw [hopen] at hmem
          rcases List.mem_cons.mp hmem with rfl | hmem
          · rw [complete_column]
            exact hs.current cell.column (by rw [hopen]; rfl)
          · exact hs.cells stored hmem
      case current =>
        intro column hcolumn
        simp [leave] at hcolumn
    · exact hs.samePlace (s.samePlace_leave hname)
  | text content => exact hs.addText h
  | literal content => exact hs.addText h
  | aside =>
    simp only [CellScan.step, Except.ok.injEq] at h
    subst h
    exact hs

/-- **The cells of a row**, and what is behind it. -/
theorem readCells_inside {s : CellScan} {p : Place} {events rest : List Event} {cells : List RawCell}
    (hs : s.Inside) (hrow : p.row? = some row) (hcolumn : p.nextColumn = s.nextColumn)
    (hplaces : PlacesInside (.among p) events)
    (h : readCells selects row fault? s events = .ok (cells, rest)) :
    (∀ cell ∈ cells, cell.column < maxColumns) ∧
      ∃ column, PlacesInside (.among { nextRow := p.nextRow, nextColumn := column }) rest := by
  -- Along the row the place goes on as the reading does.
  induction events generalizing s p with
  | nil => simp [readCells] at h
  | cons e events ih =>
    obtain ⟨hinside, hplaces⟩ := hplaces
    rw [Scope.step_inRow hrow] at hplaces
    rw [readCells] at h
    by_cases hend : endsRow e = true
    · rw [if_pos hend] at h
      simp only [Except.ok.injEq, Prod.mk.injEq] at h
      obtain ⟨rfl, rfl⟩ := h
      rw [Place.step_endsRow hrow hend] at hplaces
      exact ⟨hs.cells, p.nextColumn, hplaces⟩
    · rw [if_neg hend] at h
      cases hstep : s.step selects e with
      | error cause => simp [hstep] at h
      | ok after =>
        simp only [hstep] at h
        obtain ⟨hopen, hnext, hafter⟩ := Place.step_inside hrow hcolumn (by simpa using hend) hstep
        have hcells : after.Inside := by
          apply hs.step _ hstep
          intro tag cell htag hok
          apply cellOfTag?_column_lt _ hok
          rw [← hcolumn]
          simpa [Scope.isInside, hrow, htag] using hinside
        rw [← hnext]
        exact ih hcells hopen hafter hplaces h

/-- The content of a row, and what is behind it. -/
theorem contentOf_inside {index : Nat} {hasContent : Bool} {events rest : List Event}
    {cells : List RawCell}
    (hplaces : PlacesInside
      (.among { nextRow := Text.successor index, row? := if hasContent then some index else none }) events)
    (h : contentOf selects index fault? hasContent events = .ok (cells, rest)) :
    (∀ cell ∈ cells, cell.column < maxColumns) ∧
      ∃ column, PlacesInside (.among { nextRow := Text.successor index, nextColumn := column }) rest := by
  cases hasContent with
  | false =>
    simp only [contentOf, Bool.false_eq_true, if_false, Except.ok.injEq, Prod.mk.injEq] at h
    obtain ⟨rfl, rfl⟩ := h
    exact ⟨fun cell hmem => absurd hmem List.not_mem_nil, 0, hplaces⟩
  | true => exact readCells_inside CellScan.inside_start rfl rfl hplaces h

/-! ## The rows -/

/-- **A row that is given**, and what is behind it. -/
theorem readRow_inside {first last next column : Nat} {events rest : List Event} {raw : RawRow}
    (hplaces : PlacesInside (.among { nextRow := next, nextColumn := column }) events)
    (h : readRow selects first last fault? next events = .ok (some (raw, rest))) :
    (∀ cell ∈ raw.cells, cell.column < maxColumns) ∧
      ∃ column, PlacesInside (.among { nextRow := Text.successor raw.index, nextColumn := column }) rest := by
  fun_induction readRow selects first last fault? next events generalizing column with
  | case1 | case2 | case4 | case5 | case6 => simp at h
  | case3 next e events hend hopen ih =>
    have hrest := hplaces.2
    rw [Scope.step_other rfl hend hopen] at hrest
    exact ih hrest h
  | case7 next e events hend tag hasContent hopen index hindex hlast isSkipped cells after hcells
      hlength hskip =>
    rename_i ih
    have hrest := hplaces.2
    rw [Scope.step_row rfl hend hopen hindex] at hrest
    obtain ⟨-, column, hafter⟩ := contentOf_inside hrest hcells
    exact ih hafter h
  | case8 next e events hend tag hasContent hopen index hindex hlast isSkipped cells after hcells
      hlength =>
    have hrest := hplaces.2
    rw [Scope.step_row rfl hend hopen hindex] at hrest
    simp only [Except.ok.injEq, Option.some.injEq, Prod.mk.injEq] at h
    obtain ⟨rfl, rfl⟩ := h
    exact contentOf_inside hrest hcells

end Row

/-- **What a reading has before it**: no cell without a reference stands behind the last column. -/
def Reading.Inside : Reading → Prop
  | streaming next rest =>
    ∃ column, PlacesInside (.among { nextRow := next, nextColumn := column }) rest.events
  | finished => True
  | failed => True

/-- **A reading that goes on** still has such cells before it, and gives them. -/
theorem Reading.Inside.next {selects : Nat → Bool} {first last : Nat} {r after : Reading}
    {read : Option RawRow} (hr : r.Inside) (h : r.next selects first last = (.ok read, after)) :
    (∀ raw ∈ read, ∀ cell ∈ raw.cells, cell.column < maxColumns) ∧ after.Inside := by
  cases read with
  | none =>
    -- A reading that has ended has nothing before it.
    refine ⟨fun raw hraw => by simp at hraw, ?_⟩
    rcases Reading.stopped_of_none h with rfl | rfl <;> trivial
  | some raw =>
    obtain ⟨next, rest, events, rfl, rfl, hrow⟩ := Reading.streaming_of_row h
    obtain ⟨column, hplaces⟩ := hr
    obtain ⟨hcells, hafter⟩ := readRow_inside hplaces hrow
    refine ⟨fun other hother => ?_, hafter⟩
    rw [← Option.some.inj (Option.mem_def.mp hother)]
    exact hcells

/-- The rows of a sheet, when they are reached. -/
theorem Reading.inside_of_open {s : Markup.Stream} {reading : Reading} {dimension : Option Range}
    (h : Reading.ofStream? s = .ok (reading, dimension)) (hplaces : PlacesInside .before s.events) :
    reading.Inside := by
  have hopen : ∀ (events : List Event) (depth : Nat) (sawRoot : Bool) (declared : Option Range),
      PlacesInside .before events →
      openRows s.fault? depth sawRoot declared events = .ok (reading, dimension) → reading.Inside := by
    intro events
    induction events with
    | nil =>
      intro depth sawRoot declared _ h
      rw [openRows] at h
      split at h
      · simp only [Except.ok.injEq, Prod.mk.injEq] at h
        exact h.1 ▸ trivial
      · simp at h
    | cons e events ih =>
      rintro depth sawRoot declared ⟨-, hplaces⟩ h
      cases e with
      | start tag =>
        by_cases hname : tag.localName = "sheetData"
        · rw [openRows_reached hname] at h
          simp only [Except.ok.injEq, Prod.mk.injEq] at h
          rw [Scope.step_startsRows (by simp [startsRows, hname])] at hplaces
          exact h.1 ▸ ⟨0, hplaces⟩
        · rw [openRows_start hname] at h
          rw [Scope.step_before (by simpa [startsRows] using hname)] at hplaces
          exact ih _ _ _ hplaces h
      | empty tag =>
        simp only [openRows] at h
        split at h
        · simp only [Except.ok.injEq, Prod.mk.injEq] at h
          exact h.1 ▸ trivial
        · exact ih _ _ _ hplaces h
        · exact ih _ _ _ hplaces h
      | finish name => exact ih _ _ _ hplaces h
      | text content => exact ih depth sawRoot declared hplaces h
      | literal content => exact ih depth sawRoot declared hplaces h
      | aside => exact ih depth sawRoot declared hplaces h
  exact hopen s.events 0 false none hplaces h

end Xlsx.Sheet
