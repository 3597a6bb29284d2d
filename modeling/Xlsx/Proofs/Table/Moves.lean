import Mathlib.Logic.Function.Iterate
import Xlsx.Proofs.Sheet.Fused
import Xlsx.Proofs.Table.Views

/-! # Moves of a scan

A host moves a scan on as often as it likes, behind a move that failed and behind the last record, too.
The scan keeps a record of its own and a cursor that has often come further than this record; a move
that fails leaves the one as it is and stops the other. That both never contradict each other comes
down to this: a scan that is over, or has failed to move, is at rest, and so is whatever follows it.

* **`TableScan.AtRest`**, **`TableScan.AtRest.advance`**: nothing is left to move to, and a move shows it.
* **`TableScan.advance_of_ok`**, **`TableScan.advance_of_error`**: what a move can do.
* **`TableScan.Reached`**: what a host can come to from a scan, by any moves.
* **`TableScan.Reached.counted`**, **`TableScan.Reached.records_eq`**: what holds wherever it comes.
* **`TableScan.over_forever`**, **`TableScan.rowid_visit`**: any number of moves, behind the last record
  and up to there.
* **`Table.Steady`**, **`Table.steady_of_open`**: what a host sees of a table that it has opened,
  wherever it comes. -/

namespace Xlsx

/-! ## Cursors that have stopped -/

/-- Neither does the reading go on, nor is a row held back. -/
def Cursor.Stopped (c : Cursor) : Prop := c.pending = none ∧ c.reading.state ≠ .streaming

/-- A cursor that has found no more cells has stopped, whether that was the end or an error. -/
theorem Cursor.stopped_of_nextCells {c after : Cursor} {answer : Except StreamError (List PlacedCell)}
    (h : c.nextCells = (answer, after)) (hnone : ∀ cells, answer = .ok cells → cells = []) :
    after.Stopped := by
  fun_induction Cursor.nextCells c with
  | case1 c row between hnext hlt hempty ih => exact ih h
  | case2 c row between hnext hlt hempty =>
    have hcells := hnone row.placedCells (Prod.mk.inj h).1.symm
    exact absurd (List.isEmpty_iff.mpr hcells) hempty
  | case3 c between hnext =>
    obtain ⟨-, rfl⟩ := Prod.mk.inj h
    exact stopped_of_end hnext fun row h => by simp at h
  | case4 c cause between hnext =>
    obtain ⟨-, rfl⟩ := Prod.mk.inj h
    exact stopped_of_end hnext fun row h => by simp at h

/-- A cursor that has stopped gives no cells. -/
theorem Cursor.Stopped.nextCells {c : Cursor} (h : c.Stopped) : c.nextCells = (.ok [], c) := by
  have hnext := next_of_stopped h.1 h.2
  rw [Cursor.nextCells]
  split <;> rename_i hcall <;> rw [hnext] at hcall
  · simp at hcall
  · rw [(Prod.mk.inj hcall).2]
  · simp at hcall

namespace TableScan

/-! ## One move -/

/-- **A scan at rest** has nothing left to move to, whatever record it stands on. -/
def AtRest : TableScan → Prop
  | rows s => s.cursor.Stopped
  | cells s => s.waiting = [] ∧ s.cursor.Stopped
  | sheets s => s.sheets.length ≤ s.position + 1

/-- **What a host can see of a scan is the same.** -/
structure Alike (s other : TableScan) : Prop where
  isOver : s.isOver = other.isOver
  rowid : s.rowid = other.rowid
  column : ∀ i, s.column i = other.column i

variable {s after : TableScan}

/-- **A scan at rest** is over with the next move, and stays at rest. -/
theorem AtRest.advance (h : s.AtRest) :
    ∃ after, s.advance = (.ok (), after) ∧ after.isOver = true ∧ after.AtRest := by
  cases s with
  | rows s =>
    have hmove := RowsScan.advance_of_ok (Cursor.next_of_stopped h.1 h.2)
    exact ⟨rows ⟨s.cursor, none, s.rowid + 1⟩, by simp only [TableScan.advance, hmove], rfl, h⟩
  | cells s =>
    have hmove := CellsScan.advance_of_ok h.1 h.2.nextCells
    exact ⟨cells ⟨s.cursor, [], none, s.rowid + 1⟩, by simp only [TableScan.advance, hmove]; rfl, rfl, rfl, h.2⟩
  | sheets s =>
    have hover : s.sheets.length ≤ s.position + 1 := h
    exact ⟨sheets s.advance, rfl, decide_eq_true hover, Nat.le_succ_of_le hover⟩

/-- **A move that succeeds** counts one record on, and only ends up behind the last one if nothing is left
to move to. -/
theorem advance_of_ok (h : s.advance = (.ok (), after)) :
    after.rowid = s.rowid + 1 ∧ (after.isOver = true → after.AtRest) := by
  cases s with
  | rows s =>
    rcases hnext : s.cursor.next with ⟨cause | current, cursor⟩
    · simp [advance, RowsScan.advance_of_error hnext] at h
    · rw [advance, RowsScan.advance_of_ok hnext] at h
      obtain rfl := (Prod.mk.inj h).2
      refine ⟨rfl, fun hover => ?_⟩
      have hnone : current = none := by simpa [isOver] using hover
      exact Cursor.stopped_of_end hnext fun row hrow => by simp [hnone] at hrow
  | cells s =>
    cases hwaiting : s.waiting with
    | cons cell waiting =>
      rw [advance, CellsScan.advance_of_waiting hwaiting] at h
      obtain rfl := (Prod.mk.inj h).2
      exact ⟨rfl, fun hover => by simp [isOver] at hover⟩
    | nil =>
      rcases hnext : s.cursor.nextCells with ⟨cause | found, cursor⟩
      · simp [advance, CellsScan.advance_of_error hwaiting hnext] at h
      · rw [advance, CellsScan.advance_of_ok hwaiting hnext] at h
        obtain rfl := (Prod.mk.inj h).2
        refine ⟨rfl, fun hover => ?_⟩
        have hnone : found = [] := by simpa [isOver] using hover
        refine ⟨by rw [hnone]; rfl, Cursor.stopped_of_nextCells hnext ?_⟩
        intro other hother
        rw [← Except.ok.inj hother, hnone]
  | sheets s =>
    obtain rfl := (Prod.mk.inj h).2
    refine ⟨rfl, fun hover => ?_⟩
    exact Nat.le_succ_of_le (of_decide_eq_true hover)

/-- **A move that fails** changes nothing that can be seen, and leaves nothing to move to. -/
theorem advance_of_error {cause : Error} (h : s.advance = (.error cause, after)) :
    after.Alike s ∧ after.AtRest := by
  cases s with
  | rows s =>
    rcases hnext : s.cursor.next with ⟨fault | current, cursor⟩
    · rw [advance, RowsScan.advance_of_error hnext] at h
      obtain rfl := (Prod.mk.inj h).2
      exact ⟨⟨rfl, rfl, fun i => rfl⟩, Cursor.stopped_of_end hnext fun row hrow => by simp at hrow⟩
    · simp [advance, RowsScan.advance_of_ok hnext] at h
  | cells s =>
    cases hwaiting : s.waiting with
    | cons cell waiting => simp [advance, CellsScan.advance_of_waiting hwaiting] at h
    | nil =>
      rcases hnext : s.cursor.nextCells with ⟨fault | found, cursor⟩
      · -- The rows without cells that were passed on the way are gone, but nothing of them was seen.
        rw [advance, CellsScan.advance_of_error hwaiting hnext] at h
        obtain rfl := (Prod.mk.inj h).2
        exact ⟨⟨rfl, rfl, fun i => rfl⟩, hwaiting, Cursor.stopped_of_nextCells hnext (by simp)⟩
      · simp [advance, CellsScan.advance_of_ok hwaiting hnext] at h
  | sheets s => simp [advance] at h

/-- Every column is null where there is no record. -/
theorem column_of_isOver (h : s.isOver = true) (i : Nat) : s.column i = .null := by
  cases s with
  | rows s =>
    have hnone : s.current = none := by simpa [isOver] using h
    simp only [column, RowsScan.column, hnone]
  | cells s =>
    have hnone : s.current = none := by simpa [isOver] using h
    simp only [column, CellsScan.column, hnone]
  | sheets s =>
    have hnone : s.sheets[s.position]? = none := List.getElem?_eq_none (of_decide_eq_true h)
    simp only [column, SheetsScan.column, hnone]

/-! ## Any moves -/

/-- **What a host can come to** from a scan with any moves, of which a number succeeded. -/
inductive Reached (start : TableScan) : Nat → TableScan → Prop
  | here : Reached start 0 start
  | moved {n : Nat} {s after : TableScan} (h : Reached start n s) (hmove : s.advance = (.ok (), after)) :
    Reached start (n + 1) after
  | failed {n : Nat} {s after : TableScan} {cause : Error} (h : Reached start n s)
    (hmove : s.advance = (.error cause, after)) : Reached start n after

/-- A scan on its first record, or at rest where there is none. -/
structure IsFirst (s : TableScan) : Prop where
  rowid : s.rowid = 0
  rest : s.isOver = true → s.AtRest

variable {start : TableScan} {n : Nat}

/-- **Wherever a host comes**, the record has the number of the moves that succeeded, and a scan that is
over is at rest. -/
theorem Reached.counted (hstart : start.IsFirst) (h : start.Reached n s) :
    s.rowid = n ∧ (s.isOver = true → s.AtRest) := by
  induction h with
  | here => exact ⟨hstart.rowid, hstart.rest⟩
  | moved _ hmove ih =>
    obtain ⟨hrowid, hrest⟩ := advance_of_ok hmove
    refine ⟨?_, hrest⟩
    rw [hrowid, ih.1]
    rfl
  | failed _ hmove ih =>
    obtain ⟨halike, hrest⟩ := advance_of_error hmove
    exact ⟨halike.rowid.trans ih.1, fun _ => hrest⟩

/-- A scan that is over has no record. -/
theorem records_of_isOver (h : s.isOver = true) (schema : Schema) : s.records schema = [] := by
  rw [records, visit_of_isOver h]
  rfl

/-- The record that a scan stands on is the first one of those before it. -/
theorem record_mem_records (hover : s.isOver = false) (schema : Schema) : s.record schema ∈ s.records schema := by
  have hrecord : ¬ s.isOver = true := by simp [hover]
  match hmove : s.advance with
  | (.ok (), after) =>
    rw [records, visit_of_ok hrecord hmove]
    exact List.mem_cons_self
  | (.error cause, after) =>
    rw [records, visit_of_error hrecord hmove]
    exact List.mem_cons_self

/-- A scan at rest has no more than the record that it stands on. -/
theorem AtRest.records (h : s.AtRest) (hover : ¬ s.isOver = true) (schema : Schema) :
    s.records schema = [s.record schema] := by
  obtain ⟨after, hmove, hafter, -⟩ := h.advance
  rw [TableScan.records, visit_of_ok hover hmove, visit_of_isOver hafter]
  rfl

/-- Scans that are alike are at the same record. -/
theorem Alike.record {other : TableScan} (h : s.Alike other) (schema : Schema) :
    s.record schema = other.record schema := by
  rw [TableScan.record, TableScan.record, h.rowid, funext h.column]

/-- **Wherever a host comes**, what is left of the records are all but those it has moved past. -/
theorem Reached.records_eq (hstart : start.IsFirst) (h : start.Reached n s) (schema : Schema) :
    s.records schema = (start.records schema).drop n := by
  induction h with
  | here => exact List.drop_zero.symm
  | @moved n s after hs hmove ih =>
    rw [← List.tail_drop, ← ih]
    by_cases hover : s.isOver = true
    · -- Behind the last record there is no other one.
      obtain ⟨later, hlater, hlast, -⟩ := ((hs.counted hstart).2 hover).advance
      obtain rfl := (Prod.mk.inj (hmove.symm.trans hlater)).2
      rw [records_of_isOver hlast, records_of_isOver hover]
      rfl
    · rw [records, records, visit_of_ok hover hmove]
      rfl
  | @failed n s after cause hs hmove ih =>
    obtain ⟨halike, hrest⟩ := advance_of_error hmove
    rw [← ih]
    by_cases hover : s.isOver = true
    · rw [records_of_isOver hover, records_of_isOver (halike.isOver.trans hover)]
    · rw [hrest.records (fun h => hover (halike.isOver.symm.trans h)), halike.record, records,
        visit_of_error hover hmove]
      rfl

/-- **A scan that is over** and at rest stays so, however often it is moved. -/
theorem over_forever (hover : s.isOver = true) (hrest : s.AtRest) (k : Nat) :
    ((fun s => s.advance.2)^[k] s).isOver = true ∧ ((fun s => s.advance.2)^[k] s).AtRest := by
  induction k with
  | zero => exact ⟨hover, hrest⟩
  | succ k ih =>
    obtain ⟨after, hmove, hafter⟩ := ih.2.advance
    rw [Function.iterate_succ_apply', hmove]
    exact hafter

/-- The records that a scan visits are numbered one after the other. -/
theorem rowid_visit (s : TableScan) : s.visit.scans.map rowid =
    (List.range s.visit.scans.length).map fun i : Nat => s.rowid + i := by
  induction s using visit.induct with
  | case1 s hover =>
    rw [visit_of_isOver hover]
    rfl
  | case2 s hover cause after hmove =>
    rw [visit_of_error hover hmove]
    simp
  | case3 s hover after hmove hlt ih =>
    rw [visit_of_ok hover hmove, List.map_cons, ih, List.length_cons, List.range_succ_eq_map, List.map_cons,
      List.map_map, (advance_of_ok hmove).1]
    -- Counting from the next record on is counting from this one on, one further.
    refine congrArg₂ List.cons (by simp) (List.map_congr_left fun i _ => ?_)
    simp only [Function.comp_apply, Nat.succ_eq_add_one]
    omega

end TableScan

/-! ## Tables -/

/-- The cells of a row that are records hold something. -/
theorem Row.isEmpty_of_mem_placedCells {row : Row} {p : PlacedCell} (h : p ∈ row.placedCells) :
    p.cell.isEmpty = false := by
  obtain ⟨cell, hcell, rfl⟩ := List.mem_map.mp h
  simpa [Row.filled] using (List.mem_filter.mp hcell).2

/-- Numbering records leaves their values as they are. -/
theorem TableRecord.mem_numbered {first : Int} {values : List (List SqlValue)} {record : TableRecord}
    (h : record ∈ numbered first values) : record.values ∈ values := by
  induction values generalizing first with
  | nil => exact absurd h List.not_mem_nil
  | cons one values ih =>
    rcases List.mem_cons.mp h with rfl | h
    · exact List.mem_cons_self
    · exact List.mem_cons_of_mem _ (ih h)

namespace Table

variable {t : Table} {a : Arguments} {start : TableScan}

/-- A table of cells that is opened has a cursor on its range, which has been asked for the first cell. -/
theorem open_cells_eq_ok (h : Table.cells.open a = .ok start) :
    ∃ range w selector c s, a.range = .ok range ∧ a.workbook = .ok w ∧ a.sheet = .ok selector ∧
      w.openSheet selector { range := some range } = .ok c ∧
      CellsScan.advance { cursor := c } = (.ok (), s) ∧ start = .cells s := by
  simp only [Table.open] at h
  obtain ⟨range, hrange, h⟩ := bind_eq_ok.mp h
  obtain ⟨w, hw, h⟩ := bind_eq_ok.mp h
  obtain ⟨selector, hselector, h⟩ := bind_eq_ok.mp h
  obtain ⟨c, hc, h⟩ := bind_eq_ok.mp h
  obtain ⟨⟨⟩, hmove, rfl⟩ := map_eq_ok.mp h
  exact ⟨range, w, selector, c, _, hrange, hw, hselector, hc, Prod.ext hmove rfl, rfl⟩

/-- **A table that is opened** stands on its first record, or is at rest if it has none. -/
theorem isFirst_of_open (h : t.open a = .ok start) : start.IsFirst := by
  -- Rows and cells are reached by a first move from in front of them.
  have hmoved : ∀ before : TableScan, before.rowid = -1 → before.advance = (.ok (), start) → start.IsFirst := by
    intro before hbefore hmove
    obtain ⟨hrowid, hrest⟩ := TableScan.advance_of_ok hmove
    exact ⟨by rw [hrowid, hbefore]; rfl, hrest⟩
  cases t with
  | rows columns =>
    simp only [Table.open] at h
    obtain ⟨w, -, h⟩ := bind_eq_ok.mp h
    obtain ⟨selector, -, h⟩ := bind_eq_ok.mp h
    obtain ⟨c, -, h⟩ := bind_eq_ok.mp h
    obtain ⟨⟨⟩, hmove, hstart⟩ := map_eq_ok.mp h
    exact hmoved (.rows { cursor := c }) rfl (Prod.ext hmove hstart)
  | cells =>
    obtain ⟨range, w, selector, c, s, -, -, -, -, hmove, rfl⟩ := open_cells_eq_ok h
    exact hmoved (.cells { cursor := c }) rfl (by rw [TableScan.advance, hmove])
  | sheets =>
    simp only [Table.open] at h
    obtain ⟨w, -, h⟩ := bind_eq_ok.mp h
    obtain rfl := Except.ok.inj h
    exact ⟨rfl, fun hover => Nat.le_succ_of_le (of_decide_eq_true hover)⟩

/-- **What a host sees of a table** that it has opened, where it has come to with `n` moves that
succeeded, and any that failed. -/
structure Steady (t : Table) (a : Arguments) (start : TableScan) (n : Nat) (s : TableScan) : Prop where
  rowid : s.rowid = n
  /-- What is left of the records are all but the first ones. -/
  records : s.records t.schema = (start.records t.schema).drop n
  /-- A move that fails changes nothing that can be seen, and the next one succeeds and ends it. -/
  failed : ∀ cause after, s.advance = (.error cause, after) →
    after.Alike s ∧ ∃ last, after.advance = (.ok (), last) ∧ last.isOver = true
  /-- What is over stays so, and every column of it is null. -/
  ended : s.isOver = true → ∀ (k : Nat) (later : TableScan), later = (fun s => s.advance.2)^[k] s →
    later.isOver = true ∧ later.advance.1 = .ok () ∧ ∀ i, later.column i = .null
  /-- A record of cells is a cell that holds something, in a row that a cursor on the range gives. -/
  stored : t = .cells → s.isOver = false → ∃ range w selector c, a.range = .ok range ∧
    a.workbook = .ok w ∧ a.sheet = .ok selector ∧ w.openSheet selector { range := some range } = .ok c ∧
    ∃ row ∈ c.run.rows, ∃ p ∈ row.placedCells, p.cell.isEmpty = false ∧
      s.record .cells = ⟨n, p.recordValues⟩

/-- **A host may move on from any record in any way**: the records that it visits are numbered from zero
on, and wherever it comes the table is steady. -/
theorem steady_of_open (h : t.open a = .ok start) :
    start.visit.scans.map TableScan.rowid = (List.range start.visit.scans.length).map (fun i : Nat => (i : Int)) ∧
      ∀ n s, start.Reached n s → Steady t a start n s := by
  have hfirst := isFirst_of_open h
  refine ⟨?_, ?_⟩
  · rw [TableScan.rowid_visit, hfirst.rowid]
    simp only [Int.zero_add]
  intro n s hs
  obtain ⟨hrowid, hrest⟩ := hs.counted hfirst
  have hrecords := hs.records_eq hfirst
  constructor
  case rowid => exact hrowid
  case records => exact hrecords t.schema
  case failed =>
    intro cause after hmove
    obtain ⟨halike, hafter⟩ := TableScan.advance_of_error hmove
    obtain ⟨last, hlast, hover, -⟩ := hafter.advance
    exact ⟨halike, last, hlast, hover⟩
  case ended =>
    rintro hover k later rfl
    obtain ⟨hlater, hlaterRest⟩ := TableScan.over_forever hover (hrest hover) k
    obtain ⟨after, hmove, -⟩ := hlaterRest.advance
    exact ⟨hlater, by rw [hmove], TableScan.column_of_isOver hlater⟩
  case stored =>
    rintro rfl hover
    obtain ⟨range, w, selector, c, first, hrange, hw, hselector, hc, hmove, rfl⟩ := open_cells_eq_ok h
    refine ⟨range, w, selector, c, hrange, hw, hselector, hc, ?_⟩
    have hall := CellsScan.advance_start c
    rw [hmove] at hall
    -- The record is one of all that there were at first.
    have hmem : s.record .cells ∈ (TableScan.cells first).records .cells := by
      refine List.mem_of_mem_drop (i := n) ?_
      rw [← hrecords]
      exact TableScan.record_mem_records hover .cells
    rw [hall.1] at hmem
    obtain ⟨p, hp, hvalues⟩ := List.mem_map.mp (TableRecord.mem_numbered hmem)
    obtain ⟨row, hrow, hp⟩ := List.mem_flatMap.mp hp
    refine ⟨row, hrow, p, hp, Row.isEmpty_of_mem_placedCells hp, ?_⟩
    rw [hvalues, ← hrowid]
    rfl

/-- An archive of a workbook whose only sheet breaks off behind a row with the cell
`<c t="b"><v>1</v></c>`. -/
def tornOctets : ByteArray := ⟨#[
  80, 75, 3, 4, 20, 0, 0, 0, 0, 0, 0, 0, 33, 0, 52, 219, 94, 168, 24, 0, 0, 0, 24, 0, 0, 0, 15, 0,
  0, 0, 120, 108, 47, 119, 111, 114, 107, 98, 111, 111, 107, 46, 120, 109, 108, 60, 115, 104, 101,
  101, 116, 32, 110, 97, 109, 101, 61, 34, 83, 34, 32, 105, 100, 61, 34, 49, 34, 47, 62, 80, 75,
  3, 4, 20, 0, 0, 0, 0, 0, 0, 0, 33, 0, 255, 3, 53, 226, 33, 0, 0, 0, 33, 0, 0, 0, 26, 0, 0, 0,
  120, 108, 47, 95, 114, 101, 108, 115, 47, 119, 111, 114, 107, 98, 111, 111, 107, 46, 120, 109,
  108, 46, 114, 101, 108, 115, 60, 82, 101, 108, 97, 116, 105, 111, 110, 115, 104, 105, 112, 32,
  73, 100, 61, 34, 49, 34, 32, 84, 97, 114, 103, 101, 116, 61, 34, 115, 34, 47, 62, 80, 75, 3, 4,
  20, 0, 0, 0, 0, 0, 0, 0, 33, 0, 96, 212, 224, 242, 43, 0, 0, 0, 43, 0, 0, 0, 4, 0, 0, 0, 120,
  108, 47, 115, 60, 115, 104, 101, 101, 116, 68, 97, 116, 97, 62, 60, 114, 111, 119, 62, 60, 99,
  32, 116, 61, 34, 98, 34, 62, 60, 118, 62, 49, 60, 47, 118, 62, 60, 47, 99, 62, 60, 47, 114, 111,
  119, 62, 80, 75, 1, 2, 20, 3, 20, 0, 0, 0, 0, 0, 0, 0, 33, 0, 52, 219, 94, 168, 24, 0, 0, 0, 24,
  0, 0, 0, 15, 0, 0, 0, 0, 0, 0, 0, 0, 0, 0, 0, 128, 1, 0, 0, 0, 0, 120, 108, 47, 119, 111, 114,
  107, 98, 111, 111, 107, 46, 120, 109, 108, 80, 75, 1, 2, 20, 3, 20, 0, 0, 0, 0, 0, 0, 0, 33, 0,
  255, 3, 53, 226, 33, 0, 0, 0, 33, 0, 0, 0, 26, 0, 0, 0, 0, 0, 0, 0, 0, 0, 0, 0, 128, 1, 69, 0,
  0, 0, 120, 108, 47, 95, 114, 101, 108, 115, 47, 119, 111, 114, 107, 98, 111, 111, 107, 46, 120,
  109, 108, 46, 114, 101, 108, 115, 80, 75, 1, 2, 20, 3, 20, 0, 0, 0, 0, 0, 0, 0, 33, 0, 96, 212,
  224, 242, 43, 0, 0, 0, 43, 0, 0, 0, 4, 0, 0, 0, 0, 0, 0, 0, 0, 0, 0, 0, 128, 1, 158, 0, 0, 0,
  120, 108, 47, 115, 80, 75, 5, 6, 0, 0, 0, 0, 3, 0, 3, 0, 183, 0, 0, 0, 235, 0, 0, 0, 0, 0]⟩

/-- The workbook in it. -/
def torn : Workbook where
  container := ⟨tornOctets, [
    ⟨"xl/workbook.xml", false, 0, 24, 24, 45, false⟩,
    ⟨"xl/_rels/workbook.xml.rels", false, 0, 33, 33, 125, false⟩,
    ⟨"xl/s", false, 0, 43, 43, 192, false⟩]⟩
  sheets := [⟨"S", 0, 0, .visible, "xl/s"⟩]
  strings := {}
  styles := {}
  epoch := .since1900

/-- The events of its sheet. -/
def tornStream : Markup.Stream where
  events := [.start ⟨"sheetData", []⟩, .start ⟨"row", []⟩, .start ⟨"c", [.ok ⟨"t", [0x62]⟩]⟩,
    .start ⟨"v", []⟩, .text (.ok "1"), .finish "v", .finish "c", .finish "row"]

/-- The archive with a torn sheet is opened. -/
theorem ofOctets?_torn : Workbook.ofOctets? {} tornOctets = .ok torn :=
  Workbook.ofOctets?_of_ok (c := torn.container) (Container.ofOctets?_of_entries (by decide +kernel))
    (Workbook.ofContainer?_of_parts (by decide +kernel))

/-- A query for its cells. -/
def tornCells : Arguments := ⟨[("workbook", .blob tornOctets), ("range", .text "A1:B2")]⟩

/-- It stands on the cell; the move to the next one fails, and the cell can still be seen. -/
theorem steady_of_open_torn : ∃ start cause later, Table.cells.open tornCells = .ok start ∧
    start.advance = (.error cause, later) ∧ start.Reached 0 later ∧
    Steady .cells tornCells start 0 later ∧
    later.record .cells = ⟨0, [.integer 1, .integer 0, .integer 1]⟩ := by
  have hw : tornCells.workbook = .ok torn := ofOctets?_torn
  have hsheet : torn.resolve (.index 0) = .ok ⟨"S", 0, 0, .visible, "xl/s"⟩ := rfl
  have hscan : torn.container.scan "xl/s" = .ok tornStream := by decide +kernel
  have hrange : tornCells.range = .ok ⟨⟨0, 0⟩, ⟨1, 1⟩⟩ := by
    have htext : Range.ofText? "A1:B2" = .ok ⟨⟨0, 0⟩, ⟨1, 1⟩⟩ := by decide +kernel
    exact congrArg (Except.mapError Error.reference) htext
  obtain ⟨c, hc⟩ : ∃ c, c = Cursor.opened ⟨"S", 0, 0, .visible, "xl/s"⟩ torn.decoder
    { range := some ⟨⟨0, 0⟩, ⟨1, 1⟩⟩ } (.streaming 0 ⟨tornStream.events.tail, none⟩) none := ⟨_, rfl⟩
  have hcursor : torn.openSheet (.index 0) { range := some ⟨⟨0, 0⟩, ⟨1, 1⟩⟩ } = .ok c := by
    rw [Workbook.openSheet_eq hsheet hscan, hc]
    rfl
  have hopen : Table.cells.open tornCells = (CellsScan.advance { cursor := c }).1.map fun () =>
      .cells (CellsScan.advance { cursor := c }).2 := by
    have hselector : tornCells.sheet = .ok (.index 0) := rfl
    simp only [Table.open, hrange, hw, hselector, hcursor, bind, Except.bind]
  have hcells : c.run.rows.flatMap Row.placedCells = [⟨0, 0, .boolean true⟩] := by
    rw [hc, (Cursor.run_spec rfl).rows]
    decide +kernel
  have herror : c.run.error?.isSome = true := by
    rw [hc, (Cursor.run_spec rfl).error?]
    decide +kernel
  -- The cursor gives the cells of its first row, and behind them an error.
  obtain ⟨after, hnext, hrest, hsame⟩ : ∃ after, c.nextCells = (.ok [⟨0, 0, .boolean true⟩], after) ∧
      after.run.rows.flatMap Row.placedCells = [] ∧ c.run.error? = after.run.error? := by
    have hrun := c.nextCells_run
    rcases hnext : c.nextCells with ⟨cause | ⟨⟩ | ⟨cell, waiting⟩, after⟩
    · simp [hnext, hcells] at hrun
    · simp [hnext, hcells] at hrun
    · rw [hnext, hcells] at hrun
      obtain ⟨hcell, hbehind⟩ := List.cons.inj hrun.1
      obtain ⟨rfl, hrest⟩ := List.append_eq_nil_iff.mp hbehind.symm
      exact ⟨after, by rw [hcell], hrest, hrun.2⟩
  obtain ⟨cause, behind, hthen⟩ : ∃ cause behind, after.nextCells = (.error cause, behind) := by
    have hrun := after.nextCells_run
    rcases hthen : after.nextCells with ⟨cause | ⟨⟩ | ⟨cell, waiting⟩, behind⟩
    · exact ⟨cause, behind, rfl⟩
    · rw [hthen] at hrun
      simp [hsame, hrun.2] at herror
    · simp [hthen, hrest] at hrun
  have hstart : Table.cells.open tornCells = .ok (.cells ⟨after, [], some ⟨0, 0, .boolean true⟩, 0⟩) := by
    rw [hopen, CellsScan.advance_of_ok (s := { cursor := c }) rfl hnext]
    rfl
  have hmove : (TableScan.cells ⟨after, [], some ⟨0, 0, .boolean true⟩, 0⟩).advance =
      (.error (.stream cause), .cells ⟨behind, [], some ⟨0, 0, .boolean true⟩, 0⟩) := by
    rw [TableScan.advance, CellsScan.advance_of_error rfl hthen]
  have hreached := TableScan.Reached.here.failed hmove
  exact ⟨_, _, _, hstart, hmove, hreached, (steady_of_open hstart).2 0 _ hreached, rfl⟩

end Table

end Xlsx
