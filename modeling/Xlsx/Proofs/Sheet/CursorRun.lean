import Xlsx.Proofs.Sheet.Outcome
import Xlsx.Sheet.Cursor

/-! # Runs of a cursor

A cursor gives its rows call by call, and a dense one holds a row back while it counts through the
rows that are missing before it. This file sums up all calls until the end.

* **`Cursor.run_of_row`**: a row that is given comes first in the run, and the run behind it
  follows.
* **`Row.fillGaps`**: rows with the missing ones before each of them.
* **`Cursor.next_preserves`**, **`Cursor.run_forall`**: properties of the rows, along one call and along
  a run.
* **`Cursor.Ahead`**: a row is held back until it is due, so that the next number is due behind it.
* **`Cursor.run_spec`**: a run gives the decoded rows of the reading, with the gaps before them
  filled if the cursor is dense, and ends as the reading does; behind an error the reading has
  failed. -/

namespace Xlsx

/-- **Rows with the missing ones before each of them**, `due` being the first that may be missing. A
row is missing if it lies behind all rows before it. -/
def Row.fillGaps (emptyRow : Nat → Row) (due : Nat) : List Row → List Row
  | [] => []
  | row :: rows =>
      (List.range' due (row.index - due)).map emptyRow ++
        row :: Row.fillGaps emptyRow (max due (row.index + 1)) rows

namespace Cursor

/-- A run with more rows in front. -/
def Run.prepend (rows : List Row) (r : Run) : Run := { r with rows := rows ++ r.rows }

/-- Rows in front are in front of the rows of a run. -/
@[simp] theorem Run.prepend_rows (rows : List Row) (r : Run) :
    (r.prepend rows).rows = rows ++ r.rows := rfl

/-- They do not change how it fails. -/
@[simp] theorem Run.prepend_error? (rows : List Row) (r : Run) :
    (r.prepend rows).error? = r.error? := rfl

/-- They do not change where it stops. -/
@[simp] theorem Run.prepend_final (rows : List Row) (r : Run) :
    (r.prepend rows).final = r.final := rfl

/-- Rows that are put in front one after the other are in front together. -/
theorem Run.prepend_prepend (rows more : List Row) (r : Run) :
    (r.prepend more).prepend rows = r.prepend (rows ++ more) := by
  simp [Run.prepend]

/-- A row that is yielded is gathered, and the run goes on. -/
theorem runFrom_of_row {c after : Cursor} {row : Row} (h : c.next = (.ok (some row), after))
    (before : List Row) : runFrom before c = runFrom (row :: before) after := by
  rw [runFrom]
  split
  · rename_i row' after' h'
    rw [h] at h'
    simp only [Prod.mk.injEq, Except.ok.injEq, Option.some.injEq] at h'
    obtain ⟨rfl, rfl⟩ := h'
    rfl
  · rename_i after' h'
    rw [h] at h'
    simp at h'
  · rename_i cause after' h'
    rw [h] at h'
    simp at h'

/-- Where no row is left the run ends without an error. -/
theorem runFrom_of_none {c after : Cursor} (h : c.next = (.ok none, after)) (before : List Row) :
    runFrom before c = ⟨before.reverse, none, after⟩ := by
  rw [runFrom]
  split
  · rename_i row' after' h'
    rw [h] at h'
    simp at h'
  · rename_i after' h'
    rw [h] at h'
    simp only [Prod.mk.injEq, true_and] at h'
    rw [h']
  · rename_i cause after' h'
    rw [h] at h'
    simp at h'

/-- An error ends it. -/
theorem runFrom_of_error {c after : Cursor} {cause : StreamError} (h : c.next = (.error cause, after))
    (before : List Row) : runFrom before c = ⟨before.reverse, some cause, after⟩ := by
  rw [runFrom]
  split
  · rename_i row' after' h'
    rw [h] at h'
    simp at h'
  · rename_i after' h'
    rw [h] at h'
    simp at h'
  · rename_i cause' after' h'
    rw [h] at h'
    simp only [Prod.mk.injEq, Except.error.injEq] at h'
    rw [h'.1, h'.2]

/-- The rows that were given before only stand in front of a run. -/
theorem runFrom_eq_prepend (done : List Row) (c : Cursor) :
    ∀ before, runFrom before c = (runFrom [] c).prepend before.reverse := by
  induction done, c using runFrom.induct with
  | case1 done c row after h hlt ih =>
    intro before
    rw [runFrom_of_row h before, runFrom_of_row h [], ih (row :: before), ih [row]]
    simp [Run.prepend]
  | case2 done c after h =>
    intro before
    rw [runFrom_of_none h before, runFrom_of_none h []]
    simp [Run.prepend]
  | case3 done c cause after h =>
    intro before
    rw [runFrom_of_error h before, runFrom_of_error h []]
    simp [Run.prepend]

/-! ## One call and the run behind it -/

/-- **A row that is given comes first in the run.** -/
theorem run_of_row {c after : Cursor} {row : Row} (h : c.next = (.ok (some row), after)) :
    c.run = after.run.prepend [row] := by
  rw [run, runFrom_of_row h, runFrom_eq_prepend [row] after]
  rfl

/-- A cursor at its end has a run without rows. -/
theorem run_of_none {c after : Cursor} (h : c.next = (.ok none, after)) : c.run = ⟨[], none, after⟩ :=
  runFrom_of_none h []

/-- A cursor that fails at once has a run of just that. -/
theorem run_of_error {c after : Cursor} {cause : StreamError} (h : c.next = (.error cause, after)) :
    c.run = ⟨[], some cause, after⟩ :=
  runFrom_of_error h []

/-- **Induction along a run.** What holds of a cursor that gives nothing more, and of one that gives
a row if it holds behind that row, holds of every cursor. -/
theorem run_induction {motive : Cursor → Prop}
    (row : ∀ c after row, c.next = (.ok (some row), after) → motive after → motive c)
    (none : ∀ c after, c.next = (.ok none, after) → motive c)
    (error : ∀ c after cause, c.next = (.error cause, after) → motive c) (c : Cursor) : motive c := by
  have hall : ∀ (done : List Row) (c : Cursor), motive c := by
    intro done c
    induction done, c using runFrom.induct with
    | case1 done c given after h hlt ih => exact row c after given h ih
    | case2 done c after h => exact none c after h
    | case3 done c cause after h => exact error c after cause h
  exact hall [] c

/-! ## A row that is held back -/

/-- The cursor when it has given a row and all that was missing before it. -/
def behind (c : Cursor) (row : Row) : Cursor :=
  { c with pending := none, nextDense := max c.nextDense (row.index + 1) }

/-- A cursor that holds a row back gives what comes before that row, or the row. -/
theorem next_of_pending {c : Cursor} {row : Row} (h : c.pending = some row) :
    c.next = (.ok (some (c.passTo row).1), (c.passTo row).2) := by
  rw [next, h]

/-- **A row comes behind all that is missing before it.** -/
theorem run_passTo (c : Cursor) (row : Row) :
    (c.passTo row).2.run.prepend [(c.passTo row).1] =
      (c.behind row).run.prepend
        ((List.range' c.nextDense (row.index - c.nextDense)).map c.emptyRow ++ [row]) := by
  -- Each call gives one missing row, so the induction is on how many are due.
  induction hgap : row.index - c.nextDense generalizing c with
  | zero =>
    have hle : ¬ c.nextDense < row.index := by omega
    rw [passTo, if_neg hle]
    simp [behind]
  | succ gap ih =>
    have hlt : c.nextDense < row.index := by omega
    rw [passTo, if_pos hlt]
    have hpending : ({ c with pending := some row, nextDense := c.nextDense + 1 } : Cursor).pending =
        some row := rfl
    have hrest := ih { c with pending := some row, nextDense := c.nextDense + 1 }
      (by show row.index - (c.nextDense + 1) = gap; omega)
    simp only
    rw [run_of_row (next_of_pending hpending), hrest, Run.prepend_prepend]
    have hbehind : behind { c with pending := some row, nextDense := c.nextDense + 1 } row =
        c.behind row := by
      have hmax : max (c.nextDense + 1) (row.index + 1) = max c.nextDense (row.index + 1) := by omega
      simp only [behind, hmax]
    rw [hbehind, List.range'_succ]
    rfl

/-! ## All calls -/

/-- All rows that the reading of a cursor still gives. -/
def outcome (c : Cursor) : Sheet.Outcome := c.reading.outcome c.selects c.firstRow c.lastRow

/-- Rows of the sheet as a cursor gives them: with the missing ones before each of them if it is
dense. -/
def shown (c : Cursor) (rows : List Row) : List Row :=
  if c.dense then Row.fillGaps c.emptyRow c.nextDense rows else rows

/-- A cursor as its reading goes on. -/
def advanced (c : Cursor) (reading : Sheet.Reading) (cells : Nat) : Cursor :=
  { c with reading, decodedCells := c.decodedCells + cells }

/-- What a cursor makes of rows is decided by its options, not by how far its reading has come. -/
@[simp] theorem advanced_shown (c : Cursor) (reading : Sheet.Reading) (cells : Nat) :
    (c.advanced reading cells).shown = c.shown := rfl

/-- Without rows there are no gaps. -/
theorem shown_nil (c : Cursor) : c.shown [] = [] := by
  unfold shown
  split <;> rfl

/-- Without the option, the gaps are not shown. -/
theorem shown_of_sparse {c : Cursor} (h : c.dense = false) (rows : List Row) : c.shown rows = rows := by
  simp [shown, h]

/-- With it, the rows that are missing are in front of the next one. -/
theorem shown_cons_of_dense {c : Cursor} (h : c.dense = true) (row : Row) (rows : List Row) :
    c.shown (row :: rows) =
      (List.range' c.nextDense (row.index - c.nextDense)).map c.emptyRow ++
        row :: (c.behind row).shown rows := by
  have hbehind : (c.behind row).dense = true := h
  simp only [shown, h, hbehind, if_true, Row.fillGaps]
  rfl

section Next

variable {c : Cursor} {reading : Sheet.Reading} {raw : Sheet.RawRow}

/-- A fault of the reading is one of the cursor. -/
theorem next_of_error {cause : StreamError} (hpending : c.pending = none)
    (h : c.reading.next c.selects c.firstRow c.lastRow = (.error cause, reading)) :
    c.next = (.error cause, { c with reading }) := by
  rw [next, hpending]
  simp only [h]

/-- So is the end. -/
theorem next_of_none (hpending : c.pending = none)
    (h : c.reading.next c.selects c.firstRow c.lastRow = (.ok none, reading)) :
    c.next = (.ok none, { c with reading }) := by
  rw [next, hpending]
  simp only [h]

/-- A cursor whose reading has failed gives nothing any more. -/
theorem next_of_failed (hpending : c.pending = none) (hreading : c.reading = .failed) :
    c.next = (.ok none, c) := by
  have hnone : c.reading.next c.selects c.firstRow c.lastRow = (.ok none, c.reading) := by
    rw [hreading]
    rfl
  exact next_of_none hpending hnone

/-- A cursor that fills no gaps gives each row as it is read. -/
theorem next_of_sparse (hpending : c.pending = none) (hdense : c.dense = false)
    (h : c.reading.next c.selects c.firstRow c.lastRow = (.ok (some raw), reading)) :
    c.next = (.ok (some (c.decodeRow raw)), c.advanced reading raw.cells.length) := by
  rw [next, hpending]
  simp only [h]
  rw [if_neg (by rw [hdense]; decide), advanced, hpending]

/-- A dense cursor gives a row that is read when it is due. -/
theorem next_of_dense (hpending : c.pending = none) (hdense : c.dense = true)
    (h : c.reading.next c.selects c.firstRow c.lastRow = (.ok (some raw), reading)) :
    c.next = (.ok (some ((c.advanced reading raw.cells.length).passTo (c.decodeRow raw)).1),
      ((c.advanced reading raw.cells.length).passTo (c.decodeRow raw)).2) := by
  rw [next, hpending]
  simp only [h]
  rw [if_pos hdense]
  rfl

end Next

/-- What a run gives, for a cursor that holds no row back. -/
structure RunSpec (c : Cursor) (r : Run) : Prop where
  rows : r.rows = c.shown (c.outcome.rows.map c.decodeRow)
  error? : r.error? = c.outcome.ending.error?
  pending : r.final.pending = none
  reading : r.error?.isSome = true → r.final.reading = .failed

/-- **What a cursor gives until it ends.** Its rows are those of the reading, decoded, with the gaps
before them filled if the cursor is dense; it ends as the reading does, and then holds no row back. -/
theorem run_spec {c : Cursor} (hpending : c.pending = none) : RunSpec c c.run := by
  -- The induction is on what the reading has before it; the calls between two rows are summed up
  -- before.
  induction hsize : c.reading.size using Nat.strongRecOn generalizing c with
  | ind n ih =>
    match hreading : c.reading.next c.selects c.firstRow c.lastRow with
    | (.error cause, reading) =>
      obtain ⟨houtcome, rfl⟩ := Sheet.Reading.outcome_of_error hreading
      have hnone : c.outcome = ⟨[], .failed cause⟩ := houtcome
      rw [run_of_error (next_of_error hpending hreading)]
      exact ⟨by rw [hnone]; exact c.shown_nil.symm, by rw [hnone]; rfl, hpending, fun _ => rfl⟩
    | (.ok none, reading) =>
      obtain ⟨hrows, hend⟩ := Sheet.Reading.outcome_of_none hreading
      have hnone : c.outcome.rows = [] := hrows
      rw [run_of_none (next_of_none hpending hreading)]
      exact ⟨by rw [hnone]; exact c.shown_nil.symm, hend.symm, hpending, fun h => by simp at h⟩
    | (.ok (some raw), reading) =>
      have hrow : c.outcome = (c.advanced reading raw.cells.length).outcome.cons raw :=
        Sheet.Reading.outcome_of_row hreading
      have hlt : reading.size < n := hsize ▸ Sheet.Reading.size_next_lt hreading
      cases hdense : c.dense with
      | true =>
        have hrest := ih reading.size hlt
          (c := (c.advanced reading raw.cells.length).behind (c.decodeRow raw)) rfl rfl
        rw [run_of_row (next_of_dense hpending hdense hreading), run_passTo]
        refine ⟨?_, ?_, hrest.pending, hrest.reading⟩
        · rw [Run.prepend_rows, hrest.rows, hrow, Sheet.Outcome.cons_rows, List.map_cons,
            shown_cons_of_dense hdense, List.append_assoc]
          rfl
        · rw [Run.prepend_error?, hrest.error?, hrow]
          rfl
      | false =>
        have hrest := ih reading.size hlt (c := c.advanced reading raw.cells.length) hpending rfl
        rw [run_of_row (next_of_sparse hpending hdense hreading)]
        refine ⟨?_, ?_, hrest.pending, hrest.reading⟩
        · rw [Run.prepend_rows, hrest.rows, hrow, advanced_shown, shown_of_sparse hdense,
            shown_of_sparse hdense]
          rfl
        · rw [Run.prepend_error?, hrest.error?, hrow]
          rfl

/-! ## What a call can have done -/

/-- A call that gives nothing has found no row to read. -/
theorem of_next_none {c after : Cursor} (h : c.next = (.ok none, after)) :
    ∃ reading, c.pending = none ∧
      c.reading.next c.selects c.firstRow c.lastRow = (.ok none, reading) ∧
      after = { c with reading } := by
  cases hpending : c.pending with
  | some held => simp [next_of_pending hpending] at h
  | none =>
    match hreading : c.reading.next c.selects c.firstRow c.lastRow with
    | (.error cause, reading) => simp [next_of_error hpending hreading] at h
    | (.ok none, reading) =>
      rw [next_of_none hpending hreading] at h
      exact ⟨reading, rfl, rfl, by rw [← (Prod.mk.inj h).2, hpending]⟩
    | (.ok (some raw), reading) =>
      cases hdense : c.dense with
      | true => simp [next_of_dense hpending hdense hreading] at h
      | false => simp [next_of_sparse hpending hdense hreading] at h

/-- A call that fails has failed to read a row. -/
theorem of_next_error {c after : Cursor} {cause : StreamError} (h : c.next = (.error cause, after)) :
    ∃ reading, c.pending = none ∧
      c.reading.next c.selects c.firstRow c.lastRow = (.error cause, reading) ∧
      after = { c with reading } := by
  cases hpending : c.pending with
  | some held => simp [next_of_pending hpending] at h
  | none =>
    match hreading : c.reading.next c.selects c.firstRow c.lastRow with
    | (.error cause', reading) =>
      rw [next_of_error hpending hreading] at h
      obtain ⟨hcause, hafter⟩ := Prod.mk.inj h
      exact ⟨reading, rfl, by rw [Except.error.inj hcause], by rw [← hafter, hpending]⟩
    | (.ok none, reading) => simp [next_of_none hpending hreading] at h
    | (.ok (some raw), reading) =>
      cases hdense : c.dense with
      | true => simp [next_of_dense hpending hdense hreading] at h
      | false => simp [next_of_sparse hpending hdense hreading] at h

/-- A call that gives a row has passed to one that waited, or has read one. -/
theorem of_next_row {c after : Cursor} {row : Row} (h : c.next = (.ok (some row), after)) :
    (∃ held, c.pending = some held ∧ c.passTo held = (row, after)) ∨
      ∃ raw reading, c.pending = none ∧
        c.reading.next c.selects c.firstRow c.lastRow = (.ok (some raw), reading) ∧
        ((c.advanced reading raw.cells.length).passTo (c.decodeRow raw) = (row, after) ∨
          c.decodeRow raw = row ∧ c.advanced reading raw.cells.length = after) := by
  cases hpending : c.pending with
  | some held =>
    rw [next_of_pending hpending] at h
    obtain ⟨hrow, hafter⟩ := Prod.mk.inj h
    exact Or.inl ⟨held, rfl, Prod.ext (Option.some.inj (Except.ok.inj hrow)) hafter⟩
  | none =>
    match hreading : c.reading.next c.selects c.firstRow c.lastRow with
    | (.error cause, reading) => simp [next_of_error hpending hreading] at h
    | (.ok none, reading) => simp [next_of_none hpending hreading] at h
    | (.ok (some raw), reading) =>
      refine Or.inr ⟨raw, reading, rfl, rfl, ?_⟩
      cases hdense : c.dense with
      | true =>
        rw [next_of_dense hpending hdense hreading] at h
        obtain ⟨hrow, hafter⟩ := Prod.mk.inj h
        exact Or.inl (Prod.ext (Option.some.inj (Except.ok.inj hrow)) hafter)
      | false =>
        rw [next_of_sparse hpending hdense hreading] at h
        obtain ⟨hrow, hafter⟩ := Prod.mk.inj h
        exact Or.inr ⟨Option.some.inj (Except.ok.inj hrow), hafter⟩

/-- **What a call keeps and says.** Let a property of cursors be kept where a row is passed to and where
one is read, and let `P` hold of every row that is held back, passed to or read. Then a call keeps the
property, and `P` holds of the row that it gives. -/
theorem next_preserves {I : Cursor → Prop} {P : Row → Prop}
    (hheld : ∀ {c held}, I c → c.pending = some held → P held)
    (hread : ∀ {c raw reading}, I c →
      c.reading.next c.selects c.firstRow c.lastRow = (.ok (some raw), reading) →
        P (c.decodeRow raw) ∧ I (c.advanced reading raw.cells.length))
    (hpass : ∀ {c row}, I c → P row → P (c.passTo row).1 ∧ I (c.passTo row).2)
    {c after : Cursor} {row : Row} (hc : I c) (h : c.next = (.ok (some row), after)) :
    P row ∧ I after := by
  rcases of_next_row h with ⟨held, hpending, hpassed⟩ | ⟨raw, reading, -, hreading, hafter⟩
  · have hboth := hpass hc (hheld hc hpending)
    rwa [hpassed] at hboth
  · obtain ⟨hrow, hadvanced⟩ := hread hc hreading
    rcases hafter with hpassed | ⟨rfl, rfl⟩
    · have hboth := hpass hadvanced hrow
      rwa [hpassed] at hboth
    · exact ⟨hrow, hadvanced⟩

/-- **A run, call by call.** What every call keeps of the cursor, and then says of the row that it
gives, holds of all rows of a run. -/
theorem run_forall {I : Cursor → Prop} {P : Row → Prop}
    (hnext : ∀ {c after row}, I c → c.next = (.ok (some row), after) → P row ∧ I after) {c : Cursor}
    (hc : I c) : ∀ row ∈ c.run.rows, P row := by
  induction c using run_induction with
  | row c after row h ih =>
    obtain ⟨hrow, hafter⟩ := hnext hc h
    rw [run_of_row h, Run.prepend_rows]
    intro other hmem
    rcases List.mem_cons.mp hmem with rfl | hmem
    · exact hrow
    · exact ih hafter other hmem
  | none c after h =>
    rw [run_of_none h]
    exact fun row hmem => absurd hmem List.not_mem_nil
  | error c after cause h =>
    rw [run_of_error h]
    exact fun row hmem => absurd hmem List.not_mem_nil

/-! ## What is due when a row is held back -/

/-- **A row is held back until it is due**: what is due does not lie behind it. -/
def Ahead (c : Cursor) : Prop := ∀ held ∈ c.pending, c.nextDense ≤ held.index

/-- A row is only held back where one before it is due. -/
theorem ahead_passTo (c : Cursor) (row : Row) : (c.passTo row).2.Ahead := by
  unfold passTo
  split
  · rename_i hlt
    intro held hheld
    obtain rfl : row = held := Option.some.inj hheld
    exact hlt
  · exact fun held hheld => absurd hheld (Option.not_mem_none held)

/-- Where no row is held back there is nothing to show. -/
theorem ahead_of_pending {c : Cursor} (hpending : c.pending = none) : c.Ahead := by
  intro held hheld
  rw [hpending] at hheld
  exact absurd hheld (Option.not_mem_none held)

/-- **Every call** leaves the row that it holds back ahead of what is due. -/
theorem ahead_next (c : Cursor) : c.next.2.Ahead := by
  match hnext : c.next with
  | (.error cause, after) =>
    obtain ⟨reading, hpending, -, rfl⟩ := of_next_error hnext
    exact ahead_of_pending hpending
  | (.ok none, after) =>
    obtain ⟨reading, hpending, -, rfl⟩ := of_next_none hnext
    exact ahead_of_pending hpending
  | (.ok (some row), after) =>
    rcases of_next_row hnext with ⟨held, -, hpassed⟩ | ⟨raw, reading, hpending, -, hafter⟩
    · have hahead := c.ahead_passTo held
      rwa [hpassed] at hahead
    · rcases hafter with hpassed | ⟨-, rfl⟩
      · have hahead := (c.advanced reading raw.cells.length).ahead_passTo (c.decodeRow raw)
        rwa [hpassed] at hahead
      · exact ahead_of_pending hpending

/-- Starting at another row drops the rows before it. -/
theorem ahead_startingAt (c : Cursor) (row : Nat) : (c.startingAt row).Ahead := by
  intro held hheld
  exact of_decide_eq_true (Option.filter_eq_some_iff.mp hheld).2

/-- **A row that was held back is passed to** by its number alone: behind it the next number is due,
whatever was due before. -/
theorem Ahead.next_of_held {c : Cursor} (hc : c.Ahead) {held : Row} (hheld : c.pending = some held) :
    c.next =
      if c.nextDense < held.index then
        (.ok (some (c.emptyRow c.nextDense)),
          { c with pending := some held, nextDense := c.nextDense + 1 })
      else (.ok (some held), { c with pending := none, nextDense := held.index + 1 }) := by
  have hdue : c.nextDense ≤ held.index := hc held hheld
  rw [next_of_pending hheld, passTo, Nat.max_eq_right (by omega)]
  split <;> rfl

/-! ## How many cells are decoded -/

/-- How many cells the rows have that a cursor still gives. -/
def cellCount (c : Cursor) : Nat := (c.outcome.rows.flatMap fun row => row.cells).length

/-- Passing to a row decodes no cell. -/
theorem passTo_cellCount (c : Cursor) (row : Row) :
    (c.passTo row).2.decodedCells + (c.passTo row).2.cellCount = c.decodedCells + c.cellCount := by
  unfold passTo
  split <;> rfl

/-- A cursor that gives a row has decoded the cells that are no longer before it. -/
theorem decodedCells_next {c after : Cursor} {row : Row} (h : c.next = (.ok (some row), after)) :
    after.decodedCells + after.cellCount = c.decodedCells + c.cellCount := by
  rcases of_next_row h with ⟨held, -, hpass⟩ | ⟨raw, reading, -, hreading, hafter⟩
  · have hsame := c.passTo_cellCount held
    rwa [hpass] at hsame
  · have hrow : c.outcome = (c.advanced reading raw.cells.length).outcome.cons raw :=
      Sheet.Reading.outcome_of_row hreading
    have hcount : (c.advanced reading raw.cells.length).decodedCells +
        (c.advanced reading raw.cells.length).cellCount = c.decodedCells + c.cellCount := by
      have hdecoded : (c.advanced reading raw.cells.length).decodedCells =
          c.decodedCells + raw.cells.length := rfl
      rw [hdecoded, cellCount, cellCount, hrow, Sheet.Outcome.cons_rows, List.flatMap_cons,
        List.length_append]
      omega
    rcases hafter with hpass | ⟨-, rfl⟩
    · have hsame := (c.advanced reading raw.cells.length).passTo_cellCount (c.decodeRow raw)
      rw [hpass] at hsame
      exact hsame.trans hcount
    · exact hcount

/-- **How many cells a run decodes**: those of all its rows. -/
theorem decodedCells_run (c : Cursor) : c.run.final.decodedCells = c.decodedCells + c.cellCount := by
  induction c using run_induction with
  | row c after row h ih =>
    rw [run_of_row h, ← decodedCells_next h]
    exact ih
  | none c after h =>
    obtain ⟨reading, -, hreading, rfl⟩ := of_next_none h
    have hnone : c.outcome.rows = [] := (Sheet.Reading.outcome_of_none hreading).1
    rw [run_of_none h, cellCount, hnone]
    rfl
  | error c after cause h =>
    obtain ⟨reading, -, hreading, rfl⟩ := of_next_error h
    have hnone : c.outcome.rows = [] :=
      congrArg Sheet.Outcome.rows (Sheet.Reading.outcome_of_error hreading).1
    rw [run_of_error h, cellCount, hnone]
    rfl

end Cursor

end Xlsx
