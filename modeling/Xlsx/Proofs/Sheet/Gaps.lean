import Mathlib.Data.List.Basic
import Xlsx.Proofs.Sheet.CursorRun
import Xlsx.Proofs.Sheet.Opening

/-! # Rows that are missing

A dense cursor puts the rows that a sheet leaves out before the ones it has. Compared with the
cursor that gives only the rows of the sheet it says the same, with the missing rows in between.

* **`Row.due`**: the first row number that may be missing behind some rows.
* **`Row.fillGaps_append`**: rows can be filled up one part after the other.
* **`Row.fillGaps_eq_flatMap`**: what comes before each row, seen from all rows before it.
* **`Cursor.run_dense`**: a dense cursor gives the rows that the other one gives, and before each of
  them the rows that are missing there. -/

namespace Xlsx

namespace Row

/-! ## Filling up -/

/-- **The first row that may be missing behind some rows**: the one behind the last of them, and
none before `first`. -/
def due (first : Nat) (rows : List Row) : Nat := max first ((rows.map (·.index + 1)).foldr max 0)

/-- Without rows, the first one is still due. -/
@[simp] theorem due_nil (first : Nat) : due first [] = first := by
  rw [due, List.map_nil, List.foldr_nil, Nat.max_zero]

/-- Behind a row the next one is due, but none before that which was. -/
@[simp] theorem due_cons (first : Nat) (row : Row) (rows : List Row) :
    due first (row :: rows) = due (max first (row.index + 1)) rows := by
  unfold due
  rw [List.map_cons, List.foldr_cons]
  omega

/-- Rows can be filled up one part after the other. -/
theorem fillGaps_append (emptyRow : Nat → Row) (first : Nat) (rows more : List Row) :
    fillGaps emptyRow first (rows ++ more) =
      fillGaps emptyRow first rows ++ fillGaps emptyRow (due first rows) more := by
  induction rows generalizing first with
  | nil => rw [due_nil, List.nil_append, fillGaps, List.nil_append]
  | cons row rows ih =>
    rw [List.cons_append, fillGaps, fillGaps, ih, due_cons, List.append_assoc, List.cons_append]

/-- What rows begin with stays at the front when they are filled up. -/
theorem fillGaps_prefix (emptyRow : Nat → Row) (first : Nat) {rows more : List Row}
    (h : rows <+: more) : fillGaps emptyRow first rows <+: fillGaps emptyRow first more := by
  obtain ⟨behind, rfl⟩ := h
  rw [fillGaps_append]
  exact List.prefix_append _ _

/-- **What comes before each row.** Filled up, the rows fall into blocks, each of a row at its end
and the rows before it that are missing behind all earlier ones. -/
theorem fillGaps_eq_flatMap (emptyRow : Nat → Row) (first : Nat) (rows : List Row) :
    ∃ blocks : List (List Row × Row),
      fillGaps emptyRow first rows = blocks.flatMap (fun block => block.1 ++ [block.2]) ∧
        blocks.map Prod.snd = rows ∧
        ∀ k block, blocks[k]? = some block →
          block.1 = (List.range' (due first (rows.take k))
            (block.2.index - due first (rows.take k))).map emptyRow := by
  induction rows generalizing first with
  | nil => exact ⟨[], rfl, rfl, fun k block h => by simp at h⟩
  | cons row rows ih =>
    obtain ⟨blocks, hfilled, hrows, hgaps⟩ := ih (max first (row.index + 1))
    refine ⟨((List.range' first (row.index - first)).map emptyRow, row) :: blocks, ?_, ?_, ?_⟩
    · rw [fillGaps, hfilled, List.flatMap_cons, List.append_assoc, List.singleton_append]
    · rw [List.map_cons, hrows]
    · intro k block hblock
      cases k with
      | zero =>
        rw [List.getElem?_cons_zero, Option.some.injEq] at hblock
        rw [← hblock, List.take_zero, due_nil]
      | succ k =>
        rw [List.getElem?_cons_succ] at hblock
        rw [List.take_succ_cons, due_cons]
        exact hgaps k block hblock

-- Nothing is missing before a row that comes late.
example : (fillGaps (⟨·, #[], none⟩) 1 [⟨3, #[], none⟩, ⟨0, #[], none⟩, ⟨5, #[], none⟩]).map (·.index) =
    [1, 2, 3, 0, 4, 5] := by decide

end Row

namespace Cursor

/-! ## Dense cursors -/

/-- A row that a sheet leaves out has the columns of the cursor and nothing in them. -/
theorem emptyRow_eq (c : Cursor) (index : Nat) :
    c.emptyRow index =
      ⟨index, Array.replicate (c.projection.elim 0 List.length) .empty, c.projection⟩ := by
  unfold emptyRow
  cases c.projection <;> rfl

/-- What a cursor gives of the first rows comes first. -/
theorem shown_prefix (c : Cursor) {rows more : List Row} (h : rows <+: more) :
    c.shown rows <+: c.shown more := by
  unfold shown
  split
  · exact Row.fillGaps_prefix _ _ h
  · exact h

/-- What a cursor reads is decided by its options other than whether it is dense. -/
theorem outcome_opened_dense (sheet : Sheet) (decoder : Decoder) (columns : Option (List Nat))
    (range : Option Range) (dense : Bool) (reading : Sheet.Reading) (dimension : Option Range) :
    (opened sheet decoder { columns, dense, range } reading dimension).outcome =
      (opened sheet decoder { columns, range } reading dimension).outcome := rfl

/-- **A dense cursor gives what the other one gives, and the missing rows.** Either neither can be
opened, for the same reason, or both end alike and the rows of the dense one fall into blocks. The
last rows of the blocks are those that the other cursor gives; before a row with number `i` there
are, in order, the rows from `m` up to `i` without anything in the columns of the cursor, where `m`
is the first row of the range, or the row behind all earlier rows of the sheet if that is greater. -/
theorem run_dense (sheet : Sheet) (decoder : Decoder) (s : Markup.Stream) (columns : Option (List Nat))
    (range : Option Range) :
    match ofStream? sheet decoder { columns, range } s,
      ofStream? sheet decoder { columns, dense := true, range } s with
    | .ok sparse, .ok dense =>
      dense.projection = sparse.projection ∧
        dense.run.error? = sparse.run.error? ∧
        ∃ blocks : List (List Row × Row),
          dense.run.rows = blocks.flatMap (fun block => block.1 ++ [block.2]) ∧
            blocks.map Prod.snd = sparse.run.rows ∧
            ∀ k block, blocks[k]? = some block →
              let m := max ((range.map (·.first.row)).getD 0)
                (((sparse.run.rows.take k).map (·.index + 1)).foldr max 0)
              block.1 = (List.range' m (block.2.index - m)).map fun index =>
                ⟨index, Array.replicate (dense.projection.elim 0 List.length) .empty, dense.projection⟩
    | .error cause, .error cause' => cause' = cause
    | _, _ => False := by
  rw [ofStream?_eq, ofStream?_eq]
  cases Sheet.Reading.ofStream? s with
  | error cause => rfl
  | ok p =>
    obtain ⟨reading, dimension⟩ := p
    -- Both cursors read the same; they differ in how they show it.
    show _ ∧ _
    refine ⟨rfl, ?_, ?_⟩
    · rw [(run_spec rfl).error?, (run_spec rfl).error?, outcome_opened_dense]
    · have hsparse : (opened sheet decoder { columns, range } reading dimension).run.rows =
          (opened sheet decoder { columns, range } reading dimension).outcome.rows.map
            (opened sheet decoder { columns, range } reading dimension).decodeRow := by
        rw [(run_spec rfl).rows, shown_of_sparse rfl]
      have hdense :
          (opened sheet decoder { columns, dense := true, range } reading dimension).run.rows =
            Row.fillGaps
              (opened sheet decoder { columns, dense := true, range } reading dimension).emptyRow
              ((range.map (·.first.row)).getD 0)
              (opened sheet decoder { columns, range } reading dimension).run.rows := by
        rw [(run_spec rfl).rows, hsparse, outcome_opened_dense]
        rfl
      have hempty :
          (opened sheet decoder { columns, dense := true, range } reading dimension).emptyRow =
            fun index => ⟨index, Array.replicate (projectionOf columns range |>.elim 0 List.length)
              .empty, projectionOf columns range⟩ := by
        funext index
        exact emptyRow_eq _ index
      rw [hdense, hempty]
      exact Row.fillGaps_eq_flatMap _ _ _

end Cursor

end Xlsx
