import Mathlib.Data.Finset.Sort
import Mathlib.Order.Interval.Finset.Nat
import Xlsx.Proofs.Sheet.Outcome
import Xlsx.Sheet.Cursor

/-! # Which columns are read, and what a row holds in them

The columns of a cursor are computed with lists: filtered, sorted, and freed of repetitions. Here
they are seen as a set, and the row that a cursor gives is seen column by column.

* **`CursorOptions.columnSet`**: the wanted columns as a finite set; `projectionOf_eq_sort` says
  that the columns of a cursor are its members in ascending order.
* **`Decoder.cellAt`**: the cell of a column among the stored cells of a row.
* **`Row.reduce`**: a row cut down to some columns.
* **`Cursor.decodeRow_restrict`**: decoding the selected cells of a row gives the row that is
  decoded in full, cut down to the columns of the cursor. -/

namespace Xlsx

/-! ## Ascending lists of columns -/

/-- What repetitions are erased from comes behind what is done. -/
theorem eraseReps_loop_append (a : Nat) (as done : List Nat) :
    List.eraseRepsBy.loop (· == ·) a as done =
      done.reverse ++ List.eraseRepsBy.loop (· == ·) a as [] := by
  induction as generalizing a done with
  | nil => simp [List.eraseRepsBy.loop]
  | cons b as ih =>
    by_cases hab : a = b
    · subst hab
      simpa [List.eraseRepsBy.loop] using ih a done
    · have hne : (a == b) = false := by simpa using hab
      simp only [List.eraseRepsBy.loop, hne]
      rw [ih b (a :: done), ih b [a]]
      simp

/-- The members of an ascending list without its repetitions, which then is strictly ascending. -/
theorem eraseReps_loop {a : Nat} {as : List Nat} (h : (a :: as).Pairwise (· ≤ ·)) :
    (List.eraseRepsBy.loop (· == ·) a as []).Pairwise (· < ·) ∧
      ∀ x, x ∈ List.eraseRepsBy.loop (· == ·) a as [] ↔ x ∈ a :: as := by
  induction as generalizing a with
  | nil => simp [List.eraseRepsBy.loop]
  | cons b as ih =>
    obtain ⟨hfirst, hrest⟩ := List.pairwise_cons.mp h
    by_cases hab : a = b
    · subst hab
      have hloop := ih hrest
      simpa [List.eraseRepsBy.loop] using hloop
    · have hne : (a == b) = false := by simpa using hab
      obtain ⟨hsorted, hmem⟩ := ih hrest
      have hloop : List.eraseRepsBy.loop (· == ·) a (b :: as) [] =
          a :: List.eraseRepsBy.loop (· == ·) b as [] := by
        simp only [List.eraseRepsBy.loop, hne]
        rw [eraseReps_loop_append b as [a]]
        rfl
      rw [hloop]
      refine ⟨List.pairwise_cons.mpr ⟨fun x hx => ?_, hsorted⟩, fun x => by simp [hmem]⟩
      -- The list ascends and its second member is another one, so the first lies below all others.
      have hab' : a < b := Nat.lt_of_le_of_ne (hfirst b List.mem_cons_self) hab
      rcases List.mem_cons.mp ((hmem x).mp hx) with rfl | hx
      · exact hab'
      · exact Nat.lt_of_lt_of_le hab' (List.rel_of_pairwise_cons hrest hx)

/-- **A sorted list without repetitions is its set in ascending order.** -/
theorem eraseReps_mergeSort (columns : List Nat) :
    columns.mergeSort.eraseReps = columns.toFinset.sort := by
  have hsorted : columns.mergeSort.Pairwise (· ≤ ·) := by
    have h : columns.mergeSort.Pairwise fun a b => decide (a ≤ b) = true :=
      List.pairwise_mergeSort (by intro a b c; simpa using Nat.le_trans)
        (by intro a b; simpa using Nat.le_total a b) columns
    simpa using h
  have hset : columns.mergeSort.eraseReps.Pairwise (· < ·) ∧
      ∀ x, x ∈ columns.mergeSort.eraseReps ↔ x ∈ columns := by
    cases hlist : columns.mergeSort with
    | nil =>
      have hnone : ∀ x, x ∉ columns := by
        intro x hx
        have hx : x ∈ columns.mergeSort := List.mem_mergeSort.mpr hx
        rw [hlist] at hx
        exact absurd hx List.not_mem_nil
      exact ⟨List.Pairwise.nil, fun x => iff_of_false List.not_mem_nil (hnone x)⟩
    | cons a as =>
      rw [hlist] at hsorted
      obtain ⟨hlt, hmem⟩ := eraseReps_loop hsorted
      refine ⟨hlt, fun x => (hmem x).trans ?_⟩
      rw [← hlist, List.mem_mergeSort]
  have hfinset : columns.mergeSort.eraseReps.toFinset = columns.toFinset := by
    ext x
    rw [List.mem_toFinset, List.mem_toFinset, hset.2]
  have hnodup : columns.mergeSort.eraseReps.Nodup := hset.1.imp fun h => Nat.ne_of_lt h
  rw [← hfinset]
  exact ((List.toFinset_sort (· ≤ ·) hnodup).mpr (hset.1.imp Nat.le_of_lt)).symm

/-! ## The columns of a cursor -/

/-- **The wanted columns**: the requested ones, or all, within the range; none when all columns
there are are wanted. -/
def CursorOptions.columnSet (o : CursorOptions) : Option (Finset Nat) :=
  match o.columns, o.range with
  | none, none => none
  | some columns, none => some columns.toFinset
  | none, some range => some (Finset.Icc range.first.column range.last.column)
  | some columns, some range =>
      some (columns.toFinset ∩ Finset.Icc range.first.column range.last.column)

/-- The columns of a range are those from its first to its last one. -/
theorem mem_columns_iff {range : Range} {column : Nat} :
    column ∈ range.columns ↔ column ∈ Finset.Icc range.first.column range.last.column := by
  simp only [Range.columns, List.mem_range'_1, Finset.mem_Icc]
  omega

/-- **The columns of a cursor are the wanted ones in ascending order.** -/
theorem projectionOf_eq_sort (o : CursorOptions) :
    projectionOf o.columns o.range = o.columnSet.map Finset.sort := by
  unfold projectionOf CursorOptions.columnSet
  cases o.columns with
  | none =>
    cases o.range with
    | none => rfl
    | some range =>
      have hset : range.columns.toFinset = Finset.Icc range.first.column range.last.column := by
        ext column
        rw [List.mem_toFinset, mem_columns_iff]
      have hsorted : range.columns.Pairwise (· < ·) := by
        unfold Range.columns
        exact List.pairwise_lt_range'
      have hnodup : range.columns.Nodup := hsorted.imp fun h => Nat.ne_of_lt h
      simp only [Option.map_some]
      rw [← hset, (List.toFinset_sort (· ≤ ·) hnodup).mpr (hsorted.imp Nat.le_of_lt)]
  | some columns =>
    cases o.range with
    | none =>
      simp only [Option.map_some]
      rw [eraseReps_mergeSort]
    | some range =>
      have hset : (columns.filter range.hasColumn).toFinset =
          columns.toFinset ∩ Finset.Icc range.first.column range.last.column := by
        ext column
        simp [Range.hasColumn]
      simp only [Option.map_some]
      rw [eraseReps_mergeSort, hset]

section Projection

variable {columns : Option (List Nat)} {range : Option Range} {read : List Nat}
  (h : projectionOf columns range = some read)

include h

/-- A cursor reads its columns in ascending order. -/
theorem projectionOf_ascending : read.Pairwise (· < ·) := by
  rw [projectionOf_eq_sort ⟨columns, false, range⟩] at h
  obtain ⟨set, -, rfl⟩ := Option.map_eq_some_iff.mp h
  exact set.sortedLT_sort.pairwise

/-- A cursor reads no column twice. -/
theorem projectionOf_nodup : read.Nodup := (projectionOf_ascending h).imp Nat.ne_of_lt

/-- **The columns that are read** are those of the range that are asked for. -/
theorem mem_projectionOf {column : Nat} : column ∈ read ↔
    (∀ r ∈ range, r.first.column ≤ column ∧ column ≤ r.last.column) ∧
      ∀ asked ∈ columns, column ∈ asked := by
  rw [projectionOf_eq_sort ⟨columns, false, range⟩] at h
  obtain ⟨set, hset, rfl⟩ := Option.map_eq_some_iff.mp h
  rw [Finset.mem_sort]
  cases columns with
  | none =>
    cases range with
    | none => simp [CursorOptions.columnSet] at hset
    | some r =>
      rw [← Option.some.inj hset, Finset.mem_Icc]
      simp
  | some asked =>
    cases range with
    | none =>
      rw [← Option.some.inj hset, List.mem_toFinset]
      simp
    | some r =>
      rw [← Option.some.inj hset, Finset.mem_inter, List.mem_toFinset, Finset.mem_Icc]
      simp [and_comm]

end Projection

/-! ## The cells of a row -/

/-- **The cell of a column** among stored cells, the last first: of two cells of one column the
later counts, and where there is none the cell is empty. -/
def Decoder.cellAt (d : Decoder) (cells : List RawCell) (column : Nat) : Cell :=
  ((cells.find? fun cell => cell.column == column).map d.decodeLossy).getD .empty

/-- Without cells every column is empty. -/
theorem Decoder.cellAt_nil (d : Decoder) (column : Nat) : d.cellAt [] column = .empty := rfl

/-- The first cell of a column is the one that counts. -/
theorem Decoder.cellAt_cons (d : Decoder) (cell : RawCell) (cells : List RawCell) (column : Nat) :
    d.cellAt (cell :: cells) column =
      if cell.column = column then d.decodeLossy cell else d.cellAt cells column := by
  by_cases h : cell.column = column
  · simp [cellAt, h]
  · have hne : (cell.column == column) = false := by simpa using h
    simp [cellAt, h, hne]

/-- Cells that are not selected count for nothing in the columns that are. -/
theorem Decoder.cellAt_chosen (d : Decoder) {selects : Nat → Bool} (cells : List RawCell) {column : Nat}
    (h : selects column = true) :
    d.cellAt (Sheet.CellScan.chosen selects cells) column = d.cellAt cells column := by
  induction cells with
  | nil => rfl
  | cons cell cells ih =>
    rw [cellAt_cons]
    by_cases hcolumn : cell.column = column
    · rw [Sheet.CellScan.chosen, List.filter_cons, if_pos (by rw [hcolumn, h]), cellAt_cons,
        if_pos hcolumn, if_pos hcolumn]
    · rw [if_neg hcolumn, ← ih, Sheet.CellScan.chosen, List.filter_cons]
      split
      · rw [cellAt_cons, if_neg hcolumn]
      · rfl

/-- **A row cut down to some columns**, in the order given, with an empty cell where the row has
none; a row in all columns when none are given. -/
def Row.reduce (columns : Option (List Nat)) (row : Row) : Row :=
  match columns with
  | none => row
  | some columns =>
      ⟨row.index, (columns.map fun column => (row.get? column).getD .empty).toArray, some columns⟩

/-- Where all columns are wanted a row stays as it is. -/
@[simp] theorem Row.reduce_none (row : Row) : row.reduce none = row := rfl

/-- Leaving columns out does not move a row. -/
@[simp] theorem Row.reduce_index (columns : Option (List Nat)) (row : Row) :
    (row.reduce columns).index = row.index := by
  cases columns <;> rfl

/-- Putting one more cell at the place of its column changes the row in that column alone. -/
theorem map_set_of_idxOf? {columns : List Nat} (hnodup : columns.Nodup) {column i : Nat}
    (h : columns.idxOf? column = some i) (cellOf : Nat → Cell) (cell : Cell) :
    (columns.map cellOf).set i cell = columns.map fun c => if column = c then cell else cellOf c := by
  obtain ⟨hi, hcolumn, -⟩ := List.idxOf?_eq_some_iff.mp h
  refine List.ext_getElem (by simp) fun j hj hj' => ?_
  rw [List.length_set, List.length_map] at hj
  rw [List.getElem_set, List.getElem_map, List.getElem_map]
  by_cases hij : i = j
  · subst hij
    rw [if_pos rfl, if_pos hcolumn.symm]
  · have hne : column ≠ columns[j] := by
      rw [← hcolumn]
      exact fun heq => hij ((hnodup.getElem_inj_iff).mp heq)
    rw [if_neg hij, if_neg hne]

namespace Cursor

/-- Nor does decoding. -/
@[simp] theorem decodeRow_index (c : Cursor) (raw : Sheet.RawRow) :
    (c.decodeRow raw).index = raw.index := by
  unfold decodeRow
  split <;> rfl

/-- Cells put one after the other, the first of them last in the list, to the places of their
columns. -/
theorem foldr_projected (d : Decoder) {columns : List Nat} (hnodup : columns.Nodup)
    (cells : List RawCell) :
    (cells.foldr (fun cell row =>
      match columns.idxOf? cell.column with
      | some i => row.setIfInBounds i (d.decodeLossy cell)
      | none => row) (Array.replicate columns.length .empty)) =
    (columns.map (d.cellAt cells)).toArray := by
  -- The first cell of the list is put last, and hides the others of its column.
  induction cells with
  | nil =>
    have hempty : d.cellAt [] = fun _ => .empty := rfl
    rw [List.foldr_nil, hempty, List.map_const', List.toArray_replicate]
  | cons cell cells ih =>
    have hcell : d.cellAt (cell :: cells) = fun column =>
        if cell.column = column then d.decodeLossy cell else d.cellAt cells column := by
      funext column
      exact d.cellAt_cons cell cells column
    rw [List.foldr_cons, ih, hcell]
    cases hplace : columns.idxOf? cell.column with
    | some i =>
      simp only [List.setIfInBounds_toArray]
      rw [map_set_of_idxOf? hnodup hplace]
    | none =>
      have hnot := List.idxOf?_eq_none_iff.mp hplace
      refine congrArg List.toArray (List.map_congr_left fun column hmem => ?_)
      have hne : cell.column ≠ column := by
        rintro rfl
        exact hnot hmem
      rw [if_neg hne]

/-- **A row with a projection** holds for each of its columns the cell of that column. -/
theorem decodeRow_projected {c : Cursor} {columns : List Nat} (hprojection : c.projection = some columns)
    (hnodup : columns.Nodup) (raw : Sheet.RawRow) :
    c.decodeRow raw =
      ⟨raw.index, (columns.map (c.decoder.cellAt raw.cells)).toArray, some columns⟩ := by
  have hcells := foldr_projected c.decoder hnodup raw.cells
  rw [decodeRow, hprojection]
  exact congrArg (Row.mk raw.index · (some columns)) hcells

/-- Cells are put into a row without making it longer. -/
theorem size_decoded (d : Decoder) (width : Nat) (cells : List RawCell) :
    (cells.foldr (fun cell row => row.setIfInBounds cell.column (d.decodeLossy cell))
      (Array.replicate width .empty)).size = width := by
  induction cells with
  | nil => simp
  | cons cell cells ih => rw [List.foldr_cons, Array.size_setIfInBounds, ih]

/-- A row in all columns holds the stored cells, each in its column. -/
theorem getElem?_decoded (d : Decoder) {width column : Nat} (h : column < width)
    (cells : List RawCell) :
    (cells.foldr (fun cell row => row.setIfInBounds cell.column (d.decodeLossy cell))
      (Array.replicate width .empty))[column]? = some (d.cellAt cells column) := by
  induction cells with
  | nil => simp [Decoder.cellAt_nil, h]
  | cons cell cells ih =>
    rw [List.foldr_cons, Array.getElem?_setIfInBounds, size_decoded, Decoder.cellAt_cons]
    by_cases hcolumn : cell.column = column
    · rw [if_pos hcolumn, if_pos hcolumn, if_pos (hcolumn ▸ h)]
    · rw [if_neg hcolumn, if_neg hcolumn, ih]

/-- The width of a row reaches beyond each of its cells. -/
theorem column_lt_width {cells : List RawCell} {cell : RawCell} (h : cell ∈ cells) (n : Nat) :
    cell.column < cells.foldl (fun n cell => max n (cell.column + 1)) n := by
  have hge : ∀ (cells : List RawCell) (n : Nat),
      n ≤ cells.foldl (fun n cell => max n (cell.column + 1)) n := by
    intro cells
    induction cells with
    | nil => exact fun n => Nat.le_refl n
    | cons cell cells ih => exact fun n => Nat.le_trans (Nat.le_max_left _ _) (ih _)
  induction cells generalizing n with
  | nil => exact absurd h List.not_mem_nil
  | cons first cells ih =>
    rcases List.mem_cons.mp h with rfl | hmem
    · exact Nat.lt_of_lt_of_le (Nat.lt_of_lt_of_le (Nat.lt_succ_self _) (Nat.le_max_right n _))
        (hge cells _)
    · exact ih hmem _

/-- **The cell of a column in a row that was read in full.** -/
theorem get?_decodeRow {c : Cursor} (hprojection : c.projection = none) (raw : Sheet.RawRow)
    (column : Nat) :
    ((c.decodeRow raw).get? column).getD .empty = c.decoder.cellAt raw.cells column := by
  rw [decodeRow, hprojection]
  simp only [Row.get?]
  by_cases h : column < raw.cells.foldl (fun n cell => max n (cell.column + 1)) 0
  · rw [getElem?_decoded _ h]
    rfl
  · -- Behind the last cell there is none that belongs to the column.
    have hnone : raw.cells.find? (fun cell => cell.column == column) = none := by
      rw [List.find?_eq_none]
      intro cell hmem hcolumn
      have heq : cell.column = column := by simpa using hcolumn
      exact h (heq ▸ column_lt_width hmem 0)
    rw [Array.getElem?_eq_none (by rw [size_decoded]; exact Nat.not_lt.mp h), Decoder.cellAt, hnone]
    rfl

/-- **Decoding what is selected is decoding all and cutting down.** -/
theorem decodeRow_restrict {full c : Cursor} (hfull : full.projection = none)
    (hdecoder : c.decoder = full.decoder)
    (hnodup : ∀ columns, c.projection = some columns → columns.Nodup) (raw : Sheet.RawRow) :
    c.decodeRow (raw.restrict c.selects) = (full.decodeRow raw).reduce c.projection := by
  cases hprojection : c.projection with
  | none =>
    have hall : raw.restrict c.selects = raw := by
      unfold Sheet.RawRow.restrict Sheet.CellScan.chosen selects
      simp [hprojection]
    rw [hall, Row.reduce_none, decodeRow, decodeRow, hprojection, hfull, hdecoder]
  | some columns =>
    have hselects : ∀ column ∈ columns, c.selects column = true := by
      intro column hmem
      unfold selects
      simp [hprojection, hmem]
    rw [decodeRow_projected hprojection (hnodup columns hprojection), Row.reduce]
    have hcells : columns.map (c.decoder.cellAt (raw.restrict c.selects).cells) =
        columns.map fun column => ((full.decodeRow raw).get? column).getD .empty := by
      refine List.map_congr_left fun column hmem => ?_
      rw [get?_decodeRow hfull, hdecoder]
      exact Decoder.cellAt_chosen _ _ (hselects column hmem)
    rw [hcells, decodeRow_index, Sheet.RawRow.restrict_index]

end Cursor

end Xlsx
