import Xlsx.Proofs.Sheet.CellContent
import Xlsx.Proofs.Sheet.CellPlace
import Xlsx.Proofs.Sheet.CursorRun
import Xlsx.Proofs.Sheet.Projection

/-! # One cell cannot disturb another

Two sheets that differ in the type, the style and the content of one cell alone are read alike: the
rows are the same but for this cell, and they end in the same way.

* **`OneOff`**: lists that differ in one member at most.
* **`Sheet.readCells_alike`**, **`Sheet.readRows_alike`**: the readings of a row and of all rows.
* **`Cursor.run_alike`**: the runs of the cursors on both sheets. -/

namespace Xlsx

open Markup (Apart Event Tag)

/-! ## Lists that differ in one member -/

/-- **Two lists that differ in one member at most**, and there as `R` says. -/
inductive OneOff {α : Type} (R : α → α → Prop) : List α → List α → Prop
  | same (l : List α) : OneOff R l l
  | here {a b : α} (h : R a b) (rest : List α) : OneOff R (a :: rest) (b :: rest)
  | behind (a : α) {l l' : List α} (h : OneOff R l l') : OneOff R (a :: l) (a :: l')

namespace OneOff

variable {α β : Type} {R : α → α → Prop} {S : β → β → Prop} {l l' : List α}

/-- What stands in front of both makes no difference. -/
theorem append_left (front : List α) (h : OneOff R l l') : OneOff R (front ++ l) (front ++ l') := by
  induction front with
  | nil => exact h
  | cons a front ih => exact .behind a ih

/-- A function that keeps two things related may be applied to all. -/
theorem map {f : α → β} (hf : ∀ a b, R a b → S (f a) (f b)) (h : OneOff R l l') :
    OneOff S (l.map f) (l'.map f) := by
  induction h with
  | same l => exact .same _
  | here h rest => exact .here (hf _ _ h) _
  | behind a h ih => exact .behind _ ih

/-- What both members have in common is the same all along the lists. -/
theorem map_eq {f : α → β} (hf : ∀ a b, R a b → f b = f a) (h : OneOff R l l') :
    l'.map f = l.map f := by
  induction h with
  | same l => rfl
  | here h rest => rw [List.map_cons, List.map_cons, hf _ _ h]
  | behind a h ih => rw [List.map_cons, List.map_cons, ih]

end OneOff

namespace Sheet

variable {selects : Nat → Bool} {row : Nat} {fault? : Option Markup.Fault}

/-! ## Two sheets -/

/-- Two cells in one column. -/
def InColumn (column : Nat) (cell cell' : RawCell) : Prop :=
  cell.column = column ∧ cell'.column = column

/-- **How a row is read on two sheets** that go on with `X` and `Y` behind `before`, where a cell with
a given tag stands on both: both readings fail, or the row ends before this cell, or it ends at the
same place behind it. `p` is the place in front of `before`. -/
inductive CellsAlike (row : Nat) (tag : Tag) (X Y : List Event) (p : Place) (before : List Event) :
    Except StreamError (List RawCell × List Event) →
      Except StreamError (List RawCell × List Event) → Prop
  | failed (cause : StreamError) : CellsAlike row tag X Y p before (.error cause) (.error cause)
  | ahead (cells : List RawCell) (first rest : List Event) (hbefore : before = first ++ rest)
      (hrest : rest.length < before.length) (hrow : (first.foldl Place.step p).row? = none)
      (hnext : (first.foldl Place.step p).nextRow = p.nextRow) :
      CellsAlike row tag X Y p before (.ok (cells, rest ++ X)) (.ok (cells, rest ++ Y))
  | around (column : Nat) {cells cells' : List RawCell} (rest : List Event)
      (hplace : (before.foldl Place.step p).cell? tag = some (row, column))
      (hcells : OneOff (InColumn column) cells cells') :
      CellsAlike row tag X Y p before (.ok (cells, rest)) (.ok (cells', rest))

/-- One more event of the row in front. -/
theorem CellsAlike.behind {tag : Tag} {X Y before : List Event} {p : Place} {e : Event}
    {r r' : Except StreamError (List RawCell × List Event)} (hnext : (p.step e).nextRow = p.nextRow)
    (h : CellsAlike row tag X Y (p.step e) before r r') :
    CellsAlike row tag X Y p (e :: before) r r' := by
  cases h with
  | failed cause => exact .failed cause
  | ahead cells first rest hbefore hrest hrow hfirst =>
    exact .ahead cells (e :: first) rest (by rw [hbefore, List.cons_append])
      (Nat.lt_succ_of_lt hrest) hrow (hfirst.trans hnext)
  | around column rest hplace hcells => exact .around column rest hplace hcells

/-- Where a cell begins no other one is open. -/
theorem CellElement.not_inside (x : CellElement) {inside : Bool} {rest : List Event}
    (h : Apart "c" inside (x.events ++ rest)) : inside = false := by
  obtain ⟨tag, content?, hcell, havoids⟩ := x
  cases content? with
  | none => exact h.1 (by simp [Event.isTag, hcell])
  | some content => exact h.1 (by simp [Event.isTag, hcell])

/-- Two rows that differ in one cell, at most, at a given place. -/
def RawRow.Alike (place : Option (Nat × Nat)) (row row' : RawRow) : Prop :=
  ∃ column, place = some (row.index, column) ∧ row'.index = row.index ∧
    OneOff (InColumn column) row.cells row'.cells

/-- **Two outcomes that differ in one cell**, at most, at a given place. -/
structure Outcome.Alike (place : Option (Nat × Nat)) (o o' : Outcome) : Prop where
  ending : o'.ending.error? = o.ending.error?
  rows : OneOff (RawRow.Alike place) o.rows o'.rows

/-- An outcome is like itself. -/
theorem Outcome.Alike.refl (place : Option (Nat × Nat)) (o : Outcome) : o.Alike place o :=
  ⟨rfl, .same _⟩

/-- The same row in front of both, if it is given at all. -/
theorem Outcome.Alike.given {place : Option (Nat × Nat)} {o o' : Outcome} {isSkipped : Prop}
    [Decidable isSkipped] (h : o.Alike place o') (row : RawRow) :
    Outcome.Alike place (if isSkipped then o else o.cons row)
      (if isSkipped then o' else o'.cons row) := by
  split
  · exact h
  · exact ⟨h.ending, .behind row h.rows⟩

section Alike

variable {x y : CellElement} (hxy : x.Alike y) {after : List Event}

include hxy

/-- **A row with one of two cells.** -/
theorem readCells_alike {p : Place} {inside : Bool} {s : CellScan} {before : List Event}
    (hs : s.Settled inside) (hapart : Apart "c" inside (before ++ (x.events ++ after)))
    (hrow : p.row? = some row) (hcolumn : p.nextColumn = s.nextColumn) :
    CellsAlike row x.tag (x.events ++ after) (y.events ++ after) p before
      (readCells selects row fault? s (before ++ (x.events ++ after)))
      (readCells selects row fault? s (before ++ (y.events ++ after))) := by
  -- As far as the cell both read the same, and there no cell is open.
  induction before generalizing s p inside with
  | nil =>
    have hin := x.not_inside hapart
    subst hin
    have hidle := hs.eq_of_none hs.current_eq_none
    have hx := @CellElement.readCells_eq selects row fault? x s.nextColumn s.cells after
    have hy := @CellElement.readCells_eq selects row fault? y s.nextColumn s.cells after
    rw [List.nil_append, List.nil_append, hidle]
    rcases cellOfTag?_alike hxy s.nextColumn with
      ⟨cause, hcell, hcell'⟩ | ⟨cell, cell', hcell, hcell', hsame⟩
    · rw [hcell] at hx
      rw [hcell'] at hy
      rw [hx, hy]
      exact .failed _
    · rw [hcell] at hx
      rw [hcell'] at hy
      obtain ⟨raw, hraw, hx⟩ := hx
      obtain ⟨raw', hraw', hy⟩ := hy
      rw [hx, hy, hsame]
      by_cases hsel : selects cell.column = true
      · -- Each reading goes on with its own cell below those that follow.
        have htop : ∀ raw : RawCell,
            CellScan.mk (Text.successor cell.column) none none false 0 (raw :: s.cells) =
              CellScan.onTop { nextColumn := Text.successor cell.column } (raw :: s.cells) := fun _ => rfl
        rw [if_pos hsel, if_pos hsel, htop raw, htop raw', readCells_onTop, readCells_onTop]
        cases readCells selects row fault? { nextColumn := Text.successor cell.column } after with
        | error cause => exact .failed cause
        | ok r =>
          refine .around cell.column r.2 ?_ ?_
          · rw [List.foldl_nil, Place.cell?, hrow, hcolumn, hcell]
          · exact OneOff.append_left _ (.here ⟨hraw, hraw'.trans hsame⟩ _)
      · rw [if_neg hsel, if_neg hsel]
        cases readCells selects row fault? _ after with
        | error cause => exact .failed cause
        | ok r =>
          refine .around cell.column r.2 ?_ (.same _)
          rw [List.foldl_nil, Place.cell?, hrow, hcolumn, hcell]
  | cons e before ih =>
    rw [List.cons_append] at hapart
    rw [List.cons_append, List.cons_append, readCells, readCells]
    by_cases hend : endsRow e = true
    · rw [if_pos hend, if_pos hend]
      have hstep := Place.step_endsRow hrow hend
      exact .ahead s.cells [e] before rfl (Nat.lt_succ_self _) (by simp [hstep]) (by simp [hstep])
    · rw [if_neg hend, if_neg hend]
      cases hstep : s.step selects e with
      | error cause => exact .failed _
      | ok next =>
        have hend : endsRow e = false := by simpa using hend
        obtain ⟨hrow', hnext', hcolumn'⟩ := Place.step_inside hrow hcolumn hend hstep
        exact (ih (hs.step_settled hapart.1 hstep) hapart.2 hrow' hcolumn').behind hnext'

/-- **All rows with one of two cells.** -/
theorem readRows_alike {first last : Nat} {p : Place} {before : List Event}
    (hapart : Apart "c" false (before ++ (x.events ++ after))) (hrow : p.row? = none) :
    Outcome.Alike ((before.foldl Place.step p).cell? x.tag)
      (readRows selects first last fault? p.nextRow (before ++ (x.events ++ after)))
      (readRows selects first last fault? p.nextRow (before ++ (y.events ++ after))) := by
  -- What is before the cell becomes less with each event between two rows and with each whole row.
  induction hlength : before.length using Nat.strongRecOn generalizing before p with
  | ind n ih =>
    match before with
    | [] =>
      rw [List.nil_append, List.nil_append, x.readRows_eq, y.readRows_eq]
      exact .refl _ _
    | e :: before =>
      rw [List.cons_append] at hapart
      rw [List.cons_append, List.cons_append, List.foldl_cons]
      have hlt : before.length < n := by
        rw [← hlength]
        exact Nat.lt_succ_self _
      by_cases hend : endsRows e = true
      · rw [readRows_end hend, readRows_end hend]
        exact ⟨rfl, .same _⟩
      cases hopen : opensRow? e with
      | none =>
        rw [readRows_other hend hopen, readRows_other hend hopen, Place.step_other hrow hopen]
        exact ih before.length hlt hapart.2.outside hrow rfl
      | some opened =>
        obtain ⟨tag, hasContent⟩ := opened
        cases hindex : rowIndex? p.nextRow tag.attributes with
        | error cause =>
          rw [readRows_badIndex hend hopen hindex, readRows_badIndex hend hopen hindex]
          exact .refl _ _
        | ok index =>
          by_cases hlast : last < index
          · rw [readRows_over hend hopen hindex hlast, readRows_over hend hopen hindex hlast]
            exact .refl _ _
          rw [Place.step_row hrow hopen hindex]
          cases hasContent with
          | false =>
            rw [readRows_row hend hopen hindex hlast rfl, readRows_row hend hopen hindex hlast rfl]
            exact (ih before.length hlt hapart.2.outside (p := ⟨Text.successor index, none, 0⟩) rfl rfl).given _
          | true =>
            have hcells := @readCells_alike (fun c => !decide (index < first) && selects c) index
              fault? x y hxy after ⟨Text.successor index, some index, 0⟩ false {} before
              (CellScan.settled_start false) hapart.2.outside rfl rfl
            generalize hX : readCells _ index fault? {} (before ++ (x.events ++ after)) = r at hcells
            generalize hY : readCells _ index fault? {} (before ++ (y.events ++ after)) = r' at hcells
            cases hcells with
            | failed cause =>
              rw [readRows_badContent hend hopen hindex hlast hX,
                readRows_badContent hend hopen hindex hlast hY]
              exact .refl _ _
            | ahead cells front rest hbefore hrest hrow' hnext =>
              rw [readRows_row hend hopen hindex hlast hX, readRows_row hend hopen hindex hlast hY]
              have hapart' : Apart "c" false (front ++ (rest ++ (x.events ++ after))) := by
                rw [← List.append_assoc, ← hbefore]
                exact hapart.2.outside
              have hmore := ih rest.length (Nat.lt_trans hrest hlt) hapart'.behind hrow' rfl
              rw [hnext, ← List.foldl_append, ← hbefore] at hmore
              exact hmore.given _
            | around column rest hplace hcells =>
              rw [readRows_row hend hopen hindex hlast hX, readRows_row hend hopen hindex hlast hY]
              by_cases hfirst : index < first
              · rw [if_pos hfirst, if_pos hfirst]
                exact .refl _ _
              · rw [if_neg hfirst, if_neg hfirst]
                exact ⟨rfl, .here ⟨column, hplace, rfl, hcells⟩ _⟩

end Alike

/-- **What stands before the rows with one of two cells**: the cell is passed over, or the rows begin
before it. -/
theorem openRows_alike (x y : CellElement) (before after : List Event) (depth : Nat) (sawRoot : Bool)
    (dimension : Option Range) :
    openRows fault? depth sawRoot dimension (before ++ (y.events ++ after)) =
        openRows fault? depth sawRoot dimension (before ++ (x.events ++ after)) ∨
      ∃ declared mid, (before.dropWhile fun e => !startsRows e).tail = mid ∧
        openRows fault? depth sawRoot dimension (before ++ (x.events ++ after)) =
          .ok (.streaming 0 ⟨mid ++ (x.events ++ after), fault?⟩, declared) ∧
        openRows fault? depth sawRoot dimension (before ++ (y.events ++ after)) =
          .ok (.streaming 0 ⟨mid ++ (y.events ++ after), fault?⟩, declared) := by
  induction before generalizing depth sawRoot dimension with
  | nil =>
    left
    rw [List.nil_append, List.nil_append, x.openRows_eq, y.openRows_eq]
  | cons e before ih =>
    rw [List.cons_append, List.cons_append]
    cases e with
    | start tag =>
      by_cases hname : tag.localName = "sheetData"
      · right
        have hstarts : startsRows (.start tag) = true := by simp [startsRows, hname]
        refine ⟨dimension, before, ?_, ?_, ?_⟩
        · rw [List.dropWhile_cons_of_neg (by simp [hstarts]), List.tail_cons]
        · rw [openRows, if_pos hname]
        · rw [openRows, if_pos hname]
      · have hstarts : startsRows (.start tag) = false := by simpa [startsRows] using hname
        rw [List.dropWhile_cons_of_pos (by simp [hstarts]), openRows, openRows, if_neg hname,
          if_neg hname]
        exact ih _ _ _
    | empty tag =>
      rw [List.dropWhile_cons_of_pos (by rfl), openRows, openRows]
      split
      · exact Or.inl rfl
      · exact ih _ _ _
      · exact ih _ _ _
    | finish name =>
      rw [List.dropWhile_cons_of_pos (by rfl)]
      exact ih _ _ _
    | text content =>
      rw [List.dropWhile_cons_of_pos (by rfl)]
      exact ih _ _ _
    | literal content =>
      rw [List.dropWhile_cons_of_pos (by rfl)]
      exact ih _ _ _
    | aside =>
      rw [List.dropWhile_cons_of_pos (by rfl)]
      exact ih _ _ _

end Sheet

/-! ## Rows and runs -/

/-- What a row is apart from its cells: its number, its columns and how many cells it has. -/
def Row.shape (row : Row) : Nat × Option (List Nat) × Nat := (row.index, row.columns, row.size)

/-- **Two rows that differ in one cell**, at most, at a given place. -/
structure Row.Alike (place : Option (Nat × Nat)) (row row' : Row) : Prop where
  shape : row'.shape = row.shape
  cells : ∃ column, place = some (row.index, column) ∧
    ∀ other, other ≠ column → row'.get? other = row.get? other

/-- Rows that are alike have one number. -/
theorem Row.Alike.index {place : Option (Nat × Nat)} {row row' : Row} (h : row.Alike place row') :
    row'.index = row.index :=
  congrArg Prod.fst h.shape

/-- Rows that differ in one cell differ in it with all gaps filled. -/
theorem Row.fillGaps_alike {place : Option (Nat × Nat)} (emptyRow : Nat → Row) (first : Nat)
    {rows rows' : List Row} (h : OneOff (Row.Alike place) rows rows') :
    OneOff (Row.Alike place) (Row.fillGaps emptyRow first rows) (Row.fillGaps emptyRow first rows') := by
  induction h generalizing first with
  | same rows => exact .same _
  | here h rest =>
    rw [fillGaps, fillGaps, h.index]
    exact .append_left _ (.here h _)
  | behind row h ih =>
    rw [fillGaps, fillGaps]
    exact .append_left _ (.behind row (ih _))

/-- One cell is that of no other column. -/
theorem Decoder.cellAt_oneOff (d : Decoder) {column other : Nat} {cells cells' : List RawCell}
    (h : OneOff (Sheet.InColumn column) cells cells') (hne : other ≠ column) :
    d.cellAt cells' other = d.cellAt cells other := by
  induction h with
  | same cells => rfl
  | here h rest =>
    rw [cellAt_cons, cellAt_cons, h.1, h.2, if_neg (Ne.symm hne), if_neg (Ne.symm hne)]
  | behind cell h ih => rw [cellAt_cons, cellAt_cons, ih]

namespace Cursor

/-- **A row with one of two cells, decoded.** -/
theorem decodeRow_alike {c : Cursor} (hnodup : ∀ columns, c.projection = some columns → columns.Nodup)
    {place : Option (Nat × Nat)} {raw raw' : Sheet.RawRow} (h : raw.Alike place raw') :
    (c.decodeRow raw).Alike place (c.decodeRow raw') := by
  obtain ⟨column, hplace, hindex, hcells⟩ := h
  have hsame : ∀ other, other ≠ column →
      c.decoder.cellAt raw'.cells other = c.decoder.cellAt raw.cells other := by
    intro other hne
    exact c.decoder.cellAt_oneOff hcells hne
  cases hprojection : c.projection with
  | some columns =>
    have hrow := decodeRow_projected hprojection (hnodup columns hprojection)
    rw [hrow raw, hrow raw']
    refine ⟨?_, column, hplace, fun other hne => ?_⟩
    · simp [Row.shape, Row.size, hindex]
    · simp only [Row.get?]
      cases hi : columns.idxOf? other with
      | none => rfl
      | some i =>
        obtain ⟨hlt, hother, -⟩ := List.idxOf?_eq_some_iff.mp hi
        simp [hother, hlt, hsame other hne]
  | none =>
    have hwidth : ∀ cells : List RawCell, cells.foldl (fun n cell => max n (cell.column + 1)) 0 =
        (cells.map RawCell.column).foldl (fun n column => max n (column + 1)) 0 := by
      intro cells
      rw [List.foldl_map]
    have hcolumns : raw'.cells.map RawCell.column = raw.cells.map RawCell.column :=
      hcells.map_eq fun _ _ h => h.2.trans h.1.symm
    have hlength : raw'.cells.foldl (fun n cell => max n (cell.column + 1)) 0 =
        raw.cells.foldl (fun n cell => max n (cell.column + 1)) 0 := by
      rw [hwidth, hwidth, hcolumns]
    rw [decodeRow, decodeRow, hprojection]
    refine ⟨?_, column, hplace, fun other hne => ?_⟩
    · simp only [Row.shape, Row.size, size_decoded, hindex, hlength]
    · simp only [Row.get?, hlength]
      by_cases hlt : other < raw.cells.foldl (fun n cell => max n (cell.column + 1)) 0
      · rw [getElem?_decoded _ hlt, getElem?_decoded _ hlt, hsame other hne]
      · rw [Array.getElem?_eq_none (by rw [size_decoded]; omega),
          Array.getElem?_eq_none (by rw [size_decoded]; omega)]

/-- What a cursor makes of rows that differ in one cell differs in this cell. -/
theorem shown_alike (c : Cursor) {place : Option (Nat × Nat)} {rows rows' : List Row}
    (h : OneOff (Row.Alike place) rows rows') :
    OneOff (Row.Alike place) (c.shown rows) (c.shown rows') := by
  unfold shown
  split
  · exact Row.fillGaps_alike _ _ h
  · exact h

/-- **Two runs that differ in one cell**, at most, at a given place: the rows have the same numbers,
columns and lengths, and the same cells but for that one; they end in the same way, and the same
number of cells is decoded. -/
structure RunsAlike (place : Option (Nat × Nat)) (r r' : Run) : Prop where
  shapes : r'.rows.map Row.shape = r.rows.map Row.shape
  rows : OneOff (Row.Alike place) r.rows r'.rows
  error? : r'.error? = r.error?
  decodedCells : r'.final.decodedCells = r.final.decodedCells

/-- A run is like itself. -/
theorem RunsAlike.refl (place : Option (Nat × Nat)) (r : Run) : RunsAlike place r r :=
  ⟨rfl, .same _, rfl, rfl⟩

/-- Cursors with the same options run alike on readings that differ in one cell. -/
theorem run_alike_of_outcome {c : Cursor} (hpending : c.pending = none)
    (hnodup : ∀ columns, c.projection = some columns → columns.Nodup) {place : Option (Nat × Nat)}
    {reading : Sheet.Reading}
    (h : c.outcome.Alike place (Cursor.outcome { c with reading })) :
    RunsAlike place c.run (Cursor.run { c with reading }) := by
  have hx := run_spec hpending
  have hy := @run_spec { c with reading } hpending
  have hrows : OneOff (Row.Alike place) c.run.rows (Cursor.run { c with reading }).rows := by
    rw [hx.rows, hy.rows]
    exact c.shown_alike (h.rows.map fun _ _ hrow => decodeRow_alike hnodup hrow)
  refine ⟨hrows.map_eq fun _ _ hrow => hrow.shape, hrows, ?_, ?_⟩
  · rw [hx.error?, hy.error?, h.ending]
  · have hcount : (Cursor.cellCount { c with reading }) = c.cellCount := by
      rw [cellCount, cellCount, List.length_flatMap, List.length_flatMap]
      refine congrArg List.sum (h.rows.map_eq fun row row' hrow => ?_)
      obtain ⟨column, -, -, hcells⟩ := hrow
      have hlength := congrArg List.length (hcells.map_eq (f := fun _ => ()) fun _ _ _ => rfl)
      simpa using hlength
    rw [decodedCells_run, decodedCells_run, hcount]

/-- **One cell cannot disturb another.** Of two sheets that are equal but for the type, the style and
the content of one cell, and in which no cell stands inside another, either none can be opened, for
the same reason, or both can, with any options; and then the runs differ in that cell of its row at
most. One of the cells may be empty, so no content of a cell makes a run fail. -/
theorem run_alike (sheet : Sheet) (decoder : Decoder) (options : CursorOptions)
    {x y : Sheet.CellElement} (hxy : x.Alike y) {before after : List Event}
    (hapart : Apart "c" false (before ++ (x.events ++ after))) (fault? : Option Markup.Fault) :
    match ofStream? sheet decoder options ⟨before ++ (x.events ++ after), fault?⟩,
      ofStream? sheet decoder options ⟨before ++ (y.events ++ after), fault?⟩ with
    | .error cause, .error cause' => cause' = cause
    | .ok c, .ok c' => RunsAlike (Sheet.cellPlace? before x.tag) c.run c'.run
    | _, _ => False := by
  rw [ofStream?_eq, ofStream?_eq, Sheet.Reading.ofStream?, Sheet.Reading.ofStream?]
  simp only
  rcases @Sheet.openRows_alike fault? x y before after 0 false none with
    hsame | ⟨declared, mid, hmid, hx, hy⟩
  · rw [hsame]
    cases Sheet.openRows fault? 0 false none (before ++ (x.events ++ after)) with
    | error cause => rfl
    | ok p => exact .refl _ _
  · rw [hx, hy]
    -- What is left of the events stands behind some of them.
    obtain ⟨front, hfront⟩ : mid <:+ before := by
      rw [← hmid]
      exact (List.tail_suffix _).trans (List.dropWhile_suffix _)
    rw [← hfront, List.append_assoc] at hapart
    have hrows : Sheet.Outcome.Alike (Sheet.cellPlace? before x.tag)
        (Cursor.outcome (opened sheet decoder options
          (.streaming 0 ⟨mid ++ (x.events ++ after), fault?⟩) declared))
        (Cursor.outcome (opened sheet decoder options
          (.streaming 0 ⟨mid ++ (y.events ++ after), fault?⟩) declared)) := by
      rw [Sheet.cellPlace?, hmid]
      exact Sheet.readRows_alike hxy hapart.behind rfl
    exact run_alike_of_outcome rfl (fun columns h => projectionOf_nodup h) hrows

end Cursor

/-- A truth value, and a cell of the same type whose value is none. -/
def Sheet.CellElement.sample (value : String) : CellElement where
  tag := ⟨"c", [.ok ⟨"t", [0x62]⟩]⟩
  content? := some (.element ⟨"v", []⟩ (.text (.ok value) .done) .done)
  isCell := by decide +kernel
  avoids := by
    intro content hcontent
    rw [← Option.mem_some.mp hcontent, Markup.Content.avoids_element]
    exact ⟨by decide +kernel, rfl, rfl⟩

/-- What stands before and behind it in a sheet. -/
def Sheet.CellElement.sampleBefore : List Event :=
  [.start ⟨"sheetData", []⟩, .start ⟨"row", []⟩, .empty ⟨"c", []⟩]

def Sheet.CellElement.sampleAfter : List Event := [.finish "row", .finish "sheetData"]

/-- The cell that cannot be decoded stands in the second column of the first row. -/
theorem Cursor.run_alike_sample : ∃ c c',
    ofStream? ⟨"S", 0, 1, .visible, "s"⟩ ⟨{}, {}, .since1900⟩ {} ⟨Sheet.CellElement.sampleBefore ++
      ((Sheet.CellElement.sample "1").events ++ Sheet.CellElement.sampleAfter), none⟩ = .ok c ∧
    ofStream? ⟨"S", 0, 1, .visible, "s"⟩ ⟨{}, {}, .since1900⟩ {} ⟨Sheet.CellElement.sampleBefore ++
      ((Sheet.CellElement.sample "x").events ++ Sheet.CellElement.sampleAfter), none⟩ = .ok c' ∧
    RunsAlike (some (0, 1)) c.run c'.run := by
  refine ⟨_, _, rfl, rfl, ?_⟩
  have hplace : Sheet.cellPlace? Sheet.CellElement.sampleBefore (Sheet.CellElement.sample "1").tag =
      some (0, 1) := by decide +kernel
  have hapart : Apart "c" false (Sheet.CellElement.sampleBefore ++
      ((Sheet.CellElement.sample "1").events ++ Sheet.CellElement.sampleAfter)) := by decide +kernel
  have halike : (Sheet.CellElement.sample "1").Alike (Sheet.CellElement.sample "x") := rfl
  rw [← hplace]
  exact Cursor.run_alike ⟨"S", 0, 1, .visible, "s"⟩ ⟨{}, {}, .since1900⟩ {} halike hapart none

end Xlsx
