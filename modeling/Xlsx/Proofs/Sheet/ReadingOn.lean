import Xlsx.Proofs.Sheet.Pushdown

/-! # Reading on with other options

A cursor may be given other columns and another first row after a row that it has given. What it
gives from there on are the rows behind that one, as far as they are wanted now: no row is lost
between the two and none is given twice.

* **`Sheet.readRow_behind`**: where a reading of some rows stands in the reading of all of them.
* **`Cursor.Narrows.next_eq`**: the first wanted row, and the rows behind it.
* **`Cursor.Narrows.run`**: all that is given from some place on. -/

namespace Xlsx

namespace Sheet

open Markup (Apart)

section

variable {next top : Nat} {fault? : Option Markup.Fault} {e : Markup.Event}
  {rest events : List Markup.Event} {tag : Markup.Tag} {hasContent : Bool} {index : Nat}

/-- A row that is met where the reading of all rows does not fail can be read in full. -/
theorem readRows_row_of_ok (hend : ¬ endsRows e = true) (hopen : opensRow? e = some (tag, hasContent))
    (hindex : rowIndex? next tag.attributes = .ok index) (htop : ¬ top < index)
    (hok : (readRows (fun _ => true) 0 top fault? next (e :: rest)).ending.error? = none) :
    ∃ cells after, contentOf (fun _ => true) index fault? hasContent rest = .ok (cells, after) ∧
      readRows (fun _ => true) 0 top fault? next (e :: rest) =
        (readRows (fun _ => true) 0 top fault? (Text.successor index) after).cons ⟨index, cells⟩ := by
  have hall : (fun c : Nat => !decide (index < 0) && (fun _ => true) c) = fun _ => true := by
    funext c
    simp
  cases hcontent : contentOf (fun _ => true) index fault? hasContent rest with
  | error cause =>
    rw [readRows_badContent hend hopen hindex htop (by rw [hall]; exact hcontent)] at hok
    simp [Ending.error?] at hok
  | ok p =>
    obtain ⟨cells, after⟩ := p
    refine ⟨cells, after, rfl, ?_⟩
    rw [readRows_row hend hopen hindex htop (by rw [hall]; exact hcontent),
      if_neg (Nat.not_lt_zero index)]

/-- **Where a wanted row stands among all rows.** If all rows of a sheet can be read, then a row
that is given when only those from `first` to `last` and some columns are wanted is one of them,
without its other cells; the rows before it were not wanted, and the rows behind it are those that
are read from there on. -/
theorem readRow_behind {selects : Nat → Bool} {first last : Nat} {row : RawRow} (hlast : last ≤ top)
    (hapart : Apart "c" false events)
    (hok : (readRows (fun _ => true) 0 top fault? next events).ending.error? = none)
    (h : readRow selects first last fault? next events = .ok (some (row, rest))) :
    ∃ before raw,
      (readRows (fun _ => true) 0 top fault? next events).rows =
          before ++ raw :: (readRows (fun _ => true) 0 top fault? (Text.successor row.index) rest).rows ∧
        (readRows (fun _ => true) 0 top fault? (Text.successor row.index) rest).ending.error? = none ∧
        (∀ passed ∈ before, passed.index < first ∧ passed.index ≤ last) ∧
        row = raw.restrict selects ∧ first ≤ raw.index ∧ raw.index ≤ last ∧ Apart "c" false rest := by
  -- The reading of some rows drives the recursion. Where it passes over a row or gives it, the
  -- reading of all rows has that row in full, and goes on at the same place.
  fun_induction readRow selects first last fault? next events with
  | case1 | case2 | case4 | case5 | case6 => simp at h
  | case3 next e events hend hopen ih =>
    rw [readRows_other hend hopen] at hok ⊢
    exact ih hapart.2.outside hok h
  | case7 next e events hend tag hasContent hopen index hindex hover isSkipped cells after hcontent
      hlength hskip ih =>
    obtain ⟨all, behind, hall, hrows⟩ := readRows_row_of_ok hend hopen hindex (by omega) hok
    obtain ⟨hpart, hbehind⟩ :=
      contentOf_restrict (fun c => !isSkipped && selects c) hapart.2.outside hall
    rw [hpart] at hcontent
    simp only [Except.ok.injEq, Prod.mk.injEq] at hcontent
    obtain ⟨-, rfl⟩ := hcontent
    rw [hrows] at hok ⊢
    obtain ⟨before, raw, hsplit, hrest⟩ := ih hbehind hok h
    refine ⟨⟨index, all⟩ :: before, raw, ?_, hrest.1, ?_, hrest.2.2⟩
    · rw [Outcome.cons_rows, hsplit, List.cons_append]
    · intro passed hpassed
      rcases List.mem_cons.mp hpassed with rfl | hpassed
      · exact ⟨of_decide_eq_true hskip, Nat.not_lt.mp hover⟩
      · exact hrest.2.1 passed hpassed
  | case8 next e events hend tag hasContent hopen index hindex hover isSkipped cells after hcontent
      hlength hskip =>
    obtain ⟨all, behind, hall, hrows⟩ := readRows_row_of_ok hend hopen hindex (by omega) hok
    obtain ⟨hpart, hbehind⟩ :=
      contentOf_restrict (fun c => !isSkipped && selects c) hapart.2.outside hall
    rw [hpart] at hcontent
    simp only [Except.ok.injEq, Prod.mk.injEq, Option.some.injEq] at hcontent h
    obtain ⟨hcells, rfl⟩ := hcontent
    obtain ⟨rfl, rfl⟩ := h
    have hfirst : ¬ index < first := fun hlt => hskip (decide_eq_true hlt)
    have hwanted : isSkipped = false := by simpa using hskip
    rw [hrows] at hok ⊢
    refine ⟨[], ⟨index, all⟩, rfl, hok, fun passed hpassed => by simp at hpassed, ?_,
      Nat.not_lt.mp hfirst, Nat.not_lt.mp hover, hbehind⟩
    rw [← hcells, hwanted]
    rfl

end

end Sheet

/-- Where the wanted rows begin in rows of which the first ones are passed over. -/
theorem Row.wanted_append {first last : Nat} {before behind : List Row} {row : Row}
    (hbefore : ∀ passed ∈ before, passed.index < first ∧ passed.index ≤ last)
    (hfirst : first ≤ row.index) (hlast : row.index ≤ last) :
    ((before ++ row :: behind).takeWhile fun row => decide (row.index ≤ last)).dropWhile
        (fun row => decide (row.index < first)) =
      row :: behind.takeWhile fun row => decide (row.index ≤ last) := by
  rw [List.takeWhile_append_of_pos fun passed hmem => decide_eq_true (hbefore passed hmem).2,
    List.takeWhile_cons_of_pos (by simpa using hlast),
    List.dropWhile_append_of_pos fun passed hmem => decide_eq_true (hbefore passed hmem).1,
    List.dropWhile_cons_of_neg (by simpa using hfirst)]

namespace Cursor

namespace ReadsAll

variable {full : Cursor} (hfull : full.ReadsAll)

include hfull

/-- A cursor without options that has come to another place of its sheet. -/
theorem moved (reading : Sheet.Reading) : ReadsAll { full with reading } :=
  ⟨hfull.projection, hfull.firstRow, hfull.lastRow, hfull.dense, hfull.pending⟩

/-- Where a reading has ended there are no rows and no errors. -/
theorem run_of_stopped {reading : Sheet.Reading} (h : reading = .finished ∨ reading = .failed) :
    ({ full with reading } : Cursor).run.rows = [] ∧
      ({ full with reading } : Cursor).run.error? = none := by
  have hmoved := hfull.moved reading
  have houtcome : ({ full with reading } : Cursor).outcome = ⟨[], .beyond⟩ := by
    rcases h with rfl | rfl <;> rfl
  rw [hmoved.run_rows, hmoved.run_error?, houtcome]
  exact ⟨rfl, rfl⟩

end ReadsAll

namespace Narrows

variable {full c : Cursor} (h : full.Narrows c)

include h

/-- **All that is given from some place on**: the rows from there that are wanted, with the missing
ones before them if the cursor is dense. -/
theorem run (hpending : c.pending = none) (hok : full.run.error? = none) :
    c.run.rows = c.shown (Row.between c.firstRow c.lastRow c.projection full.run.rows) ∧
      c.run.error? = none := by
  have hrun := run_spec hpending
  obtain ⟨hrows, hend⟩ := h.rows (Or.inl hok)
  rw [hrun.rows, hrun.error?, hrows]
  exact ⟨rfl, hend⟩

/-- **A row that is given** is one of all rows, cut down to the columns of the cursor. The rows
before it were not wanted, and a cursor without options that goes on from there gives the rows
behind it. -/
theorem next_of_row {reading : Sheet.Reading} {raw : Sheet.RawRow} (hpending : c.pending = none)
    (hdense : c.dense = false) (hok : full.run.error? = none)
    (hnext : c.reading.next c.selects c.firstRow c.lastRow = (.ok (some raw), reading)) :
    ReadsAll { full with reading } ∧ reading.CellsApart ∧
      ({ full with reading } : Cursor).run.error? = none ∧
      ∃ before row, full.run.rows = before ++ row :: ({ full with reading } : Cursor).run.rows ∧
        (∀ passed ∈ before, passed.index < c.firstRow ∧ passed.index ≤ c.lastRow) ∧
        c.firstRow ≤ row.index ∧ row.index ≤ c.lastRow ∧
        c.next = (.ok (some (row.reduce c.projection)), c.advanced reading raw.cells.length) := by
  obtain ⟨next, rest, events, hstreaming, rfl, hrow⟩ := Sheet.Reading.streaming_of_row hnext
  have hmoved := h.all.moved (.streaming (Text.successor raw.index) ⟨events, rest.fault?⟩)
  have hfull : full.reading = .streaming next rest := h.reading.symm.trans hstreaming
  have houtcome : full.outcome =
      Sheet.readRows (fun _ => true) 0 (maxRows - 1) rest.fault? next rest.events := by
    rw [h.all.outcome_eq, hfull]
    rfl
  have hapart := h.apart
  rw [hfull] at hapart
  rw [h.all.run_error?, houtcome] at hok
  obtain ⟨before, whole, hsplit, hok, hbefore, rfl, hfirst, hlast, hbehind⟩ :=
    Sheet.readRow_behind h.lastRow_le hapart hok hrow
  refine ⟨hmoved, hbehind, ?_, before.map full.decodeRow, full.decodeRow whole, ?_, ?_, ?_, ?_, ?_⟩
  · rw [hmoved.run_error?, hmoved.outcome_eq]
    exact hok
  · rw [h.all.run_rows, houtcome, hsplit, hmoved.run_rows, hmoved.outcome_eq, List.map_append,
      List.map_cons]
    rfl
  · intro passed hpassed
    obtain ⟨raw, hraw, rfl⟩ := List.mem_map.mp hpassed
    rw [decodeRow_index]
    exact hbefore raw hraw
  · rw [decodeRow_index]
    exact hfirst
  · rw [decodeRow_index]
    exact hlast
  · rw [next_of_sparse hpending hdense hnext,
      decodeRow_restrict h.all.projection h.decoder h.nodup whole]

/-- Where no row is given, none of all rows was wanted. -/
theorem wanted_of_none {reading : Sheet.Reading} (hok : full.run.error? = none)
    (hnext : c.reading.next c.selects c.firstRow c.lastRow = (.ok none, reading)) :
    ((full.run.rows.takeWhile fun row => decide (row.index ≤ c.lastRow)).dropWhile
      fun row => decide (row.index < c.firstRow)) = [] := by
  have hnone : c.outcome.rows = [] := (Sheet.Reading.outcome_of_none hnext).1
  have hrows := (h.rows (Or.inl hok)).1
  rw [hnone, List.map_nil, Row.between, eq_comm, List.map_eq_nil_iff, List.filter_eq_nil_iff] at hrows
  rw [List.dropWhile_eq_nil_iff]
  intro row hrow
  simpa using hrows row hrow

/-- **The first wanted row and what comes behind it.** Of the rows up to the last wanted one, those
that lie before the first wanted row number are passed over. The first one left is given, cut down
to the columns of the cursor, and the others are all that a cursor without options still gives of
them from there on. -/
theorem next_eq (hpending : c.pending = none) (hdense : c.dense = false)
    (hok : full.run.error? = none) {wanted : List Row}
    (hwanted : wanted = (full.run.rows.takeWhile fun row => decide (row.index ≤ c.lastRow)).dropWhile
      fun row => decide (row.index < c.firstRow)) :
    ∃ (later : Cursor) (cells : Nat), later.ReadsAll ∧ later.reading.CellsApart ∧
      later.decoder = full.decoder ∧ later.run.error? = none ∧
      (later.run.rows.takeWhile fun row => decide (row.index ≤ c.lastRow)) = wanted.tail ∧
      c.next = (.ok (wanted.head?.map (Row.reduce c.projection)), c.advanced later.reading cells) := by
  match hnext : c.reading.next c.selects c.firstRow c.lastRow with
  | (.error cause, reading) =>
    -- The cursor sees no error that the one without options does not.
    have hend := (h.rows (Or.inl hok)).2
    have hfailed : c.outcome = ⟨[], .failed cause⟩ := (Sheet.Reading.outcome_of_error hnext).1
    rw [hfailed] at hend
    simp [Sheet.Ending.error?] at hend
  | (.ok none, reading) =>
    have hstopped := Sheet.Reading.stopped_of_none hnext
    obtain ⟨hrows, herror⟩ := h.all.run_of_stopped hstopped
    rw [hwanted, h.wanted_of_none hok hnext]
    refine ⟨{ full with reading }, 0, h.all.moved reading, ?_, rfl, herror, ?_, ?_⟩
    · rcases hstopped with rfl | rfl <;> trivial
    · rw [hrows]
      rfl
    · rw [next_of_none hpending hnext]
      rfl
  | (.ok (some raw), reading) =>
    obtain ⟨hmoved, hapart, herror, before, row, hrows, hbefore, hfirst, hlast, hgiven⟩ :=
      h.next_of_row hpending hdense hok hnext
    rw [hwanted, hrows, Row.wanted_append hbefore hfirst hlast]
    exact ⟨{ full with reading }, raw.cells.length, hmoved, hapart, rfl, herror, rfl, hgiven⟩

end Narrows

end Cursor

end Xlsx
