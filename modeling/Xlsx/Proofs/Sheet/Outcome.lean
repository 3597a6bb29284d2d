import Xlsx.Proofs.Sheet.CellSelection
import Xlsx.Sheet.RowScan

/-! # All rows of a reading

A reading gives one row at a time. This file looks at all of them at once, as one recursion over the
events of a sheet, and compares readings that want more and fewer rows and columns.

* **`readRows`**: the rows that are given and how they end; `readRow_outcome` relates it to reading
  row by row.
* **`Outcome.restrict`**: the rows of a sheet from `first` to `last`, as far as the first one behind
  `last`, each with the selected ones of its cells.
* **`readRows_restrict`**: a reading that wants only these gives what is left of all rows, and does
  not end before them. -/

namespace Xlsx.Sheet

open Markup (Apart)

/-- How the rows of a reading end: with the end tag of the rows, with no more rows that are wanted,
or with an error. -/
inductive Ending
  | closed (behind : List Markup.Event)
  | beyond
  | failed (cause : StreamError)

/-- The error with which rows end, if there is one. -/
def Ending.error? : Ending → Option StreamError
  | closed _ => none
  | beyond => none
  | failed cause => some cause

/-- The rows that a reading gives, and how they end. -/
structure Outcome where
  rows : List RawRow
  ending : Ending

namespace Outcome

/-- The outcome with one more row in front. -/
def cons (row : RawRow) (o : Outcome) : Outcome := { o with rows := row :: o.rows }

/-- A row in front is the first of the rows. -/
@[simp] theorem cons_rows (row : RawRow) (o : Outcome) : (o.cons row).rows = row :: o.rows := rfl

/-- It does not change how they end. -/
@[simp] theorem cons_ending (row : RawRow) (o : Outcome) : (o.cons row).ending = o.ending := rfl

end Outcome

/-- **All rows with a number from `first` to `last`**, the first row having number `next` if it does
not state one. Rows before `first` are passed over, and the first one behind `last` ends them. -/
def readRows (selects : Nat → Bool) (first last : Nat) (fault? : Option Markup.Fault) (next : Nat)
    (events : List Markup.Event) : Outcome :=
  match events with
  | [] => ⟨[], .failed (overAt fault? (if next = 0 then none else some (next - 1)))⟩
  | e :: rest =>
    if endsRows e then ⟨[], .closed rest⟩
    else
      match opensRow? e with
      | none => readRows selects first last fault? next rest
      | some (tag, hasContent) =>
        match rowIndex? next tag.attributes with
        | .error cause => ⟨[], .failed (.malformed (some next) cause)⟩
        | .ok index =>
          if last < index then ⟨[], .beyond⟩
          else
            match h : contentOf (fun c => !decide (index < first) && selects c) index fault? hasContent
                rest with
            | .error cause => ⟨[], .failed cause⟩
            | .ok (cells, after) =>
              have : after.length < rest.length + 1 := Nat.lt_succ_of_le (contentOf_length h)
              let more := readRows selects first last fault? (Text.successor index) after
              if index < first then more else more.cons ⟨index, cells⟩
termination_by events.length
decreasing_by
  · exact Nat.lt_succ_self _
  · exact this

section Equations

variable {selects : Nat → Bool} {first last next : Nat} {fault? : Option Markup.Fault}
  {e : Markup.Event} {rest : List Markup.Event} {tag : Markup.Tag} {hasContent : Bool} {index : Nat}

/-- Where the events end the rows do, with a fault. -/
theorem readRows_nil : readRows selects first last fault? next [] =
    ⟨[], .failed (overAt fault? (if next = 0 then none else some (next - 1)))⟩ := by
  rw [readRows]

/-- The end tag of the rows. -/
theorem readRows_end (h : endsRows e = true) :
    readRows selects first last fault? next (e :: rest) = ⟨[], .closed rest⟩ := by
  rw [readRows, if_pos h]

/-- What is neither a row nor the end of the rows is passed over. -/
theorem readRows_other (hend : ¬ endsRows e = true) (hopen : opensRow? e = none) :
    readRows selects first last fault? next (e :: rest) =
      readRows selects first last fault? next rest := by
  rw [readRows, if_neg hend, hopen]

/-- A row whose number cannot be read. -/
theorem readRows_badIndex {cause : RowFault} (hend : ¬ endsRows e = true)
    (hopen : opensRow? e = some (tag, hasContent))
    (hindex : rowIndex? next tag.attributes = .error cause) :
    readRows selects first last fault? next (e :: rest) =
      ⟨[], .failed (.malformed (some next) cause)⟩ := by
  rw [readRows, if_neg hend, hopen]
  simp only [hindex]

/-- A row behind the wanted ones. -/
theorem readRows_over (hend : ¬ endsRows e = true) (hopen : opensRow? e = some (tag, hasContent))
    (hindex : rowIndex? next tag.attributes = .ok index) (hlast : last < index) :
    readRows selects first last fault? next (e :: rest) = ⟨[], .beyond⟩ := by
  rw [readRows, if_neg hend, hopen]
  simp only [hindex, if_pos hlast]

/-- A row with an error in its cells. -/
theorem readRows_badContent {cause : StreamError} (hend : ¬ endsRows e = true)
    (hopen : opensRow? e = some (tag, hasContent)) (hindex : rowIndex? next tag.attributes = .ok index)
    (hlast : ¬ last < index)
    (hcontent : contentOf (fun c => !decide (index < first) && selects c) index fault? hasContent rest =
      .error cause) :
    readRows selects first last fault? next (e :: rest) = ⟨[], .failed cause⟩ := by
  rw [readRows, if_neg hend, hopen]
  simp only [hindex, if_neg hlast]
  split
  · rename_i h
    rw [hcontent] at h
    simp only [Except.error.injEq] at h
    rw [h]
  · rename_i h
    rw [hcontent] at h
    simp at h

/-- A row that is read, and given unless it lies before the wanted ones. -/
theorem readRows_row {cells : List RawCell} {after : List Markup.Event} (hend : ¬ endsRows e = true)
    (hopen : opensRow? e = some (tag, hasContent)) (hindex : rowIndex? next tag.attributes = .ok index)
    (hlast : ¬ last < index)
    (hcontent : contentOf (fun c => !decide (index < first) && selects c) index fault? hasContent rest =
      .ok (cells, after)) :
    readRows selects first last fault? next (e :: rest) =
      if index < first then readRows selects first last fault? (Text.successor index) after
      else (readRows selects first last fault? (Text.successor index) after).cons ⟨index, cells⟩ := by
  rw [readRows, if_neg hend, hopen]
  simp only [hindex, if_neg hlast]
  split
  · rename_i h
    rw [hcontent] at h
    simp at h
  · rename_i h
    rw [hcontent] at h
    simp only [Except.ok.injEq, Prod.mk.injEq] at h
    rw [h.1, h.2]

end Equations

/-! ## Row by row -/

/-- What is known of all rows from a reading of the first one. -/
def Outcome.StartsAs (selects : Nat → Bool) (first last : Nat) (fault? : Option Markup.Fault)
    (o : Outcome) : Except StreamError (Option (RawRow × List Markup.Event)) → Prop
  | .error cause => o = ⟨[], .failed cause⟩
  | .ok none => o.rows = [] ∧ o.ending.error? = none
  | .ok (some (row, rest)) => o = (readRows selects first last fault? (Text.successor row.index) rest).cons row

/-- **All rows are the first one and those behind it.** -/
theorem readRow_outcome (selects : Nat → Bool) (first last : Nat) (fault? : Option Markup.Fault)
    (next : Nat) (events : List Markup.Event) :
    (readRows selects first last fault? next events).StartsAs selects first last fault?
      (readRow selects first last fault? next events) := by
  -- Up to the first wanted row both take the same branches.
  fun_induction readRow selects first last fault? next events with
  | case1 next => exact readRows_nil
  | case2 next e rest hend =>
    rw [readRows_end hend]
    exact ⟨rfl, rfl⟩
  | case3 next e rest hend hopen ih =>
    rw [readRows_other hend hopen]
    exact ih
  | case4 next e rest hend tag hasContent hopen cause hindex =>
    exact readRows_badIndex hend hopen hindex
  | case5 next e rest hend tag hasContent hopen index hindex hlast =>
    rw [readRows_over hend hopen hindex hlast]
    exact ⟨rfl, rfl⟩
  | case6 next e rest hend tag hasContent hopen index hindex hlast isSkipped cause hcontent =>
    exact readRows_badContent hend hopen hindex hlast hcontent
  | case7 next e rest hend tag hasContent hopen index hindex hlast isSkipped cells after hcontent
      hlength hskip ih =>
    rw [readRows_row hend hopen hindex hlast hcontent, if_pos (of_decide_eq_true hskip)]
    exact ih
  | case8 next e rest hend tag hasContent hopen index hindex hlast isSkipped cells after hcontent
      hlength hskip =>
    have hfirst : ¬ index < first := fun h => hskip (decide_eq_true h)
    rw [readRows_row hend hopen hindex hlast hcontent, if_neg hfirst]
    rfl

/-- All rows that a reading still gives. -/
def Reading.outcome (selects : Nat → Bool) (first last : Nat) : Reading → Outcome
  | streaming next rest => readRows selects first last rest.fault? next rest.events
  | finished => ⟨[], .beyond⟩
  | failed => ⟨[], .beyond⟩

section Next

variable {selects : Nat → Bool} {first last : Nat} {r after : Reading}

/-- A reading that gives a row goes on behind it. -/
theorem Reading.streaming_of_row {row : RawRow}
    (h : r.next selects first last = (.ok (some row), after)) :
    ∃ next rest events, r = .streaming next rest ∧
      after = .streaming (Text.successor row.index) ⟨events, rest.fault?⟩ ∧
      readRow selects first last rest.fault? next rest.events = .ok (some (row, events)) := by
  cases r with
  | finished => simp [Reading.next] at h
  | failed => simp [Reading.next] at h
  | streaming next rest =>
    simp only [Reading.next] at h
    cases hrow : readRow selects first last rest.fault? next rest.events with
    | error cause => simp [hrow] at h
    | ok found =>
      rw [hrow] at h
      cases found with
      | none => simp at h
      | some found =>
        simp only [Prod.mk.injEq, Except.ok.injEq, Option.some.injEq] at h
        obtain ⟨rfl, rfl⟩ := h
        exact ⟨next, rest, found.2, rfl, rfl, hrow⟩

/-- The row that a reading gives is the first one of all. -/
theorem Reading.outcome_of_row {row : RawRow}
    (h : r.next selects first last = (.ok (some row), after)) :
    r.outcome selects first last = (after.outcome selects first last).cons row := by
  obtain ⟨next, rest, events, rfl, rfl, hrow⟩ := Reading.streaming_of_row h
  have hstart := readRow_outcome selects first last rest.fault? next rest.events
  rw [hrow] at hstart
  exact hstart

/-- A reading that gives no row gives none afterwards, whatever is wanted then. -/
theorem Reading.stopped_of_none (h : r.next selects first last = (.ok none, after)) :
    after = .finished ∨ after = .failed := by
  cases r with
  | finished =>
    simp only [Reading.next, Prod.mk.injEq, true_and] at h
    exact Or.inl h.symm
  | failed =>
    simp only [Reading.next, Prod.mk.injEq, true_and] at h
    exact Or.inr h.symm
  | streaming next rest =>
    simp only [Reading.next] at h
    split at h
    · simp at h
    · simp only [Prod.mk.injEq, true_and] at h
      exact Or.inl h.symm
    · simp at h

/-- A reading that gives no row gives none at all, and has ended. -/
theorem Reading.outcome_of_none (h : r.next selects first last = (.ok none, after)) :
    (r.outcome selects first last).rows = [] ∧
      (r.outcome selects first last).ending.error? = none := by
  cases r with
  | finished => exact ⟨rfl, rfl⟩
  | failed => exact ⟨rfl, rfl⟩
  | streaming next rest =>
    have hstart := readRow_outcome selects first last rest.fault? next rest.events
    simp only [Reading.next] at h
    cases hrow : readRow selects first last rest.fault? next rest.events with
    | error cause => simp [hrow] at h
    | ok found =>
      rw [hrow] at hstart h
      cases found with
      | none => exact hstart
      | some found => simp at h

/-- A reading that gives an error gives no row, and has failed. -/
theorem Reading.outcome_of_error {cause : StreamError}
    (h : r.next selects first last = (.error cause, after)) :
    r.outcome selects first last = ⟨[], .failed cause⟩ ∧ after = .failed := by
  cases r with
  | finished => simp [Reading.next] at h
  | failed => simp [Reading.next] at h
  | streaming next rest =>
    have hstart := readRow_outcome selects first last rest.fault? next rest.events
    simp only [Reading.next] at h
    cases hrow : readRow selects first last rest.fault? next rest.events with
    | error cause =>
      rw [hrow] at hstart h
      simp only [Prod.mk.injEq, Except.error.injEq] at h
      obtain ⟨rfl, rfl⟩ := h
      exact ⟨hstart, rfl⟩
    | ok found =>
      rw [hrow] at h
      cases found <;> simp at h

end Next

/-! ## Some of the rows -/

/-- A row with only the selected ones of its cells. -/
def RawRow.restrict (selects : Nat → Bool) (row : RawRow) : RawRow :=
  { row with cells := CellScan.chosen selects row.cells }

/-- Leaving cells out does not move a row. -/
@[simp] theorem RawRow.restrict_index (selects : Nat → Bool) (row : RawRow) :
    (row.restrict selects).index = row.index := rfl

namespace Outcome

/-- **What is left of all rows** when only those from `first` to `last` are wanted, with the
selected ones of their cells: the first row behind `last` ends them. -/
def restrict (selects : Nat → Bool) (first last : Nat) (o : Outcome) : Outcome where
  rows := ((o.rows.takeWhile fun row => decide (row.index ≤ last)).filter fun row =>
    decide (first ≤ row.index)).map (RawRow.restrict selects)
  ending := if o.rows.any fun row => decide (last < row.index) then .beyond else o.ending

/-- A row behind the wanted ones ends them. -/
theorem restrict_cons_over {selects : Nat → Bool} {first last : Nat} {row : RawRow} {o : Outcome}
    (h : last < row.index) : (o.cons row).restrict selects first last = ⟨[], .beyond⟩ := by
  have hle : ¬ row.index ≤ last := by omega
  simp [restrict, h, hle]

/-- A row before the wanted ones leaves nothing. -/
theorem restrict_cons_skipped {selects : Nat → Bool} {first last : Nat} {row : RawRow} {o : Outcome}
    (hlast : ¬ last < row.index) (hfirst : row.index < first) :
    (o.cons row).restrict selects first last = o.restrict selects first last := by
  have hle : row.index ≤ last := by omega
  have hnot : ¬ first ≤ row.index := by omega
  simp [restrict, hlast, hle, hnot]

/-- A row that is wanted. -/
theorem restrict_cons {selects : Nat → Bool} {first last : Nat} {row : RawRow} {o : Outcome}
    (hlast : ¬ last < row.index) (hfirst : ¬ row.index < first) :
    (o.cons row).restrict selects first last =
      (o.restrict selects first last).cons (row.restrict selects) := by
  have hle : row.index ≤ last := by omega
  have hge : first ≤ row.index := by omega
  simp [restrict, cons, hlast, hle, hge]

/-- **An outcome that goes on from another.** It begins with the same rows, and it is the same
unless the other ends with an error. -/
def Extends (o part : Outcome) : Prop :=
  o.rows <+: part.rows ∧ (o.ending.error? = none → part = o)

/-- An outcome extends itself. -/
theorem extends_refl (o : Outcome) : o.Extends o := ⟨List.prefix_refl _, fun _ => rfl⟩

/-- What fails at once is extended by every outcome. -/
theorem extends_failed (cause : StreamError) (part : Outcome) :
    (Outcome.mk [] (.failed cause)).Extends part :=
  ⟨List.nil_prefix, fun h => by simp [Ending.error?] at h⟩

/-- The same row in front keeps one outcome extending the other. -/
theorem Extends.cons {o part : Outcome} (h : o.Extends part) (row : RawRow) :
    (o.cons row).Extends (part.cons row) := by
  refine ⟨?_, fun hnone => ?_⟩
  · rw [cons_rows, cons_rows]
    exact List.cons_prefix_cons.mpr ⟨rfl, h.1⟩
  · rw [h.2 hnone]

end Outcome

/-- What is behind a row stands behind its content. -/
theorem contentOf_behind {selects : Nat → Bool} {row : Nat} {fault? : Option Markup.Fault}
    {hasContent : Bool} {events rest : List Markup.Event} {cells : List RawCell}
    (h : contentOf selects row fault? hasContent events = .ok (cells, rest)) :
    ∃ before, events = before ++ rest := by
  cases hasContent with
  | false =>
    simp only [contentOf, Bool.false_eq_true, if_false, Except.ok.injEq, Prod.mk.injEq] at h
    exact ⟨[], h.2⟩
  | true =>
    simp only [contentOf, if_true] at h
    exact readCells_behind h

/-- The cells of a row can be read in part if they can be read in full. -/
theorem contentOf_restrict (selects : Nat → Bool) {row : Nat} {fault? : Option Markup.Fault}
    {hasContent : Bool} {events rest : List Markup.Event} {cells : List RawCell}
    (hapart : Apart "c" false events)
    (h : contentOf (fun _ => true) row fault? hasContent events = .ok (cells, rest)) :
    contentOf selects row fault? hasContent events = .ok (CellScan.chosen selects cells, rest) ∧
      Apart "c" false rest := by
  obtain ⟨before, hbefore⟩ := contentOf_behind h
  refine ⟨?_, (hbefore ▸ hapart).behind⟩
  cases hasContent with
  | false =>
    simp only [contentOf, Bool.false_eq_true, if_false, Except.ok.injEq, Prod.mk.injEq] at h ⊢
    obtain ⟨rfl, rfl⟩ := h
    exact ⟨rfl, rfl⟩
  | true =>
    simp only [contentOf, if_true] at h ⊢
    have hcells := readCells_restrict selects (CellScan.settled_start false) hapart h
    rwa [CellScan.restrict_start] at hcells

/-- **Reading some of the rows is reading all of them and leaving out the others.** If no cell
stands inside another, a reading that wants the rows from `first` to `last` and some columns of them
gives what `Outcome.restrict` leaves of all rows; only behind an error of the full reading it may go
on. -/
theorem readRows_restrict (selects : Nat → Bool) (first : Nat) {last top next : Nat}
    {fault? : Option Markup.Fault} {events : List Markup.Event} (hlast : last ≤ top)
    (hapart : Apart "c" false events) :
    ((readRows (fun _ => true) 0 top fault? next events).restrict selects first last).Extends
      (readRows selects first last fault? next events) := by
  -- One recursion drives both readings: they meet the same tags of rows and number them alike.
  fun_induction readRows (fun _ => true) 0 top fault? next events with
  | case1 next => exact Outcome.extends_failed _ _
  | case2 next e rest hend =>
    rw [readRows_end hend]
    exact Outcome.extends_refl _
  | case3 next e rest hend hopen ih =>
    rw [readRows_other hend hopen]
    exact ih hapart.2.outside
  | case4 next e rest hend tag hasContent hopen cause hindex => exact Outcome.extends_failed _ _
  | case5 next e rest hend tag hasContent hopen index hindex htop =>
    rw [readRows_over hend hopen hindex (by omega)]
    exact Outcome.extends_refl _
  | case6 next e rest hend tag hasContent hopen index hindex htop cause hcontent =>
    exact Outcome.extends_failed _ _
  | case7 next e rest hend tag hasContent hopen index hindex htop cells after hcontent hlength more
      hskip ih => exact absurd hskip (Nat.not_lt_zero index)
  | case8 next e rest hend tag hasContent hopen index hindex htop cells after hcontent hlength more
      hskip ih =>
    have hfull : contentOf (fun _ => true) index fault? hasContent rest = .ok (cells, after) := by
      simpa using hcontent
    by_cases hover : last < index
    · rw [readRows_over hend hopen hindex hover, Outcome.restrict_cons_over hover]
      exact Outcome.extends_refl _
    · obtain ⟨hpart, hafter⟩ :=
        contentOf_restrict (fun c => !decide (index < first) && selects c) hapart.2.outside hfull
      rw [readRows_row hend hopen hindex hover hpart]
      by_cases hfirst : index < first
      · rw [if_pos hfirst, Outcome.restrict_cons_skipped hover hfirst]
        exact ih hafter
      · rw [if_neg hfirst, Outcome.restrict_cons hover hfirst]
        have hcells : CellScan.chosen (fun c => !decide (index < first) && selects c) cells =
            CellScan.chosen selects cells := by
          simp [CellScan.chosen, hfirst]
        rw [hcells]
        exact (ih hafter).cons _

/-- No row is given that lies behind the wanted ones or before them. -/
theorem readRows_index {selects : Nat → Bool} {first last next : Nat} {fault? : Option Markup.Fault}
    {events : List Markup.Event} {row : RawRow}
    (h : row ∈ (readRows selects first last fault? next events).rows) :
    first ≤ row.index ∧ row.index ≤ last := by
  fun_induction readRows selects first last fault? next events with
  | case1 | case2 | case4 | case5 | case6 => simp at h
  | case3 next e rest hend hopen ih => exact ih h
  | case7 next e rest hend tag hasContent hopen index hindex hlast cells after hcontent hlength more
      hskip ih => exact ih h
  | case8 next e rest hend tag hasContent hopen index hindex hlast cells after hcontent hlength more
      hskip ih =>
    rcases List.mem_cons.mp h with rfl | hmem
    · exact ⟨Nat.not_lt.mp hskip, Nat.not_lt.mp hlast⟩
    · exact ih hmem

end Xlsx.Sheet
