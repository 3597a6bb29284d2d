import Mathlib.Data.List.Basic
import Xlsx.Proofs.Sheet.Gaps
import Xlsx.Proofs.Sheet.Pushdown

/-! # Sheets that break off

The events of a sheet may be cut off anywhere. What is read of such a sheet begins as what is read
of the whole one, and that it breaks off is always reported, with the number of the row that was
begun last.

* **`Sheet.lastRow?`**: the number of the last row that is begun in some events.
* **`Sheet.readCells_cut`**, **`Sheet.readRows_cut`**: the cells of a row, and the rows of a sheet,
  of which only a part is there.
* **`Sheet.openRows_cut`**: what is before the rows, of which only a part is there.
* **`Cursor.run_cut`**: a cursor on a part of a sheet. -/

namespace Xlsx

namespace Sheet

open Markup (Apart)

/-! ## Cells and rows of a part -/

/-- **The number of the last row that is begun**, `last?` being the one before the events. -/
def lastRow? (last? : Option Nat) : List Markup.Event → Option Nat
  | [] => last?
  | e :: events =>
    match opensRow? e with
    | none => lastRow? last? events
    | some (tag, _) =>
      match rowIndex? (last?.elim 0 (· + 1)) tag.attributes with
      | .error _ => lastRow? last? events
      | .ok index => lastRow? (some index) events

/-- Without events the last row is that from before. -/
theorem lastRow?_nil (last? : Option Nat) : lastRow? last? [] = last? := by
  rw [lastRow?]

/-- What opens no row leaves it. -/
theorem lastRow?_other {e : Markup.Event} (h : opensRow? e = none) (last? : Option Nat)
    (events : List Markup.Event) : lastRow? last? (e :: events) = lastRow? last? events := by
  rw [lastRow?, h]

/-- A row that opens is the last one. -/
theorem lastRow?_row {e : Markup.Event} {tag : Markup.Tag} {hasContent : Bool} {last? : Option Nat}
    {index : Nat} (hopen : opensRow? e = some (tag, hasContent))
    (hindex : rowIndex? (last?.elim 0 (· + 1)) tag.attributes = .ok index)
    (events : List Markup.Event) : lastRow? last? (e :: events) = lastRow? (some index) events := by
  rw [lastRow?, hopen]
  simp only [hindex]

/-- A row is opened by its start tag, or by an empty tag if it has no content. -/
theorem opensRow?_tag {e : Markup.Event} {tag : Markup.Tag} {hasContent : Bool}
    (h : opensRow? e = some (tag, hasContent)) :
    tag.localName = "row" ∧ e = if hasContent then .start tag else .empty tag := by
  cases e with
  | start tag' =>
    rw [opensRow?, Option.ite_none_right_eq_some] at h
    obtain ⟨hname, hfound⟩ := h
    simp only [Option.some.injEq, Prod.mk.injEq] at hfound
    obtain ⟨rfl, rfl⟩ := hfound
    exact ⟨hname, rfl⟩
  | empty tag' =>
    rw [opensRow?, Option.ite_none_right_eq_some] at h
    obtain ⟨hname, hfound⟩ := h
    simp only [Option.some.injEq, Prod.mk.injEq] at hfound
    obtain ⟨rfl, rfl⟩ := hfound
    exact ⟨hname, rfl⟩
  | finish name => simp [opensRow?] at h
  | text content => simp [opensRow?] at h
  | literal content => simp [opensRow?] at h
  | aside => simp [opensRow?] at h

/-- Inside a row no other one is begun. -/
theorem opensRow?_inside {e : Markup.Event} {events : List Markup.Event}
    (h : Apart "row" true (e :: events)) : opensRow? e = none := by
  cases hopen : opensRow? e with
  | none => rfl
  | some p =>
    obtain ⟨tag, hasContent⟩ := p
    obtain ⟨hname, he⟩ := opensRow?_tag hopen
    have htag : e.isTag "row" = true := by
      rw [he]
      cases hasContent <;> simp [Markup.Event.isTag, hname]
    exact absurd (h.1 htag) (by decide)

/-- A row stays open up to its end tag. -/
theorem insideAfter_of_not_endsRow {e : Markup.Event} (h : ¬ endsRow e = true) :
    e.insideAfter "row" true = true := by
  cases e with
  | finish name => simpa [Markup.Event.insideAfter, endsRow] using h
  | start tag => rfl
  | empty tag => rfl
  | text content => rfl
  | literal content => rfl
  | aside => rfl

/-- **A row of which a part is there.** Either the events break off in the row, or the whole row is
there, and what is lost comes behind it. -/
theorem readCells_cut {selects : Nat → Bool} {row : Nat} {fault? : Option Markup.Fault} {scan : CellScan}
    {kept lost rest : List Markup.Event} {cells : List RawCell}
    (hapart : Apart "row" true (kept ++ lost))
    (h : readCells selects row fault? scan (kept ++ lost) = .ok (cells, rest)) :
    (readCells selects row none scan kept = .error (.truncated (some row)) ∧
        ∀ last?, lastRow? last? kept = last?) ∨
      ∃ mid, rest = mid ++ lost ∧ readCells selects row none scan kept = .ok (cells, mid) ∧
        ∀ last?, lastRow? last? kept = lastRow? last? mid := by
  -- Along what is kept the row is open, so none of its events begins another.
  induction kept generalizing scan with
  | nil => exact Or.inl ⟨rfl, lastRow?_nil⟩
  | cons e kept ih =>
    rw [List.cons_append] at hapart h
    have hopen : opensRow? e = none := opensRow?_inside hapart
    rw [readCells] at h
    by_cases hend : endsRow e = true
    · rw [if_pos hend] at h
      simp only [Except.ok.injEq, Prod.mk.injEq] at h
      refine Or.inr ⟨kept, h.2.symm, ?_, fun last? => lastRow?_other hopen last? kept⟩
      rw [readCells, if_pos hend, h.1]
    · rw [if_neg hend] at h
      cases hstep : scan.step selects e with
      | error cause => simp [hstep] at h
      | ok after =>
        simp only [hstep] at h
        have hinside : Apart "row" true (kept ++ lost) := by
          have hrest := hapart.2
          rwa [insideAfter_of_not_endsRow hend] at hrest
        rcases ih hinside h with ⟨hcut, hlast⟩ | ⟨mid, hrest, hcut, hlast⟩
        · refine Or.inl ⟨?_, fun last? => ?_⟩
          · rw [readCells, if_neg hend, hstep]
            exact hcut
          · rw [lastRow?_other hopen, hlast]
        · refine Or.inr ⟨mid, hrest, ?_, fun last? => ?_⟩
          · rw [readCells, if_neg hend, hstep]
            exact hcut
          · rw [lastRow?_other hopen, hlast]

/-- The content of a row of which a part is there. Behind it no row is open. -/
theorem contentOf_cut {selects : Nat → Bool} {row : Nat} {fault? : Option Markup.Fault}
    {e : Markup.Event} {tag : Markup.Tag} {hasContent : Bool} {kept lost rest : List Markup.Event}
    {cells : List RawCell} (hopen : opensRow? e = some (tag, hasContent))
    (hapart : Apart "row" false (e :: (kept ++ lost)))
    (h : contentOf selects row fault? hasContent (kept ++ lost) = .ok (cells, rest)) :
    Apart "row" false rest ∧
      ((contentOf selects row none hasContent kept = .error (.truncated (some row)) ∧
          ∀ last?, lastRow? last? kept = last?) ∨
        ∃ mid, rest = mid ++ lost ∧ contentOf selects row none hasContent kept = .ok (cells, mid) ∧
          ∀ last?, lastRow? last? kept = lastRow? last? mid) := by
  have hrest := hapart.2
  cases hasContent with
  | false =>
    simp only [contentOf, Bool.false_eq_true, if_false, Except.ok.injEq, Prod.mk.injEq] at h ⊢
    obtain ⟨rfl, rfl⟩ := h
    exact ⟨hrest.outside, Or.inr ⟨kept, rfl, ⟨rfl, rfl⟩, fun _ => rfl⟩⟩
  | true =>
    simp only [contentOf, if_true] at h ⊢
    obtain ⟨hname, he⟩ := opensRow?_tag hopen
    have hinside : e.insideAfter "row" false = true := by
      rw [he]
      simp [Markup.Event.insideAfter, hname]
    rw [hinside] at hrest
    refine ⟨?_, readCells_cut hrest h⟩
    obtain ⟨before, hbefore⟩ := readCells_behind h
    rw [hbefore] at hrest
    exact hrest.behind

/-- **The rows of a sheet of which a part is there.** If the reading of all of it meets the end of
the rows, and that is lost, then the reading of the part begins with the same rows, and it ends with
the report that the events break off behind the row that was begun last. -/
theorem readRows_cut {selects : Nat → Bool} {last next : Nat} {fault? : Option Markup.Fault}
    {kept lost behind : List Markup.Event} (hword : last + 1 < Text.wordSize)
    (hapart : Apart "row" false (kept ++ lost))
    (hend : (readRows selects 0 last fault? next (kept ++ lost)).ending = .closed behind)
    (hlost : behind.length < lost.length) :
    (readRows selects 0 last none next kept).rows <+:
        (readRows selects 0 last fault? next (kept ++ lost)).rows ∧
      (readRows selects 0 last none next kept).ending =
        .failed (.truncated (lastRow? (if next = 0 then none else some (next - 1)) kept)) := by
  have hnothing : ∀ (next : Nat) (o : Outcome), (readRows selects 0 last none next []).rows <+: o.rows ∧
      (readRows selects 0 last none next []).ending =
        .failed (.truncated (lastRow? (if next = 0 then none else some (next - 1)) [])) := by
    intro next o
    rw [readRows_nil, lastRow?_nil]
    exact ⟨List.nil_prefix, rfl⟩
  -- The reading of the whole drives the recursion; what is kept of its events is consumed along
  -- with it.
  generalize hevents : kept ++ lost = events at hapart hend
  fun_induction readRows selects 0 last fault? next events generalizing kept with
  | case1 next =>
    simp at hend
  | case2 next e rest hclosed =>
    cases kept with
    | nil => exact hnothing next _
    | cons e' kept =>
      -- The end of the rows is not among what is kept.
      simp only [List.cons_append, List.cons.injEq] at hevents
      simp only [Ending.closed.injEq] at hend
      have hlength : rest.length = kept.length + lost.length := by rw [← hevents.2, List.length_append]
      rw [hend] at hlength
      omega
  | case3 next e rest hclosed hopen ih =>
    cases kept with
    | nil => exact hnothing next _
    | cons e' kept =>
      simp only [List.cons_append, List.cons.injEq] at hevents
      obtain ⟨rfl, hrest⟩ := hevents
      rw [readRows_other hclosed hopen, lastRow?_other hopen]
      exact ih hrest hapart.2.outside hend
  | case4 next e rest hclosed tag hasContent hopen cause hindex => simp at hend
  | case5 next e rest hclosed tag hasContent hopen index hindex hover => simp at hend
  | case6 next e rest hclosed tag hasContent hopen index hindex hover cause hcontent => simp at hend
  | case7 next e rest hclosed tag hasContent hopen index hindex hover cells after hcontent hlength more
      hskip => exact absurd hskip (Nat.not_lt_zero index)
  | case8 next e rest hclosed tag hasContent hopen index hindex hover cells after hcontent hlength more
      hskip =>
    rename_i ih
    cases kept with
    | nil => exact hnothing next _
    | cons e' kept =>
      simp only [List.cons_append, List.cons.injEq] at hevents
      obtain ⟨rfl, rfl⟩ := hevents
      obtain ⟨hafter, hcut⟩ := contentOf_cut hopen hapart hcontent
      -- The number of a row that states none is the one behind the last row.
      have hnext : (if next = 0 then none else some (next - 1)).elim 0 (· + 1) = next := by
        split
        · rename_i hzero
          exact hzero.symm
        · show next - 1 + 1 = next
          omega
      rw [lastRow?_row hopen (by rw [hnext]; exact hindex)]
      rcases hcut with ⟨hcut, hlast⟩ | ⟨mid, rfl, hcut, hlast⟩
      · rw [readRows_badContent hclosed hopen hindex hover hcut, hlast]
        exact ⟨List.nil_prefix, rfl⟩
      · obtain ⟨hrows, hending⟩ := ih rfl hafter hend
        rw [readRows_row hclosed hopen hindex hover hcut, if_neg hskip, hlast]
        refine ⟨List.cons_prefix_cons.mpr ⟨rfl, hrows⟩, ?_⟩
        -- Among the wanted rows their numbers are counted without an overflow.
        rw [Outcome.cons_ending, hending, Text.successor_of_lt (by omega)]
        rfl

/-! ## What is before the rows -/

/-- Whether an event is the start tag of the rows. -/
def startsRows : Markup.Event → Bool
  | .start tag => tag.localName == "sheetData"
  | _ => false

/-- Behind the end of the root there are no rows. -/
theorem openRows_behind_root {fault? : Option Markup.Fault} {depth next : Nat} {sawRoot : Bool}
    {dimension declared : Option Range} {events : List Markup.Event} {rest : Markup.Stream}
    (hwf : Markup.WellFormedFrom [] true events) :
    openRows fault? depth sawRoot dimension events ≠ .ok (.streaming next rest, declared) := by
  induction events generalizing depth sawRoot dimension with
  | nil =>
    intro h
    rw [openRows] at h
    split at h <;> simp at h
  | cons e events ih =>
    cases e with
    | start tag => exact absurd (hwf.1 rfl) (by decide)
    | empty tag => exact absurd (hwf.1 rfl) (by decide)
    | finish name => exact absurd hwf.1 (by simp)
    | text content => exact ih hwf
    | literal content => exact ih hwf
    | aside => exact ih hwf

/-- **What is before the rows, of which a part is there.** If the rows of the whole can be reached,
then those of a part that breaks off before their start tag cannot, and it is reported that it
breaks off; behind the start tag the rows of the part are reached as those of the whole are. -/
theorem openRows_cut {fault? : Option Markup.Fault} {depth next : Nat} {sawRoot : Bool}
    {dimension declared : Option Range} {kept lost : List Markup.Event} {rest : Markup.Stream}
    {opened : List String} {rooted : Bool} (hwf : Markup.WellFormedFrom opened rooted (kept ++ lost))
    (hdepth : depth = opened.length) (hroot : sawRoot = true → rooted = true)
    (h : openRows fault? depth sawRoot dimension (kept ++ lost) = .ok (.streaming next rest, declared)) :
    match kept.dropWhile fun e => !startsRows e with
    | [] => openRows none depth sawRoot dimension kept = .error (.truncated none)
    | _ :: mid =>
      rest.events = mid ++ lost ∧
        openRows none depth sawRoot dimension kept = .ok (.streaming 0 ⟨mid, none⟩, declared) := by
  -- The depth is how many elements are open, and a root that was seen has begun: both are kept by
  -- each event.
  induction kept generalizing depth sawRoot dimension opened rooted with
  | nil =>
    rw [List.nil_append] at hwf h
    show openRows none depth sawRoot dimension [] = .error (.truncated none)
    -- The root is still open or has not begun: else no rows could follow.
    have hopen : ¬ (sawRoot = true ∧ depth = 0) := by
      rintro ⟨hsaw, hzero⟩
      have hopened : opened = [] := List.length_eq_zero_iff.mp (hdepth ▸ hzero)
      rw [hopened, hroot hsaw] at hwf
      exact openRows_behind_root hwf h
    have hcondition : (sawRoot && depth == 0) = false := by simpa using hopen
    rw [openRows]
    simp [hcondition, overAt]
  | cons e kept ih =>
    rw [List.cons_append] at hwf h
    cases e with
    | start tag =>
      obtain ⟨-, hwf⟩ := hwf
      simp only [openRows] at h ⊢
      by_cases hname : tag.localName = "sheetData"
      · have hstarts : startsRows (.start tag) = true := by simp [startsRows, hname]
        simp only [if_pos hname, Except.ok.injEq, Prod.mk.injEq, Reading.streaming.injEq] at h ⊢
        rw [List.dropWhile_cons_of_neg (by simp [hstarts])]
        obtain ⟨⟨-, rfl⟩, hdeclared⟩ := h
        exact ⟨rfl, ⟨trivial, rfl⟩, hdeclared⟩
      · have hstarts : startsRows (.start tag) = false := by simpa [startsRows] using hname
        rw [List.dropWhile_cons_of_pos (by simp [hstarts])]
        rw [if_neg hname] at h ⊢
        exact ih hwf (by rw [hdepth]; rfl) (fun _ => rfl) h
    | empty tag =>
      obtain ⟨-, hwf⟩ := hwf
      rw [List.dropWhile_cons_of_pos (by rfl)]
      simp only [openRows] at h ⊢
      split at h
      · simp at h
      · exact ih hwf hdepth (fun _ => rfl) h
      · exact ih hwf hdepth (fun _ => rfl) h
    | finish name =>
      obtain ⟨-, hwf⟩ := hwf
      exact ih hwf (by rw [List.length_tail, hdepth]) hroot h
    | text content => exact ih hwf hdepth hroot h
    | literal content => exact ih hwf hdepth hroot h
    | aside => exact ih hwf hdepth hroot h

end Sheet

namespace Cursor

/-! ## Cursors on a part of a sheet -/

/-- A cursor with other columns meets the end of the rows as the one without options does. -/
theorem Narrows.closed {full c : Cursor} (h : full.Narrows c) {behind : List Markup.Event}
    (hlast : c.lastRow = maxRows - 1) (hend : full.outcome.ending = .closed behind) :
    c.outcome.ending = .closed behind := by
  -- No row lies behind the last one of the sheet, so none ends the rows early.
  have hnone : full.outcome.rows.any (fun row => decide (c.lastRow < row.index)) = false := by
    rw [List.any_eq_false]
    intro raw hraw
    have hle := h.all.outcome_index_le hraw
    simp only [hlast, decide_eq_true_eq]
    omega
  have hclosed : (full.outcome.restrict c.selects c.firstRow c.lastRow).ending = .closed behind := by
    show (if _ then _ else _) = _
    rw [hnone]
    exact hend
  rw [h.outcome_restrict.2 (by rw [hclosed]; rfl)]
  exact hclosed

/-- A cursor that ends with an error gives nothing any more. -/
theorem run_final_of_error {c : Cursor} {cause : StreamError} (hpending : c.pending = none)
    (herror : c.run.error? = some cause) :
    c.run.final.state = .failed ∧ c.run.final.next = (.ok none, c.run.final) := by
  have hrun := run_spec hpending
  have hreading := hrun.reading (by rw [herror]; rfl)
  refine ⟨?_, next_of_failed hrun.pending hreading⟩
  rw [state, hrun.pending, hreading]
  rfl

/-- Two cursors with the same options, one before the rows of a sheet and one before a part of them. -/
theorem opened_cut {whole c : Cursor} {rest : Markup.Stream} {mid lost behind : List Markup.Event}
    (hreading : whole.reading = .streaming 0 rest) (hrest : rest.events = mid ++ lost)
    (hc : c = { whole with reading := .streaming 0 ⟨mid, none⟩ }) (hpending : whole.pending = none)
    (hfirst : whole.firstRow = 0) (hword : whole.lastRow + 1 < Text.wordSize)
    (hrows : Markup.Apart "row" false rest.events)
    (hclosed : whole.outcome.ending = .closed behind) (hlost : behind.length < lost.length) :
    c.run.rows <+: whole.run.rows ∧ c.run.error? = some (.truncated (Sheet.lastRow? none mid)) := by
  have hwhole : whole.outcome =
      Sheet.readRows whole.selects 0 whole.lastRow rest.fault? 0 (mid ++ lost) := by
    rw [outcome, hreading, hfirst, ← hrest]
    rfl
  have hpart : c.outcome = Sheet.readRows whole.selects 0 whole.lastRow none 0 mid := by
    rw [hc, ← hfirst]
    rfl
  rw [hrest] at hrows
  rw [hwhole] at hclosed
  obtain ⟨hbegins, hend⟩ := Sheet.readRows_cut hword hrows hclosed hlost
  rw [← hwhole, ← hpart] at hbegins
  rw [← hpart] at hend
  have hrun := run_spec (c := c) (by rw [hc]; exact hpending)
  refine ⟨?_, ?_⟩
  · have hshown : c.shown = whole.shown := by rw [hc]; rfl
    have hdecode : c.decodeRow = whole.decodeRow := by rw [hc]; rfl
    rw [hrun.rows, (run_spec hpending).rows, hshown, hdecode]
    exact whole.shown_prefix (hbegins.map whole.decodeRow)
  · rw [hrun.error?, hend]
    rfl

/-- **That a sheet breaks off is always reported, and its rows are given whole or not at all.** Let
the events of a document, no row or cell of which stands inside another, be read to the end of the
rows by a cursor without options, and let the end tag of the rows be lost with all that is behind
`kept`. If the start tag of the rows is lost as well, no cursor can be opened, and the report names
no row. Else a cursor with any columns, dense or not, gives some first ones of the rows that it
gives of the whole sheet, then the report that the events break off behind the row that was begun
last, and nothing afterwards. -/
theorem run_cut {sheet : Sheet} {decoder : Decoder} {s : Markup.Stream} {full : Cursor}
    {behind kept lost : List Markup.Event} (hwf : Markup.WellFormed s.events)
    (hrows : Markup.Apart "row" false s.events) (hcells : Markup.Apart "c" false s.events)
    (hopen : ofStream? sheet decoder {} s = .ok full) (hend : full.outcome.ending = .closed behind)
    (hcut : s.events = kept ++ lost) (hlost : behind.length < lost.length)
    (columns : Option (List Nat)) (dense : Bool) :
    match kept.dropWhile fun e => !Sheet.startsRows e with
    | [] => ofStream? sheet decoder { columns, dense } ⟨kept, none⟩ = .error (.truncated none)
    | _ :: mid =>
      ∃ whole c, ofStream? sheet decoder { columns, dense } s = .ok whole ∧
        ofStream? sheet decoder { columns, dense } ⟨kept, none⟩ = .ok c ∧
        c.run.rows <+: whole.run.rows ∧
        c.run.error? = some (.truncated (Sheet.lastRow? none mid)) ∧
        c.run.final.state = .failed ∧ c.run.final.next = (.ok none, c.run.final) := by
  obtain ⟨reading, dimension, hreading, rfl⟩ := ofStream?_eq_ok hopen
  have hapart := Sheet.Reading.cellsApart_of_open hreading hcells
  have hnarrows := narrows_opened sheet decoder { columns, dense } dimension hapart
    (fun range h => by simp at h)
  cases reading with
  | finished => exact absurd hend (by simp [outcome, opened, Sheet.Reading.outcome])
  | failed => exact absurd hend (by simp [outcome, opened, Sheet.Reading.outcome])
  | streaming next rest =>
    obtain ⟨rfl, -, before, hbefore⟩ := Sheet.openRows_behind hreading
    have hread : Sheet.openRows s.fault? 0 false none (kept ++ lost) =
        .ok (.streaming 0 rest, dimension) := by
      rw [← hcut]
      exact hreading
    have hpart := Sheet.openRows_cut (hcut ▸ hwf) rfl (fun h => h) hread
    cases hkept : kept.dropWhile fun e => !Sheet.startsRows e with
    | nil =>
      rw [hkept] at hpart
      have hnone : Sheet.Reading.ofStream? ⟨kept, none⟩ = .error (.truncated none) := hpart
      show ofStream? sheet decoder { columns, dense } ⟨kept, none⟩ = .error (.truncated none)
      rw [ofStream?_eq, hnone]
      rfl
    | cons e mid =>
      rw [hkept] at hpart
      obtain ⟨hrest, hpart⟩ := hpart
      have hstarted : Sheet.Reading.ofStream? ⟨kept, none⟩ =
          .ok (.streaming 0 ⟨mid, none⟩, dimension) := hpart
      -- The two cursors differ in what they have before them alone.
      obtain ⟨whole, hwhole⟩ : ∃ whole, whole =
        opened sheet decoder { columns, dense } (.streaming 0 rest) dimension := ⟨_, rfl⟩
      obtain ⟨c, hc⟩ : ∃ c : Cursor, c = { whole with reading := .streaming 0 ⟨mid, none⟩ } := ⟨_, rfl⟩
      rw [← hwhole] at hnarrows
      have hclosed := hnarrows.closed (by rw [hwhole]; rfl) hend
      have hpending : whole.pending = none := by rw [hwhole]; rfl
      have hword : whole.lastRow + 1 < Text.wordSize := by
        rw [hwhole]
        exact (by decide : maxRows - 1 + 1 < Text.wordSize)
      rw [hbefore] at hrows
      obtain ⟨hbegins, herror⟩ := opened_cut (by rw [hwhole]; rfl) hrest hc hpending
        (by rw [hwhole]; rfl) hword hrows.behind hclosed hlost
      refine ⟨whole, c, ?_, ?_, hbegins, herror, run_final_of_error (by rw [hc]; exact hpending) herror⟩
      · rw [ofStream?_eq, hreading, hwhole]
        rfl
      · rw [ofStream?_eq, hstarted, hc, hwhole]
        rfl

/-- A sheet of two rows that breaks off in the second one. -/
theorem run_cut_sample : ∃ whole c,
    ofStream? default default { columns := some [1], dense := true } Sheet.sampleStream = .ok whole ∧
      ofStream? default default { columns := some [1], dense := true }
        ⟨Sheet.sampleStream.events.take 11, none⟩ = .ok c ∧
      c.run.rows <+: whole.run.rows ∧ c.run.error? = some (.truncated (some 1)) ∧
      c.run.final.state = .failed ∧ c.run.final.next = (.ok none, c.run.final) := by
  have hend : (opened default default {}
      (.streaming 0 ⟨Sheet.sampleStream.events.drop 2, none⟩) none).outcome.ending =
        .closed [.finish "worksheet"] := by with_unfolding_all rfl
  have hcut : Sheet.sampleStream.events =
      Sheet.sampleStream.events.take 11 ++ Sheet.sampleStream.events.drop 11 := rfl
  exact run_cut (by decide +kernel) (by decide +kernel) (by decide +kernel) rfl hend hcut (by decide)
    (some [1]) true

end Cursor

end Xlsx
