import Xlsx.Proofs.Sheet.CursorRun
import Xlsx.Proofs.Sheet.Opening
import Xlsx.Proofs.Sheet.Truncation

/-! # Sheets that are read the same

Two sheets may differ in their events and still be read the same: with the same used range, the same
rows and the same end, whatever the options of the reading are.

* **`Agree`**: two computations that fail alike or give related results.
* **`Sheet.Outcome.Same`**, **`Sheet.Reading.Same`**: the same rows with the same end, for some options
  and for all of them.
* **`Sheet.RowRelation.readRows_same`**: sheets whose rows are related row by row are read the same.
* **`Sheet.openRows_cons_agree`**: an event before the rows that both sheets have.
* **`Cursor.run_same`**: readings that are the same give the same runs.
* **`Cursor.ofStream?_agree`**: it is enough to look at what stands before the rows and at the rows. -/

namespace Xlsx

/-- **Two computations that come out alike**: with the same error, or with related results. -/
inductive Agree {ε α β : Type} (R : α → β → Prop) : Except ε α → Except ε β → Prop
  | error (cause : ε) : Agree R (.error cause) (.error cause)
  | ok {a : α} {b : β} (h : R a b) : Agree R (.ok a) (.ok b)

namespace Agree

variable {ε α β γ δ : Type} {R : α → β → Prop} {S : γ → δ → Prop} {x : Except ε α} {y : Except ε β}

/-- Related results may be turned into related results. -/
theorem map {f : α → γ} {g : β → δ} (h : Agree R x y) (hmap : ∀ a b, R a b → S (f a) (g b)) :
    Agree S (x.map f) (y.map g) := by
  cases h with
  | error cause => exact .error cause
  | ok hab => exact .ok (hmap _ _ hab)

/-- What comes out like an error is this error. -/
theorem eq_error {cause : ε} (h : Agree R (.error cause) y) : y = .error cause := by
  cases h
  rfl

/-- What comes out like a result is a related result. -/
theorem eq_ok {a : α} (h : Agree R (.ok a) y) : ∃ b, y = .ok b ∧ R a b := by
  cases h with
  | ok hab => exact ⟨_, rfl, hab⟩

/-- Computations that come out alike do so in either order. -/
theorem symm {R' : β → α → Prop} (h : Agree R x y) (hsymm : ∀ a b, R a b → R' b a) :
    Agree R' y x := by
  cases h with
  | error cause => exact .error cause
  | ok hab => exact .ok (hsymm _ _ hab)

/-- Computations that come out like a third one come out alike. -/
theorem trans {T : β → γ → Prop} {R' : α → γ → Prop} {z : Except ε γ} (h : Agree R x y)
    (h' : Agree T y z) (htrans : ∀ a b c, R a b → T b c → R' a c) : Agree R' x z := by
  cases h with
  | error cause =>
    rw [h'.eq_error]
    exact .error cause
  | ok hab =>
    obtain ⟨c, rfl, hbc⟩ := h'.eq_ok
    exact .ok (htrans _ _ _ hab hbc)

end Agree

namespace Sheet

open Markup (Event)

/-- **The same rows with the same end.** What stands behind the rows may differ. -/
structure Outcome.Same (o o' : Outcome) : Prop where
  rows : o'.rows = o.rows
  error? : o'.ending.error? = o.ending.error?

/-- An outcome is the same as itself. -/
theorem Outcome.same_refl (o : Outcome) : o.Same o := ⟨rfl, rfl⟩

/-- The same row in front keeps two outcomes the same. -/
theorem Outcome.Same.cons {o o' : Outcome} (h : o.Same o') (row : RawRow) :
    (o.cons row).Same (o'.cons row) := by
  refine ⟨?_, h.error?⟩
  rw [cons_rows, cons_rows, h.rows]

/-- What neither opens a row nor ends the rows is passed over. -/
theorem readRows_passed {selects : Nat → Bool} {first last next : Nat} {fault? : Option Markup.Fault}
    {passed : List Event} (h : ∀ e ∈ passed, ¬ endsRows e = true ∧ opensRow? e = none)
    (rest : List Event) :
    readRows selects first last fault? next (passed ++ rest) =
      readRows selects first last fault? next rest := by
  induction passed with
  | nil => rfl
  | cons e passed ih =>
    obtain ⟨⟨hend, hopen⟩, hpassed⟩ := List.forall_mem_cons.mp h
    rw [List.cons_append, readRows_other hend hopen]
    exact ih hpassed

/-- **A relation of the rows of two sheets that is kept row by row**, for the number that the next
row has if it states none. Where one sheet has a row, so has the other, with the same number and the
same cells; whatever else stands between the rows is passed over in both. -/
structure RowRelation (R : Nat → List Event → List Event → Prop) : Prop where
  nil : ∀ {next events'}, R next [] events' → events' = []
  finish : ∀ {next e rest events'}, R next (e :: rest) events' → endsRows e = true →
    ∃ e' rest', events' = e' :: rest' ∧ endsRows e' = true
  other : ∀ {next e rest events'}, R next (e :: rest) events' → ¬ endsRows e = true →
    opensRow? e = none →
      ∃ passed rest', events' = passed ++ rest' ∧
        (∀ e' ∈ passed, ¬ endsRows e' = true ∧ opensRow? e' = none) ∧ R next rest rest'
  row : ∀ {next e rest events' tag hasContent}, R next (e :: rest) events' → ¬ endsRows e = true →
    opensRow? e = some (tag, hasContent) →
      ∃ e' tag' hasContent' rest', events' = e' :: rest' ∧ ¬ endsRows e' = true ∧
        opensRow? e' = some (tag', hasContent') ∧
        rowIndex? next tag'.attributes = rowIndex? next tag.attributes ∧
        ∀ selects fault? index, rowIndex? next tag.attributes = .ok index →
          Agree (fun r r' => r'.1 = r.1 ∧ R (Text.successor index) r.2 r'.2)
            (contentOf selects index fault? hasContent rest)
            (contentOf selects index fault? hasContent' rest')

/-- **Sheets whose rows are related row by row are read the same**, whichever rows and columns are
wanted. -/
theorem RowRelation.readRows_same {R : Nat → List Event → List Event → Prop} (hR : RowRelation R)
    (selects : Nat → Bool) (first last : Nat) (fault? : Option Markup.Fault) {next : Nat}
    {events events' : List Event} (h : R next events events') :
    (readRows selects first last fault? next events).Same
      (readRows selects first last fault? next events') := by
  -- The reading of the first sheet drives the recursion.
  fun_induction readRows selects first last fault? next events generalizing events' with
  | case1 next =>
    rw [hR.nil h, readRows_nil]
    exact Outcome.same_refl _
  | case2 next e rest hend =>
    obtain ⟨e', rest', rfl, hend'⟩ := hR.finish h hend
    rw [readRows_end hend']
    exact ⟨rfl, rfl⟩
  | case3 next e rest hend hopen ih =>
    obtain ⟨passed, rest', rfl, hpassed, hrest⟩ := hR.other h hend hopen
    rw [readRows_passed hpassed]
    exact ih hrest
  | case4 next e rest hend tag hasContent hopen cause hindex =>
    obtain ⟨e', tag', hasContent', rest', rfl, hend', hopen', hindex', -⟩ := hR.row h hend hopen
    rw [readRows_badIndex hend' hopen' (hindex'.trans hindex)]
    exact Outcome.same_refl _
  | case5 next e rest hend tag hasContent hopen index hindex hlast =>
    obtain ⟨e', tag', hasContent', rest', rfl, hend', hopen', hindex', -⟩ := hR.row h hend hopen
    rw [readRows_over hend' hopen' (hindex'.trans hindex) hlast]
    exact Outcome.same_refl _
  | case6 next e rest hend tag hasContent hopen index hindex hlast cause hcontent =>
    obtain ⟨e', tag', hasContent', rest', rfl, hend', hopen', hindex', hagree⟩ := hR.row h hend hopen
    have hboth := hagree (fun c => !decide (index < first) && selects c) fault? index hindex
    rw [hcontent] at hboth
    rw [readRows_badContent hend' hopen' (hindex'.trans hindex) hlast hboth.eq_error]
    exact Outcome.same_refl _
  | case7 next e rest hend tag hasContent hopen index hindex hlast cells after hcontent hlength more
      hskip =>
    rename_i ih
    obtain ⟨e', tag', hasContent', rest', rfl, hend', hopen', hindex', hagree⟩ := hR.row h hend hopen
    have hboth := hagree (fun c => !decide (index < first) && selects c) fault? index hindex
    rw [hcontent] at hboth
    obtain ⟨⟨cells', after'⟩, hcontent', rfl, hafter⟩ := hboth.eq_ok
    rw [readRows_row hend' hopen' (hindex'.trans hindex) hlast hcontent', if_pos hskip]
    exact ih hafter
  | case8 next e rest hend tag hasContent hopen index hindex hlast cells after hcontent hlength more
      hskip =>
    rename_i ih
    obtain ⟨e', tag', hasContent', rest', rfl, hend', hopen', hindex', hagree⟩ := hR.row h hend hopen
    have hboth := hagree (fun c => !decide (index < first) && selects c) fault? index hindex
    rw [hcontent] at hboth
    obtain ⟨⟨cells', after'⟩, hcontent', rfl, hafter⟩ := hboth.eq_ok
    rw [readRows_row hend' hopen' (hindex'.trans hindex) hlast hcontent', if_neg hskip]
    exact (ih hafter).cons _

/-- **Readings that go on the same**, whichever rows and columns are wanted. -/
def Reading.Same (r r' : Reading) : Prop :=
  ∀ selects first last, (r.outcome selects first last).Same (r'.outcome selects first last)

/-- A reading is the same as itself. -/
theorem Reading.same_refl (r : Reading) : r.Same r :=
  fun selects first last => (r.outcome selects first last).same_refl

/-- The same used range in front of rows that are read the same. -/
def SameOpening (p p' : Reading × Option Range) : Prop := p'.2 = p.2 ∧ p.1.Same p'.1

/-- **An event before the rows that both sheets have** leads to what both have behind it. -/
theorem openRows_cons_agree {fault? : Option Markup.Fault} {e : Event} {events events' : List Event}
    (hrows : startsRows e = true →
      (Reading.streaming 0 ⟨events, fault?⟩).Same (.streaming 0 ⟨events', fault?⟩))
    (h : startsRows e = false → ∀ depth sawRoot dimension,
      Agree SameOpening (openRows fault? depth sawRoot dimension events)
        (openRows fault? depth sawRoot dimension events'))
    (depth : Nat) (sawRoot : Bool) (dimension : Option Range) :
    Agree SameOpening (openRows fault? depth sawRoot dimension (e :: events))
      (openRows fault? depth sawRoot dimension (e :: events')) := by
  cases e with
  | start tag =>
    by_cases hname : tag.localName = "sheetData"
    · rw [openRows_reached hname, openRows_reached hname]
      exact .ok ⟨rfl, hrows (by simp [startsRows, hname])⟩
    · rw [openRows_start hname, openRows_start hname]
      exact h (by simpa [startsRows] using hname) _ _ _
  | empty tag =>
    simp only [openRows]
    split
    · exact .ok ⟨rfl, Reading.same_refl _⟩
    · exact h rfl _ _ _
    · exact h rfl _ _ _
  | finish name => exact h rfl (depth - 1) sawRoot dimension
  | text content => exact h rfl depth sawRoot dimension
  | literal content => exact h rfl depth sawRoot dimension
  | aside => exact h rfl depth sawRoot dimension

end Sheet

namespace Cursor

/-- **Runs that are the same**: the same rows, the same end and the same number of decoded cells. -/
structure Run.Same (r r' : Run) : Prop where
  rows : r'.rows = r.rows
  error? : r'.error? = r.error?
  decodedCells : r'.final.decodedCells = r.final.decodedCells

/-- **Readings that are the same give the same runs.** -/
theorem run_same {c : Cursor} (hpending : c.pending = none) {reading : Sheet.Reading}
    (h : c.reading.Same reading) : c.run.Same { c with reading }.run := by
  have hsame : c.outcome.Same { c with reading }.outcome := h c.selects c.firstRow c.lastRow
  have hspec := run_spec hpending
  have hspec' := @run_spec { c with reading } hpending
  refine ⟨?_, ?_, ?_⟩
  · rw [hspec'.rows, hspec.rows, hsame.rows]
    rfl
  · rw [hspec'.error?, hspec.error?, hsame.error?]
  · rw [decodedCells_run, decodedCells_run, cellCount, cellCount, hsame.rows]

/-- **Cursors that are alike**: with the same used range, and with the same runs. -/
structure Same (c c' : Cursor) : Prop where
  dimension : c'.dimension = c.dimension
  run : c.run.Same c'.run

/-- It does not matter which cursor is named first. -/
theorem Same.symm {c c' : Cursor} (h : c.Same c') : c'.Same c :=
  ⟨h.dimension.symm, h.run.rows.symm, h.run.error?.symm, h.run.decodedCells.symm⟩

/-- Nor by way of which third one two are compared. -/
theorem Same.trans {c c' c'' : Cursor} (h : c.Same c') (h' : c'.Same c'') : c.Same c'' :=
  ⟨h'.dimension.trans h.dimension, h'.run.rows.trans h.run.rows, h'.run.error?.trans h.run.error?,
    h'.run.decodedCells.trans h.run.decodedCells⟩

/-- **Two sheets give cursors that are alike** if what stands before their rows says the same and
their rows are read the same. -/
theorem ofStream?_agree (sheet : Sheet) (decoder : Decoder) (o : CursorOptions) {s s' : Markup.Stream}
    (h : Agree Sheet.SameOpening (Sheet.Reading.ofStream? s) (Sheet.Reading.ofStream? s')) :
    Agree Same (ofStream? sheet decoder o s) (ofStream? sheet decoder o s') := by
  rw [ofStream?_eq, ofStream?_eq]
  apply h.map
  rintro ⟨reading, dimension⟩ ⟨reading', dimension'⟩ ⟨rfl, hreading⟩
  exact ⟨rfl, run_same rfl hreading⟩

end Cursor

end Xlsx
