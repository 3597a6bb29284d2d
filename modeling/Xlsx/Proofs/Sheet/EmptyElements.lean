import Xlsx.Proofs.Sheet.SameRun
import Xlsx.Proofs.Sheet.StringRoutes

/-! # Two ways to write an element without content

An element without content can be written as one empty tag, or as a start tag and an end tag with
nothing between them. For a sheet this makes no difference, two elements apart: a used range is
declared by an empty tag alone, and inline text that is there but empty needs a start tag.

* **`Respells`**: a sheet in which some empty tags are written as two tags.
* **`Tidy`**: what is asked of a sheet: rows, cells and pronunciations do not stand inside each other,
  and a value and a text have no elements in them.
* **`CellScan.Quiet`**: what is then known between two events of a row.
* **`CellScan.Quiet.step_twoTags`**: two tags do to a row what the empty one does.
* **`Cursor.run_respelled`**: two sheets that write the same elements in either way are read the same.
* **`Cursor.twoTags_differ`**: what is different for used ranges and inline text. -/

namespace Xlsx

namespace Markup

/-- An event is the tag of an element, which it opens or which is empty. -/
def Event.isElement : Event → Bool
  | .start _ | .empty _ => true
  | _ => false

/-- **No element inside those of some name.** While one with the given name is open there is no tag
but its end tag; `inside` says whether one is open in front of the events. -/
def Childless (name : String) : Bool → List Event → Prop
  | _, [] => True
  | inside, e :: events =>
      (e.isElement = true → inside = false) ∧ Childless name (e.insideAfter name inside) events

instance Childless.decidable (name : String) :
    ∀ (inside : Bool) (events : List Event), Decidable (Childless name inside events)
  | _, [] => isTrue trivial
  | inside, e :: events =>
      have := Childless.decidable name (e.insideAfter name inside) events
      inferInstanceAs (Decidable (_ ∧ _))

/-- **Some empty tags written as two tags**, a start tag and an end tag with nothing between them, but
for elements with a name in `kept`. -/
inductive Respells (kept : List String) : List Event → List Event → Prop
  | nil : Respells kept [] []
  | same {e : Event} {events events' : List Event} (h : Respells kept events events') :
      Respells kept (e :: events) (e :: events')
  | twoTags {tag : Tag} {events events' : List Event} (hname : tag.localName ∉ kept)
      (h : Respells kept events events') :
      Respells kept (.empty tag :: events) (.start tag :: .finish tag.name :: events')

/-- A name that no element has may as well be kept. -/
theorem Respells.keep {kept : List String} {name : String} {events events' : List Event}
    (h : Respells kept events events') (hnone : ∀ e ∈ events, ¬ e.isTag name = true) :
    Respells (name :: kept) events events' := by
  induction h with
  | nil => exact .nil
  | same h ih => exact .same (ih (List.forall_mem_cons.mp hnone).2)
  | @twoTags tag events events' hname h ih =>
    obtain ⟨htag, hrest⟩ := List.forall_mem_cons.mp hnone
    refine .twoTags ?_ (ih hrest)
    rw [List.mem_cons, not_or]
    exact ⟨fun heq => htag (by simp [Event.isTag, heq]), hname⟩

end Markup

namespace Sheet

open Markup (Apart Childless Event Respells Tag)

/-- **What is asked of a sheet.** No row stands inside a row, no cell inside a cell and no
pronunciation inside a pronunciation; values and texts have no elements in them. For each name
`inside` says whether an element of that name is open in front of the events. -/
structure Tidy (inside : String → Bool) (events : List Event) : Prop where
  rows : Apart "row" (inside "row") events
  cells : Apart "c" (inside "c") events
  pronunciations : Apart "rPh" (inside "rPh") events
  values : Childless "v" (inside "v") events
  texts : Childless "t" (inside "t") events

/-- Behind one more event. -/
theorem Tidy.step {inside : String → Bool} {e : Event} {events : List Event}
    (h : Tidy inside (e :: events)) : Tidy (fun name => e.insideAfter name (inside name)) events :=
  ⟨h.rows.2, h.cells.2, h.pronunciations.2, h.values.2, h.texts.2⟩

instance Tidy.decidable (inside : String → Bool) (events : List Event) :
    Decidable (Tidy inside events) :=
  decidable_of_iff (Apart "row" (inside "row") events ∧ Apart "c" (inside "c") events ∧
      Apart "rPh" (inside "rPh") events ∧ Childless "v" (inside "v") events ∧
      Childless "t" (inside "t") events)
    ⟨fun h => ⟨h.1, h.2.1, h.2.2.1, h.2.2.2.1, h.2.2.2.2⟩,
      fun h => ⟨h.rows, h.cells, h.pronunciations, h.values, h.texts⟩⟩

namespace CellScan

/-- **The invariant of a row of a tidy sheet.** Text goes somewhere only while a value or a text is
open, and pronunciations are as deep as they can be without standing inside each other. -/
structure Quiet (inside : String → Bool) (s : CellScan) : Prop where
  settled : s.Settled (inside "c")
  capture : s.capture ≠ none → inside "v" = true ∨ inside "t" = true
  phoneticDepth : inside "rPh" = false → s.phoneticDepth = 0
  phoneticDepth_le : s.phoneticDepth ≤ 1

/-- The invariant holds where a row begins. -/
theorem quiet_start (inside : String → Bool) : Quiet inside {} :=
  ⟨settled_start _, fun h => absurd rfl h, fun _ => rfl, Nat.zero_le _⟩

section Quiet

variable {selects : Nat → Bool} {inside : String → Bool} {s after : CellScan} {e : Event} {tag : Tag}
  {events : List Event}

/-- Where a tag stands, text goes nowhere. -/
theorem Quiet.capture_eq_none (hs : s.Quiet inside) (ht : Tidy inside (e :: events))
    (he : e.isElement = true) : s.capture = none := by
  by_contra hne
  rcases hs.capture hne with hv | htext
  · exact absurd (ht.values.1 he) (by simp [hv])
  · exact absurd (ht.texts.1 he) (by simp [htext])

/-- Where a cell begins, none is open. -/
theorem Quiet.idle (hs : s.Quiet inside) (ht : Tidy inside (e :: events))
    (he : e.isTag "c" = true) : s = { nextColumn := s.nextColumn, cells := s.cells } := by
  have hsettled := hs.settled
  rw [ht.cells.1 he] at hsettled
  exact hsettled.eq_of_none hsettled.current_eq_none

/-- The start of an element of a cell opens no more than its name says. -/
theorem enter_quiet (s : CellScan) (name : String) :
    ((s.enter name).capture = s.capture ∨ name = "v" ∨ name = "t") ∧
      ((s.enter name).phoneticDepth = s.phoneticDepth ∨
        name = "rPh" ∧ (s.enter name).phoneticDepth = s.phoneticDepth + 1) := by
  unfold enter
  split
  · exact ⟨.inr (.inl rfl), .inl (by split <;> rfl)⟩
  · exact ⟨.inl (by split <;> rfl), .inl (by split <;> rfl)⟩
  · refine ⟨.inl (by split <;> rfl), ?_⟩
    split
    · exact .inr ⟨rfl, rfl⟩
    · exact .inl rfl
  · exact ⟨.inr (.inr rfl), .inl (by split <;> rfl)⟩
  · exact ⟨.inl rfl, .inl rfl⟩

/-- The end of an element of a cell. -/
theorem leave_quiet (s : CellScan) (name : String) :
    ((s.leave name).capture = none ∨
        (s.leave name).capture = s.capture ∧ name ≠ "v" ∧ name ≠ "t") ∧
      ((s.leave name).phoneticDepth ≤ s.phoneticDepth - 1 ∨
        (s.leave name).phoneticDepth = s.phoneticDepth ∧ name ≠ "rPh") := by
  unfold leave
  split
  · exact ⟨.inl rfl, .inr ⟨rfl, by decide⟩⟩
  · exact ⟨.inl rfl, .inr ⟨rfl, by decide⟩⟩
  · exact ⟨.inr ⟨rfl, by decide, by decide⟩, .inl (Nat.le_refl _)⟩
  · exact ⟨.inr ⟨rfl, by decide, by decide⟩, .inr ⟨rfl, by decide⟩⟩
  · exact ⟨.inl rfl, .inl (Nat.zero_le _)⟩
  · rename_i hv ht hph his hc
    exact ⟨.inr ⟨rfl, hv, ht⟩, .inr ⟨rfl, hph⟩⟩

/-- Text opens nothing. -/
theorem addText_quiet {content : Except Markup.TextFault String} (h : s.addText content = .ok after) :
    after.capture = s.capture ∧ after.phoneticDepth = s.phoneticDepth := by
  unfold addText at h
  split at h
  · cases content with
    | error cause => simp at h
    | ok text =>
      rw [← Except.ok.inj h]
      exact ⟨rfl, rfl⟩
  · rw [← Except.ok.inj h]
    exact ⟨rfl, rfl⟩

/-- **The invariant is kept** by each event of a row. -/
theorem Quiet.step (hs : s.Quiet inside) (ht : Tidy inside (e :: events))
    (h : s.step selects e = .ok after) :
    after.Quiet fun name => e.insideAfter name (inside name) := by
  have hsettled := hs.settled.step_settled ht.cells.1 h
  -- What leaves the texts and the pronunciations alone also leaves open what is.
  have hsame : after.capture = s.capture ∧ after.phoneticDepth = s.phoneticDepth →
      (∀ name, name ≠ "c" → e.insideAfter name (inside name) = inside name) →
      after.Quiet fun name => e.insideAfter name (inside name) := by
    rintro ⟨hcapture, hdepth⟩ hinside
    constructor
    case settled => exact hsettled
    case capture =>
      rw [hcapture, hinside "v" (by decide), hinside "t" (by decide)]
      exact hs.capture
    case phoneticDepth =>
      rw [hdepth, hinside "rPh" (by decide)]
      exact hs.phoneticDepth
    case phoneticDepth_le =>
      rw [hdepth]
      exact hs.phoneticDepth_le
  cases e with
  | start tag =>
    have hnone := hs.capture_eq_none ht rfl
    by_cases hname : tag.localName = "c"
    · simp only [CellScan.step, hname, if_true] at h
      obtain ⟨cell, -, rfl⟩ := map_eq_ok.mp h
      refine hsame ⟨rfl, rfl⟩ fun name hne => ?_
      simp [Event.insideAfter, hname, hne.symm]
    · simp only [CellScan.step, hname, if_false, Except.ok.injEq] at h
      subst h
      obtain ⟨hcapture, hdepth⟩ := s.enter_quiet tag.localName
      constructor
      case settled => exact hsettled
      case capture =>
        intro hne
        rcases hcapture with hcapture | hv | htext
        · exact absurd (hcapture.trans hnone) hne
        · exact .inl (by simp [Event.insideAfter, hv])
        · exact .inr (by simp [Event.insideAfter, htext])
      case phoneticDepth =>
        intro hout
        rw [Event.insideAfter, Bool.or_eq_false_iff] at hout
        rcases hdepth with hdepth | ⟨hph, -⟩
        · rw [hdepth, hs.phoneticDepth hout.1]
        · exact absurd hout.2 (by simp [hph])
      case phoneticDepth_le =>
        rcases hdepth with hdepth | ⟨hph, hdepth⟩
        · exact hdepth ▸ hs.phoneticDepth_le
        · have hout := ht.pronunciations.1 (by simp [Event.isTag, hph])
          rw [hdepth, hs.phoneticDepth hout]
  | empty tag =>
    by_cases hname : tag.localName = "c"
    · simp only [CellScan.step, hname, if_true] at h
      obtain ⟨cell, -, rfl⟩ := map_eq_ok.mp h
      exact hsame ⟨rfl, rfl⟩ fun name _ => rfl
    · simp only [CellScan.step, hname, if_false, Except.ok.injEq] at h
      subst h
      exact hs
  | finish name =>
    simp only [CellScan.step, Except.ok.injEq] at h
    subst h
    obtain ⟨hcapture, hdepth⟩ := s.leave_quiet (Markup.localPart name)
    have hle := hs.phoneticDepth_le
    constructor
    case settled => exact hsettled
    case capture =>
      intro hne
      rcases hcapture with hcapture | ⟨hcapture, hv, htext⟩
      · exact absurd hcapture hne
      · rw [hcapture] at hne
        simpa [Event.insideAfter, hv, htext] using hs.capture hne
    case phoneticDepth =>
      -- At most one pronunciation was open, and this is its end.
      intro hout
      rcases hdepth with hdepth | ⟨hdepth, hph⟩
      · omega
      · rw [hdepth]
        exact hs.phoneticDepth (by simpa [Event.insideAfter, hph] using hout)
    case phoneticDepth_le =>
      rcases hdepth with hdepth | ⟨hdepth, -⟩ <;> omega
  | text content => exact hsame (addText_quiet h) fun name _ => rfl
  | literal content => exact hsame (addText_quiet h) fun name _ => rfl
  | aside =>
    simp only [CellScan.step, Except.ok.injEq] at h
    subst h
    exact hs

/-- An element other than a cell and inline text that ends where it begins leaves no trace. -/
theorem leave_enter {name : String} (hcell : name ≠ "c") (hinline : name ≠ "is")
    (hcapture : s.capture = none) (hdepth : name = "rPh" → s.phoneticDepth = 0) :
    (s.enter name).leave name = s := by
  obtain ⟨column, current, capture, inInline, depth, cells⟩ := s
  simp only at hcapture hdepth
  subst hcapture
  unfold enter
  split
  · split <;> rfl
  · exact absurd rfl hinline
  · obtain rfl := hdepth rfl
    split <;> rfl
  · split <;> rfl
  · rename_i hv his hph ht
    unfold leave
    split
    all_goals first | rfl | contradiction

/-- A cell that ends where it begins. -/
theorem openEmpty?_eq (column : Nat) (cells : List RawCell) (tag : Tag) :
    (open? selects { nextColumn := column, cells } tag).map (·.leave "c") =
      openEmpty? selects { nextColumn := column, cells } tag := by
  unfold open? openEmpty?
  cases hcell : cellOfTag? column tag with
  | error cause => simp only [Except.map]
  | ok cell =>
    obtain ⟨-, hvalue, hinline⟩ := cellOfTag?_type hcell
    have hcomplete : complete cell = cell := by
      unfold complete
      obtain ⟨column, type, style, value, inlineText⟩ := cell
      simp only at hvalue hinline
      subst hvalue hinline
      split <;> rfl
    simp only [Except.map, leave]
    by_cases hsel : selects cell.column = true
    · simp only [if_pos hsel, hcomplete]
    · simp only [if_neg hsel]

/-- **Two tags do what the empty one does**, inline text apart. -/
theorem Quiet.step_twoTags (selects : Nat → Bool) (hs : s.Quiet inside) (ht : Tidy inside (.empty tag :: events))
    (hinline : tag.localName ≠ "is") :
    (s.step selects (.start tag) >>= fun opened => opened.step selects (.finish tag.name)) =
      s.step selects (.empty tag) := by
  have hlocal : Markup.localPart tag.name = tag.localName := rfl
  simp only [CellScan.step, hlocal]
  by_cases hname : tag.localName = "c"
  · rw [if_pos hname, if_pos hname, hname, hs.idle ht (by simp [Event.isTag, hname]),
      ← openEmpty?_eq]
    rfl
  · rw [if_neg hname, if_neg hname]
    show Except.ok _ = _
    rw [leave_enter hname hinline (hs.capture_eq_none ht rfl) fun hph =>
      hs.phoneticDepth (ht.pronunciations.1 (by simp [Event.isTag, hph]))]

end Quiet

end CellScan

/-! ## The rows -/

section Rows

variable {fault? : Option Markup.Fault} {events events' : List Event} {inside : String → Bool}

/-- What is behind some events among the rows of the two sheets. -/
structure RowsRespell (events events' : List Event) : Prop where
  respells : Respells ["sheetData", "dimension", "is"] events events'
  tidy : ∃ inside, Tidy inside events

/-- **The cells of a row**, with some empty tags written as two. -/
theorem readCells_respells {selects : Nat → Bool} {row : Nat} {scan : CellScan}
    (hs : scan.Quiet inside) (hrow : inside "row" = true) (ht : Tidy inside events)
    (h : Respells ["sheetData", "dimension", "is"] events events') :
    Agree (fun r r' => r'.1 = r.1 ∧ RowsRespell r.2 r'.2)
      (readCells selects row fault? scan events) (readCells selects row fault? scan events') := by
  -- Along the row the state is quiet, so that two tags lead to where the empty one does.
  induction events generalizing events' scan inside with
  | nil =>
    cases h
    exact .error _
  | cons e events ih =>
    cases h with
    | same h =>
      rw [readCells, readCells]
      by_cases hend : endsRow e = true
      · rw [if_pos hend, if_pos hend]
        exact .ok ⟨rfl, h, _, ht.step⟩
      · rw [if_neg hend, if_neg hend]
        cases hstep : scan.step selects e with
        | error cause => exact .error _
        | ok after =>
          have hopen : e.insideAfter "row" (inside "row") = true := by
            rw [hrow, insideAfter_of_not_endsRow hend]
          exact ih (hs.step ht hstep) hopen ht.step h
    | @twoTags tag _ events' hname h =>
      have hlocal : tag.localName ≠ "row" := by
        rintro heq
        have hout := ht.rows.1 (by simp [Event.isTag, heq])
        rw [hrow] at hout
        exact absurd hout (by decide)
      have hend : endsRow (.finish tag.name) = false := beq_eq_false_iff_ne.mpr hlocal
      have hinline : tag.localName ≠ "is" := by
        rintro heq
        exact hname (by simp [heq])
      have htwo := hs.step_twoTags selects ht hinline
      rw [readCells, readCells, if_neg (by simp [endsRow]), if_neg (by simp [endsRow]), ← htwo]
      cases hstart : scan.step selects (.start tag) with
      | error cause => exact .error _
      | ok opened =>
        rw [hstart] at htwo
        dsimp only [bind, Except.bind]
        rw [readCells, if_neg (by simp [hend])]
        cases hfinish : opened.step selects (.finish tag.name) with
        | error cause => exact .error _
        | ok after =>
          exact ih (hs.step ht (htwo.symm.trans hfinish)) hrow ht.step h

/-- **The rows of a sheet**, with some empty tags written as two. -/
theorem respells_rowRelation : RowRelation fun _ events events' => RowsRespell events events' where
  nil := by
    rintro next events' ⟨h, -⟩
    cases h
    rfl
  finish := by
    rintro next e rest events' ⟨h, -⟩ hend
    cases h with
    | @same _ _ rest' h => exact ⟨e, rest', rfl, hend⟩
    | twoTags hname h => exact absurd hend (by simp [endsRows])
  other := by
    rintro next e rest events' ⟨h, inside, ht⟩ hend hopen
    cases h with
    | @same _ _ rest' h =>
      exact ⟨[e], rest', rfl, List.forall_mem_singleton.mpr ⟨hend, hopen⟩, h, _, ht.step⟩
    | @twoTags tag _ rest' hname h =>
      refine ⟨[.start tag, .finish tag.name], rest', rfl, ?_, h, _, ht.step⟩
      have hrow : tag.localName ≠ "row" := by
        rintro heq
        simp [opensRow?, heq] at hopen
      have hrows : Markup.localPart tag.name ≠ "sheetData" := by
        rintro heq
        exact hname (by simp [Tag.localName, heq])
      simp [endsRows, opensRow?, hrow, hrows]
  row := by
    rintro next e rest events' tag hasContent ⟨h, inside, ht⟩ hend hopen
    obtain ⟨hname, he⟩ := opensRow?_tag hopen
    cases h with
    | @same _ _ rest' h =>
      refine ⟨e, tag, hasContent, rest', rfl, hend, hopen, rfl, fun selects fault? index _ => ?_⟩
      cases hasContent with
      | false => exact .ok ⟨rfl, h, _, ht.step⟩
      | true =>
        rw [if_pos rfl] at he
        subst he
        exact readCells_respells (CellScan.quiet_start _) (by simp [Event.insideAfter, hname]) ht.step h
    | @twoTags tag' _ rest' _ h =>
      cases hasContent with
      | true => simp at he
      | false =>
        rw [if_neg (by decide), Event.empty.injEq] at he
        subst he
        refine ⟨.start tag', tag', true, .finish tag'.name :: rest', rfl, by simp [endsRows],
          if_pos hname, rfl, fun selects fault? index _ => ?_⟩
        have hclosed : endsRow (.finish tag'.name) = true := beq_iff_eq.mpr hname
        rw [contentOf, if_neg (by decide), contentOf, if_pos rfl, readCells, if_pos hclosed]
        exact .ok ⟨rfl, h, _, ht.step⟩

/-- **What is before the rows**, with some empty tags written as two. Used ranges are declared by an
empty tag, and there is one element for the rows. -/
theorem openRows_respells (hone : events.countP (·.isTag "sheetData") ≤ 1) (ht : Tidy inside events)
    (h : Respells ["dimension", "is"] events events') (depth : Nat) (sawRoot : Bool)
    (dimension : Option Range) :
    Agree SameOpening (openRows fault? depth sawRoot dimension events)
      (openRows fault? depth sawRoot dimension events') := by
  induction events generalizing events' inside depth sawRoot dimension with
  | nil =>
    cases h
    rw [openRows]
    split
    · exact .ok ⟨rfl, Reading.same_refl _⟩
    · exact .error _
  | cons e events ih =>
    rw [List.countP_cons] at hone
    cases h with
    | same h =>
      refine openRows_cons_agree (fun hstarts => ?_) (fun _ => ?_) depth sawRoot dimension
      · -- This is the only element for the rows.
        have htag : e.isTag "sheetData" = true := by
          cases e with
          | start tag => exact hstarts
          | _ => exact absurd hstarts (by simp [startsRows])
        rw [if_pos htag] at hone
        have hnone : ∀ e ∈ events, ¬ e.isTag "sheetData" = true :=
          List.countP_eq_zero.mp (Nat.le_zero.mp (Nat.le_of_succ_le_succ hone))
        exact fun selects first last =>
          respells_rowRelation.readRows_same selects first last fault? ⟨h.keep hnone, _, ht.step⟩
      · exact ih (by omega) ht.step h
    | @twoTags tag _ events' hname h =>
      by_cases hrows : tag.localName = "sheetData"
      · rw [openRows_noRows hrows, openRows_reached hrows]
        refine .ok ⟨rfl, fun selects first last => ?_⟩
        have hclosed : endsRows (.finish tag.name) = true := beq_iff_eq.mpr hrows
        rw [Reading.outcome, Reading.outcome, readRows_end hclosed]
        exact ⟨rfl, rfl⟩
      · have hdim : tag.localName ≠ "dimension" := by
          rintro heq
          exact hname (by simp [heq])
        rw [openRows_empty hrows hdim, openRows_start hrows]
        exact ih (by omega) ht.step h depth true dimension

end Rows

/-- A sheet with a row that has nothing in it, and one with an empty cell and an empty value. -/
def sampleEmpty : List Event :=
  [.start ⟨"worksheet", []⟩, .empty ⟨"cols", []⟩, .start ⟨"sheetData", []⟩, .empty ⟨"row", []⟩,
    .start ⟨"row", []⟩, .empty ⟨"c", []⟩, .start ⟨"c", []⟩, .empty ⟨"v", []⟩, .finish "c", .finish "row",
    .finish "sheetData", .finish "worksheet"]

/-- The same sheet without empty tags. -/
def sampleTwoTags : List Event :=
  [.start ⟨"worksheet", []⟩, .start ⟨"cols", []⟩, .finish "cols", .start ⟨"sheetData", []⟩,
    .start ⟨"row", []⟩, .finish "row", .start ⟨"row", []⟩, .start ⟨"c", []⟩, .finish "c", .start ⟨"c", []⟩,
    .start ⟨"v", []⟩, .finish "v", .finish "c", .finish "row", .finish "sheetData", .finish "worksheet"]

/-- The two samples differ in how empty elements are written. -/
theorem respells_sample : Respells ["dimension", "is"] sampleEmpty sampleTwoTags :=
  .same <| .twoTags (by decide) <| .same <| .twoTags (by decide) <| .same <| .twoTags (by decide) <|
    .same <| .twoTags (by decide) <| .same <| .same <| .same <| .same .nil

end Sheet

namespace Cursor

/-- **The two ways to write an element without content mean the same**, for every element but a used
range and inline text. Take a tidy sheet with one element for its rows, and write some of its empty
tags as two tags, in one choice and in another. Whatever the options are, and whatever stops the
reading of the document, the two sheets open alike, with the same used range, and give the same rows,
the same number of decoded cells and the same end. -/
theorem run_respelled (sheet : Sheet) (decoder : Decoder) (o : CursorOptions)
    (fault? : Option Markup.Fault) {events one other : List Markup.Event}
    (hrows : events.countP (·.isTag "sheetData") ≤ 1) (htidy : Sheet.Tidy (fun _ => false) events)
    (hone : Markup.Respells ["dimension", "is"] events one)
    (hother : Markup.Respells ["dimension", "is"] events other) :
    Agree Same (ofStream? sheet decoder o ⟨one, fault?⟩) (ofStream? sheet decoder o ⟨other, fault?⟩) := by
  have hagree : ∀ {choice : List Markup.Event}, Markup.Respells ["dimension", "is"] events choice →
      Agree Same (ofStream? sheet decoder o ⟨events, fault?⟩)
        (ofStream? sheet decoder o ⟨choice, fault?⟩) :=
    fun h => ofStream?_agree sheet decoder o (Sheet.openRows_respells hrows htidy h 0 false none)
  have hback := (hagree hone).symm fun c c' (h : c.Same c') => h.symm
  exact hback.trans (hagree hother) fun _ _ _ h h' => h.trans h'

/-- A dense cursor on the two sheets of the sample. -/
theorem run_respelled_sample : ∃ c c',
    ofStream? default default { dense := true } ⟨Sheet.sampleTwoTags, none⟩ = .ok c ∧
      ofStream? default default { dense := true } ⟨Sheet.sampleEmpty, none⟩ = .ok c' ∧ c.Same c' := by
  have hself : Markup.Respells ["dimension", "is"] Sheet.sampleEmpty Sheet.sampleEmpty := by
    repeat first | exact .nil | apply Markup.Respells.same
  have hagree := run_respelled default default { dense := true } none (by decide +kernel)
    (by decide +kernel) Sheet.respells_sample hself
  obtain ⟨c', hc', hsame⟩ := (show Agree Same (.ok _) _ from hagree).eq_ok
  exact ⟨_, c', rfl, hc', hsame⟩

/-- **What two tags cannot say**: the used range of a sheet is lost, and a cell with inline text that
is there but empty holds a text instead of nothing. -/
theorem twoTags_differ :
    let opened := fun text : String =>
      ofStream? default default {} (Markup.scan ⟨[Text.octets text], false⟩)
    (opened "<a><dimension ref='A1:B2'/><sheetData/></a>").map dimension =
        .ok (some ⟨⟨0, 0⟩, ⟨1, 1⟩⟩) ∧
      (opened "<a><dimension ref='A1:B2'></dimension><sheetData/></a>").map dimension = .ok none ∧
      (opened "<a><sheetData><row><c t='inlineStr'><is/></c></row></sheetData></a>").map
          (fun c => c.next.1) = .ok (.ok (some ⟨0, #[.empty], none⟩)) ∧
      (opened "<a><sheetData><row><c t='inlineStr'><is></is></c></row></sheetData></a>").map
          (fun c => c.next.1) = .ok (.ok (some ⟨0, #[.text (.inCell "")], none⟩)) := by
  decide +kernel

end Cursor

end Xlsx
