import Xlsx.Proofs.Reference.OctetReading
import Xlsx.Proofs.Sheet.CellContent
import Xlsx.Proofs.Sheet.CellPlace
import Xlsx.Proofs.Sheet.SameRun

/-! # Implied and written places

A row without a number stands behind the last row, and a cell without a reference behind the last
cell. A sheet in which some of them state where they stand is read as the one in which they do not.

* **`Markup.Event.Gains`**: a tag with one more attribute.
* **`Sheet.Scope`**: what of a sheet an event stands in, and at which place of it.
* **`Sheet.SpellsOut`**: a sheet with the places of some of its rows and cells written down.
* **`Sheet.rowIndex?_gains`**, **`Sheet.cellOfTag?_gains`**: the number of a row and the reference of a
  cell at their own place change nothing.
* **`Cursor.run_spelledOut`**: the runs of the two sheets are the same. -/

namespace Xlsx

namespace Markup

/-- **A tag with one more attribute**, anywhere among those that it has. These can be read, and none
of them has the key of the new one. -/
structure Tag.Gains (a : Attribute) (tag tag' : Tag) : Prop where
  name : tag'.name = tag.name
  attributes : ∃ front back, tag.attributes = front ++ back ∧ tag'.attributes = front ++ .ok a :: back
  without : ∀ x ∈ tag.attributes, ∃ b, x = .ok b ∧ b.key ≠ a.key

/-- A start tag or an empty tag with one more attribute. -/
inductive Event.Gains (a : Attribute) : Event → Event → Prop
  | start {tag tag' : Tag} (h : tag.Gains a tag') : Gains a (.start tag) (.start tag')
  | empty {tag tag' : Tag} (h : tag.Gains a tag') : Gains a (.empty tag) (.empty tag')

/-- A tag keeps its name. -/
theorem Tag.Gains.localName {a : Attribute} {tag tag' : Tag} (h : tag.Gains a tag') :
    tag'.localName = tag.localName := by
  rw [Tag.localName, h.name, Tag.localName]

end Markup

namespace Sheet

open Markup (Attribute AttributeFault Event Tag)

/-! ## What is written -/

/-- What of a sheet an event stands in: what is before the rows, the rows, or what is behind them. -/
inductive Scope
  | before
  | among (p : Place)
  | behind

namespace Scope

/-- The scope behind one more event. -/
def step : Scope → Event → Scope
  | before, e => if startsRows e then among {} else before
  | among p, e => if p.row?.isNone && endsRows e then behind else among (p.step e)
  | behind, _ => behind

section Step

variable {p : Place} {e : Event}

/-- Before the rows, and where they begin. -/
theorem step_before (h : startsRows e = false) : before.step e = before := by
  rw [step, if_neg (by simp [h])]

/-- The rows begin with none that is open. -/
theorem step_startsRows (h : startsRows e = true) : before.step e = among {} := by
  rw [step, if_pos h]

/-- In a row the place goes on, whatever the event is. -/
theorem step_inRow {row : Nat} (hrow : p.row? = some row) : (among p).step e = among (p.step e) := by
  rw [step, hrow]
  rfl

/-- Between the rows the place stays as it is, until a row is opened. -/
theorem step_other (hrow : p.row? = none) (hend : ¬ endsRows e = true) (hopen : opensRow? e = none) :
    (among p).step e = among p := by
  rw [step, if_neg (by simp [hend]), Place.step_other hrow hopen]

/-- A row that opens among the rows moves the place on. -/
theorem step_row {tag : Tag} {hasContent : Bool} {index : Nat} (hrow : p.row? = none)
    (hend : ¬ endsRows e = true) (hopen : opensRow? e = some (tag, hasContent))
    (hindex : rowIndex? p.nextRow tag.attributes = .ok index) :
    (among p).step e =
      among { nextRow := Text.successor index, row? := if hasContent then some index else none } := by
  rw [step, if_neg (by simp [hend]), Place.step_row hrow hopen hindex]

end Step

/-- **The octets that spell where a row or a cell stands**, which is a place inside the sheet: the
number of the row, or the reference of the cell. What is passed over may state anything. -/
def Spells : Scope → Event → List UInt8 → Prop
  | among p, e, value =>
    match p.row? with
    | none => e.isTag "row" = true →
        p.nextRow < maxRows ∧ value = Text.octets (Text.decimal (p.nextRow + 1))
    | some row => e.isTag "c" = true →
        row < maxRows ∧ p.nextColumn < maxColumns ∧
          value = Text.octets (Position.label ⟨row, p.nextColumn⟩)
  | _, _, _ => True

/-- An event that is left as it is, or a row or a cell that states none and now does. -/
inductive Spelled (s : Scope) (e : Event) : Event → Prop
  | same : Spelled s e e
  | stated {e' : Event} (value : List UInt8) (htag : e.isTag "row" = true ∨ e.isTag "c" = true)
      (hgains : e.Gains ⟨"r", value⟩ e') (hspells : s.Spells e value) : Spelled s e e'

end Scope

/-- **A sheet with the places of some rows and cells written down**: of any of those that state none
and stand inside the sheet. -/
inductive SpellsOut : Scope → List Event → List Event → Prop
  | nil {s : Scope} : SpellsOut s [] []
  | cons {s : Scope} {e e' : Event} {events events' : List Event} (he : s.Spelled e e')
      (h : SpellsOut (s.step e) events events') : SpellsOut s (e :: events) (e' :: events')

/-! ## The number of a row -/

/-- The rows of a sheet have numbers of 32 bits. -/
theorem number_lt_wordSize {n : Nat} (h : n < maxRows) : n + 1 < Text.wordSize := by
  have hle : maxRows < Text.wordSize := by decide
  omega

/-- **The number of a row of a sheet is read as this row.** -/
theorem rowOfOctets?_decimal {n : Nat} (h : n < maxRows) :
    rowOfOctets? (Text.octets (Text.decimal (n + 1))) = some n := by
  have hchars : (Text.decimal (n + 1)).toList = Nat.toDigits 10 (n + 1) := String.toList_ofList
  have hread : ((Text.utf8? (Text.octets (Text.decimal (n + 1)))).bind fun s =>
      Text.word? (Text.trimChars s.toList)) = some (n + 1) := by
    rw [Text.utf8?_octets, Option.bind_some, hchars, Text.trimChars_toDigits,
      Text.word?_toDigits (number_lt_wordSize h)]
  have hinside : (decide (1 ≤ n + 1) && decide (n + 1 ≤ maxRows)) = true := by
    simp only [Bool.and_eq_true, decide_eq_true_eq]
    omega
  rw [rowOfOctets?, hread, Option.filter_some, if_pos hinside, Option.map_some, Nat.add_sub_cancel]

/-- Attributes other than the number say nothing of it. -/
theorem rowIndex?_append {front : List (Except AttributeFault Attribute)}
    (h : ∀ x ∈ front, ∃ b, x = .ok b ∧ b.key ≠ "r") (next : Nat)
    (more : List (Except AttributeFault Attribute)) :
    rowIndex? next (front ++ more) = rowIndex? next more := by
  induction front with
  | nil => rfl
  | cons x front ih =>
    obtain ⟨hx, hfront⟩ := List.forall_mem_cons.mp h
    obtain ⟨b, rfl, hkey⟩ := hx
    rw [List.cons_append, rowIndex?, if_neg hkey]
    exact ih hfront

/-- **A row that states the number that it would have anyway.** -/
theorem rowIndex?_gains {tag tag' : Tag} {next : Nat} (hnext : next < maxRows)
    (h : tag.Gains ⟨"r", Text.octets (Text.decimal (next + 1))⟩ tag') :
    rowIndex? next tag'.attributes = rowIndex? next tag.attributes := by
  obtain ⟨front, back, htag, htag'⟩ := h.attributes
  have hwithout := h.without
  have himplied : rowIndex? next tag.attributes = .ok next := by
    rw [← List.append_nil tag.attributes, rowIndex?_append hwithout]
    rfl
  rw [htag] at hwithout
  rw [himplied, htag', rowIndex?_append fun x hx => hwithout x (List.mem_append_left back hx), rowIndex?,
    if_pos rfl, rowOfOctets?_decimal hnext]

/-! ## The reference of a cell -/

/-- Attributes other than the reference leave a cell in its column. -/
theorem foldlM_addReference {front : List (Except AttributeFault Attribute)}
    (h : ∀ x ∈ front, ∃ b, x = .ok b ∧ b.key ≠ "r") (column : Nat) :
    front.foldlM addReference column = .ok column := by
  induction front with
  | nil => rfl
  | cons x front ih =>
    obtain ⟨hx, hfront⟩ := List.forall_mem_cons.mp h
    obtain ⟨b, rfl, hkey⟩ := hx
    rw [List.foldlM_cons, addReference, if_neg hkey]
    exact ih hfront

/-- **A cell that states the reference that it would have anyway.** -/
theorem cellOfTag?_gains {tag tag' : Tag} {row column : Nat} (hrow : row < maxRows)
    (hcolumn : column < maxColumns)
    (h : tag.Gains ⟨"r", Text.octets (Position.label ⟨row, column⟩)⟩ tag') :
    cellOfTag? column tag' = cellOfTag? column tag := by
  obtain ⟨front, back, htag, htag'⟩ := h.attributes
  have hwithout := h.without
  rw [htag] at hwithout
  -- In front of the reference the cell is in its column already.
  have hfront : (cellOfTag? column ⟨tag.name, front⟩).map RawCell.column = .ok column := by
    rw [cellOfTag?_column, placing_foldlM,
      foldlM_addReference fun x hx => hwithout x (List.mem_append_left back hx)]
  obtain ⟨cell, hcell, hat⟩ := map_eq_ok.mp hfront
  have hreference :
      addAttribute cell ⟨"r", Text.octets (Position.label ⟨row, column⟩)⟩ = .ok cell := by
    have hlabel := @Position.ofOctets?_label ⟨row, column⟩ (number_lt_wordSize hrow) hcolumn
    simp only [addAttribute, hlabel]
    rw [← hat]
  rw [cellOfTag?] at hcell
  rw [cellOfTag?, cellOfTag?, htag, htag', List.foldlM_append, List.foldlM_append, hcell]
  simp only [bind, Except.bind, List.foldlM_cons, Except.mapError, hreference]

/-! ## One event -/

section Step

variable {p : Place} {e e' : Event}

/-- **In a row** the event that states its place does what the other one does. -/
theorem Scope.Spelled.step_inside (selects : Nat → Bool) {row : Nat} {scan : CellScan} (hrow : p.row? = some row)
    (hcolumn : p.nextColumn = scan.nextColumn) (h : (Scope.among p).Spelled e e') :
    endsRow e' = endsRow e ∧ scan.step selects e' = scan.step selects e := by
  cases h with
  | same => exact ⟨rfl, rfl⟩
  | stated value htag hgains hspells =>
    simp only [Scope.Spells, hrow] at hspells
    cases hgains with
    | @start tag tag' hgain =>
      refine ⟨rfl, ?_⟩
      simp only [CellScan.step, hgain.localName, CellScan.open?]
      by_cases hname : tag.localName = "c"
      · obtain ⟨hlast, hinside, rfl⟩ := hspells (by simp [Event.isTag, hname])
        rw [← hcolumn, cellOfTag?_gains hlast hinside hgain]
      · rw [if_neg hname, if_neg hname]
    | @empty tag tag' hgain =>
      refine ⟨rfl, ?_⟩
      simp only [CellScan.step, hgain.localName, CellScan.openEmpty?]
      by_cases hname : tag.localName = "c"
      · obtain ⟨hlast, hinside, rfl⟩ := hspells (by simp [Event.isTag, hname])
        rw [← hcolumn, cellOfTag?_gains hlast hinside hgain]
      · rw [if_neg hname, if_neg hname]

/-- **Between two rows** the event that states its place does what the other one does. -/
theorem Scope.Spelled.step_between (hrow : p.row? = none) (h : (Scope.among p).Spelled e e') :
    endsRows e' = endsRows e ∧
      match opensRow? e with
      | none => opensRow? e' = none
      | some (tag, hasContent) => ∃ tag', opensRow? e' = some (tag', hasContent) ∧
          rowIndex? p.nextRow tag'.attributes = rowIndex? p.nextRow tag.attributes := by
  cases h with
  | same =>
    refine ⟨rfl, ?_⟩
    cases opensRow? e with
    | none => rfl
    | some opened => exact ⟨opened.1, rfl, rfl⟩
  | stated value htag hgains hspells =>
    simp only [Scope.Spells, hrow] at hspells
    cases hgains with
    | @start tag tag' hgain =>
      refine ⟨rfl, ?_⟩
      simp only [opensRow?, hgain.localName]
      by_cases hname : tag.localName = "row"
      · obtain ⟨hlast, rfl⟩ := hspells (by simp [Event.isTag, hname])
        simp only [if_pos hname]
        exact ⟨tag', rfl, rowIndex?_gains hlast hgain⟩
      · simp only [if_neg hname]
    | @empty tag tag' hgain =>
      refine ⟨rfl, ?_⟩
      simp only [opensRow?, hgain.localName]
      by_cases hname : tag.localName = "row"
      · obtain ⟨hlast, rfl⟩ := hspells (by simp [Event.isTag, hname])
        simp only [if_pos hname]
        exact ⟨tag', rfl, rowIndex?_gains hlast hgain⟩
      · simp only [if_neg hname]

end Step

/-! ## The rows -/

section Rows

variable {selects : Nat → Bool} {fault? : Option Markup.Fault} {events events' : List Event}

/-- **The cells of a row**, some of which state where they stand: the same cells, or the same error.
The rest of the sheet stays one with some places written down. -/
theorem readCells_spellsOut {row : Nat} {scan : CellScan} {p : Place} (hrow : p.row? = some row)
    (hcolumn : p.nextColumn = scan.nextColumn) (h : SpellsOut (.among p) events events') :
    Agree (fun r r' => r'.1 = r.1 ∧
        ∃ column, SpellsOut (.among { nextRow := p.nextRow, nextColumn := column }) r.2 r'.2)
      (readCells selects row fault? scan events) (readCells selects row fault? scan events') := by
  -- Along the row the place goes on as the reading does.
  induction events generalizing events' scan p with
  | nil =>
    cases h
    exact .error _
  | cons e events ih =>
    cases h with
    | cons he hrest =>
      obtain ⟨hend', hstep'⟩ := he.step_inside selects hrow hcolumn
      rw [Scope.step_inRow hrow] at hrest
      rw [readCells, readCells, hend', hstep']
      by_cases hend : endsRow e = true
      · rw [if_pos hend, if_pos hend]
        rw [Place.step_endsRow hrow hend] at hrest
        exact .ok ⟨rfl, p.nextColumn, hrest⟩
      · rw [if_neg hend, if_neg hend]
        cases hstep : scan.step selects e with
        | error cause => exact .error _
        | ok after =>
          obtain ⟨hopen, hnext, hafter⟩ :=
            Place.step_inside hrow hcolumn (by simpa using hend) hstep
          rw [← hnext]
          exact ih hopen hafter hrest

/-- The content of a row, some cells of which state where they stand. -/
theorem contentOf_spellsOut {index : Nat} {hasContent : Bool}
    (h : SpellsOut (.among { nextRow := Text.successor index, row? := if hasContent then some index else none })
      events events') :
    Agree (fun r r' => r'.1 = r.1 ∧
        ∃ column, SpellsOut (.among { nextRow := Text.successor index, nextColumn := column }) r.2 r'.2)
      (contentOf selects index fault? hasContent events)
      (contentOf selects index fault? hasContent events') := by
  cases hasContent with
  | false => exact .ok ⟨rfl, 0, h⟩
  | true => exact readCells_spellsOut rfl rfl h

/-- **The rows of a sheet**, some of which state their number. -/
theorem spellsOut_rowRelation :
    RowRelation fun next events events' =>
      ∃ column, SpellsOut (.among { nextRow := next, nextColumn := column }) events events' where
  nil := by
    rintro next events' ⟨column, h⟩
    cases h
    rfl
  finish := by
    rintro next e rest events' ⟨column, h⟩ hend
    obtain _ | @⟨_, _, e', _, rest', he, -⟩ := h
    exact ⟨e', rest', rfl, (he.step_between rfl).1.trans hend⟩
  other := by
    rintro next e rest events' ⟨column, h⟩ hend hopen
    obtain _ | @⟨_, _, e', _, rest', he, hrest⟩ := h
    obtain ⟨hend', hopen'⟩ := he.step_between rfl
    rw [hopen] at hopen'
    rw [Scope.step_other rfl hend hopen] at hrest
    refine ⟨[e'], rest', rfl, ?_, column, hrest⟩
    rw [List.forall_mem_singleton, hend']
    exact ⟨hend, hopen'⟩
  row := by
    rintro next e rest events' tag hasContent ⟨column, h⟩ hend hopen
    obtain _ | @⟨_, _, e', _, rest', he, hrest⟩ := h
    obtain ⟨hend', hopen'⟩ := he.step_between rfl
    simp only [hopen] at hopen'
    obtain ⟨tag', hopen', hindex'⟩ := hopen'
    refine ⟨e', tag', hasContent, rest', rfl, by rwa [hend'], hopen', hindex', ?_⟩
    intro selects fault? index hindex
    rw [Scope.step_row rfl hend hopen hindex] at hrest
    exact contentOf_spellsOut hrest

/-- **What is before the rows**, where no place is written down: the rows are reached with the same
used range, and they are read the same. -/
theorem openRows_spellsOut (h : SpellsOut .before events events') (depth : Nat) (sawRoot : Bool)
    (dimension : Option Range) :
    Agree SameOpening (openRows fault? depth sawRoot dimension events)
      (openRows fault? depth sawRoot dimension events') := by
  induction events generalizing events' depth sawRoot dimension with
  | nil =>
    cases h
    rw [openRows]
    split
    · exact .ok ⟨rfl, Reading.same_refl _⟩
    · exact .error _
  | cons e events ih =>
    obtain _ | @⟨_, _, e', _, rest', he, hrest⟩ := h
    cases he with
    | same =>
      refine openRows_cons_agree (fun hstarts => ?_) (fun hstarts => ?_) depth sawRoot dimension
      · rw [Scope.step_startsRows hstarts] at hrest
        exact fun selects first last =>
          spellsOut_rowRelation.readRows_same selects first last fault? ⟨0, hrest⟩
      · rw [Scope.step_before hstarts] at hrest
        exact ih hrest
    | stated value htag hgains hspells =>
      -- A row or a cell that stands here is passed over, whatever it states.
      cases hgains with
      | @start tag tag' hgain =>
        have hname : tag.localName ≠ "sheetData" := by
          rintro heq
          simp [Event.isTag, heq] at htag
        rw [Scope.step_before (by simpa [startsRows] using hname)] at hrest
        rw [openRows_start hname, openRows_start (hgain.localName.trans_ne hname)]
        exact ih hrest _ _ _
      | @empty tag tag' hgain =>
        have hname : tag.localName ≠ "sheetData" := by
          rintro heq
          simp [Event.isTag, heq] at htag
        have hdim : tag.localName ≠ "dimension" := by
          rintro heq
          simp [Event.isTag, heq] at htag
        rw [openRows_empty hname hdim, openRows_empty (hgain.localName.trans_ne hname)
          (hgain.localName.trans_ne hdim)]
        exact ih hrest _ _ _

end Rows

/-- The sheet of `sampleStream`, in which the first row and the second cell state where they stand. -/
def sampleSpelledOut : Markup.Stream where
  events := [.start ⟨"worksheet", []⟩, .start ⟨"sheetData", []⟩,
    .start ⟨"row", [.ok ⟨"r", Text.octets (Text.decimal 1)⟩]⟩, .start ⟨"c", []⟩, .start ⟨"v", []⟩,
    .text (.ok "7"), .finish "v", .finish "c",
    .empty ⟨"c", [.ok ⟨"r", Text.octets (Position.label ⟨0, 1⟩)⟩]⟩, .finish "row", .start ⟨"row", []⟩,
    .finish "row", .finish "sheetData", .finish "worksheet"]

/-- The two samples differ in the places that are written out. -/
theorem spellsOut_sample : SpellsOut .before sampleStream.events sampleSpelledOut.events := by
  have hgains : ∀ (name : String) (a : Attribute), Tag.Gains a ⟨name, []⟩ ⟨name, [.ok a]⟩ :=
    fun name a => ⟨rfl, ⟨[], [], rfl, rfl⟩, by simp⟩
  have hrow : (Scope.among {}).Spells (.start ⟨"row", []⟩) (Text.octets (Text.decimal 1)) :=
    fun _ => ⟨by decide, rfl⟩
  have hcell : (Scope.among ⟨1, some 0, 1⟩).Spells (.empty ⟨"c", []⟩)
      (Text.octets (Position.label ⟨0, 1⟩)) :=
    fun _ => ⟨by decide, by decide, rfl⟩
  exact .cons .same <| .cons .same <|
    .cons (.stated _ (by decide) (.start (hgains "row" _)) hrow) <|
    .cons .same <| .cons .same <| .cons .same <| .cons .same <| .cons .same <|
    .cons (.stated _ (by decide) (.empty (hgains "c" _)) hcell) <|
    .cons .same <| .cons .same <| .cons .same <| .cons .same <| .cons .same .nil

end Sheet

namespace Cursor

/-- **Implied places are the ones that could be written.** Take a sheet and write down, at any of its
rows and cells that state no place and stand inside the sheet, the number or the reference of this
place. Whatever the options are, and whatever stops the reading of the document, the two sheets open
alike, with the same used range, and give the same rows, the same number of decoded cells and the same
end. -/
theorem run_spelledOut (sheet : Sheet) (decoder : Decoder) (o : CursorOptions)
    (fault? : Option Markup.Fault) {events events' : List Markup.Event}
    (h : Sheet.SpellsOut .before events events') :
    Agree Same (ofStream? sheet decoder o ⟨events, fault?⟩)
      (ofStream? sheet decoder o ⟨events', fault?⟩) :=
  ofStream?_agree sheet decoder o (Sheet.openRows_spellsOut h 0 false none)

/-- A dense cursor on two of the columns. -/
theorem run_spelledOut_sample : ∃ c c',
    ofStream? default default { columns := some [0, 1], dense := true } Sheet.sampleStream = .ok c ∧
      ofStream? default default { columns := some [0, 1], dense := true } Sheet.sampleSpelledOut = .ok c' ∧
      c.Same c' := by
  have hagree := run_spelledOut default default { columns := some [0, 1], dense := true } none
    Sheet.spellsOut_sample
  obtain ⟨c', hc', hsame⟩ := (show Agree Same (.ok _) _ from hagree).eq_ok
  exact ⟨_, c', rfl, hc', hsame⟩

end Cursor

end Xlsx
