import Xlsx.Proofs.Except
import Xlsx.Proofs.Markup.Content
import Xlsx.Proofs.Sheet.CellSelection
import Xlsx.Proofs.Sheet.Outcome

/-! # A cell as a whole

A cell of a sheet is an element, and whatever stands in it the reading comes out of it as it would
have come out of another one with the same reference: with the same next column, and with one more
cell in the same column if that is selected.

* **`CellScan.Settled.step_settled`**: what is known between two events of a row, whichever columns are
  selected.
* **`CellElement`**: a cell with its content, as it may stand anywhere in a sheet.
* **`cellOfTag?_column`**: its column depends on its reference alone.
* **`CellElement.readCells_eq`**: reading it when no cell is open.
* **`CellElement.openRows_eq`**, **`CellElement.readRows_eq`**: passing it over outside of rows. -/

namespace Xlsx.Sheet

open Markup (Attribute AttributeFault Content Event Tag)

variable {selects : Nat → Bool} {row : Nat} {fault? : Option Markup.Fault}

/-! ## Between two events -/

namespace CellScan

/-- A state in which no element `c` is open holds no cell. -/
theorem Settled.current_eq_none {s : CellScan} (hs : s.Settled false) : s.current = none := by
  by_contra hne
  exact absurd (hs.inside_of_isSome (Option.isSome_iff_ne_none.mpr hne)) (by simp)

/-- **The reading stays settled**, whichever columns are selected. -/
theorem Settled.step_settled {inside : Bool} {s after : CellScan} {e : Event} (hs : s.Settled inside)
    (htag : e.isTag "c" = true → inside = false) (h : s.step selects e = .ok after) :
    after.Settled (e.insideAfter "c" inside) := by
  cases e with
  | start tag =>
    by_cases hname : tag.localName = "c"
    · have hin : inside = false := htag (by simp [Event.isTag, hname])
      subst hin
      have hnone := hs.current_eq_none
      simp only [step, hname, if_true] at h
      obtain ⟨cell, -, rfl⟩ := map_eq_ok.mp h
      exact ⟨fun _ => by simp [Event.insideAfter, hname], fun _ => hs.capture hnone,
        fun _ => hs.inInline hnone, fun _ => hs.phoneticDepth hnone⟩
    · simp only [step, hname, if_false, Except.ok.injEq] at h
      subst h
      have hinside : (inside || tag.localName == "c") = inside := by simp [hname]
      rw [Event.insideAfter, hinside]
      exact (@enter_restrict selects inside s hs _).2
  | empty tag =>
    by_cases hname : tag.localName = "c"
    · simp only [step, hname, if_true] at h
      obtain ⟨cell, -, rfl⟩ := map_eq_ok.mp h
      exact ⟨hs.1, hs.2, hs.3, hs.4⟩
    · simp only [step, hname, if_false, Except.ok.injEq] at h
      subst h
      exact hs
  | finish name =>
    simp only [step, Except.ok.injEq] at h
    subst h
    exact (@leave_restrict selects inside s hs _).2
  | text content => exact (@addText_restrict selects inside s after hs content h).2
  | literal content => exact (@addText_restrict selects inside s after hs content h).2
  | aside =>
    simp only [step, Except.ok.injEq] at h
    subst h
    exact hs

/-- **What no content of a cell changes**: the next column, the cells before, and whether a cell is
open and in which column. -/
structure SamePlace (s after : CellScan) : Prop where
  nextColumn : after.nextColumn = s.nextColumn
  cells : after.cells = s.cells
  column : after.current.map RawCell.column = s.current.map RawCell.column

/-- A state is at its own place. -/
theorem samePlace_refl (s : CellScan) : s.SamePlace s := ⟨rfl, rfl, rfl⟩

/-- Being at the same place may be shown in two turns. -/
theorem SamePlace.trans {s t u : CellScan} (h : s.SamePlace t) (h' : t.SamePlace u) :
    s.SamePlace u :=
  ⟨h'.nextColumn.trans h.nextColumn, h'.cells.trans h.cells, h'.column.trans h.column⟩

/-- An element that begins in a cell leaves its place as it is. -/
theorem samePlace_enter (s : CellScan) (name : String) : s.SamePlace (s.enter name) := by
  refine ⟨enter_nextColumn s name, enter_cells s name, ?_⟩
  cases hopen : s.current with
  | none =>
    unfold enter
    split <;> simp [hopen] <;> split <;> simp [hopen]
  | some cell =>
    obtain ⟨held, hheld, hcolumn⟩ := enter_current hopen name
    rw [hheld, Option.map_some, Option.map_some, hcolumn]

/-- So does one that ends there. -/
theorem samePlace_leave (s : CellScan) {name : String} (h : name ≠ "c") :
    s.SamePlace (s.leave name) := by
  obtain ⟨hcurrent, hcolumn, hcells, -⟩ := leave_of_ne s h
  exact ⟨hcolumn, hcells, by rw [hcurrent]⟩

/-- Text is read without a fault, and leaves the place as it is. -/
theorem samePlace_addText (s : CellScan) {content : Except Markup.TextFault String}
    (h : content.isOk = true) : ∃ after, s.addText content = .ok after ∧ s.SamePlace after := by
  cases content with
  | error cause => simp [Except.isOk, Except.toBool] at h
  | ok text =>
    unfold addText
    split
    · rename_i cell capture hcurrent hcapture
      exact ⟨_, rfl, rfl, rfl, by simp [hcurrent]⟩
    · exact ⟨s, rfl, s.samePlace_refl⟩

/-- Text that is passed over where it belongs to no cell changes no place either. -/
theorem samePlace_of_addText {s after : CellScan} {content : Except Markup.TextFault String}
    (h : s.addText content = .ok after) : s.SamePlace after := by
  cases content with
  | ok text =>
    obtain ⟨next, hnext, hplace⟩ := @samePlace_addText s (.ok text) rfl
    rw [hnext] at h
    exact Except.ok.inj h ▸ hplace
  | error cause =>
    unfold addText at h
    split at h
    · simp at h
    · exact Except.ok.inj h ▸ s.samePlace_refl

end CellScan

/-! ## Contents of a cell -/

/-- The elements that a sheet is made of: none of them stands in a cell. -/
def sheetTags : List String := ["sheetData", "dimension", "row", "c"]

/-- **One event in a cell** is read without an error and changes no place. -/
theorem CellScan.step_content {e : Event} (he : e.avoids sheetTags = true) (s : CellScan) :
    ∃ after, s.step selects e = .ok after ∧ s.SamePlace after := by
  cases e with
  | start tag =>
    have hname : tag.localName ≠ "c" := by
      rintro heq
      simp [Event.avoids, sheetTags, heq] at he
    exact ⟨s.enter tag.localName, by simp [step, hname], s.samePlace_enter _⟩
  | empty tag =>
    have hname : tag.localName ≠ "c" := by
      rintro heq
      simp [Event.avoids, sheetTags, heq] at he
    exact ⟨s, by simp [step, hname], s.samePlace_refl⟩
  | finish name =>
    have hname : Markup.localPart name ≠ "c" := by
      rintro heq
      simp [Event.avoids, sheetTags, heq] at he
    exact ⟨_, rfl, s.samePlace_leave hname⟩
  | text content => exact s.samePlace_addText he
  | literal content => exact s.samePlace_addText he
  | aside => exact ⟨s, rfl, s.samePlace_refl⟩

/-- No event in a cell ends its row. -/
theorem endsRow_of_avoids {e : Event} (he : e.avoids sheetTags = true) : endsRow e = false := by
  cases e with
  | finish name =>
    have hname : Markup.localPart name ≠ "row" := by
      rintro heq
      simp [Event.avoids, sheetTags, heq] at he
    simp [endsRow, hname]
  | _ => rfl

/-- Behind an event that does not end the row the reading goes on from the state behind it. -/
theorem readCells_of_step {s after : CellScan} {e : Event} (hend : endsRow e = false)
    (h : s.step selects e = .ok after) (rest : List Event) :
    readCells selects row fault? s (e :: rest) = readCells selects row fault? after rest := by
  rw [readCells, if_neg (by rw [hend]; decide), h]

/-- **The content of a cell is read without an error** and changes no place. -/
theorem readCells_content {events : List Event} (h : events.all (Event.avoids sheetTags) = true)
    (s : CellScan) (rest : List Event) :
    ∃ after, s.SamePlace after ∧
      readCells selects row fault? s (events ++ rest) = readCells selects row fault? after rest := by
  induction events generalizing s with
  | nil => exact ⟨s, s.samePlace_refl, rfl⟩
  | cons e events ih =>
    rw [List.all_cons, Bool.and_eq_true] at h
    obtain ⟨he, hevents⟩ := h
    obtain ⟨after, hstep, hplace⟩ := CellScan.step_content he s
    obtain ⟨last, hlast, hread⟩ := ih hevents after
    refine ⟨last, hplace.trans hlast, ?_⟩
    rw [List.cons_append, readCells_of_step (endsRow_of_avoids he) hstep, hread]

/-- What stands outside of the rows, and is no element of the sheet, is passed over. -/
theorem openRows_content {content : Content} (h : content.avoids sheetTags = true) (depth : Nat)
    (dimension : Option Range) (rest : List Event) :
    openRows fault? depth true dimension (content.events ++ rest) =
      openRows fault? depth true dimension rest := by
  induction content generalizing depth rest with
  | done => rfl
  | text content more ih => exact ih (Bool.and_eq_true_iff.mp h).2 depth rest
  | literal content more ih => exact ih (Bool.and_eq_true_iff.mp h).2 depth rest
  | aside more ih => exact ih h depth rest
  | empty tag more ih =>
    obtain ⟨htag, hmore⟩ := Bool.and_eq_true_iff.mp h
    have hnot : tag.localName ∉ sheetTags := of_decide_eq_true htag
    simp only [sheetTags, List.mem_cons, not_or] at hnot
    rw [Content.events, List.cons_append, openRows]
    split
    · exact absurd ‹_› hnot.1
    · exact absurd ‹_› hnot.2.1
    · exact ih hmore depth rest
  | element tag inner more ihInner ih =>
    obtain ⟨htag, hinner, hmore⟩ := Content.avoids_element.mp h
    have hname : tag.localName ≠ "sheetData" := fun heq => htag (by rw [heq]; decide)
    rw [Content.events, List.cons_append, List.append_assoc, openRows, if_neg hname,
      ihInner hinner, List.cons_append, openRows, Nat.add_sub_cancel, ih hmore]

/-- What stands between two rows, and neither opens one nor ends the rows, is passed over. -/
theorem readRows_skip {first last next : Nat} {events : List Event}
    (h : ∀ e ∈ events, e.avoids ["sheetData", "row"] = true) (rest : List Event) :
    readRows selects first last fault? next (events ++ rest) =
      readRows selects first last fault? next rest := by
  induction events with
  | nil => rfl
  | cons e events ih =>
    obtain ⟨he, hevents⟩ := List.forall_mem_cons.mp h
    have hend : ¬ endsRows e = true := by
      cases e with
      | finish name =>
        have hname : Markup.localPart name ∉ ["sheetData", "row"] := of_decide_eq_true he
        simp only [List.mem_cons, not_or] at hname
        simpa [endsRows] using hname.1
      | _ => simp [endsRows]
    have hopen : opensRow? e = none := by
      cases e with
      | start tag =>
        have hname : tag.localName ∉ ["sheetData", "row"] := of_decide_eq_true he
        simp only [List.mem_cons, not_or] at hname
        simp [opensRow?, hname.2.1]
      | empty tag =>
        have hname : tag.localName ∉ ["sheetData", "row"] := of_decide_eq_true he
        simp only [List.mem_cons, not_or] at hname
        simp [opensRow?, hname.2.1]
      | _ => rfl
    rw [List.cons_append, readRows_other hend hopen]
    exact ih hevents

/-! ## Its column -/

/-- One more attribute of a cell, as far as its column goes. -/
def addReference (column : Nat) (a : Except AttributeFault Attribute) : Except RowFault Nat :=
  match a with
  | .error cause => .error (.attribute cause)
  | .ok a =>
    if a.key = "r" then
      match Position.ofOctets? a.value with
      | some p => .ok p.column
      | none => .error (.invalidCellReference (Text.utf8Lossy a.value))
    else .ok column

/-- An attribute that says of a cell what it holds, and not where it stands: its type or its style. -/
def isTypeOrStyle : Except AttributeFault Attribute → Bool
  | .ok a => a.key == "t" || a.key == "s"
  | .error _ => false

/-- A type or a style says nothing about the place. -/
theorem addReference_of_isTypeOrStyle {a : Except AttributeFault Attribute}
    (h : isTypeOrStyle a = true) (column : Nat) : addReference column a = .ok column := by
  cases a with
  | error cause => simp [isTypeOrStyle] at h
  | ok a =>
    have hkey : a.key ≠ "r" := by
      rintro heq
      simp [isTypeOrStyle, heq] at h
    simp [addReference, hkey]

/-- What an attribute does to the column of a cell. -/
theorem addAttribute_column (cell : RawCell) (a : Except AttributeFault Attribute) :
    (a.mapError RowFault.attribute >>= addAttribute cell).map RawCell.column =
      addReference cell.column a := by
  cases a with
  | error cause => rfl
  | ok a =>
    show (addAttribute cell a).map RawCell.column = _
    unfold addAttribute addReference
    simp only
    split
    · rename_i hkey
      rw [if_pos hkey]
      cases Position.ofOctets? a.value <;> rfl
    · rename_i hkey
      simp [hkey, Except.map]
    · rename_i hkey
      simp [hkey, Except.map]
    · rename_i hkey _ _
      rw [if_neg hkey]
      rfl

/-- The other attributes of a cell, in order. -/
def placing (attributes : List (Except AttributeFault Attribute)) :
    List (Except AttributeFault Attribute) :=
  attributes.filter fun a => !isTypeOrStyle a

/-- The attributes that say nothing about the place may be left out to find it. -/
theorem placing_foldlM (attributes : List (Except AttributeFault Attribute)) (column : Nat) :
    (placing attributes).foldlM addReference column = attributes.foldlM addReference column := by
  induction attributes generalizing column with
  | nil => rfl
  | cons a attributes ih =>
    rw [placing, List.filter_cons]
    by_cases h : isTypeOrStyle a = true
    · rw [if_neg (by simp [h]), List.foldlM_cons, addReference_of_isTypeOrStyle h]
      exact ih column
    · rw [if_pos (by simp [h]), List.foldlM_cons, List.foldlM_cons]
      cases addReference column a with
      | error cause => rfl
      | ok next => exact ih next

/-- **The column of a cell depends on its attributes other than type and style.** -/
theorem cellOfTag?_column (column : Nat) (tag : Tag) :
    (cellOfTag? column tag).map RawCell.column =
      (placing tag.attributes).foldlM addReference column := by
  have hall : ∀ (attributes : List (Except AttributeFault Attribute)) (cell : RawCell),
      (attributes.foldlM (fun cell (a : Except AttributeFault Attribute) => do
        addAttribute cell (← a.mapError RowFault.attribute)) cell).map RawCell.column =
        attributes.foldlM addReference cell.column := by
    intro attributes
    induction attributes with
    | nil => exact fun cell => rfl
    | cons a attributes ih =>
      intro cell
      rw [List.foldlM_cons, List.foldlM_cons, ← addAttribute_column cell a]
      cases a.mapError RowFault.attribute >>= addAttribute cell with
      | error cause => rfl
      | ok next => exact ih next
  rw [placing_foldlM]
  exact hall tag.attributes { column }

/-- Two tags with the same other attributes open cells in the same column, or fail alike. -/
theorem cellOfTag?_alike {tag tag' : Tag} (h : placing tag'.attributes = placing tag.attributes)
    (column : Nat) :
    (∃ cause, cellOfTag? column tag = .error cause ∧ cellOfTag? column tag' = .error cause) ∨
      ∃ cell cell', cellOfTag? column tag = .ok cell ∧ cellOfTag? column tag' = .ok cell' ∧
        cell'.column = cell.column := by
  have heq : (cellOfTag? column tag').map RawCell.column =
      (cellOfTag? column tag).map RawCell.column := by
    rw [cellOfTag?_column, cellOfTag?_column, h]
  cases hcell : cellOfTag? column tag with
  | error cause =>
    rw [hcell] at heq
    cases hcell' : cellOfTag? column tag' with
    | error cause' =>
      rw [hcell'] at heq
      exact Or.inl ⟨cause, rfl, congrArg Except.error (Except.error.inj heq)⟩
    | ok cell' =>
      rw [hcell'] at heq
      simp [Except.map] at heq
  | ok cell =>
    rw [hcell] at heq
    obtain ⟨cell', hcell', hcolumn⟩ := map_eq_ok.mp heq
    exact Or.inr ⟨cell, cell', rfl, hcell', hcolumn⟩

/-! ## The element -/

/-- **A cell as it may stand in a sheet**: its tag and its content. No element of the sheet stands in
it, and its text can be read. -/
structure CellElement where
  tag : Tag
  content? : Option Content
  isCell : tag.localName = "c"
  avoids : ∀ content ∈ content?, content.avoids sheetTags = true

namespace CellElement

/-- A cell as it stands in a document. -/
def events (x : CellElement) : List Event := x.tag.events x.content?

/-- **Two cells that differ in type, style and content alone.** -/
def Alike (x y : CellElement) : Prop := placing y.tag.attributes = placing x.tag.attributes

/-- The end tag of a cell, behind a content that began with `cell` open if it is selected. -/
theorem leave_content {cell : RawCell} {cells : List RawCell} {after : CellScan}
    (h : CellScan.SamePlace
      { nextColumn := Text.successor cell.column,
        current := if selects cell.column then some cell else none, cells } after) :
    ∃ raw : RawCell, raw.column = cell.column ∧ after.leave "c" =
      { nextColumn := Text.successor cell.column,
        cells := if selects cell.column then raw :: cells else cells } := by
  obtain ⟨nextColumn, current, capture, inInline, depth, done⟩ := after
  obtain ⟨hnext, hcells, hcolumn⟩ := h
  simp only at hnext hcells hcolumn
  subst hnext hcells
  by_cases hsel : selects cell.column = true
  · simp only [hsel, if_true, Option.map_some] at hcolumn ⊢
    obtain ⟨held, rfl, hheld⟩ := Option.map_eq_some_iff.mp hcolumn
    exact ⟨complete held, by rw [complete_column, hheld], rfl⟩
  · rw [if_neg hsel, Option.map_none, Option.map_eq_none_iff] at hcolumn
    subst hcolumn
    exact ⟨cell, rfl, by rw [if_neg hsel]; rfl⟩

/-- **The reading of a cell.** From a state in which none is open, it fails with its reference or comes
out with one more cell in its column, if that is selected. -/
theorem readCells_eq (x : CellElement) (column : Nat) (cells : List RawCell) (rest : List Event) :
    match cellOfTag? column x.tag with
    | .error cause =>
      readCells selects row fault? { nextColumn := column, cells } (x.events ++ rest) =
        .error (.malformed (some row) cause)
    | .ok cell => ∃ raw : RawCell, raw.column = cell.column ∧
        readCells selects row fault? { nextColumn := column, cells } (x.events ++ rest) =
          readCells selects row fault?
            { nextColumn := Text.successor cell.column,
              cells := if selects cell.column then raw :: cells else cells } rest := by
  obtain ⟨tag, content?, hcell, havoids⟩ := x
  simp only [events]
  cases content? with
  | none =>
    rw [Tag.events, List.singleton_append, readCells, if_neg (by simp [endsRow])]
    simp only [CellScan.step, hcell, if_true, CellScan.openEmpty?]
    cases cellOfTag? column tag with
    | error cause => rfl
    | ok cell => exact ⟨cell, rfl, rfl⟩
  | some content =>
    rw [Tag.events, List.cons_append, readCells, if_neg (by simp [endsRow])]
    simp only [CellScan.step, hcell, if_true, CellScan.open?]
    cases cellOfTag? column tag with
    | error cause => rfl
    | ok cell =>
      obtain ⟨after, hplace, hread⟩ := @readCells_content selects row fault? content.events
        (havoids content rfl)
        { nextColumn := Text.successor cell.column
          current := if selects cell.column then some cell else none
          cells }
        (.finish tag.name :: rest)
      obtain ⟨raw, hraw, hleave⟩ := leave_content hplace
      have hname : Markup.localPart tag.name = "c" := hcell
      have hend : endsRow (.finish tag.name) = false := by simp [endsRow, hname]
      have hstep : after.step selects (.finish tag.name) = .ok (after.leave "c") := by
        rw [CellScan.step, hname]
      refine ⟨raw, hraw, ?_⟩
      simp only [Except.map, List.append_assoc, List.singleton_append]
      rw [hread, readCells_of_step hend hstep, hleave]

/-- **A cell outside of the rows**: it is passed over like any other element. -/
theorem openRows_eq (x : CellElement) (depth : Nat) (sawRoot : Bool) (dimension : Option Range)
    (rest : List Event) :
    openRows fault? depth sawRoot dimension (x.events ++ rest) =
      openRows fault? depth true dimension rest := by
  obtain ⟨tag, content?, hcell, havoids⟩ := x
  simp only [events]
  cases content? with
  | none => simp [Tag.events, openRows, hcell]
  | some content =>
    rw [Tag.events, List.cons_append, List.append_assoc, openRows]
    rw [if_neg (by rw [hcell]; decide), openRows_content (havoids content rfl), List.singleton_append,
      openRows, Nat.add_sub_cancel]

/-- **A cell between two rows** is passed over. -/
theorem readRows_eq (x : CellElement) (first last next : Nat) (rest : List Event) :
    readRows selects first last fault? next (x.events ++ rest) =
      readRows selects first last fault? next rest := by
  obtain ⟨tag, content?, hcell, havoids⟩ := x
  refine readRows_skip (fun e he => ?_) rest
  simp only [events] at he
  cases content? with
  | none =>
    rw [Tag.events, List.mem_singleton] at he
    subst he
    simp [Event.avoids, hcell]
  | some content =>
    have hname : Markup.localPart tag.name = "c" := hcell
    rw [Tag.events, List.mem_cons, List.mem_append, List.mem_singleton] at he
    rcases he with rfl | he | rfl
    · simp [Event.avoids, hcell]
    · exact Event.avoids_subset (by decide) (List.all_eq_true.mp (havoids content rfl) e he)
    · simp [Event.avoids, hname]

end CellElement

end Xlsx.Sheet
