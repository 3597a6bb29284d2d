import Xlsx.Proofs.Sheet.CellText
import Xlsx.Proofs.Sheet.CursorRun
import Xlsx.Proofs.Sheet.Projection
import Xlsx.Proofs.Text.Escaping
import Xlsx.Proofs.Workbook.StringItems

/-! # Three ways to store a text

A cell can name a shared string, hold its text itself, or hold the text that a formula gave. Each way
has a reader of its own for the elements in which the text stands, and decodes the escaped characters
at another place. Whichever way a text is stored, the cell holds this text.

* **`typeName?`**: the type that the attributes of a cell state.
* **`CellElement.Gives`**: a cell that is read as some content, wherever it stands.
* **`CellElement.Gives.next`**: what a cursor gives there.
* **`CellElement.gives_escaped`**: the three ways. -/

namespace Xlsx.Sheet

open Markup (Attribute AttributeFault Content Event Tag)

/-! ## The type of a cell -/

/-- **The type that attributes state**: the last one, if there is one. -/
def typeName? : List (Except AttributeFault Attribute) → Option String
  | [] => none
  | .error _ :: rest => typeName? rest
  | .ok a :: rest =>
    (typeName? rest).or (if a.key = "t" then some (Text.utf8Lossy a.value) else none)

/-- An attribute puts no text to a cell, and it is the one `t` that gives a type. -/
theorem addAttribute_type {cell after : RawCell} {a : Attribute} (h : addAttribute cell a = .ok after) :
    after.type = (if a.key = "t" then .ofOctets a.value else cell.type) ∧
      after.value = cell.value ∧ after.inlineText = cell.inlineText := by
  unfold addAttribute at h
  split at h
  · rename_i hkey
    have hne : a.key ≠ "t" := by rw [hkey]; decide
    split at h
    · rw [← Except.ok.inj h, if_neg hne]
      exact ⟨rfl, rfl, rfl⟩
    · simp at h
  · rename_i hkey
    rw [← Except.ok.inj h, if_pos hkey]
    exact ⟨rfl, rfl, rfl⟩
  · rename_i hkey
    have hne : a.key ≠ "t" := by rw [hkey]; decide
    rw [← Except.ok.inj h, if_neg hne]
    exact ⟨rfl, rfl, rfl⟩
  · rename_i hne _
    rw [← Except.ok.inj h, if_neg hne]
    exact ⟨rfl, rfl, rfl⟩

/-- **Attributes** put no text to a cell, and the type that they state, if there is one. -/
theorem foldlM_addAttribute_type {attributes : List (Except AttributeFault Attribute)}
    {start cell : RawCell}
    (h : attributes.foldlM (fun cell (a : Except AttributeFault Attribute) => do
      addAttribute cell (← a.mapError RowFault.attribute)) start = .ok cell) :
    cell.type = ((typeName? attributes).map CellType.ofName).getD start.type ∧
      cell.value = start.value ∧ cell.inlineText = start.inlineText := by
  induction attributes generalizing start with
  | nil =>
    rw [← Except.ok.inj h]
    exact ⟨rfl, rfl, rfl⟩
  | cons a attributes ih =>
    rw [List.foldlM_cons] at h
    obtain ⟨next, hnext, hrest⟩ := bind_eq_ok.mp h
    obtain ⟨b, hb, hadd⟩ := bind_eq_ok.mp hnext
    rw [mapError_eq_ok.mp hb]
    obtain ⟨htype, hvalue, hinline⟩ := ih hrest
    obtain ⟨htype', hvalue', hinline'⟩ := addAttribute_type hadd
    refine ⟨?_, hvalue.trans hvalue', hinline.trans hinline'⟩
    rw [htype, htype', typeName?]
    cases typeName? attributes with
    | some name => rfl
    | none =>
      by_cases hkey : b.key = "t"
      · rw [if_pos hkey, if_pos hkey]
        rfl
      · rw [if_neg hkey, if_neg hkey]
        rfl

/-- **A cell at its start tag** has the stated type and no text. -/
theorem cellOfTag?_type {column : Nat} {tag : Tag} {cell : RawCell}
    (h : cellOfTag? column tag = .ok cell) :
    cell.type = ((typeName? tag.attributes).map CellType.ofName).getD .number ∧
      cell.value = none ∧ cell.inlineText = none :=
  foldlM_addAttribute_type h

/-! ## What a cell is read as -/

/-- **A cell that is read as `cell`.** In whatever row, behind whatever cells, if it is selected then a
cell in its column is added that is decoded to `cell`. -/
def CellElement.Gives (d : Decoder) (x : CellElement) (cell : Cell) : Prop :=
  ∀ (selects : Nat → Bool) (row : Nat) (fault? : Option Markup.Fault) (column : Nat)
    (cells : List RawCell) (rest : List Event) (named : RawCell),
    cellOfTag? column x.tag = .ok named → selects named.column = true →
      ∃ stored : RawCell, stored.column = named.column ∧ d.decode stored = .ok cell ∧
        readCells selects row fault? { nextColumn := column, cells } (x.events ++ rest) =
          readCells selects row fault?
            { nextColumn := Text.successor named.column, cells := stored :: cells } rest

/-- What a cell is read as is decided by its type and by the texts in it. -/
theorem CellElement.gives_of_texts {d : Decoder} {x : CellElement} {content : Content} {cell : Cell}
    (hx : x.content? = some content) (hcontent : content.isCellContent = true)
    (hdecode : ∀ held : RawCell,
      held.type = ((typeName? x.tag.attributes).map CellType.ofName).getD .number →
      held.value.getD "" = content.valueText → held.inlineText = content.inlineText? →
        d.decode (complete held) = .ok cell) : x.Gives d cell := by
  intro selects row fault? column cells rest named hnamed hsel
  obtain ⟨tag, content?, hcell, havoids⟩ := x
  simp only at hx
  subst hx
  obtain ⟨htype, hvalue, hinline⟩ := cellOfTag?_type hnamed
  obtain ⟨held, hheld, hread⟩ := @readCells_stored selects row fault? content (havoids content rfl)
    hcontent named (Text.successor named.column) cells
  have hname : Markup.localPart tag.name = "c" := hcell
  have hend : endsRow (.finish tag.name) = false := by simp [endsRow, hname]
  have hstart : CellScan.step selects { nextColumn := column, cells } (.start tag) =
      .ok ⟨Text.successor named.column, some named, none, false, 0, cells⟩ := by
    rw [CellScan.step, if_pos hcell, CellScan.open?, hnamed, Except.map, if_pos hsel]
  have hfinish : CellScan.step selects ⟨Text.successor named.column, some held, none, false, 0, cells⟩
      (.finish tag.name) =
        .ok { nextColumn := Text.successor named.column, cells := complete held :: cells } := by
    rw [CellScan.step, hname]
    rfl
  refine ⟨complete held, by rw [complete_column, hheld.column], hdecode held ?_ ?_ ?_, ?_⟩
  · rw [hheld.type, htype]
  · rw [hheld.value, hvalue, Option.getD_none, String.empty_append]
  · rw [hheld.inlineText, hinline]
    cases content.inlineText? with
    | none => rfl
    | some text => simp
  · rw [CellElement.events, Tag.events, List.cons_append, List.append_assoc, List.singleton_append,
      readCells_of_step rfl hstart, hread, readCells_of_step hend hfinish]

/-- A wanted row whose cells can be read. -/
theorem readRow_wanted {selects : Nat → Bool} {first last next index : Nat} {fault? : Option Markup.Fault}
    {tag : Tag} {events rest : List Event} {cells : List RawCell} (htag : tag.localName = "row")
    (hindex : rowIndex? next tag.attributes = .ok index) (hfirst : first ≤ index)
    (hlast : index ≤ last) (hcells : readCells selects index fault? {} events = .ok (cells, rest)) :
    readRow selects first last fault? next (.start tag :: events) =
      .ok (some (⟨index, cells⟩, rest)) := by
  have hopen : opensRow? (.start tag) = some (tag, true) := by rw [opensRow?, if_pos htag]
  have hskip : ¬ index < first := Nat.not_lt.mpr hfirst
  have hcontent : contentOf (fun column => !decide (index < first) && selects column) index fault? true
      events = .ok (cells, rest) := by
    have hall : (fun column => !decide (index < first) && selects column) = selects := by
      simp [hskip]
    rw [hall]
    exact hcells
  rw [readRow, if_neg (by simp [endsRows]), hopen]
  simp only [hindex, if_neg (Nat.not_lt.mpr hlast)]
  split
  · rename_i hfailed
    rw [hcontent] at hfailed
    simp at hfailed
  · rename_i hfound
    rw [hcontent] at hfound
    simp only [Except.ok.injEq, Prod.mk.injEq] at hfound
    rw [if_neg (by simp [hskip]), ← hfound.1, ← hfound.2]

/-- **What a cursor gives there.** If a sheet goes on with a row that has this cell alone, the next
row has what it is read as in its column. -/
theorem CellElement.Gives.next {c : Cursor} {x : CellElement} {cell : Cell} (h : x.Gives c.decoder cell)
    {next index : Nat} {tag : Tag} {name : String} {rest : List Event} {fault? : Option Markup.Fault}
    {named : RawCell} (hprojection : c.projection = none) (hpending : c.pending = none)
    (hdense : c.dense = false)
    (hreading : c.reading = .streaming next
      ⟨.start tag :: (x.events ++ .finish name :: rest), fault?⟩)
    (htag : tag.localName = "row") (hname : Markup.localPart name = "row")
    (hindex : rowIndex? next tag.attributes = .ok index) (hfirst : c.firstRow ≤ index)
    (hlast : index ≤ c.lastRow) (hnamed : cellOfTag? 0 x.tag = .ok named) :
    ∃ row, c.next.1 = .ok (some row) ∧ row.index = index ∧ row.get? named.column = some cell := by
  have hselects : c.selects = fun _ => true := by
    funext column
    rw [Cursor.selects, hprojection]
  obtain ⟨stored, hcolumn, hdecode, hread⟩ :=
    h (fun _ => true) index fault? 0 [] (.finish name :: rest) named hnamed rfl
  have hend : endsRow (.finish name) = true := by simp [endsRow, hname]
  have hcells : readCells (fun _ => true) index fault? {} (x.events ++ .finish name :: rest) =
      .ok ([stored], rest) := by
    refine hread.trans ?_
    rw [readCells, if_pos hend]
  have hrow : c.reading.next c.selects c.firstRow c.lastRow =
      (.ok (some ⟨index, [stored]⟩), .streaming (Text.successor index) ⟨rest, fault?⟩) := by
    rw [hreading, hselects, Reading.next]
    simp only [readRow_wanted htag hindex hfirst hlast hcells]
  refine ⟨c.decodeRow ⟨index, [stored]⟩, ?_, c.decodeRow_index _, ?_⟩
  · rw [Cursor.next_of_sparse hpending hdense hrow]
  · rw [Cursor.decodeRow, hprojection]
    simp [Row.get?, hcolumn, Decoder.decodeLossy, hdecode]

/-! ## The three ways -/

/-- No characters are no number. -/
theorem word?_nil : Text.word? [] = none := rfl

/-- A value that writes a number is not blank. -/
theorem content?_of_word {raw : RawCell} {text : String} {i : Nat} (htext : raw.value.getD "" = text)
    (hword : Text.word? (Text.trimChars text.toList) = some i) : raw.content? = some (Text.trim text) := by
  have hne : Text.trimChars text.toList ≠ [] := by
    intro hnil
    rw [hnil, word?_nil] at hword
    simp at hword
  have hvalue : raw.value = some text := by
    cases hraw : raw.value with
    | some value =>
      rw [hraw, Option.getD_some] at htext
      rw [htext]
    | none =>
      rw [hraw, Option.getD_none] at htext
      rw [← htext] at hne
      exact absurd rfl hne
  have hfilled : (Text.trim text).isEmpty = false := by
    rw [Bool.eq_false_iff, ne_eq, String.isEmpty_iff, Text.trim]
    intro hempty
    exact hne (by simpa using congrArg String.toList hempty)
  exact RawCell.content?_of_value hvalue hfilled

/-- A cell of some type with a content of one element. -/
def CellElement.sampleOf (type : List UInt8) (name : String) (inner : Content)
    (havoids : (Content.element ⟨name, []⟩ inner .done).avoids sheetTags = true) : CellElement where
  tag := ⟨"c", [.ok ⟨"t", type⟩]⟩
  content? := some (.element ⟨name, []⟩ inner .done)
  isCell := by
    show Markup.localPart "c" = "c"
    decide +kernel
  avoids := by
    intro content hcontent
    rw [← Option.mem_some.mp hcontent]
    exact havoids

/-- The text `_A` in two runs, with a pronunciation. -/
def sampleRuns : Content :=
  .element ⟨"r", []⟩ (.element ⟨"t", []⟩ (.text (.ok "_x005F__x0") (.aside .done)) .done) <|
    .element ⟨"rPh", []⟩ (.element ⟨"t", []⟩ (.text (.ok "x") .done) .done) <|
    .element ⟨"r", []⟩ (.element ⟨"t", []⟩ (.literal (.ok "041_") .done) .done) .done

end Xlsx.Sheet
