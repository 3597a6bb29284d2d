import Xlsx.Proofs.Markup.RichText
import Xlsx.Proofs.Sheet.CellContent

/-! # The texts of a cell

A cell stores its value in elements `v` and inline text in elements `is`, the latter with runs and
pronunciations like a shared string. However these texts are cut into pieces, reading the cell puts
the pieces together again.

* **`Content.valueText`**, **`Content.inlineText?`**: the texts in the content of a cell.
* **`Stored`**: a cell with such texts added.
* **`readCells_plain`**, **`readCells_nothing`**, **`readCells_richText`**, **`readCells_stored`**:
  what reading does in a text, where nothing is stored, in inline text and in a cell.
* **`CellElement.readCells_stored`**: reading a selected cell. -/

namespace Xlsx

open Markup (Content Event Tag)

namespace Markup.Content

/-- **The value in the content of a cell.** -/
def valueText : Content → String
  | done => ""
  | text _ rest => rest.valueText
  | literal _ rest => rest.valueText
  | aside rest => rest.valueText
  | empty _ rest => rest.valueText
  | element tag inner rest =>
    (if tag.localName = "v" then inner.plainText else "") ++ rest.valueText

/-- **The inline text in the content of a cell**, if there is an element with one. -/
def inlineText? : Content → Option String
  | done => none
  | text _ rest => rest.inlineText?
  | literal _ rest => rest.inlineText?
  | aside rest => rest.inlineText?
  | empty _ rest => rest.inlineText?
  | element tag inner rest =>
    if tag.localName = "is" then some (inner.itemText ++ rest.inlineText?.getD "")
    else rest.inlineText?

/-- The names that mean something in a row. -/
def cellTags : List String := ["v", "is", "sheetData", "dimension", "row", "c"]

/-- The content of a cell: its values are texts, its inline texts are strings, and neither stands in
another element. -/
def isCellContent : Content → Bool
  | done => true
  | text _ rest => rest.isCellContent
  | literal _ rest => rest.isCellContent
  | aside rest => rest.isCellContent
  | empty _ rest => rest.isCellContent
  | element tag inner rest =>
    (match tag.localName with
      | "v" => inner.isPlain
      | "is" => inner.isRichText cellTags
      | _ => inner.avoids cellTags) && rest.isCellContent

end Markup.Content

namespace Sheet

open Markup.Content (cellTags)

variable {selects : Nat → Bool} {row : Nat} {fault? : Option Markup.Fault}

/-- **A cell with texts added** to its value and, if there is one, to its inline text. -/
structure Stored (value : String) (inline? : Option String) (cell held : RawCell) : Prop where
  column : held.column = cell.column
  type : held.type = cell.type
  style : held.style = cell.style
  value : held.value.getD "" = cell.value.getD "" ++ value
  inlineText : held.inlineText =
    match inline? with
    | none => cell.inlineText
    | some text => some (cell.inlineText.getD "" ++ text)

/-- A cell with nothing added is itself. -/
theorem stored_refl (cell : RawCell) : Stored "" none cell cell :=
  ⟨rfl, rfl, rfl, String.append_empty.symm, rfl⟩

/-- A cell that has inline text, with none added. -/
theorem stored_empty {cell : RawCell} (h : cell.inlineText.isSome = true) :
    Stored "" (some "") cell cell := by
  obtain ⟨text, htext⟩ := Option.isSome_iff_exists.mp h
  exact ⟨rfl, rfl, rfl, String.append_empty.symm, by simp [htext]⟩

/-- Inline text and more of it, each if there is one. -/
def joinText : Option String → Option String → Option String
  | none, more => more
  | some text, more => some (text ++ more.getD "")

/-- Texts that are added one after the other. -/
theorem Stored.trans {value value' : String} {inline? inline?' : Option String}
    {cell mid held : RawCell} (h : Stored value inline? cell mid) (h' : Stored value' inline?' mid held) :
    Stored (value ++ value') (joinText inline? inline?') cell held := by
  refine ⟨h'.column.trans h.column, h'.type.trans h.type, h'.style.trans h.style, ?_, ?_⟩
  · rw [h'.value, h.value, String.append_assoc]
  · cases inline? with
    | none =>
      rw [h'.inlineText, h.inlineText]
      rfl
    | some text =>
      rw [h'.inlineText, h.inlineText]
      cases inline?' with
      | none => simp [joinText]
      | some text' => simp [joinText, String.append_assoc]

/-! ## Text that is collected -/

/-- What a piece of text adds to the value. -/
def Capture.toValue (capture : Capture) (text : String) : String :=
  match capture with
  | .value => text
  | .inlineText => ""

/-- What a piece of text adds to the inline text. -/
def Capture.toInline? (capture : Capture) (text : String) : Option String :=
  match capture with
  | .value => none
  | .inlineText => some text

/-- One piece of text. -/
theorem stored_put (capture : Capture) (text : String) (cell : RawCell) :
    Stored (capture.toValue text) (capture.toInline? text) cell (capture.put text cell) := by
  cases capture with
  | value => exact ⟨rfl, rfl, rfl, rfl, rfl⟩
  | inlineText => exact ⟨rfl, rfl, rfl, String.append_empty.symm, rfl⟩

/-- A piece of text and what follows it. -/
theorem Stored.put {capture : Capture} {text more : String} {cell held : RawCell}
    (h : Stored (capture.toValue more) (capture.toInline? more) (capture.put text cell) held) :
    Stored (capture.toValue (text ++ more)) (capture.toInline? (text ++ more)) cell held := by
  have hboth := (stored_put capture text cell).trans h
  cases capture with
  | value => exact hboth
  | inlineText => exact hboth

/-- Inline text that is put to a cell is there. -/
theorem isSome_put {capture : Capture} (text : String) (cell : RawCell)
    (h : capture = .inlineText) : (capture.put text cell).inlineText.isSome = true := by
  subst h
  rfl

/-- **A text without elements** is put to the cell piece by piece. Inline text has begun before. -/
theorem readCells_plain {content : Content} (h : content.isPlain = true) {capture : Capture}
    {cell : RawCell} (hinline : capture = .inlineText → cell.inlineText.isSome = true) (column : Nat)
    (inInline : Bool) (depth : Nat) (cells : List RawCell) :
    ∃ held, Stored (capture.toValue content.plainText) (capture.toInline? content.plainText) cell held ∧
      ∀ rest, readCells selects row fault? ⟨column, some cell, some capture, inInline, depth, cells⟩
          (content.events ++ rest) =
        readCells selects row fault? ⟨column, some held, some capture, inInline, depth, cells⟩ rest := by
  induction content generalizing cell with
  | done =>
    refine ⟨cell, ?_, fun rest => rfl⟩
    cases capture with
    | value => exact stored_refl cell
    | inlineText => exact stored_empty (hinline rfl)
  | text content more ih =>
    obtain ⟨hok, hmore⟩ := Bool.and_eq_true_iff.mp h
    cases content with
    | error cause => simp [Except.isOk, Except.toBool] at hok
    | ok piece =>
      obtain ⟨held, hheld, hread⟩ := ih hmore (isSome_put piece cell)
      refine ⟨held, hheld.put, fun rest => ?_⟩
      rw [← hread, Content.events, List.cons_append]
      exact readCells_of_step rfl rfl _
  | literal content more ih =>
    obtain ⟨hok, hmore⟩ := Bool.and_eq_true_iff.mp h
    cases content with
    | error cause => simp [Except.isOk, Except.toBool] at hok
    | ok piece =>
      obtain ⟨held, hheld, hread⟩ := ih hmore (isSome_put piece cell)
      refine ⟨held, hheld.put, fun rest => ?_⟩
      rw [← hread, Content.events, List.cons_append]
      exact readCells_of_step rfl rfl _
  | aside more ih =>
    obtain ⟨held, hheld, hread⟩ := ih h hinline
    refine ⟨held, hheld, fun rest => ?_⟩
    rw [← hread, Content.events, List.cons_append]
    exact readCells_of_step rfl rfl _
  | empty tag more ih => simp [Content.isPlain] at h
  | element tag inner more ihInner ih => simp [Content.isPlain] at h

/-! ## Elements in a cell -/

/-- The names that mean something in a row are no fewer than those that do so in a sheet. -/
theorem not_mem_sheetTags {name : String} (h : name ∉ cellTags) : name ∉ sheetTags :=
  fun hmem => h (List.mem_cons_of_mem _ (List.mem_cons_of_mem _ hmem))

/-- The start of an element that means nothing where it stands. -/
theorem CellScan.enter_self {s : CellScan} {name : String} (hvalue : name ≠ "v") (hinline : name ≠ "is")
    (hphonetic : name = "rPh" → s.inInline = false)
    (htext : name = "t" → (s.inInline && s.phoneticDepth == 0) = false) : s.enter name = s := by
  unfold CellScan.enter
  split
  · exact absurd rfl hvalue
  · exact absurd rfl hinline
  · exact if_neg (by simp [hphonetic rfl])
  · exact if_neg (by simp [htext rfl])
  · rfl

/-- The end of an element that means nothing where it stands. -/
theorem CellScan.leave_self {s : CellScan} {name : String} (hcell : name ≠ "c") (hinline : name ≠ "is")
    (hphonetic : name = "rPh" → s.phoneticDepth = 0) (hcapture : s.capture = none) :
    s.leave name = s := by
  obtain ⟨column, current, capture, inInline, depth, cells⟩ := s
  have hnone : capture = none := hcapture
  subst hnone
  unfold CellScan.leave
  split
  · rfl
  · rfl
  · have hzero : depth = 0 := hphonetic rfl
    rw [hzero]
    rfl
  · exact absurd rfl hinline
  · exact absurd rfl hcell
  · rfl

/-- An element whose start and end lead from `s` to `inside` and from `closing` to `after`, if its
content leads from `inside` to `closing`. -/
theorem readCells_element {s inside closing after : CellScan} {tag : Tag} {inner more : Content}
    (hname : tag.localName ∉ sheetTags) (henter : s.enter tag.localName = inside)
    (hinner : ∀ rest, readCells selects row fault? inside (inner.events ++ rest) =
      readCells selects row fault? closing rest)
    (hleave : closing.leave tag.localName = after) (rest : List Event) :
    readCells selects row fault? s ((Content.element tag inner more).events ++ rest) =
      readCells selects row fault? after (more.events ++ rest) := by
  have hcell : tag.localName ≠ "c" := fun heq => hname (by rw [heq]; decide)
  have hrow : Markup.localPart tag.name ≠ "row" := fun heq => hname (by
    rw [Tag.localName, heq]
    decide)
  have hstart : s.step selects (.start tag) = .ok inside := by
    rw [CellScan.step, if_neg hcell, henter]
  have hfinish : closing.step selects (.finish tag.name) = .ok after := congrArg Except.ok hleave
  have hend : endsRow (.finish tag.name) = false := by simp [endsRow, hrow]
  rw [Markup.Content.events_element_append, readCells_of_step rfl hstart, hinner,
    readCells_of_step hend hfinish]

/-- Reading on behind an empty tag that is no cell. -/
theorem readCells_empty {s : CellScan} {tag : Tag} (hname : tag.localName ∉ sheetTags)
    (rest : List Event) :
    readCells selects row fault? s (.empty tag :: rest) = readCells selects row fault? s rest := by
  have hcell : tag.localName ≠ "c" := fun heq => hname (by rw [heq]; decide)
  exact readCells_of_step rfl (by rw [CellScan.step, if_neg hcell]) rest

/-- Text that is not collected. -/
theorem readCells_text {s : CellScan} (h : s.capture = none) (content : Except Markup.TextFault String)
    (rest : List Event) :
    readCells selects row fault? s (.text content :: rest) = readCells selects row fault? s rest ∧
      readCells selects row fault? s (.literal content :: rest) =
        readCells selects row fault? s rest := by
  have hsame : s.addText content = .ok s := by
    unfold CellScan.addText
    rw [h]
    cases s.current <;> rfl
  have htext : s.step selects (.text content) = .ok s := hsame
  have hliteral : s.step selects (.literal content) = .ok s := hsame
  exact ⟨readCells_of_step rfl htext rest, readCells_of_step rfl hliteral rest⟩

/-- **Where nothing is stored** text is passed over: in a pronunciation, and outside of values and
inline text. -/
theorem readCells_nothing {content : Content} (h : content.avoids cellTags = true) (column : Nat)
    (cell : RawCell) (inInline : Bool) (depth : Nat) (hdepth : inInline = true ↔ 0 < depth)
    (cells : List RawCell) (rest : List Event) :
    readCells selects row fault? ⟨column, some cell, none, inInline, depth, cells⟩
        (content.events ++ rest) =
      readCells selects row fault? ⟨column, some cell, none, inInline, depth, cells⟩ rest := by
  induction content generalizing depth rest with
  | done => rfl
  | text content more ih =>
    rw [Content.events, List.cons_append, (readCells_text rfl content _).1]
    exact ih (Bool.and_eq_true_iff.mp h).2 depth hdepth rest
  | literal content more ih =>
    rw [Content.events, List.cons_append, (readCells_text rfl content _).2]
    exact ih (Bool.and_eq_true_iff.mp h).2 depth hdepth rest
  | aside more ih =>
    rw [Content.events, List.cons_append, readCells_of_step rfl rfl]
    exact ih h depth hdepth rest
  | empty tag more ih =>
    obtain ⟨htag, hmore⟩ := Bool.and_eq_true_iff.mp h
    have hname : tag.localName ∉ sheetTags := not_mem_sheetTags (of_decide_eq_true htag)
    rw [Content.events, List.cons_append, readCells_empty hname]
    exact ih hmore depth hdepth rest
  | element tag inner more ihInner ih =>
    obtain ⟨htag, hinner, hmore⟩ := Content.avoids_element.mp h
    have hname := not_mem_sheetTags htag
    simp only [cellTags, List.mem_cons, not_or] at htag
    obtain ⟨hvalue, hinline, -, -, -, hcell, -⟩ := htag
    by_cases hopens : tag.localName = "rPh" ∧ inInline = true
    · -- One more pronunciation is open in it.
      obtain ⟨hphonetic, rfl⟩ := hopens
      have henter : (CellScan.mk column (some cell) none true depth cells).enter tag.localName =
          ⟨column, some cell, none, true, depth + 1, cells⟩ := by
        rw [hphonetic]
        rfl
      have hleave : (CellScan.mk column (some cell) none true (depth + 1) cells).leave tag.localName =
          ⟨column, some cell, none, true, depth, cells⟩ := by
        rw [hphonetic]
        rfl
      rw [readCells_element hname henter (ihInner hinner (depth + 1) (by simp)) hleave]
      exact ih hmore depth hdepth rest
    · have hclosed : tag.localName = "rPh" → inInline = false := fun hphonetic =>
        Bool.eq_false_iff.mpr fun hopen => hopens ⟨hphonetic, hopen⟩
      have hzero : tag.localName = "rPh" → depth = 0 := by
        intro hphonetic
        simpa [hclosed hphonetic] using hdepth
      have hsilent : (inInline && depth == 0) = false := by
        cases inInline with
        | false => rfl
        | true => simpa using Nat.pos_iff_ne_zero.mp (hdepth.mp rfl)
      have henter := @CellScan.enter_self ⟨column, some cell, none, inInline, depth, cells⟩
        tag.localName hvalue hinline hclosed fun _ => hsilent
      have hleave := @CellScan.leave_self ⟨column, some cell, none, inInline, depth, cells⟩
        tag.localName hcell hinline hzero rfl
      rw [readCells_element hname henter (ihInner hinner depth hdepth) hleave]
      exact ih hmore depth hdepth rest

/-- **Inline text** is put to the cell, which has begun to have some. -/
theorem readCells_richText {content : Content} (h : content.isRichText cellTags = true)
    {cell : RawCell} (hinline : cell.inlineText.isSome = true) (column : Nat) (cells : List RawCell) :
    ∃ held, Stored "" (some content.itemText) cell held ∧
      ∀ rest, readCells selects row fault? ⟨column, some cell, none, true, 0, cells⟩
          (content.events ++ rest) =
        readCells selects row fault? ⟨column, some held, none, true, 0, cells⟩ rest := by
  induction content generalizing cell with
  | done => exact ⟨cell, stored_empty hinline, fun rest => rfl⟩
  | text content more ih =>
    obtain ⟨held, hheld, hread⟩ := ih h hinline
    refine ⟨held, hheld, fun rest => ?_⟩
    rw [Content.events, List.cons_append, (readCells_text rfl content _).1, hread]
  | literal content more ih =>
    obtain ⟨held, hheld, hread⟩ := ih h hinline
    refine ⟨held, hheld, fun rest => ?_⟩
    rw [Content.events, List.cons_append, (readCells_text rfl content _).2, hread]
  | aside more ih =>
    obtain ⟨held, hheld, hread⟩ := ih h hinline
    refine ⟨held, hheld, fun rest => ?_⟩
    rw [Content.events, List.cons_append, readCells_of_step rfl rfl, hread]
  | empty tag more ih =>
    obtain ⟨htag, hmore⟩ := Bool.and_eq_true_iff.mp h
    have hname : tag.localName ∉ sheetTags := not_mem_sheetTags (of_decide_eq_true htag)
    obtain ⟨held, hheld, hread⟩ := ih hmore hinline
    refine ⟨held, hheld, fun rest => ?_⟩
    rw [Content.events, List.cons_append, readCells_empty hname, hread]
  | element tag inner more ihInner ih =>
    simp only [Content.isRichText, Bool.and_eq_true] at h
    obtain ⟨⟨htag, hinner⟩, hmore⟩ := h
    have htag : tag.localName ∉ cellTags := of_decide_eq_true htag
    have hname := not_mem_sheetTags htag
    simp only [cellTags, List.mem_cons, not_or] at htag
    obtain ⟨hvalue, hinlineTag, -, -, -, hcell, -⟩ := htag
    -- The element puts its text, and what follows it puts more.
    have hgo : ∀ {mid : RawCell} {text : String}, Stored "" (some text) cell mid →
        (∀ rest, readCells selects row fault? ⟨column, some cell, none, true, 0, cells⟩
            ((Content.element tag inner more).events ++ rest) =
          readCells selects row fault? ⟨column, some mid, none, true, 0, cells⟩ (more.events ++ rest)) →
        ∃ held, Stored "" (some (text ++ more.itemText)) cell held ∧
          ∀ rest, readCells selects row fault? ⟨column, some cell, none, true, 0, cells⟩
              ((Content.element tag inner more).events ++ rest) =
            readCells selects row fault? ⟨column, some held, none, true, 0, cells⟩ rest := by
      intro mid text hmid hread
      have hbegun : mid.inlineText.isSome = true := by
        rw [hmid.inlineText]
        rfl
      obtain ⟨held, hheld, hbehind⟩ := ih hmore hbegun
      exact ⟨held, hmid.trans hheld, fun rest => (hread rest).trans (hbehind rest)⟩
    rw [Content.itemText]
    split at hinner
    · rename_i hphonetic
      have henter : (CellScan.mk column (some cell) none true 0 cells).enter tag.localName =
          ⟨column, some cell, none, true, 1, cells⟩ := by
        rw [hphonetic]
        rfl
      have hleave : (CellScan.mk column (some cell) none true 1 cells).leave tag.localName =
          ⟨column, some cell, none, true, 0, cells⟩ := by
        rw [hphonetic]
        rfl
      have hsilent := @readCells_nothing selects row fault? inner hinner column cell true 1 (by simp)
        cells
      exact hgo (stored_empty hinline) (readCells_element hname henter hsilent hleave)
    · rename_i htext
      obtain ⟨mid, hmid, hread⟩ := @readCells_plain selects row fault? inner hinner .inlineText cell
        (fun _ => hinline) column true 0 cells
      have henter : (CellScan.mk column (some cell) none true 0 cells).enter tag.localName =
          ⟨column, some cell, some .inlineText, true, 0, cells⟩ := by
        rw [htext]
        rfl
      have hleave : (CellScan.mk column (some mid) (some .inlineText) true 0 cells).leave tag.localName =
          ⟨column, some mid, none, true, 0, cells⟩ := by
        rw [htext]
        rfl
      exact hgo hmid (readCells_element hname henter hread hleave)
    · rename_i hphonetic htext
      obtain ⟨mid, hmid, hread⟩ := ihInner hinner hinline
      have henter := @CellScan.enter_self ⟨column, some cell, none, true, 0, cells⟩ tag.localName
        hvalue hinlineTag (absurd · hphonetic) (absurd · htext)
      have hleave := @CellScan.leave_self ⟨column, some mid, none, true, 0, cells⟩ tag.localName
        hcell hinlineTag (absurd · hphonetic) rfl
      exact hgo hmid (readCells_element hname henter hread hleave)

/-- **The content of a cell** is put to the cell: its values and its inline text. -/
theorem readCells_stored {content : Content} (havoids : content.avoids sheetTags = true)
    (h : content.isCellContent = true) (cell : RawCell) (column : Nat) (cells : List RawCell) :
    ∃ held, Stored content.valueText content.inlineText? cell held ∧
      ∀ rest, readCells selects row fault? ⟨column, some cell, none, false, 0, cells⟩
          (content.events ++ rest) =
        readCells selects row fault? ⟨column, some held, none, false, 0, cells⟩ rest := by
  induction content generalizing cell with
  | done => exact ⟨cell, stored_refl cell, fun rest => rfl⟩
  | text content more ih =>
    obtain ⟨held, hheld, hread⟩ := ih (Bool.and_eq_true_iff.mp havoids).2 h cell
    refine ⟨held, hheld, fun rest => ?_⟩
    rw [Content.events, List.cons_append, (readCells_text rfl content _).1, hread]
  | literal content more ih =>
    obtain ⟨held, hheld, hread⟩ := ih (Bool.and_eq_true_iff.mp havoids).2 h cell
    refine ⟨held, hheld, fun rest => ?_⟩
    rw [Content.events, List.cons_append, (readCells_text rfl content _).2, hread]
  | aside more ih =>
    obtain ⟨held, hheld, hread⟩ := ih havoids h cell
    refine ⟨held, hheld, fun rest => ?_⟩
    rw [Content.events, List.cons_append, readCells_of_step rfl rfl, hread]
  | empty tag more ih =>
    obtain ⟨htag, hmore⟩ := Bool.and_eq_true_iff.mp havoids
    obtain ⟨held, hheld, hread⟩ := ih hmore h cell
    refine ⟨held, hheld, fun rest => ?_⟩
    rw [Content.events, List.cons_append, readCells_empty (of_decide_eq_true htag), hread]
  | element tag inner more ihInner ih =>
    obtain ⟨hname, -, hmore⟩ := Content.avoids_element.mp havoids
    simp only [Content.isCellContent, Bool.and_eq_true] at h
    obtain ⟨hinner, hcontent⟩ := h
    -- The element stores its texts, and what follows it stores more.
    have hgo : ∀ {mid : RawCell} {value : String} {inline? : Option String},
        Stored value inline? cell mid →
        (∀ rest, readCells selects row fault? ⟨column, some cell, none, false, 0, cells⟩
            ((Content.element tag inner more).events ++ rest) =
          readCells selects row fault? ⟨column, some mid, none, false, 0, cells⟩ (more.events ++ rest)) →
        ∃ held, Stored (value ++ more.valueText) (joinText inline? more.inlineText?) cell held ∧
          ∀ rest, readCells selects row fault? ⟨column, some cell, none, false, 0, cells⟩
              ((Content.element tag inner more).events ++ rest) =
            readCells selects row fault? ⟨column, some held, none, false, 0, cells⟩ rest := by
      intro mid value inline? hmid hread
      obtain ⟨held, hheld, hbehind⟩ := ih hmore hcontent mid
      exact ⟨held, hmid.trans hheld, fun rest => (hread rest).trans (hbehind rest)⟩
    rw [Content.valueText, Content.inlineText?]
    split at hinner
    · rename_i hvalue
      obtain ⟨mid, hmid, hread⟩ := @readCells_plain selects row fault? inner hinner .value cell
        (by simp) column false 0 cells
      have henter : (CellScan.mk column (some cell) none false 0 cells).enter tag.localName =
          ⟨column, some cell, some .value, false, 0, cells⟩ := by
        rw [hvalue]
        rfl
      have hleave : (CellScan.mk column (some mid) (some .value) false 0 cells).leave tag.localName =
          ⟨column, some mid, none, false, 0, cells⟩ := by
        rw [hvalue]
        rfl
      rw [if_pos hvalue, if_neg (by rw [hvalue]; decide)]
      exact hgo hmid (readCells_element hname henter hread hleave)
    · rename_i hinline
      obtain ⟨mid, hmid, hread⟩ := @readCells_richText selects row fault? inner hinner
        (Capture.inlineText.put "" cell) rfl column cells
      have henter : (CellScan.mk column (some cell) none false 0 cells).enter tag.localName =
          ⟨column, some (Capture.inlineText.put "" cell), none, true, 0, cells⟩ := by
        rw [hinline]
        rfl
      have hleave : (CellScan.mk column (some mid) none true 0 cells).leave tag.localName =
          ⟨column, some mid, none, false, 0, cells⟩ := by
        rw [hinline]
        rfl
      rw [if_neg (by rw [hinline]; decide), if_pos hinline]
      have hboth : Stored "" (some inner.itemText) cell mid := by
        simpa [Capture.toValue, Capture.toInline?, joinText] using
          (stored_put .inlineText "" cell).trans hmid
      exact hgo hboth (readCells_element hname henter hread hleave)
    · rename_i hvalue hinline
      have hsilent := @readCells_nothing selects row fault? inner hinner column cell false 0 (by simp)
        cells
      have hcell : tag.localName ≠ "c" := fun heq => hname (by rw [heq]; decide)
      have henter := @CellScan.enter_self ⟨column, some cell, none, false, 0, cells⟩ tag.localName
        hvalue hinline (fun _ => rfl) fun _ => rfl
      have hleave := @CellScan.leave_self ⟨column, some cell, none, false, 0, cells⟩ tag.localName
        hcell hinline (fun _ => rfl) rfl
      rw [if_neg hvalue, if_neg hinline]
      exact hgo (stored_refl cell) (readCells_element hname henter hsilent hleave)

end Sheet

end Xlsx
