import Xlsx.Proofs.Markup.Entries
import Xlsx.Proofs.Workbook.PartCuts

/-! # Which styles show dates

A style shows dates if its format does, and a format does by the last code that the part gives for its
number, or else by its number. The formats may stand behind the styles that use them, and elements of
the same names in other lists do not count.

* **`formatOf?`**, **`styleOf`**: what an entry says.
* **`Content.IsStyleSheet`**: the contents of a part of styles.
* **`Scan.foldlM_entries`**: what reading a content does.
* **`ofStream?_entries`**: the table that a part holds.
* **`Decoder.decode_number`**: the cell that a number becomes.
* **`dateStyles_entries`**: which cells a part of styles turns into dates. -/

namespace Xlsx

open Markup (Apart Attribute Content Event Frame Tag apart_element)

/-! ## Attributes -/

namespace Markup.Tag

/-- The attributes of a tag that can be read. -/
def readAttributes (tag : Tag) : List Attribute := tag.attributes.filterMap Except.toOption

/-- The first attribute with some key. -/
def attribute? (tag : Tag) (key : String) : Option Attribute := tag.readAttributes.find? (·.key == key)

/-- **A tag whose attributes can be read**: each of them stands there once, and a format code is text. -/
structure IsReadable (tag : Tag) : Prop where
  whole : ∀ a ∈ tag.attributes, a.isOk = true
  distinct : (tag.readAttributes.map Attribute.key).Nodup
  expands : ∀ a ∈ tag.readAttributes, a.key = "formatCode" → a.expanded.isOk = true

instance IsReadable.decidable (tag : Tag) : Decidable tag.IsReadable :=
  decidable_of_iff ((∀ a ∈ tag.attributes, a.isOk = true) ∧
      (tag.readAttributes.map Attribute.key).Nodup ∧
      ∀ a ∈ tag.readAttributes, a.key = "formatCode" → a.expanded.isOk = true)
    ⟨fun h => ⟨h.1, h.2.1, h.2.2⟩, fun h => ⟨h.whole, h.distinct, h.expands⟩⟩

/-- There is nothing else among its attributes. -/
theorem IsReadable.attributes_eq {tag : Tag} (h : tag.IsReadable) :
    tag.attributes = tag.readAttributes.map .ok := by
  have hmap : ∀ {as : List (Except AttributeFault Attribute)}, (∀ a ∈ as, a.isOk = true) →
      as = (as.filterMap Except.toOption).map .ok := by
    intro as has
    induction as with
    | nil => rfl
    | cons a as ih =>
      obtain ⟨ha, hrest⟩ := List.forall_mem_cons.mp has
      cases a with
      | error cause => exact Bool.noConfusion ha
      | ok a => exact congrArg (.ok a :: ·) (ih hrest)
  exact hmap h.whole

end Markup.Tag

namespace StyleTable

/-! ## What an entry says -/

/-- The number of a format that a tag states. -/
def formatId? (tag : Tag) : Option Nat := (tag.attribute? "numFmtId").bind formatNumber?

/-- The code of a format that a tag states. -/
def formatCode? (tag : Tag) : Option String :=
  (tag.attribute? "formatCode").bind fun a => a.expanded.toOption

/-- The number of a format and whether its code shows dates, unless one of the two is missing. -/
def formatOf? (tag : Tag) : Option (Nat × Bool) :=
  (formatId? tag).bind fun id => (formatCode? tag).map fun code => (id, DateFormat.isDateCode code.toList)

/-- The number of the format of a style, zero if it is missing or cannot be read. -/
def styleOf (tag : Tag) : Nat := (formatId? tag).getD 0

/-- A key that stands in front does not follow. -/
theorem find?_eq_none_of_nodup {a : Attribute} {as : List Attribute} {key : String}
    (h : ((a :: as).map Attribute.key).Nodup) (hkey : a.key = key) : as.find? (·.key == key) = none := by
  rw [List.map_cons, List.nodup_cons] at h
  rw [List.find?_eq_none]
  intro b hb heq
  exact h.1 (List.mem_map.mpr ⟨b, hb, (beq_iff_eq.mp heq).trans hkey.symm⟩)

/-- The number and the code of a format, each as it was before if no attribute states it. -/
theorem formatFrom_eq {as : List Attribute} (hdistinct : (as.map Attribute.key).Nodup)
    (hexpands : ∀ a ∈ as, a.key = "formatCode" → a.expanded.isOk = true) (id : Option Nat)
    (code : Option String) :
    formatFrom id code (as.map .ok) =
      .ok ((as.find? (·.key == "numFmtId")).elim id formatNumber?,
        (as.find? (·.key == "formatCode")).elim code fun a => a.expanded.toOption) := by
  induction as generalizing id code with
  | nil => rfl
  | cons a as ih =>
    obtain ⟨hcode, hrest⟩ := List.forall_mem_cons.mp hexpands
    have ih := ih (List.nodup_cons.mp hdistinct).2 hrest
    rw [List.map_cons, List.find?_cons, List.find?_cons]
    unfold formatFrom
    -- What an attribute states is not stated again, so what is known behind it stays.
    split
    · rename_i hkey
      rw [ih, find?_eq_none_of_nodup hdistinct hkey, hkey]
      rfl
    · rename_i hkey
      cases hexpanded : a.expanded with
      | error cause =>
        rw [hexpanded] at hcode
        exact Bool.noConfusion (hcode hkey)
      | ok value =>
        have hstep := ih id (some value)
        rw [find?_eq_none_of_nodup hdistinct hkey] at hstep
        simp only [hstep, hkey, hexpanded, beq_self_eq_true, Option.elim]
        rfl
    · rename_i hid hcode
      rw [ih, beq_eq_false_iff_ne.mpr hid, beq_eq_false_iff_ne.mpr hcode]

/-- **The number and the code of a format**, from all its attributes. -/
theorem formatFrom_attributes {tag : Tag} (h : tag.IsReadable) :
    formatFrom none none tag.attributes = .ok (formatId? tag, formatCode? tag) := by
  have helim : ∀ {α β : Type} (o : Option α) (f : α → Option β), o.elim none f = o.bind f := by
    intro α β o f
    cases o <;> rfl
  rw [h.attributes_eq, formatFrom_eq h.distinct h.expands, helim, helim]
  rfl

/-- **The number of the format of a style**, from all its attributes. -/
theorem styleFormat_attributes {tag : Tag} (h : tag.IsReadable) :
    styleFormat tag.attributes = .ok (styleOf tag) := by
  have hlist : ∀ as : List Attribute, styleFormat (as.map .ok) =
      .ok (((as.find? (·.key == "numFmtId")).bind formatNumber?).getD 0) := by
    intro as
    induction as with
    | nil => rfl
    | cons a as ih =>
      rw [List.map_cons, styleFormat, List.find?_cons]
      by_cases hkey : a.key = "numFmtId"
      · rw [if_pos hkey, hkey]
        rfl
      · rw [if_neg hkey, ih, beq_eq_false_iff_ne.mpr hkey]
  rw [h.attributes_eq, hlist]
  rfl

end StyleTable

/-! ## Parts of styles -/

namespace Markup.Content

/-- A content whose lists are apart and whose formats and styles can be read, if it stands inside the
lists that are said to be open. -/
structure IsStyleSheetFrom (inFormats inStyles : Bool) (content : Content) : Prop where
  formatsApart : Apart "numFmts" inFormats content.events
  stylesApart : Apart "cellXfs" inStyles content.events
  formats : ∀ tag ∈ content.entriesFrom "numFmts" "numFmt" inFormats, tag.IsReadable
  styles : ∀ tag ∈ content.entriesFrom "cellXfs" "xf" inStyles, tag.IsReadable

instance IsStyleSheetFrom.decidable (inFormats inStyles : Bool) (content : Content) :
    Decidable (content.IsStyleSheetFrom inFormats inStyles) :=
  decidable_of_iff (Apart "numFmts" inFormats content.events ∧ Apart "cellXfs" inStyles content.events ∧
      (∀ tag ∈ content.entriesFrom "numFmts" "numFmt" inFormats, tag.IsReadable) ∧
      ∀ tag ∈ content.entriesFrom "cellXfs" "xf" inStyles, tag.IsReadable)
    ⟨fun h => ⟨h.1, h.2.1, h.2.2.1, h.2.2.2⟩,
      fun h => ⟨h.formatsApart, h.stylesApart, h.formats, h.styles⟩⟩

/-- **The content of a part of styles**: no list stands inside another one of its name, and the attributes
of what is listed can be read. Other elements may be anything. -/
def IsStyleSheet (content : Content) : Prop := content.IsStyleSheetFrom false false

instance IsStyleSheet.decidable (content : Content) : Decidable content.IsStyleSheet :=
  inferInstanceAs (Decidable (content.IsStyleSheetFrom false false))

namespace IsStyleSheetFrom

variable {inFormats inStyles : Bool} {tag : Tag} {inner rest : Content}

/-- An empty tag and what follows it. -/
theorem of_empty (h : (empty tag rest).IsStyleSheetFrom inFormats inStyles) :
    (∀ t ∈ tag.entry "numFmt" inFormats, t.IsReadable) ∧
      (∀ t ∈ tag.entry "xf" inStyles, t.IsReadable) ∧ rest.IsStyleSheetFrom inFormats inStyles := by
  obtain ⟨hformat, hmoreFormats⟩ := List.forall_mem_append.mp h.formats
  obtain ⟨hstyle, hmoreStyles⟩ := List.forall_mem_append.mp h.styles
  exact ⟨hformat, hstyle, h.formatsApart.2, h.stylesApart.2, hmoreFormats, hmoreStyles⟩

/-- An element and what follows it. -/
theorem of_element (h : (element tag inner rest).IsStyleSheetFrom inFormats inStyles) :
    (tag.localName = "numFmts" → inFormats = false) ∧ (tag.localName = "cellXfs" → inStyles = false) ∧
      (∀ t ∈ tag.entry "numFmt" inFormats, t.IsReadable) ∧
      (∀ t ∈ tag.entry "xf" inStyles, t.IsReadable) ∧
      inner.IsStyleSheetFrom (inFormats || tag.localName == "numFmts")
        (inStyles || tag.localName == "cellXfs") ∧
      rest.IsStyleSheetFrom inFormats inStyles := by
  obtain ⟨hnoFormats, hinnerFormats, hmoreFormats⟩ := apart_element.mp h.formatsApart
  obtain ⟨hnoStyles, hinnerStyles, hmoreStyles⟩ := apart_element.mp h.stylesApart
  obtain ⟨hformat, hformats⟩ := List.forall_mem_append.mp h.formats
  obtain ⟨hinnerFormat, hmoreFormat⟩ := List.forall_mem_append.mp hformats
  obtain ⟨hstyle, hstyles⟩ := List.forall_mem_append.mp h.styles
  obtain ⟨hinnerStyle, hmoreStyle⟩ := List.forall_mem_append.mp hstyles
  exact ⟨hnoFormats, hnoStyles, hformat, hstyle, ⟨hinnerFormats, hinnerStyles, hinnerFormat, hinnerStyle⟩,
    hmoreFormats, hmoreStyles, hmoreFormat, hmoreStyle⟩

end IsStyleSheetFrom

end Markup.Content

namespace StyleTable

/-! ## Reading a content -/

namespace Scan

/-- What has been read, and some formats and styles more. -/
def adding (s : Scan) (formats styles : List Tag) : Scan :=
  { s with
    formats := (formats.filterMap formatOf?).reverse ++ s.formats
    styles := (styles.map styleOf).reverse ++ s.styles }

/-- Adding nothing changes nothing. -/
theorem adding_nil (s : Scan) : s.adding [] [] = s := rfl

/-- Formats and styles one after the other. -/
theorem adding_adding (s : Scan) (formats formats' styles styles' : List Tag) :
    (s.adding formats styles).adding formats' styles' = s.adding (formats ++ formats') (styles ++ styles') := by
  simp [adding]

/-- **A tag that can be read** is added to the list where it counts. -/
theorem add_eq {s : Scan} {tag : Tag}
    (hformat : ∀ t ∈ tag.entry "numFmt" s.inFormats, t.IsReadable)
    (hstyle : ∀ t ∈ tag.entry "xf" s.inStyles, t.IsReadable) :
    s.add tag = .ok (s.adding (tag.entry "numFmt" s.inFormats) (tag.entry "xf" s.inStyles)) := by
  unfold add
  split
  · rename_i hname
    have hother : tag.entry "xf" s.inStyles = [] := Tag.entry_of_ne (by rw [hname]; decide)
    rw [hother]
    by_cases hin : s.inFormats = true
    · have hentry : tag.entry "numFmt" s.inFormats = [tag] := Tag.entry_of_inside hin hname
      have hread : tag.IsReadable := hformat tag (hentry ▸ List.mem_singleton_self tag)
      rw [if_pos hin, formatFrom_attributes hread, hentry]
      cases hid : formatId? tag with
      | none => simp [adding, formatOf?, hid, bind, Except.bind, pure, Except.pure]
      | some id =>
        cases hcode : formatCode? tag <;>
          simp [adding, formatOf?, hid, hcode, bind, Except.bind, pure, Except.pure]
    · rw [if_neg hin, Tag.entry_of_outside hin, adding_nil]
  · rename_i hname
    have hother : tag.entry "numFmt" s.inFormats = [] := Tag.entry_of_ne (by rw [hname]; decide)
    rw [hother]
    by_cases hin : s.inStyles = true
    · have hentry : tag.entry "xf" s.inStyles = [tag] := Tag.entry_of_inside hin hname
      have hread : tag.IsReadable := hstyle tag (hentry ▸ List.mem_singleton_self tag)
      rw [if_pos hin, styleFormat_attributes hread, hentry]
      rfl
    · rw [if_neg hin, Tag.entry_of_outside hin, adding_nil]
  · rename_i hformat hstyle
    rw [Tag.entry_of_ne hformat, Tag.entry_of_ne hstyle, adding_nil]

/-- The start of an element opens the list of its name. -/
theorem enter_eq (s : Scan) (name : String) :
    s.enter name =
      { s with
        inFormats := s.inFormats || name == "numFmts"
        inStyles := s.inStyles || name == "cellXfs" } := by
  unfold enter
  split
  · simp
  · simp
  · rename_i hformats hstyles
    rw [beq_eq_false_iff_ne.mpr hformats, beq_eq_false_iff_ne.mpr hstyles, Bool.or_false, Bool.or_false]

/-- The end of an element closes the list of its name. -/
theorem leave_eq (s : Scan) (name : String) :
    s.leave name =
      { s with
        inFormats := s.inFormats && name != "numFmts"
        inStyles := s.inStyles && name != "cellXfs" } := by
  unfold leave
  split
  · simp
  · simp
  · rename_i hformats hstyles
    rw [bne_iff_ne.mpr hformats, bne_iff_ne.mpr hstyles, Bool.and_true, Bool.and_true]

/-- Behind the end of an element the same lists are open as in front of its start. -/
theorem leave_enter {s : Scan} {tag : Tag} (hformats : tag.localName = "numFmts" → s.inFormats = false)
    (hstyles : tag.localName = "cellXfs" → s.inStyles = false) (formats styles : List Tag) :
    ((s.enter tag.localName).adding formats styles).leave tag.localName = s.adding formats styles := by
  rw [leave_eq, enter_eq]
  simp only [adding, Markup.insideAfter_finish hformats, Markup.insideAfter_finish hstyles]

/-- The start of an element that can be read. -/
theorem step_start {s : Scan} {tag : Tag}
    (hformat : ∀ t ∈ tag.entry "numFmt" s.inFormats, t.IsReadable)
    (hstyle : ∀ t ∈ tag.entry "xf" s.inStyles, t.IsReadable) :
    s.step (.start tag) = .ok ((s.enter tag.localName).adding (tag.entry "numFmt" s.inFormats)
      (tag.entry "xf" s.inStyles)) := by
  have hformats : tag.entry "numFmt" (s.enter tag.localName).inFormats =
      tag.entry "numFmt" s.inFormats := by
    rw [enter_eq]
    exact Tag.entry_enter (by decide) s.inFormats tag
  have hstyles : tag.entry "xf" (s.enter tag.localName).inStyles = tag.entry "xf" s.inStyles := by
    rw [enter_eq]
    exact Tag.entry_enter (by decide) s.inStyles tag
  have hadd := @add_eq (s.enter tag.localName) tag (hformats ▸ hformat) (hstyles ▸ hstyle)
  rw [hformats, hstyles] at hadd
  exact hadd

/-- **A content** adds its formats and styles, and leaves the lists as open as they were. -/
theorem foldlM_entries {content : Content} {s : Scan}
    (h : content.IsStyleSheetFrom s.inFormats s.inStyles) (rest : List Event) :
    (content.events ++ rest).foldlM Scan.step s =
      rest.foldlM Scan.step (s.adding (content.entriesFrom "numFmts" "numFmt" s.inFormats)
        (content.entriesFrom "cellXfs" "xf" s.inStyles)) := by
  induction content generalizing s rest with
  | done => rfl
  | text content more ih => exact ih ⟨h.formatsApart.2, h.stylesApart.2, h.formats, h.styles⟩ rest
  | literal content more ih => exact ih ⟨h.formatsApart.2, h.stylesApart.2, h.formats, h.styles⟩ rest
  | aside more ih => exact ih ⟨h.formatsApart.2, h.stylesApart.2, h.formats, h.styles⟩ rest
  | empty tag more ih =>
    obtain ⟨hformat, hstyle, hmore⟩ := h.of_empty
    have hstep : s.step (.empty tag) = .ok _ := add_eq hformat hstyle
    rw [Content.events, List.cons_append, foldlM_of_ok hstep, Content.entriesFrom, Content.entriesFrom,
      ← adding_adding]
    exact @ih (s.adding _ _) hmore rest
  | element tag inner more ihInner ih =>
    obtain ⟨hnoFormats, hnoStyles, hformat, hstyle, hinner, hmore⟩ := h.of_element
    -- Between its tags the list of the element is open, and behind them it is as before.
    have hstart := step_start hformat hstyle
    generalize hinside : (s.enter tag.localName).adding (tag.entry "numFmt" s.inFormats)
      (tag.entry "xf" s.inStyles) = inside at hstart
    have hinFormats : inside.inFormats = (s.inFormats || tag.localName == "numFmts") := by
      rw [← hinside, enter_eq]
      rfl
    have hinStyles : inside.inStyles = (s.inStyles || tag.localName == "cellXfs") := by
      rw [← hinside, enter_eq]
      rfl
    rw [← hinFormats, ← hinStyles] at hinner
    have hfinish : ∀ formats styles, (inside.adding formats styles).step (.finish tag.name) =
        .ok (s.adding (tag.entry "numFmt" s.inFormats ++ formats) (tag.entry "xf" s.inStyles ++ styles)) := by
      intro formats styles
      rw [← hinside, adding_adding]
      exact congrArg Except.ok (leave_enter hnoFormats hnoStyles _ _)
    rw [Content.events_element_append, foldlM_of_ok hstart, ihInner hinner, foldlM_of_ok (hfinish _ _),
      @ih (s.adding _ _) hmore rest, adding_adding, List.append_assoc, List.append_assoc, hinFormats,
      hinStyles]
    rfl

end Scan

end StyleTable

/-! ## The table of a part -/

namespace Markup.Content

/-- **The formats of a part**: of each entry of its lists that gives both, the number and whether the
code shows dates. -/
def formats (content : Content) : List (Nat × Bool) :=
  (content.entries "numFmts" "numFmt").filterMap StyleTable.formatOf?

/-- **The styles of a part**: of each entry of its lists, the number of its format. -/
def styles (content : Content) : List Nat := (content.entries "cellXfs" "xf").map StyleTable.styleOf

variable {frame : Frame}

/-- The formats of one content and then those of the other. -/
theorem formats_append (first second : Content) :
    (first.append second).formats = first.formats ++ second.formats := by
  rw [formats, entries, entriesFrom_append, List.filterMap_append]
  rfl

/-- The styles of one content and then those of the other. -/
theorem styles_append (first second : Content) :
    (first.append second).styles = first.styles ++ second.styles := by
  rw [styles, entries, entriesFrom_append, List.map_append]
  rfl

/-- The formats of a part are those of its pieces, in order. -/
theorem formats_fill (hroot : frame.root.localName ≠ "numFmts") (piece : Content) :
    (frame.fill piece).formats =
      frame.prolog.formats ++ (frame.before.formats ++ (piece.formats ++ frame.after.formats) ++
        frame.epilog.formats) := by
  rw [formats, Frame.entries_fill hroot]
  simp only [List.filterMap_append]
  rfl

/-- The styles of a part are those of its pieces, in order. -/
theorem styles_fill (hroot : frame.root.localName ≠ "cellXfs") (piece : Content) :
    (frame.fill piece).styles =
      frame.prolog.styles ++ (frame.before.styles ++ (piece.styles ++ frame.after.styles) ++
        frame.epilog.styles) := by
  rw [styles, Frame.entries_fill hroot]
  simp only [List.map_append]
  rfl

/-- A part of styles stays one when two of its pieces change places. -/
theorem IsStyleSheet.swap {first second : Content} (hformats : frame.root.localName ≠ "numFmts")
    (hstyles : frame.root.localName ≠ "cellXfs") (h : (frame.fill (first.append second)).IsStyleSheet) :
    (frame.fill (second.append first)).IsStyleSheet where
  formatsApart := (Frame.apart_swap hformats first second).mp h.formatsApart
  stylesApart := (Frame.apart_swap hstyles first second).mp h.stylesApart
  formats tag htag := h.formats tag ((Frame.entries_swap hformats first second).mem_iff.mpr htag)
  styles tag htag := h.styles tag ((Frame.entries_swap hstyles first second).mem_iff.mpr htag)

end Markup.Content

namespace StyleTable

/-- **Whether a format shows dates**: by the last code given for its number, or else by its number. -/
def showsDates (formats : List (Nat × Bool)) (id : Nat) : Bool :=
  match (formats.filter (·.1 == id)).getLast? with
  | some format => format.2
  | none => DateFormat.isBuiltin id

/-- What is looked up from the back is the last one. -/
theorem lookup_reverse (formats : List (Nat × Bool)) (id : Nat) :
    formats.reverse.lookup id = (formats.filter (·.1 == id)).getLast?.map Prod.snd := by
  have hlookup : ∀ formats : List (Nat × Bool),
      formats.lookup id = (formats.filter (·.1 == id)).head?.map Prod.snd := by
    intro formats
    induction formats with
    | nil => rfl
    | cons format formats ih =>
      rw [List.lookup_cons, List.filter_cons, BEq.comm]
      by_cases hid : (format.1 == id) = true
      · rw [hid]
        rfl
      · rw [Bool.not_eq_true] at hid
        rw [hid, ih]
        rfl
  rw [hlookup, List.filter_reverse, List.head?_reverse]

/-- **The table of a part**: one flag for each style, in order. -/
theorem ofStream?_entries {content : Content} (h : content.IsStyleSheet) :
    ofStream? ⟨content.events, none⟩ = .ok ⟨(content.styles.map (showsDates content.formats)).toArray⟩ := by
  have hread := @Scan.foldlM_entries content {} h []
  rw [List.append_nil] at hread
  -- The formats are known with the last one in front, so the first one found is the last one given.
  have hflag : ∀ id : Nat,
      (content.formats.reverse.lookup id).getD (DateFormat.isBuiltin id) = showsDates content.formats id := by
    intro id
    rw [lookup_reverse, showsDates]
    cases (content.formats.filter (·.1 == id)).getLast? <;> rfl
  rw [ofStream?, Markup.Stream.read_events, hread]
  refine congrArg (fun flags : List Bool => Except.ok (StyleTable.mk flags.toArray)) ?_
  show ((content.styles.reverse ++ []).reverse.map fun id =>
    ((content.formats.reverse ++ []).lookup id).getD (DateFormat.isBuiltin id)) = _
  rw [List.append_nil, List.append_nil, List.reverse_reverse]
  exact List.map_congr_left fun id _ => hflag id

/-- A style shows dates if it is in the table and its flag is set. -/
theorem isDate_iff (t : StyleTable) (style : Nat) :
    t.isDate style = true ↔ t.dateStyles[style]? = some true := by
  rw [isDate, Array.getD_eq_getD_getElem?]
  cases t.dateStyles[style]? with
  | none => simp
  | some flag => simp

end StyleTable

/-- **The cell that a number becomes**: a date if its style shows dates, and the number otherwise. -/
theorem Decoder.decode_number (d : Decoder) {raw : RawCell} {value : String} {x : Double}
    (htype : raw.type = .number) (hvalue : raw.value = some value)
    (hx : Decimal.finite? (Text.trim value) = some x) :
    d.decode raw =
      .ok (if d.styles.dateStyles[raw.style]? = some true then .date x d.epoch else .number x) := by
  have hfilled : (Text.trim value).isEmpty = false := by
    -- No number is written without digits.
    rw [Bool.eq_false_iff]
    intro hempty
    have hnone : Decimal.finite? "" = none := by decide +kernel
    rw [String.isEmpty_iff.mp hempty, hnone] at hx
    simp at hx
  have hcontent := RawCell.content?_of_value hvalue hfilled
  simp only [decode, htype, hcontent, decodeNumber, hx, StyleTable.isDate_iff]

namespace StyleTable

/-- **Which cells a part of styles turns into dates.** The table has a flag for each style of the part,
in order; a number becomes a date if the flag of its style is there and set, and stays a number
otherwise. A piece of the part without styles, like a list of formats, and one without formats that
stand next to each other can change places, whichever of them comes first. -/
theorem dateStyles_entries {content : Content} (h : content.IsStyleSheet) :
    (∃ table, ofStream? ⟨content.events, none⟩ = .ok table ∧
      table.dateStyles.toList = content.styles.map (showsDates content.formats) ∧
      ∀ (d : Decoder) (raw : RawCell) (value : String) (x : Double), d.styles = table →
        raw.type = .number → raw.value = some value → Decimal.finite? (Text.trim value) = some x →
          d.decode raw =
            .ok (if table.dateStyles[raw.style]? = some true then .date x d.epoch else .number x)) ∧
    ∀ (frame : Frame) (piece other : Content), frame.root.localName ≠ "numFmts" →
      frame.root.localName ≠ "cellXfs" → piece.styles = [] → other.formats = [] →
      content = frame.fill (piece.append other) ∨ content = frame.fill (other.append piece) →
        ofStream? ⟨(frame.fill (piece.append other)).events, none⟩ =
          ofStream? ⟨(frame.fill (other.append piece)).events, none⟩ := by
  refine ⟨⟨_, ofStream?_entries h, rfl, fun d raw value x hstyles htype hvalue hx => ?_⟩, ?_⟩
  · rw [← hstyles]
    exact d.decode_number htype hvalue hx
  · intro frame piece other hformats hstyles hpiece hother hcontent
    -- Both orders can be read, whichever of them the part has.
    have hboth : (frame.fill (piece.append other)).IsStyleSheet ∧
        (frame.fill (other.append piece)).IsStyleSheet := by
      rcases hcontent with rfl | rfl
      · exact ⟨h, h.swap hformats hstyles⟩
      · exact ⟨h.swap hformats hstyles, h⟩
    rw [ofStream?_entries hboth.1, ofStream?_entries hboth.2, Content.formats_fill hformats,
      Content.formats_fill hformats, Content.styles_fill hstyles, Content.styles_fill hstyles,
      Content.formats_append, Content.formats_append, Content.styles_append, Content.styles_append,
      hpiece, hother, List.append_nil, List.append_nil, List.nil_append, List.nil_append]

/-- A tag with attributes. -/
def sampleTag (name : String) (attributes : List (String × String)) : Tag :=
  ⟨name, attributes.map fun a => .ok ⟨a.1, Text.octets a.2⟩⟩

/-- Two formats with one number, one with a number that is a date without it, and one without a code. -/
def sampleFormats : Content :=
  .element ⟨"numFmts", []⟩
    (.empty (sampleTag "numFmt" [("numFmtId", "164"), ("formatCode", "0.00")])
      (.element (sampleTag "numFmt" [("formatCode", "yyyy"), ("numFmtId", "164")]) (.text (.ok "") .done)
        (.empty (sampleTag "numFmt" [("numFmtId", "14"), ("formatCode", "0 &quot;d&quot;")])
          (.empty (sampleTag "numFmt" [("numFmtId", "22")]) .done)))) .done

/-- Styles with these formats, and formats and styles in other lists. -/
def sampleStyles : Content :=
  .element ⟨"cellStyleXfs", []⟩ (.empty (sampleTag "xf" [("numFmtId", "22")]) .done)
    (.element ⟨"cellXfs", []⟩
      (.empty (sampleTag "xf" [("numFmtId", "164"), ("fontId", "0")])
        (.element (sampleTag "xf" [("numFmtId", "14")]) (.empty ⟨"alignment", []⟩ .done)
          (.empty (sampleTag "xf" [("numFmtId", "165")])
            (.empty (sampleTag "xf" [("numFmtId", "22")]) (.empty (sampleTag "xf" []) .done)))))
      (.element ⟨"dxfs", []⟩
        (.empty (sampleTag "numFmt" [("numFmtId", "165"), ("formatCode", "yyyy")]) .done) .done))

/-- A part that holds both. -/
def sampleFrame : Frame where
  prolog := .aside .done
  root := ⟨"styleSheet", []⟩

/-- The formats stand behind the styles or in front of them, and the first and the fourth of five
styles show dates. -/
theorem dateStyles_entries_sample : ∃ table,
    ofStream? ⟨(sampleFrame.fill (sampleStyles.append sampleFormats)).events, none⟩ = .ok table ∧
      table.dateStyles.toList = [true, false, false, true, false] ∧
      ofStream? ⟨(sampleFrame.fill (sampleFormats.append sampleStyles)).events, none⟩ = .ok table ∧
      (⟨{}, table, .since1900⟩ : Decoder).decode { column := 0, style := 3, value := some " 1 " } =
        .ok (.date ⟨0x3FF0000000000000⟩ .since1900) := by
  obtain ⟨⟨table, htable, hflags, hdecode⟩, hmoved⟩ :=
    @dateStyles_entries (sampleFrame.fill (sampleStyles.append sampleFormats)) (by decide +kernel)
  have hlist : table.dateStyles.toList = [true, false, false, true, false] := by
    rw [hflags]
    decide +kernel
  have hnumber := hdecode ⟨{}, table, .since1900⟩ { column := 0, style := 3, value := some " 1 " } " 1 "
    ⟨0x3FF0000000000000⟩ rfl rfl rfl (by decide +kernel)
  have hflag : table.dateStyles[3]? = some true := by
    rw [← Array.getElem?_toList, hlist]
    rfl
  refine ⟨table, htable, hlist, ?_, ?_⟩
  · exact (hmoved sampleFrame sampleFormats sampleStyles (by decide) (by decide) (by decide +kernel)
      (by decide +kernel) (.inr rfl)).trans htable
  · rw [hnumber]
    exact congrArg Except.ok (if_pos hflag)

end StyleTable

end Xlsx
