import Xlsx.Proofs.Except
import Xlsx.Proofs.Markup.Nesting
import Xlsx.Proofs.Markup.RichText
import Xlsx.Workbook.StringTable

/-! # The items of the shared strings

Every element `si` of the part is one slot of the table, also one without text or without tags of its
own; other strings keep their slots whatever it holds.

* **`Content.items`**: the texts of the items of a part.
* **`Scan.foldlM_plain`**, **`Scan.foldlM_phonetic`**, **`Scan.foldlM_richText`**,
  **`Scan.foldlM_items`**: what reading a content does, in a text, in what says how it is pronounced,
  in an item and outside of all items.
* **`ofStream?_items`**: the table that a part holds. -/

namespace Xlsx

open Markup (Content Event Tag)

namespace Markup.Content

/-- **The texts of the items of a part**, in order. -/
def items : Content → List String
  | done => []
  | text _ rest => rest.items
  | literal _ rest => rest.items
  | aside rest => rest.items
  | empty tag rest => if tag.localName = "si" then "" :: rest.items else rest.items
  | element tag inner rest =>
    if tag.localName = "si" then inner.itemText :: rest.items else inner.items ++ rest.items

/-- The content of a part of shared strings: each item is a string, and no item stands in another. -/
def isStringPart : Content → Bool
  | done => true
  | text _ rest => rest.isStringPart
  | literal _ rest => rest.isStringPart
  | aside rest => rest.isStringPart
  | empty _ rest => rest.isStringPart
  | element tag inner rest =>
    (if tag.localName = "si" then inner.isRichText ["si"] else inner.isStringPart) && rest.isStringPart

end Markup.Content

namespace SharedStrings

/-! ## Reading a content -/

namespace Scan

/-- **The text of an element** is added to the item. -/
theorem foldlM_plain {content : Content} (h : content.isPlain = true) (done : List String)
    (text : String) (rest : List Event) :
    (content.events ++ rest).foldlM Scan.step ⟨done, some text, true, 0⟩ =
      rest.foldlM Scan.step ⟨done, some (text ++ content.plainText), true, 0⟩ := by
  induction content generalizing text with
  | done =>
    rw [Content.plainText, String.append_empty]
    rfl
  | text content more ih =>
    obtain ⟨hok, hmore⟩ := Bool.and_eq_true_iff.mp h
    cases content with
    | error cause => simp [Except.isOk, Except.toBool] at hok
    | ok piece =>
      rw [Content.plainText, ← String.append_assoc]
      exact ih hmore (text ++ piece)
  | literal content more ih =>
    obtain ⟨hok, hmore⟩ := Bool.and_eq_true_iff.mp h
    cases content with
    | error cause => simp [Except.isOk, Except.toBool] at hok
    | ok piece =>
      rw [Content.plainText, ← String.append_assoc]
      exact ih hmore (text ++ piece)
  | aside more ih => exact ih h text
  | empty tag more ih => simp [Content.isPlain] at h
  | element tag inner more ihInner ih => simp [Content.isPlain] at h

/-- An element whose start and end lead from `s` to `inside` and from `closing` to `after`, if its
content leads from `inside` to `closing`. -/
theorem foldlM_element {s inside closing after : Scan} {tag : Tag} {inner more : Content}
    {rest : List Event} (henter : s.enter tag.localName = inside)
    (hinner : ∀ rest : List Event,
      (inner.events ++ rest).foldlM Scan.step inside = rest.foldlM Scan.step closing)
    (hleave : closing.leave tag.localName = after) :
    ((Content.element tag inner more).events ++ rest).foldlM Scan.step s =
      (more.events ++ rest).foldlM Scan.step after := by
  have hstart : s.step (.start tag) = .ok inside := congrArg Except.ok henter
  have hfinish : closing.step (.finish tag.name) = .ok after := congrArg Except.ok hleave
  rw [Content.events_element_append, foldlM_of_ok hstart, hinner, foldlM_of_ok hfinish]

/-- The start of an element that means nothing where it stands. -/
theorem enter_self {s : Scan} {name : String} (hitem : name ≠ "si")
    (hphonetic : name = "rPh" → s.item = none)
    (htext : name = "t" → (s.item.isSome && s.phoneticDepth == 0) = false) : s.enter name = s := by
  unfold enter
  split
  · exact absurd rfl hitem
  · exact if_neg (by simp [hphonetic rfl])
  · exact if_neg (by simp [htext rfl])
  · rfl

/-- The end of an element that means nothing where it stands. -/
theorem leave_self {s : Scan} {name : String} (hitem : name = "si" → s.item = none)
    (hphonetic : name = "rPh" → s.phoneticDepth = 0) (htext : s.inText = false) : s.leave name = s := by
  obtain ⟨done, item, inText, depth⟩ := s
  have hfalse : inText = false := htext
  subst hfalse
  unfold leave
  split
  · rfl
  · have hzero : depth = 0 := hphonetic rfl
    rw [hzero]
    rfl
  · have hnone : item = none := hitem rfl
    rw [hnone]
  · rfl

/-- Reading on behind an empty tag that is no item. -/
theorem foldlM_empty {s : Scan} {tag : Tag} (hname : tag.localName ≠ "si") (rest : List Event) :
    (Event.empty tag :: rest).foldlM Scan.step s = rest.foldlM Scan.step s := by
  refine foldlM_of_ok ?_ rest
  rw [step, if_neg hname]

/-- **What says how a text is pronounced** is passed over. -/
theorem foldlM_phonetic {content : Content} (h : content.avoids ["si"] = true) (done : List String)
    (text : String) (depth : Nat) (rest : List Event) :
    (content.events ++ rest).foldlM Scan.step ⟨done, some text, false, depth + 1⟩ =
      rest.foldlM Scan.step ⟨done, some text, false, depth + 1⟩ := by
  induction content generalizing depth rest with
  | done => rfl
  | text content more ih => exact ih (Bool.and_eq_true_iff.mp h).2 depth rest
  | literal content more ih => exact ih (Bool.and_eq_true_iff.mp h).2 depth rest
  | aside more ih => exact ih h depth rest
  | empty tag more ih =>
    obtain ⟨htag, hmore⟩ := Bool.and_eq_true_iff.mp h
    have hname : tag.localName ≠ "si" := by simpa [Event.avoids] using htag
    rw [Content.events, List.cons_append, foldlM_empty hname, ih hmore]
  | element tag inner more ihInner ih =>
    obtain ⟨htag, hinner, hmore⟩ := Content.avoids_element.mp h
    by_cases hname : tag.localName = "rPh"
    · -- One more pronunciation is open in it.
      have henter : (Scan.mk done (some text) false (depth + 1)).enter tag.localName =
          ⟨done, some text, false, depth + 2⟩ := by
        rw [hname]
        rfl
      have hleave : (Scan.mk done (some text) false (depth + 2)).leave tag.localName =
          ⟨done, some text, false, depth + 1⟩ := by
        rw [hname]
        rfl
      rw [foldlM_element henter (ihInner hinner (depth + 1)) hleave, ih hmore]
    · have hsi : tag.localName ≠ "si" := by simpa using htag
      have henter := @enter_self ⟨done, some text, false, depth + 1⟩ tag.localName hsi
        (absurd · hname) fun _ => rfl
      have hleave := @leave_self ⟨done, some text, false, depth + 1⟩ tag.localName (absurd · hsi)
        (absurd · hname) rfl
      rw [foldlM_element henter (ihInner hinner depth) hleave, ih hmore]

/-- **The content of an item** adds its text to the item. -/
theorem foldlM_richText {content : Content} (h : content.isRichText ["si"] = true)
    (done : List String) (text : String) (rest : List Event) :
    (content.events ++ rest).foldlM Scan.step ⟨done, some text, false, 0⟩ =
      rest.foldlM Scan.step ⟨done, some (text ++ content.itemText), false, 0⟩ := by
  induction content generalizing text rest with
  | done =>
    rw [Content.itemText, String.append_empty]
    rfl
  | text content more ih => exact ih h text rest
  | literal content more ih => exact ih h text rest
  | aside more ih => exact ih h text rest
  | empty tag more ih =>
    obtain ⟨htag, hmore⟩ := Bool.and_eq_true_iff.mp h
    have hname : tag.localName ≠ "si" := by simpa using htag
    rw [Content.events, List.cons_append, foldlM_empty hname, ih hmore, Content.itemText]
  | element tag inner more ihInner ih =>
    simp only [Content.isRichText, Bool.and_eq_true] at h
    obtain ⟨⟨htag, hinner⟩, hmore⟩ := h
    have hsi : tag.localName ≠ "si" := by simpa using htag
    rw [Content.itemText]
    split at hinner
    · rename_i hname
      have henter : (Scan.mk done (some text) false 0).enter tag.localName =
          ⟨done, some text, false, 1⟩ := by
        rw [hname]
        rfl
      have hleave : (Scan.mk done (some text) false 1).leave tag.localName =
          ⟨done, some text, false, 0⟩ := by
        rw [hname]
        rfl
      rw [foldlM_element henter (foldlM_phonetic hinner done text 0) hleave, ih hmore,
        String.empty_append]
    · rename_i hname
      have henter : (Scan.mk done (some text) false 0).enter tag.localName =
          ⟨done, some text, true, 0⟩ := by
        rw [hname]
        rfl
      have hleave : (Scan.mk done (some (text ++ inner.plainText)) true 0).leave tag.localName =
          ⟨done, some (text ++ inner.plainText), false, 0⟩ := by
        rw [hname]
        rfl
      rw [foldlM_element henter (foldlM_plain hinner done text) hleave, ih hmore,
        String.append_assoc]
    · rename_i hphonetic htext
      have henter := @enter_self ⟨done, some text, false, 0⟩ tag.localName hsi
        (absurd · hphonetic) (absurd · htext)
      have hleave := @leave_self ⟨done, some (text ++ inner.itemText), false, 0⟩ tag.localName
        (absurd · hsi) (absurd · hphonetic) rfl
      rw [foldlM_element henter (ihInner hinner text) hleave, ih hmore, String.append_assoc]

/-- **The content of a part** gives one string for each item. -/
theorem foldlM_items {content : Content} (h : content.isStringPart = true) (done : List String)
    (rest : List Event) :
    (content.events ++ rest).foldlM Scan.step { done } =
      rest.foldlM Scan.step { done := (content.items.map Text.unescape).reverse ++ done } := by
  induction content generalizing done rest with
  | done => rfl
  | text content more ih => exact ih h done rest
  | literal content more ih => exact ih h done rest
  | aside more ih => exact ih h done rest
  | empty tag more ih =>
    rw [Content.events, List.cons_append, Content.items]
    by_cases hname : tag.localName = "si"
    · -- The empty string has nothing to decode.
      have hstep : Scan.step { done } (.empty tag) = .ok { done := "" :: done } := by
        rw [step, if_pos hname]
      have hempty : Text.unescape "" = "" := by decide +kernel
      rw [foldlM_of_ok hstep, ih h, if_pos hname, List.map_cons, List.reverse_cons,
        List.append_assoc, List.singleton_append, hempty]
    · rw [foldlM_empty hname, ih h, if_neg hname]
  | element tag inner more ihInner ih =>
    simp only [Content.isStringPart, Bool.and_eq_true] at h
    obtain ⟨hinner, hmore⟩ := h
    rw [Content.items]
    by_cases hname : tag.localName = "si"
    · rw [if_pos hname] at hinner ⊢
      have hleave : (Scan.mk done (some ("" ++ inner.itemText)) false 0).leave tag.localName =
          { done := Text.unescape inner.itemText :: done } := by
        rw [hname, String.empty_append]
        rfl
      rw [foldlM_element (by rw [hname]; rfl) (foldlM_richText hinner done "") hleave, ih hmore,
        List.map_cons, List.reverse_cons, List.append_assoc, List.singleton_append]
    · rw [if_neg hname] at hinner ⊢
      have henter := @enter_self { done } tag.localName hname (fun _ => rfl) fun _ => rfl
      have hleave := @leave_self { done := (inner.items.map Text.unescape).reverse ++ done }
        tag.localName (fun _ => rfl) (fun _ => rfl) rfl
      rw [foldlM_element henter (ihInner hinner done) hleave, ih hmore, List.map_append,
        List.reverse_append, List.append_assoc]

end Scan

/-- **The table of a part**: one string for each item, in order. -/
theorem ofStream?_items {content : Content} (h : content.isStringPart = true) :
    ofStream? ⟨content.events, none⟩ = .ok ⟨(content.items.map Text.unescape).toArray⟩ := by
  have hread := Scan.foldlM_items h [] []
  rw [List.append_nil, List.append_nil] at hread
  rw [ofStream?, Markup.Stream.read]
  simp only
  rw [hread]
  simp only [List.foldlM_nil, pure_bind, List.reverse_reverse]
  rfl

/-- There are as many items as there are tags that open one. -/
theorem length_items {content : Content} (h : content.isStringPart = true) :
    content.items.length = content.events.countP (Event.isTag "si") := by
  induction content with
  | done => rfl
  | text content more ih => exact ih h
  | literal content more ih => exact ih h
  | aside more ih => exact ih h
  | empty tag more ih =>
    rw [Content.items, Content.events, List.countP_cons, ← ih h]
    by_cases hname : tag.localName = "si"
    · simp [hname, Event.isTag]
    · simp [hname, Event.isTag]
  | element tag inner more ihInner ih =>
    simp only [Content.isStringPart, Bool.and_eq_true] at h
    obtain ⟨hinner, hmore⟩ := h
    have hfinish : Event.isTag "si" (.finish tag.name) = false := rfl
    rw [Content.items, Content.events, List.countP_cons, List.countP_append, List.countP_cons, hfinish,
      ← ih hmore]
    by_cases hname : tag.localName = "si"
    · -- No item stands in an item.
      rw [if_pos hname] at hinner ⊢
      have hnone : inner.events.countP (Event.isTag "si") = 0 :=
        List.countP_eq_zero.mpr fun e he => by
          simp [inner.isTag_of_isRichText (List.mem_singleton_self "si") hinner e he]
      simp [hnone, hname, Event.isTag]
    · rw [if_neg hname] at hinner ⊢
      rw [List.length_append, ihInner hinner]
      simp [hname, Event.isTag]

end SharedStrings

end Xlsx
