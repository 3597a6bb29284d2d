import Xlsx.Proofs.Markup.Content
import Xlsx.Proofs.Markup.Nesting

/-! # Texts in parts

The text of a string may stand in several elements `t`, each in a run with a format of its own, and
each may be cut into text, literal sections and comments. An element `rPh` says how a part of the
text is pronounced, and its text does not count.

* **`Content.plainText`**, **`Content.isPlain`**: the text of an element that holds nothing else.
* **`Content.itemText`**, **`Content.isRichText`**: the text of a string, and the contents that are
  one. -/

namespace Xlsx.Markup.Content

/-- **The text that stands in a content itself**, all pieces of it one after the other. -/
def plainText : Content → String
  | done => ""
  | text content rest => content.toOption.getD "" ++ rest.plainText
  | literal content rest => content.toOption.getD "" ++ rest.plainText
  | aside rest => rest.plainText
  | empty _ rest => rest.plainText
  | element _ _ rest => rest.plainText

/-- A content without elements, whose text can be read. -/
def isPlain : Content → Bool
  | done => true
  | text content rest => content.isOk && rest.isPlain
  | literal content rest => content.isOk && rest.isPlain
  | aside rest => rest.isPlain
  | empty _ _ => false
  | element _ _ _ => false

/-- **The text of a string**: that of its elements `t`, at any depth, outside of elements `rPh`. -/
def itemText : Content → String
  | done => ""
  | text _ rest => rest.itemText
  | literal _ rest => rest.itemText
  | aside rest => rest.itemText
  | empty _ rest => rest.itemText
  | element tag inner rest =>
    (match tag.localName with
      | "rPh" => ""
      | "t" => inner.plainText
      | _ => inner.itemText) ++ rest.itemText

/-- **A content that is a string**: its elements `t` hold text alone, and no element has one of the
names that mean something where the string stands. -/
def isRichText (names : List String) : Content → Bool
  | done => true
  | text _ rest => rest.isRichText names
  | literal _ rest => rest.isRichText names
  | aside rest => rest.isRichText names
  | empty tag rest => decide (tag.localName ∉ names) && rest.isRichText names
  | element tag inner rest =>
    decide (tag.localName ∉ names) &&
      (match tag.localName with
        | "rPh" => inner.avoids names
        | "t" => inner.isPlain
        | _ => inner.isRichText names) && rest.isRichText names

/-- There is no tag in a text. -/
theorem isTag_of_isPlain {content : Content} (h : content.isPlain = true) (name : String) :
    ∀ e ∈ content.events, e.isTag name = false := by
  induction content with
  | done => exact fun e he => absurd he List.not_mem_nil
  | text content rest ih =>
    exact List.forall_mem_cons.mpr ⟨rfl, ih (Bool.and_eq_true_iff.mp h).2⟩
  | literal content rest ih =>
    exact List.forall_mem_cons.mpr ⟨rfl, ih (Bool.and_eq_true_iff.mp h).2⟩
  | aside rest ih => exact List.forall_mem_cons.mpr ⟨rfl, ih h⟩
  | empty tag rest ih => simp [isPlain] at h
  | element tag inner rest ihInner ih => simp [isPlain] at h

/-- There is no tag in a string with one of the names that mean something there. -/
theorem isTag_of_isRichText (content : Content) {names : List String} {name : String}
    (hname : name ∈ names) (h : content.isRichText names = true) :
    ∀ e ∈ content.events, e.isTag name = false := by
  have htag : ∀ tag : Tag, decide (tag.localName ∉ names) = true → (tag.localName == name) = false := by
    intro tag hnot
    refine beq_eq_false_iff_ne.mpr ?_
    rintro rfl
    exact of_decide_eq_true hnot hname
  have hcontent : ∀ {inner : Content}, inner.avoids names = true →
      ∀ e ∈ inner.events, e.isTag name = false := by
    intro inner havoids e he
    have hevent := List.all_eq_true.mp havoids e he
    cases e with
    | start tag => exact htag tag hevent
    | empty tag => exact htag tag hevent
    | _ => rfl
  induction content with
  | done => exact fun e he => absurd he List.not_mem_nil
  | text content rest ih => exact List.forall_mem_cons.mpr ⟨rfl, ih h⟩
  | literal content rest ih => exact List.forall_mem_cons.mpr ⟨rfl, ih h⟩
  | aside rest ih => exact List.forall_mem_cons.mpr ⟨rfl, ih h⟩
  | empty tag rest ih =>
    obtain ⟨hnot, hrest⟩ := Bool.and_eq_true_iff.mp h
    exact List.forall_mem_cons.mpr ⟨htag tag hnot, ih hrest⟩
  | element tag inner rest ihInner ih =>
    simp only [isRichText, Bool.and_eq_true] at h
    obtain ⟨⟨hnot, hinner⟩, hrest⟩ := h
    have hevents : ∀ e ∈ inner.events, e.isTag name = false := by
      split at hinner
      · exact hcontent hinner
      · exact isTag_of_isPlain hinner name
      · exact ihInner hinner
    intro e he
    simp only [events, List.mem_cons, List.mem_append] at he
    rcases he with rfl | he | rfl | he
    · exact htag tag hnot
    · exact hevents e he
    · rfl
    · exact ih hrest e he

end Xlsx.Markup.Content
