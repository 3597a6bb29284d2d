import Xlsx.Proofs.Markup.Content
import Xlsx.Proofs.Markup.Nesting

/-! # The entries of lists

A part keeps what it lists in elements of some name inside other elements, its lists. Elements of the
name of an entry also stand elsewhere, where they mean something else.

* **`Content.entries`**: the entries of the lists in a content, in order.
* **`Content.append`**, **`Frame.fill`**: contents one behind the other, and one in its place in a part.
* **`apart_append`**, **`apart_element`**: no list stands inside another one, piece by piece.
* **`Frame.apart_fill`**, **`Frame.entries_fill`**: this and the entries of a part with a piece in its
  place. -/

namespace Xlsx.Markup

/-! ## Contents one behind the other -/

namespace Content

/-- One content and another one behind it. -/
def append : Content → Content → Content
  | done, more => more
  | text content rest, more => text content (rest.append more)
  | literal content rest, more => literal content (rest.append more)
  | aside rest, more => aside (rest.append more)
  | empty tag rest, more => empty tag (rest.append more)
  | element tag inner rest, more => element tag inner (rest.append more)

/-- They stand one behind the other in a document. -/
@[simp] theorem events_append (first second : Content) :
    (first.append second).events = first.events ++ second.events := by
  induction first with
  | done => rfl
  | text content rest ih => exact congrArg _ ih
  | literal content rest ih => exact congrArg _ ih
  | aside rest ih => exact congrArg _ ih
  | empty tag rest ih => exact congrArg _ ih
  | element tag inner rest ihInner ih =>
    rw [append, events, events, ih, List.cons_append, List.append_assoc, List.cons_append]

end Content

/-! ## Entries -/

/-- A tag as an entry: one of that name, inside a list. -/
def Tag.entry (name : String) (inside : Bool) (tag : Tag) : List Tag :=
  if inside && tag.localName == name then [tag] else []

namespace Tag

variable {name : String} {inside : Bool} {tag : Tag}

/-- A tag of the name, inside of the section, is an entry. -/
theorem entry_of_inside (hin : inside = true) (hname : tag.localName = name) :
    tag.entry name inside = [tag] := if_pos (by rw [hin, hname, beq_self_eq_true, Bool.and_true])

/-- Outside of the section nothing is one. -/
theorem entry_of_outside (hin : ¬ inside = true) : tag.entry name inside = [] :=
  if_neg fun h => hin (Bool.and_eq_true_iff.mp h).1

/-- Nor is a tag of another name. -/
theorem entry_of_ne (hname : tag.localName ≠ name) : tag.entry name inside = [] :=
  if_neg fun h => hname (beq_iff_eq.mp (Bool.and_eq_true_iff.mp h).2)

/-- A list is no entry of itself. -/
theorem entry_enter {list name : String} (hne : list ≠ name) (inside : Bool) (tag : Tag) :
    tag.entry name (inside || tag.localName == list) = tag.entry name inside := by
  by_cases hname : tag.localName = name
  · have hlist : (tag.localName == list) = false := beq_eq_false_iff_ne.mpr (hname ▸ hne.symm)
    rw [hlist, Bool.or_false]
  · rw [entry_of_ne hname, entry_of_ne hname]

end Tag

namespace Content

/-- The tags named `name` inside elements named `list`, in order, at any depth; `inside` says whether
the content itself is inside one. -/
def entriesFrom (list name : String) (inside : Bool) : Content → List Tag
  | done => []
  | text _ rest => rest.entriesFrom list name inside
  | literal _ rest => rest.entriesFrom list name inside
  | aside rest => rest.entriesFrom list name inside
  | empty tag rest => tag.entry name inside ++ rest.entriesFrom list name inside
  | element tag inner rest =>
    tag.entry name inside ++
      (inner.entriesFrom list name (inside || tag.localName == list) ++ rest.entriesFrom list name inside)

/-- **The entries of the lists in a content**, empty tags and others alike. -/
def entries (list name : String) (content : Content) : List Tag := content.entriesFrom list name false

/-- The entries of one content and then those of the other. -/
@[simp] theorem entriesFrom_append (list name : String) (inside : Bool) (first second : Content) :
    (first.append second).entriesFrom list name inside =
      first.entriesFrom list name inside ++ second.entriesFrom list name inside := by
  induction first with
  | done => rfl
  | text content rest ih => exact ih
  | literal content rest ih => exact ih
  | aside rest ih => exact ih
  | empty tag rest ih => rw [append, entriesFrom, entriesFrom, ih, List.append_assoc]
  | element tag inner rest ihInner ih =>
    rw [append, entriesFrom, entriesFrom, ih, List.append_assoc, List.append_assoc]

end Content

/-! ## Lists apart from each other -/

/-- Behind the end of an element it is as in front of its start, if it is no list inside another. -/
theorem insideAfter_finish {name : String} {inside : Bool} {tag : Tag}
    (h : tag.localName = name → inside = false) :
    ((inside || tag.localName == name) && tag.localName != name) = inside := by
  by_cases hname : tag.localName = name
  · simp [h hname, hname]
  · have hbeq : (tag.localName == name) = false := beq_eq_false_iff_ne.mpr hname
    have hbne : (tag.localName != name) = true := bne_iff_ne.mpr hname
    rw [hbeq, hbne, Bool.or_false, Bool.and_true]

/-- The tags of an element, if this is known of its content: its end restores what was in front of its
start. -/
theorem apart_tags {name : String} {inside : Bool} {tag : Tag} {inner after : List Event}
    (hinner : ∀ {inside : Bool} {behind : List Event},
      Apart name inside (inner ++ behind) ↔ Apart name inside inner ∧ Apart name inside behind) :
    Apart name inside (.start tag :: (inner ++ .finish tag.name :: after)) ↔
      (tag.localName = name → inside = false) ∧
        Apart name (inside || tag.localName == name) inner ∧ Apart name inside after := by
  have htag : Event.isTag name (.start tag) = true ↔ tag.localName = name := beq_iff_eq
  have hfinish : Event.isTag name (.finish tag.name) = true → (inside || tag.localName == name) = false :=
    fun h => Bool.noConfusion h
  rw [apart_cons, htag]
  refine and_congr_right fun hname => ?_
  show Apart name (inside || tag.localName == name) _ ↔ _
  rw [hinner, apart_cons, and_iff_right hfinish]
  show _ ∧ Apart name (_ && tag.localName != name) after ↔ _
  rw [insideAfter_finish hname]

/-- **A content and what follows it.** -/
theorem apart_append {name : String} {inside : Bool} {content : Content} {behind : List Event} :
    Apart name inside (content.events ++ behind) ↔
      Apart name inside content.events ∧ Apart name inside behind := by
  induction content generalizing inside behind with
  | done => exact (and_iff_right trivial).symm
  | text content rest ih => exact (and_congr_right fun _ => ih).trans and_assoc.symm
  | literal content rest ih => exact (and_congr_right fun _ => ih).trans and_assoc.symm
  | aside rest ih => exact (and_congr_right fun _ => ih).trans and_assoc.symm
  | empty tag rest ih => exact (and_congr_right fun _ => ih).trans and_assoc.symm
  | element tag inner rest ihInner ih =>
    rw [Content.events_element_append, Content.events, apart_tags ihInner, apart_tags ihInner, ih,
      and_assoc, and_assoc]

/-- **An element and what follows it.** -/
theorem apart_element {name : String} {inside : Bool} {tag : Tag} {inner rest : Content} :
    Apart name inside (Content.element tag inner rest).events ↔
      (tag.localName = name → inside = false) ∧
        Apart name (inside || tag.localName == name) inner.events ∧ Apart name inside rest.events :=
  apart_tags apart_append

/-! ## Pieces in their place -/

/-- A part without one piece of it: what stands around its root, and inside of it before and behind
the piece. -/
structure Frame where
  prolog : Content := .done
  root : Tag
  before : Content := .done
  after : Content := .done
  epilog : Content := .done

namespace Frame

/-- **A part with a piece in its place.** -/
def fill (frame : Frame) (piece : Content) : Content :=
  frame.prolog.append (.element frame.root (frame.before.append (piece.append frame.after)) frame.epilog)

variable {frame : Frame} {list name : String}

/-- The entries of a part whose root is no list are those of its pieces, in order. -/
theorem entries_fill (hroot : frame.root.localName ≠ list) (piece : Content) :
    (frame.fill piece).entries list name =
      frame.prolog.entries list name ++ (frame.before.entries list name ++
        (piece.entries list name ++ frame.after.entries list name) ++ frame.epilog.entries list name) := by
  have hinside : (false || frame.root.localName == list) = false := beq_eq_false_iff_ne.mpr hroot
  have hentry : frame.root.entry name false = [] := rfl
  simp only [Content.entries, fill, Content.entriesFrom_append, Content.entriesFrom, hinside, hentry,
    List.nil_append]

/-- The lists of a part whose root is no list are apart if those of its pieces are. -/
theorem apart_fill (hroot : frame.root.localName ≠ list) (piece : Content) :
    Apart list false (frame.fill piece).events ↔
      Apart list false frame.prolog.events ∧ (Apart list false frame.before.events ∧
        Apart list false piece.events ∧ Apart list false frame.after.events) ∧
        Apart list false frame.epilog.events := by
  have hinside : (false || frame.root.localName == list) = false := beq_eq_false_iff_ne.mpr hroot
  simp only [fill, Content.events_append, apart_append, apart_element, hinside, implies_true, true_and]

/-- Two pieces that change places leave the lists apart. -/
theorem apart_swap (hroot : frame.root.localName ≠ list) (first second : Content) :
    Apart list false (frame.fill (first.append second)).events ↔
      Apart list false (frame.fill (second.append first)).events := by
  rw [apart_fill hroot, apart_fill hroot, Content.events_append, Content.events_append, apart_append,
    apart_append, @and_comm (Apart list false first.events)]

/-- Two pieces that change places leave the entries what they are, if maybe in another order. -/
theorem entries_swap (hroot : frame.root.localName ≠ list) (first second : Content) :
    ((frame.fill (first.append second)).entries list name).Perm
      ((frame.fill (second.append first)).entries list name) := by
  have hpieces : ((first.append second).entries list name).Perm ((second.append first).entries list name) := by
    rw [Content.entries, Content.entries, Content.entriesFrom_append, Content.entriesFrom_append]
    exact List.perm_append_comm
  rw [entries_fill hroot, entries_fill hroot]
  exact (((hpieces.append_right _).append_left _).append_right _).append_left _

end Frame

end Xlsx.Markup
