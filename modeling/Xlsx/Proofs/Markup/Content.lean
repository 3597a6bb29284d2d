import Xlsx.Markup.Event

/-! # The content of elements

The content of an element is text and further elements one after the other, each of these with a
content of its own. `Content` has that shape, and `Content.events` is how it stands in a document, so
that what is said of all contents can be proved along their structure.

* **`Content.events`**, **`Tag.events`**: the events of a content and of an element.
* **`Content.avoids`**: a content without elements of some names, whose text can be read. -/

namespace Xlsx.Markup

/-- What stands between a start tag and its end tag. An element whose tags are both there is an
`element`, one that is an empty tag is `empty`. -/
inductive Content
  | done
  | text (content : Except TextFault String) (rest : Content)
  | literal (content : Except TextFault String) (rest : Content)
  | aside (rest : Content)
  | empty (tag : Tag) (rest : Content)
  | element (tag : Tag) (inner rest : Content)

namespace Content

/-- **A content as it stands in a document.** -/
def events : Content → List Event
  | done => []
  | text content rest => .text content :: rest.events
  | literal content rest => .literal content :: rest.events
  | aside rest => .aside :: rest.events
  | empty tag rest => .empty tag :: rest.events
  | element tag inner rest => .start tag :: (inner.events ++ .finish tag.name :: rest.events)

/-- An element and what follows it. -/
theorem events_element_append (tag : Tag) (inner rest : Content) (behind : List Event) :
    (element tag inner rest).events ++ behind =
      .start tag :: (inner.events ++ .finish tag.name :: (rest.events ++ behind)) := by
  rw [events, List.cons_append, List.append_assoc, List.cons_append]

end Content

/-- **An element**: an empty tag when it has no content, and else its content between its tags. -/
def Tag.events (tag : Tag) : Option Content → List Event
  | none => [.empty tag]
  | some content => .start tag :: (content.events ++ [.finish tag.name])

/-- An event that is no tag with one of some names, and no text that cannot be read. -/
def Event.avoids (names : List String) : Event → Bool
  | .start tag | .empty tag => decide (tag.localName ∉ names)
  | .finish name => decide (localPart name ∉ names)
  | .text content | .literal content => content.isOk
  | .aside => true

/-- An event that avoids some names avoids fewer. -/
theorem Event.avoids_subset {names fewer : List String} (hsub : fewer ⊆ names) {e : Event}
    (h : e.avoids names = true) : e.avoids fewer = true := by
  have hname : ∀ name : String, decide (name ∉ names) = true → decide (name ∉ fewer) = true := by
    intro name hnot
    exact decide_eq_true fun hmem => of_decide_eq_true hnot (hsub hmem)
  cases e with
  | start tag => exact hname _ h
  | empty tag => exact hname _ h
  | finish name => exact hname _ h
  | text content => exact h
  | literal content => exact h
  | aside => exact h

/-- **A content without elements of some names**, whose text can be read. -/
def Content.avoids (names : List String) (content : Content) : Bool :=
  content.events.all (Event.avoids names)

/-- The contents of an element avoid what it avoids, and so does what follows it. -/
theorem Content.avoids_element {names : List String} {tag : Tag} {inner rest : Content} :
    (element tag inner rest).avoids names = true ↔
      tag.localName ∉ names ∧ inner.avoids names = true ∧ rest.avoids names = true := by
  simp only [avoids, events, List.all_cons, List.all_append, Event.avoids, Bool.and_eq_true,
    decide_eq_true_eq]
  constructor
  · rintro ⟨htag, hinner, -, hrest⟩
    exact ⟨htag, hinner, hrest⟩
  · rintro ⟨htag, hinner, hrest⟩
    exact ⟨htag, hinner, htag, hrest⟩

end Xlsx.Markup
