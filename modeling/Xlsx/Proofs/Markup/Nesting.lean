import Xlsx.Markup.Event

/-! # How elements stand inside each other

The events of a document list its tags one after the other; which element stands inside which has to
be read off their order. Two properties of a list of events are stated here:

* **`Apart name inside events`**: no element of some name stands inside another one of that name.
  Between the start tag of such an element and the next end tag of that name there is no tag of that
  name.
* **`WellFormed events`**: every end tag ends the innermost element that is open, and there is one
  root.

Both are read from front to back with a state, so that what follows an event has the property from
the state behind it on. -/

namespace Xlsx.Markup

/-- An event is a tag of an element with some name, which it opens or which is empty. -/
def Event.isTag (name : String) : Event → Bool
  | .start tag | .empty tag => tag.localName == name
  | _ => false

/-- Whether an element with some name is open behind an event, if `inside` says so before it. -/
def Event.insideAfter (name : String) (inside : Bool) : Event → Bool
  | .start tag => inside || tag.localName == name
  | .finish closed => inside && localPart closed != name
  | _ => inside

/-- **No element inside another of its name.** While an element with the given name is open there is
no tag with that name; `inside` says whether one is open in front of the events. -/
def Apart (name : String) : Bool → List Event → Prop
  | _, [] => True
  | inside, e :: events =>
      (e.isTag name = true → inside = false) ∧ Apart name (e.insideAfter name inside) events

instance Apart.decidable (name : String) :
    ∀ (inside : Bool) (events : List Event), Decidable (Apart name inside events)
  | _, [] => isTrue trivial
  | inside, e :: events =>
      have := Apart.decidable name (e.insideAfter name inside) events
      inferInstanceAs (Decidable (_ ∧ _))

/-- Without events nothing is nested. -/
@[simp] theorem apart_nil (name : String) (inside : Bool) : Apart name inside [] := trivial

/-- The first event is checked, and those behind it where it leads. -/
theorem apart_cons {name : String} {inside : Bool} {e : Event} {events : List Event} :
    Apart name inside (e :: events) ↔
      (e.isTag name = true → inside = false) ∧ Apart name (e.insideAfter name inside) events := Iff.rfl

/-- An element that is open leaves less room: what follows it is as good behind none. -/
theorem Apart.outside {name : String} {events : List Event} {inside : Bool}
    (h : Apart name inside events) : Apart name false events := by
  cases inside with
  | false => exact h
  | true =>
    induction events with
    | nil => exact trivial
    | cons e events ih =>
      rw [apart_cons] at h ⊢
      obtain ⟨htag, hrest⟩ := h
      refine ⟨fun _ => rfl, ?_⟩
      -- No tag of that name can follow, so the element stays open until its end tag.
      cases e with
      | start tag =>
        have hname : (tag.localName == name) = false := by simpa [Event.isTag] using htag
        simpa [Event.insideAfter, hname] using ih (by simpa [Event.insideAfter] using hrest)
      | finish closed =>
        by_cases hc : localPart closed = name
        · simpa [Event.insideAfter, hc] using hrest
        · have hc' : (localPart closed != name) = true := by simpa using hc
          simpa [Event.insideAfter] using ih (by simpa [Event.insideAfter, hc'] using hrest)
      | empty tag => exact ih hrest
      | text content => exact ih hrest
      | literal content => exact ih hrest
      | aside => exact ih hrest

/-- The events behind some of those of a document have the property as well. -/
theorem Apart.behind {name : String} {before events : List Event} {inside : Bool}
    (h : Apart name inside (before ++ events)) : Apart name false events := by
  induction before generalizing inside with
  | nil => exact h.outside
  | cons e before ih => exact ih h.2

/-- **Every end tag ends the innermost open element, and there is one root.** `opened` are the names
of the open elements, the innermost first; `rooted` says whether the root has begun. -/
def WellFormedFrom : List String → Bool → List Event → Prop
  | opened, rooted, [] => opened = [] ∧ rooted = true
  | opened, rooted, .start tag :: events =>
      (opened = [] → rooted = false) ∧ WellFormedFrom (tag.name :: opened) true events
  | opened, rooted, .empty _ :: events =>
      (opened = [] → rooted = false) ∧ WellFormedFrom opened true events
  | opened, rooted, .finish name :: events =>
      opened.head? = some name ∧ WellFormedFrom opened.tail rooted events
  | opened, rooted, .text _ :: events => WellFormedFrom opened rooted events
  | opened, rooted, .literal _ :: events => WellFormedFrom opened rooted events
  | opened, rooted, .aside :: events => WellFormedFrom opened rooted events

instance WellFormedFrom.decidable :
    ∀ (opened : List String) (rooted : Bool) (events : List Event),
      Decidable (WellFormedFrom opened rooted events)
  | opened, rooted, [] => inferInstanceAs (Decidable (opened = [] ∧ rooted = true))
  | opened, _, .start tag :: events =>
      have := WellFormedFrom.decidable (tag.name :: opened) true events
      inferInstanceAs (Decidable (_ ∧ _))
  | opened, _, .empty _ :: events =>
      have := WellFormedFrom.decidable opened true events
      inferInstanceAs (Decidable (_ ∧ _))
  | opened, rooted, .finish _ :: events =>
      have := WellFormedFrom.decidable opened.tail rooted events
      inferInstanceAs (Decidable (_ ∧ _))
  | opened, rooted, .text _ :: events => WellFormedFrom.decidable opened rooted events
  | opened, rooted, .literal _ :: events => WellFormedFrom.decidable opened rooted events
  | opened, rooted, .aside :: events => WellFormedFrom.decidable opened rooted events

/-- The events of a whole document. -/
def WellFormed (events : List Event) : Prop := WellFormedFrom [] false events

instance WellFormed.decidable (events : List Event) : Decidable (WellFormed events) :=
  inferInstanceAs (Decidable (WellFormedFrom [] false events))

end Xlsx.Markup
