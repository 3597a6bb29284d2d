import Mathlib.Data.List.Basic
import Xlsx.Proofs.Except
import Xlsx.Proofs.Markup.EarlyEnds
import Xlsx.Proofs.Markup.Nesting
import Xlsx.Workbook

/-! # Parts that break off

The parts that are read when a workbook is opened may break off. A part that breaks off between two
constructs, or in a text, ends like a whole one as far as its events tell: only the table of shared
strings looks at what is open there, and only at its own items. In a construct a part breaks off with a
fault behind its last event, which is always reported, or with one event that the whole part need not
have: a tag or an instruction is completed where the octets end.

* **`Markup.brokenOff`**: what is left of the events of a part.
* **`Markup.foldlM_grows`**: what a part says grows event by event.
* **`Markup.BreaksOff`**: which cuts of a part between constructs are refused, and what is read otherwise.
* **`Workbook.parts_breakOff`**: this for each of the four parts.
* **`Workbook.parts_brokenOff_read`**: parts that break off behind their first item and are read.
* **`Workbook.parts_endEarly`**: what is read of the four parts wherever their octets end. -/

namespace Xlsx

namespace Markup

/-! ## Cutting the events of a part -/

/-- **What is left of the events of a part** that breaks off behind some of them: these, and a piece of
the text in which it breaks off, if it does so in a text. -/
def brokenOff (kept : List Event) (piece? : Option (Except TextFault String)) : List Event :=
  kept ++ (piece?.map Event.text).toList

/-- An element with some name is open behind some events. -/
def isOpenBehind (name : String) (events : List Event) : Bool :=
  events.foldl (fun inside e => e.insideAfter name inside) false

section Read

variable {σ : Type} {step : σ → Event → Except PartFault σ} {start whole : σ}

/-- A fault behind the last event is reported, unless one of the events is. -/
theorem Stream.read_fault (events : List Event) (fault : Fault) :
    ∃ cause, Stream.read step start ⟨events, some fault⟩ = .error cause := by
  rw [Stream.read]
  cases events.foldlM step start with
  | error cause => exact ⟨cause, rfl⟩
  | ok state => exact ⟨.markup fault, rfl⟩

/-- So there is no fault behind the last event of a part that is read. -/
theorem Stream.fault?_of_read {s : Stream} (h : s.read step start = .ok whole) : s.fault? = none := by
  obtain ⟨events, fault?⟩ := s
  cases fault? with
  | none => rfl
  | some fault =>
    obtain ⟨cause, hcause⟩ := @Stream.read_fault σ step start events fault
    exact nomatch hcause.symm.trans h

/-- Without a fault behind them, the events decide. -/
theorem Stream.read_events (events : List Event) :
    Stream.read step start ⟨events, none⟩ = events.foldlM step start := by
  rw [Stream.read]
  cases events.foldlM step start <;> rfl

/-- A part that can be read in full can be read up to any of its events. -/
theorem Stream.read_kept {kept lost : List Event}
    (h : Stream.read step start ⟨kept ++ lost, none⟩ = .ok whole) :
    ∃ state, kept.foldlM step start = .ok state ∧ lost.foldlM step state = .ok whole := by
  rw [Stream.read_events, List.foldlM_append] at h
  exact bind_eq_ok.mp h

/-- **What a part says grows event by event**, in whatever sense one event makes it grow. -/
theorem foldlM_grows {R : σ → σ → Prop} (hrefl : ∀ s, R s s) (htrans : ∀ {s t u}, R s t → R t u → R s u)
    (hstep : ∀ {s e t}, step s e = .ok t → R s t) {events : List Event} {s t : σ}
    (h : events.foldlM step s = .ok t) : R s t := by
  induction events generalizing s with
  | nil =>
    rw [← Except.ok.inj h]
    exact hrefl s
  | cons e events ih =>
    rw [List.foldlM_cons] at h
    obtain ⟨next, hnext, hrest⟩ := bind_eq_ok.mp h
    exact htrans (hstep hnext) (ih hrest)

/-- **What is read of a part that ends early**: what is read up to some event of the whole part, and of one
event more at most. -/
theorem Stream.read_early {R : σ → σ → Prop} (hrefl : ∀ s, R s s)
    (htrans : ∀ {s t u}, R s t → R t u → R s u) (hstep : ∀ {s e t}, step s e = .ok t → R s t)
    {part all : Stream} (hearly : part.EndsEarly all) {said : σ} (hpart : part.read step start = .ok said)
    (hwhole : all.read step start = .ok whole) :
    ∃ state, R state whole ∧ (said = state ∨ ∃ e, step state e = .ok said) := by
  rcases hearly with ⟨fault, hsome⟩ | ⟨kept, last?, rfl, lost, hall⟩
  · exact nomatch hsome.symm.trans (Stream.fault?_of_read hpart)
  have hevents : all = ⟨kept ++ lost, none⟩ := by
    rw [hall, ← Stream.fault?_of_read hwhole]
  rw [hevents] at hwhole
  obtain ⟨state, hkept, hlost⟩ := Stream.read_kept hwhole
  refine ⟨state, foldlM_grows hrefl htrans hstep hlost, ?_⟩
  rw [Stream.read_events, List.foldlM_append, hkept] at hpart
  cases last? with
  | none => exact .inl (Except.ok.inj hpart).symm
  | some e =>
    change [e].foldlM step state = .ok said at hpart
    rw [List.foldlM_cons] at hpart
    obtain ⟨next, hnext, hdone⟩ := bind_eq_ok.mp hpart
    exact .inr ⟨e, hnext.trans (congrArg _ (Except.ok.inj hdone))⟩

end Read

/-- **At most one more** stands in front of some things. -/
def AddsOne {α : Type} (before after : List α) : Prop := after = before ∨ ∃ a, after = a :: before

/-- Then these are at the end of what stands there. -/
theorem AddsOne.suffix {α : Type} {before after : List α} (h : AddsOne before after) : before <:+ after := by
  rcases h with rfl | ⟨a, rfl⟩
  · exact List.suffix_refl _
  · exact List.suffix_cons _ _

/-- And what stands behind the first one is among them. -/
theorem AddsOne.tail_suffix {α : Type} {before after : List α} (h : AddsOne before after) :
    after.tail <:+ before := by
  rcases h with rfl | ⟨a, rfl⟩
  · exact List.tail_suffix _
  · exact List.suffix_refl _

/-- What is read of a part that ends early, the last first: but for one at most it is what the whole part
begins with. -/
theorem Stream.read_early_items {σ α : Type} {step : σ → Event → Except PartFault σ} {start whole : σ}
    (items : σ → List α) (hstep : ∀ {s e t}, step s e = .ok t → AddsOne (items s) (items t))
    {part all : Stream} (hearly : part.EndsEarly all) {said : σ} (hpart : part.read step start = .ok said)
    (hwhole : all.read step start = .ok whole) :
    (items said).reverse.dropLast <+: (items whole).reverse := by
  obtain ⟨state, hgrows, hlast⟩ := Stream.read_early (R := fun s t => items s <:+ items t)
    (fun _ => List.suffix_refl _) List.IsSuffix.trans (fun h => (hstep h).suffix) hearly hpart hwhole
  have htail : (items said).tail <:+ items state := by
    rcases hlast with rfl | ⟨e, he⟩
    · exact List.tail_suffix _
    · exact (hstep he).tail_suffix
  rw [List.dropLast_reverse]
  exact List.reverse_prefix.mpr (htail.trans hgrows)

/-- **What is read of a part that ends early**, at any of its octets, begins what is read of the whole
part, in the sense of `begins`. -/
def ReadEarly {α : Type} (ofStream? : Stream → Except PartFault α) (begins : α → α → Prop) : Prop :=
  ∀ (portions : List (List UInt8)) (cut lost : List UInt8) (later : List (List UInt8)) (said all : α),
    ofStream? (scan ⟨portions ++ [cut], false⟩) = .ok said →
      ofStream? (scan ⟨portions ++ (cut ++ lost) :: later, false⟩) = .ok all → begins said all

/-- **What becomes of a part that breaks off** behind some of its events, or in a text behind them. With a
fault there, and where `refuses` says so, it is refused. Otherwise it is read like a whole one: whatever
the lost events were, what it says begins what the whole part says, in the sense of `begins`. A part that
breaks off in a construct may end with another event: see `ReadEarly`. -/
structure BreaksOff {α : Type} (ofStream? : Stream → Except PartFault α) (refuses : List Event → Bool)
    (begins : α → α → Prop) : Prop where
  fault : ∀ events fault, ∃ cause, ofStream? ⟨events, some fault⟩ = .error cause
  refused : ∀ {kept} (piece? : Option (Except TextFault String)), refuses kept = true →
    ∃ cause, ofStream? ⟨brokenOff kept piece?, none⟩ = .error cause
  accepted : ∀ {kept lost whole} (piece? : Option (Except TextFault String)),
    ofStream? ⟨kept ++ lost, none⟩ = .ok whole → refuses kept = false →
      (∀ content ∈ piece?, content.isOk = true) →
      ∃ part, ofStream? ⟨brokenOff kept piece?, none⟩ = .ok part ∧ begins part whole

/-- **A part whose text says nothing** is never refused where it breaks off without a fault. -/
theorem breaksOff_of_grows {σ α : Type} {step : σ → Event → Except PartFault σ} {start : σ} {finish : σ → α}
    {R : σ → σ → Prop} {begins : α → α → Prop} (htext : ∀ s content, step s (.text content) = .ok s)
    (hrefl : ∀ s, R s s) (htrans : ∀ {s t u}, R s t → R t u → R s u)
    (hstep : ∀ {s e t}, step s e = .ok t → R s t) (hfinish : ∀ {s t}, R s t → begins (finish s) (finish t)) :
    BreaksOff (fun s => (s.read step start).map finish) (fun _ => false) begins where
  fault events fault := by
    obtain ⟨cause, hcause⟩ := @Stream.read_fault σ step start events fault
    refine ⟨cause, ?_⟩
    rw [hcause]
    rfl
  refused _ h := absurd h (by decide)
  accepted {kept lost whole} piece? h _ _ := by
    obtain ⟨last, hlast, rfl⟩ := map_eq_ok.mp h
    obtain ⟨state, hkept, hlost⟩ := Stream.read_kept hlast
    have hpiece : (piece?.map Event.text).toList.foldlM step state = .ok state := by
      cases piece? with
      | none => rfl
      | some content =>
        show step state (.text content) >>= pure = .ok state
        rw [htext]
        rfl
    refine ⟨finish state, ?_, hfinish (foldlM_grows hrefl htrans hstep hlost)⟩
    rw [Stream.read_events, brokenOff, List.foldlM_append, hkept]
    exact map_eq_ok.mpr ⟨state, hpiece, rfl⟩

end Markup

/-! ## The four parts -/

open Markup (Event)

/-- The sheets that are listed stay in the list, and a tag adds one at most. -/
theorem SheetList.step_sheets {l after : SheetList} {e : Event} (h : l.step e = .ok after) :
    Markup.AddsOne l.sheets after.sheets := by
  have htag : ∀ tag : Markup.Tag, l.step (.empty tag) = .ok after → Markup.AddsOne l.sheets after.sheets := by
    intro tag h
    simp only [step] at h
    split at h
    · obtain ⟨epoch, -, rfl⟩ := map_eq_ok.mp h
      exact .inl rfl
    · obtain ⟨sheet, -, rfl⟩ := map_eq_ok.mp h
      exact .inr ⟨sheet, rfl⟩
    · exact Except.ok.inj h ▸ .inl rfl
  cases e with
  | start tag => exact htag tag h
  | empty tag => exact htag tag h
  | _ => exact Except.ok.inj h ▸ .inl rfl

/-- **The list of sheets**: it is read as far as it goes. -/
theorem SheetList.breaksOff :
    Markup.BreaksOff ofStream? (fun _ => false) fun part whole => part.sheets <+: whole.sheets :=
  Markup.breaksOff_of_grows (R := fun l after => l.sheets <:+ after.sheets) (fun _ _ => rfl)
    (fun _ => List.suffix_refl _) List.IsSuffix.trans (fun h => (step_sheets h).suffix)
    List.reverse_prefix.mpr

/-- The list of sheets, where its part ends early: all but the last sheet are those that it begins with. -/
theorem SheetList.readEarly :
    Markup.ReadEarly ofStream? fun said all => said.sheets.dropLast <+: all.sheets := by
  intro portions cut lost later said all hsaid hall
  obtain ⟨l, hl, rfl⟩ := map_eq_ok.mp hsaid
  obtain ⟨l', hl', rfl⟩ := map_eq_ok.mp hall
  exact Markup.Stream.read_early_items sheets step_sheets (Markup.scan_early portions cut lost later) hl hl'

/-- A tag inserts one relationship at most. -/
theorem Relationship.step_inserts {directory : String} {all after : List Relationship} {e : Event}
    (h : step directory all e = .ok after) : after = all ∨ ∃ new, after = insert new all := by
  have htag : ∀ tag : Markup.Tag, step directory all (.empty tag) = .ok after →
      after = all ∨ ∃ new, after = insert new all := by
    intro tag h
    simp only [step] at h
    split at h
    · obtain ⟨new?, -, h⟩ := bind_eq_ok.mp h
      cases new? with
      | none => exact .inl (Except.ok.inj h).symm
      | some new => exact .inr ⟨new, (Except.ok.inj h).symm⟩
    · exact .inl (Except.ok.inj h).symm
  cases e with
  | start tag => exact htag tag h
  | empty tag => exact htag tag h
  | _ => exact .inl (Except.ok.inj h).symm

/-- An identifier that is known stays known. -/
theorem Relationship.step_ids {directory : String} {all after : List Relationship} {e : Event}
    (h : step directory all e = .ok after) : ∀ r ∈ all, ∃ r' ∈ after, r'.id = r.id := by
  rcases step_inserts h with rfl | ⟨new, rfl⟩
  · exact fun r hr => ⟨r, hr, rfl⟩
  · intro r hr
    -- The new one takes the place of an earlier one with its identifier.
    by_cases hid : r.id = new.id
    · exact ⟨new, List.mem_cons_self, hid.symm⟩
    · refine ⟨r, List.mem_cons_of_mem _ (List.mem_filter.mpr ⟨hr, ?_⟩), rfl⟩
      simpa using hid

/-- So do those that were known before. -/
theorem Relationship.ids_trans {known more all : List Relationship}
    (h : ∀ r ∈ known, ∃ r' ∈ more, r'.id = r.id) (hmore : ∀ r ∈ more, ∃ r' ∈ all, r'.id = r.id) :
    ∀ r ∈ known, ∃ r' ∈ all, r'.id = r.id := by
  intro r hr
  obtain ⟨r', hr', hid⟩ := h r hr
  obtain ⟨r'', hr'', hid'⟩ := hmore r' hr'
  exact ⟨r'', hr'', hid'.trans hid⟩

/-- Behind the one that is inserted there are only such as were there. -/
theorem Relationship.step_tail {directory : String} {all after : List Relationship} {e : Event}
    (h : step directory all e = .ok after) : ∀ r ∈ after.tail, r ∈ all := by
  rcases step_inserts h with rfl | ⟨new, rfl⟩
  · exact fun r hr => List.mem_of_mem_tail hr
  · exact fun r hr => (List.mem_filter.mp hr).1

/-- **The relationships**: those that are there are read. -/
theorem Relationship.breaksOff (directory : String) :
    Markup.BreaksOff (ofStream? directory) (fun _ => false) fun part whole =>
      ∀ r ∈ part, ∃ r' ∈ whole, r'.id = r.id := by
  refine Markup.breaksOff_of_grows (R := fun all after => ∀ r ∈ all, ∃ r' ∈ after, r'.id = r.id)
    (fun _ _ => rfl) (fun _ r hr => ⟨r, hr, rfl⟩) ids_trans step_ids ?_
  intro s t hst r hr
  obtain ⟨r', hr', hid⟩ := hst r (List.mem_reverse.mp hr)
  exact ⟨r', List.mem_reverse.mpr hr', hid⟩

/-- The relationships, where their part ends early: all but the last one are there. -/
theorem Relationship.readEarly (directory : String) :
    Markup.ReadEarly (ofStream? directory) fun said all =>
      ∀ r ∈ said.dropLast, ∃ r' ∈ all, r'.id = r.id := by
  intro portions cut lost later said all hsaid hall
  obtain ⟨said, hread, rfl⟩ := map_eq_ok.mp hsaid
  obtain ⟨all, hwhole, rfl⟩ := map_eq_ok.mp hall
  obtain ⟨state, hgrows, hlast⟩ := Markup.Stream.read_early
    (R := fun known more : List Relationship => ∀ r ∈ known, ∃ r' ∈ more, r'.id = r.id)
    (fun _ r hr => ⟨r, hr, rfl⟩) ids_trans step_ids (Markup.scan_early portions cut lost later) hread
    hwhole
  have htail : ∀ r ∈ said.tail, r ∈ state := by
    rcases hlast with rfl | ⟨e, he⟩
    · exact fun r hr => List.mem_of_mem_tail hr
    · exact step_tail he
  intro r hr
  rw [List.dropLast_reverse] at hr
  obtain ⟨r', hr', hid⟩ := hgrows r (htail r (List.mem_reverse.mp hr))
  exact ⟨r', List.mem_reverse.mpr hr', hid⟩

namespace StyleTable

/-- A format or a style leaves the styles before it as they are. -/
theorem Scan.add_styles {s after : Scan} {tag : Markup.Tag} (h : s.add tag = .ok after) :
    Markup.AddsOne s.styles after.styles := by
  unfold add at h
  split at h
  · split at h
    · obtain ⟨format, -, h⟩ := bind_eq_ok.mp h
      split at h <;> exact Except.ok.inj h ▸ .inl rfl
    · exact Except.ok.inj h ▸ .inl rfl
  · split at h
    · obtain ⟨id, -, rfl⟩ := map_eq_ok.mp h
      exact .inr ⟨id, rfl⟩
    · exact Except.ok.inj h ▸ .inl rfl
  · exact Except.ok.inj h ▸ .inl rfl

/-- And so does any other event. -/
theorem Scan.step_styles {s after : Scan} {e : Event} (h : s.step e = .ok after) :
    Markup.AddsOne s.styles after.styles := by
  cases e with
  | start tag =>
    have henter : (s.enter tag.localName).styles = s.styles := by
      unfold enter
      split <;> rfl
    rw [← henter]
    exact add_styles h
  | empty tag => exact add_styles h
  | finish name =>
    rw [← Except.ok.inj h]
    unfold leave
    split <;> exact .inl rfl
  | _ => exact Except.ok.inj h ▸ .inl rfl

/-- The table that the events of a part give. -/
theorem ofStream?_eq : ofStream? = fun s : Markup.Stream => (s.read Scan.step {}).map fun scan =>
    ⟨(scan.styles.reverse.map scan.isDateFormat).toArray⟩ := by
  funext s
  rw [ofStream?]
  cases s.read Scan.step {} <;> rfl

/-- **The styles**: those that are there are read. Whether they show dates may depend on formats that
are lost. -/
theorem breaksOff :
    Markup.BreaksOff ofStream? (fun _ => false) fun part whole =>
      part.dateStyles.size ≤ whole.dateStyles.size := by
  rw [ofStream?_eq]
  refine Markup.breaksOff_of_grows (R := fun s after => s.styles <:+ after.styles) (fun _ _ => rfl)
    (fun _ => List.suffix_refl _) List.IsSuffix.trans (fun h => (Scan.step_styles h).suffix) ?_
  intro s t hst
  simpa using hst.length_le

/-- The styles, where their part ends early: one at most is not in the whole part. -/
theorem readEarly :
    Markup.ReadEarly ofStream? fun said all => said.dateStyles.size ≤ all.dateStyles.size + 1 := by
  intro portions cut lost later said all hsaid hall
  rw [ofStream?_eq] at hsaid hall
  obtain ⟨s, hs, rfl⟩ := map_eq_ok.mp hsaid
  obtain ⟨s', hs', rfl⟩ := map_eq_ok.mp hall
  have hprefix := Markup.Stream.read_early_items Scan.styles Scan.step_styles
    (Markup.scan_early portions cut lost later) hs hs'
  have hle := hprefix.length_le
  rw [List.length_dropLast, List.length_reverse, List.length_reverse] at hle
  simp only [List.size_toArray, List.length_map, List.length_reverse]
  omega

end StyleTable

namespace SharedStrings

/-- Text of an item opens and closes nothing. -/
theorem Scan.addText_item (s : Scan) (text : String) :
    (s.addText text).item.isSome = s.item.isSome ∧ (s.addText text).done = s.done := by
  rw [addText]
  exact ⟨Option.isSome_map, rfl⟩

/-- Text of the part that can be read, in an item or elsewhere. -/
theorem Scan.step_text_item {s after : Scan} {e : Event} {content : Except Markup.TextFault String}
    (he : e = .text content ∨ e = .literal content) (h : s.step e = .ok after) :
    after.item.isSome = s.item.isSome ∧ Markup.AddsOne s.done after.done := by
  have hafter : after = s ∨ ∃ text, after = s.addText text := by
    rcases he with rfl | rfl
    all_goals
      simp only [step] at h
      split at h
      · cases content with
        | error cause => simp at h
        | ok text => exact .inr ⟨text, (Except.ok.inj h).symm⟩
      · exact .inl (Except.ok.inj h).symm
  rcases hafter with rfl | ⟨text, rfl⟩
  · exact ⟨rfl, .inl rfl⟩
  · exact ⟨(s.addText_item text).1, .inl (s.addText_item text).2⟩

/-- **An event of the part.** An item is open as long as its element is. The strings of the table stay as
they are, and one is added at most. -/
theorem Scan.step_item {s after : Scan} {e : Event} (h : s.step e = .ok after) :
    after.item.isSome = e.insideAfter "si" s.item.isSome ∧ Markup.AddsOne s.done after.done := by
  cases e with
  | start tag =>
    rw [← Except.ok.inj h, Event.insideAfter]
    unfold enter
    split
    · rename_i hname
      exact ⟨by simp [hname], .inl rfl⟩
    · rename_i hname
      rw [hname]
      split <;> exact ⟨by simp, .inl rfl⟩
    · rename_i hname
      rw [hname]
      split <;> exact ⟨by simp, .inl rfl⟩
    · rename_i hname _ _
      have hne : (tag.localName == "si") = false := beq_eq_false_iff_ne.mpr hname
      exact ⟨by simp [hne], .inl rfl⟩
  | empty tag =>
    rw [← Except.ok.inj h]
    split
    · exact ⟨rfl, .inr ⟨_, rfl⟩⟩
    · exact ⟨rfl, .inl rfl⟩
  | finish name =>
    rw [← Except.ok.inj h, Event.insideAfter]
    unfold leave
    split
    · rename_i hname
      exact ⟨by simp [hname], .inl rfl⟩
    · rename_i hname
      exact ⟨by simp [hname], .inl rfl⟩
    · rename_i hname
      rw [hname]
      cases hitem : s.item with
      | none => exact ⟨by simp [hitem], .inl rfl⟩
      | some text => exact ⟨by simp, .inr ⟨_, rfl⟩⟩
    · rename_i hname
      have hne : (Markup.localPart name != "si") = true := bne_iff_ne.mpr hname
      exact ⟨by simp [hne], .inl rfl⟩
  | text content => exact step_text_item (.inl rfl) h
  | literal content => exact step_text_item (.inr rfl) h
  | aside =>
    rw [← Except.ok.inj h]
    exact ⟨rfl, .inl rfl⟩

/-- Behind some events of the part an item is open if its element is. -/
theorem Scan.foldlM_item {events : List Event} {s after : Scan} (h : events.foldlM step s = .ok after) :
    after.item.isSome = events.foldl (fun inside e => e.insideAfter "si" inside) s.item.isSome := by
  induction events generalizing s with
  | nil =>
    rw [← Except.ok.inj h]
    rfl
  | cons e events ih =>
    rw [List.foldlM_cons] at h
    obtain ⟨next, hnext, hrest⟩ := bind_eq_ok.mp h
    rw [ih hrest, (step_item hnext).1, List.foldl_cons]

/-- The table behind the last event, unless an item is open there. -/
def Scan.table? (s : Scan) : Except PartFault SharedStrings :=
  if s.item.isSome then .error (.unfinishedString s.done.length) else .ok ⟨s.done.reverse.toArray⟩

/-- A table holds the strings of the items, in their order. -/
theorem Scan.items_of_table? {s : Scan} {table : SharedStrings} (h : s.table? = .ok table) :
    table.items.toList = s.done.reverse := by
  unfold table? at h
  split at h
  · simp at h
  · rw [← Except.ok.inj h]

/-- The table is what is said behind the last event. -/
theorem ofStream?_eq (s : Markup.Stream) : ofStream? s = s.read Scan.step {} >>= Scan.table? := by
  rw [ofStream?]
  cases s.read Scan.step {} with
  | error cause => rfl
  | ok scan =>
    simp only [bind, Except.bind, Scan.table?]
    by_cases hopen : scan.item.isSome = true
    · rw [if_pos hopen, if_pos hopen]
      rfl
    · rw [if_neg hopen, if_neg hopen]
      rfl

/-- The table that the events of a part give. -/
theorem ofStream?_events (events : List Event) :
    ofStream? ⟨events, none⟩ = events.foldlM Scan.step {} >>= Scan.table? := by
  rw [ofStream?_eq, Markup.Stream.read_events]

/-- **The shared strings**: they are refused in an item, and else read as far as they go. -/
theorem breaksOff :
    Markup.BreaksOff ofStream? (Markup.isOpenBehind "si") fun part whole =>
      part.items.toList <+: whole.items.toList where
  fault events fault := by
    obtain ⟨cause, hcause⟩ := @Markup.Stream.read_fault Scan Scan.step {} events fault
    refine ⟨cause, ?_⟩
    rw [ofStream?, hcause]
    rfl
  refused {kept} piece? h := by
    -- A piece of text leaves the item open.
    have hopen : Markup.isOpenBehind "si" (Markup.brokenOff kept piece?) = true := by
      cases piece? with
      | none => simpa [Markup.brokenOff] using h
      | some content =>
        rw [Markup.isOpenBehind, Markup.brokenOff, List.foldl_append]
        exact h
    rw [ofStream?_events]
    cases hread : (Markup.brokenOff kept piece?).foldlM Scan.step {} with
    | error cause => exact ⟨cause, rfl⟩
    | ok scan =>
      have hitem : scan.item.isSome = true := (Scan.foldlM_item hread).trans hopen
      exact ⟨.unfinishedString scan.done.length, if_pos hitem⟩
  accepted {kept lost whole} piece? h hclosed hpiece := by
    rw [ofStream?_events, List.foldlM_append] at h
    obtain ⟨last, hlast, hwhole⟩ := bind_eq_ok.mp h
    obtain ⟨scan, hkept, hlost⟩ := bind_eq_ok.mp hlast
    have hitem : ¬ scan.item.isSome = true := by
      rw [Scan.foldlM_item hkept]
      exact Bool.eq_false_iff.mp hclosed
    -- Outside of the items a piece of text adds nothing to the table.
    obtain ⟨after, hafter, hdone, hitem'⟩ : ∃ after : Scan,
        (piece?.map Event.text).toList.foldlM Scan.step scan = .ok after ∧ after.done = scan.done ∧
          ¬ after.item.isSome = true := by
      cases piece? with
      | none => exact ⟨scan, rfl, rfl, hitem⟩
      | some content =>
        cases content with
        | error cause => exact absurd (hpiece _ rfl) (by simp [Except.isOk, Except.toBool])
        | ok text =>
          by_cases hin : scan.inText = true
          · refine ⟨scan.addText text, by simp [Scan.step, hin], (scan.addText_item text).2, ?_⟩
            rwa [(scan.addText_item text).1]
          · exact ⟨scan, by simp [Scan.step, hin], rfl, hitem⟩
    have hgrows : scan.done <:+ last.done :=
      Markup.foldlM_grows (R := fun s after : Scan => s.done <:+ after.done)
        (fun _ => List.suffix_refl _) List.IsSuffix.trans (fun h => (Scan.step_item h).2.suffix) hlost
    refine ⟨⟨after.done.reverse.toArray⟩, ?_, ?_⟩
    · rw [ofStream?_events, Markup.brokenOff, List.foldlM_append, hkept]
      exact bind_eq_ok.mpr ⟨after, hafter, if_neg hitem'⟩
    · rw [Scan.items_of_table? hwhole, List.toList_toArray, hdone]
      exact List.reverse_prefix.mpr hgrows

/-- The shared strings, where their part ends early: all but the last one are those that the table
begins with. -/
theorem readEarly :
    Markup.ReadEarly ofStream? fun said all => said.items.toList.dropLast <+: all.items.toList := by
  intro portions cut lost later said all hsaid hall
  rw [ofStream?_eq] at hsaid hall
  obtain ⟨s, hs, hsaid⟩ := bind_eq_ok.mp hsaid
  obtain ⟨s', hs', hall⟩ := bind_eq_ok.mp hall
  rw [Scan.items_of_table? hsaid, Scan.items_of_table? hall]
  exact Markup.Stream.read_early_items Scan.done (fun h => (Scan.step_item h).2)
    (Markup.scan_early portions cut lost later) hs hs'

end SharedStrings

namespace Workbook

/-- **Which parts that break off are refused.** The list of sheets, the relationships and the styles are
refused for a fault alone, so that a part that ends between two constructs passes for a whole one with
fewer sheets, relationships or styles; the shared strings are also refused in an item, and pass for
fewer strings between two of them. -/
theorem parts_breakOff (directory : String) :
    Markup.BreaksOff SheetList.ofStream? (fun _ => false)
        (fun part whole => part.sheets <+: whole.sheets) ∧
      Markup.BreaksOff (Relationship.ofStream? directory) (fun _ => false)
        (fun part whole => ∀ r ∈ part, ∃ r' ∈ whole, r'.id = r.id) ∧
      Markup.BreaksOff StyleTable.ofStream? (fun _ => false)
        (fun part whole => part.dateStyles.size ≤ whole.dateStyles.size) ∧
      Markup.BreaksOff SharedStrings.ofStream? (Markup.isOpenBehind "si")
        (fun part whole => part.items.toList <+: whole.items.toList) :=
  ⟨SheetList.breaksOff, Relationship.breaksOff directory, StyleTable.breaksOff, SharedStrings.breaksOff⟩

/-- Each of the parts breaks off behind its first item, with its root open, and is read. -/
theorem parts_brokenOff_read :
    let part := fun text : String => Markup.scan ⟨[Text.octets text], false⟩
    (SheetList.ofStream? (part "<workbook><sheets><sheet name='A' r:id='1'/>")).map SheetList.sheets =
        .ok [⟨"A", 0, "1", .visible⟩] ∧
      Relationship.ofStream? "" (part "<Relationships><Relationship Id='1' Type='t' Target='a'/>") =
        .ok [⟨"1", "t", "a"⟩] ∧
      StyleTable.ofStream? (part "<styleSheet><cellXfs><xf numFmtId='14'/>") = .ok ⟨#[true]⟩ ∧
      SharedStrings.ofStream? (part "<sst><si><t>a</t></si>") = .ok ⟨#["a"]⟩ := by
  decide +kernel

/-- **What is read of the four parts wherever their octets end**: but for one sheet, relationship, style
or string at most it is what the whole part begins with. -/
theorem parts_endEarly (directory : String) :
    Markup.ReadEarly SheetList.ofStream? (fun said all => said.sheets.dropLast <+: all.sheets) ∧
      Markup.ReadEarly (Relationship.ofStream? directory)
        (fun said all => ∀ r ∈ said.dropLast, ∃ r' ∈ all, r'.id = r.id) ∧
      Markup.ReadEarly StyleTable.ofStream?
        (fun said all => said.dateStyles.size ≤ all.dateStyles.size + 1) ∧
      Markup.ReadEarly SharedStrings.ofStream?
        (fun said all => said.items.toList.dropLast <+: all.items.toList) :=
  ⟨SheetList.readEarly, Relationship.readEarly directory, StyleTable.readEarly, SharedStrings.readEarly⟩

/-- A list of sheets that ends in a tag, and shows a sheet that the whole list hides. -/
example :
    let sheets := fun text : String =>
      (SheetList.ofStream? (Markup.scan ⟨[Text.octets text], false⟩)).map SheetList.sheets
    sheets "<workbook><sheets><sheet name='A' r:id='1'/><sheet name='B' r:id='2'" =
        .ok [⟨"A", 0, "1", .visible⟩, ⟨"B", 0, "2", .visible⟩] ∧
      sheets "<workbook><sheets><sheet name='A' r:id='1'/><sheet name='B' r:id='2' state='hidden'/></sheets>" =
        .ok [⟨"A", 0, "1", .visible⟩, ⟨"B", 0, "2", .hidden⟩] := by
  decide +kernel

end Workbook

end Xlsx
