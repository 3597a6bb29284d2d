import Mathlib.Data.List.Basic
import Xlsx.Markup.Scanner

/-! # Documents that end early

The octets of a document may end before the document does. If they end between two constructs, or in a
text, nothing tells that they do. If they end in a construct, it is completed there: a start tag with the
attributes that it has so far, an end tag with what it has of its name, an instruction if what it has of
its octets makes one; only a comment, a literal section and a document type are then a fault, as is an end
tag that now has another name than the element.

* **`splitTag_append`** and its like, **`readConstruct_append`**: a construct that is over before the
  octets are is read in the same way if more octets follow.
* **`scanFrom_early`**: so the events of a document that ends early are first ones of the document, and
  at most one more.
* **`scan_early`**: this for the portions in which a document arrives. -/

namespace Xlsx.Markup

/-! ## A construct with more octets behind it -/

section Append

variable {bs body rest : List UInt8} (more : List UInt8)

/-- Where a list is left, it is left at the same place if more follows. -/
theorem leave_append {p : UInt8 → Bool} {b : UInt8} {after : List UInt8} (h : bs.dropWhile p = b :: after) :
    (bs ++ more).takeWhile p = bs.takeWhile p ∧ (bs ++ more).dropWhile p = b :: (after ++ more) := by
  have hshorter : (bs.takeWhile p).length ≠ bs.length := by
    have hlength := congrArg List.length (List.takeWhile_append_dropWhile (p := p) (l := bs))
    rw [h, List.length_append, List.length_cons] at hlength
    omega
  constructor
  · rw [List.takeWhile_append, if_neg hshorter]
  · rw [List.dropWhile_append, h]
    rfl

/-- Octets up to a mark that is among them. -/
theorem splitAt_append {stop : UInt8} (h : (splitAt stop bs).2 = some rest) :
    splitAt stop (bs ++ more) = ((splitAt stop bs).1, some (rest ++ more)) := by
  unfold splitAt at h ⊢
  split at h
  · rename_i b after hdrop
    obtain rfl := Option.some.inj h
    obtain ⟨htake, hmore⟩ := leave_append more hdrop
    rw [hmore, htake]
  · exact nomatch h

/-- Octets up to a mark of several octets. -/
theorem splitWhen_append {done : List UInt8 → Bool} {passed : List UInt8}
    (h : splitWhen done passed bs = some (body, rest)) :
    splitWhen done passed (bs ++ more) = some (body, rest ++ more) := by
  induction bs generalizing passed with
  | nil => exact nomatch h
  | cons b bs ih =>
    rw [List.cons_append, splitWhen]
    rw [splitWhen] at h
    split at h
    · rename_i hend
      obtain ⟨rfl, rfl⟩ := Prod.mk.inj (Option.some.inj h)
      exact if_pos hend
    · rename_i hend
      rw [if_neg hend]
      exact ih h

/-- A tag up to its end, which does not stand in a quoted value. -/
theorem splitTag_append {quote : Option UInt8} {passed : List UInt8}
    (h : (splitTag quote passed bs).2 = some rest) :
    splitTag quote passed (bs ++ more) = ((splitTag quote passed bs).1, some (rest ++ more)) := by
  induction bs generalizing quote passed with
  | nil => exact nomatch h
  | cons b bs ih =>
    cases quote with
    | none =>
      rw [List.cons_append]
      simp only [splitTag] at h ⊢
      split at h
      · rename_i hend
        obtain rfl := Option.some.inj h
        rw [if_pos hend, if_pos hend]
      · rename_i hend
        rw [if_neg hend, if_neg hend]
        exact ih h
    | some mark => exact ih h

variable {more}

/-- **Where portions start** if there are `behind` octets more in the last one, and others that start at
`later` behind it. -/
def moreStarts (behind : Nat) (later starts : List Nat) : List Nat := starts.map (· + behind) ++ later

/-- The portions that start before a place are the same ones with more octets behind it. -/
theorem dropWhile_moreStarts {behind left : Nat} {later : List Nat} (hlater : ∀ s ∈ later, s ≤ behind)
    (starts : List Nat) :
    (moreStarts behind later starts).dropWhile (left + behind < ·) =
      moreStarts behind later (starts.dropWhile (left < ·)) := by
  induction starts with
  | nil =>
    cases later with
    | nil => rfl
    | cons s later =>
      have hle : s ≤ behind := hlater s List.mem_cons_self
      exact List.dropWhile_cons_of_neg (by simpa using Nat.le_trans hle (Nat.le_add_left _ _))
  | cons s starts ih =>
    show ((s + behind) :: moreStarts behind later starts).dropWhile _ = _
    by_cases hlt : left < s
    · rw [List.dropWhile_cons_of_pos (by simpa using hlt), List.dropWhile_cons_of_pos (by simpa using hlt), ih]
    · rw [List.dropWhile_cons_of_neg (by simpa using hlt), List.dropWhile_cons_of_neg (by simpa using hlt)]
      rfl

/-- A portion starts at a place if it does so with more octets behind it. -/
theorem openBrackets_moreStarts {behind left : Nat} {later : List Nat} (hlater : ∀ s ∈ later, s ≤ behind)
    (hleft : 0 < left) (starts : List Nat) (depth : Int) :
    openBrackets (moreStarts behind later starts) (left + behind) depth = openBrackets starts left depth := by
  have hsame : (moreStarts behind later starts).head? = some (left + behind) ↔ starts.head? = some left := by
    cases starts with
    | nil =>
      constructor
      · intro hhead
        have hle := hlater _ (List.mem_of_head? hhead)
        omega
      · exact (nomatch ·)
    | cons s starts => simp [moreStarts]
  simp only [openBrackets, hsame]

/-- A document type up to the bracket that closes it. -/
theorem splitDocumentType_append {later : List Nat} (hlater : ∀ s ∈ later, s ≤ more.length)
    {starts : List Nat} {depth : Int} {passed : List UInt8}
    (h : splitDocumentType starts bs.length depth passed bs = some (body, rest)) :
    splitDocumentType (moreStarts more.length later starts) (bs ++ more).length depth passed (bs ++ more) =
      some (body, rest ++ more) := by
  induction bs generalizing starts depth passed with
  | nil => exact nomatch h
  | cons b bs ih =>
    have hleft : (b :: bs ++ more).length = (b :: bs).length + more.length := List.length_append
    have hnext : (b :: bs).length + more.length - 1 = (bs ++ more).length := by
      rw [List.length_append, List.length_cons]
      omega
    have hpos : 0 < (b :: bs).length := Nat.succ_pos _
    rw [List.cons_append, splitDocumentType, ← List.cons_append, hleft, dropWhile_moreStarts hlater,
      openBrackets_moreStarts hlater hpos, hnext]
    rw [splitDocumentType] at h
    split at h
    · rename_i hend
      obtain ⟨rfl, rfl⟩ := Prod.mk.inj (Option.some.inj h)
      exact if_pos hend
    · rename_i hend
      rw [if_neg hend]
      exact ih h

/-- A comment, a literal section or a document type up to its end. -/
theorem Declaration.split_append {later : List Nat} (hlater : ∀ s ∈ later, s ≤ more.length)
    {starts : List Nat} {d : Declaration} (h : d.split starts bs = some (body, rest)) :
    d.split (moreStarts more.length later starts) (bs ++ more) = some (body, rest ++ more) := by
  cases d with
  | comment => exact splitWhen_append more h
  | literal => exact splitWhen_append more h
  | documentType => exact splitDocumentType_append hlater h

variable {opened opened' : List (List UInt8)} {e : Event}

/-- And the event that it makes. -/
theorem readDeclaration_append {later : List Nat} (hlater : ∀ s ∈ later, s ≤ more.length)
    {starts : List Nat} {ended : Fault}
    (h : readDeclaration starts ended opened bs = .event e opened' rest) :
    readDeclaration (moreStarts more.length later starts) ended opened (bs ++ more) =
      .event e opened' (rest ++ more) := by
  cases bs with
  | nil => exact nomatch h
  | cons b bs =>
    rw [List.cons_append]
    simp only [readDeclaration] at h ⊢
    cases hkind : Declaration.ofOctet? b with
    | none => simp [hkind] at h
    | some d =>
      cases hsplit : d.split starts (b :: bs) with
      | none => simp [hkind, hsplit] at h
      | some found =>
        obtain ⟨body, after⟩ := found
        have hmore := Declaration.split_append hlater hsplit
        rw [List.cons_append] at hmore
        simp only [hkind, hsplit] at h
        simp only [hmore]
        cases hevent : d.event body with
        | error fault => simp [hevent] at h
        | ok given =>
          simp only [hevent, Step.event.injEq] at h
          obtain ⟨rfl, rfl, rfl⟩ := h
          rfl

/-- An end tag leaves the octets behind it as they are. -/
theorem readEnd_append (h : readEnd opened body rest = .event e opened' rest) :
    readEnd opened body (rest ++ more) = .event e opened' (rest ++ more) := by
  unfold readEnd at h ⊢
  cases opened with
  | nil => exact nomatch h
  | cons expected outer =>
    simp only at h ⊢
    split at h
    · rename_i hname
      simp only [Step.event.injEq] at h
      rw [if_pos hname, h.1, h.2.1]
    · exact nomatch h

/-- **A construct that is over before the octets are** is read in the same way if more octets follow. -/
theorem readConstruct_append {later : List Nat} (hlater : ∀ s ∈ later, s ≤ more.length)
    {starts : List Nat} (h : readConstruct starts false opened bs = .event e opened' rest) :
    rest = [] ∨ readConstruct (moreStarts more.length later starts) false opened (bs ++ more) =
      .event e opened' (rest ++ more) := by
  cases bs with
  | nil => exact nomatch h
  | cons b bs =>
    rw [List.cons_append]
    simp only [readConstruct, Bool.false_eq_true, if_false] at h ⊢
    split at h
    · rename_i hbang
      rw [if_pos hbang]
      exact .inr (readDeclaration_append hlater h)
    rename_i hbang
    rw [if_neg hbang]
    split at h
    · rename_i hslash
      rw [if_pos hslash]
      cases hsplit : (splitAt 0x3E bs).2 with
      | none =>
        simp only [hsplit] at h
        exact .inl (readEnd_rest h)
      | some after =>
        simp only [hsplit] at h
        obtain rfl := readEnd_rest h
        simp only [splitAt_append more hsplit]
        exact .inr (readEnd_append h)
    rename_i hslash
    rw [if_neg hslash]
    split at h
    · rename_i hmark
      rw [if_pos hmark]
      cases hsplit : (splitAt 0x3E bs).2 with
      | none =>
        simp only [hsplit] at h
        split at h
        · simp only [Step.event.injEq] at h
          exact .inl h.2.2.symm
        · cases h
      | some after =>
        simp only [hsplit] at h
        simp only [splitAt_append more hsplit]
        split at h
        · rename_i hinstruction
          simp only [Step.event.injEq] at h
          obtain ⟨rfl, rfl, rfl⟩ := h
          exact .inr (if_pos hinstruction)
        · cases h
    rename_i hmark
    rw [if_neg hmark]
    cases hsplit : (splitTag none [] (b :: bs)).2 with
    | none =>
      simp only [hsplit] at h
      split at h <;>
      · simp only [Step.event.injEq] at h
        exact .inl h.2.2.symm
    | some after =>
      have hmore := splitTag_append more hsplit
      rw [List.cons_append] at hmore
      simp only [hsplit] at h
      simp only [hmore]
      right
      split at h
      · simp only [Step.event.injEq] at h
        obtain ⟨rfl, rfl, rfl⟩ := h
        simp only [*]
      · simp only [Step.event.injEq] at h
        obtain ⟨rfl, rfl, rfl⟩ := h
        simp only [*]

end Append

/-! ## Scanning, construct by construct -/

section Equations

variable {starts : List Nat} {opened opened' : List (List UInt8)} {out : List Event} {rest : List UInt8}

/-- No octets make no event. -/
theorem scanFrom_nil : scanFrom starts false opened out [] = ⟨out.reverse, none⟩ := by
  rw [scanFrom]
  rfl

/-- **A construct** makes an event, ends the scan with a fault, or ends it. -/
theorem scanFrom_construct :
    scanFrom starts false opened out (0x3C :: rest) =
      match readConstruct starts false opened rest with
      | .event e opened' after => scanFrom starts false opened' (e :: out) after
      | .fault fault => ⟨out.reverse, some fault⟩
      | .atEnd => ⟨out.reverse, none⟩ := by
  rw [scanFrom, if_pos rfl]
  split
  all_goals
    rename_i h
    simp only [h, Bool.false_eq_true, if_false]

/-- Behind an event the scan goes on. -/
theorem scanFrom_event {e : Event} {after : List UInt8}
    (h : readConstruct starts false opened rest = .event e opened' after) :
    scanFrom starts false opened out (0x3C :: rest) = scanFrom starts false opened' (e :: out) after := by
  rw [scanFrom_construct, h]

/-- A fault ends it. -/
theorem scanFrom_fault {fault : Fault} (h : readConstruct starts false opened rest = .fault fault) :
    scanFrom starts false opened out (0x3C :: rest) = ⟨out.reverse, some fault⟩ := by
  rw [scanFrom_construct, h]

/-- So does the end of the octets in front of a construct. -/
theorem scanFrom_atEnd (h : readConstruct starts false opened rest = .atEnd) :
    scanFrom starts false opened out (0x3C :: rest) = ⟨out.reverse, none⟩ := by
  rw [scanFrom_construct, h]

/-- Text goes up to the next construct. -/
theorem scanFrom_text {b : UInt8} (hb : b ≠ 0x3C) :
    scanFrom starts false opened out (b :: rest) =
      scanFrom starts false opened (.text (expandedText (b :: rest.takeWhile (· != 0x3C))) :: out)
        (rest.dropWhile (· != 0x3C)) := by
  rw [scanFrom, if_neg hb]
  simp

/-- The events that have been found stay in front. -/
theorem prefix_scanFrom (bs : List UInt8) : out.reverse <+: (scanFrom starts false opened out bs).events := by
  -- Each construct and each text uses octets up, so the induction is on their number.
  induction hn : bs.length using Nat.strongRecOn generalizing bs opened out with
  | ind n ih =>
    subst hn
    have hstep : ∀ (e : Event) (opened' : List (List UInt8)) (after : List UInt8), after.length < bs.length →
        out.reverse <+: (scanFrom starts false opened' (e :: out) after).events := by
      intro e opened' after hlt
      refine .trans ?_ (ih _ hlt after rfl)
      rw [List.reverse_cons]
      exact List.prefix_append _ _
    cases bs with
    | nil =>
      simp only [scanFrom_nil, List.prefix_refl]
    | cons b rest =>
      by_cases hb : b = 0x3C
      · subst hb
        cases hread : readConstruct starts false opened rest with
        | event e opened' after =>
          rw [scanFrom_event hread]
          exact hstep e opened' after (Nat.lt_succ_of_lt (readConstruct_length hread))
        | fault fault =>
          simp only [scanFrom_fault hread, List.prefix_refl]
        | atEnd =>
          simp only [scanFrom_atEnd hread, List.prefix_refl]
      · rw [scanFrom_text hb]
        refine hstep _ opened _ ?_
        exact Nat.lt_succ_of_le (List.dropWhile_suffix _).length_le

end Equations

/-! ## Octets that end early -/

/-- **What the events of some octets are to those of more octets**: there is a fault, or they are first
ones of these, and at most one more behind them. -/
def Stream.EndsEarly (part whole : Stream) : Prop :=
  (∃ fault, part.fault? = some fault) ∨
    ∃ kept last?, part = ⟨kept ++ Option.toList last?, none⟩ ∧ kept <+: whole.events

/-- **Scanning octets that end early**: as far as the last construct or text in them they are scanned as if
more octets followed. -/
theorem scanFrom_early {more : List UInt8} {later : List Nat} (hlater : ∀ s ∈ later, s ≤ more.length)
    {starts : List Nat} {opened : List (List UInt8)} {out : List Event} (bs : List UInt8) :
    (scanFrom starts false opened out bs).EndsEarly
      (scanFrom (moreStarts more.length later starts) false opened out (bs ++ more)) := by
  induction hn : bs.length using Nat.strongRecOn generalizing bs opened out with
  | ind n ih =>
    subst hn
    have hover : ∀ last? : Option Event, Stream.EndsEarly ⟨out.reverse ++ last?.toList, none⟩
        (scanFrom (moreStarts more.length later starts) false opened out (bs ++ more)) :=
      fun last? => .inr ⟨out.reverse, last?, rfl, prefix_scanFrom _⟩
    cases bs with
    | nil =>
      rw [scanFrom_nil]
      simpa using hover none
    | cons b rest =>
      by_cases hb : b = 0x3C
      · subst hb
        cases hread : readConstruct starts false opened rest with
        | fault fault =>
          rw [scanFrom_fault hread]
          exact .inl ⟨fault, rfl⟩
        | atEnd =>
          rw [scanFrom_atEnd hread]
          simpa using hover none
        | event e opened' after =>
          rw [scanFrom_event hread]
          rcases readConstruct_append hlater hread with rfl | hmore
          · -- The octets end in this construct, or right behind it.
            rw [scanFrom_nil]
            simpa using hover (some e)
          · rw [List.cons_append, scanFrom_event hmore]
            exact ih _ (Nat.lt_succ_of_lt (readConstruct_length hread)) after rfl
      · rw [scanFrom_text hb]
        cases hdrop : rest.dropWhile (· != 0x3C) with
        | nil =>
          rw [scanFrom_nil]
          simpa using hover (some _)
        | cons c after =>
          obtain ⟨htake, hmore⟩ := leave_append more hdrop
          rw [List.cons_append, scanFrom_text hb, htake, hmore]
          have hlt : (c :: after).length < (b :: rest).length :=
            hdrop ▸ Nat.lt_succ_of_le (List.dropWhile_suffix _).length_le
          exact ih _ hlt (c :: after) rfl

/-! ## Portions -/

/-- The first portion starts in front of all octets. -/
theorem headD_starts (portions : List (List UInt8)) :
    (starts portions).headD 0 = portions.flatten.length := by
  induction portions with
  | nil => rfl
  | cons p portions ih =>
    show p.length + (starts portions).headD 0 = _
    rw [ih, List.flatten_cons, List.length_append]

/-- And no portion starts with more octets to come. -/
theorem le_of_mem_starts {portions : List (List UInt8)} {s : Nat} (hs : s ∈ starts portions) :
    s ≤ portions.flatten.length := by
  induction portions with
  | nil => exact absurd hs List.not_mem_nil
  | cons p portions ih =>
    rw [List.flatten_cons, List.length_append]
    rcases List.mem_cons.mp hs with rfl | hs
    · exact Nat.le_of_eq (congrArg _ (headD_starts portions))
    · exact Nat.le_trans (ih hs) (Nat.le_add_left _ _)

/-- Where portions start of which the last one ends early. -/
theorem starts_early (portions : List (List UInt8)) (cut lost : List UInt8) (later : List (List UInt8)) :
    starts (portions ++ (cut ++ lost) :: later) =
      moreStarts (lost ++ later.flatten).length (starts later) (starts (portions ++ [cut])) := by
  induction portions with
  | nil =>
    show (((cut ++ lost).length + (starts later).headD 0) :: starts later) =
      (cut.length + 0 + (lost ++ later.flatten).length) :: starts later
    rw [headD_starts, List.length_append, List.length_append]
    congr 1
    omega
  | cons p portions ih =>
    show (p.length + (starts (portions ++ (cut ++ lost) :: later)).headD 0) ::
        starts (portions ++ (cut ++ lost) :: later) =
      (p.length + (starts (portions ++ [cut])).headD 0 + (lost ++ later.flatten).length) ::
        moreStarts (lost ++ later.flatten).length (starts later) (starts (portions ++ [cut]))
    rw [← ih, headD_starts, headD_starts]
    congr 1
    simp only [List.flatten_append, List.flatten_cons, List.flatten_nil, List.length_append,
      List.length_nil]
    omega

/-- Portions of which the last one ends early, behind the byte order mark. -/
theorem scanFrom_portions (portions : List (List UInt8)) (cut lost : List UInt8) (later : List (List UInt8)) :
    (scanFrom (starts (portions ++ [cut])) false [] [] (portions ++ [cut]).flatten).EndsEarly
      (scanFrom (starts (portions ++ (cut ++ lost) :: later)) false [] []
        (portions ++ (cut ++ lost) :: later).flatten) := by
  have hflatten : (portions ++ (cut ++ lost) :: later).flatten =
      (portions ++ [cut]).flatten ++ (lost ++ later.flatten) := by
    simp
  rw [starts_early, hflatten]
  refine scanFrom_early (fun s hs => ?_) _
  rw [List.length_append]
  exact Nat.le_trans (le_of_mem_starts hs) (Nat.le_add_left _ _)

/-- A portion without a byte order mark stays as it is. -/
theorem dropMark_of_ne {p : List UInt8} (hp : ∀ rest, p ≠ 0xEF :: 0xBB :: 0xBF :: rest)
    (portions : List (List UInt8)) : dropMark (p :: portions) = p :: portions := by
  unfold dropMark
  split
  · rename_i heq
    exact absurd (List.cons.inj heq).1 (hp _)
  · rfl

/-- Octets that end in a byte order mark are a text, or nothing. -/
theorem scanFrom_mark {starts : List Nat} {cut lost rest : List UInt8}
    (hmark : cut ++ lost = 0xEF :: 0xBB :: 0xBF :: rest) (hcut : ∀ rest, cut ≠ 0xEF :: 0xBB :: 0xBF :: rest) :
    ∃ last?, scanFrom starts false [] [] cut = ⟨Option.toList last?, none⟩ := by
  match cut with
  | [] => exact ⟨none, scanFrom_nil⟩
  | [a] =>
    obtain ⟨rfl, -⟩ := List.cons.inj hmark
    exact ⟨some _, (scanFrom_text (by decide)).trans scanFrom_nil⟩
  | [a, b] =>
    simp only [List.cons_append, List.cons.injEq] at hmark
    obtain ⟨rfl, rfl, -⟩ := hmark
    exact ⟨some _, (scanFrom_text (by decide)).trans scanFrom_nil⟩
  | a :: b :: c :: cut =>
    simp only [List.cons_append, List.cons.injEq] at hmark
    obtain ⟨rfl, rfl, rfl, -⟩ := hmark
    exact absurd rfl (hcut cut)

/-- **A document that ends early.** Let its octets end anywhere, in a portion or between two. Then there is
a fault, or the events are first ones of the document, and at most one more. -/
theorem scan_early (portions : List (List UInt8)) (cut lost : List UInt8) (later : List (List UInt8)) :
    (scan ⟨portions ++ [cut], false⟩).EndsEarly (scan ⟨portions ++ (cut ++ lost) :: later, false⟩) := by
  simp only [scan]
  cases portions with
  | cons p portions =>
    -- The mark stands in the first portion, which is there in full.
    obtain ⟨p', hp⟩ : ∃ p', ∀ others, dropMark (p :: others) = p' :: others := by
      by_cases hmark : ∃ rest, p = 0xEF :: 0xBB :: 0xBF :: rest
      · obtain ⟨rest, rfl⟩ := hmark
        exact ⟨rest, fun _ => rfl⟩
      · exact ⟨p, dropMark_of_ne fun rest h => hmark ⟨rest, h⟩⟩
    rw [List.cons_append, List.cons_append, hp, hp]
    exact scanFrom_portions (p' :: portions) cut lost later
  | nil =>
    rw [List.nil_append, List.nil_append]
    by_cases hcut : ∃ rest, cut = 0xEF :: 0xBB :: 0xBF :: rest
    · obtain ⟨rest, rfl⟩ := hcut
      exact scanFrom_portions [] rest lost later
    have hcut : ∀ rest, cut ≠ 0xEF :: 0xBB :: 0xBF :: rest := fun rest h => hcut ⟨rest, h⟩
    rw [dropMark_of_ne hcut]
    by_cases hmark : ∃ rest, cut ++ lost = 0xEF :: 0xBB :: 0xBF :: rest
    · obtain ⟨rest, hmark⟩ := hmark
      obtain ⟨last?, hlast⟩ := @scanFrom_mark (starts [cut]) _ _ _ hmark hcut
      refine .inr ⟨[], last?, ?_, List.nil_prefix⟩
      simpa using hlast
    · rw [dropMark_of_ne fun rest h => hmark ⟨rest, h⟩]
      exact scanFrom_portions [] cut lost later

end Xlsx.Markup
