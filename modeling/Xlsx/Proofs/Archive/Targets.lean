import Xlsx.Proofs.Workbook.PartCuts

/-! # Targets in normal form

A target leads from a directory to a place in the archive. What it leads to is written in one way only,
without segments that stand for no place, and a target that goes on from there may as well be resolved
in two steps.

* **`Path.IsNormal`**: the paths that name each place in one way.
* **`Path.segments_append`**, **`Path.normalSegments_ofSegments`**: dividing a path and putting it
  together again.
* **`Path.walk`**: where a target leads, segment by segment.
* **`Path.walk_append`**: a longer way is one way behind the other.
* **`Path.resolve_normalises`**: what resolving gives, and that it does so in one step or in several.
* **`Relationship.isNormal_of_ofStream?`**: whatever a file of relationships says, they lead to paths in
  normal form. -/

namespace Xlsx

namespace Path

/-! ## Segments -/

/-- The segments of a path are what it is divided into at each `/`. -/
theorem segments_eq_splitOn (cs : List Char) : segments cs = cs.splitOn '/' := by
  induction cs with
  | nil => rfl
  | cons c cs ih =>
    rw [segments, List.splitOn_cons_eq_if_modifyHead, ih]
    by_cases hc : c = '/'
    · rw [if_pos hc, if_pos (beq_iff_eq.mpr hc)]
    · rw [if_neg hc, if_neg (by simpa using hc)]
      cases hsegments : cs.splitOn '/' with
      | nil => exact absurd hsegments (List.splitOn_ne_nil '/' cs)
      | cons s rest => rfl

/-- A path is put together by a `/` between its segments. -/
theorem ofSegments_eq_intercalate (ss : List (List Char)) : ofSegments ss = ['/'].intercalate ss := by
  induction ss with
  | nil => rfl
  | cons s ss ih =>
    cases ss with
    | nil => exact List.intercalate_singleton.symm
    | cons next ss =>
      rw [ofSegments, ih, List.intercalate_cons_cons]
      · simp
      · exact fun h => List.cons_ne_nil _ _ h

/-- The segments before and behind a `/`. -/
theorem segments_append (before after : List Char) :
    segments (before ++ '/' :: after) = segments before ++ segments after := by
  simp only [segments_eq_splitOn, List.splitOn_append_cons_self]

/-- There is no `/` in a segment. -/
theorem not_mem_of_mem_segments {cs s : List Char} (h : s ∈ segments cs) : '/' ∉ s := by
  induction cs generalizing s with
  | nil =>
    rw [List.mem_singleton.mp h]
    exact List.not_mem_nil
  | cons c cs ih =>
    rw [segments] at h
    split at h
    · rcases List.mem_cons.mp h with rfl | h
      · exact List.not_mem_nil
      · exact ih h
    · rename_i hc
      split at h
      · rename_i first rest hsegments
        rw [hsegments] at ih
        rcases List.mem_cons.mp h with rfl | h
        · have hfirst : '/' ∉ first := ih List.mem_cons_self
          exact List.not_mem_cons_of_ne_of_not_mem (Ne.symm hc) hfirst
        · exact ih (List.mem_cons_of_mem first h)
      · rw [List.mem_singleton.mp h]
        exact fun hmem => hc (List.mem_singleton.mp hmem).symm

/-- A path that is put together of segments is divided into them. -/
theorem segments_ofSegments {ss : List (List Char)} (hsome : ss ≠ []) (h : ∀ s ∈ ss, '/' ∉ s) :
    segments (ofSegments ss) = ss := by
  rw [segments_eq_splitOn, ofSegments_eq_intercalate]
  exact List.splitOn_intercalate '/' h hsome

/-! ## Places -/

/-- **A segment that names a place**: neither none at all nor one that stays where it is or leads back. -/
def IsPlace (s : List Char) : Prop := s ≠ [] ∧ s ≠ ['.'] ∧ s ≠ ['.', '.']

/-- **A path in normal form**: the root, or a path all of whose segments name places. -/
def IsNormal (path : String) : Prop := path = "" ∨ ∀ s ∈ segments path.toList, IsPlace s

/-- A path in normal form does not begin with a `/`, in front of which there would be an empty segment. -/
theorem IsNormal.head?_ne {path : String} (h : IsNormal path) : path.toList.head? ≠ some '/' := by
  intro hhead
  rcases h with rfl | h
  · exact absurd hhead (by decide)
  · obtain ⟨rest, hrest⟩ := List.head?_eq_some_iff.mp hhead
    have hempty : [] ∈ segments path.toList := by
      rw [hrest, segments, if_pos rfl]
      exact List.mem_cons_self
    exact (h [] hempty).1 rfl

/-- A path in normal form does not end with a `/`, behind which there would be an empty segment. -/
theorem IsNormal.getLast?_ne {path : String} (h : IsNormal path) :
    path.toList.getLast? ≠ some '/' := by
  intro hlast
  rcases h with rfl | h
  · exact absurd hlast (by decide)
  · obtain ⟨before, hbefore⟩ := List.getLast?_eq_some_iff.mp hlast
    have hempty : [] ∈ segments path.toList := by
      rw [hbefore, segments_append]
      exact List.mem_append_right _ List.mem_cons_self
    exact (h [] hempty).1 rfl

/-! ## One segment behind the other -/

/-- A segment that names a place leads into it. -/
theorem pushSegment_of_isPlace {s : List Char} (h : IsPlace s) (done : List (List Char)) :
    pushSegment done s = s :: done := by
  obtain ⟨hempty, hdot, hback⟩ := h
  rw [pushSegment, if_neg (fun hor => hor.elim hempty hdot), if_neg hback]

/-- What one more segment leads to was there before, or is that segment as a place. -/
theorem mem_pushSegment {done : List (List Char)} {s place : List Char} (h : place ∈ pushSegment done s) :
    place ∈ done ∨ place = s ∧ IsPlace place := by
  rw [pushSegment] at h
  split at h
  · exact .inl h
  · rename_i hstays
    split at h
    · exact .inl (List.mem_of_mem_tail h)
    · rename_i hback
      rcases List.mem_cons.mp h with rfl | h
      · exact .inr ⟨rfl, fun hempty => hstays (.inl hempty), fun hdot => hstays (.inr hdot), hback⟩
      · exact .inl h

/-- Segments that all name places lead from one into the next. -/
theorem foldl_pushSegment_of_isPlace {ss : List (List Char)} (h : ∀ s ∈ ss, IsPlace s)
    (done : List (List Char)) : ss.foldl pushSegment done = ss.reverse ++ done := by
  induction ss generalizing done with
  | nil => rfl
  | cons s ss ih =>
    obtain ⟨hs, hrest⟩ := List.forall_mem_cons.mp h
    rw [List.foldl_cons, pushSegment_of_isPlace hs, ih hrest, List.reverse_cons, List.append_assoc]
    rfl

/-- What segments lead to was there before, or is one of them that names a place. -/
theorem mem_foldl_pushSegment {ss done : List (List Char)} {place : List Char}
    (h : place ∈ ss.foldl pushSegment done) : place ∈ done ∨ place ∈ ss ∧ IsPlace place := by
  induction ss generalizing done with
  | nil => exact .inl h
  | cons s ss ih =>
    rcases ih h with hpushed | ⟨hmem, hplace⟩
    · rcases mem_pushSegment hpushed with hdone | ⟨rfl, hplace⟩
      · exact .inl hdone
      · exact .inr ⟨List.mem_cons_self, hplace⟩
    · exact .inr ⟨List.mem_cons_of_mem s hmem, hplace⟩

/-- **Where a target leads** from the place that some segments name: on from there, or from the root if
it starts with a `/`. -/
def walk (start : List (List Char)) (target : List Char) : List (List Char) :=
  match target with
  | '/' :: rest => normalSegments rest
  | cs => ((segments cs).foldl pushSegment start.reverse).reverse

/-- A relative target starts where it stands. -/
theorem walk_of_relative {start : List (List Char)} {target : List Char} (h : target.head? ≠ some '/') :
    walk start target = ((segments target).foldl pushSegment start.reverse).reverse := by
  unfold walk
  split
  · exact absurd rfl h
  · rfl

/-- The way from the root is that of the segments of a path. -/
theorem walk_root {target : List Char} (h : target.head? ≠ some '/') :
    walk [] target = normalSegments target := walk_of_relative h

/-- **Every way leads to places** whose names are free of `/`, if it starts at one. -/
theorem isPlace_of_mem_walk {start : List (List Char)} {target place : List Char}
    (hstart : ∀ s ∈ start, IsPlace s ∧ '/' ∉ s) (h : place ∈ walk start target) :
    IsPlace place ∧ '/' ∉ place := by
  have hwalked : ∀ (cs : List Char) (done : List (List Char)), (∀ s ∈ done, IsPlace s ∧ '/' ∉ s) →
      place ∈ ((segments cs).foldl pushSegment done).reverse → IsPlace place ∧ '/' ∉ place := by
    intro cs done hdone hmem
    rcases mem_foldl_pushSegment (List.mem_reverse.mp hmem) with hmem | ⟨hmem, hplace⟩
    · exact hdone place hmem
    · exact ⟨hplace, not_mem_of_mem_segments hmem⟩
  unfold walk at h
  split at h
  · exact hwalked _ [] (fun s hs => absurd hs List.not_mem_nil) h
  · exact hwalked _ _ (fun s hs => hstart s (List.mem_reverse.mp hs)) h

/-- The segments of a path without those that stand for no place are places. -/
theorem isPlace_of_mem_normalSegments {cs place : List Char} (h : place ∈ normalSegments cs) :
    IsPlace place ∧ '/' ∉ place := by
  have hwalk : place ∈ walk [] ('/' :: cs) := h
  exact isPlace_of_mem_walk (fun _ hs => absurd hs List.not_mem_nil) hwalk

/-- **A path that is put together of places** leads to them. -/
theorem normalSegments_ofSegments {ss : List (List Char)} (h : ∀ s ∈ ss, IsPlace s ∧ '/' ∉ s) :
    normalSegments (ofSegments ss) = ss := by
  cases ss with
  | nil => rfl
  | cons s ss =>
    rw [normalSegments, segments_ofSegments (List.cons_ne_nil s ss) fun s hs => (h s hs).2,
      foldl_pushSegment_of_isPlace fun s hs => (h s hs).1, List.append_nil, List.reverse_reverse]

/-- **A longer way is one way behind the other**, if the second part goes on from the first one. -/
theorem walk_append {start : List (List Char)} {target further : List Char} (hsome : target ≠ [])
    (hfurther : further.head? ≠ some '/') :
    walk start (target ++ '/' :: further) = walk (walk start target) further := by
  rw [walk_of_relative hfurther]
  cases target with
  | nil => exact absurd rfl hsome
  | cons c cs =>
    by_cases hc : c = '/'
    · -- Both ways start at the root, behind the `/`.
      subst hc
      show normalSegments (cs ++ '/' :: further) = _
      rw [normalSegments, segments_append, List.foldl_append]
      show _ = ((segments further).foldl pushSegment (normalSegments cs).reverse).reverse
      rw [normalSegments, List.reverse_reverse]
    · have hrelative : (c :: cs).head? ≠ some '/' := by simpa using hc
      rw [walk_of_relative hrelative, List.reverse_reverse, ← List.foldl_append, ← segments_append]
      exact walk_of_relative hrelative

/-! ## Targets -/

variable (directory target : String)

/-- **A target is resolved** to the way from the directory. -/
theorem resolve_eq_walk : resolve directory target =
    String.ofList (ofSegments (walk (normalSegments directory.toList) target.toList)) := by
  unfold resolve
  dsimp only
  split
  · rename_i rest habsolute
    rw [habsolute]
    rfl
  · rename_i cs hrelative
    have hhead : target.toList.head? ≠ some '/' := fun hhead =>
      (List.head?_eq_some_iff.mp hhead).elim hrelative
    rw [walk_of_relative hhead]
    by_cases hdirectory : directory.isEmpty = true
    · have hroot : directory = "" := String.isEmpty_iff.mp hdirectory
      rw [if_pos hdirectory, hroot]
      rfl
    · rw [if_neg hdirectory, normalSegments, segments_append, List.foldl_append, normalSegments,
        List.reverse_reverse]

/-- A target that starts with a `/` leads from the root. -/
theorem resolve_of_absolute {target : String} (h : target.toList.head? = some '/') :
    resolve directory target = String.ofList (ofSegments (normalSegments target.toList.tail)) := by
  obtain ⟨rest, hrest⟩ := List.head?_eq_some_iff.mp h
  rw [resolve_eq_walk, hrest]
  rfl

/-- What a target is resolved to leads where the target does. -/
theorem normalSegments_resolve : normalSegments (resolve directory target).toList =
    walk (normalSegments directory.toList) target.toList := by
  rw [resolve_eq_walk, String.toList_ofList]
  refine normalSegments_ofSegments fun s hs => ?_
  exact isPlace_of_mem_walk (fun s hs => isPlace_of_mem_normalSegments hs) hs

/-- **A target is resolved to a path in normal form.** -/
theorem isNormal_resolve : IsNormal (resolve directory target) := by
  have hplaces : ∀ s ∈ walk (normalSegments directory.toList) target.toList, IsPlace s ∧ '/' ∉ s :=
    fun s hs => isPlace_of_mem_walk (fun s hs => isPlace_of_mem_normalSegments hs) hs
  rw [resolve_eq_walk]
  cases hwalk : walk (normalSegments directory.toList) target.toList with
  | nil => exact .inl rfl
  | cons first rest =>
    rw [hwalk] at hplaces
    refine .inr fun s hs => ?_
    rw [String.toList_ofList, segments_ofSegments (List.cons_ne_nil first rest)
      fun s hs => (hplaces s hs).2] at hs
    exact (hplaces s hs).1

/-- **Resolving a target** gives a path in normal form, which neither begins nor ends with a `/`, and
which is resolved to itself, from the root and with a `/` in front from anywhere. It does not depend on
the directory if the target starts with a `/`. And a target that goes on behind another one is resolved
as seen from where the first one leads. -/
theorem resolve_normalises :
    IsNormal (resolve directory target) ∧
      (resolve directory target).toList.head? ≠ some '/' ∧
      (resolve directory target).toList.getLast? ≠ some '/' ∧
      resolve "" (resolve directory target) = resolve directory target ∧
      (∀ other, resolve other ("/" ++ resolve directory target) = resolve directory target) ∧
      (target.toList.head? = some '/' → ∀ other, resolve other target = resolve directory target) ∧
      (target ≠ "" → ∀ further : String, further.toList.head? ≠ some '/' →
        resolve directory (target ++ "/" ++ further) = resolve (resolve directory target) further) := by
  have hnormal := isNormal_resolve directory target
  have hagain : String.ofList (ofSegments (normalSegments (resolve directory target).toList)) =
      resolve directory target := by
    rw [normalSegments_resolve, resolve_eq_walk]
  refine ⟨hnormal, hnormal.head?_ne, hnormal.getLast?_ne, ?_, fun other => ?_, fun habsolute other => ?_,
    fun hsome further hfurther => ?_⟩
  · rw [resolve_eq_walk "" (resolve directory target)]
    show String.ofList (ofSegments (walk [] (resolve directory target).toList)) = _
    rw [walk_root hnormal.head?_ne, hagain]
  · have hslash : ("/" ++ resolve directory target).toList = '/' :: (resolve directory target).toList := by
      rw [String.toList_append]
      rfl
    rw [resolve_of_absolute other (by rw [hslash]; rfl), hslash, List.tail_cons, hagain]
  · rw [resolve_of_absolute other habsolute, resolve_of_absolute directory habsolute]
  · have hlonger : (target ++ "/" ++ further).toList = target.toList ++ '/' :: further.toList := by
      rw [String.toList_append, String.toList_append, List.append_assoc]
      rfl
    have hne : target.toList ≠ [] := fun h => hsome (String.toList_eq_nil_iff.mp h)
    rw [resolve_eq_walk directory, hlonger, walk_append hne hfurther, resolve_eq_walk _ further,
      normalSegments_resolve]

/-- A target that leads back beyond the root, and another that goes on from there. -/
theorem resolve_normalises_beyondRoot :
    resolve "xl/worksheets" "/xl//./.." = "" ∧
      resolve "xl/worksheets" ("/xl//./.." ++ "/" ++ "../media/./a.png") = "media/a.png" ∧
      resolve "xl/worksheets" ("/xl//./.." ++ "/" ++ "../media/./a.png") =
        resolve (resolve "xl/worksheets" "/xl//./..") "../media/./a.png" ∧
      resolve "drawings" "/xl//./.." = resolve "xl/worksheets" "/xl//./.." := by
  obtain ⟨-, -, -, -, -, hother, hfurther⟩ := resolve_normalises "xl/worksheets" "/xl//./.."
  refine ⟨by decide +kernel, by decide +kernel, ?_, hother (by decide +kernel) "drawings"⟩
  exact hfurther (by decide +kernel) "../media/./a.png" (by decide +kernel)

end Path

/-! ## Relationships -/

namespace Relationship

/-- One more event adds no relationship that leads elsewhere. -/
theorem isNormal_of_step {directory : String} {all after : List Relationship} {e : Markup.Event}
    (h : step directory all e = .ok after) (hall : ∀ r ∈ all, Path.IsNormal r.target) :
    ∀ r ∈ after, Path.IsNormal r.target := by
  have htag : ∀ tag : Markup.Tag, step directory all (.start tag) = .ok after →
      ∀ r ∈ after, Path.IsNormal r.target := by
    intro tag h
    simp only [step] at h
    split at h
    · obtain ⟨found, hfound, h⟩ := bind_eq_ok.mp h
      cases found with
      | none => exact Except.ok.inj h ▸ hall
      | some added =>
        obtain ⟨attributes, -, hadded⟩ := bind_eq_ok.mp hfound
        have hadded := Except.ok.inj hadded
        simp only [Draft.relationship?] at hadded
        split at hadded
        · obtain ⟨-, hadded⟩ := Option.ite_none_left_eq_some.mp hadded
          rw [← Except.ok.inj h, ← Option.some.inj hadded]
          refine List.forall_mem_cons.mpr ⟨Path.isNormal_resolve directory _, fun r hr => ?_⟩
          exact hall r (List.mem_of_mem_filter hr)
        · simp at hadded
    · exact Except.ok.inj h ▸ hall
  cases e with
  | start tag => exact htag tag h
  | empty tag => exact htag tag h
  | finish name => exact Except.ok.inj h ▸ hall
  | text content => exact Except.ok.inj h ▸ hall
  | literal content => exact Except.ok.inj h ▸ hall
  | aside => exact Except.ok.inj h ▸ hall

/-- **The relationships in a file** lead to paths in normal form. -/
theorem isNormal_of_ofStream? {directory : String} {s : Markup.Stream} {all : List Relationship}
    (h : ofStream? directory s = .ok all) : ∀ r ∈ all, Path.IsNormal r.target := by
  obtain ⟨last, hread, rfl⟩ := map_eq_ok.mp h
  obtain ⟨result, hfold, hlast⟩ := bind_eq_ok.mp hread
  have hnormal : (∀ r ∈ ([] : List Relationship), Path.IsNormal r.target) →
      ∀ r ∈ result, Path.IsNormal r.target :=
    Markup.foldlM_grows (R := fun before after : List Relationship =>
        (∀ r ∈ before, Path.IsNormal r.target) → ∀ r ∈ after, Path.IsNormal r.target)
      (fun _ hall => hall) (fun hfirst hsecond hall => hsecond (hfirst hall)) isNormal_of_step hfold
  split at hlast
  · exact nomatch hlast
  · rw [← Except.ok.inj hlast]
    intro r hr
    exact hnormal (fun r hr => absurd hr List.not_mem_nil) r (List.mem_reverse.mp hr)

end Relationship

end Xlsx
