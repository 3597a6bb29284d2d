import Mathlib.Data.List.DropRight
import Xlsx.Proofs.Text.Numerals

/-! # Text between white space

White space on either side makes no difference to a text that is trimmed, and none is taken from
between two other characters.

* **`trimChars_trimLeft`**, **`trimChars_trimRight`**: what has been trimmed on one side.
* **`trimChars_around`**: a text on both sides of a character that is no white space.
* **`cut_at`**: what stands before and behind the first character of some kind. -/

namespace Xlsx.Text

variable {cs blanks : List Char}

/-- White space only is trimmed to nothing. -/
theorem trimLeft_of_isBlank (h : ∀ c ∈ blanks, isBlank c = true) : trimLeft blanks = [] :=
  List.dropWhile_eq_nil_iff.mpr h

/-- White space on the right. -/
theorem trimRight_append_blanks (h : ∀ c ∈ blanks, isBlank c = true) :
    trimRight (cs ++ blanks) = trimRight cs := by
  have hreversed : ∀ c ∈ blanks.reverse, isBlank c = true := fun c hc => h c (List.mem_reverse.mp hc)
  rw [trimRight, trimRight, List.reverse_append, trimLeft, trimLeft,
    List.dropWhile_append_of_pos hreversed]

/-- White space on the right of a text that is trimmed on both sides. -/
theorem trimChars_append_blanks (h : ∀ c ∈ blanks, isBlank c = true) :
    trimChars (cs ++ blanks) = trimChars cs := by
  have hsplit : trimLeft (cs ++ blanks) =
      if (trimLeft cs).isEmpty then trimLeft blanks else trimLeft cs ++ blanks := List.dropWhile_append
  rw [trimChars, trimChars, hsplit]
  split
  · rename_i hempty
    rw [trimLeft_of_isBlank h, List.isEmpty_iff.mp hempty]
  · exact trimRight_append_blanks h

/-- What a text loses on the right is white space. -/
theorem exists_trimRight_append (cs : List Char) :
    ∃ blanks : List Char, cs = trimRight cs ++ blanks ∧ ∀ c ∈ blanks, isBlank c = true := by
  refine ⟨(cs.reverse.takeWhile isBlank).reverse, ?_, fun c hc => ?_⟩
  · rw [trimRight, trimLeft, ← List.reverse_append, List.takeWhile_append_dropWhile,
      List.reverse_reverse]
  · exact List.mem_takeWhile_imp (List.mem_reverse.mp hc)

/-- **What a text loses is white space** on either side. -/
theorem exists_append_trimChars (cs : List Char) :
    ∃ left right : List Char, cs = left ++ trimChars cs ++ right ∧
      (∀ c ∈ left, isBlank c = true) ∧ ∀ c ∈ right, isBlank c = true := by
  obtain ⟨right, hright, hblank⟩ := exists_trimRight_append (trimLeft cs)
  refine ⟨cs.takeWhile isBlank, right, ?_, fun c hc => List.mem_takeWhile_imp hc, hblank⟩
  rw [List.append_assoc, trimChars, ← hright, trimLeft, List.takeWhile_append_dropWhile]

/-- A character that is no white space is not trimmed off. -/
theorem mem_trimChars {c : Char} (hc : isBlank c = false) : c ∈ trimChars cs ↔ c ∈ cs := by
  obtain ⟨left, right, hcs, hleft, hright⟩ := exists_append_trimChars cs
  constructor
  · intro h
    rw [hcs]
    exact List.mem_append_left _ (List.mem_append_right _ h)
  · intro h
    rw [hcs] at h
    rcases List.mem_append.mp h with h | h
    · rcases List.mem_append.mp h with h | h
      · simp [hleft c h] at hc
      · exact h
    · simp [hright c h] at hc

/-- White space on the left of a text that is trimmed on both sides. -/
theorem trimChars_blanks_append (h : ∀ c ∈ blanks, isBlank c = true) :
    trimChars (blanks ++ cs) = trimChars cs := by
  rw [trimChars, trimLeft, List.dropWhile_append_of_pos h, trimChars, trimLeft]

/-- **A text that has been trimmed on the left.** -/
theorem trimChars_trimLeft (cs : List Char) : trimChars (trimLeft cs) = trimChars cs := by
  rw [trimChars, trimChars, trimLeft, trimLeft, List.dropWhile_idempotent]

/-- **A text that has been trimmed on the right.** -/
theorem trimChars_trimRight (cs : List Char) : trimChars (trimRight cs) = trimChars cs := by
  obtain ⟨blanks, hcs, hblanks⟩ := exists_trimRight_append cs
  conv_rhs => rw [hcs]
  exact (trimChars_append_blanks hblanks).symm

/-- Nothing is trimmed off behind a character that is no white space. -/
theorem trimLeft_around {c : Char} (hc : isBlank c = false) (before after : List Char) :
    trimLeft (before ++ c :: after) = trimLeft before ++ c :: after := by
  have hsplit : trimLeft (before ++ c :: after) =
      if (trimLeft before).isEmpty then trimLeft (c :: after) else trimLeft before ++ c :: after :=
    List.dropWhile_append
  rw [hsplit]
  split
  · rename_i hempty
    rw [List.isEmpty_iff.mp hempty, trimLeft, List.dropWhile_cons_of_neg (by simp [hc]), List.nil_append]
  · rfl

/-- **A text on both sides of a character that is no white space** is trimmed on its outer sides. -/
theorem trimChars_around {c : Char} (hc : isBlank c = false) (before after : List Char) :
    trimChars (before ++ c :: after) = trimLeft before ++ c :: trimRight after := by
  have hreversed : (trimLeft before ++ c :: after).reverse =
      after.reverse ++ c :: (trimLeft before).reverse := by
    rw [List.reverse_append, List.reverse_cons, List.append_assoc, List.singleton_append]
  rw [trimChars, trimLeft_around hc, trimRight, hreversed, trimLeft_around hc, List.reverse_append,
    List.reverse_cons, List.reverse_reverse, List.append_assoc, List.singleton_append, ← trimRight]

/-- A text is cut at the first character of some kind. -/
theorem cut_at {stop : Char} {first second : List Char} (h : stop ∉ first) :
    (first ++ stop :: second).takeWhile (· != stop) = first ∧
      (first ++ stop :: second).dropWhile (· != stop) = stop :: second := by
  have hall : ∀ c ∈ first, (c != stop) = true := by
    intro c hc
    have hne : c ≠ stop := by
      rintro rfl
      exact h hc
    simpa using hne
  rw [List.takeWhile_append_of_pos hall, List.dropWhile_append_of_pos hall,
    List.takeWhile_cons_of_neg (by simp), List.dropWhile_cons_of_neg (by simp), List.append_nil]
  exact ⟨rfl, rfl⟩

end Xlsx.Text
