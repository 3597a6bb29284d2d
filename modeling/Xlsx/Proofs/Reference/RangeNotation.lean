import Mathlib.Order.Interval.Set.UnorderedInterval
import Mathlib.Order.Lattice.Nat
import Xlsx.Proofs.Reference.Notation
import Xlsx.Proofs.Text.Trimming
import Xlsx.Reference.Range

/-! # Ranges and what their references name

A reference to a range names two corners of it, whichever and in whatever order, and is read as the
range from the upper left to the lower right one.

* **`Position.not_mem_of_ofText?`**: a reference to a position has no colon in it.
* **`Range.ofText?_eq_ok`**: a text is read as the range that spans the two corners that it names.
* **`Range.Inside`**: a range that runs forward and lies in a sheet.
* **`Range.normalised`**: what a range that is read is like, and that its own reference is read as
  it. -/

namespace Xlsx

namespace Position

/-- White space around a reference makes no difference. -/
theorem ofText?_congr {s t : String} {p : Position}
    (h : Text.trimChars s.toList = Text.trimChars t.toList) : ofText? s = .ok p ↔ ofText? t = .ok p := by
  rw [ofText?_eq_ok, ofText?_eq_ok, h]

/-- **A reference to a position** has no colon in it. -/
theorem not_mem_of_ofText? {s : String} {p : Position} (h : ofText? s = .ok p) : ':' ∉ s.toList := by
  intro hcolon
  have hbare : ':' ∈ bare (Text.trimChars s.toList) :=
    List.mem_filter.mpr ⟨(Text.mem_trimChars (by decide)).mpr hcolon, by decide⟩
  exact (spells_of_ofText? h).2.2.not_mem (by decide) (by decide) hbare

end Position

namespace Range

/-! ## The two corners -/

/-- The two corners that a text names span the range that it is read as. -/
theorem ofText?_of_corners {x y : String} {a b : Position} (hx : Position.ofText? x = .ok a)
    (hy : Position.ofText? y = .ok b) : ofText? (x ++ ":" ++ y) = .ok (spanning a b) := by
  have hchars : (x ++ ":" ++ y).toList = x.toList ++ ':' :: y.toList := by
    rw [String.toList_append, String.toList_append, List.append_assoc]
    rfl
  have htrimmed : Text.trimChars (x ++ ":" ++ y).toList =
      Text.trimLeft x.toList ++ ':' :: Text.trimRight y.toList := by
    rw [hchars, Text.trimChars_around (by decide)]
  have hcolon : ':' ∉ Text.trimLeft x.toList := fun hmem =>
    Position.not_mem_of_ofText? hx (List.dropWhile_subset _ hmem)
  obtain ⟨htake, hdrop⟩ := @Text.cut_at _ _ (Text.trimRight y.toList) hcolon
  have ha : Position.ofText? (String.ofList (Text.trimLeft x.toList)) = .ok a := by
    refine (Position.ofText?_congr ?_).mpr hx
    rw [String.toList_ofList, Text.trimChars_trimLeft]
  have hb : Position.ofText? (String.ofList (Text.trimRight y.toList)) = .ok b := by
    refine (Position.ofText?_congr ?_).mpr hy
    rw [String.toList_ofList, Text.trimChars_trimRight]
  unfold ofText?
  simp only [htrimmed, htake, hdrop, ha, hb]
  rw [if_neg (by simp)]
  rfl

/-- A text that is read as a range names two corners of it. -/
theorem corners_of_ofText? {s : String} {r : Range} (h : ofText? s = .ok r) :
    ∃ x y a b, s = x ++ ":" ++ y ∧ Position.ofText? x = .ok a ∧ Position.ofText? y = .ok b ∧
      r = spanning a b := by
  obtain ⟨left, right, hs, hleft, hright⟩ := Text.exists_append_trimChars s.toList
  unfold ofText? at h
  simp only [throw_bind] at h
  split at h
  · simp at h
  split at h
  · rename_i c second hsecond
    obtain ⟨a, ha, h⟩ := bind_eq_ok.mp h
    obtain ⟨b, hb, h⟩ := bind_eq_ok.mp h
    -- What a text is cut at is a colon.
    have hcolon : c = ':' := by
      have hsome : (Text.trimChars s.toList).dropWhile (· != ':') ≠ [] := by simp [hsecond]
      have hhead := List.head_dropWhile_not _ hsome
      simpa [hsecond] using hhead
    subst hcolon
    have hcut : Text.trimChars s.toList =
        (Text.trimChars s.toList).takeWhile (· != ':') ++ ':' :: second := by
      rw [← hsecond, List.takeWhile_append_dropWhile]
    refine ⟨String.ofList (left ++ (Text.trimChars s.toList).takeWhile (· != ':')),
      String.ofList (second ++ right), a, b, ?_, ?_, ?_, (Except.ok.inj h).symm⟩
    · rw [← String.toList_inj, String.toList_append, String.toList_append, String.toList_ofList,
        String.toList_ofList]
      conv_lhs => rw [hs, hcut]
      simp
    · refine (Position.ofText?_congr ?_).mpr ha
      rw [String.toList_ofList, String.toList_ofList, Text.trimChars_blanks_append hleft]
    · refine (Position.ofText?_congr ?_).mpr hb
      rw [String.toList_ofList, String.toList_ofList, Text.trimChars_append_blanks hright]
  · simp [throw, throwThe, MonadExceptOf.throw] at h

/-- **A text is read as the range that spans the two corners that it names.** -/
theorem ofText?_eq_ok {s : String} {r : Range} :
    ofText? s = .ok r ↔ ∃ x y a b, s = x ++ ":" ++ y ∧ Position.ofText? x = .ok a ∧
      Position.ofText? y = .ok b ∧ r = spanning a b := by
  refine ⟨corners_of_ofText?, ?_⟩
  rintro ⟨x, y, a, b, rfl, ha, hb, rfl⟩
  exact ofText?_of_corners ha hb

/-! ## Ranges that run forward -/

/-- **A range that runs forward and lies in a sheet.** -/
structure Inside (r : Range) : Prop where
  rows : r.first.row ≤ r.last.row
  columns : r.first.column ≤ r.last.column
  row_lt : r.last.row < maxRows
  column_lt : r.last.column < maxColumns

/-- A range has the same corners in either order. -/
theorem spanning_comm (a b : Position) : spanning a b = spanning b a := by
  rw [spanning, spanning, Nat.min_comm, Nat.min_comm a.column, Nat.max_comm, Nat.max_comm a.column]

/-- The corners of either diagonal span the same range. -/
theorem spanning_diagonal (a b : Position) :
    spanning ⟨a.row, b.column⟩ ⟨b.row, a.column⟩ = spanning a b := by
  rw [spanning, spanning, Nat.min_comm b.column, Nat.max_comm b.column]

/-- Between two cells of the sheet a range is inside of it. -/
theorem inside_spanning {a b : Position} (ha : a.row < maxRows ∧ a.column < maxColumns)
    (hb : b.row < maxRows ∧ b.column < maxColumns) : (spanning a b).Inside where
  rows := Nat.le_trans (Nat.min_le_left _ _) (Nat.le_max_left _ _)
  columns := Nat.le_trans (Nat.min_le_left _ _) (Nat.le_max_left _ _)
  row_lt := Nat.max_lt.mpr ⟨ha.1, hb.1⟩
  column_lt := Nat.max_lt.mpr ⟨ha.2, hb.2⟩

/-- **A range that a text names** runs forward and lies in a sheet. -/
theorem inside_of_ofText? {s : String} {r : Range} (h : ofText? s = .ok r) : r.Inside := by
  obtain ⟨x, y, a, b, -, ha, hb, rfl⟩ := ofText?_eq_ok.mp h
  exact inside_spanning (Position.ofText?_lt ha) (Position.ofText?_lt hb)

/-- A range that is read ends inside of the sheet. -/
theorem ofText?_lt {s : String} {r : Range} (h : ofText? s = .ok r) :
    r.last.row < maxRows ∧ r.last.column < maxColumns :=
  ⟨(inside_of_ofText? h).row_lt, (inside_of_ofText? h).column_lt⟩

/-- The range that two corners span has what lies between them. -/
theorem contains_spanning (a b p : Position) :
    (spanning a b).contains p = true ↔
      p.row ∈ Set.uIcc a.row b.row ∧ p.column ∈ Set.uIcc a.column b.column := by
  simp only [contains, Bool.and_eq_true, decide_eq_true_eq, and_assoc]
  exact ⟨fun ⟨h₁, h₂, h₃, h₄⟩ => ⟨⟨h₁, h₂⟩, h₃, h₄⟩, fun ⟨⟨h₁, h₂⟩, h₃, h₄⟩ => ⟨h₁, h₂, h₃, h₄⟩⟩

/-- **The reference to a range**, with the numbers of its rows counted without a bound. -/
def label (r : Range) : String := r.first.label ++ ":" ++ r.last.label

/-- It is written where both corners have references. -/
theorem label?_of_lt {r : Range} (hfirst : r.first.row + 1 < Text.wordSize)
    (hlast : r.last.row + 1 < Text.wordSize) : r.label? = some r.label := by
  rw [label?, Position.label?_of_lt hfirst, Position.label?_of_lt hlast]
  rfl

/-- **How many rows and columns a range has**, counted without a bound. -/
def size (r : Range) : Nat × Nat := (r.last.row - r.first.row + 1, r.last.column - r.first.column + 1)

/-- **The size of a range that runs forward** is counted where both numbers fit into thirty-two bits, and
nowhere else. -/
theorem size?_eq_ite {r : Range} (hrows : r.first.row ≤ r.last.row)
    (hcolumns : r.first.column ≤ r.last.column) :
    r.size? = if r.size.1 < Text.wordSize ∧ r.size.2 < Text.wordSize then some r.size else none := by
  have hrow : extent? r.first.row r.last.row = Text.inWord? r.size.1 := if_neg (Nat.not_lt.mpr hrows)
  have hcolumn : extent? r.first.column r.last.column = Text.inWord? r.size.2 :=
    if_neg (Nat.not_lt.mpr hcolumns)
  rw [size?, hrow, hcolumn]
  split
  · rename_i hsize
    rw [Text.inWord?_of_lt hsize.1, Text.inWord?_of_lt hsize.2]
    rfl
  · rename_i hsize
    rcases Nat.lt_or_ge r.size.1 Text.wordSize with hlt | hge
    · have hnone := Text.inWord?_eq_none.mpr (Nat.not_lt.mp fun hcolumn => hsize ⟨hlt, hcolumn⟩)
      rw [Text.inWord?_of_lt hlt, hnone]
      rfl
    · rw [Text.inWord?_eq_none.mpr hge]
      rfl

namespace Inside

variable {r : Range} (hr : r.Inside)

include hr

/-- A range of a sheet spans from its first to its last corner. -/
theorem spanning_eq : spanning r.first r.last = r := by
  rw [spanning, Nat.min_eq_left hr.rows, Nat.min_eq_left hr.columns, Nat.max_eq_right hr.rows,
    Nat.max_eq_right hr.columns]

/-- **The reference to a range** is read as this range. -/
theorem ofText?_label : ofText? r.label = .ok r := by
  have hfirst : Position.ofText? r.first.label = .ok r.first :=
    Position.ofText?_label (Nat.lt_of_le_of_lt hr.columns hr.column_lt)
      (Nat.lt_of_le_of_lt hr.rows hr.row_lt)
  have hlast : Position.ofText? r.last.label = .ok r.last :=
    Position.ofText?_label hr.column_lt hr.row_lt
  rw [label, ofText?_of_corners hfirst hlast, hr.spanning_eq]

/-- There is a reference to a range of a sheet. -/
theorem label?_eq : r.label? = some r.label :=
  label?_of_lt (Position.row_lt_wordSize (Nat.lt_of_le_of_lt hr.rows hr.row_lt))
    (Position.row_lt_wordSize hr.row_lt)

/-- A range of a sheet has no more rows and columns than the sheet. -/
theorem size_le : r.size.1 ≤ maxRows ∧ r.size.2 ≤ maxColumns := by
  have hrow := hr.row_lt
  have hcolumn := hr.column_lt
  constructor
  · show r.last.row - r.first.row + 1 ≤ maxRows
    omega
  · show r.last.column - r.first.column + 1 ≤ maxColumns
    omega

/-- The size of a range of a sheet is counted without an overflow. -/
theorem size?_eq : r.size? = some r.size := by
  obtain ⟨hrows, hcolumns⟩ := hr.size_le
  have hrow : r.size.1 < Text.wordSize := Nat.lt_of_le_of_lt hrows (by decide)
  have hcolumn : r.size.2 < Text.wordSize := Nat.lt_of_le_of_lt hcolumns (by decide)
  rw [size?_eq_ite hr.rows hr.columns, if_pos ⟨hrow, hcolumn⟩]

end Inside

/-- **Ranges are read as they are spanned.** Let a text be read as a range. Then the range runs forward
and lies in a sheet, and its size is counted without an overflow. There is a reference to it, which is
read as this range. It has what lies between the two corners that the text names; naming them the other
way round, or those of the other diagonal, gives the same range. And there is a reference to any range of
a sheet, which is read as this range. -/
theorem normalised :
    (∀ s r, ofText? s = .ok r →
      r.Inside ∧
        r.size? = some (r.last.row - r.first.row + 1, r.last.column - r.first.column + 1) ∧
        (∃ rows columns, r.size? = some (rows, columns) ∧ rows ≤ maxRows ∧ columns ≤ maxColumns) ∧
        (∃ text, r.label? = some text ∧ ofText? text = .ok r) ∧
        ∃ x y a b, s = x ++ ":" ++ y ∧ ':' ∉ x.toList ∧ ':' ∉ y.toList ∧
          Position.ofText? x = .ok a ∧ Position.ofText? y = .ok b ∧
          (∀ p, r.contains p = true ↔
            p.row ∈ Set.uIcc a.row b.row ∧ p.column ∈ Set.uIcc a.column b.column) ∧
          ofText? (y ++ ":" ++ x) = .ok r ∧
          ∀ v w, Position.ofText? v = .ok ⟨a.row, b.column⟩ → Position.ofText? w = .ok ⟨b.row, a.column⟩ →
            ofText? (v ++ ":" ++ w) = .ok r ∧ ofText? (w ++ ":" ++ v) = .ok r) ∧
      ∀ r : Range, r.Inside → ∃ text, r.label? = some text ∧ ofText? text = .ok r := by
  refine ⟨fun s r h => ?_, fun r hr => ⟨r.label, hr.label?_eq, hr.ofText?_label⟩⟩
  obtain ⟨x, y, a, b, hs, ha, hb, rfl⟩ := ofText?_eq_ok.mp h
  have hinside := inside_of_ofText? h
  refine ⟨hinside, hinside.size?_eq, ⟨_, _, hinside.size?_eq, hinside.size_le⟩,
    ⟨_, hinside.label?_eq, hinside.ofText?_label⟩, x, y, a, b, hs,
    Position.not_mem_of_ofText? ha, Position.not_mem_of_ofText? hb, ha, hb, contains_spanning a b, ?_,
    fun v w hv hw => ⟨?_, ?_⟩⟩
  · rw [ofText?_of_corners hb ha, spanning_comm]
  · rw [ofText?_of_corners hv hw, spanning_diagonal]
  · rw [ofText?_of_corners hw hv, spanning_comm, spanning_diagonal]

/-- The lower left and the upper right corner of a range. -/
theorem normalised_backward :
    ofText? " $a$5:B1" = .ok ⟨⟨0, 0⟩, ⟨4, 1⟩⟩ ∧ Inside ⟨⟨0, 0⟩, ⟨4, 1⟩⟩ ∧
      size? ⟨⟨0, 0⟩, ⟨4, 1⟩⟩ = some (5, 2) ∧ label? ⟨⟨0, 0⟩, ⟨4, 1⟩⟩ = some "A1:B5" ∧
      ofText? "A1:B5" = .ok ⟨⟨0, 0⟩, ⟨4, 1⟩⟩ := by
  have hread : ofText? " $a$5:B1" = .ok ⟨⟨0, 0⟩, ⟨4, 1⟩⟩ := by decide +kernel
  have hlabel : label? ⟨⟨0, 0⟩, ⟨4, 1⟩⟩ = some "A1:B5" := by decide +kernel
  obtain ⟨hinside, hsize, -, -, -⟩ := normalised.1 _ _ hread
  obtain ⟨text, htext, hback⟩ := normalised.2 _ hinside
  rw [Option.some.inj (htext.symm.trans hlabel)] at hback
  exact ⟨hread, hinside, hsize, hlabel, hback⟩

end Range

end Xlsx
