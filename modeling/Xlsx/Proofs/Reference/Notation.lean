import Xlsx.Proofs.Reference.ColumnNames
import Xlsx.Proofs.Text.Numerals
import Xlsx.Reference.Position

/-! # References and what they spell

A reference spells a column by letters, in either case, and a row by decimal digits; `$` signs stand
anywhere in it, and white space around it.

* **`Position.Spells`**: letters and digits that spell a column and a number.
* **`Position.ofText?_eq_ok`**: a text is read as the position that it spells, if this is one of a
  sheet.
* **`Position.spells_label`**: the reference to a position spells it.
* **`Position.notation_inverse`**: names of columns and references to positions are read as what they
  name, and a text that is read is one of these up to case, zeros in front, `$` signs and white
  space. -/

namespace Xlsx.Position

/-- The characters of a reference without its `$` signs. -/
def bare (cs : List Char) : List Char := cs.filter (· != '$')

/-- Other characters stay. -/
theorem bare_cons {c : Char} (h : c ≠ '$') (cs : List Char) : bare (c :: cs) = c :: bare cs :=
  List.filter_cons_of_pos (by simpa using h)

/-- A `$` in front goes. -/
theorem bare_dollar (cs : List Char) : bare ('$' :: cs) = bare cs := List.filter_cons_of_neg (by simp)

/-- **A spelling**: the letters of a column in either case, and behind them the decimal digits of a
number, which may begin with zeros. -/
def Spells (cs : List Char) (column number : Nat) : Prop :=
  ∃ letters digits, cs = letters ++ digits ∧ letters.map Char.toUpper = Column.nameChars column ∧
    digits ≠ [] ∧ (∀ c ∈ digits, c.isDigit = true) ∧ Nat.ofDigitChars 10 digits 0 = number

/-- A digit is no letter. -/
theorem isAlpha_of_isDigit {c : Char} (h : c.isDigit = true) : c.isAlpha = false := by
  have hrange := Text.toNat_of_isDigit h
  have hchar : ∀ n < 58, 48 ≤ n → (Char.ofNat n).isAlpha = false := by decide
  rw [← Char.ofNat_toNat c]
  exact hchar c.toNat (by omega) hrange.1

/-- Letters and the digits behind them are told apart. -/
theorem span_isAlpha {letters digits : List Char} (hletters : ∀ c ∈ letters, c.isAlpha = true)
    (hdigits : ∀ c ∈ digits, c.isDigit = true) :
    (letters ++ digits).takeWhile Char.isAlpha = letters ∧
      (letters ++ digits).dropWhile Char.isAlpha = digits := by
  rw [List.takeWhile_append_of_pos hletters, List.dropWhile_append_of_pos hletters]
  cases digits with
  | nil => exact ⟨List.append_nil letters, rfl⟩
  | cons d digits =>
    have hd : ¬ d.isAlpha = true := by simp [isAlpha_of_isDigit (hdigits d List.mem_cons_self)]
    rw [List.takeWhile_cons_of_neg hd, List.dropWhile_cons_of_neg hd, List.append_nil]
    exact ⟨rfl, rfl⟩

/-- A text that is read as a position spells it, and the position is one of a sheet. -/
theorem spells_of_ofText? {s : String} {p : Position} (h : ofText? s = .ok p) :
    p.column < maxColumns ∧ p.row < maxRows ∧
      Spells (bare (Text.trimChars s.toList)) p.column (p.row + 1) := by
  unfold ofText? at h
  simp only [throw_bind] at h
  -- Each of the four conditions leaves the text without a position; only the last branch gives one.
  split at h
  · simp at h
  split at h
  · simp at h
  rename_i hsome
  split at h
  · simp at h
  split at h
  · simp at h
  rename_i hall
  obtain ⟨column, hcolumn, h⟩ := bind_eq_ok.mp h
  have hdigits : ∀ c ∈ (bare (Text.trimChars s.toList)).dropWhile Char.isAlpha, c.isDigit = true := by
    simpa [bare] using hall
  have hsome : (bare (Text.trimChars s.toList)).dropWhile Char.isAlpha ≠ [] := by
    simpa [bare] using hsome
  obtain ⟨hlt, hname⟩ := Column.index?_eq_ok.mp hcolumn
  have hletters : ((bare (Text.trimChars s.toList)).takeWhile Char.isAlpha).map Char.toUpper =
      Column.nameChars column := by
    have hname := congrArg String.toList hname
    rwa [String.toUpper, String.toList_map, String.toList_ofList, Column.name, String.toList_ofList]
      at hname
  have hnumber := Text.natural?_of_isDigit hsome hdigits
  rw [bare] at hnumber
  rw [hnumber] at h
  simp only at h
  split at h
  · rename_i hrow
    rw [← Except.ok.inj h]
    refine ⟨hlt, Nat.lt_of_lt_of_le (Nat.sub_lt hrow.1 Nat.one_pos) hrow.2, _, _,
      List.takeWhile_append_dropWhile.symm, hletters, hsome, hdigits, ?_⟩
    exact (Nat.sub_add_cancel hrow.1).symm
  · simp [throw, throwThe, MonadExceptOf.throw] at h

/-- A text that spells a position of a sheet is read as it. -/
theorem ofText?_of_spells {s : String} {p : Position} (hcolumn : p.column < maxColumns)
    (hrow : p.row < maxRows) (h : Spells (bare (Text.trimChars s.toList)) p.column (p.row + 1)) :
    ofText? s = .ok p := by
  obtain ⟨letters, digits, hbare, hletters, hsome, hdigits, hnumber⟩ := h
  have halpha : ∀ c ∈ letters, c.isAlpha = true := by
    intro c hc
    obtain ⟨d, hd⟩ := Column.letterValue?_of_mem hletters c hc
    exact (Column.isAlpha_of_letterValue? hd).1
  obtain ⟨htake, hdrop⟩ := span_isAlpha halpha hdigits
  have hfirst : letters ≠ [] := by
    rintro rfl
    exact Column.nameChars_ne_nil p.column hletters.symm
  have htrimmed : Text.trimChars s.toList ≠ [] := by
    intro hnil
    rw [hnil] at hbare
    exact hsome (List.append_eq_nil_iff.mp hbare.symm).2
  have hindex : Column.index? (String.ofList letters) = .ok p.column := by
    refine Column.index?_eq_ok.mpr ⟨hcolumn, ?_⟩
    rw [← String.toList_inj, String.toUpper, String.toList_map, String.toList_ofList, hletters,
      Column.name, String.toList_ofList]
  rw [bare] at hbare
  unfold ofText?
  simp only [hbare, htake, hdrop, Text.natural?_of_isDigit hsome hdigits, hnumber, hindex]
  rw [if_neg (by simpa using htrimmed), if_neg (by simpa using hsome), if_neg (by simpa using hfirst),
    if_neg (by simpa using hdigits)]
  have hinside : 1 ≤ p.row + 1 ∧ p.row + 1 ≤ maxRows := ⟨Nat.le_add_left _ _, hrow⟩
  simp only [if_pos hinside, Nat.add_sub_cancel]
  rfl

/-- **A text is read as a position of a sheet exactly if it spells it**, without its `$` signs and the
white space around it. -/
theorem ofText?_eq_ok {s : String} {p : Position} :
    ofText? s = .ok p ↔ p.column < maxColumns ∧ p.row < maxRows ∧
      Spells (bare (Text.trimChars s.toList)) p.column (p.row + 1) :=
  ⟨spells_of_ofText?, fun ⟨hcolumn, hrow, h⟩ => ofText?_of_spells hcolumn hrow h⟩

/-- **A position that a text names is one of a sheet.** -/
theorem ofText?_lt {s : String} {p : Position} (h : ofText? s = .ok p) :
    p.row < maxRows ∧ p.column < maxColumns :=
  ⟨(spells_of_ofText? h).2.1, (spells_of_ofText? h).1⟩

/-! ## References that are written -/

/-- The characters of a spelling are letters and digits. -/
theorem Spells.mem {cs : List Char} {column number : Nat} (h : Spells cs column number) :
    ∀ c ∈ cs, (∃ d, Column.letterValue? c = some d) ∨ c.isDigit = true := by
  obtain ⟨letters, digits, rfl, hletters, -, hdigits, -⟩ := h
  intro c hc
  rcases List.mem_append.mp hc with hc | hc
  · exact .inl (Column.letterValue?_of_mem hletters c hc)
  · exact .inr (hdigits c hc)

/-- Letters and digits are ASCII characters and no white space. -/
theorem Spells.isBlank {cs : List Char} {column number : Nat} (h : Spells cs column number) :
    ∀ c ∈ cs, c.toNat < 128 ∧ Text.isBlank c = false := by
  intro c hc
  rcases h.mem c hc with ⟨d, hd⟩ | hdigit
  · exact (Column.isAlpha_of_letterValue? hd).2
  · have hrange := Text.toNat_of_isDigit hdigit
    exact ⟨by omega, Text.isBlank_of_isDigit hdigit⟩

/-- There is no white space around a spelling. -/
theorem Spells.trimChars_eq {cs : List Char} {column number : Nat} (h : Spells cs column number) :
    Text.trimChars cs = cs :=
  Text.trimChars_eq_self fun c hc => (h.isBlank c hc).2

/-- A spelling has no other characters. -/
theorem Spells.not_mem {cs : List Char} {column number : Nat} (h : Spells cs column number) {c : Char}
    (hletter : Column.letterValue? c = none) (hdigit : c.isDigit = false) : c ∉ cs := by
  intro hc
  rcases h.mem c hc with ⟨d, hd⟩ | hd
  · simp [hletter] at hd
  · simp [hdigit] at hd

/-- There is no `$` sign in a spelling. -/
theorem Spells.bare_eq {cs : List Char} {column number : Nat} (h : Spells cs column number) :
    bare cs = cs := by
  refine List.filter_eq_self.mpr fun c hc => ?_
  have hne : c ≠ '$' := by
    rintro rfl
    exact h.not_mem (by decide) (by decide) hc
  simpa using hne

/-- **The reference to a position**, with the number of its row counted without a bound. -/
def label (p : Position) : String := Column.name p.column ++ Text.decimal (p.row + 1)

/-- Where that number fits into thirty-two bits, this is the reference that is written. -/
theorem label?_of_lt {p : Position} (hrow : p.row + 1 < Text.wordSize) : p.label? = some p.label := by
  rw [label?, Text.inWord?_of_lt hrow]
  rfl

/-- Elsewhere none is. -/
theorem label?_eq_none {p : Position} : p.label? = none ↔ Text.wordSize ≤ p.row + 1 := by
  rw [label?, Option.map_eq_none_iff, Text.inWord?_eq_none]

/-- A reference that is written has the number of the row as it is. -/
theorem eq_label_of_label? {p : Position} {s : String} (h : p.label? = some s) : s = p.label := by
  by_cases hrow : p.row + 1 < Text.wordSize
  · exact Option.some.inj (h.symm.trans (label?_of_lt hrow))
  · have hnone := label?_eq_none.mpr (Nat.not_lt.mp hrow)
    exact nomatch h.symm.trans hnone

/-- The reference to a position is the name of its column and the digits of its row. -/
theorem label_toList (p : Position) :
    p.label.toList = Column.nameChars p.column ++ Nat.toDigits 10 (p.row + 1) := by
  rw [label, Column.name, Text.decimal, String.toList_append, String.toList_ofList,
    String.toList_ofList]

/-- **The reference to a position spells it.** -/
theorem spells_label (p : Position) : Spells p.label.toList p.column (p.row + 1) :=
  ⟨_, _, label_toList p, Column.map_toUpper_nameChars p.column, Nat.toDigits_ne_nil,
    fun _ hc => Text.isDigit_of_mem_toDigits hc, Nat.ofDigitChars_ten_toDigits⟩

/-- A position of a sheet has a row whose number fits into thirty-two bits. -/
theorem row_lt_wordSize {p : Position} (hrow : p.row < maxRows) : p.row + 1 < Text.wordSize :=
  Nat.lt_of_le_of_lt hrow (by decide)

/-- The reference to a position of a sheet is read as this position. -/
theorem ofText?_label {p : Position} (hcolumn : p.column < maxColumns) (hrow : p.row < maxRows) :
    ofText? p.label = .ok p := by
  have hspells := spells_label p
  refine ofText?_of_spells hcolumn hrow ?_
  rwa [hspells.trimChars_eq, hspells.bare_eq]

/-- **References are read as what they name.** No two columns have the same name, and counting them
goes through the names by their length and then by the alphabet. A text is read as a column of a sheet
exactly if it is the name of it in some case, and as a position of a sheet exactly if, without its `$`
signs and the white space around it, it spells the column and the number of the row. So there is a
reference to each position of a sheet, and it is read as this position. -/
theorem notation_inverse :
    Function.Injective Column.name ∧
      (∀ m n, List.Shortlex (· < ·) (Column.name m).toList (Column.name n).toList ↔ m < n) ∧
      (∀ s n, Column.index? s = .ok n ↔ n < maxColumns ∧ s.toUpper = Column.name n) ∧
      (∀ s p, ofText? s = .ok p ↔ p.column < maxColumns ∧ p.row < maxRows ∧
        Spells (bare (Text.trimChars s.toList)) p.column (p.row + 1)) ∧
      ∀ p, p.column < maxColumns → p.row < maxRows →
        label? p = some (label p) ∧ ofText? (label p) = .ok p := by
  refine ⟨Column.name_injective, fun m n => ?_, fun s n => Column.index?_eq_ok,
    fun s p => ofText?_eq_ok, fun p hcolumn hrow => ?_⟩
  · rw [Column.name, Column.name, String.toList_ofList, String.toList_ofList]
    exact Column.shortlex_iff_lt
  · exact ⟨label?_of_lt (row_lt_wordSize hrow), ofText?_label hcolumn hrow⟩

/-- The last cell of a sheet. -/
theorem notation_inverse_lastCell :
    label? ⟨maxRows - 1, maxColumns - 1⟩ = some "XFD1048576" ∧
      ofText? "XFD1048576" = .ok ⟨maxRows - 1, maxColumns - 1⟩ := by
  have hlabel : label ⟨maxRows - 1, maxColumns - 1⟩ = "XFD1048576" := by decide +kernel
  obtain ⟨-, -, -, -, hread⟩ := notation_inverse
  rw [← hlabel]
  exact hread ⟨maxRows - 1, maxColumns - 1⟩ (by decide) (by decide)

end Xlsx.Position
