import Mathlib.Data.Nat.PSub
import Xlsx.Proofs.Reference.Notation

/-! # References read octet by octet

The quick reading goes through the octets of a reference once and looks at each of them alone. It
accepts what the reading of a text accepts, apart from white space, and rows below the last one of a
sheet as long as their number fits into 32 bits.

* **`Position.Progress.step?_eq_some`**: what one octet can do.
* **`Position.Progress.Reads`**: what letters, digits and `$` signs add to what has been read.
* **`Position.Progress.run?_reads`**, **`Position.Progress.run?_spelling`**: octets that are accepted
  are such characters, and these are accepted.
* **`Position.ofOctets?_eq_some`**: octets are read as the position that they spell.
* **`Position.ofOctets?_label`**: the reference to a position is read as this position.
* **`Position.ofOctetsInWords`**: the same reading in 32-bit arithmetic, which fails where a product, a
  sum or a difference that is not checked leaves the words.
* **`Position.ofOctets?_agrees`**: the two readings of references agree, and no arithmetic overflows. -/

namespace Xlsx

/-- Octets are well-formed UTF-8 exactly if they are those of a text. -/
theorem Text.utf8?_eq_some {octets : List UInt8} {s : String} :
    utf8? octets = some s ↔ octets = Text.octets s := by
  constructor
  · intro h
    rw [utf8?, String.fromUTF8?] at h
    split at h
    · rw [← Option.some.inj h, Text.octets, String.toUTF8_eq_toByteArray, toList_byteArray]
      rfl
    · simp at h
  · rintro rfl
    exact utf8?_octets s

namespace Position

/-- The ASCII character that an octet stands for. -/
def charOf (b : UInt8) : Char := Char.ofNat b.toNat

/-- The character of an octet has its number. -/
theorem toNat_charOf (b : UInt8) : (charOf b).toNat = b.toNat := by
  have hvalid : b.toNat.isValidChar := Or.inl (Nat.lt_trans b.toNat_lt (by decide))
  rw [charOf, Char.ofNat, dif_pos hvalid]
  rfl

/-- So the octet is that of its character. -/
theorem ofNat_charOf (b : UInt8) : UInt8.ofNat (charOf b).toNat = b := by
  rw [toNat_charOf, UInt8.ofNat_toNat]

/-- An ASCII character is the one that its octet stands for. -/
theorem charOf_ofNat {c : Char} (h : c.toNat < 128) : charOf (UInt8.ofNat c.toNat) = c := by
  have hoctet : (UInt8.ofNat c.toNat).toNat = c.toNat := by
    rw [UInt8.toNat_ofNat']
    exact Nat.mod_eq_of_lt (by omega)
  rw [charOf, hoctet, Char.ofNat_toNat]

namespace Progress

/-! ## One octet -/

/-- It is the character with the number of the octet. -/
theorem charOf_eq (b : UInt8) : Char.ofNat b.toNat = charOf b := rfl

/-- **What one octet can do**: go on with the column, go on with the row, or be passed over. -/
theorem step?_eq_some {p q : Progress} {b : UInt8} (h : p.step? b = some q) :
    (p.inRow = false ∧ ∃ d, Column.letterValue? (charOf b) = some d ∧
        p.column * 26 + d ≤ maxColumns ∧ q = { p with column := p.column * 26 + d }) ∨
      ((charOf b).isDigit = true ∧ p.row * 10 + ((charOf b).toNat - '0'.toNat) < Text.wordSize ∧
        q = { p with row := p.row * 10 + ((charOf b).toNat - '0'.toNat), inRow := true }) ∨
      charOf b = '$' ∧ q = p := by
  rw [step?, charOf_eq] at h
  simp only at h
  split at h
  · rename_i d hd
    obtain ⟨hrow, hd⟩ := Option.ite_none_left_eq_some.mp hd
    obtain ⟨hle, hq⟩ := Option.ite_none_right_eq_some.mp h
    exact .inl ⟨by simpa using hrow, d, hd, hle, (Option.some.inj hq).symm⟩
  · split at h
    · rename_i d hd
      obtain ⟨hdigit, hvalue⟩ := Option.ite_none_right_eq_some.mp hd
      obtain ⟨hlt, hq⟩ := Option.ite_none_right_eq_some.mp h
      rw [← Option.some.inj hvalue] at hlt hq
      exact .inr (.inl ⟨hdigit, hlt, (Option.some.inj hq).symm⟩)
    · obtain ⟨hdollar, hq⟩ := Option.ite_none_right_eq_some.mp h
      exact .inr (.inr ⟨hdollar, (Option.some.inj hq).symm⟩)

/-- A `$` sign is passed over. -/
theorem step?_dollar (p : Progress) {b : UInt8} (h : charOf b = '$') : p.step? b = some p := by
  have hletter : Column.letterValue? '$' = none := by decide
  have hdigit : Text.digit? '$' = none := by decide
  rw [step?, charOf_eq, h, hletter, ite_self]
  simp only [hdigit, if_true]

/-- A letter in either case, before there was a digit. -/
theorem step?_of_letterValue? {p : Progress} {c : Char} {d : Nat} (hd : Column.letterValue? c = some d)
    (hrow : p.inRow = false) (hle : p.column * 26 + d ≤ maxColumns) :
    p.step? (UInt8.ofNat c.toNat) = some { p with column := p.column * 26 + d } := by
  rw [step?, charOf_eq, charOf_ofNat (Column.isAlpha_of_letterValue? hd).2.1, hrow]
  simp only [Bool.false_eq_true, if_false, hd]
  exact if_pos hle

/-- The octet of a digit. -/
theorem step?_digit {p : Progress} {c : Char} (hc : c.isDigit = true)
    (hlt : p.row * 10 + (c.toNat - '0'.toNat) < Text.wordSize) :
    p.step? (UInt8.ofNat c.toNat) =
      some { p with row := p.row * 10 + (c.toNat - '0'.toNat), inRow := true } := by
  have hrange := Text.toNat_of_isDigit hc
  have hletter : Column.letterValue? c = none := by
    refine Option.eq_none_iff_forall_ne_some.mpr fun d hd => ?_
    have halpha := (Column.isAlpha_of_letterValue? hd).1
    rw [isAlpha_of_isDigit hc] at halpha
    exact Bool.false_ne_true halpha
  have hdigit : Text.digit? c = some (c.toNat - '0'.toNat) := if_pos hc
  rw [step?, charOf_eq, charOf_ofNat (by omega), hletter, ite_self]
  simp only [hdigit]
  exact if_pos hlt

/-! ## All octets -/

/-- The octets of a reference without its `$` signs. -/
theorem run?_bare (p : Progress) (octets : List UInt8) :
    p.run? (octets.filter fun b => charOf b != '$') = p.run? octets := by
  induction octets generalizing p with
  | nil => rfl
  | cons b octets ih =>
    by_cases hb : charOf b = '$'
    · rw [List.filter_cons_of_neg (by simp [hb]), ih, run?, step?_dollar p hb]
    · rw [List.filter_cons_of_pos (by simp [hb]), run?, run?]
      cases p.step? b with
      | none => rfl
      | some q => exact ih q

/-- **What characters add** to what has been read: letters and then digits, and `$` signs anywhere. The
letters are those that go on with the column as letters of a name do. -/
structure Reads (p : Progress) (cs : List Char) (q : Progress) : Prop where
  plain : ∀ c ∈ cs, c.toNat < 128 ∧ Text.isBlank c = false
  row_lt : q.row < Text.wordSize
  parts : ∃ letters digits, bare cs = letters ++ digits ∧ (p.inRow = true → letters = []) ∧
    Column.valueFrom "" p.column letters = .ok q.column ∧ (∀ c ∈ digits, c.isDigit = true) ∧
    Nat.ofDigitChars 10 digits p.row = q.row

namespace Reads

variable {p q : Progress} {c : Char} {cs : List Char}

/-- Nothing is added by no characters. -/
theorem nil (hp : p.row < Text.wordSize) : Reads p [] p where
  plain _ hc := absurd hc List.not_mem_nil
  row_lt := hp
  parts := ⟨[], [], rfl, fun _ => rfl, rfl, fun _ hc => absurd hc List.not_mem_nil,
    Nat.ofDigitChars_nil⟩

/-- One more letter in front. -/
theorem letter {d : Nat} (hrow : p.inRow = false) (hd : Column.letterValue? c = some d)
    (hle : p.column * 26 + d ≤ maxColumns) (h : Reads { p with column := p.column * 26 + d } cs q) :
    Reads p (c :: cs) q where
  plain := List.forall_mem_cons.mpr ⟨(Column.isAlpha_of_letterValue? hd).2, h.plain⟩
  row_lt := h.row_lt
  parts := by
    obtain ⟨letters, digits, hbare, -, hvalue, hdigits, hnumber⟩ := h.parts
    have hne : c ≠ '$' := by
      rintro rfl
      simp [Column.letterValue?] at hd
    refine ⟨c :: letters, digits, ?_, fun hin => by simp [hrow] at hin, ?_, hdigits, hnumber⟩
    · rw [bare_cons hne, hbare, List.cons_append]
    · simp only [Column.valueFrom, hd]
      rw [if_pos hle]
      exact hvalue

/-- One more digit in front. No letter may follow it. -/
theorem digit (hdigit : c.isDigit = true)
    (h : Reads { p with row := p.row * 10 + (c.toNat - '0'.toNat), inRow := true } cs q) :
    Reads p (c :: cs) q where
  plain := by
    have hrange := Text.toNat_of_isDigit hdigit
    exact List.forall_mem_cons.mpr ⟨⟨by omega, Text.isBlank_of_isDigit hdigit⟩, h.plain⟩
  row_lt := h.row_lt
  parts := by
    obtain ⟨letters, digits, hbare, hletters, hvalue, hdigits, hnumber⟩ := h.parts
    obtain rfl := hletters rfl
    have hne : c ≠ '$' := by
      rintro rfl
      simp at hdigit
    refine ⟨[], c :: digits, ?_, fun _ => rfl, hvalue, List.forall_mem_cons.mpr ⟨hdigit, hdigits⟩, ?_⟩
    · rw [bare_cons hne, hbare]
      rfl
    · rw [Nat.ofDigitChars_cons, Nat.mul_comm 10]
      exact hnumber

/-- One more `$` sign in front. -/
theorem dollar (h : Reads p cs q) : Reads p ('$' :: cs) q where
  plain := List.forall_mem_cons.mpr ⟨by decide, h.plain⟩
  row_lt := h.row_lt
  parts := by
    rw [bare_dollar]
    exact h.parts

end Reads

/-- **Octets that are accepted** are the characters that add what is read. -/
theorem run?_reads {p q : Progress} {octets : List UInt8} (hp : p.row < Text.wordSize)
    (h : p.run? octets = some q) : Reads p (octets.map charOf) q := by
  induction octets generalizing p with
  | nil =>
    rw [run?, Option.some.injEq] at h
    exact h ▸ Reads.nil hp
  | cons b octets ih =>
    rw [run?] at h
    split at h
    · rename_i next hnext
      rw [List.map_cons]
      rcases step?_eq_some hnext with ⟨hrow, d, hd, hle, rfl⟩ | ⟨hdigit, hlt, rfl⟩ | ⟨hdollar, rfl⟩
      · exact Reads.letter hrow hd hle (ih hp h)
      · exact Reads.digit hdigit (ih hlt h)
      · rw [hdollar]
        exact Reads.dollar (ih hp h)
    · simp at h

/-- Letters go on with the column as those of a name do. -/
theorem run?_letters {p : Progress} {letters : List Char} {value : Nat} (hrow : p.inRow = false)
    (h : Column.valueFrom "" p.column letters = .ok value) (rest : List UInt8) :
    p.run? (letters.map (fun c => UInt8.ofNat c.toNat) ++ rest) =
      run? { p with column := value } rest := by
  induction letters generalizing p with
  | nil =>
    rw [Column.valueFrom, Except.ok.injEq] at h
    rw [← h]
    rfl
  | cons c letters ih =>
    rw [Column.valueFrom] at h
    split at h
    · simp at h
    · rename_i d hd
      split at h
      · rename_i hle
        rw [List.map_cons, List.cons_append, run?, step?_of_letterValue? hd hrow hle]
        exact @ih { p with column := p.column * 26 + d } hrow h
      · simp at h

/-- **Digits that go on with a row number**, octet by octet, as long as it fits into 32 bits. -/
theorem run?_digits {cs : List Char} (h : ∀ c ∈ cs, c.isDigit = true) {p : Progress}
    (hlt : Nat.ofDigitChars 10 cs p.row < Text.wordSize) :
    ∃ inRow, run? p (cs.map fun c => UInt8.ofNat c.toNat) =
      some ⟨p.column, Nat.ofDigitChars 10 cs p.row, inRow⟩ := by
  induction cs generalizing p with
  | nil => exact ⟨p.inRow, rfl⟩
  | cons c cs ih =>
    rw [Nat.ofDigitChars_cons, Nat.mul_comm 10] at hlt ⊢
    -- The number grows with each digit, so that it fits all along if it does at the end.
    have hstep : p.row * 10 + (c.toNat - '0'.toNat) < Text.wordSize := by
      refine Nat.lt_of_le_of_lt ?_ hlt
      rw [Nat.ofDigitChars_eq_ofDigitChars_zero]
      refine Nat.le_trans ?_ (Nat.le_add_right _ _)
      exact Nat.le_mul_of_pos_left _ (Nat.pow_pos (by decide))
    rw [List.map_cons, run?, step?_digit (h c List.mem_cons_self) hstep]
    exact @ih (fun d hd => h d (List.mem_cons_of_mem c hd))
      { p with row := p.row * 10 + (c.toNat - '0'.toNat), inRow := true } hlt

/-- **Letters and digits that spell a position are accepted**, with `$` signs anywhere. -/
theorem run?_spelling {cs : List Char} {column number : Nat} (hascii : ∀ c ∈ cs, c.toNat < 128)
    (hcolumn : column < maxColumns) (hnumber : number < Text.wordSize)
    (h : Spells (bare cs) column number) :
    ∃ inRow, run? {} (cs.map fun c => UInt8.ofNat c.toNat) = some ⟨column + 1, number, inRow⟩ := by
  obtain ⟨letters, digits, hbare, hletters, -, hdigits, rfl⟩ := h
  have hfilter : (cs.map fun c => UInt8.ofNat c.toNat).filter (fun b => charOf b != '$') =
      (bare cs).map fun c => UInt8.ofNat c.toNat := by
    rw [List.filter_map, bare]
    refine congrArg _ (List.filter_congr fun c hc => ?_)
    rw [Function.comp_apply, charOf_ofNat (hascii c hc)]
  have hvalue := Column.valueFrom_of_toUpper "" hcolumn hletters
  obtain ⟨inRow, hrun⟩ := @run?_digits _ hdigits { column := column + 1 } hnumber
  refine ⟨inRow, ?_⟩
  rw [← run?_bare, hfilter, hbare, List.map_append, run?_letters rfl hvalue]
  exact hrun

end Progress

/-! ## What is read -/

/-- **Octets are read as a position exactly if they spell it**, without `$` signs. The column is one of a
sheet, and the number of the row fits into 32 bits. -/
theorem ofOctets?_eq_some {octets : List UInt8} {p : Position} :
    ofOctets? octets = some p ↔ p.column < maxColumns ∧ p.row + 1 < Text.wordSize ∧
      ∃ s, octets = Text.octets s ∧ Text.trim s = s ∧ Spells (bare s.toList) p.column (p.row + 1) := by
  constructor
  · intro h
    obtain ⟨q, hq, hp⟩ := Option.bind_eq_some_iff.mp h
    obtain ⟨hzero, hp⟩ := Option.ite_none_left_eq_some.mp hp
    have hcolumn : q.column ≠ 0 := fun h => hzero (.inl h)
    have hrow : q.row ≠ 0 := fun h => hzero (.inr h)
    rw [← Option.some.inj hp]
    have hreads := Progress.run?_reads (by decide) hq
    have hword := hreads.row_lt
    obtain ⟨letters, digits, hbare, -, hvalue, hdigits, hnumber⟩ := hreads.parts
    have hle : q.column ≤ maxColumns := Column.valueFrom_le (Nat.zero_le _) hvalue
    refine ⟨by show q.column - 1 < _; omega, by show q.row - 1 + 1 < _; omega,
      String.ofList (octets.map charOf), ?_, ?_, ?_⟩
    · have hoctets : octets.map (fun b => UInt8.ofNat (charOf b).toNat) = octets :=
        (List.map_congr_left fun b _ => ofNat_charOf b).trans (List.map_id' octets)
      rw [Text.octets_ofList fun c hc => (hreads.plain c hc).1, List.map_map]
      exact hoctets.symm
    · rw [Text.trim, String.toList_ofList, Text.trimChars_eq_self fun c hc => (hreads.plain c hc).2]
    · -- There is a letter and a digit, because neither number is zero.
      have hletters : letters ≠ [] := by
        rintro rfl
        exact hcolumn (Except.ok.inj hvalue).symm
      have hsome : digits ≠ [] := by
        rintro rfl
        exact hrow hnumber.symm
      obtain ⟨column, hq, hname⟩ := Column.nameChars_of_valueFrom hletters hvalue
      refine ⟨letters, digits, by rw [String.toList_ofList, hbare], ?_, hsome, hdigits, ?_⟩
      · rw [← hname, hq, Nat.add_sub_cancel]
      · rw [Nat.sub_add_cancel (Nat.pos_of_ne_zero hrow)]
        exact hnumber
  · rintro ⟨hcolumn, hrow, s, rfl, -, hspells⟩
    have hascii : ∀ c ∈ s.toList, c.toNat < 128 := by
      intro c hc
      by_cases hdollar : c = '$'
      · rw [hdollar]
        decide
      · exact (hspells.isBlank c (List.mem_filter.mpr ⟨hc, by simpa using hdollar⟩)).1
    obtain ⟨inRow, hrun⟩ := Progress.run?_spelling hascii hcolumn hrow hspells
    have hoctets : Text.octets s = s.toList.map fun c => UInt8.ofNat c.toNat := by
      rw [← Text.octets_ofList hascii, String.ofList_toList]
    rw [ofOctets?, hoctets, hrun]
    simp

/-- A position that octets are read as is in a column of a sheet. -/
theorem ofOctets?_column_lt {octets : List UInt8} {p : Position} (h : ofOctets? octets = some p) :
    p.column < maxColumns := (ofOctets?_eq_some.mp h).1

/-- **The reference to a position of a sheet is read as this position**, also when its row lies below
the last one. -/
theorem ofOctets?_label {p : Position} (hrow : p.row + 1 < Text.wordSize) (hcolumn : p.column < maxColumns) :
    ofOctets? (Text.octets p.label) = some p := by
  have hspells := spells_label p
  refine ofOctets?_eq_some.mpr ⟨hcolumn, hrow, p.label, rfl, ?_, ?_⟩
  · rw [Text.trim, hspells.trimChars_eq, String.ofList_toList]
  · rwa [hspells.bare_eq]

/-! ## 32-bit arithmetic -/

/-- **One octet in 32-bit arithmetic**; `none` if the column overflows, which nothing checks while it is
computed. The row is checked at each step, and octets that lead beyond are not accepted. -/
def Progress.stepInWords (p : Progress) (b : UInt8) : Option (Option Progress) :=
  match if p.inRow then none else Column.letterValue? (charOf b) with
  | some d => do
    let product ← Text.inWord? (p.column * 26)
    let column ← Text.inWord? (product + d)
    return if column ≤ maxColumns then some { p with column } else none
  | none =>
    match Text.digit? (charOf b) with
    | some d => some do
      let product ← Text.inWord? (p.row * 10)
      let row ← Text.inWord? (product + d)
      return { p with row, inRow := true }
    | none => some (if charOf b = '$' then some p else none)

/-- All octets in 32-bit arithmetic. -/
def Progress.runInWords : Progress → List UInt8 → Option (Option Progress)
  | p, [] => some (some p)
  | p, b :: bs => do
    match ← p.stepInWords b with
    | some q => q.runInWords bs
    | none => return none

/-- **The quick reading in 32-bit arithmetic**; `none` if a number overflows, above or below. -/
def ofOctetsInWords (octets : List UInt8) : Option (Option Position) := do
  match ← Progress.runInWords {} octets with
  | some p =>
    if p.column = 0 ∨ p.row = 0 then return none
    else
      let row ← p.row.ppred
      let column ← p.column.ppred
      return some ⟨row, column⟩
  | none => return none

/-- Two checks, one behind the other, of numbers that grow are the last one. -/
theorem inWord?_bind {m d : Nat} {α : Type} (f : Nat → Option α) :
    ((Text.inWord? m).bind fun n => (Text.inWord? (n + d)).bind f) =
      if m + d < Text.wordSize then f (m + d) else none := by
  unfold Text.inWord?
  by_cases hsum : m + d < Text.wordSize
  · rw [if_pos (by omega), Option.bind_some, if_pos hsum, Option.bind_some, if_pos hsum]
  · rw [if_neg hsum]
    split
    · rw [Option.bind_some, if_neg hsum]
      rfl
    · rfl

/-- **One octet overflows nothing** behind letters of a column of a sheet. -/
theorem Progress.stepInWords_eq {p : Progress} (hp : p.column ≤ maxColumns) (b : UInt8) :
    p.stepInWords b = some (p.step? b) := by
  rw [stepInWords, step?, charOf_eq]
  cases hletter : if p.inRow then none else Column.letterValue? (charOf b) with
  | some d =>
    obtain ⟨k, hk, rfl, -⟩ :=
      Column.toUpper_of_letterValue? (Option.ite_none_left_eq_some.mp hletter).2
    have hfits : p.column * 26 + (k + 1) < Text.wordSize := by
      have hmax : maxColumns = 16384 := rfl
      have hsize : Text.wordSize = 4294967296 := rfl
      omega
    simp only
    exact (inWord?_bind _).trans (if_pos hfits)
  | none =>
    simp only
    cases Text.digit? (charOf b) with
    | some d => exact congrArg some (inWord?_bind _)
    | none => rfl

/-- **No octet overflows anything.** -/
theorem Progress.runInWords_eq {p : Progress} (hp : p.column ≤ maxColumns) (octets : List UInt8) :
    p.runInWords octets = some (p.run? octets) := by
  induction octets generalizing p with
  | nil => rfl
  | cons b octets ih =>
    rw [runInWords, stepInWords_eq hp, run?]
    cases hstep : p.step? b with
    | none => rfl
    | some q =>
      have hq : q.column ≤ maxColumns := by
        rcases step?_eq_some hstep with ⟨-, d, -, hle, rfl⟩ | ⟨-, -, rfl⟩ | ⟨-, rfl⟩
        · exact hle
        · exact hp
        · exact hp
      exact ih hq

/-- **The quick reading overflows nothing.** -/
theorem ofOctetsInWords_eq (octets : List UInt8) : ofOctetsInWords octets = some (ofOctets? octets) := by
  rw [ofOctetsInWords, Progress.runInWords_eq (Nat.zero_le _), ofOctets?]
  cases Progress.run? {} octets with
  | none => rfl
  | some p =>
    show (if p.column = 0 ∨ p.row = 0 then some none else _) = some (if _ then none else _)
    split
    · rfl
    · rename_i hzero
      have hcolumn : p.column.ppred = some (p.column - 1) :=
        Nat.ppred_eq_pred (Nat.pos_of_ne_zero fun h => hzero (.inl h))
      have hrow : p.row.ppred = some (p.row - 1) :=
        Nat.ppred_eq_pred (Nat.pos_of_ne_zero fun h => hzero (.inr h))
      rw [hcolumn, hrow]
      rfl

/-- **The two readings of references agree.** Octets are read as a position of a sheet exactly if they
are those of a text without white space around it that is read as this position. What else they are
read as is spelled in the same way, with the number of a row below the last one that fits into 32
bits. The column is always one of a sheet. And the 32-bit arithmetic of the quick reading overflows
nowhere, whatever the octets are. -/
theorem ofOctets?_agrees (octets : List UInt8) :
    (∀ p, (ofOctets? octets = some p ∧ p.row < maxRows) ↔
        ∃ s, Text.utf8? octets = some s ∧ Text.trim s = s ∧ ofText? s = .ok p) ∧
      (∀ p, ofOctets? octets = some p → ¬ p.row < maxRows →
        (maxRows + 1 ≤ p.row + 1 ∧ p.row + 1 ≤ 4294967295) ∧
          ∃ s, Text.utf8? octets = some s ∧ Text.trim s = s ∧
            Spells (bare s.toList) p.column (p.row + 1)) ∧
      (∀ p, ofOctets? octets = some p → p.column < maxColumns) ∧
      ofOctetsInWords octets = some (ofOctets? octets) := by
  refine ⟨fun p => ⟨?_, ?_⟩, fun p h hbelow => ?_, fun p h => ofOctets?_column_lt h,
    ofOctetsInWords_eq octets⟩
  · rintro ⟨h, hinside⟩
    obtain ⟨hcolumn, -, s, hs, htrim, hspells⟩ := ofOctets?_eq_some.mp h
    have hchars : Text.trimChars s.toList = s.toList := by
      have hlist := congrArg String.toList htrim
      rwa [Text.trim, String.toList_ofList] at hlist
    refine ⟨s, Text.utf8?_eq_some.mpr hs, htrim, ofText?_of_spells hcolumn hinside ?_⟩
    rwa [hchars]
  · rintro ⟨s, hs, htrim, h⟩
    obtain ⟨hcolumn, hinside, hspells⟩ := ofText?_eq_ok.mp h
    rw [← String.toList_ofList (l := Text.trimChars s.toList), ← Text.trim, htrim] at hspells
    have hword : p.row + 1 < Text.wordSize := Nat.lt_of_le_of_lt hinside (by decide)
    exact ⟨ofOctets?_eq_some.mpr ⟨hcolumn, hword, s, Text.utf8?_eq_some.mp hs, htrim, hspells⟩, hinside⟩
  · obtain ⟨-, hword, s, hs, htrim, hspells⟩ := ofOctets?_eq_some.mp h
    have hsize : Text.wordSize = 4294967296 := rfl
    exact ⟨⟨by omega, by omega⟩, s, Text.utf8?_eq_some.mpr hs, htrim, hspells⟩

/-- The last row that can be numbered, in a column of a sheet. -/
theorem ofOctets?_agrees_lastRow :
    ofOctets? (Text.octets "$xf$D$04294967295") = some ⟨4294967294, 16383⟩ ∧
      ¬ 4294967294 < maxRows ∧ 16383 < maxColumns ∧
      ∃ s, Text.utf8? (Text.octets "$xf$D$04294967295") = some s ∧
        Spells (bare s.toList) 16383 4294967295 := by
  have hread : ofOctets? (Text.octets "$xf$D$04294967295") = some ⟨4294967294, 16383⟩ := by
    decide +kernel
  have hbelow : ¬ 4294967294 < maxRows := by decide
  obtain ⟨-, hfurther, hcolumn, -⟩ := ofOctets?_agrees (Text.octets "$xf$D$04294967295")
  obtain ⟨-, s, hs, -, hspells⟩ := hfurther _ hread hbelow
  exact ⟨hread, hbelow, hcolumn _ hread, s, hs, hspells⟩

end Position

end Xlsx
