import Mathlib.Data.List.Shortlex
import Xlsx.Proofs.Except
import Xlsx.Proofs.Text.Numerals
import Xlsx.Reference.Column
import Xlsx.Text.Blank

/-! # Names of columns

Counting columns goes through all names of one length, in alphabetical order, before it comes to a
longer one. Reading a name back takes its letters in either case.

* **`Column.nameChars_of_lt`**, **`Column.nameChars_of_le`**: a name letter by letter.
* **`Column.shortlex_nameChars`**, **`Column.shortlex_iff_lt`**, **`Column.name_injective`**: the order
  of names is that of the columns.
* **`Column.letterValue?_toUpper`**, **`Column.toUpper_of_letterValue?`**: the two cases of a letter.
* **`Column.nameChars_of_valueFrom`**: letters that are read are those of the column that they give.
* **`Column.index?_eq_ok`**: a text names a column if it is the name of this column in some case. -/

namespace Xlsx

namespace Column

/-! ## The letters of a name -/

/-- The letters of the alphabet have the values from one to twenty-six. -/
theorem letterValue?_letter {n : Nat} (h : n < 26) : letterValue? (letter n) = some (n + 1) := by
  have hall : ∀ n < 26, letterValue? (letter n) = some (n + 1) := by decide
  exact hall n h

/-- Letters in front of others stay in front of what follows these. -/
theorem nameOnto_append (n : Nat) (rest more : List Char) :
    nameOnto n (rest ++ more) = nameOnto n rest ++ more := by
  induction n using Nat.strongRecOn generalizing rest with
  | ind n ih =>
    by_cases hn : n < 26
    · rw [nameOnto, dif_pos hn, nameOnto, dif_pos hn, List.cons_append]
    · have hshorter := ih (n / 26 - 1) (by omega) (letter (n % 26) :: rest)
      rw [nameOnto, dif_neg hn, ← List.cons_append, hshorter]
      conv_rhs => rw [nameOnto, dif_neg hn]

/-- The first columns have names of one letter. -/
theorem nameChars_of_lt {n : Nat} (h : n < 26) : nameChars n = [letter n] := by
  rw [nameChars, nameOnto, dif_pos h]

/-- A longer name is a shorter one with one more letter. -/
theorem nameChars_of_le {n : Nat} (h : 26 ≤ n) :
    nameChars n = nameChars (n / 26 - 1) ++ [letter (n % 26)] := by
  rw [nameChars, nameOnto, dif_neg (Nat.not_lt.mpr h), nameChars, ← nameOnto_append, List.nil_append]

/-- A name is written in letters of the alphabet, and in one at least. -/
theorem mem_nameChars {n : Nat} : ∀ c ∈ nameChars n, ∃ d < 26, c = letter d := by
  induction n using Nat.strongRecOn with
  | ind n ih =>
    intro c hc
    by_cases hn : n < 26
    · rw [nameChars_of_lt hn, List.mem_singleton] at hc
      exact ⟨n, hn, hc⟩
    · rw [nameChars_of_le (Nat.not_lt.mp hn), List.mem_append, List.mem_singleton] at hc
      rcases hc with hc | hc
      · exact ih (n / 26 - 1) (by omega) c hc
      · exact ⟨n % 26, Nat.mod_lt n (by decide), hc⟩

/-- Every column has a name. -/
theorem nameChars_ne_nil (n : Nat) : nameChars n ≠ [] := by
  by_cases hn : n < 26
  · rw [nameChars_of_lt hn]
    exact List.cons_ne_nil _ _
  · rw [nameChars_of_le (Nat.not_lt.mp hn)]
    exact List.append_ne_nil_of_right_ne_nil _ (List.cons_ne_nil _ _)

/-! ## The order of names -/

/-- Of two words of one length the lesser one stays the lesser one whatever follows them. -/
theorem lex_append_of_length {r : Char → Char → Prop} {a b : List Char} (h : List.Lex r a b)
    (hlength : a.length = b.length) (c d : List Char) : List.Lex r (a ++ c) (b ++ d) := by
  induction h with
  | nil => simp at hlength
  | cons h ih => exact .cons (ih (Nat.succ.inj hlength))
  | rel h => exact .rel h

/-- Names that go on with a letter keep the order of what they go on from. -/
theorem shortlex_concat {r : Char → Char → Prop} {a b : List Char} (h : List.Shortlex r a b)
    (c d : Char) : List.Shortlex r (a ++ [c]) (b ++ [d]) := by
  rcases List.shortlex_def.mp h with hlt | ⟨heq, hlex⟩
  · refine .of_length_lt ?_
    simp only [List.length_append, List.length_singleton]
    omega
  · refine .of_lex ?_ (lex_append_of_length hlex heq [c] [d])
    simp only [List.length_append, heq, List.length_singleton]

/-- The letters are in the order of their numbers. -/
theorem letter_lt {m n : Nat} (hmn : m < n) (hn : n < 26) : letter m < letter n := by
  have hall : ∀ n < 26, ∀ m < n, letter m < letter n := by decide
  exact hall n hn m hmn

/-- **A smaller column has a name that is shorter, or else comes first in the alphabet.** -/
theorem shortlex_nameChars {m n : Nat} (h : m < n) :
    List.Shortlex (· < ·) (nameChars m) (nameChars n) := by
  -- The induction takes the last letter from both names.
  induction n using Nat.strongRecOn generalizing m with
  | ind n ih =>
    by_cases hn : n < 26
    · rw [nameChars_of_lt (Nat.lt_trans h hn), nameChars_of_lt hn, List.shortlex_singleton_iff]
      exact letter_lt h hn
    have hn : 26 ≤ n := Nat.not_lt.mp hn
    by_cases hm : m < 26
    · refine .of_length_lt ?_
      have hpos := List.length_pos_of_ne_nil (nameChars_ne_nil (n / 26 - 1))
      rw [nameChars_of_lt hm, nameChars_of_le hn, List.length_append, List.length_singleton,
        List.length_singleton]
      omega
    have hm : 26 ≤ m := Nat.not_lt.mp hm
    rw [nameChars_of_le hm, nameChars_of_le hn]
    rcases Nat.lt_or_ge (m / 26 - 1) (n / 26 - 1) with hlt | hge
    · exact shortlex_concat (ih (n / 26 - 1) (by omega) hlt) _ _
    · have hsame : m / 26 - 1 = n / 26 - 1 := by omega
      rw [hsame]
      refine List.Shortlex.append_left ?_ _
      rw [List.shortlex_singleton_iff]
      exact letter_lt (by omega) (Nat.mod_lt n (by decide))

/-- **The order of names is that of the columns.** -/
theorem shortlex_iff_lt {m n : Nat} :
    List.Shortlex (· < ·) (nameChars m) (nameChars n) ↔ m < n := by
  refine ⟨fun h => ?_, shortlex_nameChars⟩
  by_contra hle
  rcases Nat.lt_or_eq_of_le (Nat.not_lt.mp hle) with hlt | rfl
  · exact Std.Asymm.asymm _ _ h (shortlex_nameChars hlt)
  · exact Std.Irrefl.irrefl _ h

/-- **No two columns have the same name.** -/
theorem name_injective : Function.Injective name := by
  intro m n h
  have hchars : nameChars m = nameChars n := String.ofList_injective h
  rcases Nat.lt_trichotomy m n with hlt | heq | hlt
  · exact absurd (hchars ▸ shortlex_nameChars hlt) (Std.Irrefl.irrefl _)
  · exact heq
  · exact absurd (hchars ▸ shortlex_nameChars hlt) (Std.Irrefl.irrefl _)

/-! ## Letters in either case -/

/-- A letter of the alphabet is an ASCII character. -/
theorem letterValue?_of_le {c : Char} (h : 128 ≤ c.toNat) : letterValue? c = none := by
  have hupper : ¬ ('A' ≤ c ∧ c ≤ 'Z') := by
    rintro ⟨-, hle⟩
    have hval : c.toNat ≤ 90 := hle
    omega
  have hlower : ¬ ('a' ≤ c ∧ c ≤ 'z') := by
    rintro ⟨-, hle⟩
    have hval : c.toNat ≤ 122 := hle
    omega
  rw [letterValue?, if_neg hupper, if_neg hlower]

/-- They are capitals. -/
theorem toUpper_letter {n : Nat} (h : n < 26) : (letter n).toUpper = letter n := by
  have hall : ∀ n < 26, (letter n).toUpper = letter n := by decide
  exact hall n h

/-- Names are written in capital letters. -/
theorem map_toUpper_nameChars (n : Nat) : (nameChars n).map Char.toUpper = nameChars n := by
  have hupper : ∀ c ∈ nameChars n, c.toUpper = c := by
    intro c hc
    obtain ⟨k, hk, rfl⟩ := mem_nameChars c hc
    exact toUpper_letter hk
  exact (List.map_congr_left hupper).trans (List.map_id' _)

/-- Other characters have one case. -/
theorem toUpper_of_le {c : Char} (h : 128 ≤ c.toNat) : c.toUpper = c := by
  have hlower : ¬ ('a'.val ≤ c.val ∧ c.val ≤ 'z'.val) := by
    rintro ⟨-, hle⟩
    have hval : c.toNat ≤ 122 := hle
    omega
  exact dif_neg hlower

/-- **A letter counts the same in both cases.** -/
theorem letterValue?_toUpper (c : Char) : letterValue? c.toUpper = letterValue? c := by
  induction c using Text.ascii_cases with
  | hascii n hn =>
    have hall : ∀ n < 128, letterValue? (Char.ofNat n).toUpper = letterValue? (Char.ofNat n) := by
      decide
    exact hall n hn
  | hother c hc => rw [toUpper_of_le hc]

/-- **What counts as a letter** is one in some case. -/
theorem toUpper_of_letterValue? {c : Char} {d : Nat} (h : letterValue? c = some d) :
    ∃ k < 26, d = k + 1 ∧ c.toUpper = letter k := by
  induction c using Text.ascii_cases with
  | hascii n hn =>
    have hall : ∀ n < 128, ∀ d ∈ letterValue? (Char.ofNat n),
        d - 1 < 26 ∧ d = d - 1 + 1 ∧ (Char.ofNat n).toUpper = letter (d - 1) := by decide
    exact ⟨d - 1, hall n hn d h⟩
  | hother c hc => simp [letterValue?_of_le hc] at h

/-- A letter is an ASCII letter, and neither a digit nor white space. -/
theorem isAlpha_of_letterValue? {c : Char} {d : Nat} (h : letterValue? c = some d) :
    c.isAlpha = true ∧ c.toNat < 128 ∧ Text.isBlank c = false := by
  induction c using Text.ascii_cases with
  | hascii n hn =>
    have hall : ∀ n < 128, ∀ d ∈ letterValue? (Char.ofNat n), (Char.ofNat n).isAlpha = true ∧
        (Char.ofNat n).toNat < 128 ∧ Text.isBlank (Char.ofNat n) = false := by decide
    exact hall n hn d h
  | hother c hc => simp [letterValue?_of_le hc] at h

/-- The names of columns are not blank. -/
theorem isAllBlank_name (n : Nat) : Text.isAllBlank (name n) = false := by
  rw [Text.isAllBlank, name, String.toList_ofList]
  obtain ⟨c, cs, hchars⟩ := List.exists_cons_of_ne_nil (nameChars_ne_nil n)
  obtain ⟨d, hd, rfl⟩ := mem_nameChars (n := n) c (by rw [hchars]; exact List.mem_cons_self)
  rw [hchars, List.all_cons, (isAlpha_of_letterValue? (letterValue?_letter hd)).2.2, Bool.false_and]

/-- The characters of a name in any case are letters. -/
theorem letterValue?_of_mem {cs : List Char} {n : Nat} (h : cs.map Char.toUpper = nameChars n) :
    ∀ c ∈ cs, ∃ d, letterValue? c = some d := by
  intro c hc
  obtain ⟨k, hk, hletter⟩ := mem_nameChars (n := n) c.toUpper (h ▸ List.mem_map_of_mem hc)
  exact ⟨k + 1, by rw [← letterValue?_toUpper, hletter, letterValue?_letter hk]⟩

/-! ## Names that are read -/

/-- Letters that go on with a name never make it name a column behind the last one. -/
theorem valueFrom_le {input : String} {value column : Nat} {cs : List Char}
    (hvalue : value ≤ maxColumns) (h : valueFrom input value cs = .ok column) : column ≤ maxColumns := by
  induction cs generalizing value with
  | nil =>
    simp only [valueFrom, Except.ok.injEq] at h
    exact h ▸ hvalue
  | cons c cs ih =>
    rw [valueFrom] at h
    split at h
    · simp at h
    · split at h
      · rename_i hle
        exact ih hle h
      · simp at h

/-- Letters count the same in both cases. -/
theorem valueFrom_toUpper (input : String) (value : Nat) (cs : List Char) :
    valueFrom input value (cs.map Char.toUpper) = valueFrom input value cs := by
  induction cs generalizing value with
  | nil => rfl
  | cons c cs ih => simp only [List.map_cons, valueFrom, letterValue?_toUpper, ih]

/-- A name with one more letter. -/
theorem nameChars_concat (n : Nat) {k : Nat} (hk : k < 26) :
    nameChars ((n + 1) * 26 + k) = nameChars n ++ [letter k] := by
  rw [nameChars_of_le (by omega)]
  congr 3 <;> omega

/-- Letters behind a name go on with it to the name of the column that they give. -/
theorem nameChars_of_valueFrom_succ {input : String} {n value : Nat} {cs : List Char}
    (h : valueFrom input (n + 1) cs = .ok value) :
    ∃ column, value = column + 1 ∧ nameChars column = nameChars n ++ cs.map Char.toUpper := by
  induction cs generalizing n with
  | nil =>
    rw [valueFrom, Except.ok.injEq] at h
    exact ⟨n, h.symm, by rw [List.map_nil, List.append_nil]⟩
  | cons c cs ih =>
    rw [valueFrom] at h
    split at h
    · simp at h
    · rename_i d hd
      obtain ⟨k, hk, rfl, hupper⟩ := toUpper_of_letterValue? hd
      split at h
      · obtain ⟨column, hvalue, hname⟩ := ih (n := (n + 1) * 26 + k) h
        refine ⟨column, hvalue, ?_⟩
        rw [hname, nameChars_concat n hk, List.append_assoc, List.map_cons, hupper,
          List.singleton_append]
      · simp at h

/-- **Letters that are read are those of the column that they give**, in some case. -/
theorem nameChars_of_valueFrom {input : String} {value : Nat} {cs : List Char} (hcs : cs ≠ [])
    (h : valueFrom input 0 cs = .ok value) :
    ∃ column, value = column + 1 ∧ nameChars column = cs.map Char.toUpper := by
  cases cs with
  | nil => exact absurd rfl hcs
  | cons c cs =>
    rw [valueFrom] at h
    split at h
    · simp at h
    · rename_i d hd
      obtain ⟨k, hk, rfl, hupper⟩ := toUpper_of_letterValue? hd
      split at h
      · rw [Nat.zero_mul, Nat.zero_add] at h
        obtain ⟨column, hvalue, hname⟩ := nameChars_of_valueFrom_succ h
        refine ⟨column, hvalue, ?_⟩
        rw [hname, nameChars_of_lt hk, List.map_cons, hupper, List.singleton_append]
      · simp at h

/-- The letters of a column of a sheet are read as its number, from one. No letter of the name leads
beyond the last column. -/
theorem valueFrom_nameChars_append (input : String) {n : Nat} (h : n < maxColumns) (rest : List Char) :
    valueFrom input 0 (nameChars n ++ rest) = valueFrom input (n + 1) rest := by
  induction n using Nat.strongRecOn generalizing rest with
  | ind n ih =>
    by_cases hn : n < 26
    · have hvalue : 0 * 26 + (n + 1) = n + 1 := by omega
      rw [nameChars_of_lt hn, List.singleton_append, valueFrom, letterValue?_letter hn]
      simp only [hvalue]
      exact if_pos h
    · have hvalue : (n / 26 - 1 + 1) * 26 + (n % 26 + 1) = n + 1 := by omega
      rw [nameChars_of_le (Nat.not_lt.mp hn), List.append_assoc, List.singleton_append,
        ih (n / 26 - 1) (by omega) (by omega), valueFrom, letterValue?_letter (Nat.mod_lt n (by decide))]
      simp only [hvalue]
      exact if_pos h

/-- **The name of a column of a sheet in any case** is read as its number, from one. -/
theorem valueFrom_of_toUpper (input : String) {cs : List Char} {n : Nat} (h : n < maxColumns)
    (hcs : cs.map Char.toUpper = nameChars n) : valueFrom input 0 cs = .ok (n + 1) := by
  rw [← valueFrom_toUpper, hcs, ← List.append_nil (nameChars n), valueFrom_nameChars_append input h,
    valueFrom]

/-- **A text names a column if it is the name of this column in some case**, and the column is one of
a sheet. -/
theorem index?_eq_ok {s : String} {n : Nat} :
    index? s = .ok n ↔ n < maxColumns ∧ s.toUpper = name n := by
  have hupper : s.toUpper = name n ↔ s.toList.map Char.toUpper = nameChars n := by
    rw [← String.toList_inj, String.toUpper, String.toList_map, name, String.toList_ofList]
  rw [hupper]
  constructor
  · intro h
    rw [index?] at h
    split at h
    · simp at h
    · rename_i hempty
      have hchars : s.toList ≠ [] := fun hnil => hempty (List.isEmpty_iff.mpr hnil)
      obtain ⟨value, hvalue, rfl⟩ := map_eq_ok.mp h
      have hle := valueFrom_le (Nat.zero_le _) hvalue
      obtain ⟨column, rfl, hname⟩ := nameChars_of_valueFrom hchars hvalue
      exact ⟨hle, hname.symm⟩
  · rintro ⟨hlt, hchars⟩
    have hempty : ¬ s.toList.isEmpty = true := by
      intro hnil
      rw [List.isEmpty_iff.mp hnil, List.map_nil] at hchars
      exact nameChars_ne_nil n hchars.symm
    rw [index?, if_neg hempty, valueFrom_of_toUpper s hlt hchars]
    rfl

/-- A column that a text names is one of a sheet. -/
theorem index?_lt {input : String} {column : Nat} (h : index? input = .ok column) :
    column < maxColumns := (index?_eq_ok.mp h).1

/-- **The name of a column of a sheet is read as this column.** -/
theorem index?_name {n : Nat} (h : n < maxColumns) : index? (name n) = .ok n := by
  refine index?_eq_ok.mpr ⟨h, ?_⟩
  rw [← String.toList_inj, String.toUpper, String.toList_map, name, String.toList_ofList,
    map_toUpper_nameChars]

end Column

end Xlsx
