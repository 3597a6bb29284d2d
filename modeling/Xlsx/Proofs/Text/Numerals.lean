import Mathlib.Algebra.Group.Nat.Defs
import Xlsx.Text.Blank
import Xlsx.Text.Digits
import Xlsx.Text.Utf8

/-! # Numbers that are read back

The digits of a number are read as that number, wherever a number is read: among characters, without
the white space around them, and as octets.

* **`natural?_toDigits`**, **`word?_toDigits`**, **`natural?_paddedDecimal`**: digits are read as the
  number they write.
* **`octets_ofList`**: in UTF-8 an ASCII character is one octet.
* **`utf8?_octets`**: the octets of a text are read as that text. -/

namespace Xlsx.Text

/-- A property of characters that is seen from the ASCII characters, and holds of all others. -/
theorem ascii_cases {P : Char → Prop} (hascii : ∀ n < 128, P (Char.ofNat n))
    (hother : ∀ c : Char, 128 ≤ c.toNat → P c) (c : Char) : P c := by
  rcases Nat.lt_or_ge c.toNat 128 with hlt | hge
  · rw [← Char.ofNat_toNat c]
    exact hascii c.toNat hlt
  · exact hother c hge

/-! ## Digits -/

/-- The code points of the digits. -/
theorem toNat_of_isDigit {c : Char} (h : c.isDigit = true) : 48 ≤ c.toNat ∧ c.toNat ≤ 57 := by
  simpa [Char.isDigit, UInt32.le_iff_toNat_le] using h

/-- The characters that write a number are digits. -/
theorem isDigit_of_mem_toDigits {n : Nat} {c : Char} (h : c ∈ Nat.toDigits 10 n) : c.isDigit = true :=
  Nat.isDigit_of_mem_toDigits (by decide) (by decide) h

/-- Digits behind some value are read as the number that they go on to. -/
theorem numeralFrom_of_isDigit {cs : List Char} (h : ∀ c ∈ cs, c.isDigit = true) (value : Nat) :
    numeralFrom digit? 10 value cs = some (Nat.ofDigitChars 10 cs value) := by
  induction cs generalizing value with
  | nil => rw [numeralFrom_nil, Nat.ofDigitChars_nil]
  | cons c cs ih =>
    have hdigit : digit? c = some (c.toNat - '0'.toNat) := if_pos (h c List.mem_cons_self)
    rw [numeralFrom, hdigit, Nat.ofDigitChars_cons, Nat.mul_comm 10]
    exact ih (fun d hd => h d (List.mem_cons_of_mem c hd)) _

/-- **Digits are read as the number that they write.** -/
theorem natural?_of_isDigit {digits : List Char} (hsome : digits ≠ [])
    (hdigits : ∀ c ∈ digits, c.isDigit = true) :
    natural? digits = some (Nat.ofDigitChars 10 digits 0) := by
  rw [natural?_eq_numeralFrom hsome, numeralFrom_of_isDigit hdigits]

/-- **The digits of a number are read as it.** -/
theorem natural?_toDigits (n : Nat) : natural? (Nat.toDigits 10 n) = some n := by
  rw [natural?_of_isDigit Nat.toDigits_ne_nil fun c hc => isDigit_of_mem_toDigits hc,
    Nat.ofDigitChars_ten_toDigits]

/-! ### Digits of a fixed number -/

/-- The characters that write a number with zeros in front are digits. -/
theorem isDigit_of_mem_paddedDecimal {width n : Nat} {c : Char} (h : c ∈ paddedDecimal width n) :
    c.isDigit = true := by
  rcases List.mem_append.mp h with h | h
  · rw [List.eq_of_mem_replicate h]
    decide
  · exact isDigit_of_mem_toDigits h

/-- A written number has a digit. -/
theorem paddedDecimal_ne_nil (width n : Nat) : paddedDecimal width n ≠ [] :=
  List.append_ne_nil_of_right_ne_nil _ Nat.toDigits_ne_nil

/-- A number that is not too long is written with just the digits that it is to have. -/
theorem length_paddedDecimal {width n : Nat} (hwidth : 0 < width) (h : n < 10 ^ width) :
    (paddedDecimal width n).length = width := by
  have hle := (Nat.length_toDigits_le_iff (by decide) hwidth).mpr h
  rw [paddedDecimal, List.length_append, List.length_replicate, Nat.sub_add_cancel hle]

/-- **Zeros in front of a number** make no difference to what is read. -/
theorem natural?_paddedDecimal (width n : Nat) : natural? (paddedDecimal width n) = some n := by
  rw [natural?_of_isDigit (paddedDecimal_ne_nil width n) fun c hc => isDigit_of_mem_paddedDecimal hc,
    paddedDecimal, Nat.ofDigitChars_append, Nat.ofDigitChars_replicate_zero, Nat.mul_zero,
    Nat.ofDigitChars_ten_toDigits]

/-- **The digits of a 32-bit number are read as it.** -/
theorem word?_toDigits {n : Nat} (h : n < wordSize) : word? (Nat.toDigits 10 n) = some n := by
  have hfilter : (natural? (Nat.toDigits 10 n)).filter (· < wordSize) = some n := by
    rw [natural?_toDigits, Option.filter_some, if_pos (decide_eq_true h)]
  unfold word?
  split
  · -- A plus sign is no digit.
    rename_i rest hplus
    have hmem : '+' ∈ Nat.toDigits 10 n := by
      rw [hplus]
      exact List.mem_cons_self
    exact absurd (isDigit_of_mem_toDigits hmem) (by decide)
  · exact hfilter

/-- There is nothing to trim where no end is white space. -/
theorem trimChars_eq_self {cs : List Char} (h : ∀ c ∈ cs, isBlank c = false) : trimChars cs = cs := by
  have htrim : ∀ {cs : List Char}, (∀ c ∈ cs, isBlank c = false) → trimLeft cs = cs := by
    intro cs hcs
    cases cs with
    | nil => rfl
    | cons c cs => exact List.dropWhile_cons_of_neg (by simp [hcs c List.mem_cons_self])
  rw [trimChars, trimRight, htrim h, htrim fun c hc => h c (List.mem_reverse.mp hc),
    List.reverse_reverse]

/-- A digit is no white space. -/
theorem isBlank_of_isDigit {c : Char} (h : c.isDigit = true) : isBlank c = false := by
  have hrange := toNat_of_isDigit h
  simp only [isBlank, blankRanges, List.any_cons, List.any_nil, Bool.or_eq_false_iff,
    Bool.and_eq_false_iff, decide_eq_false_iff_not, Nat.not_le, and_true]
  omega

/-- There is no white space around the digits of a number. -/
theorem trimChars_toDigits (n : Nat) : trimChars (Nat.toDigits 10 n) = Nat.toDigits 10 n :=
  trimChars_eq_self fun _ hc => isBlank_of_isDigit (isDigit_of_mem_toDigits hc)

/-! ## Octets -/

/-- The octets of an array one after the other. -/
theorem toList_byteArray (data : ByteArray) : data.toList = data.data.toList := by
  have hloop : ∀ (i : Nat) (done : List UInt8),
      ByteArray.toList.loop data i done = done.reverse ++ data.data.toList.drop i := by
    intro i done
    induction i, done using ByteArray.toList.loop.induct data with
    | case1 i done hlt ih =>
      have hi : i < data.data.toList.length := by simpa using hlt
      have hget : data.get! i = data.data.toList[i] := getElem!_pos data.data i (by simpa using hlt)
      rw [ByteArray.toList.loop, if_pos hlt, ih, List.drop_eq_getElem_cons hi, hget]
      simp
    | case2 i done hge =>
      have hle : data.data.toList.length ≤ i := by simpa using hge
      rw [ByteArray.toList.loop, if_neg hge, List.drop_eq_nil_of_le hle, List.append_nil]
  rw [ByteArray.toList, hloop]
  rfl

/-- **The octets of a text are read as that text.** -/
theorem utf8?_octets (s : String) : utf8? (octets s) = some s := by
  have harray : (⟨(octets s).toArray⟩ : ByteArray) = s.toByteArray := by
    rw [octets, String.toUTF8_eq_toByteArray, toList_byteArray, Array.toArray_toList]
  rw [utf8?, harray, String.fromUTF8?, dif_pos s.isValidUTF8]
  rfl

/-- **An ASCII character is one octet.** -/
theorem octets_ofList {cs : List Char} (h : ∀ c ∈ cs, c.toNat < 128) :
    octets (String.ofList cs) = cs.map fun c => UInt8.ofNat c.toNat := by
  rw [octets, String.toUTF8_eq_toByteArray, String.toByteArray_ofList, toList_byteArray]
  induction cs with
  | nil => rfl
  | cons c cs ih =>
    have hc : c.toNat < 128 := h c List.mem_cons_self
    have hsize : c.utf8Size = 1 := by
      rw [Char.utf8Size_eq_one_iff, UInt32.le_iff_toNat_le]
      exact Nat.le_of_lt_succ hc
    rw [List.utf8Encode_cons, List.utf8Encode_singleton, String.utf8EncodeChar_eq_singleton hsize,
      List.map_cons, ← ih fun d hd => h d (List.mem_cons_of_mem c hd)]
    simp
    rfl

end Xlsx.Text
