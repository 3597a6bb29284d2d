import Xlsx.Proofs.Text.Numerals

/-! # Characters and their octets

In UTF-8 an ASCII character is one octet, and no octet of any other character looks like one. So what is
written in ASCII characters can be looked for among the octets of a text, and the text can be divided
where it is found.

* **`encode`**: the octets of characters.
* **`encode_eq_cons`**, **`head?_encode`**: an ASCII octet at the head is an ASCII character there.
* **`IsBoundary`**, **`slice?`**: octets that are cut out of those of a text, between characters only.
* **`slice?_encode`**, **`slice?_front`**, **`slice?_behind`**: characters that are cut out of others. -/

namespace Xlsx.Text

/-! ## Octets of characters -/

/-- The octets of characters, one behind the other. -/
def encode (cs : List Char) : List UInt8 := cs.flatMap String.utf8EncodeChar

/-- No characters, no octets. -/
@[simp] theorem encode_nil : encode [] = [] := rfl

/-- The octets of the first character are in front. -/
theorem encode_cons (c : Char) (cs : List Char) :
    encode (c :: cs) = String.utf8EncodeChar c ++ encode cs := List.flatMap_cons

/-- The octets of two texts stand one behind the other. -/
@[simp] theorem encode_append (before after : List Char) :
    encode (before ++ after) = encode before ++ encode after := List.flatMap_append

/-- The octets of a text are those of its characters. -/
theorem octets_eq_encode (s : String) : octets s = encode s.toList := by
  have hencode : ∀ cs : List Char, cs.utf8Encode.data.toList = encode cs := by
    intro cs
    induction cs with
    | nil => rfl
    | cons c cs ih =>
      rw [encode_cons, ← ih, List.utf8Encode_cons, List.utf8Encode_singleton, ByteArray.data_append,
        Array.toList_append, List.toList_data_toByteArray]
  rw [octets, String.toUTF8_eq_toByteArray, toList_byteArray, ← hencode, ← String.toByteArray_ofList,
    String.ofList_toList]

/-- An ASCII character is one octet. -/
theorem utf8EncodeChar_of_lt {c : Char} (h : c.toNat < 128) :
    String.utf8EncodeChar c = [UInt8.ofNat c.toNat] := by
  have hle : c.val.toNat ≤ 127 := Nat.le_of_lt_succ h
  rw [String.utf8EncodeChar]
  exact if_pos hle

/-- An ASCII character is one octet. -/
theorem encode_cons_of_lt {c : Char} (h : c.toNat < 128) (cs : List Char) :
    encode (c :: cs) = UInt8.ofNat c.toNat :: encode cs := by
  rw [encode_cons, utf8EncodeChar_of_lt h, List.singleton_append]

/-- The octets of ASCII characters. -/
theorem encode_of_lt {cs : List Char} (h : ∀ c ∈ cs, c.toNat < 128) :
    encode cs = cs.map fun c => UInt8.ofNat c.toNat := by
  rw [← octets_ofList h, octets_eq_encode, String.toList_ofList]

/-- **Any other character** is two octets or more, none of which is that of an ASCII character. -/
theorem utf8EncodeChar_of_le {c : Char} (h : 128 ≤ c.toNat) : ∃ first second rest,
    String.utf8EncodeChar c = first :: second :: rest ∧
      ∀ octet ∈ first :: second :: rest, 128 ≤ octet.toNat := by
  have hgt : ¬ c.val.toNat ≤ 127 := Nat.not_le.mpr h
  have hmarked : ∀ n low : Nat, 128 ≤ low → n + low < 256 → 128 ≤ (UInt8.ofNat (n + low)).toNat := by
    intro n low hlow hlt
    rw [UInt8.toNat_ofNat', Nat.mod_eq_of_lt hlt]
    exact Nat.le_trans hlow (Nat.le_add_left low n)
  have hlast : ∀ n : Nat, 128 ≤ (UInt8.ofNat (n % 64 + 128)).toNat :=
    fun n => hmarked (n % 64) 128 (by decide) (by omega)
  rw [String.utf8EncodeChar]
  simp only [hgt, if_false]
  -- The first octet tells how many follow, which are alike.
  split
  · have hfirst := hmarked (c.val.toNat / 64 % 32) 192 (by decide) (by omega)
    exact ⟨_, _, _, rfl, List.forall_mem_cons.mpr ⟨hfirst, List.forall_mem_singleton.mpr (hlast _)⟩⟩
  split
  · have hfirst := hmarked (c.val.toNat / 4096 % 16) 224 (by decide) (by omega)
    exact ⟨_, _, _, rfl, List.forall_mem_cons.mpr ⟨hfirst, List.forall_mem_cons.mpr
      ⟨hlast _, List.forall_mem_singleton.mpr (hlast _)⟩⟩⟩
  · have hfirst := hmarked (c.val.toNat / 262144 % 8) 240 (by decide) (by omega)
    exact ⟨_, _, _, rfl, List.forall_mem_cons.mpr ⟨hfirst, List.forall_mem_cons.mpr
      ⟨hlast _, List.forall_mem_cons.mpr ⟨hlast _, List.forall_mem_singleton.mpr (hlast _)⟩⟩⟩⟩

/-- **An ASCII octet at the head** is that of an ASCII character. -/
theorem encode_eq_cons {cs : List Char} {octet : UInt8} {behind : List UInt8}
    (h : encode cs = octet :: behind) (hlt : octet.toNat < 128) :
    ∃ c rest, cs = c :: rest ∧ c.toNat < 128 ∧ octet = UInt8.ofNat c.toNat ∧ behind = encode rest := by
  cases cs with
  | nil => exact nomatch h
  | cons c rest =>
    rcases Nat.lt_or_ge c.toNat 128 with hc | hc
    · rw [encode_cons_of_lt hc] at h
      obtain ⟨rfl, rfl⟩ := List.cons.inj h
      exact ⟨c, rest, rfl, hc, rfl, rfl⟩
    · obtain ⟨first, second, more, hoctets, hmarked⟩ := utf8EncodeChar_of_le hc
      rw [encode_cons, hoctets] at h
      have hfirst := hmarked first List.mem_cons_self
      rw [(List.cons.inj h).1] at hfirst
      omega

/-- The octet of an ASCII character is that of no other one. -/
theorem ofNat_toNat_inj {c d : Char} (hc : c.toNat < 128) (hd : d.toNat < 128) :
    UInt8.ofNat c.toNat = UInt8.ofNat d.toNat ↔ c = d := by
  constructor
  · intro h
    have hnat := congrArg UInt8.toNat h
    rw [UInt8.toNat_ofNat', UInt8.toNat_ofNat', Nat.mod_eq_of_lt (by omega),
      Nat.mod_eq_of_lt (by omega)] at hnat
    rw [← Char.ofNat_toNat c, hnat, Char.ofNat_toNat]
  · rintro rfl
    rfl

/-- Octets begin with an ASCII character if the characters do. -/
theorem head?_encode {cs : List Char} {a : Char} (ha : a.toNat < 128) :
    (encode cs).head? = some (UInt8.ofNat a.toNat) ↔ cs.head? = some a := by
  constructor
  · intro h
    obtain ⟨behind, hbehind⟩ := List.head?_eq_some_iff.mp h
    have hoctet : (UInt8.ofNat a.toNat).toNat < 128 := by
      rw [UInt8.toNat_ofNat', Nat.mod_eq_of_lt (by omega)]
      exact ha
    obtain ⟨c, rest, rfl, hc, heq, -⟩ := encode_eq_cons hbehind hoctet
    rw [List.head?_cons, (ofNat_toNat_inj ha hc).mp heq]
  · intro h
    obtain ⟨rest, rfl⟩ := List.head?_eq_some_iff.mp h
    rw [encode_cons_of_lt ha, List.head?_cons]

/-! ## Slices -/

/-- **A place between the characters of a text**: its start, its end, or where an octet begins a
character. -/
def IsBoundary (octets : List UInt8) (i : Nat) : Prop :=
  i = 0 ∨ i = octets.length ∨ ∃ octet, octets[i]? = some octet ∧ octet.IsUTF8FirstByte

instance (octets : List UInt8) (i : Nat) : Decidable (IsBoundary octets i) :=
  match h : octets[i]? with
  | some octet => decidable_of_iff (i = 0 ∨ i = octets.length ∨ octet.IsUTF8FirstByte) (by
      simp [IsBoundary, h])
  | none => decidable_of_iff (i = 0 ∨ i = octets.length) (by simp [IsBoundary, h])

/-- **The octets from one place to another**; `none` if one of the places is inside a character, or
behind the end. -/
def slice? (octets : List UInt8) (start stop : Nat) : Option (List UInt8) :=
  if start ≤ stop ∧ IsBoundary octets start ∧ IsBoundary octets stop then
    some ((octets.take stop).drop start)
  else none

/-- A slice does not end before its start. -/
theorem le_of_slice? {octets slice : List UInt8} {start stop : Nat}
    (h : slice? octets start stop = some slice) : start ≤ stop :=
  (Option.ite_none_right_eq_some.mp h).1.1

/-- It is no longer than it is from its start to its end. -/
theorem length_of_slice? {octets slice : List UInt8} {start stop : Nat}
    (h : slice? octets start stop = some slice) : slice.length ≤ stop - start := by
  obtain ⟨-, h⟩ := Option.ite_none_right_eq_some.mp h
  rw [← Option.some.inj h, List.length_drop, List.length_take]
  omega

/-- There is a boundary behind each character. -/
theorem isBoundary_encode (before after : List Char) :
    IsBoundary (encode (before ++ after)) (encode before).length := by
  cases after with
  | nil => exact .inr (.inl (by rw [List.append_nil]))
  | cons c after =>
    refine .inr (.inr ?_)
    have hne : 0 < (String.utf8EncodeChar c).length := by
      rw [String.length_utf8EncodeChar]
      exact c.utf8Size_pos
    refine ⟨(String.utf8EncodeChar c)[0], ?_, UInt8.isUTF8FirstByte_getElem_utf8EncodeChar.mpr rfl⟩
    rw [encode_append, encode_cons, List.getElem?_append_right (Nat.le_refl _), Nat.sub_self,
      List.getElem?_append_left hne, List.getElem?_eq_getElem hne]

/-- **Characters that are cut out of others.** -/
theorem slice?_encode (before middle after : List Char) :
    slice? (encode (before ++ middle ++ after)) (encode before).length (encode (before ++ middle)).length =
      some (encode middle) := by
  have hstart : IsBoundary (encode (before ++ middle ++ after)) (encode before).length := by
    rw [List.append_assoc]
    exact isBoundary_encode before (middle ++ after)
  have hle : (encode before).length ≤ (encode (before ++ middle)).length := by
    rw [encode_append, List.length_append]
    exact Nat.le_add_right _ _
  rw [slice?, if_pos ⟨hle, hstart, isBoundary_encode (before ++ middle) after⟩,
    encode_append (before ++ middle), List.take_left, encode_append, List.drop_left]

/-- The characters in front of others. -/
theorem slice?_front (before after : List Char) :
    slice? (encode (before ++ after)) 0 (encode before).length = some (encode before) :=
  slice?_encode [] before after

/-- The characters behind others. -/
theorem slice?_behind (before after : List Char) :
    slice? (encode (before ++ after)) (encode before).length (encode (before ++ after)).length =
      some (encode after) := by
  simpa only [List.append_nil] using slice?_encode before after []

end Xlsx.Text
