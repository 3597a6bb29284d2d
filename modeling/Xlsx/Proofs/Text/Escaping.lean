import Xlsx.Text.Escape

/-! # Escaped forms of a text

A text has many escaped forms: every character may be written as an escape, and the underscore has to
be. Decoding undoes each of them, in one pass.

* **`Escaped`**: the escaped forms of a text.
* **`Escaped.unescapeFrom_eq`**, **`Escaped.unescape_eq`**: decoding gives the text back. -/

namespace Xlsx.Text

/-- **The escaped forms of a list of characters.** An underscore is written as an escape; any other
character stands for itself or is written as one. -/
inductive Escaped : List Char → List Char → Prop
  | nil : Escaped [] []
  | literal {ch : Char} {cs written : List Char} (hch : ch ≠ '_') (h : Escaped cs written) :
      Escaped (ch :: cs) (ch :: written)
  | code {ch a b c d : Char} {cs written : List Char} (hcode : fourHex? a b c d = some ch.toNat)
      (h : Escaped cs written) :
      Escaped (ch :: cs) ('_' :: 'x' :: a :: b :: c :: d :: '_' :: written)

/-- A character is the one with its code point. -/
theorem scalar?_toNat (ch : Char) : scalar? ch.toNat = some ch := by
  have hvalid : ch.toNat.isValidChar := ch.valid
  rw [scalar?, if_pos hvalid, Char.ofNat_toNat]

/-- A character other than the underscore stands for itself. -/
theorem piece_of_ne {ch : Char} (hch : ch ≠ '_') (rest : List Char) : piece ch rest = ([ch], rest) := by
  have hnone : escape? (ch :: rest) = none := by
    unfold escape?
    split
    · rename_i h
      exact absurd (List.cons.inj h).1 hch
    · rfl
  unfold piece
  rw [hnone]
  simp only
  split
  · exact absurd rfl hch
  · rfl

/-- An escape stands for its character. -/
theorem piece_code {ch a b c d : Char} (hcode : fourHex? a b c d = some ch.toNat) (rest : List Char) :
    piece '_' ('x' :: a :: b :: c :: d :: '_' :: rest) = ([ch], rest) := by
  have hescape : escape? ('_' :: 'x' :: a :: b :: c :: d :: '_' :: rest) = some (ch, rest) := by
    simp [escape?, hcode, scalar?_toNat]
  rw [piece, hescape]

/-- Decoding a text that begins with `c`. -/
theorem unescapeFrom_cons (out : List Char) (c : Char) (rest : List Char) :
    unescapeFrom out (c :: rest) = unescapeFrom ((piece c rest).1.reverse ++ out) (piece c rest).2 := by
  rw [unescapeFrom]

/-- **Decoding an escaped form** puts the text behind what was decoded before. -/
theorem Escaped.unescapeFrom_eq {cs written : List Char} (h : Escaped cs written) (out : List Char) :
    unescapeFrom out written = out.reverse ++ cs := by
  induction h generalizing out with
  | nil => rw [unescapeFrom, List.append_nil]
  | literal hch h ih =>
    rw [unescapeFrom_cons, piece_of_ne hch, ih, List.reverse_append, List.reverse_reverse,
      List.append_assoc, List.singleton_append]
  | code hcode h ih =>
    rw [unescapeFrom_cons, piece_code hcode, ih, List.reverse_append, List.reverse_reverse,
      List.append_assoc, List.singleton_append]

/-- **Decoding undoes escaping.** -/
theorem Escaped.unescape_eq {s written : String} (h : Escaped s.toList written.toList) :
    unescape written = s := by
  rw [unescape, unescapeChars, h.unescapeFrom_eq, List.reverse_nil, List.nil_append, String.ofList_toList]

end Xlsx.Text
