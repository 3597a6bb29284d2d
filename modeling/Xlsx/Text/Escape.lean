import Xlsx.Text.Digits

/-! # Escaped characters

A text in a sheet writes a character that its carrier cannot hold as `_xHHHH_`, four hexadecimal
digits between `_x` and `_`. Decoding is one pass from left to right: what an escape produces is
not looked at again, and a `_x` that starts no escape stands for itself. -/

namespace Xlsx.Text

/-- The character with a given code point, unless that is a surrogate or too large. -/
def scalar? (n : Nat) : Option Char := if n.isValidChar then some (Char.ofNat n) else none

/-- The number that four hexadecimal digits write. -/
def fourHex? (a b c d : Char) : Option Nat := do
  let a ← hexDigit? a
  let b ← hexDigit? b
  let c ← hexDigit? c
  let d ← hexDigit? d
  return ((a * 16 + b) * 16 + c) * 16 + d

/-- The character that an escape at the head of a text stands for, with the text after it. -/
def escape? : List Char → Option (Char × List Char)
  | '_' :: 'x' :: a :: b :: c :: d :: '_' :: rest => do
    let code ← fourHex? a b c d
    let ch ← scalar? code
    return (ch, rest)
  | _ => none

/-- An escape has seven characters. -/
theorem escape?_length {cs rest : List Char} {ch : Char} (h : escape? cs = some (ch, rest)) :
    cs.length = rest.length + 7 := by
  unfold escape? at h
  split at h
  · rename_i a b c d rest'
    simp only [Option.bind_eq_bind, Option.bind_eq_some_iff, Option.pure_def, Option.some.injEq,
      Prod.mk.injEq] at h
    obtain ⟨_, _, _, _, _, rfl⟩ := h
    simp
  · simp at h

/-- What a text that begins with `c` gives at its head, and the text after it: the character of an
escape, both characters of a `_x` that starts none, or else the character as it is. -/
def piece (c : Char) (rest : List Char) : List Char × List Char :=
  match escape? (c :: rest) with
  | some (ch, after) => ([ch], after)
  | none =>
    match c, rest with
    | '_', 'x' :: after => (['_', 'x'], after)
    | c, rest => ([c], rest)

/-- A piece is taken off what follows. -/
theorem piece_length (c : Char) (rest : List Char) : (piece c rest).2.length ≤ rest.length := by
  unfold piece
  split
  · rename_i ch after h
    have := escape?_length h
    simp only [List.length_cons] at this
    simp only
    omega
  · split
    · simp
    · simp

/-- Decoding with the characters so far in `out`, the last first. -/
def unescapeFrom (out : List Char) (cs : List Char) : List Char :=
  match cs with
  | [] => out.reverse
  | c :: rest =>
    have := Nat.lt_succ_of_le (piece_length c rest)
    unescapeFrom ((piece c rest).1.reverse ++ out) (piece c rest).2
termination_by cs.length
decreasing_by exact this

/-- A list of characters with every escape replaced by the character it stands for. -/
def unescapeChars (cs : List Char) : List Char := unescapeFrom [] cs

/-- A text with every escape replaced by the character it stands for. -/
def unescape (s : String) : String := String.ofList (unescapeChars s.toList)

end Xlsx.Text
