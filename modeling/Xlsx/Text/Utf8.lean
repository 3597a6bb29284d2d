/-! # Octets as text

`utf8?` reads a list of octets as UTF-8 and refuses it as a whole when one sequence is ill-formed;
`utf8Lossy` puts U+FFFD in the place of each maximal ill-formed part and keeps the rest. -/

namespace Xlsx.Text

/-- The text that octets encode in UTF-8, if they are well-formed. -/
def utf8? (octets : List UInt8) : Option String := String.fromUTF8? ⟨octets.toArray⟩

/-- The octets that encode a text in UTF-8. -/
def octets (s : String) : List UInt8 := s.toUTF8.toList

/-- How many octets may follow a first octet, with the range of the one right after it. The later
ones lie in `0x80 .. 0xBF`. -/
def sequenceShape (first : Nat) : Option (Nat × Nat × Nat) :=
  if first < 0x80 then some (0, 0, 0)
  else if 0xC2 ≤ first ∧ first ≤ 0xDF then some (1, 0x80, 0xBF)
  else if first = 0xE0 then some (2, 0xA0, 0xBF)
  else if first = 0xED then some (2, 0x80, 0x9F)
  else if 0xE1 ≤ first ∧ first ≤ 0xEF then some (2, 0x80, 0xBF)
  else if first = 0xF0 then some (3, 0x90, 0xBF)
  else if 0xF1 ≤ first ∧ first ≤ 0xF3 then some (3, 0x80, 0xBF)
  else if first = 0xF4 then some (3, 0x80, 0x8F)
  else none

/-- The payload of a first octet: what remains without the bits that announce the length. -/
def leadingBits (first following : Nat) : Nat :=
  match following with
  | 0 => first
  | 1 => first % 0x20
  | 2 => first % 0x10
  | _ => first % 0x08

/-- Whether octet `b` may follow, where `low .. high` is the range for the octet that comes next. -/
def continues (low high : Nat) (b : UInt8) : Bool := decide (low ≤ b.toNat) && decide (b.toNat ≤ high)

/-- Decoding octet by octet: `pending` octets are still owed to a sequence whose bits so far are
`bits`, the next one within `low .. high`; `out` holds the characters so far, the last first. An
octet that cannot continue the sequence ends it with U+FFFD and is read again as a first one. -/
def lossyFrom (out : List Char) (pending bits low high : Nat) : List UInt8 → List Char
  | [] => if pending = 0 then out.reverse else ('\uFFFD' :: out).reverse
  | b :: bs =>
    if pending ≠ 0 ∧ continues low high b then
      let bits := bits * 0x40 + b.toNat % 0x40
      if pending = 1 then lossyFrom (Char.ofNat bits :: out) 0 0 0 0 bs
      else lossyFrom out (pending - 1) bits 0x80 0xBF bs
    else
      let out := if pending = 0 then out else '\uFFFD' :: out
      match sequenceShape b.toNat with
      | none => lossyFrom ('\uFFFD' :: out) 0 0 0 0 bs
      | some (0, _, _) => lossyFrom (Char.ofNat b.toNat :: out) 0 0 0 0 bs
      | some (n, low, high) => lossyFrom out n (leadingBits b.toNat n) low high bs

/-- The text that octets encode in UTF-8, with U+FFFD for each maximal ill-formed part. -/
def utf8Lossy (octets : List UInt8) : String := String.ofList (lossyFrom [] 0 0 0 0 octets)

/-- No octets are an empty text. -/
@[simp] theorem utf8Lossy_nil : utf8Lossy [] = "" := rfl

end Xlsx.Text
