import Xlsx.Markup.Event

/-! # Attributes

The inside of a tag after its name: keys, each followed by `=` and a quoted value, with white space
around any of them. Reading goes on after a fault where that makes sense, so that a reader which
ignores faults finds the attributes behind them. -/

namespace Xlsx.Markup

/-- Space, tab, line feed and carriage return. -/
def isSpace (b : UInt8) : Bool := b == 0x20 || b == 0x09 || b == 0x0A || b == 0x0D

/-- Octets from the first one that is not white space. -/
def skipSpace (bs : List UInt8) : List UInt8 := bs.dropWhile isSpace

/-- Octets from the first white space on. -/
def skipWord (bs : List UInt8) : List UInt8 := bs.dropWhile fun b => !isSpace b

/-- The octet `=`. -/
def equalsSign : UInt8 := 0x3D

/-- A quotation mark of either kind. -/
def isQuote (b : UInt8) : Bool := b == 0x22 || b == 0x27

/-- Whether an octet ends a key. -/
def endsKey (b : UInt8) : Bool := b == equalsSign || isSpace b

/-- Passing over space makes no octets. -/
theorem skipSpace_length (bs : List UInt8) : (skipSpace bs).length ≤ bs.length :=
  (List.dropWhile_suffix (l := bs) isSpace).length_le

/-- Nor does passing over a word. -/
theorem skipWord_length (bs : List UInt8) : (skipWord bs).length ≤ bs.length :=
  (List.dropWhile_suffix (l := bs) fun b => !isSpace b).length_le

/-- What one step of the reading gives: the attribute or fault, whether its key counts as seen, and
the octets to go on with, none when the tag is used up. -/
structure AttributeStep where
  result : Except AttributeFault Attribute
  rest : List UInt8 := []

/-- The value behind the equals sign at the head of `bs`. A quoted value ends at the next mark of its
kind; an unquoted one is passed over up to the next white space. -/
def readValue (key : List UInt8) (bs : List UInt8) : AttributeStep :=
  match skipSpace (bs.drop 1) with
  | [] => ⟨.error .expectedValue, []⟩
  | b :: body =>
    if isQuote b then
      match body.dropWhile (· != b) with
      | _ :: rest => ⟨.ok ⟨Text.utf8Lossy key, body.takeWhile (· != b)⟩, rest⟩
      | [] => ⟨.error .unclosedQuote, []⟩
    else ⟨.error .unquotedValue, skipWord (b :: body)⟩

/-- One attribute whose key starts with the octet `b`, the keys in `seen` being taken. The second
part is its key when that was not taken yet. -/
def readAttribute (seen : List (List UInt8)) (b : UInt8) (bs : List UInt8) :
    AttributeStep × Option (List UInt8) :=
  let key := b :: bs.takeWhile fun b => !endsKey b
  let after := skipSpace (bs.dropWhile fun b => !endsKey b)
  match after with
  | [] => (⟨.error .expectedEquals, []⟩, none)
  | c :: _ =>
    if c = equalsSign then
      if key ∈ seen then (⟨.error (.repeated (Text.utf8Lossy key)), skipWord after⟩, none)
      else (readValue key after, some key)
    else (⟨.error .expectedEquals, after⟩, none)

/-- Nor does reading a value. -/
theorem readValue_length (key bs : List UInt8) :
    (readValue key bs).rest.length ≤ bs.length := by
  unfold readValue
  have h1 := skipSpace_length (bs.drop 1)
  have h2 : (bs.drop 1).length ≤ bs.length := by simp
  split
  · simp
  · rename_i b body hb
    rw [hb] at h1
    simp only [List.length_cons] at h1
    split
    · split
      · rename_i rest hr
        have := (List.dropWhile_suffix (l := body) (· != b)).length_le
        rw [hr] at this
        simp only [List.length_cons] at this
        simp only
        omega
      · simp
    · have := skipWord_length (b :: body)
      simp only [List.length_cons] at this
      simp only
      omega

/-- Behind an attribute there are no more octets than in front of it. -/
theorem readAttribute_length (seen : List (List UInt8)) (b : UInt8) (bs : List UInt8) :
    (readAttribute seen b bs).1.rest.length ≤ bs.length := by
  unfold readAttribute
  have h1 := skipSpace_length (bs.dropWhile fun b => !endsKey b)
  have h2 := (List.dropWhile_suffix (l := bs) fun b => !endsKey b).length_le
  simp only
  split
  · simp
  · rename_i c cs hc
    rw [hc] at h1
    split
    · split
      · have := skipWord_length (c :: cs)
        rw [hc]
        simp only
        omega
      · have := readValue_length (b :: bs.takeWhile fun b => !endsKey b)
          (skipSpace (bs.dropWhile fun b => !endsKey b))
        simp only
        rw [hc] at this ⊢
        omega
    · rw [hc]
      simp only
      omega

/-- The attributes in the inside of a tag, the keys in `seen` being taken. -/
def attributesFrom (seen : List (List UInt8)) (bs : List UInt8) :
    List (Except AttributeFault Attribute) :=
  match h : skipSpace bs with
  | [] => []
  | b :: rest =>
    let step := readAttribute seen b rest
    have : step.1.rest.length < bs.length := by
      have h1 := readAttribute_length seen b rest
      have h2 := skipSpace_length bs
      rw [h] at h2
      simp only [List.length_cons] at h2
      exact Nat.lt_of_le_of_lt h1 (by omega)
    step.1.result :: attributesFrom (step.2.toList ++ seen) step.1.rest
termination_by bs.length
decreasing_by exact this

/-- The attributes in the inside of a tag after its name. -/
def attributes (bs : List UInt8) : List (Except AttributeFault Attribute) := attributesFrom [] bs

end Xlsx.Markup
