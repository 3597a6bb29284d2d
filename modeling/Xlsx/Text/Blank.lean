/-! # White space

The characters with the property White_Space: twenty-five code points in ten ranges. References,
numbers and dates are read without the white space around them. -/

namespace Xlsx.Text

/-- Closed ranges of the code points with the property White_Space, ascending and apart. -/
def blankRanges : List (Nat × Nat) :=
  [(0x09, 0x0D), (0x20, 0x20), (0x85, 0x85), (0xA0, 0xA0), (0x1680, 0x1680), (0x2000, 0x200A),
   (0x2028, 0x2029), (0x202F, 0x202F), (0x205F, 0x205F), (0x3000, 0x3000)]

/-- A character is blank when its code point lies in one of the ranges. -/
def isBlank (c : Char) : Bool :=
  blankRanges.any fun r => decide (r.1 ≤ c.toNat) && decide (c.toNat ≤ r.2)

/-- A list of characters without the white space on its left. -/
def trimLeft (cs : List Char) : List Char := cs.dropWhile isBlank

/-- A list of characters without the white space on its right. -/
def trimRight (cs : List Char) : List Char := (trimLeft cs.reverse).reverse

/-- A list of characters without the white space on either side. -/
def trimChars (cs : List Char) : List Char := trimRight (trimLeft cs)

/-- A text without the white space on either side. -/
def trim (s : String) : String := String.ofList (trimChars s.toList)

/-- A text of white space only, the empty text included. -/
def isAllBlank (s : String) : Bool := s.toList.all isBlank

/-- Of nothing, nothing is trimmed in front. -/
@[simp] theorem trimLeft_nil : trimLeft [] = [] := rfl

/-- Nor at both ends. -/
@[simp] theorem trimChars_nil : trimChars [] = [] := rfl

/-- The table adds to the four characters of `Char.isWhitespace` and takes none away. -/
theorem isBlank_of_isWhitespace (c : Char) (h : c.isWhitespace = true) : isBlank c = true := by
  simp only [Char.isWhitespace, Bool.or_eq_true, decide_eq_true_eq] at h
  rcases h with ((h | h) | h) | h <;> subst h <;> decide

end Xlsx.Text
