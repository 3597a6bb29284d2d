/-! # Date formats

Whether a number format shows a number as a date or a time. A format code does when it holds one of
the letters of a date outside quoted text, brackets and escaped characters, or a bracket that counts
elapsed time. Some formats without a code of their own are dates by their number. -/

namespace Xlsx.DateFormat

/-- The letters that stand for a part of a date or a time. -/
def isDateLetter (c : Char) : Bool := c.toLower ∈ ['y', 'm', 'd', 'h', 's']

/-- The letters that may count elapsed time. -/
def isElapsedLetter (c : Char) : Bool := c.toLower ∈ ['h', 'm', 's']

/-- Whether a bracket counts elapsed time. -/
def isElapsed (content : List Char) : Bool := !content.isEmpty && content.all isElapsedLetter

/-- What follows the first `stop`; nothing when there is none. -/
def behind (stop : Char) (cs : List Char) : List Char := (cs.dropWhile (· != stop)).drop 1

/-- Behind a mark there are no more characters than before. -/
theorem behind_length_le (stop : Char) (cs : List Char) : (behind stop cs).length ≤ cs.length := by
  have := (List.dropWhile_suffix (l := cs) (· != stop)).length_le
  simp only [behind, List.length_drop]
  omega

/-- Whether a character makes the one after it stand for itself, or for its width. -/
def isEscape (c : Char) : Bool := c ∈ ['\\', '_', '*']

/-- Whether a format code shows a date. -/
def isDateCode (cs : List Char) : Bool :=
  match cs with
  | [] => false
  | c :: rest =>
    have := behind_length_le '"' rest
    have := behind_length_le ']' rest
    -- Quoted text, brackets and escaped characters are passed over as a whole.
    if c = '"' then isDateCode (behind '"' rest)
    else if c = '[' then
      isElapsed (rest.takeWhile (· != ']')) || isDateCode (behind ']' rest)
    else if isEscape c then isDateCode (rest.drop 1)
    else isDateLetter c || isDateCode rest
termination_by cs.length
decreasing_by all_goals simp only [List.length_cons, List.length_drop]; omega

/-- The numbers of the formats that show dates without a code, as closed ranges. -/
def builtinRanges : List (Nat × Nat) := [(14, 22), (27, 36), (45, 47), (50, 58)]

/-- Whether a format shows dates by its number. -/
def isBuiltin (id : Nat) : Bool :=
  builtinRanges.any fun r => decide (r.1 ≤ id) && decide (id ≤ r.2)

end Xlsx.DateFormat
