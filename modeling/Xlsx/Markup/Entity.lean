import Xlsx.Markup.Event
import Xlsx.Text.Escape

/-! # Entities

Text writes five characters by name, as `&lt;`, and any character by its number, as `&#60;` or
`&#x3c;`. Everything from an ampersand to the next semicolon is such a reference; an ampersand that
meets another one first, or the end, is a fault. -/

namespace Xlsx.Markup

/-- The number of a character reference: at most seven decimal digits, or at most six hexadecimal
ones after an `x`. No digits at all write zero. -/
def characterNumber? : List Char → Option Nat
  | 'x' :: digits => if digits.length ≤ 6 then Text.numeralFrom Text.hexDigit? 16 0 digits else none
  | digits => if digits.length ≤ 7 then Text.numeralFrom Text.digit? 10 0 digits else none

/-- The character that a reference, without its ampersand and semicolon, stands for. Number zero is
no character here. -/
def entity (name : List Char) : Except TextFault Char :=
  match name with
  | ['l', 't'] => .ok '<'
  | ['g', 't'] => .ok '>'
  | ['a', 'm', 'p'] => .ok '&'
  | ['a', 'p', 'o', 's'] => .ok '\''
  | ['q', 'u', 'o', 't'] => .ok '"'
  | '#' :: number =>
    match ((characterNumber? number).filter (· != 0)).bind Text.scalar? with
    | some c => .ok c
    | none => .error (.badCharacterReference (String.ofList name))
  | _ => .error (.unknownEntity (String.ofList name))

/-- Whether a character ends the search for the semicolon of a reference. -/
def endsEntity (c : Char) : Bool := c == '&' || c == ';'

/-- Replacing references, with the characters so far in `out`, the last first. -/
def replaceEntities (out : List Char) (cs : List Char) : Except TextFault (List Char) :=
  match cs with
  | [] => .ok out.reverse
  | c :: rest =>
    if c = '&' then
      match h : rest.dropWhile (fun c => !endsEntity c) with
      | ';' :: after =>
        have : after.length < (c :: rest).length := by
          have := (List.dropWhile_suffix (l := rest) (fun c => !endsEntity c)).length_le
          rw [h] at this
          simp only [List.length_cons] at this ⊢
          omega
        match entity (rest.takeWhile fun c => !endsEntity c) with
        | .ok ch => replaceEntities (ch :: out) after
        | .error fault => .error fault
      | _ => .error .unterminatedEntity
    else replaceEntities (c :: out) rest
termination_by cs.length
decreasing_by
  · exact this
  · exact Nat.lt_succ_self _

/-- Text with its references replaced. -/
def expand (s : String) : Except TextFault String :=
  let cs := s.toList
  if cs.contains '&' then (replaceEntities [] cs).map String.ofList else .ok s

/-- Octets as text, as they stand. -/
def literalText (octets : List UInt8) : Except TextFault String :=
  match Text.utf8? octets with
  | some s => .ok s
  | none => .error .notUtf8

/-- Octets as text with references replaced. -/
def expandedText (octets : List UInt8) : Except TextFault String := do
  expand (← literalText octets)

/-- The value of an attribute with references replaced. -/
def Attribute.expanded (a : Attribute) : Except TextFault String := expandedText a.value

end Xlsx.Markup
