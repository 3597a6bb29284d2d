import Xlsx.Decimal.Layout
import Xlsx.Text.Digits

/-! # JSON text

Values and their compact JSON text: no spaces, members in the order given. A string escapes the
quotation mark, the backslash and the control characters below U+0020, and nothing else. -/

namespace Xlsx

/-- A JSON value. Members of an object stay in order. -/
inductive Json
  | null
  | bool (b : Bool)
  | natural (n : Nat)
  | number (x : Double)
  | string (s : String)
  | array (items : List Json)
  | object (members : List (String × Json))

namespace Json

/-- The letter that stands for a character after a backslash. -/
def escapeLetter? (c : Char) : Option Char :=
  if c = '"' then some '"'
  else if c = '\\' then some '\\'
  else if c = '\x08' then some 'b'
  else if c = '\x0c' then some 'f'
  else if c = '\n' then some 'n'
  else if c = '\r' then some 'r'
  else if c = '\t' then some 't'
  else none

/-- A character inside a JSON string. -/
def escapeChar (c : Char) : List Char :=
  match escapeLetter? c with
  | some l => ['\\', l]
  | none =>
    if c.toNat < 0x20 then
      ['\\', 'u', '0', '0', Nat.digitChar (c.toNat / 16), Nat.digitChar (c.toNat % 16)]
    else [c]

/-- A text as a JSON string. -/
def quote (s : String) : String := String.ofList ('"' :: (s.toList.flatMap escapeChar ++ ['"']))

mutual

/-- The compact text of a value. -/
def render : Json → String
  | .null => "null"
  | .bool b => if b then "true" else "false"
  | .natural n => Text.decimal n
  | .number x => x.json
  | .string s => quote s
  | .array items => "[" ++ renderItems items ++ "]"
  | .object members => "\x7b" ++ renderMembers members ++ "\x7d"

/-- The items of an array, a comma between neighbours. -/
def renderItems : List Json → String
  | [] => ""
  | [item] => render item
  | item :: items => render item ++ "," ++ renderItems items

/-- The members of an object, a comma between neighbours. -/
def renderMembers : List (String × Json) → String
  | [] => ""
  | [(name, value)] => quote name ++ ":" ++ render value
  | (name, value) :: members => quote name ++ ":" ++ render value ++ "," ++ renderMembers members

end

/-- The members without those that repeat an earlier name, in the order of their names. -/
def sortedMembers (members : List (String × Json)) : List (String × Json) :=
  let distinct := members.foldl
    (fun kept m => if kept.any (·.1 == m.1) then kept else m :: kept) []
  distinct.mergeSort fun a b => decide (¬ b.1 < a.1)

end Json

end Xlsx
