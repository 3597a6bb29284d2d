import Xlsx.Json
import Xlsx.Serial

/-! # Cells

What a cell holds once it is decoded, the text that displays it and its two JSON forms. Text from the
shared table keeps its place there, but texts are equal when their contents are. -/

namespace Xlsx

/-- An error value of a formula. -/
inductive ErrorCode
  | nullIntersection
  | divisionByZero
  | value
  | reference
  | name
  | number
  | notAvailable
  | gettingData
  | other (text : String)
deriving DecidableEq, Repr

/-- Why a cell could not be decoded. -/
inductive DecodeError
  | badNumber (text : String)
  | badReference (text : String) (count : Nat)
  | badBoolean (text : String)
  | badDate (text : String)
  | unknownType (tag : String)
deriving DecidableEq, Repr

/-- An error in a cell: one that the sheet stores, or one of decoding. -/
inductive CellError
  | formula (code : ErrorCode)
  | undecodable (cause : DecodeError)
deriving DecidableEq, Repr

/-- The text of a cell, and where it is kept. -/
inductive CellText
  | inCell (content : String)
  | shared (index : Nat) (content : String)
deriving DecidableEq, Repr

/-- A decoded cell. -/
inductive Cell
  | empty
  | number (x : Double)
  | boolean (b : Bool)
  | text (t : CellText)
  | date (serial : Double) (epoch : Epoch)
  | error (e : CellError)
deriving DecidableEq, Inhabited

namespace ErrorCode

/-- The error value as it is stored and displayed. -/
def symbol : ErrorCode → String
  | .nullIntersection => "#NULL!"
  | .divisionByZero => "#DIV/0!"
  | .value => "#VALUE!"
  | .reference => "#REF!"
  | .name => "#NAME?"
  | .number => "#NUM!"
  | .notAvailable => "#N/A"
  | .gettingData => "#GETTING_DATA"
  | .other text => text

/-- The error values with a symbol of their own. -/
def known : List ErrorCode :=
  [.nullIntersection, .divisionByZero, .value, .reference, .name, .number, .notAvailable, .gettingData]

/-- The error value that a text stores. -/
def ofSymbol (text : String) : ErrorCode :=
  (known.find? (·.symbol == text)).getD (.other text)

/-- The name of an error value in JSON. -/
def tag : ErrorCode → String
  | .nullIntersection => "Null"
  | .divisionByZero => "Div0"
  | .value => "Value"
  | .reference => "Ref"
  | .name => "Name"
  | .number => "Num"
  | .notAvailable => "NA"
  | .gettingData => "GettingData"
  | .other _ => "Other"

/-- An error value in JSON. -/
def toJson (code : ErrorCode) : Json :=
  match code with
  | .other text => .object [(code.tag, .string text)]
  | _ => .string code.tag

end ErrorCode

namespace DecodeError

/-- The wording of a decoding error. -/
def message : DecodeError → String
  | .badNumber text => "bad number: '" ++ text ++ "'"
  | .badReference text count =>
    "bad shared string reference: '" ++ text ++ "' (table size: " ++ Text.decimal count ++ ")"
  | .badBoolean text => "bad boolean: '" ++ text ++ "'"
  | .badDate text => "bad date: '" ++ text ++ "'"
  | .unknownType tag => "unknown cell type: '" ++ tag ++ "'"

/-- The name of a decoding error in JSON. -/
def tag : DecodeError → String
  | .badNumber _ => "BadNumber"
  | .badReference _ _ => "BadReference"
  | .badBoolean _ => "BadBoolean"
  | .badDate _ => "BadDate"
  | .unknownType _ => "UnknownType"

/-- A decoding error in JSON. -/
def toJson (e : DecodeError) : Json :=
  .object [(e.tag, match e with
    | .badReference text count => .object [("index", .string text), ("len", .natural count)]
    | .badNumber text | .badBoolean text | .badDate text | .unknownType text => .string text)]

end DecodeError

namespace CellError

/-- The text that displays an error. -/
def display : CellError → String
  | .formula code => code.symbol
  | .undecodable cause => cause.message

/-- An error in JSON. -/
def toJson : CellError → Json
  | .formula code => .object [("Formula", code.toJson)]
  | .undecodable cause => .object [("Decode", cause.toJson)]

end CellError

namespace CellText

/-- The text itself. -/
def content : CellText → String
  | .inCell content => content
  | .shared _ content => content

/-- The place in the shared table, for a text from there. -/
def sharedIndex? : CellText → Option Nat
  | .inCell _ => none
  | .shared index _ => some index

/-- A text in a cell is its own content. -/
@[simp] theorem content_inCell (s : String) : (inCell s).content = s := rfl

/-- A shared text is content with any number. -/
@[simp] theorem content_shared (i : Nat) (s : String) : (shared i s).content = s := rfl

end CellText

/-- The name of an epoch in JSON. -/
def Epoch.tag : Epoch → String
  | .since1900 => "E1900"
  | .since1904 => "E1904"

namespace Cell

/-- The cell holds nothing. -/
def isEmpty : Cell → Bool
  | .empty => true
  | _ => false

/-- The text of a text cell. -/
def text? : Cell → Option String
  | .text t => some t.content
  | _ => none

/-- The number of a number cell, or the serial of a date. -/
def number? : Cell → Option Double
  | .number x => some x
  | .date serial _ => some serial
  | _ => none

/-- The truth value of a boolean cell. -/
def boolean? : Cell → Option Bool
  | .boolean b => some b
  | _ => none

/-- The moment of a date cell. -/
def moment? : Cell → Option Calendar.Moment
  | .date serial epoch => epoch.moment? serial
  | _ => none

/-- The error of a cell that could not be decoded. -/
def decodeError? : Cell → Option DecodeError
  | .error (.undecodable cause) => some cause
  | _ => none

/-- Cells are the same when they hold the same value: texts by content, numbers as numbers. -/
def sameValue : Cell → Cell → Bool
  | .empty, .empty => true
  | .number x, .number y => x.numEq y
  | .boolean a, .boolean b => a == b
  | .text s, .text t => s.content == t.content
  | .date x e, .date y f => x.numEq y && e == f
  | .error e, .error f => e == f
  | _, _ => false

/-- The text that displays a cell. -/
def display : Cell → String
  | .empty => ""
  | .number x => x.display
  | .boolean b => if b then "TRUE" else "FALSE"
  | .text t => t.content
  | .date serial epoch => epoch.display serial
  | .error e => e.display

/-- A cell in JSON with its kind. -/
def toJson : Cell → Json
  | .empty => .object [("type", .string "empty")]
  | .number x => .object [("type", .string "number"), ("value", .number x)]
  | .boolean b => .object [("type", .string "boolean"), ("value", .bool b)]
  | .text t => .object [("type", .string "text"), ("value", .string t.content)]
  | .date serial epoch => .object [("type", .string "date"),
      ("value", .object [("serial", .number serial), ("epoch", .string epoch.tag)])]
  | .error e => .object [("type", .string "error"), ("value", e.toJson)]

/-- A cell in JSON by its value alone: a date by its text, or by its serial when it stands for no
moment, and an error by its text. -/
def toPlainJson (cell : Cell) : Json :=
  match cell with
  | .empty => .null
  | .number x => .number x
  | .boolean b => .bool b
  | .text t => .string t.content
  | .date serial _ => if cell.moment?.isNone then .number serial else .string cell.display
  | .error _ => .string cell.display

/-- An empty cell is empty. -/
@[simp] theorem isEmpty_empty : isEmpty .empty = true := rfl

end Cell

end Xlsx
