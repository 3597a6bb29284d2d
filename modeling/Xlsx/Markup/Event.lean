import Xlsx.Text.Utf8

/-! # Markup events

What a document of a workbook consists of, read from front to back: start tags, empty tags, end tags,
text, and asides that carry no content of their own. A `Stream` is the list of events that a document
gives before it ends, or before the fault that stops the reading. Faults inside a tag's attributes or
inside text are kept where they occur: they concern only a reader that looks there. -/

namespace Xlsx.Markup

/-- Why a piece of text cannot be read. -/
inductive TextFault
  | notUtf8
  | unterminatedEntity
  | unknownEntity (name : String)
  | badCharacterReference (name : String)
deriving DecidableEq, Repr

/-- Why an attribute cannot be read. -/
inductive AttributeFault
  | expectedEquals
  | expectedValue
  | unquotedValue
  | unclosedQuote
  | repeated (key : String)
deriving DecidableEq, Repr

/-- Why the reading of a document stops before its end. The data of a document may break off, or a
construct that was begun may never be finished; the other faults leave the data intact. -/
inductive Fault
  | interrupted
  | unfinished
  | mismatchedEnd (expected found : String)
  | unexpectedBang
  | emptyDocumentType
deriving DecidableEq, Repr

/-- The data are at fault, not what they say. -/
def Fault.isTruncation : Fault → Bool
  | .interrupted => true
  | .unfinished => true
  | _ => false

/-- An attribute: its key and the octets between its quotation marks. -/
structure Attribute where
  key : String
  value : List UInt8
deriving DecidableEq, Repr

/-- A start tag or an empty tag. The attributes are those that a reader meets one after the other, a
fault standing in the place of each that cannot be read. -/
structure Tag where
  name : String
  attributes : List (Except AttributeFault Attribute) := []

/-- A piece of a document. -/
inductive Event
  | start (tag : Tag)
  | empty (tag : Tag)
  | finish (name : String)
  | text (content : Except TextFault String)
  | literal (content : Except TextFault String)
  /-- A comment, a declaration, a processing instruction or a document type. -/
  | aside

/-- The events of a document, and the fault after them if it does not simply end. -/
structure Stream where
  events : List Event
  fault? : Option Fault := none

/-- The part of a name after its first colon, or all of a name without one. -/
def localPart (name : String) : String :=
  match name.toList.dropWhile (· != ':') with
  | _ :: rest => String.ofList rest
  | [] => name

/-- The name of a tag without its namespace. -/
def Tag.localName (t : Tag) : String := localPart t.name

/-- The key of an attribute without its namespace. -/
def Attribute.localKey (a : Attribute) : String := localPart a.key

/-- The wording of a text fault. -/
def TextFault.message : TextFault → String
  | .notUtf8 => "text is not UTF-8"
  | .unterminatedEntity => "entity without a closing semicolon"
  | .unknownEntity name => "unknown entity '" ++ name ++ "'"
  | .badCharacterReference name => "bad character reference '" ++ name ++ "'"

/-- The wording of an attribute fault. -/
def AttributeFault.message : AttributeFault → String
  | .expectedEquals => "attribute key must be followed by '='"
  | .expectedValue => "'=' must be followed by a value"
  | .unquotedValue => "attribute value must be quoted"
  | .unclosedQuote => "attribute value has no closing quotation mark"
  | .repeated key => "attribute '" ++ key ++ "' is repeated"

/-- The wording of a fault. -/
def Fault.message : Fault → String
  | .interrupted => "data end early"
  | .unfinished => "construct is not finished"
  | .mismatchedEnd expected found =>
    "expected the end of '" ++ expected ++ "', found '" ++ found ++ "'"
  | .unexpectedBang => "unexpected character after '<!'"
  | .emptyDocumentType => "document type is empty"

end Xlsx.Markup
