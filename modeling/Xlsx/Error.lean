import Xlsx.Archive.Limits
import Xlsx.Cell.Basic
import Xlsx.Markup.Event
import Xlsx.Reference.Column

/-! # Errors

What can go wrong between the octets of a workbook and its rows. A `FormatError` arises while a
workbook is opened, a `StreamError` while the rows of a sheet are read, a `ConfigurationError` before
anything is read. Each is a cause; its wording is given by one function. -/

namespace Xlsx

/-- What is wrong in a part of a workbook that is read in full. -/
inductive PartFault
  | markup (cause : Markup.Fault)
  | attribute (cause : Markup.AttributeFault)
  | attributeText (cause : Markup.TextFault)
  | text (cause : Markup.TextFault)
  | notUtf8
  | sheetWithoutRelationship (sheet : String)
  | sheetWithoutName
  | unfinishedString (index : Nat)
deriving DecidableEq, Repr

/-- What is wrong in the index that a workbook is found by. -/
inductive IndexFault
  | unreadableEntry (index : Nat)
  | missingEntry (name : String)
  | missingWorkbookPart
  | unknownRelationship (sheet id : String)
  | missingSheetEntry (sheet target : String)
  | part (name : String) (cause : PartFault)
deriving DecidableEq, Repr

/-- Why octets are no workbook. -/
inductive FormatError
  | notAContainer
  | corruptIndex (cause : IndexFault)
  | unsupportedCompression (entry : String) (method : Nat)
  | encrypted (entry : String)
deriving DecidableEq, Repr

/-- What is wrong in the rows of a sheet. -/
inductive RowFault
  | invalidRowNumber (written : String)
  | invalidCellReference (written : String)
  | markup (cause : Markup.Fault)
  | attribute (cause : Markup.AttributeFault)
  | text (cause : Markup.TextFault)
deriving DecidableEq, Repr

/-- Why the rows of a sheet end before the sheet does, with the row that was being read, if one was. -/
inductive StreamError
  | truncated (row? : Option Nat)
  | malformed (row? : Option Nat) (cause : RowFault)
deriving DecidableEq, Repr

/-- The kind of a value in a query. -/
inductive ValueKind
  | null
  | integer
  | real
  | text
  | blob
  | row
deriving DecidableEq, Repr

/-- Why a request makes no sense. -/
inductive ConfigurationError
  | rowsReversed (first last : Nat)
  | columnsReversed (first last : Nat)
  | rangeOutside (corner : String)
  | headerRowOutside (row : Nat)
  | headerRowAfterRange (row last : Nat)
  | noColumns
  | columnOutside (column : Nat)
  | badColumnLetter (letter : String) (cause : ReferenceError)
  | columnWithoutHeader (name : String)
  | recordsWithoutHeader
  | missingArgumentValue (name : String)
  | workbookNotBlob (kind : ValueKind)
  | missingWorkbook
  | badSheet (kind : ValueKind)
  | rangeNotText
  | argumentCount (count : Nat)
  | notARow (kind : ValueKind)
  | badColumnIndex (index : Int)
  | badColumn (kind : ValueKind)
deriving DecidableEq, Repr

/-- Any error. -/
inductive Error
  | format (cause : FormatError)
  | stream (cause : StreamError)
  | cell (cause : DecodeError)
  | reference (cause : ReferenceError)
  | sheetNotFound (label : String)
  | unknownColumn (name : String)
  | configuration (cause : ConfigurationError)
  | limit (cause : LimitError)
deriving DecidableEq, Repr

/-- The wording of a fault in a part. -/
def PartFault.message : PartFault → String
  | .markup cause => "XML parse error: " ++ cause.message
  | .attribute cause => "XML attribute error: " ++ cause.message
  | .attributeText cause => "XML attribute error: " ++ cause.message
  | .text cause => "XML text error: " ++ cause.message
  | .notUtf8 => "invalid UTF-8: " ++ Markup.TextFault.notUtf8.message
  | .sheetWithoutRelationship sheet => "sheet '" ++ sheet ++ "' has no relationship id"
  | .sheetWithoutName => "sheet element without a name"
  | .unfinishedString index => "unexpected end of file in string #" ++ Text.decimal index

/-- The wording of a fault in the index. -/
def IndexFault.message : IndexFault → String
  | .unreadableEntry index => "unreadable ZIP entry #" ++ Text.decimal index ++ ": invalid header"
  | .missingEntry name => "missing entry '" ++ name ++ "'"
  | .missingWorkbookPart => "missing workbook part"
  | .unknownRelationship sheet id =>
    "sheet '" ++ sheet ++ "' refers to unknown relationship '" ++ id ++ "'"
  | .missingSheetEntry sheet target =>
    "sheet '" ++ sheet ++ "' refers to missing entry '" ++ target ++ "'"
  | .part name cause => name ++ ": " ++ cause.message

/-- The wording of a format error. -/
def FormatError.message : FormatError → String
  | .notAContainer => "input is not a ZIP container"
  | .corruptIndex cause => "corrupt workbook index: " ++ cause.message
  | .unsupportedCompression entry method =>
    "entry '" ++ entry ++ "' uses unsupported compression method Unsupported(" ++
      Text.decimal method ++ ")"
  | .encrypted entry => "entry '" ++ entry ++ "' is encrypted"

/-- The wording of a fault in the rows of a sheet. -/
def RowFault.message : RowFault → String
  | .invalidRowNumber written => "invalid row number '" ++ written ++ "'"
  | .invalidCellReference written => "invalid cell reference '" ++ written ++ "'"
  | .markup cause => cause.message
  | .attribute cause => cause.message
  | .text cause => cause.message

/-- Where an error arose, counting rows from one. -/
def atRow : Option Nat → String
  | some row => " at row " ++ Text.decimal (row + 1)
  | none => ""

/-- The wording of a stream error. -/
def StreamError.message : StreamError → String
  | .truncated row? => "sheet stream truncated" ++ atRow row?
  | .malformed row? cause => "malformed sheet XML" ++ atRow row? ++ ": " ++ cause.message

/-- The name of a kind of value. -/
def ValueKind.name : ValueKind → String
  | .null => "null"
  | .integer => "integer"
  | .real => "real"
  | .text => "text"
  | .blob => "blob"
  | .row => "row"

/-- The wording of a configuration error. -/
def ConfigurationError.message : ConfigurationError → String
  | .rowsReversed first last =>
    "Invalid range: start row (" ++ Text.decimal first ++ ") > end row (" ++ Text.decimal last ++ ")"
  | .columnsReversed first last =>
    "Invalid range: start col (" ++ Text.decimal first ++ ") > end col (" ++ Text.decimal last ++ ")"
  | .rangeOutside corner => "Invalid range: " ++ corner ++ " is outside the sheet bounds"
  | .headerRowOutside row =>
    "Invalid header row: " ++ Text.decimal row ++ " (max: " ++ Text.decimal (maxRows - 1) ++ ")"
  | .headerRowAfterRange row last =>
    "Invalid header row: " ++ Text.decimal row ++ " is after the range end row (" ++
      Text.decimal last ++ ")"
  | .noColumns => "Column selection is empty"
  | .columnOutside column =>
    "Invalid column index: " ++ Text.decimal column ++ " (max: " ++
      Text.decimal (maxColumns - 1) ++ ")"
  | .badColumnLetter letter cause =>
    "Invalid column letter '" ++ letter ++ "': " ++ cause.message
  | .columnWithoutHeader name =>
    "Column '" ++ name ++ "' is selected by header name but no header row is set"
  | .recordsWithoutHeader => "Records require a header row (use with_header_row)"
  | .missingArgumentValue name => "missing value for argument '" ++ name ++ "'"
  | .workbookNotBlob kind => "workbook argument must be a blob, got " ++ kind.name
  | .missingWorkbook => "missing workbook argument"
  | .badSheet kind => "sheet argument must be a name or an index, got " ++ kind.name
  | .rangeNotText => "range argument must be text"
  | .argumentCount count => "xl_at takes 2 arguments, got " ++ Text.decimal count
  | .notARow kind => "xl_at: first argument must be a row, got " ++ kind.name
  | .badColumnIndex index => "xl_at: invalid column index " ++ Text.decimalInt index
  | .badColumn kind => "xl_at: column must be an integer or a column name, got " ++ kind.name

/-- The wording of an error, beginning with its kind. -/
def Error.message : Error → String
  | .format cause => "Invalid workbook: " ++ cause.message
  | .stream cause => "Sheet stream error: " ++ cause.message
  | .cell cause => "Cell decode error: " ++ cause.message
  | .reference cause => "Invalid cell reference: " ++ cause.message
  | .sheetNotFound label => "Sheet not found: " ++ label
  | .unknownColumn name => "Unknown column name: '" ++ name ++ "'"
  | .configuration cause => "Configuration error: " ++ cause.message
  | .limit cause => "Security violation: " ++ cause.message

end Xlsx
