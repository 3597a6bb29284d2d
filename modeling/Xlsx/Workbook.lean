import Xlsx.Archive.Container
import Xlsx.Selection
import Xlsx.Workbook.Relationship
import Xlsx.Workbook.SheetList
import Xlsx.Workbook.StringTable
import Xlsx.Workbook.StyleSheet

/-! # Workbooks

A workbook is an archive together with what opening it finds: its sheets in order, the shared
strings, the styles and the epoch. Every sheet has an entry in the archive; what a sheet holds is
not looked at before it is read. -/

namespace Xlsx

/-- A sheet of a workbook: its place, what the workbook says of it, and the entry that holds it. -/
structure Sheet where
  name : String
  index : Nat
  sheetId : Nat
  visibility : Visibility
  entry : String
deriving DecidableEq, Inhabited, Repr

namespace Sheet

/-- The sheet is shown. -/
def isVisible (s : Sheet) : Bool := s.visibility == .visible

/-- A sheet in JSON. -/
def toJson (s : Sheet) : Json :=
  .object [("name", .string s.name), ("index", .natural s.index), ("sheet_id", .natural s.sheetId),
    ("visibility", .string s.visibility.tag), ("entry", .string s.entry)]

end Sheet

/-- An open workbook. -/
structure Workbook where
  container : Container
  sheets : List Sheet
  strings : SharedStrings
  styles : StyleTable
  epoch : Epoch

namespace Workbook

/-- What a part says, as `ofStream?` reads it. -/
def readPart {α : Type} (ofStream? : Markup.Stream → Except PartFault α) (c : Container)
    (name : String) : Except FormatError α := do
  let stream ← c.scan name
  (ofStream? stream).mapError fun cause => .corruptIndex (.part name cause)

/-- The relationships in a file of the archive, if there is one, as seen from a directory. -/
def relationships (c : Container) (directory file : String) :
    Except FormatError (List Relationship) :=
  if c.contains file then readPart (Relationship.ofStream? directory) c file else .ok []

/-- Where the relationships of the archive itself are. -/
def rootRelationships : String := "_rels/.rels"

/-- Where the workbook part is when no relationship says so. -/
def usualPart : String := "xl/workbook.xml"

/-- The workbook part of an archive. -/
def mainPart (c : Container) : Except FormatError String := do
  let all ← relationships c "" rootRelationships
  match (all.find? (·.isOfKind "/officeDocument")).filter fun r => c.contains r.target with
  | some r => return r.target
  | none => if c.contains usualPart then return usualPart else throw (.corruptIndex .missingWorkbookPart)

/-- The part of some kind that a workbook refers to, or else the one at the usual place. -/
def optionalPart (c : Container) (all : List Relationship) (kind usual : String) : Option String :=
  match all.find? fun r => r.isOfKind kind && c.contains r.target with
  | some r => some r.target
  | none => if c.contains usual then some usual else none

/-- The sheet number `index`, as it is listed. -/
def locateSheet (c : Container) (all : List Relationship) (index : Nat) (listed : ListedSheet) :
    Except IndexFault Sheet :=
  match Relationship.withId? all listed.relationship with
  | none => .error (.unknownRelationship listed.name listed.relationship)
  | some r =>
    if c.contains r.target then
      .ok ⟨listed.name, index, listed.sheetId, listed.visibility, r.target⟩
    else .error (.missingSheetEntry listed.name r.target)

/-- The listed sheets in order, the first being number `index`. -/
def locateSheets (c : Container) (all : List Relationship) (index : Nat) :
    List ListedSheet → Except IndexFault (List Sheet)
  | [] => .ok []
  | listed :: rest => do
    let sheet ← locateSheet c all index listed
    return sheet :: (← locateSheets c all (index + 1) rest)

/-- The workbook in an archive. -/
def ofContainer? (c : Container) : Except FormatError Workbook := do
  let main ← mainPart c
  let list ← readPart SheetList.ofStream? c main
  let all ← relationships c (Path.directory main) (Path.relationships main)
  let sheets ← (locateSheets c all 0 list.sheets).mapError .corruptIndex
  let strings ← match optionalPart c all "/sharedStrings" "xl/sharedStrings.xml" with
    | some part => readPart SharedStrings.ofStream? c part
    | none => pure {}
  let styles ← match optionalPart c all "/styles" "xl/styles.xml" with
    | some part => readPart StyleTable.ofStream? c part
    | none => pure {}
  return { container := c, sheets, strings, styles, epoch := list.epoch }

/-- The workbook in some octets, within limits. -/
def ofOctets? (limits : Limits) (data : ByteArray) : Except Error Workbook := do
  (ofContainer? (← Container.ofOctets? limits data)).mapError .format

/-- The workbook at the start of a source that may have no end: no more is taken from it than shows
that it is too large. -/
def ofSource? (limits : Limits) (data : ByteArray) : Except Error Workbook :=
  ofOctets? limits (data.extract 0 (min data.size (limits.maxInputSize + 1)))

/-- The first sheet of some name. -/
def sheet? (w : Workbook) (name : String) : Option Sheet := w.sheets.find? (·.name == name)

/-- The sheet that is meant. -/
def resolve (w : Workbook) (selector : SheetSelector) : Except Error Sheet :=
  let found := match selector with
    | .index i => w.sheets[i]?
    | .name s => w.sheet? s
  match found with
  | some sheet => .ok sheet
  | none => .error (.sheetNotFound selector.label)

/-- What decoding the cells of a workbook needs. -/
def decoder (w : Workbook) : Decoder := ⟨w.strings, w.styles, w.epoch⟩

end Workbook

end Xlsx
