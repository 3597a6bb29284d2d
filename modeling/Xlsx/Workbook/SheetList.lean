import Xlsx.Workbook.Part

/-! # The list of sheets

The workbook part names the sheets in order and says from which epoch dates are counted. -/

namespace Xlsx

/-- Whether a sheet is shown. -/
inductive Visibility
  | visible
  | hidden
  | veryHidden
deriving DecidableEq, Inhabited, Repr

namespace Visibility

/-- The visibility that an attribute states; a sheet is visible unless it says otherwise. -/
def ofState (state : String) : Visibility :=
  match state with
  | "hidden" => .hidden
  | "veryHidden" => .veryHidden
  | _ => .visible

/-- The name of a visibility in JSON. -/
def tag : Visibility → String
  | .visible => "Visible"
  | .hidden => "Hidden"
  | .veryHidden => "VeryHidden"

end Visibility

/-- A sheet as the workbook part lists it. -/
structure ListedSheet where
  name : String
  sheetId : Nat
  relationship : String
  visibility : Visibility
deriving DecidableEq, Repr

namespace ListedSheet

/-- What the attributes of a sheet say so far. -/
structure Draft where
  name : Option String := none
  sheetId : Nat := 0
  relationship : Option String := none
  visibility : Visibility := .visible

/-- One more attribute of a sheet. The identifier of its relationship may have any namespace. -/
def Draft.add (d : Draft) (a : Markup.Attribute) (value : String) : Draft :=
  match a.key with
  | "name" => { d with name := some value }
  | "sheetId" => { d with sheetId := (Text.word? value.toList).getD 0 }
  | "state" => { d with visibility := .ofState value }
  | _ => if a.localKey = "id" then { d with relationship := some value } else d

/-- The sheet that a tag lists. -/
def ofTag? (tag : Markup.Tag) : Except PartFault ListedSheet := do
  let attributes ← tag.expandedAttributes
  let d := attributes.foldl (fun (d : Draft) a => d.add a.1 a.2) {}
  match d.name, d.relationship with
  | some name, some relationship => return ⟨name, d.sheetId, relationship, d.visibility⟩
  | some name, none => throw (.sheetWithoutRelationship name)
  | none, _ => throw .sheetWithoutName

end ListedSheet

/-- What the workbook part says. -/
structure SheetList where
  sheets : List ListedSheet := []
  epoch : Epoch := .since1900

namespace SheetList

/-- The epoch after the properties of a workbook, taking its attributes in order: it is the later one
once an attribute says so. -/
def epochFrom (epoch : Epoch) : List (Except Markup.AttributeFault Markup.Attribute) →
    Except PartFault Epoch
  | [] => .ok epoch
  | .error cause :: _ => .error (.attribute cause)
  | .ok a :: rest =>
    if a.key = "date1904" then
      match Text.utf8? a.value with
      | none => .error .notUtf8
      | some value => epochFrom (if value ∈ ["1", "true"] then .since1904 else epoch) rest
    else epochFrom epoch rest

/-- One more event of the workbook part; the sheets so far have the last one first. -/
def step (l : SheetList) (e : Markup.Event) : Except PartFault SheetList :=
  match e with
  | .start tag | .empty tag =>
    match tag.localName with
    | "workbookPr" => (epochFrom l.epoch tag.attributes).map fun epoch => { l with epoch }
    | "sheet" => (ListedSheet.ofTag? tag).map fun sheet => { l with sheets := sheet :: l.sheets }
    | _ => .ok l
  | _ => .ok l

/-- What a workbook part says. -/
def ofStream? (s : Markup.Stream) : Except PartFault SheetList :=
  (s.read step {}).map fun l => { l with sheets := l.sheets.reverse }

end SheetList

end Xlsx
