import Xlsx.Archive.Path
import Xlsx.Workbook.Part

/-! # Relationships

A part names the parts that it needs by identifiers, and a file beside it says what each identifier
stands for. Relationships to something outside the archive are left out. -/

namespace Xlsx

/-- What an identifier stands for: a part of some kind, by its path in the archive. -/
structure Relationship where
  id : String
  kind : String
  target : String
deriving DecidableEq, Repr

namespace Relationship

/-- What the attributes of a relationship say so far. -/
structure Draft where
  id : Option String := none
  kind : String := ""
  target : Option String := none
  isExternal : Bool := false

/-- One more attribute of a relationship. -/
def Draft.add (d : Draft) (key value : String) : Draft :=
  match key with
  | "Id" => { d with id := some value }
  | "Type" => { d with kind := value }
  | "Target" => { d with target := some value }
  | "TargetMode" => { d with isExternal := Path.foldCase value == "external" }
  | _ => d

/-- The relationship, if it is complete and leads to a part of the archive. -/
def Draft.relationship? (d : Draft) (directory : String) : Option Relationship :=
  match d.id, d.target with
  | some id, some target =>
    if d.isExternal then none else some ⟨id, d.kind, Path.resolve directory target⟩
  | _, _ => none

/-- The relationship that a tag declares. -/
def ofTag? (directory : String) (tag : Markup.Tag) : Except PartFault (Option Relationship) := do
  let attributes ← tag.expandedAttributes
  let draft := attributes.foldl (fun (d : Draft) a => d.add a.1.key a.2) {}
  return draft.relationship? directory

/-- The relationships with one more, which takes the place of an earlier one with its identifier.
The last one comes first. -/
def insert (r : Relationship) (all : List Relationship) : List Relationship :=
  r :: all.filter fun other => other.id != r.id

/-- One more event of the file, with the relationships so far, the last first. -/
def step (directory : String) (all : List Relationship) (e : Markup.Event) :
    Except PartFault (List Relationship) :=
  match e with
  | .start tag | .empty tag =>
    if tag.localName = "Relationship" then do
      match ← ofTag? directory tag with
      | some r => return insert r all
      | none => return all
    else .ok all
  | _ => .ok all

/-- The relationships in a file, in order, as seen from a directory. -/
def ofStream? (directory : String) (s : Markup.Stream) : Except PartFault (List Relationship) :=
  (s.read (step directory) []).map List.reverse

/-- What an identifier stands for. -/
def withId? (all : List Relationship) (id : String) : Option Relationship :=
  all.find? (·.id == id)

/-- Whether the kind of a relationship ends in a given name. -/
def isOfKind (r : Relationship) (name : String) : Bool := name.toList.isSuffixOf r.kind.toList

end Relationship

end Xlsx
