/-! # Paths in an archive

Entries are named by paths whose segments are divided by `/`. A target is resolved against the
directory of the part that names it; `.` and empty segments are passed over and `..` takes back the
segment before it, if there is one, so that no target leaves the archive. -/

namespace Xlsx.Path

/-- The segments of a path, at least one. -/
def segments : List Char → List (List Char)
  | [] => [[]]
  | c :: cs =>
    if c = '/' then [] :: segments cs
    else
      match segments cs with
      | s :: rest => (c :: s) :: rest
      | [] => [[c]]

/-- A path of given segments. -/
def ofSegments : List (List Char) → List Char
  | [] => []
  | [s] => s
  | s :: rest => s ++ '/' :: ofSegments rest

/-- One more segment behind a path whose segments are in `done`, the last first. -/
def pushSegment (done : List (List Char)) (s : List Char) : List (List Char) :=
  if s = [] ∨ s = ['.'] then done
  else if s = ['.', '.'] then done.tail
  else s :: done

/-- The segments of a path without those that stand for no place. -/
def normalSegments (cs : List Char) : List (List Char) :=
  ((segments cs).foldl pushSegment []).reverse

/-- A target as seen from a directory: from the root when it starts with `/`. -/
def resolve (directory target : String) : String :=
  let joined := match target.toList with
    | '/' :: rest => rest
    | cs => if directory.isEmpty then cs else directory.toList ++ '/' :: cs
  String.ofList (ofSegments (normalSegments joined))

/-- A path divided at its last `/`: the directory, unless there is none, and the file. -/
def splitLast (path : String) : Option (List Char) × List Char :=
  let cs := path.toList
  let file := (cs.reverse.takeWhile (· != '/')).reverse
  match cs.reverse.dropWhile (· != '/') with
  | _ :: rest => (some rest.reverse, file)
  | [] => (none, cs)

/-- The directory of a part; empty for a part at the root. -/
def directory (path : String) : String := String.ofList ((splitLast path).1.getD [])

/-- Where the relationships of a part are stored. -/
def relationships (path : String) : String :=
  let file := String.ofList (splitLast path).2
  match (splitLast path).1 with
  | some dir => String.ofList dir ++ "/_rels/" ++ file ++ ".rels"
  | none => "_rels/" ++ file ++ ".rels"

/-- An ASCII letter in lower case; other characters as they are. -/
def foldCase (s : String) : String := String.ofList (s.toList.map Char.toLower)

/-- A name without the slashes in front of it. -/
def dropSlashes (name : String) : String := String.ofList (name.toList.dropWhile (· == '/'))

end Xlsx.Path
