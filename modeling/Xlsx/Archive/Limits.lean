import Xlsx.Archive.Path
import Xlsx.Text.Digits

/-! # Limits of an archive

How large an archive may be, as a file and once unpacked, and what its entries may be named. The
check goes through the entries once and stops at the first one that breaks a limit. -/

namespace Xlsx

/-- The limits that an archive must keep. -/
structure Limits where
  maxTotalSize : Nat := 4294967296
  maxEntryCount : Nat := 10000
  maxEntrySize : Nat := 2147483648
  maxInputSize : Nat := 2147483648
deriving DecidableEq, Inhabited, Repr

/-- Why a name is no safe path. -/
inductive PathError
  | empty
  | absolute (path : String)
  | traversal (path : String)
  | backslash (path : String)
deriving DecidableEq, Repr

/-- Which limit an archive breaks. -/
inductive LimitError
  | inputSize (size max : Nat)
  | directoryCount (count max : Nat)
  | entryCount (max : Nat)
  | path (cause : PathError)
  | entrySize (name : String) (size max : Nat)
  | totalOverflow
  | totalSize (total max : Nat)
deriving DecidableEq, Repr

/-- The wording of a path error. -/
def PathError.message : PathError → String
  | .empty => "Empty path is not allowed"
  | .absolute path => "Absolute path is not allowed: " ++ path
  | .traversal path => "Path traversal detected: " ++ path
  | .backslash path => "Backslash in path is not allowed: " ++ path

/-- Two sizes in octets, what was found and what is allowed. -/
def sizesMessage (size max : Nat) : String :=
  Text.decimal size ++ " bytes (max: " ++ Text.decimal max ++ " bytes)"

/-- The wording of a broken limit. -/
def LimitError.message : LimitError → String
  | .inputSize size max => "Input file size exceeds maximum: " ++ sizesMessage size max
  | .directoryCount count max =>
    "ZIP archive contains too many files: " ++ Text.decimal count ++ " (max: " ++
      Text.decimal max ++ ")"
  | .entryCount max => "ZIP archive contains too many files (max: " ++ Text.decimal max ++ ")"
  | .path cause => "Invalid ZIP path: " ++ cause.message
  | .entrySize name size max =>
    "File '" ++ name ++ "' exceeds maximum size: " ++ sizesMessage size max
  | .totalOverflow => "Total decompressed size calculation overflow"
  | .totalSize total max => "Total decompressed size exceeds maximum: " ++ sizesMessage total max

namespace Path

/-- A colon as the second octet: a path that starts with the letter of a drive. -/
def hasDrive : List Char → Bool
  | c :: ':' :: _ => c.toNat < 0x80
  | _ => false

/-- A path names a place below the root of an archive. -/
def check (path : String) : Except PathError Unit :=
  let cs := path.toList
  if cs.isEmpty then .error .empty
  else if cs.head? = some '/' ∨ hasDrive cs then .error (.absolute path)
  else if ['.', '.'] ∈ segments cs then .error (.traversal path)
  else if '\\' ∈ cs then .error (.backslash path)
  else .ok ()

end Path

namespace Limits

/-- The size of a file. -/
def checkInput (l : Limits) (size : Nat) : Except LimitError Unit :=
  if l.maxInputSize < size then .error (.inputSize size l.maxInputSize) else .ok ()

/-- Sizes are counted in sixty-four bits. -/
def sizeLimit : Nat := Nat.pow 2 64

/-- The entries, by name and size, behind `count` entries of `total` octets in all. -/
def checkFrom (l : Limits) (count total : Nat) : List (String × Nat) → Except LimitError Unit
  | [] => .ok ()
  | (name, size) :: entries =>
    if l.maxEntryCount < count + 1 then .error (.entryCount l.maxEntryCount)
    else
      match Path.check name with
      | .error cause => .error (.path cause)
      | .ok () =>
        if l.maxEntrySize < size then .error (.entrySize name size l.maxEntrySize)
        else if sizeLimit ≤ total + size then .error .totalOverflow
        else if l.maxTotalSize < total + size then .error (.totalSize (total + size) l.maxTotalSize)
        else l.checkFrom (count + 1) (total + size) entries

/-- All entries of an archive, by name and size. -/
def checkEntries (l : Limits) (entries : List (String × Nat)) : Except LimitError Unit :=
  l.checkFrom 0 0 entries

end Limits

end Xlsx
