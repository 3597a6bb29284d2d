import Xlsx.Archive.Directory
import Xlsx.Archive.Inflater
import Xlsx.Error
import Xlsx.Markup.Scanner

/-! # Containers

The archive that holds the parts of a workbook. Opening one reads its directory and checks it against
the limits; an entry is unpacked when it is read, and never gives more octets than the directory
declares. Entries are found by their exact name, or else by their name in any case. -/

namespace Xlsx

/-- A part of some octets, read from front to back. -/
structure Window where
  data : ByteArray
  position : Nat
  stop : Nat

namespace Window

/-- The octets from `start` on, as many as asked for or as there are. -/
def clamped (data : ByteArray) (start length : Nat) : Window :=
  let position := min start data.size
  ⟨data, position, min (position + length) data.size⟩

/-- The next octets, at most `n`, and the window behind them. -/
def read (w : Window) (n : Nat) : ByteArray × Window :=
  let next := min (w.position + n) w.stop
  (w.data.extract w.position next, { w with position := next })

/-- All octets of a window. -/
def contents (w : Window) : ByteArray := w.data.extract w.position w.stop

/-- A clamped region does not end before it begins. -/
theorem position_le_stop_clamped (data : ByteArray) (start length : Nat) :
    (clamped data start length).position ≤ (clamped data start length).stop := by
  simp only [clamped]
  omega

/-- It ends inside of the data. -/
theorem stop_clamped_le (data : ByteArray) (start length : Nat) :
    (clamped data start length).stop ≤ data.size := by
  simp only [clamped]
  omega

end Window

/-- An entry being read: as it is stored or while it is unpacked, and how many octets may still be
delivered. -/
inductive EntryReader
  | stored (window : Window) (left : Nat)
  | deflated (inflater : Inflate.Inflater) (left : Nat)

namespace EntryReader

/-- How many octets may still be delivered. -/
def left : EntryReader → Nat
  | stored _ left => left
  | deflated _ left => left

/-- The next octets, at most `n`, and the reader behind them; none of both where the data of the entry
are corrupt or end too early. -/
def read (r : EntryReader) (n : Nat) : Option (ByteArray × EntryReader) :=
  match r with
  | stored window left =>
    let (octets, window) := window.read (min n left)
    some (octets, .stored window (left - octets.size))
  | deflated inflater left =>
    if min n left = 0 then some (.empty, .deflated inflater left)
    else
      (inflater.read (min n left)).map fun p => (p.1, .deflated p.2 (left - p.1.size))

/-- A reader that has delivered something may deliver less. -/
theorem left_lt_of_read {r after : EntryReader} {n : Nat} {octets : ByteArray}
    (h : r.read n = some (octets, after)) (hsize : 0 < octets.size) (hleft : 0 < r.left) :
    after.left < r.left := by
  cases r with
  | stored window remaining =>
    simp only [read, Option.some.injEq, Prod.mk.injEq] at h
    obtain ⟨rfl, rfl⟩ := h
    simp only [left] at hleft ⊢
    omega
  | deflated inflater remaining =>
    simp only [read] at h
    split at h
    · simp only [Option.some.injEq, Prod.mk.injEq] at h
      rw [← h.1] at hsize
      simp at hsize
    · simp only [Option.map_eq_some_iff, Prod.mk.injEq] at h
      obtain ⟨p, _, rfl, rfl⟩ := h
      simp only [left] at hleft ⊢
      omega

/-- How many octets are asked for at a time. -/
def portionSize : Nat := 8192

/-- What a reader delivers when it is asked again and again, behind the portions in `done`, the last
first. -/
def portionsFrom (done : List (List UInt8)) (r : EntryReader) : Markup.Source :=
  match h : r.read portionSize with
  | none => ⟨done.reverse, true⟩
  | some (octets, after) =>
    if hmore : 0 < octets.size ∧ 0 < r.left then
      have := left_lt_of_read h hmore.1 hmore.2
      portionsFrom (octets.toList :: done) after
    else ⟨done.reverse, false⟩
termination_by r.left
decreasing_by exact this

/-- All that a reader still has to deliver. -/
def source (r : EntryReader) : Markup.Source := portionsFrom [] r

end EntryReader

/-- An archive whose directory has been read. No two entries have the same name. -/
structure Container where
  data : ByteArray
  entries : List Archive.DirectoryEntry

namespace Container

/-- The octets that an archive with entries begins with. -/
def entryMark : List UInt8 := [0x50, 0x4B, 0x03, 0x04]

/-- The octets that an archive without entries begins with. -/
def emptyMark : List UInt8 := [0x50, 0x4B, 0x05, 0x06]

/-- Whether octets begin as an archive does. -/
def hasMark (data : ByteArray) : Bool :=
  let mark := (data.extract 0 4).toList
  mark == entryMark || mark == emptyMark

/-- A name that ends in a slash of either kind is that of a directory. -/
def isDirectoryName (name : String) : Bool :=
  match name.toList.getLast? with
  | some c => c == '/' || c == '\\'
  | none => false

/-- The entries with the place of their data in the stead of the place of their header, the first
being number `index`; directories are left out. -/
def locateData (data : ByteArray) (index : Nat) (done : List Archive.DirectoryEntry) :
    List Archive.DirectoryEntry → Except IndexFault (List Archive.DirectoryEntry)
  | [] => .ok done.reverse
  | e :: rest =>
    match Archive.dataStart? data e.header with
    | none => .error (.unreadableEntry index)
    | some start =>
      locateData data (index + 1)
        (if isDirectoryName e.name then done else { e with header := start } :: done) rest

/-- Of the entries of one name only the last. -/
def lastOfEachName (entries : List Archive.DirectoryEntry) : List Archive.DirectoryEntry :=
  entries.foldr (fun e kept => if kept.any (·.name == e.name) then kept else e :: kept) []

/-- The archive that octets hold, within limits. -/
def ofOctets? (limits : Limits) (data : ByteArray) : Except Error Container := do
  (limits.checkInput data.size).mapError .limit
  if !hasMark data then throw (.format .notAContainer)
  match Archive.directory? data with
  | none => throw (.format .notAContainer)
  | some listed =>
    if limits.maxEntryCount < listed.length then
      throw (.limit (.directoryCount listed.length limits.maxEntryCount))
    let located ← (locateData data 0 [] listed).mapError fun cause => .format (.corruptIndex cause)
    let entries := lastOfEachName located
    (limits.checkEntries (entries.map fun e => (e.name, e.size))).mapError .limit
    return ⟨data, entries⟩

/-- The entry that a name finds: the one of just that name without slashes in front of it, or else
the last one whose name differs in case only. -/
def find? (c : Container) (name : String) : Option Archive.DirectoryEntry :=
  let name := Path.dropSlashes name
  match c.entries.find? (·.name == name) with
  | some e => some e
  | none =>
    let folded := Path.foldCase name
    c.entries.reverse.find? fun e => Path.foldCase e.name == folded

/-- Whether a name finds an entry. -/
def contains (c : Container) (name : String) : Bool := (c.find? name).isSome

/-- The octets of an entry as they lie in the archive. -/
def stored (c : Container) (e : Archive.DirectoryEntry) : Window :=
  .clamped c.data e.header e.compressedSize

/-- A reader at the start of the entry that a name finds. -/
def openEntry (c : Container) (name : String) : Except FormatError EntryReader :=
  match c.find? name with
  | none => .error (.corruptIndex (.missingEntry name))
  | some e =>
    if e.isEncrypted then .error (.encrypted e.name)
    else
      match e.method with
      | 0 => .ok (.stored (c.stored e) e.size)
      | 8 => .ok (.deflated (.ofOctets (c.stored e).contents) e.size)
      | method => .error (.unsupportedCompression e.name method)

/-- The events of the part that a name finds. -/
def scan (c : Container) (name : String) : Except FormatError Markup.Stream :=
  (c.openEntry name).map fun reader => Markup.scan reader.source

end Container

end Xlsx
