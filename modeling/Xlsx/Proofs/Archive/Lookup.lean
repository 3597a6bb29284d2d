import Mathlib.Data.List.Induction
import Mathlib.Logic.Function.Basic
import Xlsx.Proofs.Archive.Bounds

/-! # Looking up entries

The directory of an archive may list one name several times, and names that differ in case only. The
index of an archive is best thought of as two tables that are filled side by side: the entries by their
names, and for each name without regard to case the spelling of it that came last. A name that is not
in the first table is looked up through the second one, and that is sound only as long as every
spelling in the second table is a name in the first.

* **`NameIndex`**: the two tables, filled entry by entry.
* **`NameIndex.InStep`**, **`NameIndex.InStep.insert`**, **`NameIndex.inStep_ofEntries`**: what keeps
  them in step, one entry after the other, and hence in the end.
* **`Container.find?_eq_locate`**: an archive finds what the two tables find.
* **`Container.locateData_eq_ok`**: which of the entries listed are put there.
* **`Container.openEntry_eq_missing`**: when an entry is said to be missing.
* **`Container.findsByName_of_ofOctets?`**: what the names find in any archive that is opened. -/

namespace Xlsx

open Archive (DirectoryEntry)

/-- **Two tables of names**: the entry that each name stands for, and a spelling of each name without
regard to case. -/
structure NameIndex where
  entry : String → Option DirectoryEntry
  spelling : String → Option String

namespace NameIndex

def empty : NameIndex := ⟨fun _ => none, fun _ => none⟩

/-- A further entry takes the place of those of its name in the first table, and of all that differ from
it in case in the second. -/
def insert (i : NameIndex) (e : DirectoryEntry) : NameIndex where
  entry := Function.update i.entry e.name (some e)
  spelling := Function.update i.spelling (Path.foldCase e.name) (some e.name)

def ofEntries (entries : List DirectoryEntry) : NameIndex := entries.foldl insert empty

/-- A name has the entry that was put there last. -/
@[simp] theorem entry_insert_self (i : NameIndex) (e : DirectoryEntry) :
    (i.insert e).entry e.name = some e := Function.update_self ..

/-- Other names keep theirs. -/
theorem entry_insert_of_ne {name : String} (i : NameIndex) {e : DirectoryEntry} (h : name ≠ e.name) :
    (i.insert e).entry name = i.entry name := Function.update_of_ne h ..

/-- A name is the spelling of what it is without regard to case. -/
@[simp] theorem spelling_insert_self (i : NameIndex) (e : DirectoryEntry) :
    (i.insert e).spelling (Path.foldCase e.name) = some e.name := Function.update_self ..

/-- Other spellings stay. -/
theorem spelling_insert_of_ne {key : String} (i : NameIndex) {e : DirectoryEntry}
    (h : key ≠ Path.foldCase e.name) : (i.insert e).spelling key = i.spelling key :=
  Function.update_of_ne h ..

/-- The entry of just a name without slashes in front of it, or else that of the spelling which is known
for the name without regard to case. -/
def locate (i : NameIndex) (name : String) : Option DirectoryEntry :=
  match i.entry (Path.dropSlashes name) with
  | some e => some e
  | none => (i.spelling (Path.foldCase (Path.dropSlashes name))).bind i.entry

variable {i : NameIndex} {e : DirectoryEntry}

/-- **The two tables are in step.** -/
structure InStep (i : NameIndex) : Prop where
  own : ∀ name e, i.entry name = some e → e.name = name
  /-- Every name has a spelling. -/
  spelt : ∀ name e, i.entry name = some e → i.spelling (Path.foldCase name) ≠ none
  /-- Every spelling is a name. -/
  known : ∀ key name, i.spelling key = some name → Path.foldCase name = key ∧ i.entry name ≠ none

/-- Empty tables are in step. -/
theorem inStep_empty : InStep empty where
  own _ _ h := nomatch h
  spelt _ _ h := nomatch h
  known _ _ h := nomatch h

/-- **Tables that are in step stay so** when an entry is put into both. -/
theorem InStep.insert (h : i.InStep) (e : DirectoryEntry) : (i.insert e).InStep where
  own := by
    intro name found hfound
    by_cases hname : name = e.name
    · subst hname
      rw [entry_insert_self] at hfound
      rw [← Option.some.inj hfound]
    · rw [entry_insert_of_ne i hname] at hfound
      exact h.own name found hfound
  spelt := by
    intro name found hfound
    by_cases hkey : Path.foldCase name = Path.foldCase e.name
    · rw [hkey, spelling_insert_self]
      exact Option.some_ne_none _
    · have hname : name ≠ e.name := fun hname => hkey (congrArg Path.foldCase hname)
      rw [entry_insert_of_ne i hname] at hfound
      rw [spelling_insert_of_ne i hkey]
      exact h.spelt name found hfound
  known := by
    intro key name hspelling
    -- A name keeps its entry unless it gets the new one, so no spelling is left without.
    have hkept : name = e.name ∨ i.entry name ≠ none → (i.insert e).entry name ≠ none := by
      intro hname
      by_cases hown : name = e.name
      · rw [hown, entry_insert_self]
        exact Option.some_ne_none _
      · rw [entry_insert_of_ne i hown]
        exact hname.resolve_left hown
    by_cases hkey : key = Path.foldCase e.name
    · subst hkey
      rw [spelling_insert_self] at hspelling
      have hname : name = e.name := (Option.some.inj hspelling).symm
      exact ⟨congrArg Path.foldCase hname, hkept (.inl hname)⟩
    · rw [spelling_insert_of_ne i hkey] at hspelling
      obtain ⟨hfold, hentry⟩ := h.known key name hspelling
      exact ⟨hfold, hkept (.inr hentry)⟩

/-- **Tables that are filled side by side** are in step. -/
theorem inStep_ofEntries (entries : List DirectoryEntry) : (ofEntries entries).InStep := by
  suffices h : ∀ i : NameIndex, i.InStep → (entries.foldl insert i).InStep from h empty inStep_empty
  induction entries with
  | nil => exact fun i hi => hi
  | cons e entries ih => exact fun i hi => ih (i.insert e) (hi.insert e)

/-- The last entry of a directory is the last one to be put into the tables. -/
theorem ofEntries_append_singleton (entries : List DirectoryEntry) (e : DirectoryEntry) :
    ofEntries (entries ++ [e]) = (ofEntries entries).insert e := by
  rw [ofEntries, List.foldl_append]
  rfl

/-- The first table has the last entry of each name. -/
theorem entry_ofEntries (entries : List DirectoryEntry) (name : String) :
    (ofEntries entries).entry name = entries.reverse.find? (·.name == name) := by
  induction entries using List.reverseRecOn with
  | nil => rfl
  | append_singleton entries e ih =>
    rw [ofEntries_append_singleton, List.reverse_append, List.reverse_singleton, List.singleton_append]
    by_cases hname : name = e.name
    · rw [hname, entry_insert_self, List.find?_cons_of_pos (by simp)]
    · rw [entry_insert_of_ne _ hname, ih, List.find?_cons_of_neg]
      simpa using Ne.symm hname

/-- The second table has the last spelling of each name. -/
theorem spelling_ofEntries (entries : List DirectoryEntry) (key : String) :
    (ofEntries entries).spelling key =
      (entries.reverse.find? fun e => Path.foldCase e.name == key).map (·.name) := by
  induction entries using List.reverseRecOn with
  | nil => rfl
  | append_singleton entries e ih =>
    rw [ofEntries_append_singleton, List.reverse_append, List.reverse_singleton, List.singleton_append]
    by_cases hkey : key = Path.foldCase e.name
    · rw [hkey, spelling_insert_self, List.find?_cons_of_pos (by simp)]
      rfl
    · rw [spelling_insert_of_ne _ hkey, ih, List.find?_cons_of_neg]
      simpa using Ne.symm hkey

/-- **What two tables in step find**: nothing, or an entry of the name in some case. -/
theorem InStep.foldCase_of_locate {name : String} (h : i.InStep) (hfound : i.locate name = some e) :
    Path.foldCase e.name = Path.foldCase (Path.dropSlashes name) := by
  rw [locate] at hfound
  split at hfound
  · rename_i found hexact
    obtain rfl := Option.some.inj hfound
    rw [h.own _ _ hexact]
  · obtain ⟨spelling, hspelling, hentry⟩ := Option.bind_eq_some_iff.mp hfound
    rw [h.own _ _ hentry]
    exact (h.known _ _ hspelling).1

/-- **Two tables in step find a name** as soon as one that differs in case only has an entry. -/
theorem InStep.locate_ne_none {name : String} (h : i.InStep) (hentry : i.entry e.name = some e)
    (hfold : Path.foldCase e.name = Path.foldCase (Path.dropSlashes name)) : i.locate name ≠ none := by
  rw [locate]
  split
  · exact Option.some_ne_none _
  · obtain ⟨spelling, hspelling⟩ := Option.ne_none_iff_exists'.mp (h.spelt _ _ hentry)
    -- The spelling may be another one than that of the entry, but it is a name as well.
    rw [← hfold, hspelling]
    exact (h.known _ _ hspelling).2

end NameIndex

namespace Container

variable {c : Container} {e : DirectoryEntry}

/-! ## The index of an archive -/

/-- Leaving out all but the last entry of each name does not change which entry is the last one with
some property of names. -/
theorem find?_reverse_lastOfEachName {p : DirectoryEntry → Bool}
    (hp : ∀ e other : DirectoryEntry, e.name = other.name → p e = p other) (entries : List DirectoryEntry) :
    (lastOfEachName entries).reverse.find? p = entries.reverse.find? p := by
  induction entries with
  | nil => rfl
  | cons e entries ih =>
    rw [List.reverse_cons, List.find?_append, ← ih, lastOfEachName, List.foldr_cons]
    change (if (lastOfEachName entries).any (·.name == e.name) then lastOfEachName entries
      else e :: lastOfEachName entries).reverse.find? p = _
    split
    · rename_i hany
      obtain ⟨other, hother, hname⟩ := List.any_eq_true.mp hany
      -- The entry is left out for another one of its name, which has the property as well.
      cases hpe : p e with
      | true =>
        have hsome : ((lastOfEachName entries).reverse.find? p).isSome := by
          rw [List.find?_isSome]
          refine ⟨other, List.mem_reverse.mpr hother, ?_⟩
          rw [hp other e (by simpa using hname), hpe]
        rw [Option.or_of_isSome hsome]
      | false => rw [List.find?_cons_of_neg (by simp [hpe]), List.find?_nil, Option.or_none]
    · rw [List.reverse_cons, List.find?_append]

/-- Where names are different, the entry of a name is the same from either end. -/
theorem find?_name_reverse {entries : List DirectoryEntry} (hnames : (entries.map (·.name)).Nodup)
    (name : String) : entries.find? (·.name == name) = entries.reverse.find? (·.name == name) := by
  cases hfound : entries.reverse.find? (·.name == name) with
  | none => simpa using hfound
  | some e =>
    have hname : e.name = name := by simpa using List.find?_some hfound
    rw [← hname]
    exact find?_name_of_mem hnames (List.mem_reverse.mp (List.mem_of_find?_eq_some hfound))

/-- The first entry with some property of names is the first one of its name. -/
theorem find?_name_of_find? {p : DirectoryEntry → Bool} {entries : List DirectoryEntry}
    (hp : ∀ e other : DirectoryEntry, e.name = other.name → p e = p other)
    (h : entries.find? p = some e) : entries.find? (·.name == e.name) = some e := by
  obtain ⟨hpe, before, after, rfl, hbefore⟩ := List.find?_eq_some_iff_append.mp h
  refine List.find?_eq_some_iff_append.mpr ⟨beq_self_eq_true e.name, before, after, rfl, ?_⟩
  intro other hother
  have hdiffers : p other = false := by simpa using hbefore other hother
  have hname : other.name ≠ e.name := by
    intro hname
    rw [hp other e hname, hpe] at hdiffers
    exact nomatch hdiffers
  simpa using hname

/-- **An archive finds what the two tables find** that are filled with all the entries located. -/
theorem find?_eq_locate {located : List DirectoryEntry} (hentries : c.entries = lastOfEachName located)
    (name : String) : c.find? name = (NameIndex.ofEntries located).locate name := by
  have hexact : c.entries.find? (·.name == Path.dropSlashes name) =
      (NameIndex.ofEntries located).entry (Path.dropSlashes name) := by
    rw [NameIndex.entry_ofEntries, hentries, find?_name_reverse (names_lastOfEachName located),
      find?_reverse_lastOfEachName]
    intro e other hname
    rw [hname]
  have hfolds : ∀ e other : DirectoryEntry, e.name = other.name →
      (Path.foldCase e.name == Path.foldCase (Path.dropSlashes name)) =
        (Path.foldCase other.name == Path.foldCase (Path.dropSlashes name)) := by
    intro e other hname
    rw [hname]
  simp only [find?, NameIndex.locate, hexact]
  cases (NameIndex.ofEntries located).entry (Path.dropSlashes name) with
  | some e => rfl
  | none =>
    simp only [hentries, find?_reverse_lastOfEachName hfolds, NameIndex.spelling_ofEntries]
    cases hfold : located.reverse.find? fun e =>
        Path.foldCase e.name == Path.foldCase (Path.dropSlashes name) with
    | none => rfl
    | some e =>
      -- What comes last of the names that differ in case only comes last of its own name, too.
      rw [Option.map_some, Option.bind_some, NameIndex.entry_ofEntries]
      exact (find?_name_of_find? hfolds hfold).symm

/-- The entries that are left are those in the first table. -/
theorem entry_ofEntries_of_mem {located : List DirectoryEntry} (he : e ∈ lastOfEachName located) :
    (NameIndex.ofEntries located).entry e.name = some e := by
  have hnames := names_lastOfEachName located
  calc (NameIndex.ofEntries located).entry e.name
      = located.reverse.find? (·.name == e.name) := NameIndex.entry_ofEntries located e.name
    _ = (lastOfEachName located).reverse.find? (·.name == e.name) :=
        (find?_reverse_lastOfEachName (fun one other hname => by rw [hname]) located).symm
    _ = (lastOfEachName located).find? (·.name == e.name) := (find?_name_reverse hnames e.name).symm
    _ = some e := find?_name_of_mem hnames he

/-! ## The entries of the directory -/

/-- What an archive takes over of an entry in its directory: nothing of one that is a directory itself, and
else the entry with the place of its data. -/
def placed? (data : ByteArray) (e : DirectoryEntry) : Option DirectoryEntry :=
  if isDirectoryName e.name then none
  else (Archive.dataStart? data e.header).map fun start => { e with header := start }

/-- An entry that is placed is no directory, and keeps its name. -/
theorem placed?_eq_some {data : ByteArray} {placed : DirectoryEntry} (h : placed? data e = some placed) :
    isDirectoryName e.name = false ∧ placed.name = e.name := by
  rw [placed?] at h
  split at h
  · exact nomatch h
  · rename_i hfile
    obtain ⟨start, -, rfl⟩ := Option.map_eq_some_iff.mp h
    exact ⟨by simpa using hfile, rfl⟩

/-- **The entries that are located** are those taken over of the entries listed, and every header was
found. -/
theorem locateData_eq_ok {data : ByteArray} {listed located done : List DirectoryEntry} {index : Nat}
    (h : locateData data index done listed = .ok located) :
    located = done.reverse ++ listed.filterMap (placed? data) ∧
      ∀ e ∈ listed, Archive.dataStart? data e.header ≠ none := by
  induction listed generalizing index done with
  | nil =>
    rw [locateData] at h
    rw [← Except.ok.inj h, List.filterMap_nil, List.append_nil]
    exact ⟨rfl, fun e he => absurd he List.not_mem_nil⟩
  | cons e listed ih =>
    rw [locateData] at h
    cases hstart : Archive.dataStart? data e.header with
    | none =>
      rw [hstart] at h
      exact nomatch h
    | some start =>
      rw [hstart] at h
      obtain ⟨hlocated, hheaders⟩ := ih h
      refine ⟨?_, List.forall_mem_cons.mpr ⟨by rw [hstart]; exact Option.some_ne_none _, hheaders⟩⟩
      rw [hlocated, List.filterMap_cons, placed?, hstart]
      cases isDirectoryName e.name with
      | true => rfl
      | false => simp

/-- Every entry listed that is no directory has its name in the archive. -/
theorem exists_name_placed {data : ByteArray} {listed : List DirectoryEntry}
    (hheaders : ∀ e ∈ listed, Archive.dataStart? data e.header ≠ none) (name : String) :
    (∃ e ∈ listed.filterMap (placed? data), e.name = name) ↔
      ∃ e ∈ listed, isDirectoryName e.name = false ∧ e.name = name := by
  constructor
  · rintro ⟨placed, hplaced, rfl⟩
    obtain ⟨e, he, hplaced⟩ := List.mem_filterMap.mp hplaced
    obtain ⟨hfile, hname⟩ := placed?_eq_some hplaced
    exact ⟨e, he, hfile, hname.symm⟩
  · rintro ⟨e, he, hfile, rfl⟩
    obtain ⟨start, hstart⟩ := Option.ne_none_iff_exists'.mp (hheaders e he)
    refine ⟨{ e with header := start }, List.mem_filterMap.mpr ⟨e, he, ?_⟩, rfl⟩
    rw [placed?, hfile, hstart]
    rfl

/-- What is left of the entries has all their names. -/
theorem exists_name_lastOfEachName (entries : List DirectoryEntry) (name : String) :
    (∃ e ∈ lastOfEachName entries, e.name = name) ↔ ∃ e ∈ entries, e.name = name := by
  have hfind := find?_reverse_lastOfEachName (p := (·.name == name))
    (fun e other hname => by rw [hname]) entries
  have hsome := congrArg Option.isSome hfind
  rw [Bool.eq_iff_iff, List.find?_isSome, List.find?_isSome] at hsome
  simpa using hsome

/-! ## Missing entries -/

/-- **An entry is said to be missing** just where the name finds none, and the name is that asked for. -/
theorem openEntry_eq_missing {name other : String} :
    c.openEntry name = .error (.corruptIndex (.missingEntry other)) ↔ c.find? name = none ∧ other = name := by
  rw [openEntry]
  cases c.find? name with
  | none =>
    constructor
    · intro h
      injection h with h
      injection h with h
      injection h with h
      exact ⟨rfl, h.symm⟩
    · rintro ⟨-, rfl⟩
      rfl
  | some e =>
    -- What is wrong with an entry that is found is something else.
    simp only [reduceCtorEq, false_and, iff_false]
    split
    · simp
    · split <;> simp

/-- What an archive does not contain is not found. -/
theorem contains_eq_false {name : String} : c.contains name = false ↔ c.find? name = none := by
  rw [contains, Option.isSome_eq_false_iff, Option.isNone_iff_eq_none]

/-! ## What names find -/

/-- **The entries are found by their names**, those of an archive whose directory lists the entries. -/
structure FindsByName (listed : List DirectoryEntry) (c : Container) : Prop where
  /-- The names in the archive are those that its directory lists, without the directories in it. -/
  names : ∀ name, (∃ e ∈ c.entries, e.name = name) ↔
    ∃ e ∈ listed, isDirectoryName e.name = false ∧ e.name = name
  /-- A name is contained if without slashes in front of it it is that of an entry in some case. -/
  complete : ∀ name, c.contains name = true ↔
    ∃ e ∈ c.entries, Path.foldCase e.name = Path.foldCase (Path.dropSlashes name)
  /-- An entry is missing if it is not contained, and it is the one asked for that is said to be missing. -/
  missing : ∀ name other, c.openEntry name = .error (.corruptIndex (.missingEntry other)) ↔
    c.contains name = false ∧ other = name
  /-- The entry of just the name is the one that is found. -/
  exact : ∀ name, ∀ e ∈ c.entries, e.name = Path.dropSlashes name → c.find? name = some e
  /-- Whatever is found is an entry of the name in some case. -/
  sound : ∀ name e, c.find? name = some e →
    e ∈ c.entries ∧ Path.foldCase e.name = Path.foldCase (Path.dropSlashes name)
  /-- Of all entries listed, those of one name and those in some case, the last one is found. -/
  tables : ∀ name, c.find? name = (NameIndex.ofEntries (listed.filterMap (placed? c.data))).locate name

/-- **Every archive that is opened finds its entries by their names**, however often its directory lists a
name, and in whatever case. -/
theorem findsByName_of_ofOctets? {limits : Limits} {data : ByteArray} (h : ofOctets? limits data = .ok c) :
    ∃ listed, Archive.directory? data = some listed ∧ c.data = data ∧ c.FindsByName listed := by
  obtain ⟨listed, located, -, hlisted, -, hlocated, -, rfl⟩ := ofOctets?_eq_ok h
  obtain ⟨rfl, hheaders⟩ := locateData_eq_ok hlocated
  rw [List.reverse_nil, List.nil_append]
  generalize hplaced : listed.filterMap (placed? data) = located
  have hstep := NameIndex.inStep_ofEntries located
  have htables : ∀ name, find? ⟨data, lastOfEachName located⟩ name = (NameIndex.ofEntries located).locate name :=
    find?_eq_locate rfl
  have hown : ∀ e ∈ lastOfEachName located, (NameIndex.ofEntries located).entry e.name = some e :=
    fun e he => entry_ofEntries_of_mem he
  have hsound : ∀ name e, find? ⟨data, lastOfEachName located⟩ name = some e →
      e ∈ lastOfEachName located ∧ Path.foldCase e.name = Path.foldCase (Path.dropSlashes name) :=
    fun name e hfound => ⟨mem_of_find? hfound, hstep.foldCase_of_locate (htables name ▸ hfound)⟩
  refine ⟨listed, hlisted, rfl, ?_⟩
  constructor
  case names =>
    intro name
    rw [exists_name_lastOfEachName, ← hplaced, exists_name_placed hheaders]
  case complete =>
    intro name
    constructor
    · intro hcontains
      obtain ⟨e, hfound⟩ := Option.isSome_iff_exists.mp hcontains
      exact ⟨e, hsound name e hfound⟩
    · rintro ⟨e, he, hfold⟩
      rw [contains, htables, Option.isSome_iff_ne_none]
      exact hstep.locate_ne_none (hown e he) hfold
  case missing =>
    intro name other
    rw [openEntry_eq_missing, contains_eq_false]
  case exact =>
    intro name e he hname
    rw [htables, NameIndex.locate, ← hname, hown e he]
  case sound => exact hsound
  case tables =>
    intro name
    rw [hplaced]
    exact htables name

/-- An archive of three stored entries with the names Ab, ab and Ab again. -/
def repeatedOctets : ByteArray := ⟨#[
  80, 75, 3, 4, 20, 0, 0, 0, 0, 0, 0, 0, 33, 0, 183, 239, 220, 131, 1, 0, 0, 0, 1, 0, 0, 0, 2, 0,
  0, 0, 65, 98, 49, 80, 75, 3, 4, 20, 0, 0, 0, 0, 0, 0, 0, 33, 0, 14, 23, 126, 100, 2, 0, 0, 0, 2,
  0, 0, 0, 2, 0, 0, 0, 97, 98, 50, 50, 80, 75, 3, 4, 20, 0, 0, 0, 0, 0, 0, 0, 33, 0, 253, 134,
  215, 146, 3, 0, 0, 0, 3, 0, 0, 0, 2, 0, 0, 0, 65, 98, 51, 51, 51, 80, 75, 1, 2, 20, 3, 20, 0, 0,
  0, 0, 0, 0, 0, 33, 0, 183, 239, 220, 131, 1, 0, 0, 0, 1, 0, 0, 0, 2, 0, 0, 0, 0, 0, 0, 0, 0, 0,
  0, 0, 128, 1, 0, 0, 0, 0, 65, 98, 80, 75, 1, 2, 20, 3, 20, 0, 0, 0, 0, 0, 0, 0, 33, 0, 14, 23,
  126, 100, 2, 0, 0, 0, 2, 0, 0, 0, 2, 0, 0, 0, 0, 0, 0, 0, 0, 0, 0, 0, 128, 1, 33, 0, 0, 0, 97,
  98, 80, 75, 1, 2, 20, 3, 20, 0, 0, 0, 0, 0, 0, 0, 33, 0, 253, 134, 215, 146, 3, 0, 0, 0, 3, 0,
  0, 0, 2, 0, 0, 0, 0, 0, 0, 0, 0, 0, 0, 0, 128, 1, 67, 0, 0, 0, 65, 98, 80, 75, 5, 6, 0, 0, 0, 0,
  3, 0, 3, 0, 144, 0, 0, 0, 102, 0, 0, 0, 0, 0]⟩

/-- What is left of them. -/
def repeatedEntries : List DirectoryEntry :=
  [⟨"ab", false, 0, 2, 2, 65, false⟩, ⟨"Ab", false, 0, 3, 3, 99, false⟩]

/-- Each spelling finds the last entry of it, and one that is not there the last entry of all. -/
theorem findsByName_of_ofOctets?_repeated :
    ofOctets? {} repeatedOctets = .ok ⟨repeatedOctets, repeatedEntries⟩ ∧
    ∃ listed, Archive.directory? repeatedOctets = some listed ∧ listed.length = 3 ∧
      FindsByName listed ⟨repeatedOctets, repeatedEntries⟩ ∧
      find? ⟨repeatedOctets, repeatedEntries⟩ "//Ab" = repeatedEntries[1]? ∧
      find? ⟨repeatedOctets, repeatedEntries⟩ "ab" = repeatedEntries[0]? ∧
      find? ⟨repeatedOctets, repeatedEntries⟩ "/AB" = repeatedEntries[1]? ∧
      contains ⟨repeatedOctets, repeatedEntries⟩ "b" = false := by
  have hopen : ofOctets? {} repeatedOctets = .ok ⟨repeatedOctets, repeatedEntries⟩ :=
    ofOctets?_of_entries (by decide +kernel)
  obtain ⟨listed, hlisted, -, hfinds⟩ := findsByName_of_ofOctets? hopen
  have hlength : (Archive.directory? repeatedOctets).map List.length = some 3 := by decide +kernel
  rw [hlisted] at hlength
  exact ⟨hopen, listed, hlisted, Option.some.inj hlength, hfinds,
    by decide +kernel, by decide +kernel, by decide +kernel, by decide +kernel⟩

end Container

end Xlsx
