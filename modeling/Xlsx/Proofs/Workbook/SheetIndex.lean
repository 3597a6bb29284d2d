import Xlsx.Proofs.Sheet.InsideSheet
import Xlsx.Proofs.Workbook.Opening
import Xlsx.Proofs.Workbook.PartCuts

/-! # The sheets of a workbook

Opening a workbook puts its sheets in order: one for each tag of the workbook part, with its place and
with an entry that the archive has. Whoever asks for a sheet later relies on that, by its place, by its
name, or for all sheets one after the other.

* **`Sheet.IsListed`**: what a sheet has to do with its tag.
* **`SheetList.ofStream?_listed`**, **`Workbook.locateSheets_listed`**: one listed sheet for each tag,
  one sheet for each listed sheet.
* **`Workbook.openSheet_error`**: the causes for which a sheet with an entry cannot be opened.
* **`Workbook.indexed_of_ofOctets?`**: the sheets of every workbook that is opened. -/

namespace Xlsx

open Markup (Event Tag)

/-! ## From tags to sheets -/

/-- The tag of a sheet. -/
def Markup.Event.sheetTag? : Event → Option Tag
  | start tag => if tag.localName = "sheet" then some tag else none
  | empty tag => if tag.localName = "sheet" then some tag else none
  | _ => none

/-- The tags of the sheets in a workbook part, in order. -/
def Markup.Stream.sheetTags (s : Markup.Stream) : List Tag := s.events.filterMap Event.sheetTag?

namespace SheetList

/-- One event lists a sheet if it is the tag of one. -/
theorem sheets_of_step {l after : SheetList} {e : Event} (h : l.step e = .ok after) :
    match e.sheetTag? with
    | some tag => ∃ listed, ListedSheet.ofTag? tag = .ok listed ∧ after.sheets = listed :: l.sheets
    | none => after.sheets = l.sheets := by
  -- A start tag and an empty tag are read in the same way.
  have htag : ∀ tag : Tag, l.step (.empty tag) = .ok after →
      match (Event.empty tag).sheetTag? with
      | some tag => ∃ listed, ListedSheet.ofTag? tag = .ok listed ∧ after.sheets = listed :: l.sheets
      | none => after.sheets = l.sheets := by
    intro tag h
    simp only [step] at h
    simp only [Event.sheetTag?]
    split at h
    · rename_i hname
      obtain ⟨epoch, -, rfl⟩ := map_eq_ok.mp h
      rw [if_neg (by rw [hname]; decide)]
    · rename_i hname
      obtain ⟨listed, hlisted, rfl⟩ := map_eq_ok.mp h
      rw [if_pos hname]
      exact ⟨listed, hlisted, rfl⟩
    · rename_i hname
      rw [if_neg hname, Except.ok.inj h]
  cases e with
  | start tag => exact htag tag h
  | empty tag => exact htag tag h
  | finish name => exact congrArg _ (Except.ok.inj h).symm
  | text content => exact congrArg _ (Except.ok.inj h).symm
  | literal content => exact congrArg _ (Except.ok.inj h).symm
  | aside => exact congrArg _ (Except.ok.inj h).symm

/-- Events list the sheets of their tags behind those that are listed, the last one first. -/
theorem sheets_of_foldlM {events : List Event} {l after : SheetList}
    (h : events.foldlM step l = .ok after) :
    ∃ read, List.Forall₂ (fun tag listed => ListedSheet.ofTag? tag = .ok listed)
      (events.filterMap Event.sheetTag?) read ∧ after.sheets = read.reverse ++ l.sheets := by
  induction events generalizing l with
  | nil => exact ⟨[], .nil, by rw [← Except.ok.inj h]; rfl⟩
  | cons e events ih =>
    rw [List.foldlM_cons] at h
    obtain ⟨next, hnext, hrest⟩ := bind_eq_ok.mp h
    obtain ⟨read, hread, hsheets⟩ := ih hrest
    have hone := sheets_of_step hnext
    match htag : e.sheetTag? with
    | none =>
      rw [htag] at hone
      rw [List.filterMap_cons_none htag]
      exact ⟨read, hread, by rw [hsheets, hone]⟩
    | some tag =>
      rw [htag] at hone
      obtain ⟨listed, hlisted, hone⟩ := hone
      rw [List.filterMap_cons_some htag]
      exact ⟨listed :: read, .cons hlisted hread, by rw [hsheets, hone]; simp⟩

/-- **A workbook part lists one sheet for each tag of one**, in the order of the tags. -/
theorem ofStream?_listed {s : Markup.Stream} {list : SheetList} (h : ofStream? s = .ok list) :
    List.Forall₂ (fun tag listed => ListedSheet.ofTag? tag = .ok listed) s.sheetTags list.sheets := by
  obtain ⟨last, hlast, rfl⟩ := map_eq_ok.mp h
  have hfold : s.events.foldlM step {} = .ok last := by
    obtain ⟨events, fault?⟩ := s
    cases fault? with
    | none => rwa [Markup.Stream.read_events] at hlast
    | some fault =>
      obtain ⟨cause, hcause⟩ := @Markup.Stream.read_fault _ step {} events fault
      rw [hcause] at hlast
      exact nomatch hlast
  obtain ⟨read, hread, hsheets⟩ := sheets_of_foldlM hfold
  simpa [hsheets, Markup.Stream.sheetTags] using hread

end SheetList

/-- **A sheet is that of a tag**: it has the name, the number and the visibility that the tag states, and
an entry of the archive, which is what the relationship of the tag stands for. -/
def Sheet.IsListed (c : Container) (all : List Relationship) (tag : Tag) (sheet : Sheet) : Prop :=
  ∃ r : Relationship,
    ListedSheet.ofTag? tag = .ok ⟨sheet.name, sheet.sheetId, r.id, sheet.visibility⟩ ∧
    Relationship.withId? all r.id = some r ∧ sheet.entry = r.target ∧ c.contains sheet.entry = true

namespace Workbook

/-- A listed sheet that is located. -/
theorem locateSheet_listed {c : Container} {all : List Relationship} {index : Nat} {tag : Tag}
    {listed : ListedSheet} {sheet : Sheet} (htag : ListedSheet.ofTag? tag = .ok listed)
    (h : locateSheet c all index listed = .ok sheet) :
    sheet.index = index ∧ sheet.IsListed c all tag := by
  rw [locateSheet] at h
  split at h
  · exact nomatch h
  rename_i r hr
  split at h
  · rename_i hcontains
    obtain rfl := Except.ok.inj h
    have hid : r.id = listed.relationship := by
      have := List.find?_some hr
      simpa using this
    refine ⟨rfl, r, ?_, ?_, rfl, hcontains⟩
    · rw [htag, hid]
    · rw [hid, hr]
  · exact nomatch h

/-- Sheets that are those of some tags have entries. -/
theorem found_of_listed {c : Container} {all : List Relationship} {tags : List Tag}
    {sheets : List Sheet} (h : List.Forall₂ (Sheet.IsListed c all) tags sheets) :
    ∀ sheet ∈ sheets, c.contains sheet.entry = true := by
  induction h with
  | nil => exact fun sheet hsheet => absurd hsheet List.not_mem_nil
  | cons hsheet _ ih =>
    obtain ⟨r, -, -, -, hentry⟩ := hsheet
    exact List.forall_mem_cons.mpr ⟨hentry, ih⟩

/-- **Each listed sheet is located**, and numbered by its place from `index` on. -/
theorem locateSheets_listed {c : Container} {all : List Relationship} {index : Nat} {tags : List Tag}
    {listed : List ListedSheet} {sheets : List Sheet}
    (htags : List.Forall₂ (fun tag listed => ListedSheet.ofTag? tag = .ok listed) tags listed)
    (h : locateSheets c all index listed = .ok sheets) :
    List.Forall₂ (Sheet.IsListed c all) tags sheets ∧
      ∀ (i : Nat) (sheet : Sheet), sheets[i]? = some sheet → sheet.index = index + i := by
  induction htags generalizing index sheets with
  | nil =>
    rw [← Except.ok.inj h]
    exact ⟨.nil, fun i sheet hsheet => by simp at hsheet⟩
  | cons htag _ ih =>
    obtain ⟨sheet, hsheet, h⟩ := bind_eq_ok.mp h
    obtain ⟨rest, hrest, h⟩ := bind_eq_ok.mp h
    obtain ⟨hindex, hlisted⟩ := locateSheet_listed htag hsheet
    obtain ⟨hall, hplaces⟩ := ih hrest
    rw [← Except.ok.inj h]
    refine ⟨.cons hlisted hall, fun i other hother => ?_⟩
    cases i with
    | zero =>
      rw [← Option.some.inj hother, hindex, Nat.add_zero]
    | succ i =>
      rw [hplaces i other hother]
      omega

/-! ## Asking for a sheet -/

variable {w : Workbook}

/-- A sheet is found by its place exactly where there is one. -/
theorem resolve_index (i : Nat) (sheet : Sheet) :
    w.resolve (.index i) = .ok sheet ↔ w.sheets[i]? = some sheet := by
  rw [resolve]
  cases w.sheets[i]? <;> simp

/-- No sheet is found behind the last one. -/
theorem resolve_index_error (i : Nat) :
    w.resolve (.index i) = .error (.sheetNotFound (SheetSelector.index i).label) ↔
      w.sheets.length ≤ i := by
  rw [resolve, ← List.getElem?_eq_none_iff]
  cases w.sheets[i]? <;> simp

/-- The sheet that is found by its name is the first one of that name. -/
theorem resolve_name (name : String) (sheet : Sheet) :
    w.resolve (.name name) = .ok sheet ↔
      ∃ before after, w.sheets = before ++ sheet :: after ∧ sheet.name = name ∧
        ∀ other ∈ before, other.name ≠ name := by
  have hfind : w.resolve (.name name) = .ok sheet ↔ w.sheet? name = some sheet := by
    rw [resolve]
    cases w.sheet? name <;> simp
  rw [hfind, sheet?, List.find?_eq_some_iff_append]
  constructor
  · rintro ⟨hname, before, after, hsheets, hbefore⟩
    exact ⟨before, after, hsheets, by simpa using hname, fun other hother => by
      simpa using hbefore other hother⟩
  · rintro ⟨before, after, hsheets, hname, hbefore⟩
    exact ⟨by simpa using hname, before, after, hsheets, fun other hother => by
      simpa using hbefore other hother⟩

/-- A name that no sheet has finds none. -/
theorem resolve_name_error (name : String) :
    w.resolve (.name name) = .error (.sheetNotFound (SheetSelector.name name).label) ↔
      ∀ sheet ∈ w.sheets, sheet.name ≠ name := by
  have hnone : (∀ sheet ∈ w.sheets, sheet.name ≠ name) ↔ w.sheet? name = none := by
    rw [sheet?, List.find?_eq_none]
    simp
  rw [hnone, resolve]
  cases w.sheet? name <;> simp

/-- A sheet that is found is one of the workbook. -/
theorem mem_of_resolve {selector : SheetSelector} {sheet : Sheet}
    (h : w.resolve selector = .ok sheet) : sheet ∈ w.sheets := by
  cases selector with
  | index i => exact List.mem_of_getElem? ((resolve_index i sheet).mp h)
  | name name =>
    obtain ⟨before, after, hsheets, -, -⟩ := (resolve_name name sheet).mp h
    rw [hsheets]
    simp

/-- **Why a sheet cannot be opened** whose entry is there: the entry cannot be unpacked, or what it
unpacks to holds no rows. -/
theorem openSheet_error {selector : SheetSelector} {sheet : Sheet} {o : CursorOptions} {cause : Error}
    (hsheet : w.resolve selector = .ok sheet) (hentry : w.container.contains sheet.entry = true)
    (h : w.openSheet selector o = .error cause) :
    (∃ name, cause = .format (.encrypted name)) ∨
      (∃ name method, cause = .format (.unsupportedCompression name method)) ∨
      ∃ fault, cause = .stream fault := by
  match hscan : w.container.scan sheet.entry with
  | .ok s =>
    rw [openSheet_eq hsheet hscan] at h
    cases hopen : Cursor.ofStream? sheet w.decoder o s with
    | ok c => rw [hopen] at h; exact nomatch h
    | error fault =>
      rw [hopen] at h
      exact .inr (.inr ⟨fault, (Except.error.inj h).symm⟩)
  | .error fault =>
    have hcause : cause = .format fault := by
      rw [openSheet, hsheet] at h
      simp only [bind, Except.bind, hscan, Except.mapError] at h
      exact (Except.error.inj h).symm
    subst hcause
    obtain ⟨e, he⟩ := Option.isSome_iff_exists.mp hentry
    rw [Container.scan, Container.openEntry, he] at hscan
    simp only at hscan
    split at hscan
    · exact .inl ⟨e.name, congrArg _ (Except.error.inj hscan).symm⟩
    · split at hscan
      · exact nomatch hscan
      · exact nomatch hscan
      · exact .inr (.inl ⟨e.name, _, congrArg _ (Except.error.inj hscan).symm⟩)

/-- The rows that a reader gives are those of the sheet it asks for. -/
theorem resolve_of_rows {r : SheetReader} {rows : Rows} (h : r.rows w = .ok rows) :
    w.resolve r.options.sheet = .ok rows.cursor.sheet := by
  rw [SheetReader.rows] at h
  split at h
  · obtain ⟨-, columns, -, hopen⟩ := Rows.openPlain_eq_ok.mp h
    obtain ⟨sheet, s, reading, dimension, hsheet, -, -, hcursor⟩ := openSheet_eq_ok hopen
    rw [hsheet, hcursor]
    rfl
  · obtain ⟨sheet, s, reading, dimension, start, hsheet, -, -, rfl, read, later, cells, columns, -, -,
      hcursor⟩ := Rows.openBelow_eq_ok h
    rw [hsheet, hcursor]
    rfl

/-! ## The index -/

/-- **The sheets of a workbook are in order.** -/
structure Indexed (w : Workbook) : Prop where
  /-- There is one sheet for each tag of the workbook part, in the order of the tags. -/
  listed : ∃ main stream all, mainPart w.container = .ok main ∧
    w.container.scan main = .ok stream ∧
    relationships w.container (Path.directory main) (Path.relationships main) = .ok all ∧
    List.Forall₂ (Sheet.IsListed w.container all) stream.sheetTags w.sheets
  /-- A sheet is numbered by its place. -/
  placed : ∀ (i : Nat) (sheet : Sheet), w.sheets[i]? = some sheet → sheet.index = i
  /-- The entry of a sheet is there. -/
  found : ∀ sheet ∈ w.sheets, w.container.contains sheet.entry = true
  /-- Opening a sheet never fails for want of the sheet or of its entry. -/
  opens : ∀ {selector sheet options cause}, w.resolve selector = .ok sheet →
    w.openSheet selector options = .error cause →
    (∀ label, cause ≠ .sheetNotFound label) ∧ ∀ fault, cause ≠ .format (.corruptIndex fault)
  /-- By its place a sheet is found where there is one, -/
  byPlace : ∀ (i : Nat) (sheet : Sheet), w.resolve (.index i) = .ok sheet ↔ w.sheets[i]? = some sheet
  /-- and none is found behind the last one. -/
  behind : ∀ i : Nat, w.resolve (.index i) = .error (.sheetNotFound (SheetSelector.index i).label) ↔
    w.sheets.length ≤ i
  /-- By its name the first sheet of that name is found, -/
  byName : ∀ name sheet, w.resolve (.name name) = .ok sheet ↔
    ∃ before after, w.sheets = before ++ sheet :: after ∧ sheet.name = name ∧
      ∀ other ∈ before, other.name ≠ name
  /-- and none is found by a name that no sheet has. -/
  unnamed : ∀ name, w.resolve (.name name) = .error (.sheetNotFound (SheetSelector.name name).label) ↔
    ∀ sheet ∈ w.sheets, sheet.name ≠ name
  /-- A scan goes through all sheets. -/
  scanLength : ∀ {α : Type} (r : SheetReader) (f : Sheet → Rows → Except Error α),
    (r.scanSheets w f).length = w.sheets.length
  /-- What a scan gives for a sheet is made of what its reader gives when it asks for that place. -/
  scanned : ∀ {α : Type} (r : SheetReader) (f : Sheet → Rows → Except Error α)
    (i : Nat) (sheet : Sheet),
    w.sheets[i]? = some sheet →
      (r.scanSheets w f)[i]? = some ((r.onSheet (.index i)).rows w >>= f sheet)
  /-- A reader that asks for a place gives the rows of the sheet that stands there. -/
  rowsOf : ∀ (r : SheetReader) (i : Nat) (rows : Rows), (r.onSheet (.index i)).rows w = .ok rows →
    w.sheets[i]? = some rows.cursor.sheet

/-- The workbook in an archive has its sheets in order. -/
theorem indexed_of_ofContainer? {c : Container} (h : ofContainer? c = .ok w) : w.Indexed := by
  obtain ⟨main, list, all, hmain, hlist, hall, hsheets, rfl⟩ := ofContainer?_eq_ok h
  obtain ⟨stream, hstream, hlist⟩ := bind_eq_ok.mp hlist
  obtain ⟨hlisted, hplaced⟩ :=
    locateSheets_listed (SheetList.ofStream?_listed (mapError_eq_ok.mp hlist)) hsheets
  have hplaced : ∀ (i : Nat) (sheet : Sheet), w.sheets[i]? = some sheet → sheet.index = i := fun i sheet hsheet => by
    rw [hplaced i sheet hsheet, Nat.zero_add]
  have hfound := found_of_listed hlisted
  exact {
    listed := ⟨main, stream, all, hmain, hstream, hall, hlisted⟩
    placed := hplaced
    found := hfound
    opens := fun hsheet hopen => by
      rcases openSheet_error hsheet (hfound _ (mem_of_resolve hsheet)) hopen with
        ⟨name, rfl⟩ | ⟨name, method, rfl⟩ | ⟨fault, rfl⟩ <;> simp
    byPlace := resolve_index
    behind := resolve_index_error
    byName := resolve_name
    unnamed := resolve_name_error
    scanLength := fun r f => by simp [SheetReader.scanSheets]
    scanned := fun r f i sheet hsheet => by
      rw [SheetReader.scanSheets, List.getElem?_map, hsheet, Option.map_some, hplaced i sheet hsheet]
    rowsOf := fun r i rows hrows => (resolve_index i _).mp (resolve_of_rows hrows) }

/-- **Every workbook that is opened has its sheets in order**, whatever the octets and the limits are. -/
theorem indexed_of_ofOctets? {limits : Limits} {data : ByteArray} (h : ofOctets? limits data = .ok w) :
    w.Indexed := by
  obtain ⟨c, -, hc⟩ := bind_eq_ok.mp h
  exact indexed_of_ofContainer? (mapError_eq_ok.mp hc)

/-- An archive of a workbook with two sheets named `S`, the second one behind `Target="/XL/T"` in the
entry `xl/t`. -/
def repeatedOctets : ByteArray := ⟨#[
  80, 75, 3, 4, 20, 0, 0, 0, 0, 0, 0, 0, 33, 0, 206, 24, 162, 3, 48, 0, 0, 0, 48, 0, 0, 0, 15, 0,
  0, 0, 120, 108, 47, 119, 111, 114, 107, 98, 111, 111, 107, 46, 120, 109, 108, 60, 115, 104, 101,
  101, 116, 32, 110, 97, 109, 101, 61, 34, 83, 34, 32, 105, 100, 61, 34, 49, 34, 47, 62, 60, 115,
  104, 101, 101, 116, 32, 110, 97, 109, 101, 61, 34, 83, 34, 32, 105, 100, 61, 34, 50, 34, 47, 62,
  80, 75, 3, 4, 20, 0, 0, 0, 0, 0, 0, 0, 33, 0, 103, 86, 5, 172, 70, 0, 0, 0, 70, 0, 0, 0, 26, 0,
  0, 0, 120, 108, 47, 95, 114, 101, 108, 115, 47, 119, 111, 114, 107, 98, 111, 111, 107, 46, 120,
  109, 108, 46, 114, 101, 108, 115, 60, 82, 101, 108, 97, 116, 105, 111, 110, 115, 104, 105, 112,
  32, 73, 100, 61, 34, 49, 34, 32, 84, 97, 114, 103, 101, 116, 61, 34, 115, 34, 47, 62, 60, 82,
  101, 108, 97, 116, 105, 111, 110, 115, 104, 105, 112, 32, 73, 100, 61, 34, 50, 34, 32, 84, 97,
  114, 103, 101, 116, 61, 34, 47, 88, 76, 47, 84, 34, 47, 62, 80, 75, 3, 4, 20, 0, 0, 0, 0, 0, 0,
  0, 33, 0, 174, 195, 63, 220, 29, 0, 0, 0, 29, 0, 0, 0, 4, 0, 0, 0, 120, 108, 47, 115, 60, 115,
  104, 101, 101, 116, 68, 97, 116, 97, 62, 60, 114, 111, 119, 47, 62, 60, 47, 115, 104, 101, 101,
  116, 68, 97, 116, 97, 62, 80, 75, 3, 4, 20, 0, 0, 0, 0, 0, 0, 0, 33, 0, 13, 246, 112, 23, 12, 0,
  0, 0, 12, 0, 0, 0, 4, 0, 0, 0, 120, 108, 47, 116, 60, 115, 104, 101, 101, 116, 68, 97, 116, 97,
  47, 62, 80, 75, 1, 2, 20, 0, 20, 0, 0, 0, 0, 0, 0, 0, 33, 0, 206, 24, 162, 3, 48, 0, 0, 0, 48, 0,
  0, 0, 15, 0, 0, 0, 0, 0, 0, 0, 0, 0, 0, 0, 128, 1, 0, 0, 0, 0, 120, 108, 47, 119, 111, 114, 107,
  98, 111, 111, 107, 46, 120, 109, 108, 80, 75, 1, 2, 20, 0, 20, 0, 0, 0, 0, 0, 0, 0, 33, 0, 103,
  86, 5, 172, 70, 0, 0, 0, 70, 0, 0, 0, 26, 0, 0, 0, 0, 0, 0, 0, 0, 0, 0, 0, 128, 1, 93, 0, 0, 0,
  120, 108, 47, 95, 114, 101, 108, 115, 47, 119, 111, 114, 107, 98, 111, 111, 107, 46, 120, 109,
  108, 46, 114, 101, 108, 115, 80, 75, 1, 2, 20, 0, 20, 0, 0, 0, 0, 0, 0, 0, 33, 0, 174, 195, 63,
  220, 29, 0, 0, 0, 29, 0, 0, 0, 4, 0, 0, 0, 0, 0, 0, 0, 0, 0, 0, 0, 128, 1, 219, 0, 0, 0, 120,
  108, 47, 115, 80, 75, 1, 2, 20, 0, 20, 0, 0, 0, 0, 0, 0, 0, 33, 0, 13, 246, 112, 23, 12, 0, 0, 0,
  12, 0, 0, 0, 4, 0, 0, 0, 0, 0, 0, 0, 0, 0, 0, 0, 128, 1, 26, 1, 0, 0, 120, 108, 47, 116, 80, 75,
  5, 6, 0, 0, 0, 0, 4, 0, 4, 0, 233, 0, 0, 0, 72, 1, 0, 0, 0, 0]⟩

/-- Its sheets, the one that their name finds, and whether a scan finds a row in each. -/
theorem indexed_of_ofOctets?_repeated : ∃ w, ofOctets? {} repeatedOctets = .ok w ∧ w.Indexed ∧
    w.sheets.map (fun s => (s.name, s.index, s.entry)) = [("S", 0, "xl/s"), ("S", 1, "XL/T")] ∧
    (w.resolve (.name "S")).map Sheet.index = .ok 0 ∧
    SheetReader.scanSheets ⟨{}, rfl⟩ w (fun _ rows => rows.next.1.map Option.isSome) =
      [.ok true, .ok false] := by
  have hseen : (ofOctets? {} repeatedOctets).map (fun w =>
      (w.sheets.map (fun s => (s.name, s.index, s.entry)), (w.resolve (.name "S")).map Sheet.index,
        SheetReader.scanSheets ⟨{}, rfl⟩ w fun _ rows => rows.next.1.map Option.isSome)) =
      .ok ([("S", 0, "xl/s"), ("S", 1, "XL/T")], .ok 0, [.ok true, .ok false]) := by decide +kernel
  obtain ⟨w, hw, heq⟩ := map_eq_ok.mp hseen
  simp only [Prod.mk.injEq] at heq
  exact ⟨w, hw, indexed_of_ofOctets? hw, heq⟩

end Workbook

end Xlsx
