import Mathlib.Data.List.Basic
import Xlsx.Proofs.Except
import Xlsx.Workbook

/-! # Opening workbooks

What opening keeps of the octets it is given, and an archive that can be opened.

* **`Container.ofOctets?_eq_ok`**: what an archive holds that is opened, and what was checked of it.
* **`Workbook.ofContainer?_eq_ok`**: where the sheets of a workbook that is opened come from.
* **`Container.data_of_ofOctets?`**, **`Workbook.container_of_ofContainer?`**: nothing of the octets
  and of the archive is changed.
* **`Workbook.ofOctets?_stored`**: a small workbook with gaps in its sheet, from its octets. -/

namespace Xlsx

/-- **An archive that is opened** holds the octets that it was made of and the last entry of each name
that its directory lists, and both were checked. -/
theorem Container.ofOctets?_eq_ok {limits : Limits} {data : ByteArray} {c : Container}
    (h : ofOctets? limits data = .ok c) :
    ∃ listed located, limits.checkInput data.size = .ok () ∧ Archive.directory? data = some listed ∧
      listed.length ≤ limits.maxEntryCount ∧ locateData data 0 [] listed = .ok located ∧
      limits.checkEntries ((lastOfEachName located).map fun e => (e.name, e.size)) = .ok () ∧
      c = ⟨data, lastOfEachName located⟩ := by
  simp only [ofOctets?] at h
  obtain ⟨⟨⟩, hinput, h⟩ := bind_eq_ok.mp h
  split at h
  · simp at h
  split at h
  · simp at h
  rename_i listed hlisted
  split at h
  · simp at h
  rename_i hcount
  obtain ⟨located, hlocated, h⟩ := bind_eq_ok.mp h
  obtain ⟨⟨⟩, hentries, h⟩ := bind_eq_ok.mp h
  exact ⟨listed, located, mapError_eq_ok.mp hinput, hlisted, Nat.le_of_not_lt hcount,
    mapError_eq_ok.mp hlocated, mapError_eq_ok.mp hentries, (Except.ok.inj h).symm⟩

/-- Who opens an archive gets the octets that it was made of. -/
theorem Container.data_of_ofOctets? {limits : Limits} {data : ByteArray} {c : Container}
    (h : ofOctets? limits data = .ok c) : c.data = data := by
  obtain ⟨listed, located, -, -, -, -, -, rfl⟩ := ofOctets?_eq_ok h
  rfl

/-- **A workbook that is opened** keeps its archive and has the sheets that its workbook part lists, each
located by the relationships of that part. -/
theorem Workbook.ofContainer?_eq_ok {c : Container} {w : Workbook} (h : ofContainer? c = .ok w) :
    ∃ main list all, mainPart c = .ok main ∧ readPart SheetList.ofStream? c main = .ok list ∧
      relationships c (Path.directory main) (Path.relationships main) = .ok all ∧
      locateSheets c all 0 list.sheets = .ok w.sheets ∧ w.container = c := by
  simp only [ofContainer?] at h
  obtain ⟨main, hmain, h⟩ := bind_eq_ok.mp h
  obtain ⟨list, hlist, h⟩ := bind_eq_ok.mp h
  obtain ⟨all, hall, h⟩ := bind_eq_ok.mp h
  obtain ⟨sheets, hsheets, h⟩ := bind_eq_ok.mp h
  refine ⟨main, list, all, hmain, hlist, hall, ?_⟩
  -- Whether there are strings and styles says nothing of the sheets.
  split at h <;>
    obtain ⟨strings, -, h⟩ := bind_eq_ok.mp h <;>
    split at h <;>
    obtain ⟨styles, -, h⟩ := bind_eq_ok.mp h <;>
    rw [← Except.ok.inj h] <;>
    exact ⟨mapError_eq_ok.mp hsheets, rfl⟩

/-- A workbook keeps the archive that it was read from. -/
theorem Workbook.container_of_ofContainer? {c : Container} {w : Workbook}
    (h : ofContainer? c = .ok w) : w.container = c := by
  obtain ⟨main, list, all, -, -, -, -, hcontainer⟩ := ofContainer?_eq_ok h
  exact hcontainer

/-- The workbook in some octets is that in the archive that they hold. -/
theorem Workbook.ofOctets?_of_ok {limits : Limits} {data : ByteArray} {c : Container} {w : Workbook}
    (hc : Container.ofOctets? limits data = .ok c) (hw : ofContainer? c = .ok w) :
    ofOctets? limits data = .ok w := by
  rw [ofOctets?, hc]
  exact mapError_eq_ok.mpr hw

/-- An archive of a workbook with one sheet: in its first row there are truth values in the columns `A` and
`C`, and in its third row in the column `B`. -/
def Workbook.storedOctets : ByteArray := ⟨#[
  80, 75, 3, 4, 20, 0, 0, 0, 0, 0, 0, 0, 33, 0, 52, 219, 94, 168, 24, 0, 0, 0, 24, 0, 0, 0, 15, 0,
  0, 0, 120, 108, 47, 119, 111, 114, 107, 98, 111, 111, 107, 46, 120, 109, 108, 60, 115, 104, 101,
  101, 116, 32, 110, 97, 109, 101, 61, 34, 83, 34, 32, 105, 100, 61, 34, 49, 34, 47, 62, 80, 75,
  3, 4, 20, 0, 0, 0, 0, 0, 0, 0, 33, 0, 255, 3, 53, 226, 33, 0, 0, 0, 33, 0, 0, 0, 26, 0, 0, 0,
  120, 108, 47, 95, 114, 101, 108, 115, 47, 119, 111, 114, 107, 98, 111, 111, 107, 46, 120, 109,
  108, 46, 114, 101, 108, 115, 60, 82, 101, 108, 97, 116, 105, 111, 110, 115, 104, 105, 112, 32,
  73, 100, 61, 34, 49, 34, 32, 84, 97, 114, 103, 101, 116, 61, 34, 115, 34, 47, 62, 80, 75, 3, 4,
  20, 0, 0, 0, 0, 0, 0, 0, 33, 0, 243, 220, 213, 162, 128, 0, 0, 0, 128, 0, 0, 0, 4, 0, 0, 0, 120,
  108, 47, 115, 60, 115, 104, 101, 101, 116, 68, 97, 116, 97, 62, 60, 114, 111, 119, 62, 60, 99,
  32, 116, 61, 34, 98, 34, 62, 60, 118, 62, 49, 60, 47, 118, 62, 60, 47, 99, 62, 60, 99, 32, 114,
  61, 34, 67, 49, 34, 32, 116, 61, 34, 98, 34, 62, 60, 118, 62, 48, 60, 47, 118, 62, 60, 47, 99,
  62, 60, 47, 114, 111, 119, 62, 60, 114, 111, 119, 32, 114, 61, 34, 51, 34, 62, 60, 99, 32, 114,
  61, 34, 66, 51, 34, 32, 116, 61, 34, 98, 34, 62, 60, 118, 62, 49, 60, 47, 118, 62, 60, 47, 99,
  62, 60, 47, 114, 111, 119, 62, 60, 47, 115, 104, 101, 101, 116, 68, 97, 116, 97, 62, 80, 75, 1,
  2, 20, 0, 20, 0, 0, 0, 0, 0, 0, 0, 33, 0, 52, 219, 94, 168, 24, 0, 0, 0, 24, 0, 0, 0, 15, 0, 0,
  0, 0, 0, 0, 0, 0, 0, 0, 0, 128, 1, 0, 0, 0, 0, 120, 108, 47, 119, 111, 114, 107, 98, 111, 111,
  107, 46, 120, 109, 108, 80, 75, 1, 2, 20, 0, 20, 0, 0, 0, 0, 0, 0, 0, 33, 0, 255, 3, 53, 226,
  33, 0, 0, 0, 33, 0, 0, 0, 26, 0, 0, 0, 0, 0, 0, 0, 0, 0, 0, 0, 128, 1, 69, 0, 0, 0, 120, 108,
  47, 95, 114, 101, 108, 115, 47, 119, 111, 114, 107, 98, 111, 111, 107, 46, 120, 109, 108, 46,
  114, 101, 108, 115, 80, 75, 1, 2, 20, 0, 20, 0, 0, 0, 0, 0, 0, 0, 33, 0, 243, 220, 213, 162,
  128, 0, 0, 0, 128, 0, 0, 0, 4, 0, 0, 0, 0, 0, 0, 0, 0, 0, 0, 0, 128, 1, 158, 0, 0, 0, 120, 108,
  47, 115, 80, 75, 5, 6, 0, 0, 0, 0, 3, 0, 3, 0, 183, 0, 0, 0, 64, 1, 0, 0, 0, 0]⟩

deriving instance DecidableEq for Archive.DirectoryEntry, Markup.Tag, Markup.Event, Markup.Stream

/-- The workbook in this archive. -/
def Workbook.stored : Workbook where
  container := ⟨storedOctets, [
    ⟨"xl/workbook.xml", false, 0, 24, 24, 45, false⟩,
    ⟨"xl/_rels/workbook.xml.rels", false, 0, 33, 33, 125, false⟩,
    ⟨"xl/s", false, 0, 128, 128, 192, false⟩]⟩
  sheets := [⟨"S", 0, 0, .visible, "xl/s"⟩]
  strings := {}
  styles := {}
  epoch := .since1900

/-- Which entries an archive has is all there is to say of it besides its octets. -/
theorem Container.ofOctets?_of_entries {limits : Limits} {data : ByteArray}
    {found : List Archive.DirectoryEntry} (h : (ofOctets? limits data).map entries = .ok found) :
    ofOctets? limits data = .ok ⟨data, found⟩ := by
  obtain ⟨c, hc, rfl⟩ := map_eq_ok.mp h
  rw [hc, ← data_of_ofOctets? hc]

/-- What opening a workbook finds is all there is to say of it besides its archive. -/
theorem Workbook.ofContainer?_of_parts {w : Workbook}
    (h : (ofContainer? w.container).map (fun found => (found.sheets, found.strings, found.styles, found.epoch)) =
      .ok (w.sheets, w.strings, w.styles, w.epoch)) : ofContainer? w.container = .ok w := by
  obtain ⟨found, hfound, heq⟩ := map_eq_ok.mp h
  have hcontainer := container_of_ofContainer? hfound
  rw [hfound]
  cases found
  simp only [Prod.mk.injEq] at hcontainer heq
  obtain ⟨rfl, rfl, rfl, rfl⟩ := heq
  rw [hcontainer]

/-- The octets are an archive. -/
theorem Container.ofOctets?_stored : ofOctets? {} Workbook.storedOctets = .ok Workbook.stored.container :=
  ofOctets?_of_entries (by decide +kernel)

/-- The archive is a workbook. -/
theorem Workbook.ofContainer?_stored : ofContainer? stored.container = .ok stored :=
  ofContainer?_of_parts (by decide +kernel)

/-- So the octets are opened as this workbook. -/
theorem Workbook.ofOctets?_stored : ofOctets? {} storedOctets = .ok stored :=
  ofOctets?_of_ok Container.ofOctets?_stored ofContainer?_stored

/-- The events of its sheet. -/
def Workbook.storedStream : Markup.Stream where
  events := [.start ⟨"sheetData", []⟩,
    .start ⟨"row", []⟩,
    .start ⟨"c", [.ok ⟨"t", [0x62]⟩]⟩, .start ⟨"v", []⟩, .text (.ok "1"), .finish "v", .finish "c",
    .start ⟨"c", [.ok ⟨"r", [0x43, 0x31]⟩, .ok ⟨"t", [0x62]⟩]⟩, .start ⟨"v", []⟩, .text (.ok "0"),
    .finish "v", .finish "c",
    .finish "row",
    .start ⟨"row", [.ok ⟨"r", [0x33]⟩]⟩,
    .start ⟨"c", [.ok ⟨"r", [0x42, 0x33]⟩, .ok ⟨"t", [0x62]⟩]⟩, .start ⟨"v", []⟩, .text (.ok "1"),
    .finish "v", .finish "c",
    .finish "row", .finish "sheetData"]

end Xlsx
