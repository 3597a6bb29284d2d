import Mathlib.Algebra.GroupWithZero.Nat
import Xlsx.Proofs.Archive.Unpacking
import Xlsx.Proofs.Workbook.Opening

/-! # Bounds of an archive

An archive that is opened keeps its limits, and goes on keeping them while it is read: what its
directory says of an entry is never trusted beyond the octets that there are, and no reader delivers
more than was declared, in portions of whatever size it is asked.

* **`Limits.checkFrom_cons_eq_ok`**, **`Limits.checkEntries_eq_ok`**: what the check asks of one entry,
  and of all of them.
* **`Container.find?_own`**: every entry is found by its own name.
* **`EntryReader.Reads`**: any number of reads, one after the other.
* **`EntryReader.Reads.stored`**, **`EntryReader.Reads.deflated`**: what they do to a reader.
* **`Container.withinLimits_of_ofOctets?`**: every archive that is opened, and its readers. -/

namespace Xlsx

open Archive (DirectoryEntry)
open Inflate (Inflater)

/-! ## The check -/

namespace Limits

/-- One entry passes the check if it may be counted, has a safe name, is not too large, and neither are
the entries so far. -/
theorem checkFrom_cons_eq_ok {l : Limits} {count total size : Nat} {name : String}
    {entries : List (String × Nat)} :
    l.checkFrom count total ((name, size) :: entries) = .ok () ↔
      (count + 1 ≤ l.maxEntryCount ∧ Path.check name = .ok () ∧ size ≤ l.maxEntrySize ∧
        total + size < sizeLimit ∧ total + size ≤ l.maxTotalSize) ∧
      l.checkFrom (count + 1) (total + size) entries = .ok () := by
  rw [checkFrom]
  cases hpath : Path.check name with
  | error cause => split <;> simp
  | ok safe =>
    simp only [true_and]
    -- The limits are checked one by one, and the first that is broken is the end.
    split
    · simp only [reduceCtorEq, false_iff]
      omega
    split
    · simp only [reduceCtorEq, false_iff]
      omega
    split
    · simp only [reduceCtorEq, false_iff]
      omega
    split
    · simp only [reduceCtorEq, false_iff]
      omega
    · exact ⟨fun h => ⟨by omega, h⟩, And.right⟩

/-- Entries behind `count` others of `total` octets in all that keep the limits. -/
theorem checkFrom_eq_ok {l : Limits} {entries : List (String × Nat)} {count total : Nat}
    (hcount : count ≤ l.maxEntryCount) (hsum : total < sizeLimit) (htotal : total ≤ l.maxTotalSize) :
    l.checkFrom count total entries = .ok () ↔
      count + entries.length ≤ l.maxEntryCount ∧
      (∀ p ∈ entries, Path.check p.1 = .ok () ∧ p.2 ≤ l.maxEntrySize) ∧
      total + (entries.map (·.2)).sum < sizeLimit ∧
      total + (entries.map (·.2)).sum ≤ l.maxTotalSize := by
  induction entries generalizing count total with
  | nil => simp [checkFrom, hcount, hsum, htotal]
  | cons p entries ih =>
    obtain ⟨name, size⟩ := p
    rw [checkFrom_cons_eq_ok, List.length_cons, List.map_cons, List.sum_cons, List.forall_mem_cons]
    constructor
    · rintro ⟨⟨hcount, hpath, hsize, hsum, htotal⟩, hrest⟩
      obtain ⟨hcounts, heach, hsums, htotals⟩ := (ih hcount hsum htotal).mp hrest
      exact ⟨by omega, ⟨⟨hpath, hsize⟩, heach⟩, by omega, by omega⟩
    · rintro ⟨hcounts, ⟨⟨hpath, hsize⟩, heach⟩, hsums, htotals⟩
      refine ⟨⟨by omega, hpath, hsize, by omega, by omega⟩, ?_⟩
      exact (ih (by omega) (by omega) (by omega)).mpr ⟨by omega, heach, by omega, by omega⟩

/-- **The entries of an archive pass the check** if there are no more of them than allowed, each has a
safe name and is not too large, and neither are all of them together. -/
theorem checkEntries_eq_ok {l : Limits} {entries : List (String × Nat)} :
    l.checkEntries entries = .ok () ↔
      entries.length ≤ l.maxEntryCount ∧
      (∀ p ∈ entries, Path.check p.1 = .ok () ∧ p.2 ≤ l.maxEntrySize) ∧
      (entries.map (·.2)).sum < sizeLimit ∧ (entries.map (·.2)).sum ≤ l.maxTotalSize := by
  have h := @checkFrom_eq_ok l entries 0 0 (Nat.zero_le _) (by decide) (Nat.zero_le _)
  simpa only [checkEntries, Nat.zero_add] using h

/-- An input passes if it is no larger than the limit. -/
theorem checkInput_eq_ok {l : Limits} {size : Nat} :
    l.checkInput size = .ok () ↔ size ≤ l.maxInputSize := by
  rw [checkInput]
  split
  · simp only [reduceCtorEq, false_iff]
    omega
  · simp only [true_iff]
    omega

end Limits

/-! ## The index -/

/-- A safe path does not start at the root. -/
theorem Path.dropSlashes_of_check {name : String} (h : Path.check name = .ok ()) :
    Path.dropSlashes name = name := by
  simp only [Path.check] at h
  split at h
  · exact nomatch h
  split at h
  · exact nomatch h
  rename_i habsolute
  have hhead : name.toList.head? ≠ some '/' := fun hroot => habsolute (.inl hroot)
  have hkept : name.toList.dropWhile (· == '/') = name.toList := by
    match hcs : name.toList with
    | [] => rfl
    | c :: cs =>
      rw [hcs] at hhead
      rw [List.dropWhile_cons_of_neg]
      simpa using hhead
  rw [Path.dropSlashes, hkept, String.ofList_toList]

namespace Container

/-- Of each name one entry is left. -/
theorem names_lastOfEachName (entries : List DirectoryEntry) :
    ((lastOfEachName entries).map (·.name)).Nodup := by
  induction entries with
  | nil => exact List.nodup_nil
  | cons e entries ih =>
    rw [lastOfEachName, List.foldr_cons]
    -- What is kept of the entries behind it decides whether it is kept.
    change (List.map _ (if (lastOfEachName entries).any (·.name == e.name) then lastOfEachName entries
      else e :: lastOfEachName entries)).Nodup
    split
    · exact ih
    · rename_i hnew
      refine List.nodup_cons.mpr ⟨fun hmem => hnew ?_, ih⟩
      obtain ⟨other, hother, hname⟩ := List.mem_map.mp hmem
      exact List.any_eq_true.mpr ⟨other, hother, by simpa using hname⟩

/-- Where names are different, an entry is the first one of its name. -/
theorem find?_name_of_mem {entries : List DirectoryEntry} {e : DirectoryEntry}
    (hnames : (entries.map (·.name)).Nodup) (he : e ∈ entries) :
    entries.find? (·.name == e.name) = some e := by
  induction entries with
  | nil => exact absurd he List.not_mem_nil
  | cons first rest ih =>
    obtain ⟨hfirst, hrest⟩ := List.nodup_cons.mp hnames
    rcases List.mem_cons.mp he with rfl | he
    · rw [List.find?_cons_of_pos (by simp)]
    · have hother : first.name ≠ e.name := fun hname =>
        hfirst (List.mem_map.mpr ⟨e, he, hname.symm⟩)
      rw [List.find?_cons_of_neg (by simpa using hother)]
      exact ih hrest he

/-- **An entry with a safe name is found by it**, if no other entry has the name. -/
theorem find?_own {c : Container} {e : DirectoryEntry} (hnames : (c.entries.map (·.name)).Nodup)
    (he : e ∈ c.entries) (hpath : Path.check e.name = .ok ()) : c.find? e.name = some e := by
  rw [find?, Path.dropSlashes_of_check hpath]
  simp only [find?_name_of_mem hnames he]

end Container

/-! ## Reading an entry -/

namespace EntryReader

/-- **Reads of given sizes**, one after the other, and what each one delivers. After a read that fails
there may be others; all that is known of the unpacking then is that it is still that of the same
octets. -/
inductive Reads : EntryReader → List Nat → List ByteArray → EntryReader → Prop
  | none (r : EntryReader) : Reads r [] [] r
  | delivered {r next after : EntryReader} {n : Nat} {octets : ByteArray} {sizes : List Nat}
      {outputs : List ByteArray} (h : r.read n = some (octets, next))
      (rest : Reads next sizes outputs after) : Reads r (n :: sizes) (octets :: outputs) after
  | failed {z next : Inflater} {left n : Nat} {after : EntryReader} {sizes : List Nat}
      {outputs : List ByteArray} (h : (deflated z left).read n = none) (hnext : z.ReadsOn next)
      (rest : Reads (deflated next left) sizes outputs after) :
      Reads (deflated z left) (n :: sizes) (.empty :: outputs) after

/-- What several reads deliver, one behind the other. -/
def joined (outputs : List ByteArray) : ByteArray := outputs.foldr (· ++ ·) .empty

/-- What one read delivers is taken off what may still be delivered. -/
theorem size_add_left_of_read {r after : EntryReader} {n : Nat} {octets : ByteArray}
    (h : r.read n = some (octets, after)) : octets.size + after.left = r.left := by
  cases r with
  | stored window left =>
    obtain ⟨rfl, rfl⟩ := Prod.mk.inj (Option.some.inj h)
    simp only [EntryReader.left, ByteArray.size_extract]
    omega
  | deflated z left =>
    rw [read] at h
    split at h
    · obtain ⟨rfl, rfl⟩ := Prod.mk.inj (Option.some.inj h)
      exact Nat.zero_add left
    · obtain ⟨p, hp, heq⟩ := Option.map_eq_some_iff.mp h
      obtain ⟨rfl, rfl⟩ := Prod.mk.inj heq
      have hsize : p.1.size ≤ min n left := Inflater.size_le_of_read hp
      simp only [EntryReader.left]
      omega

/-- **What all reads deliver** is taken off what may still be delivered. -/
theorem Reads.total_add_left {r after : EntryReader} {sizes : List Nat} {outputs : List ByteArray}
    (h : r.Reads sizes outputs after) : (outputs.map ByteArray.size).sum + after.left = r.left := by
  induction h with
  | none r => exact Nat.zero_add _
  | delivered hread _ ih =>
    rw [List.map_cons, List.sum_cons, Nat.add_assoc, ih, size_add_left_of_read hread]
  | failed _ _ _ ih =>
    rw [List.map_cons, List.sum_cons, Nat.add_assoc, ih]
    exact Nat.zero_add _

/-- **Reads of a stored entry** deliver what their sizes ask for all together, as far as there is any:
where one ends the next begins. -/
theorem Reads.stored {window : Window} {left : Nat} {sizes : List Nat} {outputs : List ByteArray}
    {after : EntryReader} (hposition : window.position ≤ window.stop)
    (hstop : window.stop ≤ window.data.size) (h : (stored window left).Reads sizes outputs after) :
    ∃ p, p = min (window.position + min sizes.sum left) window.stop ∧
      after = .stored { window with position := p } (left - (p - window.position)) ∧
      joined outputs = window.data.extract window.position p := by
  -- By induction on the reads, behind each of which the window stands where the next one begins.
  generalize hr : EntryReader.stored window left = r at h
  induction h generalizing window left with
  | none r =>
    refine ⟨window.position, ?_, ?_, ?_⟩
    · simp only [List.sum_nil]
      omega
    · rw [← hr, Nat.sub_self]
      rfl
    · exact (ByteArray.extract_eq_empty_iff.mpr (Nat.min_le_left _ _)).symm
  | @delivered r next after n octets sizes outputs hread rest ih =>
    subst hr
    obtain ⟨hoctets, hnext⟩ := Prod.mk.inj (Option.some.inj hread)
    obtain ⟨q, hq⟩ : ∃ q, q = min (window.position + min n left) window.stop := ⟨_, rfl⟩
    have hoctets : octets = window.data.extract window.position q := by
      rw [hq]
      exact hoctets.symm
    have hsize : octets.size = q - window.position := by
      rw [hoctets, ByteArray.size_extract]
      omega
    have hnext : EntryReader.stored { window with position := q } (left - octets.size) = next := by
      rw [← hnext, hoctets, hq]
    have hbehind : q ≤ window.stop := hq ▸ Nat.min_le_right _ _
    obtain ⟨p, hp, hafter, hjoined⟩ :=
      @ih { window with position := q } (left - octets.size) hbehind hstop hnext
    simp only [hsize] at hp hafter hjoined
    have hle : window.position ≤ q ∧ q ≤ p := by omega
    refine ⟨p, ?_, ?_, ?_⟩
    · rw [hp, List.sum_cons]
      omega
    · rw [hafter]
      congr 1
      omega
    · rw [joined, List.foldr_cons, ← joined, hjoined, hoctets, ByteArray.extract_append_extract,
        Nat.min_eq_left hle.1, Nat.max_eq_right hle.2]
  | failed => exact nomatch hr

/-- **Reads of a compressed entry** go on in the same octets. -/
theorem Reads.deflated {z : Inflater} {left : Nat} {sizes : List Nat} {outputs : List ByteArray}
    {after : EntryReader} (hz : z.state.reader.stop ≤ z.state.reader.data.size)
    (h : (deflated z left).Reads sizes outputs after) :
    ∃ later rest, after = .deflated later rest ∧ z.ReadsOn later := by
  generalize hr : EntryReader.deflated z left = r at h
  induction h generalizing z left with
  | none r => exact ⟨z, left, hr.symm, .refl z⟩
  | @delivered r next after n octets sizes outputs hread rest ih =>
    subst hr
    rw [read] at hread
    split at hread
    · obtain ⟨-, rfl⟩ := Prod.mk.inj (Option.some.inj hread)
      exact ih hz rfl
    · obtain ⟨p, hp, heq⟩ := Option.map_eq_some_iff.mp hread
      obtain ⟨-, rfl⟩ := Prod.mk.inj heq
      have hone := Inflater.readsOn_read hz hp
      obtain ⟨later, rest, hafter, hall⟩ := ih (hone.data ▸ hone.fits hz) rfl
      exact ⟨later, rest, hafter, hone.trans hall⟩
  | @failed z' next left' n after sizes outputs hread hnext rest ih =>
    obtain ⟨rfl, rfl⟩ := EntryReader.deflated.inj hr
    obtain ⟨later, rest, hafter, hall⟩ := ih (hnext.data ▸ hnext.fits hz) rfl
    exact ⟨later, rest, hafter, hnext.trans hall⟩

/-- Where a reader stands whose entry begins at `start`: the octets before are taken from the archive. -/
def position (start : Nat) : EntryReader → Nat
  | .stored window _ => window.position
  | .deflated z _ => start + z.state.reader.stop

/-- The end of the octets that a reader may take whose entry begins at `start`. -/
def stop (start : Nat) : EntryReader → Nat
  | .stored window _ => window.stop
  | .deflated z _ => start + z.state.reader.data.size

end EntryReader

/-! ## The readers of an archive -/

/-- The first octets of a window. -/
theorem Window.extract_contents (w : Window) (n : Nat) :
    w.contents.extract 0 n = w.data.extract w.position (min (w.position + n) w.stop) := by
  rw [contents, ByteArray.extract_extract, Nat.add_zero]

namespace Container

variable {c : Container} {e : DirectoryEntry} {r : EntryReader}

/-- **A reader keeps to its entry**, whatever it is asked for. -/
structure KeepsTo (c : Container) (e : DirectoryEntry) (r : EntryReader) : Prop where
  /-- It stands inside the octets of the entry, and these inside those of the archive. -/
  inside : ∀ {sizes outputs after}, r.Reads sizes outputs after →
    (c.stored e).position ≤ after.position (c.stored e).position ∧
    after.position (c.stored e).position ≤ after.stop (c.stored e).position ∧
    after.stop (c.stored e).position = (c.stored e).stop ∧ (c.stored e).stop ≤ c.data.size
  /-- It never delivers more than the directory declares. -/
  declared : ∀ {sizes outputs after}, r.Reads sizes outputs after →
    (outputs.map ByteArray.size).sum + after.left = e.size
  /-- Of a stored entry it delivers what is asked for all together, however that is divided. -/
  divided : e.method = 0 → ∀ {sizes outputs after}, r.Reads sizes outputs after →
    EntryReader.joined outputs = (c.stored e).contents.extract 0 (min sizes.sum e.size)
  /-- Once there is nothing more of a stored entry, all of it was delivered. -/
  whole : e.method = 0 → ∀ {sizes outputs after n octets later}, r.Reads sizes outputs after →
    0 < n → after.read n = some (octets, later) → octets.size = 0 →
      EntryReader.joined outputs = (c.stored e).contents.extract 0 e.size

/-- What is opened is a stored or a deflated entry that is found by its name. -/
theorem openEntry_eq_ok {name : String} (h : c.openEntry name = .ok r) :
    ∃ e, c.find? name = some e ∧
      (e.method = 0 ∧ r = .stored (c.stored e) e.size ∨
        e.method = 8 ∧ r = .deflated (.ofOctets (c.stored e).contents) e.size) := by
  rw [openEntry] at h
  split at h
  · exact nomatch h
  rename_i e he
  refine ⟨e, he, ?_⟩
  split at h
  · exact nomatch h
  split at h
  · exact .inl ⟨‹_›, (Except.ok.inj h).symm⟩
  · exact .inr ⟨‹_›, (Except.ok.inj h).symm⟩
  · exact nomatch h

/-- The octets of an entry lie inside those of the archive, wherever the directory says they are. -/
theorem stored_inside (c : Container) (e : DirectoryEntry) :
    (c.stored e).position ≤ (c.stored e).stop ∧ (c.stored e).stop ≤ (c.stored e).data.size :=
  ⟨Window.position_le_stop_clamped _ _ _, Window.stop_clamped_le _ _ _⟩

/-- The reader of a stored entry. -/
theorem keepsTo_stored (c : Container) (e : DirectoryEntry) :
    c.KeepsTo e (.stored (c.stored e) e.size) := by
  obtain ⟨hposition, hstop⟩ := stored_inside c e
  constructor
  case inside =>
    intro sizes outputs after h
    obtain ⟨p, hp, rfl, -⟩ := h.stored hposition hstop
    have hle : (c.stored e).position ≤ p ∧ p ≤ (c.stored e).stop := by omega
    exact ⟨hle.1, hle.2, rfl, hstop⟩
  case declared => exact fun h => h.total_add_left
  case divided =>
    intro _ sizes outputs after h
    obtain ⟨p, rfl, -, hjoined⟩ := h.stored hposition hstop
    rw [hjoined, Window.extract_contents]
  case whole =>
    intro _ sizes outputs after n octets later h hn hread hoctets
    obtain ⟨p, hp, rfl, hjoined⟩ := h.stored hposition hstop
    obtain ⟨rfl, -⟩ := Prod.mk.inj (Option.some.inj hread)
    rw [ByteArray.size_extract] at hoctets
    have hlast : p = min ((c.stored e).position + e.size) (c.stored e).stop := by
      simp only at hoctets
      omega
    rw [hjoined, Window.extract_contents, hlast]

/-- The reader of a compressed entry. -/
theorem keepsTo_deflated (hmethod : e.method = 8) :
    c.KeepsTo e (.deflated (.ofOctets (c.stored e).contents) e.size) := by
  obtain ⟨hposition, hstop⟩ := stored_inside c e
  constructor
  case inside =>
    intro sizes outputs after h
    obtain ⟨later, rest, rfl, hlater⟩ := h.deflated (Nat.zero_le _)
    have hfits : later.state.reader.stop ≤ (c.stored e).contents.size := hlater.fits (Nat.zero_le _)
    have hdata : later.state.reader.data = (c.stored e).contents := hlater.data
    have hsize : (c.stored e).position + (c.stored e).contents.size = (c.stored e).stop := by
      rw [Window.contents, ByteArray.size_extract]
      omega
    rw [EntryReader.position, EntryReader.stop, hdata, hsize]
    exact ⟨Nat.le_add_right _ _, by omega, rfl, hstop⟩
  case declared => exact fun h => h.total_add_left
  case divided => exact fun hstored => absurd (hmethod.symm.trans hstored) (by decide)
  case whole => exact fun hstored => absurd (hmethod.symm.trans hstored) (by decide)

/-- **An archive within its limits.** -/
structure WithinLimits (limits : Limits) (c : Container) : Prop where
  input : c.data.size ≤ limits.maxInputSize
  count : c.entries.length ≤ limits.maxEntryCount
  path : ∀ e ∈ c.entries, Path.check e.name = .ok ()
  size : ∀ e ∈ c.entries, e.size ≤ limits.maxEntrySize
  /-- The entries have different names, and are not too large all together. -/
  names : (c.entries.map (·.name)).Nodup
  total : (c.entries.map (·.size)).sum ≤ limits.maxTotalSize
  /-- Every entry is found by its name. -/
  own : ∀ e ∈ c.entries, c.find? e.name = some e
  /-- What a name finds is an entry, and the reader keeps to it. -/
  readers : ∀ {name r}, c.openEntry name = .ok r →
    ∃ e ∈ c.entries, c.find? name = some e ∧ c.KeepsTo e r

/-- What a name finds is one of the entries. -/
theorem mem_of_find? {name : String} (h : c.find? name = some e) : e ∈ c.entries := by
  simp only [find?] at h
  split at h
  · rename_i found hfound
    exact Option.some.inj h ▸ List.mem_of_find?_eq_some hfound
  · exact List.mem_reverse.mp (List.mem_of_find?_eq_some h)

/-- **Every archive that is opened is within its limits**, whatever the octets and the limits are, and
stays so while it is read. -/
theorem withinLimits_of_ofOctets? {limits : Limits} {data : ByteArray}
    (h : ofOctets? limits data = .ok c) : c.data = data ∧ c.WithinLimits limits := by
  obtain ⟨listed, located, hinput, -, -, -, hentries, rfl⟩ := ofOctets?_eq_ok h
  obtain ⟨hcount, heach, -, htotal⟩ := Limits.checkEntries_eq_ok.mp hentries
  rw [List.length_map] at hcount
  rw [List.map_map] at htotal
  have hpath : ∀ e ∈ lastOfEachName located, Path.check e.name = .ok () := fun e he =>
    (heach _ (List.mem_map_of_mem he)).1
  have hnames := names_lastOfEachName located
  refine ⟨rfl, {
    input := Limits.checkInput_eq_ok.mp hinput
    count := hcount
    path := hpath
    size := fun e he => (heach _ (List.mem_map_of_mem he)).2
    names := hnames
    total := htotal
    own := fun e he => find?_own hnames he (hpath e he)
    readers := fun hopen => ?_ }⟩
  obtain ⟨e, hfound, hreader⟩ := openEntry_eq_ok hopen
  refine ⟨e, mem_of_find? hfound, hfound, ?_⟩
  rcases hreader with ⟨-, rfl⟩ | ⟨hmethod, rfl⟩
  · exact keepsTo_stored _ e
  · exact keepsTo_deflated hmethod

/-- The archive of a small workbook, and how its sheet is delivered when more is asked for than it
holds. -/
theorem withinLimits_of_ofOctets?_stored : Workbook.stored.container.data = Workbook.storedOctets ∧
    Workbook.stored.container.WithinLimits {} ∧
    ∃ r outputs after, Workbook.stored.container.openEntry "xl/s" = .ok r ∧
      r.Reads [20, 0, 200, 1] outputs after ∧ outputs.map ByteArray.size = [20, 0, 108, 0] := by
  obtain ⟨hdata, hlimits⟩ := withinLimits_of_ofOctets? ofOctets?_stored
  have hopen : Workbook.stored.container.openEntry "xl/s" =
      .ok (.stored (Workbook.stored.container.stored ⟨"xl/s", false, 0, 128, 128, 192, false⟩) 128) := by
    rw [openEntry, show Workbook.stored.container.find? "xl/s" =
      some ⟨"xl/s", false, 0, 128, 128, 192, false⟩ by decide +kernel]
    rfl
  exact ⟨hdata, hlimits, _, _, _, hopen,
    .delivered rfl (.delivered rfl (.delivered rfl (.delivered rfl (.none _)))), by decide +kernel⟩

end Container

end Xlsx
