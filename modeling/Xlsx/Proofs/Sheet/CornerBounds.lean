import Xlsx.Proofs.Reference.RangeNotation
import Xlsx.Proofs.Sheet.Requests

/-! # Corners at the end of the numbers

A range may have any 32-bit numbers as its corners, whether they lie in a sheet or not. The number of its
last row and its extents are counted in 32 bits as well, which is checked: there is no result where it
is no such number. That happens to the row behind which there is no number, and to an extent over all
numbers. A range that lies outside the sheet is refused by naming its last corner, so there is no answer
to one that goes down to the last number.

* **`Range.InWords`**: a range that runs forward, with 32-bit corners.
* **`ReadOptions.check_outside`**: what is reported of a range outside the sheet.
* **`Range.InWords.counted_exactly`**: which references, sizes and answers there are; all of them are
  exact.
* **`Range.uncounted_lastRow`**: a range down to the last number. -/

namespace Xlsx

namespace Range

/-- **A range that runs forward**, with corners that are 32-bit numbers. -/
structure InWords (r : Range) : Prop where
  rows : r.first.row ≤ r.last.row
  columns : r.first.column ≤ r.last.column
  lastRow : r.last.row < Text.wordSize
  lastColumn : r.last.column < Text.wordSize

variable {r : Range} (hr : r.InWords)

include hr

/-- What such a range may lack to lie in the sheet. -/
theorem not_inSheet_iff : ¬ r.InSheet ↔ maxRows ≤ r.last.row ∨ maxColumns ≤ r.last.column := by
  constructor
  · intro hout
    by_contra hinside
    exact hout ⟨hr.rows, hr.columns, by omega, by omega⟩
  · intro hout hinside
    have hrow := hinside.lastRow
    have hcolumn := hinside.lastColumn
    omega

end Range

/-! ## What is reported of a range -/

/-- **A range outside the sheet** is refused by its last corner, whatever else is asked for: the range is
looked at first. There is no answer without a reference to that corner. -/
theorem ReadOptions.check_outside {o : ReadOptions} {r : Range} (hr : r.InWords) (ho : o.range = some r)
    (hout : ¬ r.InSheet) : o.check = r.last.label?.map fun label => .error (.rangeOutside label) := by
  have hrange : checkRange r = r.last.label?.map fun label => .error (.rangeOutside label) := by
    rw [checkRange, if_neg (Nat.not_lt.mpr hr.rows), if_neg (Nat.not_lt.mpr hr.columns),
      if_pos ((Range.not_inSheet_iff hr).mp hout)]
  rw [check, ho, Option.elim_some, hrange, Option.map_map]
  rfl

/-- A request for nothing but a range inside the sheet is built. -/
theorem ReadOptions.build_inSheet {r : Range} (hr : r.InSheet) :
    ∃ reader, ({ range := some r } : ReadOptions).build = some (.ok reader) := by
  have ho : ({ range := some r } : ReadOptions).MakesSense := by
    constructor
    case range =>
      intro same hsame
      exact Option.some.inj hsame ▸ hr
    case headerRow => exact fun row hrow => absurd hrow (Option.not_mem_none row)
    case headerRowInRange => exact fun row hrow => absurd hrow (Option.not_mem_none row)
    case someColumns => exact fun keys hkeys => absurd hkeys (Option.not_mem_none keys)
    case columns => exact fun keys hkeys => absurd hkeys (Option.not_mem_none keys)
  exact ⟨⟨_, check_eq_ok.mpr ho⟩, build_eq_ok.mpr rfl⟩

namespace Range

/-- **Corners are counted exactly up to the end of the numbers.** Let a range run forward between 32-bit
corners. The reference to each corner has the exact number of its row if that is a 32-bit number, and
otherwise there is none; so it is with the size of the range. A reader on the range is built exactly if it
lies in the sheet. Otherwise any request with it is refused, with a message that names the last corner
exactly, as long as there is a 32-bit number for its row; without one there is no answer. -/
theorem InWords.counted_exactly {r : Range} (hr : r.InWords) :
    (∀ p ∈ [r.first, r.last], p.label? = if p.row + 1 < Text.wordSize then some p.label else none) ∧
      (r.size? = if r.size.1 < Text.wordSize ∧ r.size.2 < Text.wordSize then some r.size else none) ∧
      ((∃ reader, ({ range := some r } : ReadOptions).build = some (.ok reader)) ↔ r.InSheet) ∧
      (¬ r.InSheet → ∀ o : ReadOptions, o.range = some r →
        (r.last.row + 1 < Text.wordSize → ∃ cause, o.build = some (.error cause) ∧
          cause.message = "Invalid range: " ++ r.last.label ++ " is outside the sheet bounds") ∧
        (r.last.row + 1 = Text.wordSize → o.build = none)) := by
  refine ⟨fun p _ => ?_, size?_eq_ite hr.rows hr.columns, ⟨?_, ReadOptions.build_inSheet⟩, ?_⟩
  · split
    · exact Position.label?_of_lt ‹_›
    · exact Position.label?_eq_none.mpr (Nat.not_lt.mp ‹_›)
  · rintro ⟨reader, hbuilt⟩
    have hoptions := ReadOptions.build_eq_ok.mp hbuilt
    exact (ReadOptions.check_eq_ok.mp reader.check_options).range r (by rw [hoptions]; rfl)
  · intro hout o ho
    have hcheck := ReadOptions.check_outside hr ho hout
    constructor
    · intro hrow
      rw [Position.label?_of_lt hrow] at hcheck
      exact ⟨_, ReadOptions.build_eq_error.mpr hcheck, rfl⟩
    · intro hlast
      rw [Position.label?_eq_none.mpr (Nat.le_of_eq hlast.symm)] at hcheck
      exact ReadOptions.build_eq_none.mpr hcheck

/-- The last corner that is named: it lies far outside the sheet. -/
theorem InWords.counted_exactly_lastRow :
    let r : Range := ⟨⟨1, 0⟩, ⟨4294967294, 2⟩⟩
    r.InWords ∧ r.last.label? = some "C4294967295" ∧ r.size? = some (4294967294, 3) ∧
      ∃ cause, ({ headerRow := some 5, range := some r } : ReadOptions).build = some (.error cause) ∧
        cause.message = "Invalid range: C4294967295 is outside the sheet bounds" := by
  intro r
  have hr : r.InWords := by constructor <;> decide
  obtain ⟨hcorners, hsize, -, hrefused⟩ := hr.counted_exactly
  have hlast : r.last.row + 1 < Text.wordSize := by decide
  have hnamed : r.last.label = "C4294967295" := by decide +kernel
  have hlabel := hcorners r.last (by simp)
  rw [if_pos hlast, hnamed] at hlabel
  rw [if_pos (by decide)] at hsize
  have hout : ¬ r.InSheet := fun hinside => absurd hinside.lastRow (by decide)
  obtain ⟨cause, hcause, hmessage⟩ := (hrefused hout { headerRow := some 5, range := some r } rfl).1 hlast
  refine ⟨hr, hlabel, hsize, cause, hcause, ?_⟩
  rw [hmessage, hnamed]
  decide

/-- **There is no number for the row behind the last one.** The range of all 32-bit row numbers has a last
corner, a size and a fault, and for none of them there is an answer. -/
theorem uncounted_lastRow :
    let r : Range := ⟨⟨0, 0⟩, ⟨4294967295, 0⟩⟩
    r.InWords ∧ r.last.label = "A4294967296" ∧ r.last.label? = none ∧
      r.size = (4294967296, 1) ∧ r.size? = none ∧
      ¬ r.InSheet ∧ ({ range := some r } : ReadOptions).build = none := by
  intro r
  have hr : r.InWords := by constructor <;> decide
  have hlabel : r.last.label? = none := Position.label?_eq_none.mpr (by decide)
  have hout : ¬ r.InSheet := fun hinside => absurd hinside.lastRow (by decide)
  have hcheck := @ReadOptions.check_outside { range := some r } r hr rfl hout
  rw [hlabel] at hcheck
  refine ⟨hr, by decide +kernel, hlabel, rfl, ?_, hout, ReadOptions.build_eq_none.mpr hcheck⟩
  rw [size?_eq_ite hr.rows hr.columns, if_neg (by decide)]

end Range

end Xlsx
