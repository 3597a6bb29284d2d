import Xlsx.Proofs.Sheet.InsideSheet
import Xlsx.Sheet.Record

/-! # Calls behind the end

A cursor may be called again after it has ended or failed, and so may the rows and records that are
taken from one. Nothing follows then, and what a cursor says of itself stays as it is. The state that a
cursor shows is made up of how far its reading has come and of a row that is held back, which change in
different calls; they never contradict each other, because a row is only held back while the reading
goes on.

* **`behindCalls`**, **`call`**, **`itemsOf`**: any number of calls, and what they give.
* **`LastFails`**: items of which only the last one may be an error.
* **`Cursor.Coherent`**: what the state of a cursor rests on, kept by every call.
* **`Cursor.state_next`**: the state is that of a failure once a call has failed, and not before.
* **`Cursor.Starts.fused`**: what all calls of a cursor say, and the items of rows and records. -/

namespace Xlsx

/-! ## Calling again and again -/

section Calls

variable {σ ε α : Type} (next : σ → Except ε (Option α) × σ)

/-- **What is called**, behind a number of calls. -/
def behindCalls : Nat → σ → σ
  | 0, s => s
  | n + 1, s => behindCalls n (next s).2

/-- **What a call gives**, the first call being number 0. -/
def call (n : Nat) (s : σ) : Except ε (Option α) := (next (behindCalls next n s)).1

/-- A call that gives nothing more: the end, or an error. -/
def IsEnd (answer : Except ε (Option α)) : Prop := ∀ a, answer ≠ .ok (some a)

/-- The item that a call gives; none at the end. -/
def itemOf? : Except ε (Option α) → Option (Except ε α)
  | .ok none => none
  | .ok (some a) => some (.ok a)
  | .error cause => some (.error cause)

/-- **The items** that a number of calls give. -/
def itemsOf : Nat → σ → List (Except ε α)
  | 0, _ => []
  | n + 1, s => (itemOf? (next s).1).toList ++ itemsOf n (next s).2

/-- **Items of which only the last one may be an error.** -/
def LastFails (items : List (Except ε α)) : Prop :=
  ∃ given : List α, items = given.map .ok ∨ ∃ cause, items = given.map .ok ++ [.error cause]

/-- The first call is made first. -/
@[simp] theorem behindCalls_succ (n : Nat) (s : σ) :
    behindCalls next (n + 1) s = behindCalls next n (next s).2 := rfl

/-- The last call is made last. -/
theorem behindCalls_succ' (n : Nat) (s : σ) :
    behindCalls next (n + 1) s = (next (behindCalls next n s)).2 := by
  induction n generalizing s with
  | zero => rfl
  | succ n ih => exact ih (next s).2

variable {next}

/-- What every call keeps holds behind any number of calls. -/
theorem behindCalls_keeps {I : σ → Prop} (hnext : ∀ s, I s → I (next s).2) {s : σ} (hs : I s) (n : Nat) :
    I (behindCalls next n s) := by
  induction n generalizing s with
  | zero => exact hs
  | succ n ih => exact ih (hnext s hs)

/-- A call that gives nothing more leads to where nothing is given and nothing changes. -/
def StopsAtEnd (next : σ → Except ε (Option α) × σ) : Prop :=
  ∀ s, IsEnd (next s).1 → next (next s).2 = (.ok none, (next s).2)

variable (hstop : StopsAtEnd next)

include hstop

/-- **Behind an end** nothing follows and nothing changes. -/
theorem behindCalls_of_end {m n : Nat} (hmn : m < n) {s : σ} (hend : IsEnd (call next m s)) :
    call next n s = .ok none ∧ behindCalls next n s = behindCalls next (m + 1) s := by
  have hstill := hstop (behindCalls next m s) hend
  rw [← behindCalls_succ'] at hstill
  induction n, hmn using Nat.le_induction with
  | base => exact ⟨congrArg Prod.fst hstill, rfl⟩
  | succ n _ ih =>
    have hsame : behindCalls next (n + 1) s = behindCalls next (m + 1) s := by
      rw [behindCalls_succ', ih.2, hstill]
    exact ⟨by rw [call, hsame, hstill], hsame⟩

/-- **The items of any number of calls**: an error is the last one. -/
theorem lastFails_itemsOf (n : Nat) (s : σ) : LastFails (itemsOf next n s) := by
  induction n generalizing s with
  | zero => exact ⟨[], .inl rfl⟩
  | succ n ih =>
    -- Behind an end no call gives an item.
    have hnone : IsEnd (next s).1 → itemsOf next n (next s).2 = [] := by
      intro hend
      have hstill := hstop s hend
      clear ih
      induction n with
      | zero => rfl
      | succ n ih =>
        rw [itemsOf, hstill]
        exact ih
    rw [itemsOf]
    match hanswer : (next s).1 with
    | .ok (some a) =>
      obtain ⟨given, hgiven | ⟨cause, hgiven⟩⟩ := ih (next s).2
      · exact ⟨a :: given, .inl (by rw [hgiven]; rfl)⟩
      · exact ⟨a :: given, .inr ⟨cause, by rw [hgiven]; rfl⟩⟩
    | .ok none =>
      rw [hnone (by rw [hanswer]; exact fun a h => nomatch h)]
      exact ⟨[], .inl rfl⟩
    | .error cause =>
      rw [hnone (by rw [hanswer]; exact fun a h => nomatch h)]
      exact ⟨[], .inr ⟨cause, rfl⟩⟩

end Calls

/-! ## One call of a cursor -/

/-- A reading that goes on and gives no row is finished. -/
theorem Sheet.Reading.finished_of_none {selects : Nat → Bool} {first last : Nat} {r after : Reading}
    (hstate : r.state = .streaming) (h : r.next selects first last = (.ok none, after)) :
    after = .finished := by
  cases r with
  | finished => exact nomatch hstate
  | failed => exact nomatch hstate
  | streaming due rest =>
    simp only [Reading.next] at h
    split at h
    · simp at h
    · exact (Prod.mk.inj h).2.symm
    · simp at h

/-- A reading fails only in a call that says so. -/
theorem Sheet.Reading.next_ne_failed {selects : Nat → Bool} {first last : Nat} {r after : Reading}
    {read : Option RawRow} (hstate : r.state ≠ .failed)
    (h : r.next selects first last = (.ok read, after)) : after.state ≠ .failed := by
  cases r with
  | finished => exact (Prod.mk.inj h).2 ▸ hstate
  | failed => exact absurd rfl hstate
  | streaming due rest =>
    cases read with
    | none => exact finished_of_none rfl h ▸ fun h => nomatch h
    | some row =>
      obtain ⟨-, rest, events, -, hafter, -⟩ := streaming_of_row h
      exact hafter ▸ fun h => nomatch h

/-- The rows of a sheet are reached, or there are none. -/
theorem Sheet.openRows_ne_failed {fault? : Option Markup.Fault} {depth : Nat} {sawRoot : Bool}
    {dimension declared : Option Range} {events : List Markup.Event} {reading : Reading}
    (h : openRows fault? depth sawRoot dimension events = .ok (reading, declared)) :
    reading.state ≠ .failed := by
  fun_induction openRows fault? depth sawRoot dimension events with
  | case2 => simp at h
  | case1 | case5 =>
    obtain ⟨rfl, -⟩ := Prod.mk.inj (Except.ok.inj h)
    exact fun h => nomatch h
  | case3 =>
    obtain ⟨rfl, -⟩ := Prod.mk.inj (Except.ok.inj h)
    exact fun h => nomatch h
  | case4 _ _ _ _ _ _ ih | case6 _ _ _ _ _ _ ih | case8 _ _ _ _ _ ih => exact ih h
  | case7 _ _ _ _ _ _ _ ih => exact ih h
  | case9 _ _ _ _ _ _ _ _ ih => exact ih h

namespace Cursor

/-- A row that is held back will be given. -/
theorem row_of_pending {c : Cursor} (h : c.pending.isSome = true) : ∃ row, c.next.1 = .ok (some row) := by
  obtain ⟨held, hheld⟩ := Option.isSome_iff_exists.mp h
  exact ⟨_, congrArg Prod.fst (next_of_pending hheld)⟩

/-- A cursor whose reading has stopped, and that holds no row back, gives nothing and stays as it is. -/
theorem next_of_stopped {c : Cursor} (hpending : c.pending = none) (hstate : c.reading.state ≠ .streaming) :
    c.next = (.ok none, c) := by
  have hnone : c.reading.next c.selects c.firstRow c.lastRow = (.ok none, c.reading) := by
    cases hreading : c.reading with
    | streaming next rest => rw [hreading] at hstate; exact absurd rfl hstate
    | finished => rfl
    | failed => rfl
  exact next_of_none hpending hnone

/-- A call that gives no row has stopped the reading, and holds no row back. -/
theorem stopped_of_end {c after : Cursor} {answer : Except StreamError (Option Row)}
    (h : c.next = (answer, after)) (hend : IsEnd answer) :
    after.pending = none ∧ after.reading.state ≠ .streaming := by
  match answer with
  | .ok (some row) => exact absurd rfl (hend row)
  | .ok none =>
    obtain ⟨reading, hpending, hreading, rfl⟩ := of_next_none h
    refine ⟨hpending, ?_⟩
    rcases Sheet.Reading.stopped_of_none hreading with rfl | rfl <;> exact fun h => nomatch h
  | .error cause =>
    obtain ⟨reading, hpending, hreading, rfl⟩ := of_next_error h
    refine ⟨hpending, ?_⟩
    rw [(Sheet.Reading.outcome_of_error hreading).2]
    exact fun h => nomatch h

/-- **A cursor stays where it ends**: behind no row and behind an error. -/
theorem stopsAtEnd : StopsAtEnd next := by
  intro c hend
  obtain ⟨hpending, hstate⟩ := stopped_of_end (Prod.ext rfl rfl) hend
  exact next_of_stopped hpending hstate

/-- **A row is held back only while the reading goes on**, so that a cursor that holds one back has not
failed. -/
def Coherent (c : Cursor) : Prop := c.pending.isSome = true → c.reading.state = .streaming

/-- A cursor that passes to a row goes on, and may hold the row back. -/
theorem Coherent.passTo {c : Cursor} (hreading : c.reading.state = .streaming) (row : Row) :
    (c.passTo row).2.state = .streaming ∧ (c.passTo row).2.Coherent := by
  have hsame : (c.passTo row).2.reading.state = .streaming := by rw [passTo_reading, hreading]
  refine ⟨?_, fun _ => hsame⟩
  rw [state]
  split
  · rfl
  · exact hsame

/-- A call that gives a row leaves the cursor streaming. -/
theorem Coherent.of_row {c after : Cursor} (hc : c.Coherent) {row : Row}
    (h : c.next = (.ok (some row), after)) : after.state = .streaming ∧ after.Coherent := by
  rcases of_next_row h with ⟨held, hpending, hpassed⟩ | ⟨raw, reading, hpending, hreading, hafter⟩
  · have hboth := Coherent.passTo (hc (by rw [hpending]; rfl)) held
    rwa [hpassed] at hboth
  · obtain ⟨next, rest, events, -, hlater, -⟩ := Sheet.Reading.streaming_of_row hreading
    have hstreaming : (c.advanced reading raw.cells.length).reading.state = .streaming := by
      show reading.state = .streaming
      rw [hlater]
      rfl
    rcases hafter with hpassed | ⟨-, rfl⟩
    · have hboth := Coherent.passTo hstreaming (c.decodeRow raw)
      rwa [hpassed] at hboth
    · refine ⟨?_, fun _ => hstreaming⟩
      have hnone : (c.advanced reading raw.cells.length).pending = none := hpending
      rw [state, hnone]
      exact hstreaming

/-- **Every call** keeps a cursor coherent. -/
theorem Coherent.next {c : Cursor} (hc : c.Coherent) : c.next.2.Coherent := by
  match hnext : c.next with
  | (.ok (some row), after) => exact (hc.of_row hnext).2
  | (.ok none, after) =>
    have hpending := (stopped_of_end hnext fun a h => nomatch h).1
    exact fun h => by simp [hpending] at h
  | (.error cause, after) =>
    have hpending := (stopped_of_end hnext fun a h => nomatch h).1
    exact fun h => by simp [hpending] at h

/-- A cursor that is not streaming gives nothing and stays as it is. -/
theorem next_of_state {c : Cursor} (h : c.state ≠ .streaming) : c.next = (.ok none, c) := by
  rw [state] at h
  split at h
  · exact absurd rfl h
  · rename_i hpending
    exact next_of_stopped (by simpa using hpending) h

/-- **The state of a failure** is that of a cursor that has failed before or in this call. -/
theorem state_next {c : Cursor} (hc : c.Coherent) :
    c.next.2.state = .failed ↔ c.state = .failed ∨ ∃ cause, c.next.1 = .error cause := by
  by_cases hstate : c.state = .streaming
  · match hnext : c.next with
    | (.ok (some row), after) => simp [(hc.of_row hnext).1, hstate]
    | (.ok none, after) =>
      obtain ⟨reading, hpending, hreading, rfl⟩ := of_next_none hnext
      have hbefore : c.reading.state = .streaming := by simpa [state, hpending] using hstate
      obtain rfl := Sheet.Reading.finished_of_none hbefore hreading
      have hafter : ({ c with reading := .finished } : Cursor).state = .finished := by
        simp [state, hpending, Sheet.Reading.state]
      simp [hafter, hstate]
    | (.error cause, after) =>
      obtain ⟨reading, hpending, hreading, rfl⟩ := of_next_error hnext
      obtain rfl := (Sheet.Reading.outcome_of_error hreading).2
      simp [state, hpending, Sheet.Reading.state]
  · simp [next_of_state hstate]

end Cursor

/-! ## All calls -/

/-- **What all calls of a cursor say.** -/
structure Cursor.Fused (c : Cursor) : Prop where
  /-- Behind the end or an error every call gives nothing and leaves the cursor as it is, its state and
  its count of decoded cells with it. -/
  ended : ∀ {m n : Nat}, m < n → IsEnd (call Cursor.next m c) →
    call Cursor.next n c = .ok none ∧ behindCalls Cursor.next (n + 1) c = behindCalls Cursor.next (m + 1) c
  /-- The state is that of a failure if a call has failed. -/
  failed : ∀ n : Nat, (behindCalls Cursor.next n c).state = .failed ↔
    ∃ m < n, ∃ cause, call Cursor.next m c = .error cause
  /-- A cursor that says that it is over gives nothing. -/
  still : ∀ n : Nat, (behindCalls Cursor.next n c).state ≠ .streaming → call Cursor.next n c = .ok none
  /-- As long as a row is held back calls give rows. -/
  held : ∀ n : Nat, (behindCalls Cursor.next n c).pending.isSome = true →
    ∃ row, call Cursor.next n c = .ok (some row)

/-- **A cursor before its first call**: at the start of a sheet with any options, or behind what a reader
has read of a workbook to give its rows. -/
inductive Cursor.Starts : Cursor → Prop
  | sheet {sheet : Sheet} {decoder : Decoder} {o : CursorOptions} {s : Markup.Stream} {c : Cursor}
      (h : Cursor.ofStream? sheet decoder o s = .ok c) : c.Starts
  | reader {w : Workbook} {r : SheetReader} {rows : Rows} (h : r.rows w = .ok rows) : rows.cursor.Starts

namespace Cursor

/-- A cursor before its first call holds no row back and has not failed. -/
theorem Starts.idle {c : Cursor} (h : c.Starts) : c.pending = none ∧ c.reading.state ≠ .failed := by
  cases h with
  | sheet hopen =>
    obtain ⟨reading, dimension, hreading, rfl⟩ := ofStream?_eq_ok hopen
    exact ⟨rfl, Sheet.openRows_ne_failed hreading⟩
  | reader hrows =>
    rw [SheetReader.rows] at hrows
    split at hrows
    · obtain ⟨-, columns, -, hopen⟩ := Rows.openPlain_eq_ok.mp hrows
      obtain ⟨sheet, s, reading, dimension, -, -, hreading, hcursor⟩ := Workbook.openSheet_eq_ok hopen
      rw [hcursor]
      exact ⟨rfl, Sheet.openRows_ne_failed hreading⟩
    · -- What has read the header has not failed in that.
      obtain ⟨sheet, s, reading, dimension, start, -, -, hreading, hstart, read, later, cells, columns,
        hread, -, hcursor⟩ := Rows.openBelow_eq_ok hrows
      have hfresh : start.pending = none ∧ start.reading.state ≠ .failed := by
        rw [hstart]
        exact ⟨rfl, Sheet.openRows_ne_failed hreading⟩
      rw [hcursor]
      exact ⟨Rows.readingOn_pending hfresh.1, Sheet.Reading.next_ne_failed hfresh.2 hread⟩

/-- A coherent cursor that has not failed. -/
theorem fused_of_coherent {c : Cursor} (hc : c.Coherent) (hstate : c.state ≠ .failed) : c.Fused where
  ended {m n} hmn hend := by
    obtain ⟨hnone, hsame⟩ := behindCalls_of_end stopsAtEnd hmn hend
    exact ⟨hnone, (behindCalls_of_end stopsAtEnd (Nat.lt_succ_of_lt hmn) hend).2⟩
  failed n := by
    induction n with
    | zero => simpa [behindCalls] using hstate
    | succ n ih =>
      have hkept : (behindCalls Cursor.next n c).Coherent := behindCalls_keeps (fun _ => Coherent.next) hc n
      rw [behindCalls_succ', state_next hkept, ih]
      constructor
      · rintro (⟨m, hm, hcause⟩ | hcause)
        · exact ⟨m, Nat.lt_succ_of_lt hm, hcause⟩
        · exact ⟨n, Nat.lt_succ_self n, hcause⟩
      · rintro ⟨m, hm, hcause⟩
        rcases Nat.lt_succ_iff_lt_or_eq.mp hm with hm | rfl
        · exact .inl ⟨m, hm, hcause⟩
        · exact .inr hcause
  still n hover := congrArg Prod.fst (next_of_state hover)
  held n hheld := row_of_pending hheld

end Cursor

/-! ## Rows and records -/

/-- The next row is that of the cursor. -/
theorem Rows.next_eq (rows : Rows) :
    rows.next = (rows.cursor.next.1.mapError .stream, { rows with cursor := rows.cursor.next.2 }) := rfl

/-- The next record is the next row, with the header. -/
theorem Records.next_eq (records : Records) :
    records.next = (records.rows.next.1.map fun row => row.map fun row => ⟨records.header, row⟩,
      { records with rows := records.rows.next.2 }) := rfl

/-- Rows stay where they end. -/
theorem Rows.stopsAtEnd : StopsAtEnd Rows.next := by
  intro rows hend
  have hcursor : IsEnd rows.cursor.next.1 := by
    intro row hrow
    exact hend row (by rw [next_eq, hrow]; rfl)
  have hstill := Cursor.stopsAtEnd rows.cursor hcursor
  rw [next_eq, next_eq]
  simp only [hstill]
  rfl

/-- So do records. -/
theorem Records.stopsAtEnd : StopsAtEnd Records.next := by
  intro records hend
  have hrows : IsEnd records.rows.next.1 := by
    intro row hrow
    exact hend _ (by rw [next_eq, hrow]; rfl)
  have hstill := Rows.stopsAtEnd records.rows hrows
  rw [next_eq, next_eq]
  simp only [hstill]
  rfl

/-- **Nothing follows the end or an error.** From its first call on a cursor gives nothing and stays as
it is behind one, it says that it has failed exactly if a call has, and gives nothing once it says that
it is over; and no call fails while a row is held back. So of the items of rows and of records only the
last one can be an error. -/
theorem Cursor.Starts.fused {c : Cursor} (h : c.Starts) :
    c.Fused ∧ (∀ (rows : Rows) (n : Nat), LastFails (itemsOf Rows.next n rows)) ∧
      ∀ (records : Records) (n : Nat), LastFails (itemsOf Records.next n records) := by
  obtain ⟨hpending, hreading⟩ := h.idle
  have hcoherent : c.Coherent := fun hheld => by simp [hpending] at hheld
  have hstate : c.state ≠ .failed := by simpa [Cursor.state, hpending] using hreading
  refine ⟨Cursor.fused_of_coherent hcoherent hstate, fun rows n => ?_, fun records n => ?_⟩
  · exact lastFails_itemsOf Rows.stopsAtEnd n rows
  · exact lastFails_itemsOf Records.stopsAtEnd n records

/-- A sheet that breaks off behind its first and its third row. -/
def Sheet.sampleTorn : Markup.Stream where
  events := [.start ⟨"sheetData", []⟩, .start ⟨"row", []⟩, .finish "row",
    .empty ⟨"row", [.ok ⟨"r", Text.octets "3"⟩]⟩]

/-- Its rows with the one between them, the error behind them, and nothing behind that. -/
theorem Cursor.Starts.fused_torn : ∃ c,
    ofStream? default default { dense := true } Sheet.sampleTorn = .ok c ∧ c.Starts ∧ c.Fused ∧
      (itemsOf next 9 c).map (fun item => item.toOption.map Row.index) =
        [some 0, some 1, some 2, none] := by
  obtain ⟨c, hc⟩ : ∃ c, c = Cursor.opened default default { dense := true }
    (.streaming 0 ⟨Sheet.sampleTorn.events.tail, none⟩) none := ⟨_, rfl⟩
  have hopen : ofStream? default default { dense := true } Sheet.sampleTorn = .ok c := by
    rw [hc]
    rfl
  have hstarts : c.Starts := .sheet hopen
  refine ⟨c, hopen, hstarts, (Cursor.Starts.fused hstarts).1, ?_⟩
  rw [hc]
  decide +kernel

end Xlsx
