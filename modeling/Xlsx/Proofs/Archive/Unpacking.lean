import Xlsx.Archive.Inflater
import Xlsx.Proofs.Except

/-! # Where unpacking reads

Whatever compressed octets say, unpacking them moves the place of the next bit and nothing else of its
reader: it never looks at octets that have not arrived, and only a buffer that is filled again makes
more of them arrive, as far as there are any.

* **`BitReader.Moved`**: readers that differ in their place alone, with a lemma for each function that
  reads bits, up to a whole block header.
* **`State.moved_fill`**: unpacking to the next pause.
* **`Inflater.ReadsOn`**, **`Inflater.readsOn_read`**: what one read does to the buffer. -/

namespace Xlsx.Inflate

/-! ## Reading bits -/

/-- **The same reader at another place.** -/
def BitReader.Moved (r after : BitReader) : Prop := after.data = r.data ∧ after.stop = r.stop

namespace BitReader

/-- A reader is the same one where it stands. -/
theorem Moved.refl (r : BitReader) : r.Moved r := ⟨rfl, rfl⟩

/-- Moving twice is moving. -/
theorem Moved.trans {r next after : BitReader} (h : r.Moved next) (h' : next.Moved after) :
    r.Moved after := ⟨h'.1.trans h.1, h'.2.trans h.2⟩

variable {r after : BitReader} {x : Nat}

/-- Reading one bit moves the reader. -/
theorem moved_bit (h : r.bit = .ok (x, after)) : r.Moved after := by
  rw [bit] at h
  split at h
  · split at h
    · obtain ⟨-, rfl⟩ := Prod.mk.inj (Except.ok.inj h)
      exact ⟨rfl, rfl⟩
    · exact nomatch h
  · exact nomatch h

/-- So does reading a number of several bits. -/
theorem moved_bits {n : Nat} (h : r.bits n = .ok (x, after)) : r.Moved after := by
  induction n generalizing r x with
  | zero =>
    obtain ⟨-, rfl⟩ := Prod.mk.inj (Except.ok.inj h)
    exact .refl r
  | succ n ih =>
    obtain ⟨⟨low, next⟩, hlow, h⟩ := bind_eq_ok.mp h
    obtain ⟨⟨high, last⟩, hhigh, h⟩ := bind_eq_ok.mp h
    obtain ⟨-, rfl⟩ := Prod.mk.inj (Except.ok.inj h)
    exact (moved_bit hlow).trans (ih hhigh)

/-- So does passing on to the next whole octet. -/
theorem moved_align (r : BitReader) : r.Moved r.align := ⟨rfl, rfl⟩

end BitReader

/-! ## Reading symbols and codes -/

section Codes

variable {r after : BitReader}

/-- Reading on in a code word moves the reader. -/
theorem Code.moved_symbolFrom {c : Code} {fuel n code first index symbol : Nat}
    (h : c.symbolFrom fuel n code first index r = .ok (symbol, after)) : r.Moved after := by
  induction fuel generalizing n code first index r with
  | zero => exact nomatch h
  | succ fuel ih =>
    obtain ⟨⟨b, next⟩, hbit, h⟩ := bind_eq_ok.mp h
    have hmoved := BitReader.moved_bit hbit
    simp only at h
    split at h
    · obtain ⟨-, rfl⟩ := Prod.mk.inj (Except.ok.inj h)
      exact hmoved
    · split at h
      · exact nomatch h
      · exact hmoved.trans (ih h)

/-- So does reading a symbol from its first bit on. -/
theorem Code.moved_symbol {c : Code} {symbol : Nat} (h : c.symbol r = .ok (symbol, after)) :
    r.Moved after :=
  moved_symbolFrom h

/-- So does reading the extra bits of a length or a distance. -/
theorem moved_tableValue {table : Array (Nat × Nat)} {symbol value : Nat}
    (h : tableValue table symbol r = .ok (value, after)) : r.Moved after := by
  rw [tableValue] at h
  split at h
  · obtain ⟨⟨more, next⟩, hmore, h⟩ := bind_eq_ok.mp h
    obtain ⟨-, rfl⟩ := Prod.mk.inj (Except.ok.inj h)
    exact BitReader.moved_bits hmore
  · exact nomatch h

/-- So does reading a literal, the end of a block, or a length with its distance. -/
theorem Codes.moved_item {c : Codes} {item : Item} (h : c.item r = .ok (item, after)) :
    r.Moved after := by
  obtain ⟨⟨symbol, behindSymbol⟩, hsymbol, h⟩ := bind_eq_ok.mp h
  have hmoved := Code.moved_symbol hsymbol
  simp only at h
  split at h
  · obtain ⟨-, rfl⟩ := Prod.mk.inj (Except.ok.inj h)
    exact hmoved
  split at h
  · obtain ⟨-, rfl⟩ := Prod.mk.inj (Except.ok.inj h)
    exact hmoved
  obtain ⟨⟨length, behindLength⟩, hlength, h⟩ := bind_eq_ok.mp h
  obtain ⟨⟨d, behindCode⟩, hcode, h⟩ := bind_eq_ok.mp h
  obtain ⟨⟨distance, behindDistance⟩, hdistance, h⟩ := bind_eq_ok.mp h
  obtain ⟨-, rfl⟩ := Prod.mk.inj (Except.ok.inj h)
  exact ((hmoved.trans (moved_tableValue hlength)).trans (Code.moved_symbol hcode)).trans
    (moved_tableValue hdistance)

/-- So does reading the lengths of the code that code lengths are written in. -/
theorem moved_threeBits {n : Nat} {xs : List Nat} (h : threeBits n r = .ok (xs, after)) :
    r.Moved after := by
  induction n generalizing r xs with
  | zero =>
    obtain ⟨-, rfl⟩ := Prod.mk.inj (Except.ok.inj h)
    exact .refl r
  | succ n ih =>
    obtain ⟨⟨x, next⟩, hx, h⟩ := bind_eq_ok.mp h
    obtain ⟨⟨rest, last⟩, hrest, h⟩ := bind_eq_ok.mp h
    obtain ⟨-, rfl⟩ := Prod.mk.inj (Except.ok.inj h)
    exact (BitReader.moved_bits hx).trans (ih hrest)

/-- So does reading code lengths, some of which are repeated. -/
theorem moved_codeLengths {code : Code} {total fuel : Nat} {done lengths : List Nat}
    (h : codeLengths code total fuel done r = .ok (lengths, after)) : r.Moved after := by
  induction fuel generalizing done r with
  | zero => exact nomatch h
  | succ fuel ih =>
    rw [codeLengths] at h
    split at h
    · obtain ⟨-, rfl⟩ := Prod.mk.inj (Except.ok.inj h)
      exact .refl r
    split at h
    · exact nomatch h
    obtain ⟨⟨symbol, next⟩, hsymbol, h⟩ := bind_eq_ok.mp h
    have hmoved := Code.moved_symbol hsymbol
    simp only at h
    split at h
    · exact hmoved.trans (ih h)
    split at h
    · split at h
      · exact nomatch h
      · obtain ⟨⟨n, last⟩, hn, h⟩ := bind_eq_ok.mp h
        exact (hmoved.trans (BitReader.moved_bits hn)).trans (ih h)
    · obtain ⟨⟨n, last⟩, hn, h⟩ := bind_eq_ok.mp h
      exact (hmoved.trans (BitReader.moved_bits hn)).trans (ih h)

/-- So does reading the codes that a block brings with it. -/
theorem moved_ownCodes {codes : Codes} (h : ownCodes r = .ok (codes, after)) : r.Moved after := by
  obtain ⟨⟨n, behindLiterals⟩, hn, h⟩ := bind_eq_ok.mp h
  obtain ⟨⟨m, behindDistances⟩, hm, h⟩ := bind_eq_ok.mp h
  obtain ⟨⟨k, behindCounts⟩, hk, h⟩ := bind_eq_ok.mp h
  have hcounts := ((BitReader.moved_bits hn).trans (BitReader.moved_bits hm)).trans
    (BitReader.moved_bits hk)
  simp only at h
  split at h
  · exact nomatch h
  obtain ⟨⟨written, behindCode⟩, hwritten, h⟩ := bind_eq_ok.mp h
  simp only at h
  split at h
  · exact nomatch h
  obtain ⟨⟨all, behindLengths⟩, hall, h⟩ := bind_eq_ok.mp h
  simp only at h
  split at h
  · exact nomatch h
  obtain ⟨-, rfl⟩ := Prod.mk.inj (Except.ok.inj h)
  exact (hcounts.trans (moved_threeBits hwritten)).trans (moved_codeLengths hall)

/-- So does reading how long a stored block is. -/
theorem moved_storedHeader {isLast : Bool} {mode : Mode}
    (h : storedHeader isLast r = .ok (mode, after)) : r.Moved after := by
  obtain ⟨⟨n, behindNumber⟩, hn, h⟩ := bind_eq_ok.mp h
  obtain ⟨⟨m, behindComplement⟩, hm, h⟩ := bind_eq_ok.mp h
  simp only at h
  split at h
  · exact nomatch h
  obtain ⟨-, rfl⟩ := Prod.mk.inj (Except.ok.inj h)
  exact (r.moved_align.trans (BitReader.moved_bits hn)).trans (BitReader.moved_bits hm)

/-- **The header of a block**, with all that belongs to it. -/
theorem moved_header {isLast : Bool} {mode : Mode} (h : header r = .ok (isLast, mode, after)) :
    r.Moved after := by
  obtain ⟨⟨last, behindLast⟩, hlast, h⟩ := bind_eq_ok.mp h
  obtain ⟨⟨kind, behindKind⟩, hkind, h⟩ := bind_eq_ok.mp h
  have hmoved := (BitReader.moved_bit hlast).trans (BitReader.moved_bits hkind)
  simp only at h
  split at h
  · obtain ⟨⟨mode, last⟩, hstored, heq⟩ := map_eq_ok.mp h
    simp only [Prod.mk.injEq] at heq
    obtain ⟨-, -, rfl⟩ := heq
    exact hmoved.trans (moved_storedHeader hstored)
  · have heq := Except.ok.inj h
    simp only [Prod.mk.injEq] at heq
    obtain ⟨-, -, rfl⟩ := heq
    exact hmoved
  · obtain ⟨⟨codes, last⟩, hcodes, heq⟩ := map_eq_ok.mp h
    simp only [Prod.mk.injEq] at heq
    obtain ⟨-, -, rfl⟩ := heq
    exact hmoved.trans (moved_ownCodes hcodes)
  · exact nomatch h

end Codes

/-! ## Unpacking -/

namespace State

/-- Putting out an item that has been read moves the reader at most. -/
theorem moved_put (s : State) (limit : Nat) (item : Item) (codes : Codes) :
    s.reader.Moved (s.put limit item codes).1.reader := by
  cases item with
  | endOfBlock => exact .refl _
  | literal b =>
    simp only [put]
    split <;> exact .refl _
  | copy distance length =>
    simp only [put]
    split <;> exact .refl _

/-- So does copying octets of a stored block. -/
theorem moved_putStored (s : State) (limit left : Nat) :
    s.reader.Moved (s.putStored limit left).1.reader := by
  simp only [putStored]
  split
  · exact .refl _
  split
  · exact .refl _
  · exact ⟨rfl, rfl⟩

/-- **One piece of work** moves the reader. -/
theorem moved_advance (s : State) (limit : Nat) : s.reader.Moved (s.advance limit).1.reader := by
  rw [advance]
  split
  · split
    · rename_i hheader
      exact moved_header hheader
    · exact .refl _
  · exact s.moved_putStored limit _
  · split
    · rename_i hitem
      exact Codes.moved_item hitem
    · exact .refl _
  · exact s.moved_put limit _ _
  · exact .refl _

/-- And so does unpacking item by item, up to where it pauses. -/
theorem moved_run (limit fuel : Nat) (s : State) : s.reader.Moved (run limit fuel s).1.reader := by
  induction fuel generalizing s with
  | zero => exact .refl _
  | succ fuel ih =>
    have hone := s.moved_advance limit
    rw [run]
    split
    · rename_i next hadvance
      rw [hadvance] at hone
      exact hone.trans (ih next)
    · rename_i next pause hadvance
      rw [hadvance] at hone
      exact hone

/-- **All the work up to a pause** moves the reader. -/
theorem moved_fill (s : State) : s.reader.Moved s.fill.1.reader := by
  rw [fill]
  exact moved_run _ _ s

end State

/-! ## Reading from the buffer -/

namespace Inflater

/-- **A reader of the same octets further on**: no less of them has arrived, and never more than there
are. -/
structure ReadsOn (z after : Inflater) : Prop where
  data : after.state.reader.data = z.state.reader.data
  grown : z.state.reader.stop ≤ after.state.reader.stop
  fits : z.state.reader.stop ≤ z.state.reader.data.size →
    after.state.reader.stop ≤ z.state.reader.data.size

variable {z next after : Inflater}

/-- A reader is as far on as it is. -/
theorem ReadsOn.refl (z : Inflater) : z.ReadsOn z := ⟨rfl, Nat.le_refl _, id⟩

/-- Two readings are one that goes as far. -/
theorem ReadsOn.trans (h : z.ReadsOn next) (h' : next.ReadsOn after) : z.ReadsOn after where
  data := h'.data.trans h.data
  grown := Nat.le_trans h.grown h'.grown
  fits hz := h.data ▸ h'.fits (h.data.symm ▸ h.fits hz)

/-- A reader that has only moved reads on. -/
theorem ReadsOn.of_moved (h : z.state.reader.Moved after.state.reader) : z.ReadsOn after where
  data := h.1
  grown := Nat.le_of_eq h.2.symm
  fits := Nat.le_trans (Nat.le_of_eq h.2)

/-- **Filling the buffer** lets more octets arrive, if there are more. -/
theorem readsOn_refill (hz : z.state.reader.stop ≤ z.state.reader.data.size) : z.ReadsOn z.refill := by
  rw [refill]
  split
  · exact ⟨rfl, Nat.le_min.mpr ⟨Nat.le_add_right _ _, hz⟩, fun _ => Nat.min_le_right _ _⟩
  · exact .refl z

/-- What is taken to fill the buffer is taken of the state. -/
theorem state_fill (z : Inflater) : z.fill.1.state = z.state.fill.1 := by
  obtain ⟨state, taken, given⟩ := z
  -- The state that is filled gets a name first; otherwise it would be computed.
  cases hfill : state.fill with
  | mk later pause =>
    rw [fill, hfill]

/-- Unpacking into the buffer, up to a pause, reads on. -/
theorem readsOn_fill (z : Inflater) : z.ReadsOn z.fill.1 := by
  have hmoved := z.state.moved_fill
  rw [← state_fill] at hmoved
  exact .of_moved hmoved

/-- What is gathered for a read. -/
theorem readsOn_gather {n fuel : Nat} (hz : z.state.reader.stop ≤ z.state.reader.data.size)
    (h : gather n fuel z = some after) : z.ReadsOn after := by
  induction fuel generalizing z with
  | zero => exact nomatch h
  | succ fuel ih =>
    have hfilled := (readsOn_refill hz).trans z.refill.readsOn_fill
    rw [gather] at h
    generalize z.refill.fill = filled at h hfilled
    obtain ⟨next, pause⟩ := filled
    -- Where neither enough is waiting nor the data are at their end, it is filled again.
    have hagain : gather n fuel next = some after → z.ReadsOn after := fun h => by
      have hnext : next.state.reader.stop ≤ next.state.reader.data.size := by
        rw [hfilled.data]
        exact hfilled.fits hz
      exact hfilled.trans (ih hnext h)
    cases pause with
    | corrupt => exact nomatch h
    | complete => exact Option.some.inj h ▸ hfilled
    | starved =>
      simp only at h
      split at h
      · exact Option.some.inj h ▸ hfilled
      split at h
      · exact nomatch h
      · exact hagain h
    | full =>
      simp only at h
      split at h
      · exact Option.some.inj h ▸ hfilled
      · exact hagain h

/-- Giving octets away reads nothing. -/
theorem readsOn_give (z : Inflater) (n : Nat) : z.ReadsOn (z.give n).2 :=
  .of_moved (.refl z.state.reader)

/-- **One read** leaves a reader of the same octets, further on. -/
theorem readsOn_read {n : Nat} {octets : ByteArray}
    (hz : z.state.reader.stop ≤ z.state.reader.data.size) (h : z.read n = some (octets, after)) :
    z.ReadsOn after := by
  rw [read] at h
  split at h
  · have hgiven := z.readsOn_give n
    rwa [Option.some.inj h] at hgiven
  · obtain ⟨gathered, hgather, hgive⟩ := Option.map_eq_some_iff.mp h
    have hgiven := gathered.readsOn_give n
    rw [hgive] at hgiven
    exact (readsOn_gather hz hgather).trans hgiven

end Inflater

end Xlsx.Inflate
