import Xlsx.Archive.Inflate

/-! # Reading what is unpacked

A reader of compressed data buffers a part of them and unpacks it window by window. A read gives what
is waiting of the last window; only when nothing is waiting it unpacks more, until it has what was
asked for, or has something and the buffer is used up. A read that meets corrupt data gives nothing:
what it has unpacked itself is lost, but not what was waiting. Where the data end too early all that
they say is given, and only the read behind it fails. -/

namespace Xlsx.Inflate

/-- Compressed data being read: the state of unpacking, how many octets were taken from the buffer,
and how many of those that were unpacked have been given. -/
structure Inflater where
  state : State
  taken : Nat := 0
  given : Nat := 0

namespace Inflater

/-- A reader at the start of compressed data; its buffer is empty. -/
def ofOctets (data : ByteArray) : Inflater := ⟨{ reader := { data, stop := 0 } }, 0, 0⟩

/-- How many octets the buffer has. -/
def bufferSize : Nat := 32768

/-- How many octets were unpacked and not given yet. -/
def waiting (z : Inflater) : Nat := z.state.output.size - z.given

/-- Whether all octets of the buffer were taken. -/
def isUsedUp (z : Inflater) : Bool := decide (z.state.reader.stop ≤ z.taken)

/-- The reader with its buffer filled from the data, if it was used up. -/
def refill (z : Inflater) : Inflater :=
  if z.isUsedUp then
    let reader := z.state.reader
    let stop := min (reader.stop + bufferSize) reader.data.size
    { z with state := { z.state with reader := { reader with stop } } }
  else z

/-- The reader after one window, or a part of one, and why the unpacking paused. Where it pauses for
want of data all of the buffer is taken, and else every octet that was begun. -/
def fill (z : Inflater) : Inflater × Pause :=
  match z with
  | ⟨state, taken, given⟩ =>
    let (state, pause) := state.fill
    let taken := match pause with
      | .starved => state.reader.stop
      | _ => max taken state.reader.begun
    (⟨state, taken, given⟩, pause)

/-- The reader once it can give something of `n` octets, or has come to the end of the data; none when
the data are corrupt, or end too early and nothing of them is left to give. -/
def gather (n : Nat) : Nat → Inflater → Option Inflater
  | 0, _ => none
  | fuel + 1, z =>
    let z := z.refill
    -- A buffer that is used up after it was filled says that no data are left.
    let isAtEnd := z.isUsedUp
    match z.fill with
    | (_, .corrupt) => none
    | (z, .complete) => some z
    | (z, .starved) =>
      -- The end of the last window is still unpacked when no data are left.
      if 0 < z.waiting then some z else if isAtEnd then none else gather n fuel z
    | (z, .full) =>
      if n ≤ z.waiting ∨ (z.isUsedUp ∧ !isAtEnd) then some z else gather n fuel z

/-- The next of the octets that are waiting, at most `n`, and the reader behind them. -/
def give (z : Inflater) (n : Nat) : ByteArray × Inflater :=
  let stop := min (z.given + n) z.state.output.size
  (z.state.output.extract z.given stop, { z with given := stop })

/-- No more octets are given than were asked for. -/
theorem size_give_le (z : Inflater) (n : Nat) : (z.give n).1.size ≤ n := by
  simp only [give, ByteArray.size_extract]
  omega

/-- The next octets, at most `n`, and the reader behind them: no octets at the end of the data, and
none of both where the data are corrupt, or end too early and all that they say was given. -/
def read (z : Inflater) (n : Nat) : Option (ByteArray × Inflater) :=
  if 0 < z.waiting then some (z.give n)
  else (gather n (z.state.reader.data.size + n + 2) z).map fun z => z.give n

/-- No more octets are read than were asked for. -/
theorem size_le_of_read {z after : Inflater} {n : Nat} {octets : ByteArray}
    (h : z.read n = some (octets, after)) : octets.size ≤ n := by
  unfold read at h
  split at h
  · have := size_give_le z n
    rw [Option.some.inj h] at this
    exact this
  · obtain ⟨z', _, hz⟩ := Option.map_eq_some_iff.1 h
    have := size_give_le z' n
    rw [hz] at this
    exact this

end Inflater

end Xlsx.Inflate
