import Xlsx.Proofs.Archive.Bounds
import Xlsx.Proofs.Archive.Targets
import Xlsx.Proofs.Text.Encoding

/-! # What the limits decide

The entries of an archive come in no particular order, and their sizes are whatever the archive states.
Whether they pass the check depends on neither: it asks for as many entries as allowed, safe names, and
sizes that are small enough one by one and together, however the sizes are chosen.

* **`Path.IsSafe`**, **`Path.check_eq_ok`**: which names are safe.
* **`Limits.checkEntriesInWords`**: the check in sixty-four bits, which fails where a counter wraps.
* **`Limits.checkFromInWords_eq`**: it never does.
* **`Limits.checkEntries_decides`**: what the check decides, in whatever order. -/

namespace Xlsx

/-! ## Safe names -/

namespace Path

/-- **A name that leads to a place below the root**, on any system: it is not empty, does not start at a
root or at the letter of a drive, has no segment that leads back, and no backslash. -/
structure IsSafe (name : String) : Prop where
  nonempty : name ≠ ""
  relative : name.toList.head? ≠ some '/'
  driveless : (Text.octets name)[1]? ≠ some 0x3A
  inward : ['.', '.'] ∉ name.toList.splitOn '/'
  slashed : '\\' ∉ name.toList

/-- The letter of a drive is seen from the second octet, whatever the first character is. -/
theorem hasDrive_iff (cs : List Char) : hasDrive cs = true ↔ (Text.encode cs)[1]? = some 0x3A := by
  cases cs with
  | nil => simp [hasDrive]
  | cons c cs =>
    rcases Nat.lt_or_ge c.toNat 128 with hc | hc
    · -- The second octet is the first one behind the first character.
      have hcolon : (Text.encode cs).head? = some 0x3A ↔ cs.head? = some ':' :=
        Text.head?_encode (a := ':') (by decide)
      rw [Text.encode_cons_of_lt hc, List.getElem?_cons_succ, ← List.head?_eq_getElem?, hcolon]
      unfold hasDrive
      split
      · rename_i first rest heq
        obtain ⟨rfl, rfl⟩ := List.cons.inj heq
        simp [hc]
      · rename_i hother
        simp only [Bool.false_eq_true, false_iff]
        intro hhead
        obtain ⟨rest, rfl⟩ := List.head?_eq_some_iff.mp hhead
        exact hother c rest rfl
    · -- The second octet is one more of the first character.
      obtain ⟨first, second, more, hoctets, hmarked⟩ := Text.utf8EncodeChar_of_le hc
      have hsecond := hmarked second (List.mem_cons_of_mem _ List.mem_cons_self)
      have hne : (Text.encode (c :: cs))[1]? ≠ some 0x3A := by
        rw [Text.encode_cons, hoctets]
        intro h
        rw [Option.some.inj h] at hsecond
        exact absurd hsecond (by decide)
      have hnone : hasDrive (c :: cs) = false := by
        unfold hasDrive
        split
        · rename_i first' rest heq
          obtain ⟨rfl, rfl⟩ := List.cons.inj heq
          exact decide_eq_false (Nat.not_lt.mpr hc)
        · rfl
      rw [hnone]
      exact ⟨fun h => absurd h Bool.false_ne_true, fun h => absurd h hne⟩

/-- **A name passes the check if it is safe.** -/
theorem check_eq_ok {name : String} : check name = .ok () ↔ IsSafe name := by
  have hdrive := hasDrive_iff name.toList
  rw [← Text.octets_eq_encode] at hdrive
  have hempty : name.toList.isEmpty = true ↔ name = "" := by
    rw [List.isEmpty_iff, String.toList_eq_nil_iff]
  have hsegments := segments_eq_splitOn name.toList
  simp only [check]
  -- The conditions are checked one by one, and the first that is broken is the end.
  split
  · rename_i h
    exact iff_of_false (by simp) fun hsafe => hsafe.nonempty (hempty.mp h)
  rename_i hnonempty
  split
  · rename_i h
    refine iff_of_false (by simp) fun hsafe => ?_
    exact h.elim hsafe.relative fun h => hsafe.driveless (hdrive.mp h)
  rename_i hrelative
  split
  · rename_i h
    exact iff_of_false (by simp) fun hsafe => hsafe.inward (hsegments ▸ h)
  rename_i hinward
  split
  · rename_i h
    exact iff_of_false (by simp) fun hsafe => hsafe.slashed h
  rename_i hslashed
  refine ⟨fun _ => ?_, fun _ => rfl⟩
  constructor
  case nonempty => exact fun h => hnonempty (hempty.mpr h)
  case relative => exact fun h => hrelative (.inl h)
  case driveless => exact fun h => hrelative (.inr (hdrive.mpr h))
  case inward => exact hsegments ▸ hinward
  case slashed => exact hslashed

end Path

namespace Limits

/-! ## Sixty-four bits -/

/-- Entries with their sizes as natural numbers. -/
def inNumbers (entries : List (String × UInt64)) : List (String × Nat) :=
  entries.map fun p => (p.1, p.2.toNat)

/-- The limits are numbers of sixty-four bits. -/
structure InWords (l : Limits) : Prop where
  total : l.maxTotalSize < sizeLimit
  count : l.maxEntryCount < sizeLimit
  entry : l.maxEntrySize < sizeLimit

/-- One more; `none` if the counter wraps. -/
def countUp? (count : UInt64) : Option UInt64 := if count + 1 = 0 then none else some (count + 1)

/-- A sum; `none` if it wraps, when it is smaller than what was added to. -/
def sum? (total size : UInt64) : Option UInt64 :=
  if total + size < total then none else some (total + size)

/-- The check behind `count` entries of `total` octets in all, in sixty-four bits; `none` if the counter
wraps, which nothing guards. The sum is guarded, and where it would wrap the entry is refused. -/
def checkFromInWords (l : Limits) (count total : UInt64) :
    List (String × UInt64) → Option (Except LimitError Unit)
  | [] => some (.ok ())
  | (name, size) :: entries => do
    let count ← countUp? count
    if .ofNat l.maxEntryCount < count then return .error (.entryCount l.maxEntryCount)
    else
      match Path.check name with
      | .error cause => return .error (.path cause)
      | .ok () =>
        if .ofNat l.maxEntrySize < size then
          return .error (.entrySize name size.toNat l.maxEntrySize)
        else
          match sum? total size with
          | none => return .error .totalOverflow
          | some sum =>
            if .ofNat l.maxTotalSize < sum then
              return .error (.totalSize sum.toNat l.maxTotalSize)
            else l.checkFromInWords count sum entries

/-- **The check in sixty-four bits.** -/
def checkEntriesInWords (l : Limits) (entries : List (String × UInt64)) :
    Option (Except LimitError Unit) :=
  l.checkFromInWords 0 0 entries

/-- Below the largest number one more is counted. -/
theorem countUp?_of_lt {count : UInt64} (h : count.toNat + 1 < sizeLimit) :
    ∃ next, countUp? count = some next ∧ next.toNat = count.toNat + 1 := by
  have hnext : (count + 1).toNat = count.toNat + 1 := by
    rw [UInt64.toNat_add]
    exact Nat.mod_eq_of_lt h
  refine ⟨count + 1, if_neg fun hzero => ?_, hnext⟩
  rw [hzero] at hnext
  exact absurd hnext (Nat.succ_ne_zero _).symm

/-- **The guard of the sum** finds the sums that sixty-four bits cannot hold, and no others. -/
theorem sum?_cases (total size : UInt64) :
    (sizeLimit ≤ total.toNat + size.toNat ∧ sum? total size = none) ∨
      ∃ sum, total.toNat + size.toNat < sizeLimit ∧ sum? total size = some sum ∧
        sum.toNat = total.toNat + size.toNat := by
  have hsize : sizeLimit = 2 ^ 64 := rfl
  have htotal := total.toNat_lt
  have hadded := size.toNat_lt
  have hwrapped : (total + size).toNat = (total.toNat + size.toNat) % 2 ^ 64 := UInt64.toNat_add _ _
  -- A sum that wraps lacks the modulus, which is more than what was added, so it is smaller than `total`.
  rcases Nat.lt_or_ge (total.toNat + size.toNat) sizeLimit with hfits | hwraps
  · refine .inr ⟨total + size, hfits, if_neg ?_, ?_⟩
    · rw [UInt64.lt_iff_toNat_lt]
      omega
    · omega
  · refine .inl ⟨hwraps, if_pos ?_⟩
    rw [UInt64.lt_iff_toNat_lt]
    omega

/-- A limit that is a number of sixty-four bits is compared like any other number. -/
theorem ofNat_lt_iff {limit : Nat} (h : limit < sizeLimit) (n : UInt64) :
    UInt64.ofNat limit < n ↔ limit < n.toNat := by
  rw [UInt64.lt_iff_toNat_lt, UInt64.toNat_ofNat_of_lt' h]

/-- **The check in sixty-four bits** is that in natural numbers, as long as there are fewer entries than
the counter can hold, or fewer are allowed. -/
theorem checkFromInWords_eq {l : Limits} (hl : l.InWords) {entries : List (String × UInt64)}
    {count total : UInt64} (hcount : count.toNat ≤ l.maxEntryCount)
    (hmany : count.toNat + entries.length < sizeLimit ∨ l.maxEntryCount + 1 < sizeLimit) :
    l.checkFromInWords count total entries =
      some (l.checkFrom count.toNat total.toNat (inNumbers entries)) := by
  induction entries generalizing count total with
  | nil => rfl
  | cons p entries ih =>
    obtain ⟨name, size⟩ := p
    rw [List.length_cons] at hmany
    obtain ⟨next, hnext, hvalue⟩ := @countUp?_of_lt count (by omega)
    rw [checkFromInWords, hnext]
    show _ = some (l.checkFrom _ _ ((name, size.toNat) :: inNumbers entries))
    rw [checkFrom]
    simp only [bind, Option.bind, ofNat_lt_iff hl.count, ofNat_lt_iff hl.entry, hvalue]
    split
    · rfl
    rename_i hallowed
    cases Path.check name with
    | error cause => rfl
    | ok _ =>
      simp only
      split
      · rfl
      -- The sum is refused where the natural numbers are, and otherwise it is the same.
      rcases sum?_cases total size with ⟨hwraps, hsum⟩ | ⟨sum, hfits, hsum, hsame⟩
      · rw [hsum, if_pos hwraps]
        rfl
      · rw [hsum, if_neg (Nat.not_le.mpr hfits)]
        simp only [ofNat_lt_iff hl.total, hsame]
        split
        · rfl
        · rw [ih (by omega) (by omega), hvalue, hsame]

/-! ## What is decided -/

/-- **The check of the entries decides the limits.** Entries pass it exactly if there are no more of them
than allowed, each has a safe name and is not too large, and neither are all of them together, whatever
their sizes add up to. In another order they get the same answer. And in sixty-four bits neither the
counter nor the sum wraps, as long as there are fewer entries than the counter can hold, or fewer are
allowed. -/
theorem checkEntries_decides {l : Limits} (hl : l.InWords) (entries : List (String × UInt64)) :
    (l.checkEntries (inNumbers entries) = .ok () ↔
        entries.length ≤ l.maxEntryCount ∧ (∀ p ∈ entries, Path.IsSafe p.1) ∧
          (∀ p ∈ entries, p.2.toNat ≤ l.maxEntrySize) ∧
          (entries.map fun p => p.2.toNat).sum ≤ l.maxTotalSize) ∧
      (∀ other : List (String × UInt64), other.Perm entries →
        (l.checkEntries (inNumbers other) = .ok () ↔ l.checkEntries (inNumbers entries) = .ok ())) ∧
      (entries.length < sizeLimit ∨ l.maxEntryCount + 1 < sizeLimit →
        l.checkEntriesInWords entries = some (l.checkEntries (inNumbers entries))) := by
  have hdecides : ∀ entries : List (String × UInt64), l.checkEntries (inNumbers entries) = .ok () ↔
      entries.length ≤ l.maxEntryCount ∧ (∀ p ∈ entries, Path.IsSafe p.1) ∧
        (∀ p ∈ entries, p.2.toNat ≤ l.maxEntrySize) ∧
        (entries.map fun p => p.2.toNat).sum ≤ l.maxTotalSize := by
    intro entries
    have hsizes : (inNumbers entries).map (·.2) = entries.map fun p => p.2.toNat := List.map_map
    rw [checkEntries_eq_ok, hsizes, inNumbers, List.length_map, List.forall_mem_map]
    simp only [Path.check_eq_ok]
    constructor
    · rintro ⟨hcount, heach, -, htotal⟩
      exact ⟨hcount, fun p hp => (heach p hp).1, fun p hp => (heach p hp).2, htotal⟩
    · rintro ⟨hcount, hsafe, hsize, htotal⟩
      -- A sum that keeps the limit fits into sixty-four bits, because the limit does.
      exact ⟨hcount, fun p hp => ⟨hsafe p hp, hsize p hp⟩, Nat.lt_of_le_of_lt htotal hl.total, htotal⟩
  refine ⟨hdecides entries, fun other hperm => ?_, fun hmany => ?_⟩
  · rw [hdecides, hdecides, hperm.length_eq, (hperm.map fun p => p.2.toNat).sum_nat]
    simp only [hperm.mem_iff]
  · refine checkFromInWords_eq hl (Nat.zero_le _) ?_
    rwa [show (0 : UInt64).toNat = 0 from rfl, Nat.zero_add]

/-- Two sizes that add up to zero in sixty-four bits are refused in either order, though there is no
smaller limit than sixty-four bits allow. -/
theorem checkEntries_decides_wrapping :
    let l : Limits := { maxTotalSize := 18446744073709551615, maxEntrySize := 18446744073709551615 }
    let entries : List (String × UInt64) := [("a", 18446744073709551615), ("b", 1)]
    l.InWords ∧ l.checkEntries (inNumbers entries) = .error .totalOverflow ∧
      l.checkEntriesInWords entries = some (.error .totalOverflow) ∧
      l.checkEntries (inNumbers entries.reverse) ≠ .ok () ∧
      (l.checkEntries (inNumbers [("a", 1)]) = .ok ()) := by
  intro l entries
  have hl : l.InWords := ⟨by decide, by decide, by decide⟩
  have hrefused : l.checkEntries (inNumbers entries) = .error .totalOverflow := by decide +kernel
  obtain ⟨-, hperm, hwords⟩ := checkEntries_decides hl entries
  obtain ⟨hiff, -, -⟩ := checkEntries_decides hl [("a", 1)]
  refine ⟨hl, hrefused, ?_, ?_, hiff.mpr ⟨by decide, ?_, by decide, by decide⟩⟩
  · rw [hwords (.inl (by decide)), hrefused]
  · rw [ne_eq, hperm _ (List.reverse_perm entries), hrefused]
    exact fun h => nomatch h
  · intro p hp
    rw [List.mem_singleton.mp hp]
    exact Path.check_eq_ok.mp (by decide +kernel)

end Limits

end Xlsx
