import Xlsx.Proofs.Calendar.Days
import Xlsx.Proofs.Decimal.Exact
import Xlsx.Serial

/-! # Whole serials

A whole serial stands for a day at midnight, and the day gives the serial back. In the system of 1900
the serials 59 and 60 stand for one day, whose serial is 59.

* **`Epoch.serialOfDay_dayOfSerial`**, **`Epoch.dayOfSerial_serialOfDay`**: the numbers of days.
* **`Epoch.moment?_of_isWhole`**: what a whole serial stands for.
* **`Epoch.serial?_of_moment?`**, **`Epoch.moment?_of_serial?`**: there and back.
* **`Epoch.wholeSerials_inverse`**: serials and dates of either system. -/

namespace Xlsx

open Calendar

namespace Epoch

variable {e : Epoch} {x : Double} {m : Moment}

/-! ## The numbers of days -/

/-- **The day of a serial gives the serial back**, except the one serial that has no day of its own. -/
theorem serialOfDay_dayOfSerial (e : Epoch) (n : Nat) :
    e.serialOfDay (e.dayOfSerial n) = if e = .since1900 ∧ n = 60 then 59 else (n : Int) := by
  cases e with
  | since1904 => simp [serialOfDay, dayOfSerial]
  | since1900 =>
    simp only [serialOfDay, dayOfSerial, true_and]
    split <;> split <;> omega

/-- **The serial of a day gives the day back.** -/
theorem dayOfSerial_serialOfDay {n : Int} (h : 0 ≤ e.serialOfDay n) :
    e.dayOfSerial (e.serialOfDay n).toNat = n := by
  cases e with
  | since1904 =>
    simp only [serialOfDay, dayOfSerial] at *
    omega
  | since1900 =>
    simp only [serialOfDay, dayOfSerial] at *
    split at h <;> split <;> omega

/-- A greater serial stands for no earlier day. -/
theorem dayOfSerial_le {n n' : Nat} (h : n ≤ n') : e.dayOfSerial n ≤ e.dayOfSerial n' := by
  cases e with
  | since1904 =>
    simp only [dayOfSerial]
    omega
  | since1900 =>
    simp only [dayOfSerial]
    omega

/-- The next serial stands for the next day, except the one that stands for the same day. -/
theorem dayOfSerial_succ (e : Epoch) (n : Nat) :
    e.dayOfSerial (n + 1) = if e = .since1900 ∧ n = 59 then e.dayOfSerial n else e.dayOfSerial n + 1 := by
  cases e with
  | since1904 =>
    simp [dayOfSerial]
    omega
  | since1900 =>
    simp only [dayOfSerial, true_and]
    omega

/-- The day with the serial zero. -/
def firstDay : Epoch → Date
  | .since1900 => ⟨1899, 12, 31⟩
  | .since1904 => ⟨1904, 1, 1⟩

/-- Each epoch starts with a date of the calendar. -/
theorem inCalendar_firstDay (e : Epoch) : e.firstDay.InCalendar := by
  cases e <;> exact ⟨by decide, by decide⟩

/-- The days without a serial are those in front of the first one. -/
theorem serialOfDay_lt_zero {n : Int} : e.serialOfDay n < 0 ↔ n < e.firstDay.ordinal := by
  cases e with
  | since1904 =>
    show n - base1904 < 0 ↔ n < base1904
    omega
  | since1900 =>
    have hfirst : firstDay .since1900 = ⟨1899, 12, 31⟩ := rfl
    have hbase : (firstDay .since1900).ordinal = base1900 + 1 := by decide
    rw [hbase, serialOfDay]
    split <;> omega

/-- **The days from the first one on** are those with a serial. -/
theorem zero_le_serialOfDay_iff {d : Date} (hd : d.InCalendar) :
    0 ≤ e.serialOfDay d.ordinal ↔ ¬ d.Before e.firstDay := by
  rw [← Date.ordinal_lt_iff hd e.inCalendar_firstDay, ← serialOfDay_lt_zero, Int.not_lt]

/-- Serials of days of the calendar are values. -/
theorem serialOfDay_lt {d : Date} (hd : d.InCalendar) (hyear : d.year ≤ lastYear) :
    (e.serialOfDay d.ordinal).toNat < 2 ^ 53 := by
  have hlt := hd.ordinal_lt_marchOf
  have hmarch : d.marchYear ≤ d.year := by
    unfold Date.marchYear
    split <;> omega
  have hle := @marchOf_le (d.marchYear + 1) (lastYear + 1) (by omega)
  have hlast : marchOf (lastYear + 1) < 2 ^ 53 := by decide
  have hbase : 0 ≤ base1900 ∧ 0 ≤ base1904 := by decide
  have hserial : e.serialOfDay d.ordinal ≤ d.ordinal := by
    unfold serialOfDay
    split
    · omega
    · split <;> omega
  omega

/-! ## Serials and moments -/

/-- Nothing of a day has passed at a whole serial. -/
theorem millisOfSerial_of_isWhole (h : x.isWhole = true) : millisOfSerial x = 0 := by
  have hfraction : x.fractionPart = 0 := eq_of_beq h
  have hzero : Double.ofRatio false (x.fractionPart * dayMillis) Double.unit = Double.ofNat 0 := by
    rw [hfraction, Nat.zero_mul, ← Double.ofRatio_mul_unit (by decide), Nat.zero_mul]
  rw [millisOfSerial, hzero, Double.magnitude_ofNat (by decide), Double.roundUp, Nat.zero_mul]
  exact Nat.div_eq_of_lt (by have := Double.unit_pos; omega)

/-- What stands for a moment is finite and not negative. -/
theorem finite_of_moment? (h : e.moment? x = some m) :
    x.isFinite = true ∧ (x.isNegative = true → x.isZero = true) := by
  unfold moment? at h
  split at h
  · simp at h
  · rename_i hsign
    simp only [Bool.or_eq_true, Bool.not_eq_true', Bool.and_eq_true, not_or, not_and] at hsign
    exact ⟨Bool.not_eq_false _ ▸ hsign.1, fun hnegative => by simpa using hsign.2 hnegative⟩

/-- **What a whole serial stands for**: the start of its day. -/
theorem moment?_of_isWhole (hwhole : x.isWhole = true) (hfinite : x.isFinite = true)
    (hsign : x.isNegative = true → x.isZero = true) :
    e.moment? x =
      (Date.ofOrdinal? (e.dayOfSerial x.wholePart)).map fun d => ⟨d, Time.midnight⟩ := by
  have hcondition : ¬ (!x.isFinite || x.isNegative && !x.isZero) = true := by simpa [hfinite] using hsign
  have hday : e.dayOfSerial x.wholePart + ((0 / 86400000 : Nat) : Int) = e.dayOfSerial x.wholePart :=
    Int.add_zero _
  rw [moment?, if_neg hcondition]
  simp only [millisOfSerial_of_isWhole hwhole, Moment.ofDayMillis?, hday]
  cases Date.ofOrdinal? (e.dayOfSerial x.wholePart) <;> rfl

/-- A whole serial that stands for a moment stands for the midnight of its day. -/
theorem date_of_moment? (hwhole : x.isWhole = true) (h : e.moment? x = some m) :
    m.time = Time.midnight ∧ Date.ofOrdinal (e.dayOfSerial x.wholePart) = m.date ∧
      m.date.isValid = true := by
  obtain ⟨hfinite, hsign⟩ := finite_of_moment? h
  rw [moment?_of_isWhole hwhole hfinite hsign] at h
  obtain ⟨d, hd, rfl⟩ := Option.map_eq_some_iff.mp h
  obtain ⟨hdate, hyear⟩ := Date.ofOrdinal?_eq_some.mp hd
  exact ⟨rfl, hdate, Date.isValid_iff.mpr ⟨hdate ▸ Date.inCalendar_ofOrdinal _, hyear⟩⟩

/-- The serial of a day at midnight. -/
theorem serial?_midnight {d : Date} (hd : d.InCalendar) (hyear : d.year ≤ lastYear) :
    e.serial? ⟨d, Time.midnight⟩ =
      if e.serialOfDay d.ordinal < 0 then none else some (.ofNat (e.serialOfDay d.ordinal).toNat) := by
  have hfraction : (fractionOfMillis Time.midnight.millis).magnitude = 0 := by
    have hzero : fractionOfMillis Time.midnight.millis = .ofNat 0 := by decide +kernel
    rw [hzero, Double.magnitude_ofNat (by decide), Nat.zero_mul]
  unfold serial?
  simp only [hfraction, Nat.add_zero, Double.ofRatio_mul_unit (serialOfDay_lt hd hyear)]

/-- **A whole serial comes back** from what it stands for, except the one that has no day of its own. -/
theorem serial?_of_moment? (hwhole : x.isWhole = true) (h : e.moment? x = some m) :
    e.serial? m = some (.ofNat (if e = .since1900 ∧ x.wholePart = 60 then 59 else x.wholePart)) ∧
      (Double.ofNat x.wholePart).numEq x = true := by
  obtain ⟨hfinite, hsign⟩ := finite_of_moment? h
  obtain ⟨htime, hdate, hvalid⟩ := date_of_moment? hwhole h
  obtain ⟨hcalendar, -, hyear⟩ := Date.isValid_iff.mp hvalid
  have hm : m = ⟨m.date, Time.midnight⟩ := htime ▸ rfl
  have hday := serialOfDay_dayOfSerial e x.wholePart
  rw [← Date.ordinal_ofOrdinal (e.dayOfSerial x.wholePart), hdate] at hday
  constructor
  · rw [hm, serial?_midnight hcalendar hyear, hday]
    split <;> simp
  · exact Double.numEq_ofNat_wholePart hwhole hfinite hsign

/-- **A date comes back** from its serial. -/
theorem moment?_of_serial? {d : Date} (hd : d.isValid = true) (hfirst : ¬ d.Before e.firstDay) :
    ∃ n < 2 ^ 53, e.serial? ⟨d, Time.midnight⟩ = some (.ofNat n) ∧
      e.moment? (.ofNat n) = some ⟨d, Time.midnight⟩ := by
  obtain ⟨hcalendar, hyear, hyear'⟩ := Date.isValid_iff.mp hd
  have hserial := (zero_le_serialOfDay_iff hcalendar).mpr hfirst
  have hlt := @serialOfDay_lt e _ hcalendar hyear'
  refine ⟨_, hlt, ?_, ?_⟩
  · rw [serial?_midnight hcalendar hyear', if_neg (Int.not_lt.mpr hserial)]
  · have hdate : Date.ofOrdinal? d.ordinal = some d :=
      Date.ofOrdinal?_eq_some.mpr ⟨Date.ofOrdinal_ordinal hcalendar, hyear, hyear'⟩
    rw [moment?_of_isWhole (Double.isWhole_ofNat hlt) (Double.isFinite_ofNat hlt)
      (by simp [Double.isNegative_ofNat hlt]), Double.wholePart_ofNat hlt,
      dayOfSerial_serialOfDay hserial, hdate]
    rfl

/-- Days before the first one have no serial. -/
theorem serial?_of_before {d : Date} (hd : d.InCalendar) (h : d.Before e.firstDay) (t : Time) :
    e.serial? ⟨d, t⟩ = none :=
  if_pos (Int.not_le.mp fun hserial => (zero_le_serialOfDay_iff hd).mp hserial h)

/-! ## Both ways -/

/-- **Whole serials and dates are inverse.** A whole serial that stands for a moment stands for a
midnight, whose serial it is, except that 60 comes back as 59 in the system of 1900. A date from the
first day on comes back from its serial, and an earlier one has none. A greater serial stands for no
earlier day, and the next one for the day after, except that 59 and 60 share a day in the system of
1900. -/
theorem wholeSerials_inverse (e : Epoch) :
    (∀ x m, x.isWhole = true → e.moment? x = some m → m.time = Time.midnight ∧
      ∃ y, e.serial? m = some y ∧
        if e = .since1900 ∧ x.wholePart = 60 then y = .ofNat 59 else y.numEq x = true) ∧
    (∀ d, d.isValid = true → ¬ d.Before e.firstDay →
      ∃ x, x.isWhole = true ∧ e.serial? ⟨d, Time.midnight⟩ = some x ∧
        e.moment? x = some ⟨d, Time.midnight⟩) ∧
    (∀ d, d.isValid = true → d.Before e.firstDay → ∀ t, e.serial? ⟨d, t⟩ = none) ∧
    (∀ x y m m', x.isWhole = true → y.isWhole = true → e.moment? x = some m → e.moment? y = some m' →
      (x.wholePart ≤ y.wholePart → ¬ m'.date.Before m.date) ∧
      (y.wholePart = x.wholePart + 1 →
        m'.date = if e = .since1900 ∧ x.wholePart = 59 then m.date else m.date.next)) := by
  refine ⟨fun x m hwhole h => ?_, fun d hd hfirst => ?_, fun d hd hbefore t => ?_,
    fun x y m m' hx hy h h' => ?_⟩
  · obtain ⟨hserial, hnumEq⟩ := serial?_of_moment? hwhole h
    refine ⟨(date_of_moment? hwhole h).1, _, hserial, ?_⟩
    split
    · rfl
    · exact hnumEq
  · obtain ⟨n, hn, hserial, hmoment⟩ := moment?_of_serial? hd hfirst
    exact ⟨_, Double.isWhole_ofNat hn, hserial, hmoment⟩
  · exact serial?_of_before (Date.isValid_iff.mp hd).1 hbefore t
  · obtain ⟨-, hdate, -⟩ := date_of_moment? hx h
    obtain ⟨-, hdate', -⟩ := date_of_moment? hy h'
    rw [← hdate, ← hdate']
    constructor
    · intro hle
      rw [← Date.ordinal_lt_iff (Date.inCalendar_ofOrdinal _) (Date.inCalendar_ofOrdinal _),
        Date.ordinal_ofOrdinal, Date.ordinal_ofOrdinal]
      exact Int.not_lt.mpr (dayOfSerial_le hle)
    · intro hnext
      rw [hnext, dayOfSerial_succ]
      split
      · rfl
      · exact Date.ofOrdinal_succ _

/-- The serials around the leap day that the year 1900 does not have, and the first day. -/
theorem wholeSerials_inverse_leapDay :
    let day := fun year month day => Moment.mk ⟨year, month, day⟩ Time.midnight
    (∃ y, since1900.serial? (day 1900 2 28) = some y ∧ y = .ofNat 59) ∧
      (∃ y, since1900.serial? (day 1900 3 1) = some y ∧ y.numEq (.ofNat 61) = true) ∧
      (Date.mk 1900 3 1 = (Date.mk 1900 2 28).next ∧ ¬ (Date.mk 1900 3 1).Before ⟨1900, 2, 28⟩) ∧
      (∃ x, x.isWhole = true ∧ since1900.serial? (day 1899 12 31) = some x ∧
        since1900.moment? x = some (day 1899 12 31)) ∧
      since1900.serial? ⟨⟨1899, 12, 30⟩, ⟨86399, 0⟩⟩ = none := by
  obtain ⟨hback, hdate, hearly, hsteps⟩ := wholeSerials_inverse since1900
  have hwhole : ∀ n < 100, (Double.ofNat n).isWhole = true ∧ (Double.ofNat n).wholePart = n := fun n hn =>
    ⟨Double.isWhole_ofNat (by omega), Double.wholePart_ofNat (by omega)⟩
  have h60 : since1900.moment? (.ofNat 60) = some ⟨⟨1900, 2, 28⟩, Time.midnight⟩ := by decide +kernel
  have h61 : since1900.moment? (.ofNat 61) = some ⟨⟨1900, 3, 1⟩, Time.midnight⟩ := by decide +kernel
  obtain ⟨hwhole60, hpart60⟩ := hwhole 60 (by decide)
  obtain ⟨hwhole61, hpart61⟩ := hwhole 61 (by decide)
  obtain ⟨-, hback60⟩ := hback _ _ hwhole60 h60
  obtain ⟨-, hback61⟩ := hback _ _ hwhole61 h61
  obtain ⟨horder, hnext⟩ := hsteps _ _ _ _ hwhole60 hwhole61 h60 h61
  rw [hpart60] at hback60 horder hnext
  rw [hpart61] at hback61 horder hnext
  exact ⟨hback60, hback61, ⟨hnext rfl, horder (by decide)⟩, hdate _ (by decide) (by decide),
    hearly _ (by decide) (by decide) _⟩

end Epoch

end Xlsx
