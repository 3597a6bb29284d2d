import Mathlib.Tactic.IntervalCases
import Xlsx.Calendar.Date

/-! # Dates and their numbers

Every number is that of one date, and every date has one number; a later date has a greater one, and
the day after a day the next one. Years are counted from March in this, as they are where the numbers
are defined, so that the leap day is the last of its year.

* **`Date.ordinal_ofOrdinal`**, **`Date.ofOrdinal_ordinal`**: numbers and dates are inverse.
* **`Date.ordinal_lt_iff`**: numbers are ordered as the dates are by year, month and day.
* **`Date.ofOrdinal_succ`**: the next number is that of the day after. -/

namespace Xlsx.Calendar

/-! ## Years from March -/

/-- Every fourth year is a leap year, but of the last years of centuries only every fourth one. -/
theorem isLeap_iff {year : Int} :
    isLeap year = true ↔ year % 4 = 0 ∧ (year % 100 ≠ 0 ∨ year % 400 = 0) := by
  simp [isLeap]

/-- The number of 1 March of a year. -/
def marchOf (year : Int) : Int := 365 * year + year / 4 - year / 100 + year / 400

/-- The year that ends with a 29 February has one day more. -/
theorem marchOf_succ (year : Int) :
    marchOf (year + 1) = marchOf year + if isLeap (year + 1) = true then 366 else 365 := by
  unfold marchOf
  split
  · have hleap := isLeap_iff.mp ‹_›
    omega
  · have hleap := mt isLeap_iff.mpr ‹_›
    omega

/-- Later years begin later. -/
theorem marchOf_le {y y' : Int} (h : y ≤ y') : marchOf y ≤ marchOf y' := by
  unfold marchOf
  omega

/-- An era of four hundred years has a whole number of days. -/
theorem marchOf_era (y era : Int) : marchOf (y + 400 * era) = marchOf y + 146097 * era := by
  unfold marchOf
  omega

/-- The 366th day of a year is a 29 February. -/
theorem leapDay_of_lt {y r : Int} (h : marchOf y + r < marchOf (y + 1)) :
    r ≤ 364 ∨ r = 365 ∧ isLeap (y + 1) = true := by
  rw [marchOf_succ] at h
  split at h
  · rcases Int.lt_or_le r 365 with hr | hr
    · exact .inl (by omega)
    · exact .inr ⟨by omega, ‹_›⟩
  · exact .inl (by omega)

/-! ## The days of an era -/

/-- The day `r` of the year `s` in the cycle `q` of four years in the century `c` of an era. The last day
of a cycle is missing in the last cycle of a century, but not at the end of the era. -/
structure InEra (c q s r : Int) : Prop where
  century : 0 ≤ c ∧ c ≤ 3
  cycle : 0 ≤ q ∧ q ≤ 24
  year : 0 ≤ s ∧ s ≤ 3
  day : 0 ≤ r ∧ r ≤ 365
  leapDay : r = 365 → s = 3 ∧ (q < 24 ∨ c = 3)

/-- Every day of an era is a day of some year in it. -/
theorem exists_inEra {e : Int} (h0 : 0 ≤ e) (h1 : e < 146097) :
    ∃ c q s r : Int, InEra c q s r ∧ e = 36524 * c + 1461 * q + 365 * s + r := by
  obtain ⟨c, t, he, hc, ht, hlast⟩ : ∃ c t : Int, e = 36524 * c + t ∧ (0 ≤ c ∧ c ≤ 3) ∧
      (0 ≤ t ∧ t ≤ 36524) ∧ (t = 36524 → c = 3) :=
    ⟨min 3 (e / 36524), e - 36524 * min 3 (e / 36524), by omega, by omega, by omega, by omega⟩
  refine ⟨c, t / 1461, min 3 (t % 1461 / 365), t % 1461 - 365 * min 3 (t % 1461 / 365),
    ⟨hc, ?_, ?_, ?_, ?_⟩, ?_⟩ <;> omega

namespace InEra

variable {c q s r : Int}

/-- The years of an era begin where their centuries and cycles say. -/
theorem marchOf_eq (h : InEra c q s r) :
    marchOf (100 * c + 4 * q + s) = 36524 * c + 1461 * q + 365 * s := by
  obtain ⟨hc, hq, hs, -, -⟩ := h
  unfold marchOf
  omega

/-- A day of a year lies in front of the next year. -/
theorem lt_marchOf (h : InEra c q s r) :
    36524 * c + 1461 * q + 365 * s + r < marchOf (100 * c + 4 * q + s + 1) := by
  have hleap := @isLeap_iff (100 * c + 4 * q + s + 1)
  rw [marchOf_succ, h.marchOf_eq]
  obtain ⟨hc, hq, hs, hr, hlast⟩ := h
  split
  · omega
  · have hnot := mt hleap.mpr ‹_›
    omega

/-- **The year of a day** by the days alone: the leap days before it are taken off first. -/
theorem year_eq (h : InEra c q s r) {e : Int} (he : e = 36524 * c + 1461 * q + 365 * s + r) :
    (e - e / 1460 + e / 36524 - e / 146096) / 365 = 100 * c + 4 * q + s := by
  obtain ⟨hc, hq, hs, hr, hlast⟩ := h
  have hcentury : e / 36524 - e / 146096 = c := by
    by_cases hend : e = 146096
    · omega
    · have hbelow : e < 36524 * c + 36524 := by omega
      have hera : e < 146096 := by omega
      omega
  have hcycle : (e / 1460 = 25 * c + q ∧ r ≤ 364) ∨ (e / 1460 = 25 * c + q + 1 ∧ 1 ≤ r) := by omega
  omega

end InEra

namespace Date

/-! ## The date with a number -/

/-- A day that the calendar has, in any year. -/
structure InCalendar (d : Date) : Prop where
  month : 1 ≤ d.month ∧ d.month ≤ 12
  day : 1 ≤ d.day ∧ d.day ≤ monthLength d.year d.month

/-- The dates that can be written are those of the calendar in some years. -/
theorem isValid_iff {d : Date} :
    d.isValid = true ↔ d.InCalendar ∧ firstYear ≤ d.year ∧ d.year ≤ lastYear := by
  rw [isValid, decide_eq_true_iff]
  constructor
  · rintro ⟨hfirst, hlast, hmonth, hmonth', hday, hday'⟩
    exact ⟨⟨⟨hmonth, hmonth'⟩, hday, hday'⟩, hfirst, hlast⟩
  · rintro ⟨⟨⟨hmonth, hmonth'⟩, hday, hday'⟩, hfirst, hlast⟩
    exact ⟨hfirst, hlast, hmonth, hmonth', hday, hday'⟩

/-- The shortest and the longest months. -/
theorem monthLength_bounds (year : Int) (month : Nat) :
    28 ≤ monthLength year month ∧ monthLength year month ≤ 31 := by
  unfold monthLength
  split
  · split <;> omega
  · split <;> omega

/-- The day `r` of the year from March of `y` on. -/
def ofMarch (y r : Int) : Date :=
  let m := (5 * r + 2) / 153
  ⟨y + (if m < 10 then 0 else 1), (if m < 10 then m + 3 else m - 9).toNat,
    (r - (153 * m + 2) / 5 + 1).toNat⟩

/-- The date with a number is a day of some year from March on. -/
theorem ofOrdinal_eq (n : Int) :
    ∃ y r, ofOrdinal n = ofMarch y r ∧ n = marchOf y + r ∧ 0 ≤ r ∧ n < marchOf (y + 1) := by
  obtain ⟨c, q, s, r, h, he⟩ := @exists_inEra (n % 146097) (by omega) (by omega)
  have hyear := h.year_eq he
  have hmarch := h.marchOf_eq
  have hday : n % 146097 - marchOf (100 * c + 4 * q + s) = r := by omega
  refine ⟨100 * c + 4 * q + s + 400 * (n / 146097), r, ?_, ?_, h.day.1, ?_⟩
  · have hera : (100 * c + 4 * q + s) / 400 = 0 := by
      obtain ⟨hc, hq, hs, -, -⟩ := h
      omega
    unfold ofOrdinal ofMarch
    simp only [hyear]
    rw [← hday, marchOf, hera, add_zero]
  · rw [marchOf_era]
    omega
  · have hlt := h.lt_marchOf
    rw [add_right_comm, marchOf_era]
    omega

/-- The number of a day of a year from March on. -/
theorem ordinal_ofMarch {y r : Int} (h0 : 0 ≤ r) (h1 : r ≤ 365) :
    (ofMarch y r).ordinal = marchOf y + r := by
  unfold ofMarch ordinal marchOf
  simp only
  split <;> split <;> omega

/-- The days of a year from March on are those of its months. -/
theorem inCalendar_ofMarch {y r : Int} (h0 : 0 ≤ r) (h1 : marchOf y + r < marchOf (y + 1)) :
    (ofMarch y r).InCalendar := by
  have hlast := leapDay_of_lt h1
  obtain ⟨m, hm⟩ : ∃ m, m = (5 * r + 2) / 153 := ⟨_, rfl⟩
  have hfirst : 0 ≤ m := by omega
  have hfebruary : m ≤ 11 := by omega
  unfold ofMarch
  simp only [← hm]
  constructor
  · simp only
    split <;> omega
  · simp only [monthLength]
    -- Only the length of February, the twelfth month from March, depends on the year.
    rcases Int.lt_or_le m 11 with hlt | hge
    · interval_cases m <;> simp <;> omega
    · obtain rfl : m = 11 := by omega
      rcases hlast with hr | ⟨hr, hleap⟩
      · simp
        split <;> omega
      · simp [hleap]
        omega

/-- The numbers that have a date that can be written. -/
theorem ofOrdinal?_eq_some {n : Int} {d : Date} :
    ofOrdinal? n = some d ↔ ofOrdinal n = d ∧ firstYear ≤ d.year ∧ d.year ≤ lastYear := by
  unfold ofOrdinal?
  simp only [Option.ite_none_right_eq_some, Option.some.injEq]
  exact ⟨fun ⟨hyear, heq⟩ => ⟨heq, heq ▸ hyear⟩, fun ⟨heq, hyear⟩ => ⟨heq ▸ hyear, heq⟩⟩

/-- **Every number is that of its date.** -/
theorem ordinal_ofOrdinal (n : Int) : (ofOrdinal n).ordinal = n := by
  obtain ⟨y, r, heq, hn, h0, h1⟩ := ofOrdinal_eq n
  have hlast := leapDay_of_lt (hn ▸ h1)
  rw [heq, ordinal_ofMarch h0 (by omega), hn]

/-- Every number is that of a date of the calendar. -/
theorem inCalendar_ofOrdinal (n : Int) : (ofOrdinal n).InCalendar := by
  obtain ⟨y, r, heq, hn, h0, h1⟩ := ofOrdinal_eq n
  rw [heq]
  exact inCalendar_ofMarch h0 (hn ▸ h1)

/-! ## The order of dates -/

/-- **A date is earlier** by its year, then by its month, then by its day. -/
def Before (a b : Date) : Prop :=
  a.year < b.year ∨ a.year = b.year ∧ (a.month < b.month ∨ a.month = b.month ∧ a.day < b.day)

instance Before.decidable (a b : Date) : Decidable (a.Before b) :=
  inferInstanceAs (Decidable (_ ∨ _))

/-- Of two dates one is earlier, unless they are the same. -/
theorem before_trichotomy (a b : Date) : a.Before b ∨ a = b ∨ b.Before a := by
  unfold Before
  rw [Date.mk.injEq]
  omega

/-- The year from March on that a date lies in. -/
def marchYear (d : Date) : Int := if d.month ≤ 2 then d.year - 1 else d.year

/-- The months from March to that of a date. -/
def marchMonth (d : Date) : Int := if d.month ≤ 2 then d.month + 9 else d.month - 3

/-- The number of a date, with the year and the month counted from March. -/
theorem ordinal_eq (d : Date) :
    d.ordinal = marchOf d.marchYear + (153 * d.marchMonth + 2) / 5 + d.day - 1 := rfl

/-- February has a day more in a leap year. -/
theorem monthLength_february {year : Int} :
    monthLength year 2 = if isLeap year = true then 29 else 28 := rfl

namespace InCalendar

variable {a b d : Date}

/-- A year that begins in March has twelve months. -/
theorem marchMonth (h : d.InCalendar) : 0 ≤ d.marchMonth ∧ d.marchMonth ≤ 11 := by
  have hmonth := h.month
  unfold Date.marchMonth
  split <;> omega

/-- The days of a month end where the next one begins. -/
theorem day_le (h : d.InCalendar) (hm : d.marchMonth < 11) :
    (153 * d.marchMonth + 2) / 5 + d.day ≤ (153 * (d.marchMonth + 1) + 2) / 5 := by
  obtain ⟨year, month, day⟩ := d
  obtain ⟨⟨h1, h12⟩, hday⟩ := h
  simp only [Date.marchMonth, monthLength] at *
  interval_cases month <;> simp at * <;> omega

/-- The days of a year end where the next one begins. -/
theorem ordinal_lt_marchOf (h : d.InCalendar) : d.ordinal < marchOf (d.marchYear + 1) := by
  have hyear := marchOf_succ d.marchYear
  rw [ordinal_eq]
  by_cases hm : d.marchMonth < 11
  · have hlong : marchOf d.marchYear + 365 ≤ marchOf (d.marchYear + 1) := by split at hyear <;> omega
    have hle := h.day_le hm
    have hmonth := h.marchMonth
    omega
  · have hfebruary : d.month = 2 := by
      have hmonth := h.month
      simp only [Date.marchMonth] at hm
      split at hm <;> omega
    have hlast : d.marchMonth = 11 := by
      rw [Date.marchMonth, if_pos (by omega), hfebruary]
      rfl
    have hbefore : d.marchYear + 1 = d.year := by
      rw [marchYear, if_pos (by omega)]
      omega
    have hday := h.day.2
    rw [hfebruary, monthLength_february] at hday
    rw [hbefore] at hyear ⊢
    rw [hlast, hyear]
    split at hday
    · rw [if_pos ‹_›]
      omega
    · rw [if_neg ‹_›]
      omega

/-- An earlier date has a smaller number. -/
theorem ordinal_lt (ha : a.InCalendar) (hb : b.InCalendar) (h : a.Before b) : a.ordinal < b.ordinal := by
  have hmarch : a.marchYear < b.marchYear ∨ a.marchYear = b.marchYear ∧
      (a.marchMonth < b.marchMonth ∨ a.marchMonth = b.marchMonth ∧ a.day < b.day) := by
    have hmonth := ha.month
    have hmonth' := hb.month
    unfold Before at h
    unfold marchYear Date.marchMonth
    split <;> split <;> omega
  have hfirst := ha.day.1
  have hfirst' := hb.day.1
  rcases hmarch with hyear | ⟨hyear, hmonth | ⟨hmonth, hday⟩⟩
  · have hle := @marchOf_le (a.marchYear + 1) b.marchYear (by omega)
    have hlt := ha.ordinal_lt_marchOf
    have hmonth := hb.marchMonth
    rw [b.ordinal_eq]
    omega
  · have hmonth' := hb.marchMonth
    have hle := ha.day_le (by omega)
    rw [a.ordinal_eq, b.ordinal_eq, hyear]
    omega
  · rw [a.ordinal_eq, b.ordinal_eq, hyear, hmonth]
    omega

end InCalendar

variable {a b d : Date}

/-- **Numbers are ordered as their dates.** -/
theorem ordinal_lt_iff (ha : a.InCalendar) (hb : b.InCalendar) : a.ordinal < b.ordinal ↔ a.Before b := by
  refine ⟨fun h => ?_, ha.ordinal_lt hb⟩
  rcases before_trichotomy a b with hab | rfl | hba
  · exact hab
  · exact absurd h (Int.lt_irrefl _)
  · exact absurd (hb.ordinal_lt ha hba) (by omega)

/-- No two dates have one number. -/
theorem ordinal_injective (ha : a.InCalendar) (hb : b.InCalendar) (h : a.ordinal = b.ordinal) : a = b := by
  rcases before_trichotomy a b with hab | rfl | hba
  · exact absurd (ha.ordinal_lt hb hab) (by omega)
  · rfl
  · exact absurd (hb.ordinal_lt ha hba) (by omega)

/-- **Every date is that of its number.** -/
theorem ofOrdinal_ordinal (h : d.InCalendar) : ofOrdinal d.ordinal = d :=
  ordinal_injective (inCalendar_ofOrdinal _) h (ordinal_ofOrdinal _)

/-! ## The day after a day -/

/-- **The day after a day**: the next one of its month, or else the first one of the next month. -/
def next (d : Date) : Date :=
  if d.day < monthLength d.year d.month then { d with day := d.day + 1 }
  else if d.month < 12 then ⟨d.year, d.month + 1, 1⟩
  else ⟨d.year + 1, 1, 1⟩

/-- The day behind a date of the calendar is one. -/
theorem InCalendar.next (h : d.InCalendar) : d.next.InCalendar := by
  have hmonth := h.month
  have hlength : ∀ year month, 1 ≤ monthLength year month := fun year month =>
    Nat.le_trans (by decide) (monthLength_bounds year month).1
  unfold Date.next
  split
  · exact ⟨hmonth, Nat.le_add_left _ _, ‹_›⟩
  · split
    · exact ⟨⟨Nat.le_add_left _ _, ‹_›⟩, Nat.le_refl _, hlength _ _⟩
    · exact ⟨⟨Nat.le_refl _, Nat.le_add_left _ _⟩, Nat.le_refl _, hlength _ _⟩

/-- The day after a day has the next number. -/
theorem ordinal_next (h : d.InCalendar) : d.next.ordinal = d.ordinal + 1 := by
  obtain ⟨year, month, day⟩ := d
  obtain ⟨⟨h1, h12⟩, hday⟩ := h
  unfold Date.next
  simp only at *
  split
  · rw [ordinal_eq, ordinal_eq]
    simp only [marchYear, marchMonth]
    omega
  · obtain rfl : day = monthLength year month := by omega
    by_cases hfebruary : month = 2
    · -- The day after the last one of February is the first one of the next year from March on.
      subst hfebruary
      have hyear := marchOf_succ (year - 1)
      rw [sub_add_cancel] at hyear
      rw [if_pos (by decide), ordinal_eq, ordinal_eq, monthLength_february]
      simp only [marchYear, marchMonth]
      by_cases hleap : isLeap year = true
      · simp [hleap] at hyear ⊢
        omega
      · simp [hleap] at hyear ⊢
        omega
    · rw [ordinal_eq, ordinal_eq]
      simp only [marchYear, marchMonth, monthLength]
      interval_cases month <;> simp at hfebruary ⊢ <;> omega

/-- **The next number is that of the day after.** -/
theorem ofOrdinal_succ (n : Int) : ofOrdinal (n + 1) = (ofOrdinal n).next := by
  have h := inCalendar_ofOrdinal n
  rw [← ofOrdinal_ordinal h.next, ordinal_next h, ordinal_ofOrdinal]

end Date

end Xlsx.Calendar
