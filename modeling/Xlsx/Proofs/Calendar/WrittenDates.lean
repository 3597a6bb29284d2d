import Xlsx.Cell.Decoder
import Xlsx.Proofs.Calendar.WholeSerials
import Xlsx.Proofs.Text.Trimming

/-! # Dates that are read back

The text that displays a day is read as this day, alone or with the midnight behind it, between white
space, and with a `Z` at its end.

* **`Notation.parts?_date`**, **`Notation.parts?_minute`**: a date and a time at the head of a text.
* **`Epoch.serialOfText?_day`**: the texts of a day at midnight.
* **`Decoder.decode_display`**: a cell that holds the text of a date. -/

namespace Xlsx

open Calendar

namespace Calendar

namespace Notation

/-! ## Numbers in a notation -/

variable {n : Nat}

/-- A number with all the digits that it may have. -/
theorem number?_paddedDecimal {width : Nat} (hwidth : 0 < width) (h : n < 10 ^ width) (rest : List Char) :
    number? width (Text.paddedDecimal width n ++ rest) = some (n, rest) := by
  have hlength := Text.length_paddedDecimal hwidth h
  have hdigits : (Text.paddedDecimal width n).takeWhile Char.isDigit = Text.paddedDecimal width n :=
    List.takeWhile_eq_self_iff.mpr fun c hc => Text.isDigit_of_mem_paddedDecimal hc
  unfold number?
  simp only [List.take_left' hlength, hdigits, Text.natural?_paddedDecimal, List.drop_left]
  rfl

/-- There is no white space in front of a number. -/
theorem exists_paddedDecimal_append (width n : Nat) (rest : List Char) :
    ∃ c cs, Text.paddedDecimal width n ++ rest = c :: cs ∧ c.isDigit = true := by
  obtain ⟨c, cs, hcs⟩ := List.exists_cons_of_ne_nil (Text.paddedDecimal_ne_nil width n)
  refine ⟨c, cs ++ rest, by rw [hcs, List.cons_append], ?_⟩
  exact Text.isDigit_of_mem_paddedDecimal (hcs ▸ List.mem_cons_self)

/-- A number in front leaves nothing to trim. -/
theorem trimLeft_paddedDecimal (width n : Nat) (rest : List Char) :
    Text.trimLeft (Text.paddedDecimal width n ++ rest) = Text.paddedDecimal width n ++ rest := by
  obtain ⟨c, cs, hcs, hdigit⟩ := exists_paddedDecimal_append width n rest
  rw [hcs]
  exact List.dropWhile_cons_of_neg (by simp [Text.isBlank_of_isDigit hdigit])

/-- A number of two digits. -/
theorem short?_paddedDecimal (h : n < 100) (rest : List Char) :
    short? (Text.paddedDecimal 2 n ++ rest) = some (n, rest) := by
  rw [short?, trimLeft_paddedDecimal, number?_paddedDecimal (by decide) h]

/-- A year of four digits. -/
theorem year?_paddedDecimal (h : n < 10000) (rest : List Char) :
    year? (Text.paddedDecimal 4 n ++ rest) = some ((n : Int), rest) := by
  obtain ⟨c, cs, hcs, hdigit⟩ := exists_paddedDecimal_append 4 n rest
  have hnumber := @number?_paddedDecimal n 4 (by decide) h rest
  unfold year?
  rw [trimLeft_paddedDecimal, hcs] at *
  split
  · rename_i hsign
    rw [(List.cons.inj hsign).1] at hdigit
    exact absurd hdigit (by decide)
  · rename_i hsign
    rw [(List.cons.inj hsign).1] at hdigit
    exact absurd hdigit (by decide)
  · rw [hnumber]
    rfl

/-! ## Dates and times -/

/-- A character of the notation itself. -/
theorem parts?_mark (c : Char) (fields : List Field) (p : Parts) (rest : List Char) :
    parts? (.mark c :: fields) p (c :: rest) = parts? fields p rest := by
  rw [parts?]
  simp only [step?, if_true]

/-- **A date** at the head of a text. -/
theorem parts?_date {d : Date} (hyear : 0 ≤ d.year ∧ d.year < 10000) (hmonth : d.month < 100)
    (hday : d.day < 100) (fields : List Field) (p : Parts) (rest : List Char) :
    parts? (dateFields ++ fields) p (d.chars ++ rest) =
      parts? fields { p with year := d.year, month := d.month, day := d.day } rest := by
  have hchars : d.chars ++ rest = Text.paddedDecimal 4 d.year.toNat ++
      '-' :: (Text.paddedDecimal 2 d.month ++ '-' :: (Text.paddedDecimal 2 d.day ++ rest)) := by
    simp [Date.chars, Date.yearChars, hyear]
  have hnat : ((d.year.toNat : Nat) : Int) = d.year := Int.toNat_of_nonneg hyear.1
  have hlt : d.year.toNat < 10000 := by omega
  rw [hchars, dateFields]
  simp only [List.cons_append, List.nil_append, parts?, step?, year?_paddedDecimal hlt,
    short?_paddedDecimal hmonth, short?_paddedDecimal hday, Option.map_some, if_true, hnat]

/-- **A time** to the minute at the head of a text. -/
theorem parts?_minute {hour minute : Nat} (hhour : hour < 100) (hminute : minute < 100)
    (fields : List Field) (p : Parts) (rest : List Char) :
    parts? (minuteFields ++ fields) p
        (Text.paddedDecimal 2 hour ++ ':' :: (Text.paddedDecimal 2 minute ++ rest)) =
      parts? fields { p with hour, minute } rest := by
  rw [minuteFields]
  simp only [List.cons_append, List.nil_append, parts?, step?, short?_paddedDecimal hhour,
    short?_paddedDecimal hminute, Option.map_some, if_true]

/-- A second behind the time, without a fraction of it. -/
theorem parts?_second {second : Nat} (h : second < 100) (p : Parts) :
    parts? [.mark ':', .second, .fraction] p (':' :: Text.paddedDecimal 2 second) =
      some { p with second, nano := 0 } := by
  have hshort := short?_paddedDecimal h []
  rw [List.append_nil] at hshort
  simp only [parts?, step?, if_true, hshort, Option.map_some, fraction?]

end Notation

/-! ## The texts of a day -/

/-- **What may stand behind a day** that is written at midnight: nothing, or the time to the minute or
to the second. -/
def midnightTimes : List String := ["", "T00:00", "T00:00:00"]

/-- What may stand at the end of a moment. -/
def zones : List String := ["", "Z"]

/-- The characters of a written day at midnight. -/
def isMomentChar (c : Char) : Bool := c.isDigit || c ∈ ['-', 'T', ':']

/-- None of them is white space. -/
theorem isBlank_of_isMomentChar {c : Char} (h : isMomentChar c = true) : Text.isBlank c = false := by
  rcases Bool.or_eq_true_iff.mp h with hdigit | hmark
  · exact Text.isBlank_of_isDigit hdigit
  · have hmarks : ['-', 'T', ':'].all (fun c => !Text.isBlank c) = true := by decide
    simpa using List.all_eq_true.mp hmarks c (of_decide_eq_true hmark)

/-- The `Z` at the end of a text, if there is one, is passed over. -/
theorem withoutZone {cs : List Char} (h : ∀ c ∈ cs, isMomentChar c = true) {zone : String}
    (hzone : zone ∈ zones) :
    (if (cs ++ zone.toList).getLast? = some 'Z' then (cs ++ zone.toList).dropLast
      else cs ++ zone.toList) = cs := by
  have hempty : "".toList = [] := rfl
  have hz : "Z".toList = ['Z'] := rfl
  rcases List.mem_cons.mp hzone with rfl | hzone
  · have hlast : cs.getLast? ≠ some 'Z' := fun hz => absurd (h 'Z' (List.mem_of_getLast? hz)) (by decide)
    rw [hempty, List.append_nil, if_neg hlast]
  · rw [List.mem_singleton.mp hzone, hz, List.getLast?_concat, if_pos rfl, List.dropLast_concat]

section

variable {d : Date} (hyear : 0 ≤ d.year ∧ d.year < 10000)

include hyear

/-- A written date has characters of a moment alone. -/
theorem isMomentChar_date : ∀ c ∈ d.chars, isMomentChar c = true := by
  have hdigits : ∀ width n, ∀ c ∈ Text.paddedDecimal width n, isMomentChar c = true := fun width n c hc =>
    Bool.or_eq_true_iff.mpr (.inl (Text.isDigit_of_mem_paddedDecimal hc))
  intro c hc
  rw [Date.chars, Date.yearChars, if_pos hyear] at hc
  simp only [List.mem_append, List.mem_cons] at hc
  rcases hc with (hc | rfl | hc) | rfl | hc
  · exact hdigits _ _ c hc
  · decide
  · exact hdigits _ _ c hc
  · decide
  · exact hdigits _ _ c hc

/-- So has one with midnight behind it. -/
theorem isMomentChar_midnight {time : String} (htime : time ∈ midnightTimes) :
    ∀ c ∈ d.chars ++ time.toList, isMomentChar c = true := by
  have htimes : midnightTimes.all (fun time => time.toList.all isMomentChar) = true := by decide
  intro c hc
  rcases List.mem_append.mp hc with hc | hc
  · exact isMomentChar_date hyear c hc
  · exact List.all_eq_true.mp (List.all_eq_true.mp htimes time htime) c hc

variable (hd : d.isValid = true)

include hd

/-- A text that begins with a day. -/
theorem parts?_day (fields : List Field) (rest : List Char) :
    Notation.parts? (dateFields ++ fields) {} (d.chars ++ rest) =
      Notation.parts? fields { year := d.year, month := d.month, day := d.day } rest := by
  obtain ⟨⟨hmonth, hday⟩, -⟩ := Date.isValid_iff.mp hd
  have hlength := Date.monthLength_bounds d.year d.month
  exact Notation.parts?_date hyear (by omega) (by omega) _ _ _

/-- A text that begins with a day and has nothing else is no moment. -/
theorem momentOf?_day (timeFields : List Field) : momentOf? timeFields d.chars = none := by
  have hparts := parts?_day hyear hd (.mark 'T' :: timeFields) []
  rw [List.append_nil] at hparts
  rw [momentOf?, hparts]
  rfl

/-- A text that is a day. -/
theorem dateOf?_day : dateOf? d.chars = some d := by
  have hparts := parts?_day hyear hd [] []
  rw [List.append_nil, List.append_nil] at hparts
  rw [dateOf?, hparts]
  show Date.ofParts? d.year d.month d.day = some d
  exact if_pos hd

/-- A day with the midnight to the minute. -/
theorem momentOf?_minute :
    momentOf? secondFields (d.chars ++ "T00:00".toList) = none ∧
      momentOf? minuteFields (d.chars ++ "T00:00".toList) = some ⟨d, Time.midnight⟩ := by
  have htime : "T00:00".toList =
      'T' :: (Text.paddedDecimal 2 0 ++ ':' :: (Text.paddedDecimal 2 0 ++ [])) := by decide
  have hminute := fun fields p => @Notation.parts?_minute 0 0 (by decide) (by decide) fields p []
  have hdate : Date.ofParts? d.year d.month d.day = some d := if_pos hd
  have hmidnight : Time.ofParts? 0 0 0 0 = some Time.midnight := by decide
  constructor
  · rw [momentOf?, htime, parts?_day hyear hd, Notation.parts?_mark, secondFields, hminute]
    rfl
  · have hnil := hminute []
    rw [List.append_nil] at hnil
    rw [momentOf?, htime, parts?_day hyear hd, Notation.parts?_mark, hnil]
    simp [Notation.parts?, Parts.date?, hdate, Parts.time?, hmidnight]

/-- A day with the midnight to the second. -/
theorem momentOf?_second :
    momentOf? secondFields (d.chars ++ "T00:00:00".toList) = some ⟨d, Time.midnight⟩ := by
  have htime : "T00:00:00".toList = 'T' :: (Text.paddedDecimal 2 0 ++
      ':' :: (Text.paddedDecimal 2 0 ++ ':' :: Text.paddedDecimal 2 0)) := by decide
  have hdate : Date.ofParts? d.year d.month d.day = some d := if_pos hd
  have hmidnight : Time.ofParts? 0 0 0 0 = some Time.midnight := by decide
  rw [momentOf?, htime, parts?_day hyear hd, Notation.parts?_mark, secondFields,
    Notation.parts?_minute (by decide) (by decide), Notation.parts?_second (by decide)]
  simp [Parts.date?, hdate, Parts.time?, hmidnight]

end

end Calendar

/-- **The texts of a day at midnight** all give its serial. -/
theorem Epoch.serialOfText?_day (e : Epoch) {d : Date} (hyear : 0 ≤ d.year ∧ d.year < 10000)
    (hd : d.isValid = true) {time zone : String} (htime : time ∈ midnightTimes) (hzone : zone ∈ zones) :
    e.serialOfText? (d.chars ++ time.toList ++ zone.toList) = e.serial? ⟨d, Time.midnight⟩ := by
  unfold serialOfText?
  simp only [withoutZone (isMomentChar_midnight hyear htime) hzone]
  rcases List.mem_cons.mp htime with rfl | htime
  · have hempty : d.chars ++ "".toList = d.chars := List.append_nil _
    simp only [hempty, momentOf?_day hyear hd, dateOf?_day hyear hd]
  rcases List.mem_cons.mp htime with rfl | htime
  · obtain ⟨hsecond, hminute⟩ := momentOf?_minute hyear hd
    simp only [hsecond, hminute]
  · rw [List.mem_singleton.mp htime]
    simp only [momentOf?_second hyear hd]

/-- The text that displays a whole serial is that of its day. -/
theorem Epoch.display_of_isWhole {e : Epoch} {x : Double} {m : Moment} (hwhole : x.isWhole = true)
    (h : e.moment? x = some m) : (e.display x).toList = m.date.chars := by
  rw [Epoch.display, h]
  simp only [hwhole, if_true, String.toList_ofList]

/-- No whole serial stands for a day before the first one. -/
theorem Epoch.firstYear_le_of_moment? {e : Epoch} {x : Double} {m : Moment} (hwhole : x.isWhole = true)
    (h : e.moment? x = some m) : 1899 ≤ m.date.year := by
  obtain ⟨-, hdate, hvalid⟩ := date_of_moment? hwhole h
  have hserial : 0 ≤ e.serialOfDay m.date.ordinal := by
    rw [← hdate, Date.ordinal_ofOrdinal, serialOfDay_dayOfSerial]
    split <;> omega
  have hfirst := (zero_le_serialOfDay_iff (Date.isValid_iff.mp hvalid).1).mp hserial
  unfold Date.Before at hfirst
  cases e with
  | since1900 =>
    have hyear : (firstDay .since1900).year = 1899 := rfl
    omega
  | since1904 =>
    have hyear : (firstDay .since1904).year = 1904 := rfl
    omega

/-- The content of a cell whose value stands between white space. -/
theorem RawCell.content?_between {raw : RawCell} {before text after : String}
    (hvalue : raw.value = some (before ++ text ++ after)) (hbefore : Text.isAllBlank before = true)
    (hafter : Text.isAllBlank after = true) (hsome : text.toList ≠ [])
    (htext : ∀ c ∈ text.toList, Text.isBlank c = false) : raw.content? = some text := by
  have htrim : Text.trim (before ++ text ++ after) = text := by
    rw [Text.trim, String.toList_append, String.toList_append,
      Text.trimChars_append_blanks (List.all_eq_true.mp hafter),
      Text.trimChars_blanks_append (List.all_eq_true.mp hbefore), Text.trimChars_eq_self htext,
      String.ofList_toList]
  have hfilled : text.isEmpty = false := by
    rw [Bool.eq_false_iff, ne_eq, String.isEmpty_iff]
    rintro rfl
    exact hsome rfl
  rw [content?_of_value hvalue (htrim.symm ▸ hfilled), htrim]

namespace Decoder

/-- **Displayed dates are read back.** Let a whole serial stand for a day of a year of four digits, and
not be the one that shares its day with the serial before it. A date cell that holds the text of this
day decodes to a date with an equal serial, also when midnight stands behind the day, a `Z` at the end,
and white space around it. -/
theorem decode_display (d : Decoder) {x : Double} {m : Moment} (hwhole : x.isWhole = true)
    (hmoment : d.epoch.moment? x = some m) (hyear : m.date.year ≤ 9999)
    (hleap : ¬ (d.epoch = .since1900 ∧ x.wholePart = 60)) {before time zone after : String}
    (hbefore : Text.isAllBlank before = true) (htime : time ∈ midnightTimes) (hzone : zone ∈ zones)
    (hafter : Text.isAllBlank after = true) {raw : RawCell} (htype : raw.type = .date)
    (hvalue : raw.value = some (before ++ ((Cell.date x d.epoch).display ++ time ++ zone) ++ after)) :
    ∃ y, d.decode raw = .ok (.date y d.epoch) ∧ y.numEq x = true := by
  have hchars : ((Cell.date x d.epoch).display ++ time ++ zone).toList =
      m.date.chars ++ time.toList ++ zone.toList := by
    rw [String.toList_append, String.toList_append, Cell.display, Epoch.display_of_isWhole hwhole hmoment]
  have hfirst := Epoch.firstYear_le_of_moment? hwhole hmoment
  have hyears : 0 ≤ m.date.year ∧ m.date.year < 10000 := ⟨by omega, by omega⟩
  obtain ⟨hmidnight, -, hd⟩ := Epoch.date_of_moment? hwhole hmoment
  have hcontent : raw.content? = some ((Cell.date x d.epoch).display ++ time ++ zone) := by
    refine RawCell.content?_between hvalue hbefore hafter ?_ ?_
    · rw [hchars, Date.chars]
      simp
    · have hzones : zones.all (fun zone => zone.toList.all fun c => !Text.isBlank c) = true := by decide
      intro c hc
      rw [hchars] at hc
      rcases List.mem_append.mp hc with hc | hc
      · exact isBlank_of_isMomentChar (isMomentChar_midnight hyears htime c hc)
      · simpa using List.all_eq_true.mp (List.all_eq_true.mp hzones zone hzone) c hc
  obtain ⟨hserial, hequal⟩ := Epoch.serial?_of_moment? hwhole hmoment
  rw [if_neg hleap] at hserial
  have hm : m = ⟨m.date, Time.midnight⟩ := hmidnight ▸ rfl
  refine ⟨.ofNat x.wholePart, ?_, hequal⟩
  have hread := d.epoch.serialOfText?_day hyears hd htime hzone
  rw [← hm, hserial, ← hchars] at hread
  simp only [decode, htype, hcontent, decodeDate, hread]

/-- A day of the year 2023, with the time to the minute. -/
theorem decode_display_minute :
    (Cell.date (.ofNat 45000) .since1900).display = "2023-03-15" ∧
      ∃ y, (Decoder.mk {} {} .since1900).decode
          { column := 0, type := .date, value := some " 2023-03-15T00:00Z\n" } =
        .ok (.date y .since1900) ∧ y.numEq (.ofNat 45000) = true := by
  have hdisplay : (Cell.date (.ofNat 45000) .since1900).display = "2023-03-15" := by decide +kernel
  have hmoment : Epoch.since1900.moment? (.ofNat 45000) = some ⟨⟨2023, 3, 15⟩, Time.midnight⟩ := by
    decide +kernel
  refine ⟨hdisplay, @decode_display ⟨{}, {}, .since1900⟩ _ _ (by decide +kernel) hmoment (by decide)
    (by decide +kernel) " " "T00:00" "Z" "\n" (by decide) (by decide) (by decide) (by decide) _ rfl ?_⟩
  rw [hdisplay]
  rfl

end Decoder

end Xlsx
