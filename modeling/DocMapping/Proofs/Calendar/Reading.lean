import DocMapping.Proofs.Calendar.Moment
import DocMapping.Proofs.Calendar.Texts
import DocMapping.Proofs.Text.Digits

/-!
# Reading Written Dates and Times

Every date and every time of day is read from its text as it was, whatever its year and with its leap
seconds.  Universal date-times are read to the millisecond, but only those of years with four digits.
-/

namespace DocMapping

/-! ## Days of the calendar -/

namespace Date

theorem dayOfEra_bounds (day : Int) : 0 ≤ dayOfEra day ∧ dayOfEra day ≤ 146096 := by
  unfold dayOfEra
  omega

/-- The day number of a year, month and day is that of the day they were computed from. -/
theorem dayNumber_civil (day : Int) :
    dayNumber (civil day).1 (civil day).2.1 (civil day).2.2 = day := by
  have hday := dayOfEra_bounds day
  have hyear := yearOfEra_bounds hday.1 hday.2
  have hmonth := month_bounds (dayOfYear_bounds day)
  have hera : (marchYear day).fdiv 400 = era day := by
    rw [Int.fdiv_eq_ediv_of_nonneg _ (by decide)]
    unfold marchYear
    omega
  have hrest : marchYear day - era day * 400 = yearOfEra (dayOfEra day) := by
    unfold marchYear
    omega
  have hsplit : era day * 146097 + dayOfEra day = day + 719468 := by
    unfold era dayOfEra
    omega
  have hstart : yearOfEra (dayOfEra day) * 365 + yearOfEra (dayOfEra day) / 4 -
      yearOfEra (dayOfEra day) / 100 + dayOfYear day = dayOfEra day := by
    unfold dayOfYear yearStart
    omega
  have hparts : (153 * monthIndex (dayOfYear day) + 2) / 5 + monthDay (dayOfYear day) - 1 =
      dayOfYear day := by
    unfold monthDay
    omega
  obtain ⟨index, hindex⟩ := Int.eq_ofNat_of_zero_le hmonth.1.1
  obtain ⟨dayOfMonth, hdayOfMonth⟩ := Int.eq_ofNat_of_zero_le (show 0 ≤ monthDay (dayOfYear day) by omega)
  have hmarch : (if (civil day).2.1 ≤ 2 then (civil day).1 - 1 else (civil day).1) =
      marchYear day ∧ ((civil day).2.1 + 9) % 12 = index := by
    rw [civil_eq, hindex]
    dsimp only
    split <;> split <;> omega
  have hlast : (civil day).2.2 = dayOfMonth := by
    rw [civil_eq, hdayOfMonth]
    rfl
  unfold dayNumber
  dsimp only
  rw [hmarch.1, hmarch.2, hlast, hera, hrest]
  rw [hindex, hdayOfMonth] at hparts
  omega

/-- A year that begins in March has its 366th day only if it ends in a leap year. -/
theorem isLeap_of_dayOfYear {day : Int} (h : dayOfYear day = 365) :
    isLeap (marchYear day + 1) = true := by
  have hday := dayOfEra_bounds day
  have hyear := yearOfEra_bounds hday.1 hday.2
  -- In a common year, the day would already be the first one of the next year.
  by_contra hcommon
  have hera (divisor : Int) (h : divisor ∣ 400) :
      (marchYear day + 1) % divisor = (yearOfEra (dayOfEra day) + 1) % divisor := by
    have hsplit : marchYear day + 1 = yearOfEra (dayOfEra day) + 1 + era day * 400 :=
      Int.add_right_comm ..
    rw [hsplit, Int.add_emod, Int.emod_eq_zero_of_dvd (h.mul_left _), Int.add_zero, Int.emod_emod]
  unfold isLeap at hcommon
  rw [decide_eq_true_eq, hera 4 (by decide), hera 100 (by decide), hera 400 (by decide)] at hcommon
  have hnext : yearStart (yearOfEra (dayOfEra day) + 1) = dayOfEra day := by
    unfold dayOfYear at h
    unfold yearStart at h ⊢
    by_cases hcentury : (yearOfEra (dayOfEra day) + 1) % 100 = 0
    · have hfour : (yearOfEra (dayOfEra day) + 1) % 4 = 0 := by omega
      omega
    · have hsame : (yearOfEra (dayOfEra day) + 1) / 100 = yearOfEra (dayOfEra day) / 100 := by
        omega
      omega
  have hcounted : yearOfEra (yearStart (yearOfEra (dayOfEra day) + 1) + 0) =
      yearOfEra (dayOfEra day) + 1 := yearOfEra_yearStart (by omega) (by omega)
  rw [Int.add_zero, hnext] at hcounted
  omega

/-- A month ends before the next one begins, and February early in common years. -/
theorem dayOfMonth_le (day : Int) :
    (civil day).2.2 ≤ daysInMonth (civil day).1 (civil day).2.1 := by
  have hbounds := dayOfYear_bounds day
  have hmonth := month_bounds hbounds
  have hlength : monthIndex (dayOfYear day) = 11 ∧ (monthDay (dayOfYear day) ≤ 28 ∨
      dayOfYear day = 365 ∧ monthDay (dayOfYear day) ≤ 29) ∨
      monthIndex (dayOfYear day) ≠ 11 ∧ (monthDay (dayOfYear day) ≤ 30 ∨
        monthIndex (dayOfYear day) ∉ [1, 3, 6, 8] ∧ monthDay (dayOfYear day) ≤ 31) := by
    simp only [List.mem_cons, List.not_mem_nil, or_false]
    unfold monthDay monthIndex
    omega
  rw [civil_eq]
  unfold daysInMonth
  simp only [List.mem_cons, List.not_mem_nil, or_false] at hlength
  dsimp only
  by_cases hfebruary : monthIndex (dayOfYear day) = 11
  · rw [if_neg (by omega : ¬monthIndex (dayOfYear day) < 10),
      if_neg (by omega : ¬monthIndex (dayOfYear day) < 10), if_pos (by omega)]
    split
    · omega
    · next hcommon =>
      have hshort := mt isLeap_of_dayOfYear hcommon
      omega
  · split <;> (rw [if_neg (by omega)]; split <;> omega)

/-- A date is the one of its year, month and day. -/
theorem ofCivil?_civil (d : Date) : ofCivil? d.year d.month d.dayOfMonth = some d := by
  obtain ⟨hmonth, hday, -⟩ := civil_bounds d.day
  have hnumber : dayNumber d.year d.month d.dayOfMonth = d.day := dayNumber_civil d.day
  unfold ofCivil?
  rw [if_pos ⟨hmonth.1, hmonth.2, hday, dayOfMonth_le d.day⟩, hnumber]
  exact dif_pos ⟨d.day_ge, d.day_le⟩

end Date

/-! ## Dates -/

namespace Reading

theorem dropWhile_isBlank {l rest : List Char} (hl : ∀ c ∈ l, c.isDigit = true) (hne : l ≠ []) :
    (l ++ rest).dropWhile isBlank = l ++ rest := by
  cases l with
  | nil => exact absurd rfl hne
  | cons c l =>
    have hdigit := hl c List.mem_cons_self
    have hblank : isBlank c = false := by
      simp only [Char.isDigit, Bool.and_eq_true, decide_eq_true_eq] at hdigit
      have hlow : 48 ≤ c.toNat := hdigit.1
      have hhigh : c.toNat ≤ 57 := hdigit.2
      unfold isBlank
      simp only [Bool.or_eq_false_iff, Bool.and_eq_false_iff, decide_eq_false_iff_not,
        beq_eq_false_iff_ne]
      omega
    rw [List.cons_append, List.dropWhile_cons, hblank]
    rfl

/-- A number of two digits. -/
theorem shortNumber?_digits {number : Nat} (h : number < 100) (rest : List Char) :
    shortNumber? (Text.digits 2 number ++ rest) = some (number, rest) := by
  have hlength := Text.length_digits 2 number
  have hne : Text.digits 2 number ≠ [] := by
    rw [← List.length_pos_iff, hlength]
    decide
  rw [shortNumber?, dropWhile_isBlank Text.isDigit_digits hne,
    number?_append Text.isDigit_digits (by omega) hlength.le (.inl hlength),
    Text.value_digits (by omega)]

theorem expect?_cons (c : Char) (rest : List Char) : expect? c (c :: rest) = some rest :=
  if_pos rfl

theorem toList_twoDigits {number : Nat} (h : number < 100) :
    (Date.twoDigits number).toList = Text.digits 2 number := by
  rw [Date.twoDigits_eq h, Text.toList_padded (by decide) h]

/-- The digits of a year, at least four of them. -/
def yearDigits (year : Int) : List Char :=
  Text.digits (max 4 (Rounding.digitCount year.natAbs)) year.natAbs

theorem lt_yearDigits (year : Int) :
    year.natAbs < 10 ^ max 4 (Rounding.digitCount year.natAbs) :=
  (Text.lt_pow_digitCount _).trans_le (Nat.pow_le_pow_right (by decide) (Nat.le_max_right ..))

theorem toList_yearText (year : Int) :
    (Date.yearText year).toList =
      (if year < 0 then ['-'] else if 9999 < year then ['+'] else []) ++ yearDigits year := by
  have hdigits : List.replicate (4 - (Nat.toDigits 10 year.natAbs).length) '0' ++
      Nat.toDigits 10 year.natAbs = yearDigits year := by
    rw [yearDigits, ← Text.replicate_toDigits (by omega) (lt_yearDigits year), Rounding.digitCount]
    congr 2
    omega
  have hpadded : (String.ofList (List.replicate (4 - (toString year.natAbs).length) '0') ++
      toString year.natAbs).toList = yearDigits year := by
    rw [String.toList_append, String.toList_ofList, Nat.toString_eq_ofList_toDigits,
      String.length_ofList, String.toList_ofList, hdigits]
  unfold Date.yearText
  dsimp only
  split
  · rw [String.toList_append, hpadded]
    rfl
  · split
    · rw [String.toList_append, hpadded]
      rfl
    · exact hpadded

theorem yearDigits_ne_nil (year : Int) : yearDigits year ≠ [] := by
  rw [← List.length_pos_iff, yearDigits, Text.length_digits]
  omega

theorem number?_yearDigits {year : Int} {most : Nat} {rest : List Char}
    (hmost : (yearDigits year).length ≤ most) :
    number? 1 most (yearDigits year ++ '-' :: rest) = some (year.natAbs, '-' :: rest) := by
  have hpos : 1 ≤ (yearDigits year).length := List.length_pos_iff.2 (yearDigits_ne_nil year)
  have hvalue : value (yearDigits year) = year.natAbs := Text.value_digits (lt_yearDigits year)
  have hhyphen : ∀ c ∈ ('-' :: rest).head?, c.isDigit = false := by
    intro c hc
    cases hc
    rfl
  have hdigits : ∀ c ∈ yearDigits year, c.isDigit = true := Text.isDigit_digits
  rw [number?_append hdigits hpos hmost (.inr hhyphen), hvalue]

/-- A year is read up to the hyphen behind it. -/
theorem year?_yearText (year : Int) (rest : List Char) :
    year? ((Date.yearText year).toList ++ '-' :: rest) = some (year, '-' :: rest) := by
  have hdigits : ∀ c ∈ yearDigits year, c.isDigit = true := Text.isDigit_digits
  rw [toList_yearText, List.append_assoc]
  unfold year?
  by_cases hneg : year < 0
  · rw [if_pos hneg]
    change (number? 1 (yearDigits year ++ '-' :: rest).length (yearDigits year ++ '-' :: rest)).map
      _ = _
    rw [number?_yearDigits (by simp)]
    simp only [Option.map_some, Option.some.injEq, Prod.mk.injEq, and_true]
    omega
  · rw [if_neg hneg]
    by_cases hlong : 9999 < year
    · rw [if_pos hlong]
      change (number? 1 (yearDigits year ++ '-' :: rest).length
        (yearDigits year ++ '-' :: rest)).map _ = _
      rw [number?_yearDigits (by simp)]
      simp only [Option.map_some, Option.some.injEq, Prod.mk.injEq, and_true]
      omega
    · have hfour : (yearDigits year).length ≤ 4 := by
        have hcount : Rounding.digitCount year.natAbs ≤ 4 :=
          (Nat.length_toDigits_le_iff (by decide) (by decide)).2 (by omega)
        rw [yearDigits, Text.length_digits]
        omega
      have hread : ((number? 1 4 (yearDigits year ++ '-' :: rest)).map
          fun read ↦ ((read.1 : Int), read.2)) = some (year, '-' :: rest) := by
        rw [number?_yearDigits hfour]
        simp only [Option.map_some, Option.some.injEq, Prod.mk.injEq, and_true]
        omega
      have hfront {sign : Char} {others : List Char}
          (h : yearDigits year ++ '-' :: rest = sign :: others) : sign.isDigit = true := by
        obtain ⟨c, l, hl⟩ := List.exists_cons_of_ne_nil (yearDigits_ne_nil year)
        rw [hl, List.cons_append, List.cons.injEq] at h
        exact h.1 ▸ hdigits c (hl ▸ List.mem_cons_self)
      rw [if_neg hlong, List.nil_append, dropWhile_isBlank hdigits (yearDigits_ne_nil year)]
      split
      · next hminus => exact absurd (hfront hminus) (by decide)
      · next hplus => exact absurd (hfront hplus) (by decide)
      · exact hread

/-- Every date is read from its text. -/
theorem date?_text (d : Date) : date? d.text = some d := by
  obtain ⟨hmonth, hday⟩ := d.month_lt_hundred
  have htext : d.text.toList = (Date.yearText d.year).toList ++ '-' ::
      (Text.digits 2 d.month ++ '-' :: (Text.digits 2 d.dayOfMonth ++ [])) := by
    rw [Date.text_eq]
    simp only [String.toList_append, toList_twoDigits hmonth, toList_twoDigits hday,
      List.append_assoc, List.append_nil]
    rfl
  unfold date?
  rw [htext, year?_yearText]
  simp only [Option.bind_eq_bind, Option.bind_some, expect?_cons, shortNumber?_digits hmonth,
    shortNumber?_digits hday]
  exact Date.ofCivil?_civil d

/-! ## Times of day -/

/-- The clock shows leap seconds as second sixty. -/
theorem clock?_shown (t : Time) :
    clock? t.hour t.minute t.shownSecond (t.nanosecond.val % 10 ^ 9) = some t := by
  obtain ⟨hhour, hminute, -⟩ := t.clock_bounds
  have hnanosecond := t.nanosecond.isLt
  have hleap := t.leap
  have hseconds : Time.ofSeconds? t.second.val t.nanosecond.val = some t :=
    dif_pos ⟨t.second.isLt, hnanosecond, hleap⟩
  have hclock : t.hour * 3600 + t.minute * 60 + t.second.val % 60 = t.second.val := by
    unfold Time.hour Time.minute
    omega
  unfold clock? Time.ofClock?
  by_cases hlong : 10 ^ 9 ≤ t.nanosecond.val
  · have hshown : t.shownSecond = 60 := by
      unfold Time.shownSecond
      omega
    have hwhole : 10 ^ 9 + t.nanosecond.val % 10 ^ 9 = t.nanosecond.val := by omega
    rw [if_pos hshown, if_pos ⟨hhour, hminute, by decide⟩, ← hleap hlong, hclock, hwhole, hseconds]
  · have hshown : t.shownSecond = t.second.val % 60 := by
      unfold Time.shownSecond
      omega
    have hwhole : t.nanosecond.val % 10 ^ 9 = t.nanosecond.val := by omega
    rw [hshown, if_neg (by omega), if_pos ⟨hhour, hminute, by omega⟩, hclock, hwhole, hseconds]

/-- The digits behind a point are those of a fraction, up to another character. -/
theorem fraction?_point {width part : Nat} (hwidth : 0 < width) (hnine : width ≤ 9)
    (hpart : part < 10 ^ width) (after : List Char)
    (hafter : ∀ c ∈ after.head?, c.isDigit = false) :
    fraction? ('.' :: (Text.digits width part ++ after)) =
      some (part * 10 ^ (9 - width), after) := by
  have hlength := Text.length_digits width part
  have hstop : after.dropWhile Char.isDigit = after := by
    cases after with
    | nil => rfl
    | cons c rest => rw [List.dropWhile_cons, hafter c rfl, if_neg Bool.false_ne_true]
  change (number? 1 9 (Text.digits width part ++ after)).map _ = _
  rw [number?_append Text.isDigit_digits (by omega) (by omega) (.inr hafter),
    Text.value_digits hpart, List.length_append, hlength]
  dsimp only [Option.map_some]
  rw [hstop, Nat.add_sub_cancel]

theorem fraction?_fractionText {nanosecond : Nat} (h : nanosecond < 10 ^ 9) :
    fraction? (Time.fractionText nanosecond).toList = some (nanosecond, []) := by
  rcases Nat.eq_zero_or_pos nanosecond with rfl | hpos
  · rfl
  · obtain ⟨width, rest, part, htext, hwidth, hsum, hpart, hnumber⟩ :=
      Time.fractionText_eq hpos.ne' h
    have hread := fraction?_point hwidth (by omega) hpart [] (by simp)
    rw [List.append_nil, show 9 - width = rest by omega, ← hnumber] at hread
    rw [htext, String.toList_append, Text.toList_padded hwidth hpart]
    exact hread

/-- Every time of day is read from its text. -/
theorem time?_text (t : Time) : time? t.text = some t := by
  obtain ⟨hhour, hminute, hsecond⟩ := t.clock_bounds
  have htext : t.text.toList = Text.digits 2 t.hour ++ ':' :: (Text.digits 2 t.minute ++ ':' ::
      (Text.digits 2 t.shownSecond ++
        (Time.fractionText (t.nanosecond.val % 10 ^ 9)).toList)) := by
    unfold Time.text Time.clockText
    simp only [String.toList_append, toList_twoDigits (show t.hour < 100 by omega),
      toList_twoDigits (show t.minute < 100 by omega),
      toList_twoDigits (show t.shownSecond < 100 by omega), List.append_assoc]
    rfl
  unfold time?
  rw [htext, shortNumber?_digits (by omega)]
  simp only [Option.bind_eq_bind, Option.bind_some, expect?_cons,
    shortNumber?_digits (show t.minute < 100 by omega),
    shortNumber?_digits (show t.shownSecond < 100 by omega)]
  rw [fraction?_fractionText (Nat.mod_lt _ (by decide))]
  exact clock?_shown t

/-! ## Universal date-times -/

theorem number?_two {number : Nat} (h : number < 100) (rest : List Char) :
    number? 2 2 (Text.digits 2 number ++ rest) = some (number, rest) := by
  have hlength := Text.length_digits 2 number
  rw [number?_append Text.isDigit_digits hlength.ge hlength.le (.inl hlength),
    Text.value_digits (by omega)]

/-- Digits of fixed widths between their marks are a date and a time of day in universal time. -/
theorem universal?_digits {text : String} {year month day hour minute second part : Nat}
    {date : Date} {time : Time}
    (htext : text.toList = Text.digits 4 year ++ '-' :: (Text.digits 2 month ++ '-' ::
      (Text.digits 2 day ++ 'T' :: (Text.digits 2 hour ++ ':' :: (Text.digits 2 minute ++ ':' ::
        (Text.digits 2 second ++ '.' :: (Text.digits 3 part ++ ['Z'])))))))
    (hyear : year < 10 ^ 4) (hmonth : month < 100) (hday : day < 100) (hhour : hour < 100)
    (hminute : minute < 100) (hsecond : second < 100) (hpart : part < 10 ^ 3)
    (hdate : Date.ofCivil? year month day = some date)
    (htime : clock? hour minute second (part * 10 ^ 6) = some time) :
    universal? text = some ⟨date, time⟩ := by
  have hlength := Text.length_digits 4 year
  have hmark (rest : List Char) : mark? ('T' :: rest) = some rest := by
    unfold mark?
    exact if_pos (.inl rfl)
  have hfirst : number? 4 4 text.toList = some (year, '-' :: (Text.digits 2 month ++ '-' ::
      (Text.digits 2 day ++ 'T' :: (Text.digits 2 hour ++ ':' :: (Text.digits 2 minute ++ ':' ::
        (Text.digits 2 second ++ '.' :: (Text.digits 3 part ++ ['Z']))))))) := by
    rw [htext, number?_append Text.isDigit_digits hlength.ge hlength.le (.inl hlength),
      Text.value_digits hyear]
  have hread := fraction?_point (by decide) (by decide) hpart ['Z'] (by simp)
  refine Option.bind_eq_some_iff.2 ⟨_, hfirst, ?_⟩
  refine Option.bind_eq_some_iff.2 ⟨_, expect?_cons _ _, ?_⟩
  refine Option.bind_eq_some_iff.2 ⟨_, number?_two hmonth _, ?_⟩
  refine Option.bind_eq_some_iff.2 ⟨_, expect?_cons _ _, ?_⟩
  refine Option.bind_eq_some_iff.2 ⟨_, number?_two hday _, ?_⟩
  refine Option.bind_eq_some_iff.2 ⟨_, hmark _, ?_⟩
  refine Option.bind_eq_some_iff.2 ⟨_, number?_two hhour _, ?_⟩
  refine Option.bind_eq_some_iff.2 ⟨_, expect?_cons _ _, ?_⟩
  refine Option.bind_eq_some_iff.2 ⟨_, number?_two hminute _, ?_⟩
  refine Option.bind_eq_some_iff.2 ⟨_, expect?_cons _ _, ?_⟩
  refine Option.bind_eq_some_iff.2 ⟨_, number?_two hsecond _, ?_⟩
  refine Option.bind_eq_some_iff.2 ⟨_, hread, ?_⟩
  refine Option.bind_eq_some_iff.2 ⟨0, rfl, ?_⟩
  refine Option.bind_eq_some_iff.2 ⟨date, hdate, ?_⟩
  exact Option.bind_eq_some_iff.2 ⟨time, htime, Moment.shift?_zero ⟨date, time⟩⟩

theorem toList_internetText {m : Moment} (h : m.date.IsShort) :
    m.internetText.toList = Text.digits 4 m.date.year.natAbs ++ '-' ::
      (Text.digits 2 m.date.month ++ '-' :: (Text.digits 2 m.date.dayOfMonth ++ 'T' ::
        (Text.digits 2 m.time.hour ++ ':' :: (Text.digits 2 m.time.minute ++ ':' ::
          (Text.digits 2 m.time.shownSecond ++ '.' ::
            (Text.digits 3 (m.time.nanosecond.val % 10 ^ 9 / 1000000) ++ ['Z'])))))) := by
  obtain ⟨hhour, hminute, hsecond⟩ := m.time.clock_bounds
  obtain ⟨hmonth, hday⟩ := m.date.month_lt_hundred
  have hyear : m.date.year.natAbs < 10 ^ 4 := by
    unfold Date.IsShort at h
    omega
  have hfraction : m.time.nanosecond.val % 10 ^ 9 / 1000000 < 10 ^ 3 := by omega
  unfold Moment.internetText Time.clockText
  rw [Date.text_eq, Date.yearText_eq h]
  simp only [String.toList_append, toList_twoDigits hmonth, toList_twoDigits hday,
    toList_twoDigits (show m.time.hour < 100 by omega),
    toList_twoDigits (show m.time.minute < 100 by omega),
    toList_twoDigits (show m.time.shownSecond < 100 by omega),
    Text.toList_padded (by decide : 0 < 4) hyear, Text.toList_padded (by decide : 0 < 3) hfraction,
    List.append_assoc]
  rfl

theorem clock?_truncate (m : Moment) :
    clock? m.time.hour m.time.minute m.time.shownSecond
      (m.time.nanosecond.val % 10 ^ 9 / 1000000 * 10 ^ 6) = some m.truncate.time := by
  have hclock := clock?_shown m.truncate.time
  rwa [m.shownSecond_truncate, m.nanosecond_truncate] at hclock

/-- A universal date-time is read from its text to the millisecond, if its year has four digits. -/
theorem universal?_internetText {m : Moment} (h : m.date.IsShort) :
    universal? m.internetText = some m.truncate := by
  obtain ⟨hhour, hminute, hsecond⟩ := m.time.clock_bounds
  obtain ⟨hmonth, hday⟩ := m.date.month_lt_hundred
  have hyear : m.date.year.natAbs < 10 ^ 4 := by
    unfold Date.IsShort at h
    omega
  have hdate : Date.ofCivil? (m.date.year.natAbs : Nat) m.date.month m.date.dayOfMonth =
      some m.date := by
    rw [Int.natAbs_of_nonneg h.1]
    exact Date.ofCivil?_civil m.date
  exact universal?_digits (toList_internetText h) hyear hmonth hday (by omega) (by omega) (by omega)
    (by omega) hdate (clock?_truncate m)

end Reading

end DocMapping
