import DocMapping.Calendar.DateTime
import DocMapping.Proofs.Calendar.Civil
import DocMapping.Proofs.Text.Order

/-!
# The Order of Written Dates and Times

The texts of times of day stand in the order of the times, although the digits of a fraction vary in
number, and those of dates in the order of the dates as long as the years have four digits and no sign.
A universal date-time is written to the millisecond, and so its text has the order of the moment
without what is past the millisecond.
-/

namespace DocMapping

/-! ## Dates -/

namespace Date

/-- The year is written with four digits and no sign. -/
def IsShort (d : Date) : Prop := 0 ≤ d.year ∧ d.year ≤ 9999

theorem twoDigits_eq {number : Nat} (h : number < 100) : twoDigits number = Time.padded 2 number := by
  unfold twoDigits Time.padded
  rw [← String.toList_inj]
  simp only [Nat.toString_eq_ofList_toDigits, String.length_ofList]
  split
  · next hsmall =>
    rw [Nat.toDigits_of_lt_base hsmall]
    rfl
  · next hlarge =>
    have hlength : (Nat.toDigits 10 number).length = 2 := by
      rw [Nat.toDigits_eq_if (by decide), if_neg (by omega),
        Nat.toDigits_of_lt_base (by omega : number / 10 < 10)]
      rfl
    rw [hlength, String.toList_append, Nat.sub_self]
    rfl

theorem yearText_eq {year : Int} (h : 0 ≤ year ∧ year ≤ 9999) :
    yearText year = Time.padded 4 year.natAbs := by
  unfold yearText
  dsimp only
  rw [if_neg (by omega), if_neg (by omega)]
  rfl

theorem length_twoDigits {number : Nat} (h : number < 100) :
    (twoDigits number).toList.length = 2 := by
  rw [twoDigits_eq h, Text.length_padded (by decide) (by omega)]

theorem compare_twoDigits {a b : Nat} (ha : a < 100) (hb : b < 100) :
    compare (twoDigits a) (twoDigits b) = compare a b := by
  rw [twoDigits_eq ha, twoDigits_eq hb, Text.compare_padded (by decide) (by omega) (by omega)]

theorem length_yearText {year : Int} (h : 0 ≤ year ∧ year ≤ 9999) :
    (yearText year).toList.length = 4 := by
  rw [yearText_eq h, Text.length_padded (by decide) (by omega)]

theorem compare_yearText {a b : Int} (ha : 0 ≤ a ∧ a ≤ 9999) (hb : 0 ≤ b ∧ b ≤ 9999) :
    compare (yearText a) (yearText b) = compare a b := by
  rw [yearText_eq ha, yearText_eq hb, Text.compare_padded (by decide) (by omega) (by omega)]
  exact compare_keys (fun h ↦ by omega) (fun h ↦ by omega) fun h ↦ by omega

theorem text_eq (d : Date) :
    d.text = yearText d.year ++ "-" ++ twoDigits d.month ++ "-" ++ twoDigits d.dayOfMonth := rfl

theorem month_lt_hundred (d : Date) : d.month < 100 ∧ d.dayOfMonth < 100 := by
  have hbounds := civil_bounds d.day
  unfold month dayOfMonth
  omega

variable {a b : Date}

theorem compare_text (ha : a.IsShort) (hb : b.IsShort) :
    compare a.text b.text = compare a.day b.day := by
  obtain ⟨ham, had⟩ := a.month_lt_hundred
  obtain ⟨hbm, hbd⟩ := b.month_lt_hundred
  have hyears : (yearText a.year).toList.length = (yearText b.year).toList.length := by
    rw [length_yearText ha, length_yearText hb]
  have hmonths : (twoDigits a.month).toList.length = (twoDigits b.month).toList.length := by
    rw [length_twoDigits ham, length_twoDigits hbm]
  calc
    compare a.text b.text =
        (compare (yearText a.year) (yearText b.year)).then
          ((compare (twoDigits a.month) (twoDigits b.month)).then
            (compare (twoDigits a.dayOfMonth) (twoDigits b.dayOfMonth))) :=
      Text.compare_three hyears hmonths "-" _ _
    _ = (compare a.year b.year).then
          ((compare a.month b.month).then (compare a.dayOfMonth b.dayOfMonth)) := by
      rw [compare_yearText ha hb, compare_twoDigits ham hbm, compare_twoDigits had hbd]
    _ = compare a.day b.day := compare_civil a.day b.day

theorem length_text (h : a.IsShort) : a.text.toList.length = 10 := by
  obtain ⟨hmonth, hday⟩ := a.month_lt_hundred
  rw [text_eq]
  simp only [String.toList_append, List.length_append]
  rw [length_yearText h, length_twoDigits hmonth, length_twoDigits hday]
  rfl

end Date

/-! ## Times of day -/

namespace Time

theorem fractionText_eq {number : Nat} (h : number ≠ 0) (hlt : number < 10 ^ 9) :
    ∃ width rest part, fractionText number = "." ++ padded width part ∧ 0 < width ∧
      width + rest = 9 ∧ part < 10 ^ width ∧ number = part * 10 ^ rest := by
  unfold fractionText
  rw [if_neg h]
  split
  · next hthree => exact ⟨3, 6, number / 1000000, rfl, by omega, rfl, by omega, by omega⟩
  · split
    · next hsix => exact ⟨6, 3, number / 1000, rfl, by omega, rfl, by omega, by omega⟩
    · exact ⟨9, 0, number, rfl, by omega, rfl, hlt, by omega⟩

theorem compare_fractionText_of_lt {a b : Nat} (h : a < b) (hb : b < 10 ^ 9) :
    compare (fractionText a) (fractionText b) = .lt := by
  obtain ⟨width, rest, part, htext, hwidth, hsum, hpart, hnumber⟩ :=
    fractionText_eq (by omega : b ≠ 0) hb
  rcases Nat.eq_zero_or_pos a with rfl | hpos
  · rw [htext, Text.compare_eq, String.toList_append]
    rfl
  · obtain ⟨width', rest', part', htext', hwidth', hsum', hpart', hnumber'⟩ :=
      fractionText_eq hpos.ne' (h.trans hb)
    rw [htext, htext', Text.compare_append_left, Text.compare_eq,
      Text.toList_padded hwidth' hpart', Text.toList_padded hwidth hpart]
    refine Text.compare_of_zeros (j := rest') (k := rest) Text.digits_ge ?_ ?_
    · rw [Text.digits_append_zeros, Text.digits_append_zeros, hsum, hsum', ← hnumber, ← hnumber',
        Text.compare_digits (h.trans hb) hb]
      exact Std.compare_eq_lt.2 h
    · rw [Text.length_digits, Text.length_digits, hsum, hsum']

theorem compare_fractionText {a b : Nat} (ha : a < 10 ^ 9) (hb : b < 10 ^ 9) :
    compare (fractionText a) (fractionText b) = compare a b := by
  rcases Nat.lt_trichotomy a b with h | rfl | h
  · rw [compare_fractionText_of_lt h hb, Std.compare_eq_lt.2 h]
  · rw [Std.compare_self, Std.compare_self]
  · rw [Std.OrientedOrd.eq_swap, compare_fractionText_of_lt h ha, Std.compare_eq_gt.2 h]
    rfl

/-- Hour, minute and second as they are written, as one number. -/
def clock (t : Time) : Nat := (t.hour * 60 + t.minute) * 100 + t.shownSecond

theorem clock_bounds (t : Time) : t.hour < 24 ∧ t.minute < 60 ∧ t.shownSecond < 61 := by
  have hsecond := t.second.isLt
  have hnanosecond := t.nanosecond.isLt
  unfold hour minute shownSecond
  omega

variable (a b : Time)

theorem compare_clockText : compare a.clockText b.clockText = compare a.clock b.clock := by
  obtain ⟨hahour, haminute, hasecond⟩ := a.clock_bounds
  obtain ⟨hbhour, hbminute, hbsecond⟩ := b.clock_bounds
  have hhours : (Date.twoDigits a.hour).toList.length = (Date.twoDigits b.hour).toList.length := by
    rw [Date.length_twoDigits (by omega), Date.length_twoDigits (by omega)]
  have hminutes :
      (Date.twoDigits a.minute).toList.length = (Date.twoDigits b.minute).toList.length := by
    rw [Date.length_twoDigits (by omega), Date.length_twoDigits (by omega)]
  calc
    compare a.clockText b.clockText =
        (compare (Date.twoDigits a.hour) (Date.twoDigits b.hour)).then
          ((compare (Date.twoDigits a.minute) (Date.twoDigits b.minute)).then
            (compare (Date.twoDigits a.shownSecond) (Date.twoDigits b.shownSecond))) :=
      Text.compare_three hhours hminutes ":" _ _
    _ = ((compare a.hour b.hour).then (compare a.minute b.minute)).then
          (compare a.shownSecond b.shownSecond) := by
      rw [Date.compare_twoDigits (by omega) (by omega), Date.compare_twoDigits (by omega) (by omega),
        Date.compare_twoDigits (by omega) (by omega), Ordering.then_assoc]
    _ = compare a.clock b.clock := by
      rw [compare_digits haminute hbminute, compare_digits (n := 100) (by omega) (by omega)]
      rfl

theorem length_clockText : a.clockText.toList.length = 8 := by
  obtain ⟨hhour, hminute, hsecond⟩ := a.clock_bounds
  unfold clockText
  simp only [String.toList_append, List.length_append]
  rw [Date.length_twoDigits (by omega), Date.length_twoDigits (by omega),
    Date.length_twoDigits (by omega)]
  rfl

theorem order_eq : a.order b =
    compare (a.second.val * (2 * 10 ^ 9) + a.nanosecond.val)
      (b.second.val * (2 * 10 ^ 9) + b.nanosecond.val) :=
  compare_digits a.nanosecond.isLt b.nanosecond.isLt

variable {a b} in
/-- Later times are written with a later clock, or with the same clock and a greater fraction. -/
theorem clock_lt (h : a.order b = .lt) :
    a.clock < b.clock ∨
      a.clock = b.clock ∧ a.nanosecond.val % 10 ^ 9 < b.nanosecond.val % 10 ^ 9 := by
  rw [order_eq, Std.compare_eq_lt] at h
  have ha := a.nanosecond.isLt
  have hb := b.nanosecond.isLt
  have haleap := a.leap
  have hbleap := b.leap
  unfold clock hour minute shownSecond
  omega

/-- The order of times is the one of the clock, and then the one of the fraction. -/
theorem order_clock : a.order b =
    (compare a.clock b.clock).then
      (compare (a.nanosecond.val % 10 ^ 9) (b.nanosecond.val % 10 ^ 9)) := by
  have hrise {s t : Time} (h : s.order t = .lt) :
      s.clock * 10 ^ 9 + s.nanosecond.val % 10 ^ 9 <
        t.clock * 10 ^ 9 + t.nanosecond.val % 10 ^ 9 := by
    have hclock := clock_lt h
    omega
  rw [compare_digits (n := 10 ^ 9) (by omega) (by omega)]
  cases h : a.order b with
  | lt => exact (Std.compare_eq_lt.2 (hrise h)).symm
  | gt =>
    rw [order_eq, Std.compare_eq_gt, ← Std.compare_eq_lt, ← order_eq] at h
    exact (Std.compare_eq_gt.2 (hrise h)).symm
  | eq =>
    rw [order, Ordering.then_eq_eq, Std.compare_eq_iff_eq, Std.compare_eq_iff_eq] at h
    unfold clock hour minute shownSecond
    rw [h.1, h.2, Std.compare_self]

/-- Times of day are written in their order. -/
theorem compare_text : compare a.text b.text = a.order b := by
  rw [order_clock, ← compare_clockText, ← compare_fractionText (by omega) (by omega)]
  exact Text.compare_append (by rw [length_clockText, length_clockText]) _ _

end Time

/-! ## Moments -/

namespace Moment

variable {a b : Moment}

theorem order_eq (a b : Moment) : a.order b =
    compare (a.seconds * (2 * 10 ^ 9 : Nat) + a.time.nanosecond.val)
      (b.seconds * (2 * 10 ^ 9 : Nat) + b.time.nanosecond.val) := by
  unfold order Time.order
  rw [← Ordering.then_assoc, compare_parts a.time.second.isLt b.time.second.isLt,
    compare_parts a.time.nanosecond.isLt b.time.nanosecond.isLt]
  rfl

theorem order_swap (a b : Moment) : (a.order b).swap = b.order a := by
  rw [order_eq, order_eq, ← Std.OrientedOrd.eq_swap]

theorem order_eq_eq_iff : a.order b = .eq ↔ a = b := by
  unfold order Time.order
  rw [Ordering.then_eq_eq, Ordering.then_eq_eq, Std.compare_eq_iff_eq, Std.compare_eq_iff_eq,
    Std.compare_eq_iff_eq]
  constructor
  · rintro ⟨hday, hsecond, hnanosecond⟩
    obtain ⟨⟨aday, _, _⟩, ⟨asecond, ananosecond, _⟩⟩ := a
    obtain ⟨⟨bday, _, _⟩, ⟨bsecond, bnanosecond, _⟩⟩ := b
    cases hday
    cases Fin.ext hsecond
    cases Fin.ext hnanosecond
    rfl
  · rintro rfl
    exact ⟨rfl, rfl, rfl⟩

/-- Outside of leap seconds, milliseconds count moments that are whole to the millisecond. -/
theorem compare_milliseconds (ha : a.time.nanosecond.val < 10 ^ 9)
    (hb : b.time.nanosecond.val < 10 ^ 9) :
    compare a.milliseconds b.milliseconds = a.truncate.order b.truncate := by
  rw [order_eq]
  change _ = compare
    (a.seconds * _ + ((a.time.nanosecond.val - a.time.nanosecond.val % 1000000 : Nat) : Int))
    (b.seconds * _ + ((b.time.nanosecond.val - b.time.nanosecond.val % 1000000 : Nat) : Int))
  unfold milliseconds
  exact compare_keys (fun h ↦ by omega) (fun h ↦ by omega) fun h ↦ by omega

/-- To the millisecond, the clock shows the same second. -/
theorem shownSecond_truncate (m : Moment) : m.truncate.time.shownSecond = m.time.shownSecond := by
  change m.time.second.val % 60 +
      (m.time.nanosecond.val - m.time.nanosecond.val % 1000000) / 10 ^ 9 =
    m.time.second.val % 60 + m.time.nanosecond.val / 10 ^ 9
  omega

theorem nanosecond_truncate (m : Moment) : m.truncate.time.nanosecond.val % 10 ^ 9 =
    m.time.nanosecond.val % 10 ^ 9 / 1000000 * 10 ^ 6 := by
  change (m.time.nanosecond.val - m.time.nanosecond.val % 1000000) % 10 ^ 9 = _
  omega

theorem truncate_order (a b : Moment) : a.truncate.order b.truncate =
    ((compare a.date.day b.date.day).then (compare a.time.clock b.time.clock)).then
      (compare (a.time.nanosecond.val % 10 ^ 9 / 1000000)
        (b.time.nanosecond.val % 10 ^ 9 / 1000000)) := by
  have hclock (m : Moment) : m.truncate.time.clock = m.time.clock := by
    unfold Time.clock
    rw [m.shownSecond_truncate]
    rfl
  rw [order, Time.order_clock, hclock, hclock, nanosecond_truncate, nanosecond_truncate,
    Ordering.then_assoc]
  change (compare a.date.day b.date.day).then _ = _
  congr 2
  exact compare_keys (fun h ↦ by omega) (fun h ↦ by omega) fun h ↦ by omega

/-- Universal date-times are written in the order of their moments, taken to the millisecond. -/
theorem compare_internetText (ha : a.date.IsShort) (hb : b.date.IsShort) :
    compare a.internetText b.internetText = a.truncate.order b.truncate := by
  have hdate : a.date.text.toList.length = b.date.text.toList.length := by
    rw [Date.length_text ha, Date.length_text hb]
  have hclock : a.time.clockText.toList.length = b.time.clockText.toList.length := by
    rw [Time.length_clockText, Time.length_clockText]
  have hwidth (m : Moment) : m.time.nanosecond.val % 10 ^ 9 / 1000000 < 10 ^ 3 := by omega
  have hfraction : (Time.padded 3 (a.time.nanosecond.val % 10 ^ 9 / 1000000)).toList.length =
      (Time.padded 3 (b.time.nanosecond.val % 10 ^ 9 / 1000000)).toList.length := by
    rw [Text.length_padded (by decide) (hwidth a), Text.length_padded (by decide) (hwidth b)]
  have hmark := Text.length_append hdate (rfl : "T".toList.length = "T".toList.length)
  have htime := Text.length_append hmark hclock
  have hpoint := Text.length_append htime (rfl : ".".toList.length = ".".toList.length)
  unfold internetText
  rw [Text.compare_append_right (Text.length_append hpoint hfraction), Text.compare_append hpoint,
    Text.compare_append_right htime, Text.compare_append hmark, Text.compare_append_right hdate,
    Date.compare_text ha hb, Time.compare_clockText,
    Text.compare_padded (by decide) (hwidth a) (hwidth b), truncate_order]

end Moment

end DocMapping
