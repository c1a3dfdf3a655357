import DocMapping.Calendar.Date
import DocMapping.Proofs.Order

/-!
# The Order of Dates

Days are counted through eras of 400 years that begin in March, and an era through centuries of 36524
days and cycles of four years.  Year, month and day of the month therefore stand in the order of the
day numbers, and a day of March is in the year that it was counted from.
-/

namespace DocMapping.Date

/-! ## Years of an era -/

/-- The year of a day in an era. -/
def yearOfEra (day : Int) : Int := (day - day / 1460 + day / 36524 - day / 146096) / 365

/-- The first day of a year in an era. -/
def yearStart (year : Int) : Int := 365 * year + year / 4 - year / 100

section

variable {century cycle year day a b : Int}

theorem yearOfEra_parts (hcentury : 0 ≤ century ∧ century ≤ 3) (hcycle : 0 ≤ cycle ∧ cycle ≤ 24)
    (hday : 0 ≤ day ∧ day ≤ 1460) (hlast : 1461 * cycle + day ≤ 36523) :
    yearOfEra (36524 * century + 1461 * cycle + day) =
      100 * century + 4 * cycle + min 3 (day / 365) := by
  have hcycles : (36524 * century + 1461 * cycle + day) / 1460 =
      25 * century + cycle + (24 * century + cycle + day) / 1460 := by omega
  have hcenturies : (36524 * century + 1461 * cycle + day) / 36524 = century := by omega
  have hera : (36524 * century + 1461 * cycle + day) / 146096 = 0 := by omega
  unfold yearOfEra
  rw [hcycles, hcenturies, hera]
  omega

theorem yearStart_parts (hcycle : 0 ≤ cycle ∧ cycle ≤ 24) (hyear : 0 ≤ year ∧ year ≤ 3) :
    yearStart (100 * century + 4 * cycle + year) =
      36524 * century + 1461 * cycle + 365 * year := by
  have hfours : (100 * century + 4 * cycle + year) / 4 = 25 * century + cycle := by omega
  have hhundreds : (100 * century + 4 * cycle + year) / 100 = century := by omega
  unfold yearStart
  rw [hfours, hhundreds]
  omega

/-- A day lies within its year, which has at most 366 days. -/
theorem yearStart_yearOfEra (hlow : 0 ≤ day) (hhigh : day ≤ 146096) :
    yearStart (yearOfEra day) ≤ day ∧ day ≤ yearStart (yearOfEra day) + 365 := by
  rcases eq_or_lt_of_le hhigh with rfl | hlt
  · -- The last day of an era is a leap day more than four centuries have.
    decide
  · obtain ⟨century, hcentury⟩ : ∃ century, century = day / 36524 := ⟨_, rfl⟩
    obtain ⟨cycle, hcycle⟩ : ∃ cycle, cycle = day % 36524 / 1461 := ⟨_, rfl⟩
    obtain ⟨rest, hrest⟩ : ∃ rest, rest = day % 36524 % 1461 := ⟨_, rfl⟩
    have hparts : 36524 * century + 1461 * cycle + rest = day := by omega
    rw [← hparts, yearOfEra_parts (by omega) (by omega) (by omega) (by omega),
      yearStart_parts (by omega) (by omega)]
    omega

theorem yearOfEra_yearStart (hyear : 0 ≤ year ∧ year ≤ 399) (hday : 0 ≤ day ∧ day ≤ 364) :
    yearOfEra (yearStart year + day) = year := by
  obtain ⟨century, hcentury⟩ : ∃ century, century = year / 100 := ⟨_, rfl⟩
  obtain ⟨cycle, hcycle⟩ : ∃ cycle, cycle = year % 100 / 4 := ⟨_, rfl⟩
  obtain ⟨rest, hrest⟩ : ∃ rest, rest = year % 100 % 4 := ⟨_, rfl⟩
  have hparts : 100 * century + 4 * cycle + rest = year := by omega
  have hdivide : (365 * rest + day) / 365 = rest := by omega
  rw [← hparts, yearStart_parts (by omega) (by omega), Int.add_assoc _ (365 * rest),
    yearOfEra_parts (by omega) (by omega) (by omega) (by omega), hdivide]
  omega

theorem yearOfEra_mono (hlow : 0 ≤ a) (h : a ≤ b) (hhigh : b ≤ 146096) :
    yearOfEra a ≤ yearOfEra b := by
  have hcycles : a - a / 1460 ≤ b - b / 1460 := by omega
  have hcenturies : a / 36524 - a / 146096 ≤ b / 36524 - b / 146096 := by omega
  unfold yearOfEra
  omega

theorem yearOfEra_bounds (hlow : 0 ≤ day) (hhigh : day ≤ 146096) :
    0 ≤ yearOfEra day ∧ yearOfEra day ≤ 399 := by
  unfold yearOfEra
  omega

end

/-! ## Years that begin in March -/

def era (day : Int) : Int := (day + 719468) / 146097

def dayOfEra (day : Int) : Int := (day + 719468) % 146097

/-- The year of a day, where years begin in March. -/
def marchYear (day : Int) : Int := yearOfEra (dayOfEra day) + era day * 400

/-- The days since the first of March. -/
def dayOfYear (day : Int) : Int := dayOfEra day - yearStart (yearOfEra (dayOfEra day))

/-- The months since March on a day of the year. -/
def monthIndex (dayOfYear : Int) : Int := (5 * dayOfYear + 2) / 153

/-- The day of the month on a day of the year. -/
def monthDay (dayOfYear : Int) : Int := dayOfYear - (153 * monthIndex dayOfYear + 2) / 5 + 1

variable {a b day : Int}

theorem month_bounds (h : 0 ≤ day ∧ day ≤ 365) :
    (0 ≤ monthIndex day ∧ monthIndex day ≤ 11) ∧ 1 ≤ monthDay day ∧ monthDay day ≤ 31 := by
  unfold monthDay monthIndex
  omega

theorem month_lt (h : a < b) :
    monthIndex a < monthIndex b ∨ monthIndex a = monthIndex b ∧ monthDay a < monthDay b := by
  have hindex : monthIndex a ≤ monthIndex b := by
    unfold monthIndex
    omega
  rcases hindex.lt_or_eq with hindex | hindex
  · exact .inl hindex
  · unfold monthDay
    rw [hindex]
    omega

theorem dayOfYear_bounds (day : Int) : 0 ≤ dayOfYear day ∧ dayOfYear day ≤ 365 := by
  have hday : 0 ≤ dayOfEra day ∧ dayOfEra day ≤ 146096 := by
    unfold dayOfEra
    omega
  have hyear := yearStart_yearOfEra hday.1 hday.2
  unfold dayOfYear
  omega

theorem march_lt (h : a < b) :
    marchYear a < marchYear b ∨ marchYear a = marchYear b ∧ dayOfYear a < dayOfYear b := by
  have ha : 0 ≤ dayOfEra a ∧ dayOfEra a ≤ 146096 := by
    unfold dayOfEra
    omega
  have hb : 0 ≤ dayOfEra b ∧ dayOfEra b ≤ 146096 := by
    unfold dayOfEra
    omega
  have hera : era a < era b ∨ era a = era b ∧ dayOfEra a < dayOfEra b := by
    unfold era dayOfEra
    omega
  unfold marchYear dayOfYear
  rcases hera with hera | ⟨hera, hday⟩
  · have hlast := yearOfEra_bounds ha.1 ha.2
    have hfirst := yearOfEra_bounds hb.1 hb.2
    omega
  · have hyear := yearOfEra_mono ha.1 hday.le hb.2
    rcases hyear.lt_or_eq with hyear | hyear
    · omega
    · rw [hera, hyear]
      omega

theorem civil_eq (day : Int) :
    civil day =
      (if monthIndex (dayOfYear day) < 10 then marchYear day else marchYear day + 1,
        (if monthIndex (dayOfYear day) < 10 then monthIndex (dayOfYear day) + 3
          else monthIndex (dayOfYear day) - 9).toNat,
        (monthDay (dayOfYear day)).toNat) := by
  have hera : (day + 719468).fdiv 146097 = era day := Int.fdiv_eq_ediv_of_nonneg _ (by decide)
  have hday : day + 719468 - era day * 146097 = dayOfEra day := by
    unfold era dayOfEra
    omega
  unfold civil
  simp only [hera, hday]
  change (if (if monthIndex (dayOfYear day) < 10 then monthIndex (dayOfYear day) + 3
      else monthIndex (dayOfYear day) - 9) ≤ 2 then marchYear day + 1 else marchYear day, _, _) = _
  refine Prod.ext ?_ rfl
  have hmonth := month_bounds (dayOfYear_bounds day)
  dsimp only
  split <;> split <;> omega

/-! ## Year, month and day -/

theorem civil_bounds (day : Int) :
    (1 ≤ (civil day).2.1 ∧ (civil day).2.1 ≤ 12) ∧
      1 ≤ (civil day).2.2 ∧ (civil day).2.2 ≤ 31 := by
  have hmonth := month_bounds (dayOfYear_bounds day)
  rw [civil_eq]
  dsimp only
  split <;> omega

/-- Dates are ordered by their years, then by their months, then by the days of the month. -/
theorem compare_civil (a b : Int) :
    (compare (civil a).1 (civil b).1).then
      ((compare (civil a).2.1 (civil b).2.1).then (compare (civil a).2.2 (civil b).2.2)) =
      compare a b := by
  have hrise {x y : Int} (h : x < y) :
      (civil x).1 * (16 * 32 : Nat) + ((civil x).2.1 * 32 + (civil x).2.2 : Nat) <
        (civil y).1 * (16 * 32 : Nat) + ((civil y).2.1 * 32 + (civil y).2.2 : Nat) := by
    have hx := month_bounds (dayOfYear_bounds x)
    have hy := month_bounds (dayOfYear_bounds y)
    have hlater : marchYear x < marchYear y ∨ marchYear x = marchYear y ∧
        (monthIndex (dayOfYear x) < monthIndex (dayOfYear y) ∨
          monthIndex (dayOfYear x) = monthIndex (dayOfYear y) ∧
            monthDay (dayOfYear x) < monthDay (dayOfYear y)) :=
      (march_lt h).imp_right fun h ↦ ⟨h.1, month_lt h.2⟩
    rw [civil_eq, civil_eq]
    dsimp only
    split <;> split <;> omega
  obtain ⟨⟨-, ham⟩, -, had⟩ := civil_bounds a
  obtain ⟨⟨-, hbm⟩, -, hbd⟩ := civil_bounds b
  rw [compare_digits (n := 32) (by omega) (by omega),
    compare_parts (n := 16 * 32) (by omega) (by omega)]
  exact compare_keys hrise hrise fun h ↦ by rw [h]

theorem civil_year_mono (h : a ≤ b) : (civil a).1 ≤ (civil b).1 := by
  by_contra hlt
  have horder := compare_civil a b
  rw [Std.compare_eq_gt.2 (Int.not_le.1 hlt)] at horder
  exact absurd (Std.compare_eq_gt.1 horder.symm) (Int.not_lt.2 h)

/-- From March to December, a day is in the year that it was counted from. -/
theorem civil_march (year : Int) {day : Nat} (hday : day ≤ 305) :
    (civil (dayNumber year 3 1 + day)).1 = year := by
  have hera : year.fdiv 400 = year / 400 := Int.fdiv_eq_ediv_of_nonneg _ (by decide)
  have hnumber : dayNumber year 3 1 + 719468 = year / 400 * 146097 + yearStart (year % 400) := by
    have hyear : year - year / 400 * 400 = year % 400 := by omega
    unfold dayNumber yearStart
    dsimp only
    rw [if_neg (by decide), hera, hyear]
    omega
  have hstart : 0 ≤ yearStart (year % 400) ∧ yearStart (year % 400) ≤ 145731 := by
    unfold yearStart
    omega
  have hdayOfEra : dayOfEra (dayNumber year 3 1 + day) = yearStart (year % 400) + day := by
    unfold dayOfEra
    omega
  have heraOf : era (dayNumber year 3 1 + day) = year / 400 := by
    unfold era
    omega
  have hyear : yearOfEra (yearStart (year % 400) + day) = year % 400 :=
    yearOfEra_yearStart (by omega) (by omega)
  have hindex : monthIndex (dayOfYear (dayNumber year 3 1 + day)) < 10 := by
    unfold monthIndex dayOfYear
    rw [hdayOfEra, hyear]
    omega
  rw [civil_eq, if_pos hindex]
  dsimp only
  unfold marchYear
  rw [hdayOfEra, heraOf, hyear]
  omega

theorem lt_march {year : Int} (h : (civil day).1 < year) : day < dayNumber year 3 1 := by
  by_contra hge
  have hmono := civil_year_mono (Int.not_lt.1 hge)
  have hmarch := civil_march year (Nat.zero_le 305)
  rw [Nat.cast_zero, Int.add_zero] at hmarch
  omega

theorem march_lt_of_year_lt {year : Int} (h : year < (civil day).1) :
    dayNumber year 3 1 + 305 < day := by
  by_contra hle
  have hmono := civil_year_mono (Int.not_lt.1 hle)
  have hmarch := civil_march year (le_refl 305)
  rw [Nat.cast_ofNat] at hmarch
  omega

end DocMapping.Date
