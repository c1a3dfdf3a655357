/-!
# Dates

Dates of the proleptic Gregorian calendar as day numbers, counted from the first of January 1970, for
the years from -262143 to 262142.  Year, month and day are computed in eras of 400 years that begin
in March, so that the leap day is the last of its year.
-/

namespace DocMapping

/-- A date by its day number. -/
structure Date where
  day : Int
  day_ge : -96465292 ≤ day
  day_le : day ≤ 95026236
deriving DecidableEq

namespace Date

/-- The day number of a year, month and day. -/
def dayNumber (year : Int) (month day : Nat) : Int :=
  let year := if month ≤ 2 then year - 1 else year
  let era := year.fdiv 400
  let yearOfEra := year - era * 400
  let shifted : Int := ((month + 9) % 12 : Nat)
  let dayOfYear := (153 * shifted + 2) / 5 + (day : Int) - 1
  let dayOfEra := yearOfEra * 365 + yearOfEra / 4 - yearOfEra / 100 + dayOfYear
  era * 146097 + dayOfEra - 719468

/-- The year, month and day of a day number. -/
def civil (day : Int) : Int × Nat × Nat :=
  let shifted := day + 719468
  let era := shifted.fdiv 146097
  let dayOfEra := shifted - era * 146097
  let yearOfEra :=
    (dayOfEra - dayOfEra / 1460 + dayOfEra / 36524 - dayOfEra / 146096) / 365
  let dayOfYear := dayOfEra - (365 * yearOfEra + yearOfEra / 4 - yearOfEra / 100)
  let monthIndex := (5 * dayOfYear + 2) / 153
  let dayOfMonth := dayOfYear - (153 * monthIndex + 2) / 5 + 1
  let month := if monthIndex < 10 then monthIndex + 3 else monthIndex - 9
  let year := yearOfEra + era * 400
  (if month ≤ 2 then year + 1 else year, month.toNat, dayOfMonth.toNat)

def isLeap (year : Int) : Bool :=
  year % 4 = 0 ∧ (year % 100 ≠ 0 ∨ year % 400 = 0)

/-- The number of days of a month. -/
def daysInMonth (year : Int) (month : Nat) : Nat :=
  if month = 2 then (if isLeap year then 29 else 28)
  else if month = 4 ∨ month = 6 ∨ month = 9 ∨ month = 11 then 30
  else 31

/-- The date of a day number in range. -/
def ofDay? (day : Int) : Option Date :=
  if h : -96465292 ≤ day ∧ day ≤ 95026236 then some ⟨day, h.1, h.2⟩ else none

/-- The date of a year, month and day that exist and are in range. -/
def ofCivil? (year : Int) (month day : Nat) : Option Date :=
  if 1 ≤ month ∧ month ≤ 12 ∧ 1 ≤ day ∧ day ≤ daysInMonth year month then
    ofDay? (dayNumber year month day)
  else none

def year (d : Date) : Int := (civil d.day).1

def month (d : Date) : Nat := (civil d.day).2.1

def dayOfMonth (d : Date) : Nat := (civil d.day).2.2

/-- The day within the year, from one. -/
def ordinal (d : Date) : Nat := (d.day - dayNumber d.year 1 1 + 1).toNat

/-! ## Written form -/

/-- Two digits. -/
def twoDigits (number : Nat) : String :=
  if number < 10 then "0" ++ toString number else toString number

/-- Four digits, more and a sign outside the years 0 to 9999. -/
def yearText (year : Int) : String :=
  let digits := toString year.natAbs
  let padded := String.ofList (List.replicate (4 - digits.length) '0') ++ digits
  if year < 0 then "-" ++ padded else if 9999 < year then "+" ++ padded else padded

/-- Year, month and day with hyphens. -/
def text (d : Date) : String :=
  let (year, month, day) := civil d.day
  yearText year ++ "-" ++ twoDigits month ++ "-" ++ twoDigits day

end Date

end DocMapping
