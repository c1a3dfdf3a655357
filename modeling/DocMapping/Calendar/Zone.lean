import DocMapping.Calendar.DateTime

/-!
# Time Zones

How far the local clock is ahead of universal time.  A clock that is put forward leaves times out and
one that is put back repeats them, so that a local time may have no moment of its own, or two.  The
rules are those of the machine, and nothing here depends on which ones they are.
-/

namespace DocMapping

/-- The rules of a local clock. -/
structure Zone where
  /-- The seconds that the clock is ahead at a moment of universal time. -/
  offsetOfUniversal : Moment → Int
  /-- The seconds that the clock is ahead when it shows a local time, if the rules give any; of two
  they give one first. -/
  offsetOfLocal? : Moment → Option Int

namespace Zone

/-- The local time of a universal time, if in range. -/
def toLocal? (z : Zone) (m : Moment) : Option Moment := m.shift? (z.offsetOfUniversal m)

/-- The universal time of a local time, if there is one in range. -/
def toUniversal? (z : Zone) (m : Moment) : Option Moment :=
  (z.offsetOfLocal? m).bind fun offset ↦ m.shift? (-offset)

/-! ## A zone with summer time -/

namespace Eastern

def standardOffset : Int := -5 * 3600

def summerOffset : Int := -4 * 3600

/-- The day number of the `nth` Sunday of a month. -/
def sunday (year : Int) (month nth : Nat) : Int :=
  let first := Date.dayNumber year month 1
  let weekday := (first + 3) % 7
  first + (6 - weekday) + 7 * ((nth : Int) - 1)

/-- Two o'clock on the day that summer begins, as local seconds. -/
def summerStart (year : Int) : Int := sunday year 3 2 * 86400 + 2 * 3600

/-- Two o'clock on the day that summer ends, as local seconds. -/
def summerEnd (year : Int) : Int := sunday year 11 1 * 86400 + 2 * 3600

/-- The offset of a universal time. -/
def offsetOfUniversal (m : Moment) : Int :=
  let year := m.date.year
  if summerStart year - standardOffset ≤ m.seconds ∧ m.seconds < summerEnd year - summerOffset then
    summerOffset
  else standardOffset

/-- The offset of a local time.  The hour that spring leaves out has none, its first second apart, and
the hour that autumn repeats, both ends included, is read as standard time. -/
def offsetOfLocal? (m : Moment) : Option Int :=
  let year := m.date.year
  let second := m.seconds
  if second ≤ summerStart year then some standardOffset
  else if second < summerStart year + 3600 then none
  else if second < summerEnd year - 3600 then some summerOffset
  else some standardOffset

end Eastern

/-- Five hours behind universal time, and four in summer, in every year: from two o'clock on the
second Sunday of March to two o'clock on the first Sunday of November, local time. -/
def eastern : Zone := ⟨Eastern.offsetOfUniversal, Eastern.offsetOfLocal?⟩

end Zone

end DocMapping
