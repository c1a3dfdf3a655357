import DocMapping.Calendar.Time

/-!
# Dates with Times

A date and a time of day, and the moment they name when they are read as universal time.  Moments are
counted in seconds or milliseconds from the start of 1970; a leap second counts into the second after
it.
-/

namespace DocMapping

/-- How a date and time relate to universal time. -/
inductive DateTimeKind where
  | unspecified
  | utc
  /-- In the zone of the process. -/
  | local
deriving DecidableEq

/-- A date and a time of day in no zone. -/
structure Moment where
  date : Date
  time : Time
deriving DecidableEq

/-- A date and a time of day with their relation to universal time. -/
structure DateTime where
  moment : Moment
  kind : DateTimeKind
deriving DecidableEq

namespace Moment

/-- Whole seconds from the start of 1970. -/
def seconds (m : Moment) : Int := m.date.day * 86400 + m.time.second.val

/-- Whole milliseconds from the start of 1970, rounded toward the past. -/
def milliseconds (m : Moment) : Int :=
  m.seconds * 1000 + (m.time.nanosecond.val / 1000000 : Nat)

/-- The moment of seconds from the start of 1970 with the nanoseconds of a time, if in range. -/
def ofSeconds? (seconds : Int) (nanosecond : Nat) : Option Moment :=
  (Date.ofDay? (seconds.fdiv 86400)).bind fun date ↦
    (Time.ofSeconds? (seconds.fmod 86400).toNat nanosecond).map fun time ↦ ⟨date, time⟩

/-- The moment of milliseconds from the start of 1970, if in range. -/
def ofMilliseconds? (milliseconds : Int) : Option Moment :=
  ofSeconds? (milliseconds.fdiv 1000) ((milliseconds.fmod 1000).toNat * 1000000)

/-- The moment moved by whole seconds, if in range. -/
def shift? (m : Moment) (seconds : Int) : Option Moment :=
  ofSeconds? (m.seconds + seconds) m.time.nanosecond.val

/-- The earlier moment first. -/
def order (a b : Moment) : Ordering :=
  (compare a.date.day b.date.day).then (a.time.order b.time)

/-- Nanoseconds past the millisecond. -/
def subMilliseconds (m : Moment) : Nat := m.time.nanosecond.val % 1000000

/-- The moment without the nanoseconds past its millisecond. -/
def truncate (m : Moment) : Moment where
  date := m.date
  time :=
    { m.time with
      nanosecond := ⟨m.time.nanosecond.val - m.subMilliseconds, by omega⟩
      leap := fun h ↦ m.time.leap (by simp only at h; omega) }

/-- Date and time with a mark between them. -/
def text (mark : String) (m : Moment) : String :=
  m.date.text ++ mark ++ m.time.text

/-- The universal time with three digits of fraction. -/
def internetText (m : Moment) : String :=
  m.date.text ++ "T" ++ m.time.clockText ++ "." ++
    Time.padded 3 (m.time.nanosecond.val % 10 ^ 9 / 1000000) ++ "Z"

end Moment

end DocMapping
