import DocMapping.Calendar.Date
import DocMapping.Number.Power

/-!
# Times of Day

Times of day in nanoseconds.  A leap second is the last second of a minute with a second and more of
nanoseconds, and is written as second sixty.
-/

namespace DocMapping

/-- A time of day: whole seconds since midnight and nanoseconds. -/
structure Time where
  second : Fin 86400
  nanosecond : Fin (2 * 10 ^ 9)
  leap : 10 ^ 9 ≤ nanosecond.val → second.val % 60 = 59
deriving DecidableEq

namespace Time

def midnight : Time := ⟨0, 0, by decide⟩

/-- The time of seconds since midnight and nanoseconds, both in range. -/
def ofSeconds? (second nanosecond : Nat) : Option Time :=
  if h : second < 86400 ∧ nanosecond < 2 * 10 ^ 9 ∧ (10 ^ 9 ≤ nanosecond → second % 60 = 59) then
    some ⟨⟨second, h.1⟩, ⟨nanosecond, h.2.1⟩, h.2.2⟩
  else none

/-- The time of hour, minute, second and nanoseconds, all in range. -/
def ofClock? (hour minute second nanosecond : Nat) : Option Time :=
  if hour < 24 ∧ minute < 60 ∧ second < 60 then
    ofSeconds? (hour * 3600 + minute * 60 + second) nanosecond
  else none

def hour (t : Time) : Nat := t.second.val / 3600

def minute (t : Time) : Nat := t.second.val / 60 % 60

/-- The order of the clock; a leap second comes after the second it extends. -/
def order (a b : Time) : Ordering :=
  (compare a.second.val b.second.val).then (compare a.nanosecond.val b.nanosecond.val)

/-! ## Written form -/

/-- The digits of a number in a fixed width. -/
def padded (width number : Nat) : String :=
  let digits := toString number
  String.ofList (List.replicate (width - digits.length) '0') ++ digits

/-- No digits, or three, six or nine after a point, as few as the nanoseconds need. -/
def fractionText (nanosecond : Nat) : String :=
  if nanosecond = 0 then ""
  else if nanosecond % 1000000 = 0 then "." ++ padded 3 (nanosecond / 1000000)
  else if nanosecond % 1000 = 0 then "." ++ padded 6 (nanosecond / 1000)
  else "." ++ padded 9 nanosecond

/-- The second as shown, sixty for a leap second. -/
def shownSecond (t : Time) : Nat := t.second.val % 60 + t.nanosecond.val / 10 ^ 9

/-- Hour, minute and second with colons, without the fraction. -/
def clockText (t : Time) : String :=
  Date.twoDigits t.hour ++ ":" ++ Date.twoDigits t.minute ++ ":" ++ Date.twoDigits t.shownSecond

/-- The clock and its fraction. -/
def text (t : Time) : String :=
  t.clockText ++ fractionText (t.nanosecond.val % 10 ^ 9)

end Time

end DocMapping
