import DocMapping.Calendar.DateTime

/-!
# Reading Dates and Times

Three written forms: dates with hyphens, times of day with colons and an optional fraction, and
universal date-times with an offset.  Dates and times may have blanks before each number and short
numbers; date-times have a fixed width.  Second sixty is a leap second.
-/

namespace DocMapping.Reading

/-- The characters that count as blank. -/
def isBlank (c : Char) : Bool :=
  let value := c.toNat
  (9 ≤ value && value ≤ 13) || value == 32 || value == 133 || value == 160 || value == 5760 ||
    (8192 ≤ value && value ≤ 8202) || value == 8232 || value == 8233 || value == 8239 ||
    value == 8287 || value == 12288

/-- A number at the front of a text and the rest of it. -/
abbrev Read (α : Type) := Option (α × List Char)

/-- The value of digits. -/
def value (digits : List Char) : Nat :=
  digits.foldl (fun total c ↦ total * 10 + (c.toNat - '0'.toNat)) 0

/-- At least `least` digits and at most `most`. -/
def number? (least most : Nat) (text : List Char) : Read Nat :=
  let digits := (text.take most).takeWhile Char.isDigit
  if digits.length < least then none else some (value digits, text.drop digits.length)

/-- One fixed character. -/
def expect? (c : Char) : List Char → Option (List Char)
  | head :: rest => if head = c then some rest else none
  | [] => none

/-- One or two digits after blanks. -/
def shortNumber? (text : List Char) : Read Nat := number? 1 2 (text.dropWhile isBlank)

/-- A year after blanks: up to four digits, or any number of them after a sign. -/
def year? (text : List Char) : Read Int :=
  match text.dropWhile isBlank with
  | '-' :: rest => (number? 1 rest.length rest).map fun (year, rest) ↦ (-(year : Int), rest)
  | '+' :: rest => (number? 1 rest.length rest).map fun (year, rest) ↦ ((year : Int), rest)
  | text => (number? 1 4 text).map fun (year, rest) ↦ ((year : Int), rest)

/-- Nanoseconds after a point, if there is one; digits past the ninth are passed over. -/
def fraction? : List Char → Read Nat
  | '.' :: rest =>
    (number? 1 9 rest).map fun (nanosecond, after) ↦
      (nanosecond * 10 ^ (9 - (rest.length - after.length)), after.dropWhile Char.isDigit)
  | text => some (0, text)

/-- The time of read numbers, where second sixty extends the last second. -/
def clock? (hour minute second nanosecond : Nat) : Option Time :=
  if second = 60 then Time.ofClock? hour minute 59 (10 ^ 9 + nanosecond)
  else Time.ofClock? hour minute second nanosecond

/-- Reads a date. -/
def date? (text : String) : Option Date := do
  let (year, rest) ← year? text.toList
  let (month, rest) ← shortNumber? (← expect? '-' rest)
  let (day, rest) ← shortNumber? (← expect? '-' rest)
  if rest.isEmpty then Date.ofCivil? year month day else none

/-- Reads a time of day. -/
def time? (text : String) : Option Time := do
  let (hour, rest) ← shortNumber? text.toList
  let (minute, rest) ← shortNumber? (← expect? ':' rest)
  let (second, rest) ← shortNumber? (← expect? ':' rest)
  let (nanosecond, rest) ← fraction? rest
  if rest.isEmpty then clock? hour minute second nanosecond else none

/-- The offset from universal time in seconds: the letter Z, or a sign, hours and minutes. -/
def offset? : List Char → Option Int
  | ['Z'] => some 0
  | ['z'] => some 0
  | sign :: rest => do
    let negative ← if sign = '+' then some false
      else if sign = '-' ∨ sign = '−' then some true else none
    let (hours, rest) ← number? 2 2 rest
    let (minutes, rest) ← number? 2 2 (← expect? ':' rest)
    if rest.isEmpty ∧ hours ≤ 23 ∧ minutes ≤ 59 then
      let seconds : Int := (hours * 3600 + minutes * 60 : Nat)
      some (if negative then -seconds else seconds)
    else none
  | [] => none

/-- The mark between date and time. -/
def mark? : List Char → Option (List Char)
  | c :: rest => if c = 'T' ∨ c = 't' ∨ c = ' ' then some rest else none
  | [] => none

/-- Reads a date-time with its offset as universal time. -/
def universal? (text : String) : Option Moment := do
  let (year, rest) ← number? 4 4 text.toList
  let (month, rest) ← number? 2 2 (← expect? '-' rest)
  let (day, rest) ← number? 2 2 (← expect? '-' rest)
  let (hour, rest) ← number? 2 2 (← mark? rest)
  let (minute, rest) ← number? 2 2 (← expect? ':' rest)
  let (second, rest) ← number? 2 2 (← expect? ':' rest)
  let (nanosecond, rest) ← fraction? rest
  let offset ← offset? rest
  let date ← Date.ofCivil? year month day
  let time ← clock? hour minute second nanosecond
  Moment.shift? ⟨date, time⟩ (-offset)

end DocMapping.Reading
