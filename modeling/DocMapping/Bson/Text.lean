import DocMapping.Bson
import DocMapping.Calendar.DateTime

/-!
# Displayed Documents

The text of a stored value in key texts and messages.  Strings stand in quotes as they are; a date and
time is shown in universal time if its year has four digits, and by its milliseconds otherwise.
-/

namespace DocMapping.Bson

/-- The fewest digits of a second's fraction, at least one. -/
def shortFraction (nanosecond : Nat) : String :=
  let digits := (Time.padded 9 nanosecond).toList.reverse.dropWhile (· == '0')
  if digits.isEmpty then "0" else String.ofList digits.reverse

/-- Date, hour without padding, fraction and offset; outside four-digit years the milliseconds. -/
def dateTimeText (milliseconds : Int) : String :=
  match Moment.ofMilliseconds? milliseconds with
  | some m =>
    if -9999 ≤ m.date.year ∧ m.date.year ≤ 9999 then
      m.date.text ++ " " ++ toString m.time.hour ++ ":" ++ Date.twoDigits m.time.minute ++ ":" ++
        Date.twoDigits (m.time.second.val % 60) ++ "." ++ shortFraction m.time.nanosecond.val ++
        " +00:00:00"
    else toString milliseconds
  | none => toString milliseconds

mutual

/-- The displayed text of a stored value. -/
def text : Bson → String
  | double value => value.plainText
  | string value => "\"" ++ value ++ "\""
  | array items => "[" ++ itemsText items ++ "]"
  | document [] => "\x7b\x7d"
  | document elements => "\x7b " ++ elementsText elements ++ " \x7d"
  | boolean value => if value then "true" else "false"
  | null => "null"
  | regex pattern options => "/" ++ pattern ++ "/" ++ options
  | code source => source
  | codeWithScope source _ => source
  | int32 value => toString value.toInt
  | int64 value => toString value.toInt
  | timestamp time increment =>
    "Timestamp(" ++ toString time.toNat ++ ", " ++ toString increment.toNat ++ ")"
  | binary subtype bytes =>
    "Binary(0x" ++ String.ofList (Nat.toDigits 16 subtype.toNat) ++ ", " ++ Text.base64 bytes ++ ")"
  | objectId value => "ObjectId(\"" ++ value.text ++ "\")"
  | dateTime milliseconds => "DateTime(\"" ++ dateTimeText milliseconds.toInt ++ "\")"
  | symbol value => "Symbol(\"" ++ value ++ "\")"
  | decimal128 value => value.text
  | undefined => "undefined"
  | maxKey => "MaxKey"
  | minKey => "MinKey"

/-- The texts of items with commas between them. -/
def itemsText : List Bson → String
  | [] => ""
  | [item] => text item
  | item :: rest => text item ++ ", " ++ itemsText rest

/-- The texts of elements with commas between them. -/
def elementsText : List (String × Bson) → String
  | [] => ""
  | [(name, value)] => "\"" ++ name ++ "\": " ++ text value
  | (name, value) :: rest => "\"" ++ name ++ "\": " ++ text value ++ ", " ++ elementsText rest

end

end DocMapping.Bson
