import DocMapping.Calendar.Reading
import DocMapping.Calendar.Zone
import DocMapping.Codec.Numeral
import DocMapping.Property

/-!
# Stored Forms of Scalars

One scalar of a property in its stored form and back.  Writing follows the representation that the
property declares.  Reading accepts any stored type that can carry the kind, so that a document stays
readable after its property has changed its representation.
-/

namespace DocMapping

/-! ## Times -/

namespace DateTime

/-- The moment in universal time, whole to the millisecond. -/
def toUniversal (zone : Zone) (truncation : Bool) (d : DateTime) :
    Except ConversionFault Moment := do
  let universal ←
    match d.kind with
    | .local =>
      match zone.toUniversal? d.moment with
      | some universal => .ok universal
      | none => .error (.noLocalTime (d.moment.text " "))
    | .utc => .ok d.moment
    | .unspecified => .ok d.moment
  if universal.subMilliseconds = 0 then .ok universal
  else if truncation then .ok universal.truncate
  else .error .subMillisecond

/-- The date-time of a kind at a moment in universal time. -/
def ofUniversal (zone : Zone) (kind : DateTimeKind) (m : Moment) :
    Except ConversionFault DateTime :=
  match kind with
  | .local =>
    match zone.toLocal? m with
    | some moment => .ok ⟨moment, .local⟩
    | none => .error (.outsideDateTime (toString m.milliseconds))
  | .utc => .ok ⟨m, .utc⟩
  | .unspecified => .ok ⟨m, .unspecified⟩

def ofMilliseconds (zone : Zone) (kind : DateTimeKind) (milliseconds : Int64) :
    Except ConversionFault DateTime :=
  match Moment.ofMilliseconds? milliseconds.toInt with
  | some m => ofUniversal zone kind m
  | none => .error (.outsideDateTime (toString milliseconds.toInt))

end DateTime

namespace Date

/-- The milliseconds at which the date begins in universal time. -/
def milliseconds (d : Date) : Int := d.day * 86400000

end Date

namespace Time

/-- A tick is a ten-millionth of a second. -/
def ticksPerSecond : Nat := 10000000

/-- The ticks from midnight. -/
def toTicks (truncation : Bool) (t : Time) : Except ConversionFault Int64 :=
  if t.nanosecond.val % 100 ≠ 0 ∧ !truncation then .error .subTick
  else .ok (Int64.ofNat (t.second.val * ticksPerSecond + t.nanosecond.val / 100))

/-- The time of day after ticks from midnight. -/
def ofTicks (ticks : Int) : Except ConversionFault Time :=
  let time :=
    if 0 ≤ ticks ∧ ticks < 86400 * ticksPerSecond then
      ofSeconds? (ticks.toNat / ticksPerSecond) (ticks.toNat % ticksPerSecond * 100)
    else none
  match time with
  | some time => .ok time
  | none => .error (.notATimeOfDay (toString ticks))

end Time

namespace ScalarKind

/-- The form of numbers of this kind. -/
def numberForm : ScalarKind → NumberForm
  | int32 => .int32
  | double => .double
  | decimal => .decimal
  | _ => .int64

end ScalarKind

namespace Representation

/-- The form of numbers that are stored this way, if it depends on this choice. -/
def numberForm? : Representation → Option NumberForm
  | int32 => some .int32
  | int64 => some .int64
  | double => some .double
  | decimal128 => some .decimal
  | _ => none

end Representation

namespace Property

def permissions (p : Property) : Permissions := ⟨p.allowOverflow, p.allowTruncation⟩

/-! ## Writing -/

def encodeBool (representation : Representation) (flag : Bool) : Bson :=
  match representation with
  | .string => .string (if flag then "true" else "false")
  | .int32 => .int32 (if flag then 1 else 0)
  | .int64 => .int64 (if flag then 1 else 0)
  | _ => .boolean flag

def encodeNumber (p : Property) (number : Numeral) : Except ConversionFault Bson :=
  if p.representation = .string then .ok (.string number.text)
  else
    number.toBson p.permissions (p.representation.numberForm?.getD p.scalarKind.numberForm)

def encodeEnum (p : Property) (type : EnumType) (member : Int64) : Except ConversionFault Bson :=
  match p.representation with
  | .string =>
    match type.nameOf? member with
    | some name => .ok (.string name)
    | none => .error (.notAMember (toString member.toInt) type.name)
  | .int64 => .ok (.int64 member)
  | _ => (Numeral.integer member).toBson p.permissions .int32

def encodeString (representation : Representation) (text : String) : Except ConversionFault Bson :=
  if representation = .objectId then
    match ObjectId.ofText? text with
    | some id => .ok (.objectId id)
    | none => .error .malformedText
  else .ok (.string text)

def encodeDateTime (p : Property) (d : DateTime) : Except ConversionFault Bson :=
  (d.toUniversal p.zone p.allowTruncation).map fun universal ↦
    match p.representation with
    | .string => .string universal.internetText
    | .int64 => .int64 (Int64.ofInt universal.milliseconds)
    | _ => .dateTime (Int64.ofInt universal.milliseconds)

def encodeTime (p : Property) (t : Time) : Except ConversionFault Bson :=
  if p.representation = .string then .ok (.string t.text)
  else (t.toTicks p.allowTruncation).map Bson.int64

/-- The stored form of one scalar.  Null is stored as null. -/
def encodeScalar (p : Property) (value : Value) : Except ConversionFault Bson :=
  let mismatch := .error (.mismatch p.scalarKind.name value.typeName)
  let number :=
    match Numeral.ofValue? value with
    | some number => p.encodeNumber number
    | none => mismatch
  match p.scalarKind, value with
  | _, .null => .ok .null
  | .bool, .bool flag => .ok (encodeBool p.representation flag)
  | .int32, _ => number
  | .int64, _ => number
  | .double, _ => number
  | .decimal, _ => number
  | .enum type, .enum member => p.encodeEnum type member
  | .enum type, .int32 member => p.encodeEnum type (Int64.ofInt member.toInt)
  | .enum type, .int64 member => p.encodeEnum type member
  | .string, .string text => encodeString p.representation text
  | .guid, .guid id =>
    if p.representation = .string then .ok (.string id.text) else .ok (.binary 4 id.bytes)
  | .objectId, .objectId id =>
    if p.representation = .string then .ok (.string id.text) else .ok (.objectId id)
  | .bytes, .bytes bytes => .ok (.binary 0 bytes)
  | .dateTime, .dateTime d => p.encodeDateTime d
  | .date, .date d =>
    if p.representation = .string then .ok (.string d.text)
    else .ok (.dateTime (Int64.ofInt d.milliseconds))
  | .time, .time t => p.encodeTime t
  | _, _ => mismatch

/-! ## Reading -/

/-- The written form of a kind, read from a text. -/
def readText {α : Type} (reading : Option α) : Except ConversionFault α :=
  match reading with
  | some value => .ok value
  | none => .error .malformedText

/-- The number of a stored value of a kind of numbers. -/
def readNumber (p : Property) (stored : Bson) : Except ConversionFault Numeral :=
  (Numeral.ofBson? p.permissions stored).bind fun number ↦
    match number with
    | some number => .ok number
    | none => .error (.unreadable stored.typeName p.scalarKind.name)

def decodeNumber (p : Property) (stored : Bson) : Except ConversionFault Value :=
  (p.readNumber stored).bind fun number ↦ number.toValue p.permissions p.scalarKind.numberForm

/-- A member of an enumeration, by its name or its number. -/
def decodeEnum (p : Property) (type : EnumType) (stored : Bson) : Except ConversionFault Value :=
  match stored with
  | .string name =>
    match type.valueOf? name with
    | some member => .ok (.enum member)
    | none => .error (.notAMemberName name type.name)
  | other => (p.readNumber other).bind fun number ↦ (number.toInt64 p.permissions).map Value.enum

/-- The host form of one stored scalar. -/
def decodeScalar (p : Property) (stored : Bson) : Except ConversionFault Value :=
  let unreadable := .error (.unreadable stored.typeName p.scalarKind.name)
  match p.scalarKind, stored with
  | .bool, .boolean flag => .ok (.bool flag)
  | .bool, .int32 number => .ok (.bool (number != 0))
  | .bool, .int64 number => .ok (.bool (number != 0))
  | .bool, .string text =>
    if text = "true" then .ok (.bool true)
    else if text = "false" then .ok (.bool false)
    else unreadable
  | .int32, _ => p.decodeNumber stored
  | .int64, _ => p.decodeNumber stored
  | .double, _ => p.decodeNumber stored
  | .decimal, _ => p.decodeNumber stored
  | .enum type, _ => p.decodeEnum type stored
  | .string, .string text => .ok (.string text)
  | .string, .objectId id => .ok (.string id.text)
  | .guid, .binary _ bytes =>
    if bytes.length = 16 then .ok (.guid (Guid.ofBytes bytes)) else unreadable
  | .guid, .string text => (readText (Guid.ofText? text)).map Value.guid
  | .objectId, .objectId id => .ok (.objectId id)
  | .objectId, .string text => (readText (ObjectId.ofText? text)).map Value.objectId
  | .bytes, .binary _ bytes => .ok (.bytes bytes)
  | .dateTime, .dateTime milliseconds =>
    (DateTime.ofMilliseconds p.zone p.dateTimeKind milliseconds).map Value.dateTime
  | .dateTime, .int64 milliseconds =>
    (DateTime.ofMilliseconds p.zone p.dateTimeKind milliseconds).map Value.dateTime
  | .dateTime, .string text => do
    let universal ← readText (Reading.universal? text)
    (DateTime.ofUniversal p.zone p.dateTimeKind universal).map Value.dateTime
  | .date, .dateTime milliseconds =>
    match Moment.ofMilliseconds? milliseconds.toInt with
    | some m => .ok (.date m.date)
    | none => unreadable
  | .date, .string text => (readText (Reading.date? text)).map Value.date
  | .time, .int64 ticks => (Time.ofTicks ticks.toInt).map Value.time
  | .time, .int32 ticks => (Time.ofTicks ticks.toInt).map Value.time
  | .time, .string text => (readText (Reading.time? text)).map Value.time
  | _, _ => unreadable

end Property

end DocMapping
