import DocMapping.Number.FloatText
import DocMapping.Text.Quoted
import DocMapping.Value

/-!
# Displayed Constants

The text of a value as a constant of a displayed expression: the name of its sort and its content.
Strings are escaped, doubles keep a point, and the other scalars are written as in documents.
-/

namespace DocMapping

namespace DateTimeKind

def name : DateTimeKind → String
  | unspecified => "Unspecified"
  | utc => "Utc"
  | «local» => "Local"

end DateTimeKind

namespace RecordShape

def text : RecordShape → String
  | anonymous => "Anonymous"
  | tuple => "Tuple"
  | constructor name => "Constructor(" ++ Text.quoted name ++ ")"

end RecordShape

namespace Value

mutual

/-- The text of a constant. -/
def constantText : Value → String
  | null => "Null"
  | bool value => "Bool(" ++ (if value then "true" else "false") ++ ")"
  | int32 value => "Int32(" ++ toString value.toInt ++ ")"
  | int64 value => "Int64(" ++ toString value.toInt ++ ")"
  | double value => "Double(" ++ value.constantText ++ ")"
  | decimal value => "Decimal(" ++ value.text ++ ")"
  | string value => "String(" ++ Text.quoted value ++ ")"
  | guid value => "Guid(" ++ value.text ++ ")"
  | objectId value => "ObjectId(ObjectId(\"" ++ value.text ++ "\"))"
  | bytes value =>
    "Bytes([" ++ String.intercalate ", " (value.map fun byte ↦ toString byte.toNat) ++ "])"
  | dateTime value =>
    "DateTime(DateTimeValue \x7b value: " ++ value.moment.text "T" ++ ", kind: " ++
      value.kind.name ++ " \x7d)"
  | date value => "Date(" ++ value.text ++ ")"
  | time value => "Time(" ++ value.text ++ ")"
  | enum value => "Enum(" ++ toString value.toInt ++ ")"
  | collection .array items => "Array([" ++ itemsText items ++ "])"
  | collection .list items => "List([" ++ itemsText items ++ "])"
  | entity type members =>
    "Entity(EntityValue \x7b entity_type: " ++ Text.quoted type ++ ", values: \x7b" ++
      membersText members ++ "\x7d \x7d)"
  | record shape fields =>
    "Record(Record \x7b shape: " ++ shape.text ++ ", fields: [" ++ fieldsText fields ++ "] \x7d)"

def itemsText : List Value → String
  | [] => ""
  | [item] => constantText item
  | item :: rest => constantText item ++ ", " ++ itemsText rest

def membersText : List (String × Value) → String
  | [] => ""
  | [(name, value)] => Text.quoted name ++ ": " ++ constantText value
  | (name, value) :: rest =>
    Text.quoted name ++ ": " ++ constantText value ++ ", " ++ membersText rest

def fieldsText : List (String × Value) → String
  | [] => ""
  | [(name, value)] => "(" ++ Text.quoted name ++ ", " ++ constantText value ++ ")"
  | (name, value) :: rest =>
    "(" ++ Text.quoted name ++ ", " ++ constantText value ++ "), " ++ fieldsText rest

end

end Value

end DocMapping
