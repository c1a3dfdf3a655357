import DocMapping.Identifier
import DocMapping.Number.Decimal128
import DocMapping.Number.FloatText

/-!
# Documents

Stored values and documents, which are lists of named elements in order.  A name occurs once in a
document: inserting an element replaces the value of an earlier one of that name in its place.  Two
values are equal only if they have the same type; documents are equal whatever their element order.
-/

namespace DocMapping

/-- A stored value. -/
inductive Bson where
  | double (value : Binary64)
  | string (value : String)
  | array (items : List Bson)
  | document (elements : List (String × Bson))
  | boolean (value : Bool)
  | null
  | regex (pattern options : String)
  | code (source : String)
  | codeWithScope (source : String) (scope : List (String × Bson))
  | int32 (value : Int32)
  | int64 (value : Int64)
  | timestamp (time increment : UInt32)
  | binary (subtype : UInt8) (bytes : List UInt8)
  | objectId (value : ObjectId)
  /-- Milliseconds from the start of 1970. -/
  | dateTime (milliseconds : Int64)
  | symbol (value : String)
  | decimal128 (value : Decimal128)
  | undefined
  | maxKey
  | minKey

/-- The elements of a document in order. -/
abbrev Document := List (String × Bson)

/-- The element that identifies a document in its collection. -/
def idElement : String := "_id"

namespace Document

/-- The value of an element. -/
def get? (document : Document) (name : String) : Option Bson := document.lookup name

/-- Replaces the value of an element in its place, or appends a new element. -/
def insert (name : String) (value : Bson) : Document → Document
  | [] => [(name, value)]
  | (other, old) :: rest =>
    if name = other then (name, value) :: rest else (other, old) :: insert name value rest

/-- The document of elements in order; a repeated one keeps its first place and its last value. -/
def ofList (elements : List (String × Bson)) : Document :=
  elements.foldl (fun document (name, value) ↦ document.insert name value) []

end Document

namespace Bson

/-- The name of the type of a stored value in messages. -/
def typeName : Bson → String
  | double _ => "Double"
  | string _ => "String"
  | array _ => "Array"
  | document _ => "EmbeddedDocument"
  | boolean _ => "Boolean"
  | null => "Null"
  | regex _ _ => "RegularExpression"
  | code _ => "JavaScriptCode"
  | codeWithScope _ _ => "JavaScriptCodeWithScope"
  | int32 _ => "Int32"
  | int64 _ => "Int64"
  | timestamp _ _ => "Timestamp"
  | binary _ _ => "Binary"
  | objectId _ => "ObjectId"
  | dateTime _ => "DateTime"
  | symbol _ => "Symbol"
  | decimal128 _ => "Decimal128"
  | undefined => "Undefined"
  | maxKey => "MaxKey"
  | minKey => "MinKey"

/-! ## Equality -/

mutual

/-- Equality of stored values of the same type; doubles compare as numbers. -/
def eq : Bson → Bson → Bool
  | double a, double b => a.numericEq b
  | string a, string b => a == b
  | array a, array b => eqItems a b
  | document a, document b => a.length == b.length && eqElements a b
  | boolean a, boolean b => a == b
  | null, null => true
  | regex p o, regex q r => p == q && o == r
  | code a, code b => a == b
  | codeWithScope a s, codeWithScope b t => a == b && s.length == t.length && eqElements s t
  | int32 a, int32 b => a == b
  | int64 a, int64 b => a == b
  | timestamp a i, timestamp b j => a == b && i == j
  | binary s a, binary t b => s == t && a == b
  | objectId a, objectId b => a == b
  | dateTime a, dateTime b => a == b
  | symbol a, symbol b => a == b
  | decimal128 a, decimal128 b => a == b
  | undefined, undefined => true
  | maxKey, maxKey => true
  | minKey, minKey => true
  | _, _ => false

/-- Equality item by item. -/
def eqItems : List Bson → List Bson → Bool
  | [], [] => true
  | a :: as, b :: bs => eq a b && eqItems as bs
  | _, _ => false

/-- Every element on the left has an equal one of its name on the right. -/
def eqElements : List (String × Bson) → List (String × Bson) → Bool
  | [], _ => true
  | (name, a) :: rest, right =>
    (match right.lookup name with
      | some b => eq a b
      | none => false) && eqElements rest right

end

end Bson

end DocMapping
