import DocMapping.Bson

/-!
# The Order of Stored Values

Stored values are ordered by what they hold: first by the group of their type, then within the group.
All numbers form one group and are compared as doubles; documents and arrays are compared item by
item.  Types without an order of their own form the last group and are all alike.  Filters use the
same comparison, but there a value of the last group equals nothing, and only values of one group
with an order stand before or after each other.
-/

namespace DocMapping

/-- A stored value as far as its order goes. -/
inductive SortKey where
  | null
  | number (value : Binary64)
  | string (value : String)
  | document (elements : List (String × SortKey))
  | array (items : List SortKey)
  | binary (bytes : List UInt8)
  | objectId (value : ObjectId)
  | boolean (value : Bool)
  | dateTime (milliseconds : Int64)
  | unordered

namespace SortKey

/-- The place of a group among the groups. -/
def group : SortKey → Nat
  | null => 1
  | number _ => 2
  | string _ => 3
  | document _ => 4
  | array _ => 5
  | binary _ => 6
  | objectId _ => 7
  | boolean _ => 8
  | dateTime _ => 9
  | unordered => 10

/-- The bytes from the first difference on. -/
def bytesOrder : List UInt8 → List UInt8 → Ordering
  | [], [] => .eq
  | [], _ :: _ => .lt
  | _ :: _, [] => .gt
  | a :: as, b :: bs => (compare a.toNat b.toNat).then (bytesOrder as bs)

mutual

/-- The total order. -/
def order : SortKey → SortKey → Ordering
  | number a, number b => compare a.rank b.rank
  | string a, string b => compare a b
  | document a, document b => elementsOrder a b
  | array a, array b => itemsOrder a b
  | binary a, binary b => (compare a.length b.length).then (bytesOrder a b)
  | objectId a, objectId b => compare a.value.val b.value.val
  | boolean a, boolean b => compare a.toNat b.toNat
  | dateTime a, dateTime b => compare a.toInt b.toInt
  | a, b => compare a.group b.group

/-- Element by element, by name and then by value; the shorter document first. -/
def elementsOrder : List (String × SortKey) → List (String × SortKey) → Ordering
  | [], [] => .eq
  | [], _ :: _ => .lt
  | _ :: _, [] => .gt
  | (m, a) :: as, (n, b) :: bs => ((compare m n).then (order a b)).then (elementsOrder as bs)

/-- Item by item; the shorter array first. -/
def itemsOrder : List SortKey → List SortKey → Ordering
  | [], [] => .eq
  | [], _ :: _ => .lt
  | _ :: _, [] => .gt
  | a :: as, b :: bs => (order a b).then (itemsOrder as bs)

end

/-- Equality in filters. -/
def equal : SortKey → SortKey → Bool
  | unordered, _ => false
  | _, unordered => false
  | a, b => a.order b == .eq

/-- The order in filters, between values of one group. -/
def order? : SortKey → SortKey → Option Ordering
  | null, _ => none
  | _, null => none
  | unordered, _ => none
  | _, unordered => none
  | a, b => if a.group = b.group then some (a.order b) else none

end SortKey

namespace Bson

mutual

/-- What the order sees of a stored value. -/
def sortKey : Bson → SortKey
  | null => .null
  | undefined => .null
  | int32 value => .number (Binary64.ofInt value.toInt)
  | int64 value => .number (Binary64.ofInt value.toInt)
  | double value => .number value
  | decimal128 value =>
    match value.approximate? with
    | some number => .number number
    | none => .unordered
  | string value => .string value
  | document elements => .document (sortElements elements)
  | array items => .array (sortItems items)
  | binary _ bytes => .binary bytes
  | objectId value => .objectId value
  | boolean value => .boolean value
  | dateTime milliseconds => .dateTime milliseconds
  | _ => .unordered

def sortElements : List (String × Bson) → List (String × SortKey)
  | [] => []
  | (name, value) :: rest => (name, sortKey value) :: sortElements rest

def sortItems : List Bson → List SortKey
  | [] => []
  | item :: rest => sortKey item :: sortItems rest

end

/-- Equality in filters: numbers of different types may be equal. -/
def matchesValue (a b : Bson) : Bool := a.sortKey.equal b.sortKey

end Bson

end DocMapping
