import DocMapping.Property
import DocMapping.Value.Digest
import DocMapping.Value.Equality

/-!
# Comparers

How the values of a property are compared, hashed and copied when changes are looked for.  The choice
is made once from the kind of the property: scalars by structure, collections item by item.
-/

namespace DocMapping

/-- How the items of a collection are compared. -/
inductive ElementComparison where
  | value
  | nullableValue
  | reference
deriving DecidableEq

def ElementComparison.name : ElementComparison → String
  | value => "Value"
  | nullableValue => "NullableValue"
  | reference => "Reference"

/-- The comparison of one property. -/
inductive Comparer where
  | scalar
  | collection (container : Container) (elements : ElementComparison)
deriving DecidableEq

namespace Comparer

/-- The comparer of a kind of property. -/
def ofKind : PropertyKind → Comparer
  | .scalar _ => scalar
  | .collection container element nullableElements =>
    collection container
      (if !element.isValueType then .reference
        else if nullableElements then .nullableValue else .value)

/-- Two items: nulls equal nulls alone where the items may be null. -/
def itemsEq : ElementComparison → Value → Value → Bool
  | .value, a, b => a.structuralEq b
  | _, a, b =>
    match a.isNull, b.isNull with
    | true, true => true
    | false, false => a.structuralEq b
    | _, _ => false

/-- Item by item, at the same length. -/
def sequencesEq (elements : ElementComparison) : List Value → List Value → Bool
  | [], [] => true
  | a :: as, b :: bs => itemsEq elements a b && sequencesEq elements as bs
  | _, _ => false

/-- Equality by structure.  A comparer of collections finds other values equal only if both are
null. -/
def equals (comparer : Comparer) (a b : Value) : Bool :=
  match comparer with
  | scalar => a.structuralEq b
  | collection _ elements =>
    match a.elements?, b.elements? with
    | some left, some right => sequencesEq elements left right
    | _, _ => a.isNull && b.isNull

/-- The bytes that a value contributes to a hash. -/
def digest (_ : Comparer) (value : Value) : List UInt8 := value.digest

/-- A copy of a value that later changes of the value do not reach.  A collection keeps its
container. -/
def snapshot (comparer : Comparer) (value : Value) : Value :=
  match comparer, value with
  | collection _ _, .collection .array items => .collection .array items
  | collection _ _, .collection .list items => .collection .list items
  | _, other => other

/-- The comparison of two values of a list. -/
structure Pair where
  first : Nat
  second : Nat
  equal : Bool
  structurallyEqual : Bool
  sameDigest : Bool

/-- Every value of a list beside itself and those after it.  A value is always equal to itself,
whatever its structure says. -/
def pairs (comparer : Comparer) (values : List Value) : List Pair :=
  values.zipIdx.flatMap fun (a, i) ↦
    (values.zipIdx.drop i).map fun (b, k) ↦
      ⟨i, k, i == k || comparer.equals a b, a.structuralEq b,
        comparer.digest a == comparer.digest b⟩

end Comparer

def Property.comparer (p : Property) : Comparer := Comparer.ofKind p.kind

end DocMapping
