import DocMapping.Value

/-!
# Equality of Values

Two equalities.  The strict one tells arrays from lists and compares doubles and decimals as numbers.
The structural one is wider: collections are equal item by item in either container, doubles also when
their bits agree, and entities member by member; inside records it is the strict one.
-/

namespace DocMapping.Value

mutual

/-- Equality of the same sort of value with equal parts. -/
def strictEq : Value → Value → Bool
  | null, null => true
  | bool a, bool b => a == b
  | int32 a, int32 b => a == b
  | int64 a, int64 b => a == b
  | double a, double b => a.numericEq b
  | decimal a, decimal b => a.numericEq b
  | string a, string b => a == b
  | guid a, guid b => a == b
  | objectId a, objectId b => a == b
  | bytes a, bytes b => a == b
  | dateTime a, dateTime b => a == b
  | date a, date b => a == b
  | time a, time b => a == b
  | enum a, enum b => a == b
  | collection c a, collection d b => c == d && strictEqItems a b
  | entity t a, entity u b => t == u && strictEqFields a b
  | record s a, record r b => s == r && strictEqFields a b
  | _, _ => false

def strictEqItems : List Value → List Value → Bool
  | [], [] => true
  | a :: as, b :: bs => strictEq a b && strictEqItems as bs
  | _, _ => false

def strictEqFields : List (String × Value) → List (String × Value) → Bool
  | [], [] => true
  | (m, a) :: as, (n, b) :: bs => m == n && strictEq a b && strictEqFields as bs
  | _, _ => false

end

mutual

/-- Equality of content, whatever the container. -/
def structuralEq : Value → Value → Bool
  | double a, double b => a == b || a.numericEq b
  | collection _ a, collection _ b => structuralEqItems a b
  | entity t a, entity u b => t == u && a.length == b.length && structuralEqMembers a b
  | a, b => strictEq a b

def structuralEqItems : List Value → List Value → Bool
  | [], [] => true
  | a :: as, b :: bs => structuralEq a b && structuralEqItems as bs
  | _, _ => false

/-- Every member on the left has an equal one of its name on the right. -/
def structuralEqMembers : List (String × Value) → List (String × Value) → Bool
  | [], _ => true
  | (name, a) :: rest, right =>
    (match right.lookup name with
      | some b => structuralEq a b
      | none => false) && structuralEqMembers rest right

end

end DocMapping.Value
