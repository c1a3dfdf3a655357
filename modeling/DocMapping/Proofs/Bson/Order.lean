import DocMapping.Bson.Order
import DocMapping.Proofs.Number.Binary64
import Mathlib.Order.Basic

/-!
# Values that Are Alike

Two stored values are alike to the order exactly if it sees the same of both: there is nothing else
that it leaves out.  In filters a value of a type without an order equals nothing, not even itself;
all other values are equal there if they are alike.
-/

namespace DocMapping

namespace SortKey

theorem bytesOrder_self (bytes : List UInt8) : bytesOrder bytes bytes = .eq := by
  induction bytes with
  | nil => rfl
  | cons byte rest ih => rw [bytesOrder, Std.compare_self, ih]; rfl

theorem bytesOrder_eq {a b : List UInt8} (h : bytesOrder a b = .eq) : a = b := by
  induction a generalizing b with
  | nil =>
    cases b with
    | nil => rfl
    | cons => cases h
  | cons byte rest ih =>
    cases b with
    | nil => cases h
    | cons other tail =>
      rw [bytesOrder, Ordering.then_eq_eq] at h
      rw [UInt8.toNat_inj.1 (Std.compare_eq_iff_eq.1 h.1), ih h.2]

mutual

theorem order_self : (key : SortKey) → key.order key = .eq
  | null => rfl
  | number value => by rw [order, Std.compare_self]
  | string value => by rw [order, Std.compare_self]
  | document elements => by rw [order, elementsOrder_self elements]
  | array items => by rw [order, itemsOrder_self items]
  | binary bytes => by rw [order, Std.compare_self, bytesOrder_self]; rfl
  | objectId value => by rw [order, Std.compare_self]
  | boolean value => by rw [order, Std.compare_self]
  | dateTime milliseconds => by rw [order, Std.compare_self]
  | unordered => rfl

theorem elementsOrder_self : (elements : List (String × SortKey)) →
    elementsOrder elements elements = .eq
  | [] => rfl
  | (name, key) :: rest => by
    rw [elementsOrder, Std.compare_self, order_self key, elementsOrder_self rest]
    rfl

theorem itemsOrder_self : (items : List SortKey) → itemsOrder items items = .eq
  | [] => rfl
  | item :: rest => by
    rw [itemsOrder, order_self item, itemsOrder_self rest]
    rfl

end

mutual

/-- Only equal keys are alike to the order. -/
theorem eq_of_order : {a b : SortKey} → a.order b = .eq → a = b
  | null, b, h => by
    cases b with
    | null => rfl
    | _ => cases h
  | number x, b, h => by
    cases b with
    | number y => rw [Binary64.rank_inj.1 (Std.compare_eq_iff_eq.1 h)]
    | _ => cases h
  | string x, b, h => by
    cases b with
    | string y => rw [Std.compare_eq_iff_eq.1 h]
    | _ => cases h
  | document elements, b, h => by
    cases b with
    | document others => rw [eq_of_elementsOrder h]
    | _ => cases h
  | array items, b, h => by
    cases b with
    | array others => rw [eq_of_itemsOrder h]
    | _ => cases h
  | binary bytes, b, h => by
    cases b with
    | binary others => rw [bytesOrder_eq (Ordering.then_eq_eq.1 h).2]
    | _ => cases h
  | objectId id, b, h => by
    cases b with
    | objectId other =>
      cases id
      cases other
      exact congrArg (fun value ↦ objectId ⟨value⟩) (Fin.ext (Std.compare_eq_iff_eq.1 h))
    | _ => cases h
  | boolean x, b, h => by
    cases b with
    | boolean y => cases x <;> cases y <;> first | rfl | cases h
    | _ => cases h
  | dateTime x, b, h => by
    cases b with
    | dateTime y => rw [Int64.toInt_inj.1 (Std.compare_eq_iff_eq.1 h)]
    | _ => cases h
  | unordered, b, h => by
    cases b with
    | unordered => rfl
    | _ => cases h

theorem eq_of_elementsOrder : {elements others : List (String × SortKey)} →
    elementsOrder elements others = .eq → elements = others
  | [], others, h => by
    cases others with
    | nil => rfl
    | cons => cases h
  | (name, key) :: rest, others, h => by
    cases others with
    | nil => cases h
    | cons other tail =>
      obtain ⟨hhead, htail⟩ := Ordering.then_eq_eq.1 h
      obtain ⟨hname, hkey⟩ := Ordering.then_eq_eq.1 hhead
      rw [Std.compare_eq_iff_eq.1 hname, eq_of_order hkey, eq_of_elementsOrder htail]

theorem eq_of_itemsOrder : {items others : List SortKey} → itemsOrder items others = .eq →
    items = others
  | [], others, h => by
    cases others with
    | nil => rfl
    | cons => cases h
  | item :: rest, others, h => by
    cases others with
    | nil => cases h
    | cons other tail =>
      obtain ⟨hhead, htail⟩ := Ordering.then_eq_eq.1 h
      rw [eq_of_order hhead, eq_of_itemsOrder htail]

end

theorem order_eq_iff {a b : SortKey} : a.order b = .eq ↔ a = b :=
  ⟨eq_of_order, fun h ↦ h ▸ order_self a⟩

/-- Equality in filters. -/
theorem equal_iff {a b : SortKey} : a.equal b = true ↔ a = b ∧ a ≠ unordered := by
  unfold equal
  split
  · exact ⟨fun h ↦ (by cases h), fun h ↦ absurd rfl h.2⟩
  · exact ⟨fun h ↦ (by cases h), fun h ↦ absurd h.1 h.2⟩
  · next ha _ => rw [beq_iff_eq, order_eq_iff, and_iff_left ha]

theorem equal_self {key : SortKey} (h : key ≠ unordered) : key.equal key = true :=
  equal_iff.2 ⟨rfl, h⟩

end SortKey

namespace Bson

/-- The type of the value has an order of its own. -/
def IsOrdered (value : Bson) : Prop := value.sortKey ≠ .unordered

/-- In filters, values are equal that the order sees the same of. -/
theorem matchesValue_iff {a b : Bson} :
    a.matchesValue b = true ↔ a.sortKey = b.sortKey ∧ a.IsOrdered :=
  SortKey.equal_iff

theorem IsOrdered.matchesValue_self {value : Bson} (h : value.IsOrdered) :
    value.matchesValue value = true :=
  SortKey.equal_self h

end Bson

end DocMapping
