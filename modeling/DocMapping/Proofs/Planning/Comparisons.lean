import DocMapping.Planning.Predicate
import DocMapping.Proofs.Filter.Negation
import DocMapping.Proofs.Planning.Members

/-!
# Planned Comparisons

Comparisons of members with constants, as they are evaluated and as the tests of fields that they
are planned as.  A member on the right is compared as if it were on the left, by the flipped
operator.
-/

namespace DocMapping

/-- A comparison of members of a kind with a constant: any comparison of texts and of truth values,
but identifiers only for equality. -/
inductive Compares : BinaryOperator → ScalarKind → Value → Prop
  | string {operator : BinaryOperator} (h : operator.isComparison = true) (text : String) :
    Compares operator .string (.string text)
  | bool {operator : BinaryOperator} (h : operator.isComparison = true) (flag : Bool) :
    Compares operator .bool (.bool flag)
  | guid {operator : BinaryOperator} (h : operator = .equal ∨ operator = .notEqual) (id : Guid) :
    Compares operator .guid (.guid id)
  | objectId {operator : BinaryOperator} (h : operator = .equal ∨ operator = .notEqual)
    (id : ObjectId) : Compares operator .objectId (.objectId id)

namespace Compares

variable {operator : BinaryOperator} {kind : ScalarKind} {constant : Value}

theorem naturalForm (h : Compares operator kind constant) :
    ∃ operand, IsNaturalForm kind constant operand := by
  cases h with
  | string h text => exact ⟨_, .string text⟩
  | bool h flag => exact ⟨_, .bool flag⟩
  | guid h id => exact ⟨_, .guid id⟩
  | objectId h id => exact ⟨_, .objectId id⟩

theorem isComparison (h : Compares operator kind constant) : operator.isComparison = true := by
  cases h with
  | string h | bool h => exact h
  | guid h | objectId h => rcases h with rfl | rfl <;> rfl

/-- Only kinds with an order are compared in other ways than for equality. -/
theorem isRanked (h : Compares operator kind constant) (hequal : operator ≠ .equal)
    (hnotEqual : operator ≠ .notEqual) : kind.isRanked = true := by
  cases h with
  | string | bool => rfl
  | guid h | objectId h => exact absurd h (not_or.2 ⟨hequal, hnotEqual⟩)

theorem flipped (h : Compares operator kind constant) :
    Compares operator.flipped kind constant := by
  have hequal : operator = .equal ∨ operator = .notEqual →
      operator.flipped = .equal ∨ operator.flipped = .notEqual := by
    rintro (rfl | rfl)
    · exact .inl rfl
    · exact .inr rfl
  have hcomparison : operator.flipped.isComparison = operator.isComparison := by
    cases operator <;> rfl
  cases h with
  | string h text => exact .string (hcomparison.trans h) text
  | bool h flag => exact .bool (hcomparison.trans h) flag
  | guid h id => exact .guid (hequal h) id
  | objectId h id => exact .objectId (hequal h) id

variable {value : Value} {stored operand : Bson}

/-- A comparison has the value of the test that it is planned as. -/
theorem binaryOf_eq (h : Compares operator kind constant) (hvalue : IsNaturalForm kind value stored)
    (hconstant : IsNaturalForm kind constant operand) (whole : Expression) :
    ∃ test, operator.fieldOperator? = some test ∧ test.Decides (some stored) operand ∧
      whole.binaryOf operator value constant = .ok (.bool (test.holds (some stored) operand)) := by
  have hequal := hvalue.matchesValue_eq hconstant
  have horder (hranked : kind.isRanked = true) (accepts : Ordering → Bool) :
      Expression.compares accepts value constant =
        .ok (.bool (FieldOperator.ordersField accepts (some stored) operand)) := by
    unfold Expression.compares FieldOperator.ordersField
    rw [Option.bind_some, hvalue.order?_eq hconstant hranked]
  have hdecides (hranked : kind.isRanked = true) :
      ((some stored).bind fun found ↦ found.sortKey.order? operand.sortKey).isSome = true := by
    rw [Option.bind_some, hvalue.order?_eq hconstant hranked]
    exact hvalue.order?_isSome hconstant hranked
  cases operator with
  | equal => exact ⟨.eq, rfl, .of_unordered rfl, by rw [Expression.binaryOf, ← hequal]; rfl⟩
  | notEqual => exact ⟨.ne, rfl, .of_unordered rfl, by rw [Expression.binaryOf, ← hequal]; rfl⟩
  | lessThan =>
    have hranked := h.isRanked (by simp) (by simp)
    exact ⟨.lt, rfl, fun _ ↦ hdecides hranked, horder hranked _⟩
  | lessThanOrEqual =>
    have hranked := h.isRanked (by simp) (by simp)
    exact ⟨.lte, rfl, fun _ ↦ hdecides hranked, horder hranked _⟩
  | greaterThan =>
    have hranked := h.isRanked (by simp) (by simp)
    exact ⟨.gt, rfl, fun _ ↦ hdecides hranked, horder hranked _⟩
  | greaterThanOrEqual =>
    have hranked := h.isRanked (by simp) (by simp)
    exact ⟨.gte, rfl, fun _ ↦ hdecides hranked, horder hranked _⟩
  | andAlso | orElse | add | subtract | multiply | divide => cases h.isComparison

/-- With its operands on the other sides, a comparison has the value of the flipped one. -/
theorem binaryOf_flipped (h : Compares operator kind constant)
    (hvalue : IsNaturalForm kind value stored) (hconstant : IsNaturalForm kind constant operand)
    (whole : Expression) :
    whole.binaryOf operator constant value = whole.binaryOf operator.flipped value constant := by
  have hequal := hconstant.structuralEq_comm hvalue
  have horder (hranked : kind.isRanked = true) {accepts flipped : Ordering → Bool}
      (hflipped : ∀ order, accepts order.swap = flipped order) :
      Expression.compares accepts constant value = Expression.compares flipped value constant := by
    unfold Expression.compares
    rw [hvalue.order?_swap hconstant hranked, Option.any_map]
    congr 3
    funext order
    exact hflipped order
  cases operator with
  | equal | notEqual =>
    rw [Expression.binaryOf, hequal]
    rfl
  | lessThan => exact horder (h.isRanked (by simp) (by simp)) fun _ ↦ Ordering.isLT_swap
  | lessThanOrEqual => exact horder (h.isRanked (by simp) (by simp)) fun _ ↦ Ordering.isLE_swap
  | greaterThan => exact horder (h.isRanked (by simp) (by simp)) fun _ ↦ Ordering.isGT_swap
  | greaterThanOrEqual => exact horder (h.isRanked (by simp) (by simp)) fun _ ↦ Ordering.isGE_swap
  | andAlso | orElse | add | subtract | multiply | divide => cases h.isComparison

end Compares

end DocMapping
