import DocMapping.Proofs.Filter.Negation

/-!
# Normal Filters

A filter is normal if every negation in it, however deep, stands directly around one of the two
tests that have no opposite.  Normal filters are exactly those that come back from being negated
twice, so that whatever goes along with negation keeps filters normal.
-/

namespace DocMapping

namespace FieldOperator

/-- A test is the opposite of its opposite. -/
theorem negated?_of_negated {operator opposite : FieldOperator}
    (h : operator.negated? = some opposite) : opposite.negated? = some operator := by
  cases operator <;> cases h <;> rfl

/-- The tests of the ends of texts are those without an opposite. -/
theorem negated?_eq_none {operator : FieldOperator} :
    operator.negated? = none ↔ operator = .startsWith ∨ operator = .endsWith := by
  cases operator <;> simp [negated?]

end FieldOperator

namespace Filter

variable {α β ε : Type} {convert : α → Except ε β} {a b condition : Filter α}

/-! ## Parts of filters -/

/-- The condition occurs in a filter, at any depth. -/
inductive Within (condition : Filter α) : Filter α → Prop
  | self : Within condition condition
  | all {conditions : List (Filter α)} {part : Filter α} (hpart : part ∈ conditions)
    (h : Within condition part) : Within condition (all conditions)
  | any {conditions : List (Filter α)} {part : Filter α} (hpart : part ∈ conditions)
    (h : Within condition part) : Within condition (any conditions)
  | not {part : Filter α} (h : Within condition part) : Within condition (not part)

/-- The condition compares a field with the start or with the end of a text. -/
def IsEndTest (condition : Filter α) : Prop :=
  ∃ field operator operand, (operator = FieldOperator.startsWith ∨ operator = .endsWith) ∧
    condition = test field operator operand

/-- Negations, at any depth, stand directly around tests of the ends of texts. -/
def IsNormal (a : Filter α) : Prop := ∀ condition, (not condition).Within a → condition.IsEndTest

theorem isNormal_all {conditions : List (Filter α)} :
    (all conditions).IsNormal ↔ ∀ part ∈ conditions, part.IsNormal := by
  constructor
  · intro h part hpart condition hwithin
    exact h condition (.all hpart hwithin)
  · intro h condition hwithin
    cases hwithin with
    | all hpart hwithin => exact h _ hpart condition hwithin

theorem isNormal_any {conditions : List (Filter α)} :
    (any conditions).IsNormal ↔ ∀ part ∈ conditions, part.IsNormal := by
  constructor
  · intro h part hpart condition hwithin
    exact h condition (.any hpart hwithin)
  · intro h condition hwithin
    cases hwithin with
    | any hpart hwithin => exact h _ hpart condition hwithin

theorem isNormal_not : (not condition).IsNormal ↔ condition.IsEndTest := by
  constructor
  · exact fun h ↦ h condition .self
  · rintro ⟨field, operator, operand, hoperator, rfl⟩ inner hwithin
    cases hwithin with
    | self => exact ⟨field, operator, operand, hoperator, rfl⟩
    | not h => cases h

theorem isNormal_present (field : String) (expected : Bool) :
    (present field expected : Filter α).IsNormal := by
  rintro condition ⟨⟩

theorem isNormal_test (field : String) (operator : FieldOperator) (operand : α) :
    (test field operator operand).IsNormal := by
  rintro condition ⟨⟩

/-! ## Negation -/

theorem negate_eq_not_iff : condition.negate = not condition ↔ condition.IsEndTest := by
  constructor
  · intro h
    cases condition with
    | all | any | present =>
      rw [negate] at h
      cases h
    | not inner =>
      rw [negate] at h
      cases h
    | test field operator operand =>
      rw [negate] at h
      split at h
      · cases h
      · next hnone => exact ⟨field, operator, operand, FieldOperator.negated?_eq_none.1 hnone, rfl⟩
  · rintro ⟨field, operator, operand, hoperator, rfl⟩
    rw [negate, FieldOperator.negated?_eq_none.2 hoperator]

theorem negate_negate_test (field : String) (operator : FieldOperator) (operand : α) :
    (test field operator operand).negate.negate = test field operator operand := by
  rw [negate]
  split
  · next opposite hopposite => rw [negate, FieldOperator.negated?_of_negated hopposite]
  · rw [negate]

theorem negateEach_negateEach_eq_self_iff {conditions : List (Filter α)} :
    negateEach (negateEach conditions) = conditions ↔
      ∀ part ∈ conditions, part.negate.negate = part := by
  rw [negateEach_eq_map, negateEach_eq_map, List.map_map]
  conv_lhs => rhs; rw [← List.map_id conditions]
  exact List.map_inj_left

/-- Negating a filter twice gives the same filter exactly if the filter is normal. -/
theorem negate_negate_eq_self_iff (a : Filter α) : a.negate.negate = a ↔ a.IsNormal := by
  cases a with
  | all conditions =>
    rw [negate, negate, all.injEq, negateEach_negateEach_eq_self_iff, isNormal_all]
    exact forall₂_congr fun part _ ↦ negate_negate_eq_self_iff part
  | any conditions =>
    rw [negate, negate, any.injEq, negateEach_negateEach_eq_self_iff, isNormal_any]
    exact forall₂_congr fun part _ ↦ negate_negate_eq_self_iff part
  | not condition =>
    -- The first negation takes this one away, and the second brings it back around end tests only.
    rw [negate, isNormal_not]
    exact negate_eq_not_iff
  | present field expected =>
    rw [negate, negate, Bool.not_not]
    exact iff_of_true rfl (isNormal_present field expected)
  | test field operator operand =>
    exact iff_of_true (negate_negate_test field operator operand)
      (isNormal_test field operator operand)

/-- A negation around anything else is gone after two negations. -/
example : (not (present "rings" true) : Filter Bson).negate.negate = present "rings" false := rfl

namespace IsNormal

theorem negate_negate (h : a.IsNormal) : a.negate.negate = a := (negate_negate_eq_self_iff a).2 h

theorem negate (h : a.IsNormal) : a.negate.IsNormal :=
  (negate_negate_eq_self_iff a.negate).1 (congrArg Filter.negate h.negate_negate)

/-- Operands do not matter: a conversion goes along with two negations. -/
theorem mapM (h : a.IsNormal) {converted : Filter β} (hconverted : a.mapM convert = .ok converted) :
    converted.IsNormal := by
  have htwice := mapM_negate a.negate (mapM_negate a hconverted)
  rw [h.negate_negate, hconverted] at htwice
  exact (negate_negate_eq_self_iff converted).1 (Except.ok.inj htwice).symm

end IsNormal

/-! ## Conjunction and disjunction -/

theorem isNormal_conjuncts (a : Filter α) : (∀ part ∈ a.conjuncts, part.IsNormal) ↔ a.IsNormal := by
  cases a with
  | all conditions => exact isNormal_all.symm
  | any | not | present | test => exact List.forall_mem_singleton

theorem isNormal_disjuncts (a : Filter α) : (∀ part ∈ a.disjuncts, part.IsNormal) ↔ a.IsNormal := by
  cases a with
  | any conditions => exact isNormal_any.symm
  | all | not | present | test => exact List.forall_mem_singleton

theorem isNormal_and : (a.and b).IsNormal ↔ a.IsNormal ∧ b.IsNormal := by
  rw [and_eq, isNormal_all, List.forall_mem_append, isNormal_conjuncts, List.forall_mem_singleton]

theorem isNormal_or : (a.or b).IsNormal ↔ a.IsNormal ∧ b.IsNormal := by
  rw [or_eq, isNormal_any, List.forall_mem_append, isNormal_disjuncts, List.forall_mem_singleton]

end Filter

end DocMapping
