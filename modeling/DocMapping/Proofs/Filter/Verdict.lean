import DocMapping.Proofs.Filter.Negation

/-!
# Verdicts of Filters

A filter read in three values: it holds, it does not, or an order that it asks for is missing.  The
filter selects the documents on which it holds, and its negation those on which it does not.  On
the documents in between neither selects anything, so a negation is the complement exactly where
there is a verdict.
-/

namespace DocMapping

/-! ## Three values -/

/-- Whether a condition holds, unless that is open. -/
abbrev Verdict := Option Bool

namespace Verdict

/-- Two conditions at once: one that fails decides. -/
def both : Verdict → Verdict → Verdict
  | some false, _ => some false
  | _, some false => some false
  | some true, some true => some true
  | _, _ => none

/-- One of two conditions: one that holds decides. -/
def either : Verdict → Verdict → Verdict
  | some true, _ => some true
  | _, some true => some true
  | some false, some false => some false
  | _, _ => none

theorem both_eq_true (a b : Verdict) :
    (both a b == some true) = (a == some true && b == some true) := by
  rcases a with _ | _ | _ <;> rcases b with _ | _ | _ <;> rfl

theorem both_eq_false (a b : Verdict) :
    (both a b == some false) = (a == some false || b == some false) := by
  rcases a with _ | _ | _ <;> rcases b with _ | _ | _ <;> rfl

theorem either_eq_true (a b : Verdict) :
    (either a b == some true) = (a == some true || b == some true) := by
  rcases a with _ | _ | _ <;> rcases b with _ | _ | _ <;> rfl

theorem either_eq_false (a b : Verdict) :
    (either a b == some false) = (a == some false && b == some false) := by
  rcases a with _ | _ | _ <;> rcases b with _ | _ | _ <;> rfl

end Verdict

/-! ## Tests -/

namespace FieldOperator

/-- What a test says of a field; an order that is missing leaves it open. -/
def verdict? (operator : FieldOperator) (field : Option Bson) (operand : Bson) : Verdict :=
  if operator.isOrder && !(field.bind fun found ↦ found.sortKey.order? operand.sortKey).isSome then
    none
  else some (operator.holds field operand)

variable {operator opposite : FieldOperator} {field : Option Bson} {operand : Bson}

theorem verdict?_of_decides (h : operator.Decides field operand) :
    operator.verdict? field operand = some (operator.holds field operand) := by
  unfold verdict?
  rw [if_neg]
  intro hopen
  rw [Bool.and_eq_true, Bool.not_eq_true'] at hopen
  rw [h hopen.1] at hopen
  cases hopen.2

theorem verdict?_eq_none :
    operator.verdict? field operand = none ↔ ¬operator.Decides field operand := by
  constructor
  · intro hnone h
    rw [verdict?_of_decides h] at hnone
    cases hnone
  · intro h
    unfold Decides at h
    unfold verdict?
    rw [if_pos]
    simpa using h

/-- Without an order that it asks for, a test fails. -/
theorem holds_of_not_decides (h : ¬operator.Decides field operand) :
    operator.holds field operand = false := by
  unfold Decides at h
  rw [Classical.not_imp] at h
  obtain ⟨horder, hmissing⟩ := h
  have hnone := Option.not_isSome_iff_eq_none.1 hmissing
  cases operator with
  | gt | gte | lt | lte =>
    unfold holds ordersField
    rw [hnone]
    rfl
  | _ => cases horder

/-- Tests without an opposite look at texts. -/
theorem isOrder_of_negated (h : operator.negated? = none) : operator.isOrder = false := by
  cases operator with
  | startsWith | endsWith => rfl
  | _ => cases h

theorem decides_negated (h : operator.negated? = some opposite) :
    opposite.Decides field operand ↔ operator.Decides field operand := by
  unfold Decides
  rw [isOrder_negated h]

/-- A test and its opposite are complements exactly where the order that they ask for is there. -/
theorem holds_negated_iff (h : operator.negated? = some opposite) :
    opposite.holds field operand = !operator.holds field operand ↔
      operator.Decides field operand := by
  refine ⟨fun hcomplement ↦ ?_, holds_negated h⟩
  by_contra hopen
  rw [holds_of_not_decides hopen, holds_of_not_decides (mt (decides_negated h).1 hopen)]
    at hcomplement
  cases hcomplement

theorem holds_eq_verdict :
    operator.holds field operand = (operator.verdict? field operand == some true) := by
  by_cases h : operator.Decides field operand
  · rw [verdict?_of_decides h]
    cases operator.holds field operand <;> rfl
  · rw [verdict?_eq_none.2 h, holds_of_not_decides h]
    rfl

theorem negated_holds_eq_verdict (h : operator.negated? = some opposite) :
    opposite.holds field operand = (operator.verdict? field operand == some false) := by
  by_cases hdecides : operator.Decides field operand
  · rw [verdict?_of_decides hdecides, holds_negated h hdecides]
    cases operator.holds field operand <;> rfl
  · rw [verdict?_eq_none.2 hdecides, holds_of_not_decides (mt (decides_negated h).1 hdecides)]
    rfl

end FieldOperator

/-! ## Filters -/

namespace Filter

mutual

/-- What a filter says of a document.  A negation that is written as such is never open: it holds
wherever its condition is not known to hold. -/
def verdict? (document : Document) : Filter Bson → Verdict
  | all conditions => allVerdict? document conditions
  | any conditions => anyVerdict? document conditions
  | not condition => some !holds document condition
  | present field expected => some ((document.resolve field).isSome == expected)
  | test field operator operand => operator.verdict? (document.resolve field) operand

def allVerdict? (document : Document) : List (Filter Bson) → Verdict
  | [] => some true
  | condition :: rest => .both (verdict? document condition) (allVerdict? document rest)

def anyVerdict? (document : Document) : List (Filter Bson) → Verdict
  | [] => some false
  | condition :: rest => .either (verdict? document condition) (anyVerdict? document rest)

end

variable {document : Document}

mutual

/-- A filter selects the documents on which it holds. -/
theorem holds_eq_verdict : (f : Filter Bson) →
    f.holds document = (f.verdict? document == some true)
  | all conditions => by rw [holds, verdict?, allHold_eq_verdict conditions]
  | any conditions => by rw [holds, verdict?, anyHolds_eq_verdict conditions]
  | not condition => by
    rw [holds, verdict?]
    cases condition.holds document <;> rfl
  | present field expected => by
    rw [holds, verdict?]
    cases (document.resolve field).isSome == expected <;> rfl
  | test field operator operand => by rw [holds, verdict?, FieldOperator.holds_eq_verdict]

theorem allHold_eq_verdict : (conditions : List (Filter Bson)) →
    allHold document conditions = (allVerdict? document conditions == some true)
  | [] => by rw [allHold, allVerdict?]; rfl
  | condition :: rest => by
    rw [allHold, allVerdict?, Verdict.both_eq_true, holds_eq_verdict condition,
      allHold_eq_verdict rest]

theorem anyHolds_eq_verdict : (conditions : List (Filter Bson)) →
    anyHolds document conditions = (anyVerdict? document conditions == some true)
  | [] => by rw [anyHolds, anyVerdict?]; rfl
  | condition :: rest => by
    rw [anyHolds, anyVerdict?, Verdict.either_eq_true, holds_eq_verdict condition,
      anyHolds_eq_verdict rest]

end

mutual

/-- The negation of a filter selects the documents on which the filter does not hold. -/
theorem negate_holds_eq_verdict : (f : Filter Bson) →
    f.negate.holds document = (f.verdict? document == some false)
  | all conditions => by rw [negate, holds, verdict?, anyHolds_negateEach conditions]
  | any conditions => by rw [negate, holds, verdict?, allHold_negateEach conditions]
  | not condition => by
    rw [negate, verdict?]
    cases condition.holds document <;> rfl
  | present field expected => by
    rw [negate, holds, verdict?]
    cases (document.resolve field).isSome <;> cases expected <;> rfl
  | test field operator operand => by
    rw [negate, verdict?]
    split
    · next opposite hopposite =>
      rw [holds, FieldOperator.negated_holds_eq_verdict hopposite]
    · next hnone =>
      -- A test without an opposite is negated as a whole; it asks for no order, so it is decided.
      rw [holds, holds,
        FieldOperator.verdict?_of_decides (.of_unordered (FieldOperator.isOrder_of_negated hnone))]
      cases operator.holds (document.resolve field) operand <;> rfl

theorem anyHolds_negateEach : (conditions : List (Filter Bson)) →
    anyHolds document (negateEach conditions) = (allVerdict? document conditions == some false)
  | [] => by rw [negateEach, anyHolds, allVerdict?]; rfl
  | condition :: rest => by
    rw [negateEach, anyHolds, allVerdict?, Verdict.both_eq_false, negate_holds_eq_verdict condition,
      anyHolds_negateEach rest]

theorem allHold_negateEach : (conditions : List (Filter Bson)) →
    allHold document (negateEach conditions) = (anyVerdict? document conditions == some false)
  | [] => by rw [negateEach, allHold, anyVerdict?]; rfl
  | condition :: rest => by
    rw [negateEach, allHold, anyVerdict?, Verdict.either_eq_false,
      negate_holds_eq_verdict condition, allHold_negateEach rest]

end

/-- The negation of a filter is its complement exactly on the documents on which there is a verdict,
and nowhere do both select a document.  There is a verdict wherever every order that is asked for is
there, and a test and its opposite are complements nowhere else. -/
theorem negate_complement (f : Filter Bson) (document : Document) :
    (f.negate.holds document = !f.holds document ↔ (f.verdict? document).isSome = true) ∧
      (f.negate.holds document && f.holds document) = false ∧
      (f.Decided document → f.negate.holds document = !f.holds document) ∧
      ∀ operator opposite : FieldOperator, operator.negated? = some opposite →
        ∀ field operand, opposite.holds field operand = !operator.holds field operand ↔
          operator.Decides field operand := by
  refine ⟨?_, ?_, Decided.holds_negate, fun operator opposite h field operand ↦
    FieldOperator.holds_negated_iff h⟩
  · rw [holds_eq_verdict f, negate_holds_eq_verdict f]
    rcases f.verdict? document with _ | _ | _ <;> decide
  · rw [holds_eq_verdict f, negate_holds_eq_verdict f]
    rcases f.verdict? document with _ | _ | _ <;> rfl

/-- Planets with more than three rings, without a name. -/
def ringed : Filter Bson :=
  all [test "rings" .gt (.int32 3), present "name" false]

theorem negate_complement_ringed :
    ringed.Decided [("rings", .int32 5)] ∧
      FieldOperator.negated? .gt = some .lte ∧
      ringed.negate.holds [("rings", .int32 5)] = !ringed.holds [("rings", .int32 5)] ∧
      ringed.negate.holds [("name", .string "Saturn")] =
        !ringed.holds [("name", .string "Saturn")] := by
  have hdecided : ringed.Decided [("rings", .int32 5)] := by
    refine .all (List.forall_mem_cons.2 ⟨.test fun _ ↦ ?_, List.forall_mem_singleton.2 ?_⟩)
    · rfl
    · exact .present "name" false
  obtain ⟨-, -, hnegate, -⟩ := negate_complement ringed [("rings", .int32 5)]
  obtain ⟨hiff, -⟩ := negate_complement ringed [("name", .string "Saturn")]
  exact ⟨hdecided, rfl, hnegate hdecided, hiff.2 rfl⟩

/-- A planet without rings has neither more than three nor at most three of them. -/
theorem negate_gt_missing :
    let f : Filter Bson := test "rings" .gt (.int32 3)
    f.negate = test "rings" .lte (.int32 3) ∧
      f.holds [("name", .string "Saturn")] = false ∧
      f.negate.holds [("name", .string "Saturn")] = false := by
  refine ⟨?_, rfl, rfl⟩
  rw [negate]
  rfl

end Filter

end DocMapping
