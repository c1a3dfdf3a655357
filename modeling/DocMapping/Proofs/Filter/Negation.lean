import DocMapping.Filter.Matching
import DocMapping.Proofs.Outcome

/-!
# Conjunction, Disjunction and Negation of Filters

What the operations on filters mean for the documents that they select, and that operands may be
converted before or after them.  The negation of an order test is an order test, and both fail where
field and operand have no order.  Hence a negation is the complement only on documents whose fields
have an order to the operands wherever an order is asked for.
-/

namespace DocMapping

namespace FieldOperator

/-- The test asks for an order. -/
def isOrder : FieldOperator → Bool
  | gt | gte | lt | lte => true
  | _ => false

/-- Where the test asks for an order of field and operand, there is one. -/
def Decides (operator : FieldOperator) (field : Option Bson) (operand : Bson) : Prop :=
  operator.isOrder = true →
    (field.bind fun found ↦ found.sortKey.order? operand.sortKey).isSome = true

theorem Decides.of_unordered {operator : FieldOperator} (h : operator.isOrder = false)
    {field : Option Bson} {operand : Bson} : operator.Decides field operand := by
  intro horder
  rw [h] at horder
  cases horder

theorem isOrder_negated {operator opposite : FieldOperator}
    (h : operator.negated? = some opposite) : opposite.isOrder = operator.isOrder := by
  cases operator <;> cases h <;> rfl

theorem ordersField_not {field : Option Bson} {operand : Bson}
    (h : (field.bind fun found ↦ found.sortKey.order? operand.sortKey).isSome = true)
    {accepts rejects : Ordering → Bool} (hrejects : ∀ order, rejects order = !accepts order) :
    ordersField rejects field operand = !ordersField accepts field operand := by
  obtain ⟨order, horder⟩ := Option.isSome_iff_exists.1 h
  unfold ordersField
  rw [horder]
  exact hrejects order

/-- The opposite of a test fails exactly where the test holds. -/
theorem holds_negated {operator opposite : FieldOperator} (h : operator.negated? = some opposite)
    {field : Option Bson} {operand : Bson} (hdecides : operator.Decides field operand) :
    opposite.holds field operand = !operator.holds field operand := by
  cases operator with
  | gt | gte | lt | lte =>
    cases h
    exact ordersField_not (hdecides rfl) fun order ↦ by cases order <;> rfl
  | ne | notContains | notContainsElement | noneOf =>
    cases h
    exact (Bool.not_not _).symm
  | eq | contains | containsElement | anyOf =>
    cases h
    rfl
  | startsWith | endsWith => cases h

end FieldOperator

namespace Filter

variable {α β ε : Type} {convert : α → Except ε β} {document : Document}

/-! ## Lists of conditions -/

theorem negateEach_eq_map (conditions : List (Filter α)) :
    negateEach conditions = conditions.map negate := by
  induction conditions with
  | nil => rw [negateEach, List.map_nil]
  | cons condition rest ih => rw [negateEach, List.map_cons, ih]

theorem allHold_eq_all (conditions : List (Filter Bson)) :
    allHold document conditions = conditions.all (holds document) := by
  induction conditions with
  | nil => rw [allHold, List.all_nil]
  | cons condition rest ih => rw [allHold, List.all_cons, ih]

theorem anyHolds_eq_any (conditions : List (Filter Bson)) :
    anyHolds document conditions = conditions.any (holds document) := by
  induction conditions with
  | nil => rw [anyHolds, List.any_nil]
  | cons condition rest ih => rw [anyHolds, List.any_cons, ih]

theorem mapEach_eq_mapM (convert : α → Except ε β) (conditions : List (Filter α)) :
    mapEach convert conditions = conditions.mapM (mapM convert) := by
  induction conditions with
  | nil =>
    rw [mapEach, List.mapM_nil]
    rfl
  | cons condition rest ih => rw [mapEach, List.mapM_cons, ih]

/-- The conditions that a conjunction with this one on the left takes over. -/
def conjuncts : Filter α → List (Filter α)
  | all conditions => conditions
  | condition => [condition]

/-- The conditions that a disjunction with this one on the left takes over. -/
def disjuncts : Filter α → List (Filter α)
  | any conditions => conditions
  | condition => [condition]

theorem and_eq (a b : Filter α) : a.and b = all (a.conjuncts ++ [b]) := by
  cases a <;> rfl

theorem or_eq (a b : Filter α) : a.or b = any (a.disjuncts ++ [b]) := by
  cases a <;> rfl

/-! ## What filters select -/

theorem holds_all (conditions : List (Filter Bson)) :
    (all conditions).holds document = conditions.all (holds document) := by
  rw [holds, allHold_eq_all]

theorem holds_any (conditions : List (Filter Bson)) :
    (any conditions).holds document = conditions.any (holds document) := by
  rw [holds, anyHolds_eq_any]

theorem holds_test (field : String) (operator : FieldOperator) (operand : Bson) :
    (test field operator operand).holds document =
      operator.holds (document.resolve field) operand := by
  rw [holds]

theorem all_conjuncts (a : Filter Bson) : a.conjuncts.all (holds document) = a.holds document := by
  cases a with
  | all conditions => exact (holds_all conditions).symm
  | any | not | present | test => exact Bool.and_true _

theorem any_disjuncts (a : Filter Bson) : a.disjuncts.any (holds document) = a.holds document := by
  cases a with
  | any conditions => exact (holds_any conditions).symm
  | all | not | present | test => exact Bool.or_false _

theorem holds_and (a b : Filter Bson) :
    (a.and b).holds document = (a.holds document && b.holds document) := by
  rw [and_eq, holds_all, List.all_append, all_conjuncts, List.all_cons, List.all_nil, Bool.and_true]

theorem holds_or (a b : Filter Bson) :
    (a.or b).holds document = (a.holds document || b.holds document) := by
  rw [or_eq, holds_any, List.any_append, any_disjuncts, List.any_cons, List.any_nil, Bool.or_false]

/-- Every order that a filter asks a document for is there. -/
inductive Decided (document : Document) : Filter Bson → Prop
  | all {conditions : List (Filter Bson)} (h : ∀ c ∈ conditions, Decided document c) :
    Decided document (all conditions)
  | any {conditions : List (Filter Bson)} (h : ∀ c ∈ conditions, Decided document c) :
    Decided document (any conditions)
  | not {condition : Filter Bson} (h : Decided document condition) :
    Decided document (not condition)
  | present (field : String) (expected : Bool) : Decided document (present field expected)
  | test {field : String} {operator : FieldOperator} {operand : Bson}
    (h : operator.Decides (document.resolve field) operand) :
    Decided document (test field operator operand)

theorem Decided.conjuncts {a : Filter Bson} (h : a.Decided document) :
    ∀ c ∈ a.conjuncts, c.Decided document := by
  have hself : ∀ c ∈ [a], c.Decided document := List.forall_mem_singleton.2 h
  cases h with
  | all h => exact h
  | any | not | present | test => exact hself

theorem Decided.disjuncts {a : Filter Bson} (h : a.Decided document) :
    ∀ c ∈ a.disjuncts, c.Decided document := by
  have hself : ∀ c ∈ [a], c.Decided document := List.forall_mem_singleton.2 h
  cases h with
  | any h => exact h
  | all | not | present | test => exact hself

theorem Decided.and {a b : Filter Bson} (ha : a.Decided document) (hb : b.Decided document) :
    (a.and b).Decided document := by
  rw [and_eq]
  exact .all (List.forall_mem_append.2 ⟨ha.conjuncts, List.forall_mem_singleton.2 hb⟩)

theorem Decided.or {a b : Filter Bson} (ha : a.Decided document) (hb : b.Decided document) :
    (a.or b).Decided document := by
  rw [or_eq]
  exact .any (List.forall_mem_append.2 ⟨ha.disjuncts, List.forall_mem_singleton.2 hb⟩)

theorem Decided.negate {a : Filter Bson} (h : a.Decided document) : a.negate.Decided document := by
  induction h with
  | all h ih =>
    rw [Filter.negate, negateEach_eq_map]
    exact .any (List.forall_mem_map.2 ih)
  | any h ih =>
    rw [Filter.negate, negateEach_eq_map]
    exact .all (List.forall_mem_map.2 ih)
  | not h => exact h
  | present field expected => exact .present field !expected
  | @test field operator operand h =>
    rw [Filter.negate]
    split
    · next opposite hopposite =>
      refine .test fun horder ↦ h ?_
      rw [← FieldOperator.isOrder_negated hopposite]
      exact horder
    · exact .not (.test h)

/-- The negation of a condition holds exactly where the condition does not. -/
theorem Decided.holds_negate {a : Filter Bson} (h : a.Decided document) :
    a.negate.holds document = !a.holds document := by
  have hnegated : ∀ {conditions : List (Filter Bson)},
      (∀ c ∈ conditions, c.negate.holds document = !c.holds document) →
      (negateEach conditions).map (holds document) =
        conditions.map fun c ↦ !c.holds document := by
    intro conditions ih
    rw [negateEach_eq_map, List.map_map]
    exact List.map_congr_left ih
  induction h with
  | @all conditions h ih =>
    calc
      _ = ((negateEach conditions).map (holds document)).any id := by
        rw [Filter.negate, holds_any, List.any_map, Function.id_comp]
      _ = conditions.any fun c ↦ !c.holds document := by
        rw [hnegated ih, List.any_map]
        rfl
      _ = _ := by rw [holds_all, List.not_all_eq_any_not]
  | @any conditions h ih =>
    calc
      _ = ((negateEach conditions).map (holds document)).all id := by
        rw [Filter.negate, holds_all, List.all_map, Function.id_comp]
      _ = conditions.all fun c ↦ !c.holds document := by
        rw [hnegated ih, List.all_map]
        rfl
      _ = _ := by rw [holds_any, List.not_any_eq_all_not]
  | not h => rw [Filter.negate, holds, Bool.not_not]
  | present field expected =>
    rw [Filter.negate, holds, holds]
    cases (document.resolve field).isSome <;> cases expected <;> rfl
  | test h =>
    rw [Filter.negate]
    split
    · next opposite hopposite =>
      rw [holds, holds]
      exact FieldOperator.holds_negated hopposite h
    · rw [holds]

/-! ## Converted operands -/

theorem mapM_all (conditions : List (Filter α)) :
    (all conditions).mapM convert = (conditions.mapM (mapM convert)).map all := by
  rw [mapM, mapEach_eq_mapM]

theorem mapM_any (conditions : List (Filter α)) :
    (any conditions).mapM convert = (conditions.mapM (mapM convert)).map any := by
  rw [mapM, mapEach_eq_mapM]

theorem mapM_singleton {b : Filter α} {b' : Filter β} (h : b.mapM convert = .ok b') :
    [b].mapM (mapM convert) = .ok [b'] := by
  rw [List.mapM_cons, h]
  rfl

theorem mapM_concat {conditions : List (Filter α)} {converted : List (Filter β)}
    (h : conditions.mapM (mapM convert) = .ok converted) {b : Filter α} {b' : Filter β}
    (hb : b.mapM convert = .ok b') :
    (conditions ++ [b]).mapM (mapM convert) = .ok (converted ++ [b']) := by
  rw [List.mapM_append, h, mapM_singleton hb]
  rfl

variable {a b : Filter α} {a' b' : Filter β}

theorem mapM_conjuncts (a : Filter α) :
    a.conjuncts.mapM (mapM convert) = (a.mapM convert).map conjuncts := by
  have hsingle : [a].mapM (mapM convert) = (a.mapM convert).map fun converted ↦ [converted] := by
    rw [List.mapM_cons]
    cases a.mapM convert <;> rfl
  cases a with
  | all conditions =>
    rw [mapM_all]
    change conditions.mapM (mapM convert) = _
    cases conditions.mapM (mapM convert) <;> rfl
  | any conditions =>
    refine hsingle.trans ?_
    rw [mapM]
    cases mapEach convert conditions <;> rfl
  | not condition =>
    refine hsingle.trans ?_
    rw [mapM]
    cases condition.mapM convert <;> rfl
  | present field expected => exact hsingle
  | test field operator operand =>
    refine hsingle.trans ?_
    rw [mapM]
    cases convert operand <;> rfl

/-- A conjunction is converted part by part. -/
theorem mapM_and_eq (a b : Filter α) :
    (a.and b).mapM convert =
      (a.mapM convert).bind fun a' ↦ (b.mapM convert).map fun b' ↦ a'.and b' := by
  rw [and_eq, mapM_all, List.mapM_append, mapM_conjuncts, List.mapM_cons]
  cases a.mapM convert with
  | error fault => rfl
  | ok a' =>
    cases b.mapM convert with
    | error fault => rfl
    | ok b' => exact congrArg Except.ok (and_eq a' b').symm

theorem mapM_disjuncts (h : a.mapM convert = .ok a') :
    a.disjuncts.mapM (mapM convert) = .ok a'.disjuncts := by
  have hsingle := mapM_singleton h
  cases a with
  | any conditions =>
    rw [mapM_any] at h
    obtain ⟨converted, hconverted, rfl⟩ := Outcome.map_eq_ok.1 h
    exact hconverted
  | all | not | test =>
    rw [mapM] at h
    obtain ⟨converted, -, rfl⟩ := Outcome.map_eq_ok.1 h
    exact hsingle
  | present field expected =>
    cases h
    exact hsingle

theorem mapM_and (ha : a.mapM convert = .ok a') (hb : b.mapM convert = .ok b') :
    (a.and b).mapM convert = .ok (a'.and b') := by
  rw [mapM_and_eq, ha, hb]
  rfl

theorem mapM_or (ha : a.mapM convert = .ok a') (hb : b.mapM convert = .ok b') :
    (a.or b).mapM convert = .ok (a'.or b') := by
  rw [or_eq, or_eq, mapM_any, mapM_concat (mapM_disjuncts ha) hb]
  rfl

mutual

theorem mapM_negate : (a : Filter α) → {a' : Filter β} → a.mapM convert = .ok a' →
    a.negate.mapM convert = .ok a'.negate
  | all conditions, a', h => by
    rw [mapM] at h
    obtain ⟨converted, hconverted, rfl⟩ := Outcome.map_eq_ok.1 h
    rw [negate, negate, mapM, mapEach_negateEach conditions hconverted]
    rfl
  | any conditions, a', h => by
    rw [mapM] at h
    obtain ⟨converted, hconverted, rfl⟩ := Outcome.map_eq_ok.1 h
    rw [negate, negate, mapM, mapEach_negateEach conditions hconverted]
    rfl
  | not condition, a', h => by
    rw [mapM] at h
    obtain ⟨converted, hconverted, rfl⟩ := Outcome.map_eq_ok.1 h
    exact hconverted
  | present field expected, a', h => by
    cases h
    rw [negate, negate, mapM]
  | test field operator operand, a', h => by
    have hnot : (not (test field operator operand)).mapM convert = .ok a'.not := by
      rw [mapM, h]
      rfl
    rw [mapM] at h
    obtain ⟨converted, hconverted, rfl⟩ := Outcome.map_eq_ok.1 h
    rw [negate, negate]
    cases operator.negated? with
    | some opposite =>
      dsimp only
      rw [mapM, hconverted]
      rfl
    | none => exact hnot

theorem mapEach_negateEach : (conditions : List (Filter α)) → {converted : List (Filter β)} →
    mapEach convert conditions = .ok converted →
    mapEach convert (negateEach conditions) = .ok (negateEach converted)
  | [], converted, h => by
    cases h
    rw [negateEach, negateEach, mapEach]
  | condition :: rest, converted, h => by
    rw [mapEach] at h
    obtain ⟨first, hfirst, h⟩ := Outcome.bind_eq_ok.1 h
    obtain ⟨others, hothers, h⟩ := Outcome.bind_eq_ok.1 h
    cases h
    rw [negateEach, negateEach, mapEach, mapM_negate condition hfirst,
      mapEach_negateEach rest hothers]
    rfl

end

end Filter

end DocMapping
