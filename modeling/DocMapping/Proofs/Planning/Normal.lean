import DocMapping.Proofs.Filter.Normal
import DocMapping.Proofs.Planning.Isolation
import DocMapping.Proofs.Planning.Parameters

/-!
# Filters of Plans

A condition is planned from single tests of fields, which are joined and negated on the way up, and
is then joined with the conditions that are there.  All of this keeps filters normal, so that what a
store is asked for holds no negations but those of tests that look at the ends of texts.
-/

namespace DocMapping

/-! ## Conditions -/

/-- The condition is constant, or its filter is normal. -/
inductive Predicate.IsNormal : Predicate → Prop
  | always (holds : Bool) : IsNormal (.always holds)
  | filter {condition : Filter Operand} (h : condition.IsNormal) : IsNormal (.filter condition)

namespace Predicate

variable {a b : Predicate}

theorem IsNormal.and (ha : a.IsNormal) (hb : b.IsNormal) : (a.and b).IsNormal := by
  cases ha with
  | always p =>
    cases p with
    | false => exact .always false
    | true =>
      cases hb with
      | always q => cases q <;> exact .always _
      | filter h => exact .filter h
  | filter h =>
    cases hb with
    | always q =>
      cases q with
      | false => exact .always false
      | true => exact .filter h
    | filter h' => exact .filter (Filter.isNormal_and.2 ⟨h, h'⟩)

theorem IsNormal.or (ha : a.IsNormal) (hb : b.IsNormal) : (a.or b).IsNormal := by
  cases ha with
  | always p =>
    cases p with
    | true => exact .always true
    | false =>
      cases hb with
      | always q => cases q <;> exact .always _
      | filter h => exact .filter h
  | filter h =>
    cases hb with
    | always q =>
      cases q with
      | true => exact .always true
      | false => exact .filter h
    | filter h' => exact .filter (Filter.isNormal_or.2 ⟨h, h'⟩)

theorem IsNormal.negate (h : a.IsNormal) : a.negate.IsNormal := by
  cases h with
  | always holds => exact .always !holds
  | filter h => exact .filter h.negate

theorem isNormal_test (path : List String) (operator : FieldOperator) (operand : Operand) :
    (test path operator operand).IsNormal :=
  .filter (Filter.isNormal_test (Text.dotted path) operator operand)

end Predicate

namespace Scope

variable {s : Scope} {a : Predicate}

theorem compareTarget_isNormal {operator : FieldOperator} {whole other : Expression}
    {target : Target} (h : compareTarget operator whole other target = .ok a) : a.IsNormal := by
  rcases compareTarget_ok h with ⟨path, p, operand, -, -, rfl⟩ | ⟨-, -, rfl⟩
  · exact Predicate.isNormal_test path operator operand
  · exact Predicate.isNormal_test target.path operator (.constant .null)

theorem comparison_isNormal {direct flipped : FieldOperator} {whole left right : Expression}
    (h : s.comparison direct flipped whole left right = .ok a) : a.IsNormal := by
  obtain ⟨first, -, h⟩ := Outcome.bind_eq_ok.1 h
  obtain ⟨second, -, h⟩ := Outcome.bind_eq_ok.1 h
  cases first with
  | none =>
    cases second with
    | none => cases h
    | some target => exact compareTarget_isNormal h
  | some target =>
    cases second with
    | none => exact compareTarget_isNormal h
    | some other => cases h

theorem methodTest_isNormal {method : Method} {whole receiver argument : Expression}
    (h : s.methodTest method whole receiver argument = .ok a) : a.IsNormal := by
  rcases methodTest_ok h with ⟨path, p, operand, -, htest⟩ | ⟨-, hlist⟩
  · split at htest
    · obtain ⟨-, rfl⟩ := htest
      exact Predicate.isNormal_test path .containsElement operand
    · obtain ⟨-, rfl⟩ := htest
      exact Predicate.isNormal_test path (textOperator method) operand
  · obtain ⟨path, p, operand, -, -, rfl⟩ := listTest_ok hlist
    exact Predicate.isNormal_test path .anyOf operand

theorem memberTest_isNormal {e : Expression} (h : s.memberTest e = .ok a) : a.IsNormal := by
  obtain ⟨found, -, h⟩ := Outcome.bind_eq_ok.1 h
  split at h
  · next path p =>
    split at h
    · obtain ⟨truth, -, rfl⟩ := Outcome.map_eq_ok.1 h
      exact Predicate.isNormal_test path .eq (.constant truth)
    · cases h
  · cases h

/-- Whatever a condition is made of, it is planned as a normal one. -/
theorem predicate_isNormal : (body : Expression) → {a : Predicate} → s.predicate body = .ok a →
    a.IsNormal
  | .constant value, a, h => by
    cases value <;> cases h
    exact .always _
  | .binary operator left right, a, h => by
    cases operator with
    | andAlso =>
      rw [predicate] at h
      obtain ⟨b, hb, h⟩ := Outcome.bind_eq_ok.1 h
      obtain ⟨c, hc, h⟩ := Outcome.bind_eq_ok.1 h
      cases h
      exact (predicate_isNormal left hb).and (predicate_isNormal right hc)
    | orElse =>
      rw [predicate] at h
      obtain ⟨b, hb, h⟩ := Outcome.bind_eq_ok.1 h
      obtain ⟨c, hc, h⟩ := Outcome.bind_eq_ok.1 h
      cases h
      exact (predicate_isNormal left hb).or (predicate_isNormal right hc)
    | equal | notEqual | lessThan | lessThanOrEqual | greaterThan | greaterThanOrEqual =>
      rw [predicate_comparison s rfl rfl] at h
      exact comparison_isNormal h
    | add | subtract | multiply | divide => cases h
  | .not operand, a, h => by
    rw [predicate] at h
    obtain ⟨b, hb, rfl⟩ := Outcome.map_eq_ok.1 h
    exact (predicate_isNormal operand hb).negate
  | .call method arguments, a, h => by
    rw [predicate] at h
    obtain ⟨receiver, argument, rfl, h⟩ := callTest_ok h
    exact methodTest_isNormal h
  | .member target name, a, h => by
    rw [predicate] at h
    exact memberTest_isNormal h
  | .entitySet _, _, h | .parameter _, _, h | .queryParameter _, _, h | .index _ _, _, h
  | .lambda _ _, _, h | .record _ _, _, h | .array _, _, h => by
    rw [predicate] at h <;> cases h

end Scope

/-! ## Plans -/

/-- The filter of a selection is normal, if there is one. -/
def Selection.IsNormal (s : Selection) : Prop := ∀ filter ∈ s.filter, filter.IsNormal

theorem Selection.isNormal_condition {s : Selection} : s.condition.IsNormal ↔ s.IsNormal := by
  unfold condition IsNormal
  cases s.filter with
  | none => exact iff_of_true (.always true) (by simp)
  | some filter => exact ⟨fun | .filter h => by simpa using h, fun h ↦ .filter (h filter rfl)⟩

theorem EntityType.selection_isNormal {t : EntityType} {s : Selection} (h : t.selection = .ok s) :
    s.IsNormal := by
  unfold selection at h
  split at h
  · cases h
  · cases h
    intro filter hfilter
    obtain ⟨d, -, rfl⟩ := Option.map_eq_some_iff.1 hfilter
    exact Filter.isNormal_test _ _ _

namespace PartialPlan

variable {s : PartialPlan}

theorem addPredicate_isNormal (h : s.selection.IsNormal) {predicate : Predicate}
    (hpredicate : predicate.IsNormal) : (s.addPredicate predicate).selection.IsNormal := by
  have hrestrict {condition : Filter Operand} (hcondition : condition.IsNormal) :
      (s.addPredicate (.filter condition)).selection.IsNormal := by
    rw [← Selection.isNormal_condition] at h ⊢
    rw [s.condition_addPredicate]
    exact h.and (.filter hcondition)
  cases hpredicate with
  | filter hcondition => exact hrestrict hcondition
  | always holds =>
    cases holds with
    | true => exact h
    | false => exact hrestrict (Filter.isNormal_present idElement false)

theorem isNormal_invariant (model : Model) (fallback : Bool) :
    Invariant model fallback fun s ↦ s.selection.IsNormal where
  documents _ _ _ := EntityType.selection_isNormal
  condition h hpredicate := addPredicate_isNormal h (Scope.predicate_isNormal _ hpredicate)
  arrangement _ _ _ h := h
  projection h hselect := by
    obtain ⟨projection, hselection⟩ := select_selection hselect
    rw [hselection]
    exact h

end PartialPlan

/-- A store is asked for normal filters only. -/
theorem Selection.IsNormal.toQuery {s : Selection} (h : s.IsNormal) {parameters : Parameters}
    {cap : Option Nat} {query : Query} (hquery : s.toQuery parameters cap = .ok query) :
    ∀ filter ∈ query.filter, filter.IsNormal := by
  intro bound hbound
  have hbind := toQuery_filter hquery
  rw [Option.mem_def.1 hbound] at hbind
  cases hfilter : s.filter with
  | none =>
    rw [hfilter] at hbind
    cases hbind
  | some filter =>
    rw [hfilter] at hbind
    obtain ⟨converted, hconverted, hsome⟩ := Outcome.map_eq_ok.1 hbind
    cases hsome
    exact (h filter hfilter).mapM hconverted

/-- Filters of plans are normal, before and after their parameters are bound.  Normal filters stay
normal when they are negated, and exactly they come back from being negated twice. -/
theorem Model.plan_isNormal (model : Model) :
    (∀ {fallback : Bool} {e : Expression} {plan : Plan}, model.plan fallback e = .ok plan →
      (∀ filter ∈ plan.selection.filter, filter.IsNormal) ∧
      ∀ parameters cap query, plan.selection.toQuery parameters cap = .ok query →
        ∀ filter ∈ query.filter, filter.IsNormal) ∧
    (∀ {α : Type} {filter : Filter α}, filter.IsNormal → filter.negate.IsNormal) ∧
    ∀ {α : Type} (filter : Filter α), filter.negate.negate = filter ↔ filter.IsNormal := by
  refine ⟨fun {fallback e plan} hplan ↦ ?_, Filter.IsNormal.negate,
    Filter.negate_negate_eq_self_iff⟩
  obtain ⟨s, terminal, hs, rfl⟩ := (PartialPlan.isNormal_invariant model fallback).plan hplan
  have hnormal : (s.finish terminal).selection.IsNormal := by
    unfold Selection.IsNormal
    rw [PartialPlan.finish_filter]
    exact hs
  exact ⟨hnormal, fun parameters cap query ↦ hnormal.toQuery⟩

/-! ## Books by the ends of names -/

namespace Books

def writer : Expression := .member (.member (.parameter "b") "Author") "Name"

/-- Whether there is a book whose author is not alive and has a name that starts otherwise than with
an initial and ends with an "n".  The last condition is one that no book meets. -/
def ended : Expression :=
  let started := Expression.call .startsWith [writer, .queryParameter "initial"]
  let alive := Expression.member (.member (.parameter "b") "Author") "Alive"
  .call .any [
    .call .filter [
      .call .filter [.entitySet "Book",
        .lambda "b" (.not (.binary .orElse started
          (.binary .andAlso (.constant (.bool true)) alive)))],
      .lambda "b" (.not (.not (.call .endsWith [writer, .constant (.string "n")])))],
    .lambda "b" (.constant (.bool false))]

/-- The filter that is asked for, with or without a value of the initial. -/
def endedFilter {α : Type} (stored : Bson → α) (initial : α) : Filter α :=
  .all [.test "Kind" .eq (stored (.string "book")),
    .all [.not (.test "Author.Name" .startsWith initial),
      .test "Author.Alive" .ne (stored (.boolean true))],
    .test "Author.Name" .endsWith (stored (.string "n")), .present idElement false]

end Books

theorem Model.plan_isNormal_books :
    ∃ plan query,
      Model.plan ⟨[Books.book, Books.person]⟩ false Books.ended = .ok plan ∧
      plan.selection.toQuery [("initial", .string "A")] none = .ok query ∧
      plan.selection.filter = some (Books.endedFilter .constant
        (.parameter "initial" (.plain "Name" (.scalar .string)) .scalar)) ∧
      query.filter = some (Books.endedFilter id (.string "A")) ∧
      (∀ filter ∈ plan.selection.filter, filter.IsNormal ∧ filter.negate.IsNormal ∧
        filter.negate.negate = filter) ∧
      ∀ filter ∈ query.filter, filter.IsNormal ∧ filter.negate.negate = filter := by
  obtain ⟨plan, hplan⟩ : ∃ plan,
      Model.plan ⟨[Books.book, Books.person]⟩ false Books.ended = .ok plan := ⟨_, rfl⟩
  obtain ⟨query, hquery⟩ : ∃ query,
      plan.selection.toQuery [("initial", .string "A")] none = .ok query := by
    cases hplan
    exact ⟨_, rfl⟩
  obtain ⟨hnormal, hnegate, htwice⟩ := Model.plan_isNormal ⟨[Books.book, Books.person]⟩
  obtain ⟨hfilters, hqueries⟩ := hnormal hplan
  refine ⟨plan, query, hplan, hquery, ?_, ?_, fun filter hfilter ↦ ?_, fun filter hfilter ↦ ?_⟩
  · cases hplan
    rfl
  · cases hplan
    cases hquery
    rfl
  · have hfound := hfilters filter hfilter
    exact ⟨hfound, hnegate hfound, (htwice filter).2 hfound⟩
  · have hfound := hqueries _ _ query hquery filter hfilter
    exact ⟨hfound, (htwice filter).2 hfound⟩

end DocMapping
