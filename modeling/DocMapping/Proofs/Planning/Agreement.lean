import DocMapping.Planning.Predicate
import DocMapping.Proofs.Filter.Negation

/-!
# Agreement of Plans and Evaluation

A condition on an entity can be evaluated at the entity, or planned and held against its document.
Where both give the same answer they still do after conditions have been joined or negated, although
constant conditions disappear on the way and negations are pushed down to the tests.
-/

namespace DocMapping

/-- The predicate stands for a truth value in a document. -/
inductive Predicate.Means (parameters : Parameters) (document : Document) : Predicate → Bool → Prop
  | always (holds : Bool) : Means parameters document (.always holds) holds
  | filter {condition : Filter Operand} {bound : Filter Bson}
    (hbound : condition.mapM (Operand.bind parameters) = .ok bound)
    (hdecided : bound.Decided document) :
    Means parameters document (.filter condition) (bound.holds document)

namespace Predicate

variable {parameters : Parameters} {document : Document} {a b : Predicate} {p q : Bool}

theorem Means.and (ha : a.Means parameters document p) (hb : b.Means parameters document q) :
    (a.and b).Means parameters document (p && q) := by
  cases ha with
  | always =>
    cases p with
    | false => exact .always false
    | true =>
      rw [Bool.true_and]
      cases hb with
      | always => cases q <;> exact .always _
      | filter hbound hdecided => exact .filter hbound hdecided
  | @filter condition bound hbound hdecided =>
    cases hb with
    | always =>
      cases q with
      | false =>
        rw [Bool.and_false]
        exact .always false
      | true =>
        rw [Bool.and_true]
        exact .filter hbound hdecided
    | filter hother hdecided' =>
      rw [← Filter.holds_and]
      exact .filter (Filter.mapM_and hbound hother) (hdecided.and hdecided')

theorem Means.or (ha : a.Means parameters document p) (hb : b.Means parameters document q) :
    (a.or b).Means parameters document (p || q) := by
  cases ha with
  | always =>
    cases p with
    | true => exact .always true
    | false =>
      rw [Bool.false_or]
      cases hb with
      | always => cases q <;> exact .always _
      | filter hbound hdecided => exact .filter hbound hdecided
  | @filter condition bound hbound hdecided =>
    cases hb with
    | always =>
      cases q with
      | true =>
        rw [Bool.or_true]
        exact .always true
      | false =>
        rw [Bool.or_false]
        exact .filter hbound hdecided
    | filter hother hdecided' =>
      rw [← Filter.holds_or]
      exact .filter (Filter.mapM_or hbound hother) (hdecided.or hdecided')

theorem Means.negate (h : a.Means parameters document p) :
    a.negate.Means parameters document (!p) := by
  cases h with
  | always => exact .always !p
  | filter hbound hdecided =>
    rw [← hdecided.holds_negate]
    exact .filter (Filter.mapM_negate _ hbound) hdecided.negate

theorem means_test {path : List String} {operator : FieldOperator} {field : Option Bson}
    {operand : Bson} (hfield : document.resolve (Text.dotted path) = field)
    (hdecides : operator.Decides field operand) :
    (test path operator (.constant operand)).Means parameters document
      (operator.holds field operand) := by
  subst hfield
  rw [← Filter.holds_test]
  exact .filter rfl (.test hdecides)

end Predicate

/-! ## Agreement -/

/-- The condition can be planned and evaluated, and means in the document what it evaluates to. -/
def Agrees (s : Scope) (parameters : Parameters) (e : Entity) (document : Document)
    (body : Expression) : Prop :=
  ∃ predicate truth, s.predicate body = .ok predicate ∧
    body.evaluate parameters s.parameter e.toValue = .ok (.bool truth) ∧
    predicate.Means parameters document truth

namespace Agrees

variable {s : Scope} {parameters : Parameters} {e : Entity} {document : Document}

theorem test {body : Expression} {path : List String} {stored : Bson} (operator : FieldOperator)
    (operand : Bson) (hdecides : operator.Decides (some stored) operand)
    (hfield : document.resolve (Text.dotted path) = some stored)
    (hplan : s.predicate body = .ok (.test path operator (.constant operand)))
    (hevaluate : body.evaluate parameters s.parameter e.toValue =
      .ok (.bool (operator.holds (some stored) operand))) : Agrees s parameters e document body :=
  ⟨_, _, hplan, hevaluate, Predicate.means_test hfield hdecides⟩

theorem constant (holds : Bool) : Agrees s parameters e document (.constant (.bool holds)) := by
  refine ⟨.always holds, holds, ?_, ?_, .always holds⟩
  · rw [Scope.predicate]
  · rw [Expression.evaluate]

theorem andAlso {left right : Expression} (hleft : Agrees s parameters e document left)
    (hright : Agrees s parameters e document right) :
    Agrees s parameters e document (.binary .andAlso left right) := by
  obtain ⟨a, p, ha, hp, hmeansa⟩ := hleft
  obtain ⟨b, q, hb, hq, hmeansb⟩ := hright
  refine ⟨a.and b, p && q, ?_, ?_, hmeansa.and hmeansb⟩
  · rw [Scope.predicate, ha, hb]
    rfl
  · rw [Expression.evaluate, hp, hq]
    cases p <;> rfl

theorem orElse {left right : Expression} (hleft : Agrees s parameters e document left)
    (hright : Agrees s parameters e document right) :
    Agrees s parameters e document (.binary .orElse left right) := by
  obtain ⟨a, p, ha, hp, hmeansa⟩ := hleft
  obtain ⟨b, q, hb, hq, hmeansb⟩ := hright
  refine ⟨a.or b, p || q, ?_, ?_, hmeansa.or hmeansb⟩
  · rw [Scope.predicate, ha, hb]
    rfl
  · rw [Expression.evaluate, hp, hq]
    cases p <;> rfl

theorem not {operand : Expression} (h : Agrees s parameters e document operand) :
    Agrees s parameters e document (.not operand) := by
  obtain ⟨a, p, ha, hp, hmeans⟩ := h
  refine ⟨a.negate, !p, ?_, ?_, hmeans.negate⟩
  · rw [Scope.predicate, ha]
    rfl
  · rw [Expression.evaluate, hp]
    rfl

end Agrees

end DocMapping
