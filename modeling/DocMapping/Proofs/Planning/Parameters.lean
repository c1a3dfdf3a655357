import DocMapping.Proofs.Filter.Operands
import DocMapping.Proofs.Planning.Conditions
import DocMapping.Proofs.Planning.Sources

/-!
# Parameters and Constants

A condition with parameters is planned before they have values, one with constants afterwards.  Both
ways lead to the same filter: what the parameters are bound to is what the constants are stored as,
with the one exception of null in place of a list.
-/

namespace DocMapping

/-! ## Constants for parameters -/

namespace Expression

mutual

/-- The expression with the values of its parameters as constants.  A parameter that has no value
stays. -/
def inlined (parameters : Parameters) : Expression → Expression
  | .entitySet entity => .entitySet entity
  | .parameter name => .parameter name
  | .queryParameter name =>
    match parameters.lookup name with
    | some value => .constant value
    | none => .queryParameter name
  | .constant value => .constant value
  | .member target name => .member (inlined parameters target) name
  | .binary operator left right =>
    .binary operator (inlined parameters left) (inlined parameters right)
  | .not operand => .not (inlined parameters operand)
  | .call method arguments => .call method (inlinedEach parameters arguments)
  | .index target position => .index (inlined parameters target) (inlined parameters position)
  | .lambda x body => .lambda x (inlined parameters body)
  | .record shape fields => .record shape (inlinedFields parameters fields)
  | .array items => .array (inlinedEach parameters items)

def inlinedEach (parameters : Parameters) : List Expression → List Expression
  | [] => []
  | e :: rest => inlined parameters e :: inlinedEach parameters rest

def inlinedFields (parameters : Parameters) : List (String × Expression) →
    List (String × Expression)
  | [] => []
  | (name, e) :: rest => (name, inlined parameters e) :: inlinedFields parameters rest

end

end Expression

/-- The operand that is planned for the value of a parameter as a constant. -/
def Operand.inlined (parameters : Parameters) : Operand → Outcome Operand
  | .constant value => .ok (.constant value)
  | .parameter name p shape =>
    p.operand shape (.queryParameter name) (Expression.inlined parameters (.queryParameter name))

/-- A stored value as an operand. -/
def Operand.stored (value : Bson) : Outcome Operand := .ok (.constant value)

/-- The condition with the values of its parameters as constants. -/
def Predicate.inlined (parameters : Parameters) : Predicate → Outcome Predicate
  | .always holds => .ok (.always holds)
  | .filter condition => (condition.mapM (Operand.inlined parameters)).map Predicate.filter

namespace Predicate

variable {parameters : Parameters} {a b a' b' : Predicate}

theorem inlined_filter {condition : Filter Operand}
    (h : (filter condition).inlined parameters = .ok a') :
    ∃ condition', condition.mapM (Operand.inlined parameters) = .ok condition' ∧
      a' = filter condition' := by
  obtain ⟨condition', hcondition, rfl⟩ := Outcome.map_eq_ok.1 h
  exact ⟨condition', hcondition, rfl⟩

theorem inlined_and (ha : a.inlined parameters = .ok a') (hb : b.inlined parameters = .ok b') :
    (a.and b).inlined parameters = .ok (a'.and b') := by
  cases a with
  | always p =>
    cases ha
    cases b with
    | always q => cases hb; cases p <;> cases q <;> rfl
    | filter condition =>
      obtain ⟨condition', -, rfl⟩ := inlined_filter hb
      cases p with
      | true => exact hb
      | false => rfl
  | filter condition =>
    obtain ⟨condition', hcondition, rfl⟩ := inlined_filter ha
    cases b with
    | always q =>
      cases hb
      cases q with
      | true => exact ha
      | false => rfl
    | filter other =>
      obtain ⟨other', hother, rfl⟩ := inlined_filter hb
      exact congrArg (Except.map filter) (Filter.mapM_and hcondition hother)

theorem inlined_or (ha : a.inlined parameters = .ok a') (hb : b.inlined parameters = .ok b') :
    (a.or b).inlined parameters = .ok (a'.or b') := by
  cases a with
  | always p =>
    cases ha
    cases b with
    | always q => cases hb; cases p <;> cases q <;> rfl
    | filter condition =>
      obtain ⟨condition', -, rfl⟩ := inlined_filter hb
      cases p with
      | true => rfl
      | false => exact hb
  | filter condition =>
    obtain ⟨condition', hcondition, rfl⟩ := inlined_filter ha
    cases b with
    | always q =>
      cases hb
      cases q with
      | true => rfl
      | false => exact ha
    | filter other =>
      obtain ⟨other', hother, rfl⟩ := inlined_filter hb
      exact congrArg (Except.map filter) (Filter.mapM_or hcondition hother)

theorem inlined_negate (h : a.inlined parameters = .ok a') :
    a.negate.inlined parameters = .ok a'.negate := by
  cases a with
  | always holds =>
    cases h
    rfl
  | filter condition =>
    obtain ⟨condition', hcondition, rfl⟩ := inlined_filter h
    exact congrArg (Except.map filter) (Filter.mapM_negate condition hcondition)

theorem inlined_test {operand operand' : Operand} (h : operand.inlined parameters = .ok operand')
    (path : List String) (operator : FieldOperator) :
    (test path operator operand).inlined parameters = .ok (test path operator operand') := by
  change ((Filter.test (Text.dotted path) operator operand).mapM
    (Operand.inlined parameters)).map filter = _
  rw [Filter.mapM, h]
  rfl

end Predicate

/-! ## Planning -/

variable {parameters : Parameters}

theorem Property.operand_inlined {p : Property} {shape : OperandShape} {whole whole' e : Expression}
    {operand operand' : Operand} (h : p.operand shape whole e = .ok operand)
    (h' : p.operand shape whole' (e.inlined parameters) = .ok operand') :
    operand.inlined parameters = .ok operand' := by
  cases e with
  | queryParameter name =>
    cases h
    rw [Operand.inlined, ← h', Expression.inlined]
    cases parameters.lookup name with
    | none => rfl
    | some value => cases value <;> rfl
  | constant value =>
    rw [Expression.inlined] at h'
    have hsame : operand = operand' := by
      cases value <;> exact Except.ok.inj (h.symm.trans h')
    obtain ⟨stored, rfl⟩ : ∃ stored, operand = .constant stored := by
      cases value with
      | null => exact ⟨.null, (Except.ok.inj h).symm⟩
      | _ =>
        obtain ⟨stored, -, rfl⟩ := Outcome.map_eq_ok.1 h
        exact ⟨stored, rfl⟩
    exact congrArg Except.ok hsame
  | _ => cases h

namespace Scope

variable {s : Scope}

/-- Parameters lead to no members. -/
theorem resolve_inlined (parameters : Parameters) : (e : Expression) → {found : Option Target} →
    s.resolve e = .ok found → s.resolve (e.inlined parameters) = .ok found
  | .parameter name, found, h => by
    rw [Expression.inlined]
    exact h
  | .queryParameter name, found, h => by
    rw [Expression.inlined]
    cases h
    cases parameters.lookup name <;> rfl
  | .member e name, found, h => by
    rw [resolve] at h
    obtain ⟨owner, howner, h⟩ := Outcome.bind_eq_ok.1 h
    rw [Expression.inlined, resolve, resolve_inlined parameters e howner]
    cases owner with
    | none => exact h
    | some target =>
      cases target with
      | entity path entity nullable => exact h
      | property | ownedCollection => cases h
  | .index e position, found, h => by
    rw [resolve] at h
    obtain ⟨owner, howner, h⟩ := Outcome.bind_eq_ok.1 h
    rw [Expression.inlined, resolve, resolve_inlined parameters e howner]
    cases owner with
    | none => exact h
    | some target => cases h
  | .entitySet _, _, h | .constant _, _, h | .binary _ _ _, _, h | .not _, _, h | .call _ _, _, h
  | .lambda _ _, _, h | .record _ _, _, h | .array _, _, h => by
    rw [Expression.inlined]
    exact h

theorem compareTarget_ok {operator : FieldOperator} {whole other : Expression} {target : Target}
    {a : Predicate} (h : compareTarget operator whole other target = .ok a) :
    (∃ path p operand, target = .property path p ∧ p.operand .scalar whole other = .ok operand ∧
      a = .test path operator operand) ∨
    ((∀ path p, target ≠ .property path p) ∧ other = .constant .null ∧
      a = .test target.path operator (.constant .null)) := by
  cases target with
  | property path p =>
    obtain ⟨operand, hoperand, rfl⟩ := Outcome.map_eq_ok.1 h
    exact .inl ⟨path, p, operand, rfl, hoperand, rfl⟩
  | entity | ownedCollection =>
    right
    unfold compareTarget at h
    dsimp only at h
    split at h
    · exact ⟨by simp, rfl, (Except.ok.inj h).symm⟩
    · exact ⟨by simp, rfl, (Except.ok.inj h).symm⟩
    · cases h

theorem compareTarget_inlined {operator : FieldOperator} {whole whole' other : Expression}
    {target : Target} {a a' : Predicate} (h : compareTarget operator whole other target = .ok a)
    (h' : compareTarget operator whole' (other.inlined parameters) target = .ok a') :
    a.inlined parameters = .ok a' := by
  rcases compareTarget_ok h with ⟨path, p, operand, rfl, hoperand, rfl⟩ | ⟨hother, rfl, rfl⟩
  · obtain ⟨operand', hoperand', rfl⟩ := Outcome.map_eq_ok.1 h'
    exact Predicate.inlined_test (Property.operand_inlined hoperand hoperand') path operator
  · rcases compareTarget_ok h' with ⟨path, p, -, rfl, -⟩ | ⟨-, -, rfl⟩
    · exact absurd rfl (hother path p)
    · exact Predicate.inlined_test rfl target.path operator

theorem comparison_inlined {direct flipped : FieldOperator} {whole whole' left right : Expression}
    {a a' : Predicate} (h : s.comparison direct flipped whole left right = .ok a)
    (h' : s.comparison direct flipped whole' (left.inlined parameters) (right.inlined parameters) =
      .ok a') : a.inlined parameters = .ok a' := by
  obtain ⟨first, hfirst, h⟩ := Outcome.bind_eq_ok.1 h
  obtain ⟨second, hsecond, h⟩ := Outcome.bind_eq_ok.1 h
  have hleft := resolve_inlined parameters left (Outcome.mapError_eq_ok.1 hfirst)
  have hright := resolve_inlined parameters right (Outcome.mapError_eq_ok.1 hsecond)
  cases first with
  | none =>
    cases second with
    | none => cases h
    | some target =>
      rw [comparison_right hleft hright] at h'
      exact compareTarget_inlined h h'
  | some target =>
    cases second with
    | none =>
      rw [comparison_left hleft hright] at h'
      exact compareTarget_inlined h h'
    | some other => cases h

/-- A list is asked for one property. -/
theorem listTest_ok {whole receiver argument : Expression} {a : Predicate}
    (h : s.listTest whole receiver argument = .ok a) :
    ∃ path p operand, s.resolve argument = .ok (some (.property path p)) ∧
      p.operand .list whole receiver = .ok operand ∧ a = .test path .anyOf operand := by
  obtain ⟨found, hfound, h⟩ := Outcome.bind_eq_ok.1 h
  split at h
  · next path p =>
    split at h
    · cases h
    · obtain ⟨operand, hoperand, rfl⟩ := Outcome.map_eq_ok.1 h
      exact ⟨path, p, operand, Outcome.mapError_eq_ok.1 hfound, hoperand, rfl⟩
  · cases h

theorem listTest_inlined {whole whole' receiver argument : Expression} {a a' : Predicate}
    (h : s.listTest whole receiver argument = .ok a)
    (h' : s.listTest whole' (receiver.inlined parameters) (argument.inlined parameters) = .ok a') :
    a.inlined parameters = .ok a' := by
  obtain ⟨path, p, operand, hfound, hoperand, rfl⟩ := listTest_ok h
  obtain ⟨path', p', operand', hfound', hoperand', rfl⟩ := listTest_ok h'
  cases (resolve_inlined parameters argument hfound).symm.trans hfound'
  exact Predicate.inlined_test (Property.operand_inlined hoperand hoperand') path .anyOf

/-- A property that a method is called on decides what the method asks for, and of which shape. -/
theorem methodTest_ok {method : Method} {whole receiver argument : Expression} {a : Predicate}
    (h : s.methodTest method whole receiver argument = .ok a) :
    (∃ path p operand, s.resolve receiver = .ok (some (.property path p)) ∧
      (if p.isCollection && method == .contains then
        p.operand .element whole argument = .ok operand ∧ a = .test path .containsElement operand
      else p.operand .scalar whole argument = .ok operand ∧
        a = .test path (textOperator method) operand)) ∨
    (s.resolve receiver = .ok none ∧ s.listTest whole receiver argument = .ok a) := by
  obtain ⟨found, hfound, h⟩ := Outcome.bind_eq_ok.1 h
  rw [Planned.toOutcome, Outcome.mapError_eq_ok] at hfound
  split at h
  · next path p =>
    left
    split at h
    · next helement =>
      obtain ⟨operand, hoperand, rfl⟩ := Outcome.map_eq_ok.1 h
      exact ⟨path, p, operand, hfound, by rw [if_pos helement]; exact ⟨hoperand, rfl⟩⟩
    · next hscalar =>
      split at h
      · obtain ⟨operand, hoperand, rfl⟩ := Outcome.map_eq_ok.1 h
        exact ⟨path, p, operand, hfound, by rw [if_neg hscalar]; exact ⟨hoperand, rfl⟩⟩
      · cases h
  · cases h
  · split at h
    · exact .inr ⟨hfound, h⟩
    · cases h

theorem methodTest_inlined {method : Method} {whole whole' receiver argument : Expression}
    {a a' : Predicate} (h : s.methodTest method whole receiver argument = .ok a)
    (h' : s.methodTest method whole' (receiver.inlined parameters) (argument.inlined parameters) =
      .ok a') : a.inlined parameters = .ok a' := by
  rcases methodTest_ok h with ⟨path, p, operand, hfound, htest⟩ | ⟨hfound, hlist⟩
  · rcases methodTest_ok h' with ⟨path', p', operand', hfound', htest'⟩ | ⟨hfound', -⟩
    · cases (resolve_inlined parameters receiver hfound).symm.trans hfound'
      split at htest
      · next helement =>
        rw [if_pos helement] at htest'
        obtain ⟨hoperand, rfl⟩ := htest
        obtain ⟨hoperand', rfl⟩ := htest'
        exact Predicate.inlined_test (Property.operand_inlined hoperand hoperand') path _
      · next hscalar =>
        rw [if_neg hscalar] at htest'
        obtain ⟨hoperand, rfl⟩ := htest
        obtain ⟨hoperand', rfl⟩ := htest'
        exact Predicate.inlined_test (Property.operand_inlined hoperand hoperand') path _
    · cases (resolve_inlined parameters receiver hfound).symm.trans hfound'
  · rcases methodTest_ok h' with ⟨path', p', operand', hfound', -⟩ | ⟨-, hlist'⟩
    · cases (resolve_inlined parameters receiver hfound).symm.trans hfound'
    · exact listTest_inlined hlist hlist'

theorem callTest_ok {method : Method} {arguments : List Expression} {a : Predicate}
    (h : s.callTest method arguments = .ok a) :
    ∃ receiver argument, arguments = [receiver, argument] ∧
      s.methodTest method (.call method arguments) receiver argument = .ok a := by
  unfold callTest at h
  dsimp only at h
  split at h
  · split at h
    · exact ⟨_, _, rfl, h⟩
    · cases h
  · cases h

theorem memberTest_inlined {e : Expression} {a a' : Predicate} (h : s.memberTest e = .ok a)
    (h' : s.memberTest (e.inlined parameters) = .ok a') : a.inlined parameters = .ok a' := by
  obtain ⟨found, hfound, h⟩ := Outcome.bind_eq_ok.1 h
  rw [Planned.toOutcome, Outcome.mapError_eq_ok] at hfound
  unfold memberTest at h'
  rw [resolve_inlined parameters e hfound] at h'
  split at h
  · next path p =>
    split at h
    · next hflag =>
      obtain ⟨truth, htruth, rfl⟩ := Outcome.map_eq_ok.1 h
      change (if p.isFlag then _ else _) = _ at h'
      rw [if_pos hflag, htruth] at h'
      cases h'
      exact Predicate.inlined_test rfl path .eq
    · cases h
  · cases h

/-- Planning the constants of the values gives the condition with these constants. -/
theorem predicate_inlined : (body : Expression) → {a a' : Predicate} → s.predicate body = .ok a →
    s.predicate (body.inlined parameters) = .ok a' → a.inlined parameters = .ok a'
  | .constant value, a, a', h, h' => by
    rw [Expression.inlined] at h'
    cases h.symm.trans h'
    cases value <;> cases h
    rfl
  | .binary operator left right, a, a', h, h' => by
    rw [Expression.inlined] at h'
    cases operator with
    | andAlso =>
      rw [predicate] at h h'
      obtain ⟨b, hb, h⟩ := Outcome.bind_eq_ok.1 h
      obtain ⟨c, hc, h⟩ := Outcome.bind_eq_ok.1 h
      obtain ⟨b', hb', h'⟩ := Outcome.bind_eq_ok.1 h'
      obtain ⟨c', hc', h'⟩ := Outcome.bind_eq_ok.1 h'
      cases h
      cases h'
      exact Predicate.inlined_and (predicate_inlined left hb hb') (predicate_inlined right hc hc')
    | orElse =>
      rw [predicate] at h h'
      obtain ⟨b, hb, h⟩ := Outcome.bind_eq_ok.1 h
      obtain ⟨c, hc, h⟩ := Outcome.bind_eq_ok.1 h
      obtain ⟨b', hb', h'⟩ := Outcome.bind_eq_ok.1 h'
      obtain ⟨c', hc', h'⟩ := Outcome.bind_eq_ok.1 h'
      cases h
      cases h'
      exact Predicate.inlined_or (predicate_inlined left hb hb') (predicate_inlined right hc hc')
    | equal | notEqual | lessThan | lessThanOrEqual | greaterThan | greaterThanOrEqual =>
      rw [predicate_comparison s rfl rfl] at h h'
      exact comparison_inlined h h'
    | add | subtract | multiply | divide => cases h
  | .not operand, a, a', h, h' => by
    rw [Expression.inlined, predicate] at h'
    rw [predicate] at h
    obtain ⟨b, hb, rfl⟩ := Outcome.map_eq_ok.1 h
    obtain ⟨b', hb', rfl⟩ := Outcome.map_eq_ok.1 h'
    exact Predicate.inlined_negate (predicate_inlined operand hb hb')
  | .call method arguments, a, a', h, h' => by
    rw [Expression.inlined, predicate] at h'
    rw [predicate] at h
    obtain ⟨receiver, argument, rfl, h⟩ := callTest_ok h
    obtain ⟨_, _, harguments, h'⟩ := callTest_ok h'
    cases harguments
    exact methodTest_inlined h h'
  | .member target name, a, a', h, h' => by
    have hmember : (Expression.member target name).inlined parameters =
        .member (target.inlined parameters) name := by
      rw [Expression.inlined]
    rw [hmember, predicate, ← hmember] at h'
    rw [predicate] at h
    exact memberTest_inlined h h'
  | .entitySet _, _, _, h, _ | .parameter _, _, _, h, _ | .queryParameter _, _, _, h, _
  | .index _ _, _, _, h, _ | .lambda _ _, _, _, h, _ | .record _ _, _, _, h, _
  | .array _, _, _, h, _ => by
    rw [predicate] at h <;> cases h

end Scope

/-! ## Binding -/

/-- A parameter has a value, which is not null in place of a list. -/
def Operand.IsSupplied (parameters : Parameters) : Operand → Prop
  | .constant _ => True
  | .parameter name _ shape =>
    ∃ value, parameters.require name = .ok value ∧ (shape = .list → value ≠ .null)

/-- Null is stored as null. -/
theorem Property.encodeOperand_null {p : Property} {shape : OperandShape} (h : shape ≠ .list) :
    p.encodeOperand shape .null = .ok .null := by
  cases shape with
  | scalar =>
    change p.encode .null = _
    unfold encode encodeValue
    cases p.kind <;> rfl
  | element => rfl
  | list => exact absurd rfl h

namespace Operand

variable {name : String} {p : Property} {shape : OperandShape} {operand operand' : Operand}

theorem bind_parameter {value : Value} (hvalue : parameters.require name = .ok value) :
    (parameter name p shape).bind parameters = p.encodeOperand shape value := by
  rw [bind, hvalue]
  rfl

/-- The constant in place of a parameter is what its value is encoded as, which all values are but
null in place of a list. -/
theorem encodeOperand_of_inlined {value : Value} (hlookup : parameters.lookup name = some value)
    (h : (parameter name p shape).inlined parameters = .ok operand') :
    (∀ stored, p.encodeOperand shape value = .ok stored → operand' = constant stored) ∧
      ((∃ stored, p.encodeOperand shape value = .ok stored) ↔ (shape = .list → value ≠ .null)) := by
  rw [inlined, Expression.inlined, hlookup] at h
  by_cases hnull : value = .null
  · subst hnull
    cases h
    by_cases hlist : shape = .list
    · subst hlist
      refine ⟨?_, ?_, fun hnever ↦ absurd rfl (hnever rfl)⟩
      · rintro _ ⟨⟩
      · rintro ⟨_, ⟨⟩⟩
    · rw [Property.encodeOperand_null hlist]
      exact ⟨fun _ hstored ↦ congrArg constant (Except.ok.inj hstored),
        fun _ h ↦ absurd h hlist, fun _ ↦ ⟨.null, rfl⟩⟩
  · have hoperand : (p.encodeOperand shape value).map constant = .ok operand' := by
      cases value with
      | null => exact absurd rfl hnull
      | _ => exact h
    obtain ⟨stored, hstored, rfl⟩ := Outcome.map_eq_ok.1 hoperand
    rw [hstored]
    exact ⟨fun _ hsame ↦ congrArg constant (Except.ok.inj hsame), fun _ _ ↦ hnull,
      fun _ ↦ ⟨stored, rfl⟩⟩

/-- What is bound is what is planned for a constant, and it is bound wherever a value is supplied. -/
theorem inlined_ok (h : operand.inlined parameters = .ok operand') :
    (∀ value, operand.bind parameters = .ok value → operand' = .constant value) ∧
      ((∃ value, operand.bind parameters = .ok value) ↔ operand.IsSupplied parameters) := by
  cases operand with
  | constant stored =>
    cases h
    exact ⟨fun value hvalue ↦ congrArg constant (Except.ok.inj hvalue), fun _ ↦ trivial,
      fun _ ↦ ⟨stored, rfl⟩⟩
  | parameter name p shape =>
    have hsupplied : (parameter name p shape).IsSupplied parameters ↔
        ∃ value, parameters.require name = .ok value ∧ (shape = .list → value ≠ .null) := Iff.rfl
    rw [hsupplied]
    cases hlookup : parameters.lookup name with
    | none =>
      have hmissing : parameters.require name = .error (.operation (.missingParameter name)) := by
        rw [Parameters.require, hlookup]
      rw [bind, hmissing]
      refine ⟨?_, ?_, ?_⟩
      · rintro _ ⟨⟩
      · rintro ⟨_, ⟨⟩⟩
      · rintro ⟨_, ⟨⟩, -⟩
    | some value =>
      have hvalue : parameters.require name = .ok value := by rw [Parameters.require, hlookup]
      obtain ⟨hconstant, hencoded⟩ := encodeOperand_of_inlined hlookup h
      rw [bind_parameter hvalue, hvalue, hencoded]
      refine ⟨hconstant, fun hlist ↦ ⟨value, rfl, hlist⟩, ?_⟩
      rintro ⟨_, hsame, hlist⟩
      exact Except.ok.inj hsame ▸ hlist

end Operand

/-! ## Queries -/

/-- The operands of the condition on what is selected. -/
def Selection.operands (s : Selection) : List Operand :=
  match s.filter with
  | some filter => filter.operands
  | none => []

theorem PartialPlan.finish_filter (s : PartialPlan) (terminal : Terminal) :
    (s.finish terminal).selection.filter = s.selection.filter := by
  unfold finish
  split <;> rfl

/-- The steps of planning a condition on a set of entities. -/
theorem Model.plan_filter_ok {model : Model} {fallback : Bool} {name x : String} {body : Expression}
    {plan : Plan}
    (h : model.plan fallback (.call .filter [.entitySet name, .lambda x body]) = .ok plan) :
    ∃ t s predicate, model.entity? name = some t ∧ t.selection = .ok s ∧
      (⟨x, t⟩ : Scope).predicate body = .ok predicate ∧
      plan = (PartialPlan.addPredicate ⟨s, none⟩ predicate).finish .sequence := by
  obtain ⟨sequence, terminal, condition, before, s, hsplit, hsource, hcondition, rfl⟩ :=
    Model.plan_ok h
  cases hsplit
  obtain ⟨-, rfl⟩ | ⟨_, hnone, -⟩ := hcondition
  · rw [Expression.source] at hsource
    obtain ⟨read, hread, happly⟩ := Outcome.bind_eq_ok.1 hsource
    rw [Expression.source] at hread
    split at hread
    · next t ht =>
      obtain ⟨selection, hselection, rfl⟩ := Outcome.map_eq_ok.1 hread
      obtain ⟨_, -, happly⟩ := Outcome.bind_eq_ok.1 happly
      obtain ⟨f, hf, happly⟩ := Outcome.bind_eq_ok.1 happly
      cases hf
      obtain ⟨predicate, hpredicate, rfl⟩ := PartialPlan.restrictBy_ok happly
      refine ⟨t, selection, predicate, ht, hselection, ?_, rfl⟩
      unfold EntityType.selection at hselection
      split at hselection
      · cases hselection
      · cases hselection
        exact hpredicate
    · cases hread
  · cases hnone

theorem EntityType.selection_inlined {t : EntityType} {s : Selection} (h : t.selection = .ok s) :
    Selection.bindOption (·.mapM (Operand.inlined parameters)) s.filter = .ok s.filter := by
  unfold selection at h
  split at h
  · cases h
  · cases h
    cases t.discriminator <;> rfl

theorem PartialPlan.addPredicate_inlined {s : PartialPlan} {a a' : Predicate}
    (hs : Selection.bindOption (·.mapM (Operand.inlined parameters)) s.selection.filter =
      .ok s.selection.filter)
    (h : a.inlined parameters = .ok a') :
    Selection.bindOption (·.mapM (Operand.inlined parameters)) (s.addPredicate a).selection.filter =
      .ok (s.addPredicate a').selection.filter := by
  have hrestrict {condition condition' : Filter Operand}
      (hcondition : condition.mapM (Operand.inlined parameters) = .ok condition') :
      Selection.bindOption (·.mapM (Operand.inlined parameters))
        (s.addPredicate (.filter condition)).selection.filter =
          .ok (s.addPredicate (.filter condition')).selection.filter := by
    unfold addPredicate
    cases hfilter : s.selection.filter with
    | none =>
      change (condition.mapM (Operand.inlined parameters)).map some = _
      rw [hcondition]
      rfl
    | some existing =>
      rw [hfilter] at hs
      obtain ⟨existing', hexisting, hsame⟩ := Outcome.map_eq_ok.1 hs
      cases hsame
      change ((existing.and condition).mapM (Operand.inlined parameters)).map some = _
      rw [Filter.mapM_and hexisting hcondition]
      rfl
  cases a with
  | filter condition =>
    obtain ⟨condition', hcondition, rfl⟩ := Predicate.inlined_filter h
    exact hrestrict hcondition
  | always holds =>
    cases h
    cases holds with
    | true => exact hs
    | false => exact hrestrict rfl

theorem Selection.bind_inlined {s : Selection} {early : Option (Filter Operand)}
    (h : bindOption (·.mapM (Operand.inlined parameters)) s.filter = .ok early) :
    (∀ bound, bindOption (·.mapM (Operand.bind parameters)) s.filter = .ok bound →
      bindOption (·.mapM Operand.stored) bound = .ok early) ∧
    ((∃ bound, bindOption (·.mapM (Operand.bind parameters)) s.filter = .ok bound) ↔
      ∀ operand ∈ s.operands, operand.IsSupplied parameters) := by
  unfold operands
  cases hfilter : s.filter with
  | none =>
    rw [hfilter] at h
    cases h
    refine ⟨fun _ hbound ↦ ?_, fun _ ↦ by simp, fun _ ↦ ⟨none, rfl⟩⟩
    cases hbound
    rfl
  | some filter =>
    rw [hfilter] at h
    obtain ⟨inlined, hinlined, rfl⟩ := Outcome.map_eq_ok.1 h
    have heach : ∀ operand ∈ filter.operands,
        ((∃ value, operand.bind parameters = .ok value) ↔ operand.IsSupplied parameters) := by
      intro operand hmem
      obtain ⟨operand', hoperand⟩ := (Filter.exists_mapM filter).1 ⟨inlined, hinlined⟩ operand hmem
      exact (Operand.inlined_ok hoperand).2
    have hfilter : (∃ bound, filter.mapM (Operand.bind parameters) = .ok bound) ↔
        ∀ operand ∈ filter.operands, operand.IsSupplied parameters :=
      (Filter.exists_mapM filter).trans (forall₂_congr heach)
    constructor
    · intro bound hbound
      obtain ⟨condition, hcondition, rfl⟩ := Outcome.map_eq_ok.1 hbound
      have hstored : condition.mapM Operand.stored = .ok inlined :=
        Filter.mapM_mapM
          (fun operand value operand' hvalue hoperand ↦
            congrArg Except.ok ((Operand.inlined_ok hoperand).1 value hvalue).symm)
          filter hcondition hinlined
      rw [bindOption, hstored]
      rfl
    · rw [← hfilter]
      constructor
      · rintro ⟨_, hbound⟩
        obtain ⟨bound, hbound, -⟩ := Outcome.map_eq_ok.1 hbound
        exact ⟨bound, hbound⟩
      · rintro ⟨bound, hbound⟩
        refine ⟨some bound, ?_⟩
        rw [bindOption, hbound]
        rfl

/-- A query with parameters and the query with their values as constants in their place ask for the
same: whatever the parameters are bound to is the filter with the constants.  They can be bound
exactly if every parameter in the filter has a value, and none in place of a list has null. -/
theorem Model.plan_inlined {model : Model} {fallback : Bool} {name x : String} {body : Expression}
    {parameters : Parameters} {late early : Plan}
    (hlate : model.plan fallback (.call .filter [.entitySet name, .lambda x body]) = .ok late)
    (hearly : model.plan fallback
      (.call .filter [.entitySet name, .lambda x (body.inlined parameters)]) = .ok early) :
    (∀ bound, Selection.bindOption (·.mapM (Operand.bind parameters)) late.selection.filter =
        .ok bound →
      Selection.bindOption (·.mapM Operand.stored) bound = .ok early.selection.filter) ∧
    ((∃ bound, Selection.bindOption (·.mapM (Operand.bind parameters)) late.selection.filter =
        .ok bound) ↔
      ∀ operand ∈ late.selection.operands, operand.IsSupplied parameters) := by
  obtain ⟨t, s, a, ht, hs, ha, rfl⟩ := Model.plan_filter_ok hlate
  obtain ⟨t', s', a', ht', hs', ha', rfl⟩ := Model.plan_filter_ok hearly
  cases ht.symm.trans ht'
  cases hs.symm.trans hs'
  have hinlined := PartialPlan.addPredicate_inlined (s := ⟨s, none⟩)
    (EntityType.selection_inlined hs) (Scope.predicate_inlined body ha ha')
  rw [← PartialPlan.finish_filter _ .sequence, ← PartialPlan.finish_filter _ .sequence] at hinlined
  exact Selection.bind_inlined hinlined

/-! ## Books by names that are given later -/

namespace Books

/-- The author comes before a name and is as alive as is asked for, is one of some authors, or the
book has a tag. -/
def sought : Expression :=
  let writer := Expression.member (.parameter "b") "Author"
  .binary .orElse
    (.binary .andAlso (.binary .greaterThan (.queryParameter "last") (.member writer "Name"))
      (.not (.binary .equal (.member writer "Alive") (.queryParameter "dead"))))
    (.binary .orElse (.call .contains [.queryParameter "names", .member writer "Name"])
      (.call .contains [.member (.parameter "b") "Tags", .queryParameter "tag"]))

def search (body : Expression) : Expression :=
  .call .filter [.entitySet "Book", .lambda "b" body]

/-- The author is one of some. -/
def listed : Expression :=
  .call .contains [.queryParameter "names", .member (.member (.parameter "b") "Author") "Name"]

end Books

theorem Model.plan_inlined_books :
    let parameters : Parameters := [("last", .string "M"), ("dead", .null),
      ("names", .collection .array [.string "Ann", .null]), ("tag", .string "sea")]
    ∃ late early bound,
      Model.plan ⟨[Books.book, Books.person]⟩ false (Books.search Books.sought) = .ok late ∧
      Model.plan ⟨[Books.book, Books.person]⟩ false
        (Books.search (Books.sought.inlined parameters)) = .ok early ∧
      Selection.bindOption (·.mapM (Operand.bind parameters)) late.selection.filter = .ok bound ∧
      Selection.bindOption (·.mapM Operand.stored) bound = .ok early.selection.filter := by
  intro parameters
  obtain ⟨late, hlate⟩ : ∃ late,
      Model.plan ⟨[Books.book, Books.person]⟩ false (Books.search Books.sought) = .ok late :=
    ⟨_, rfl⟩
  obtain ⟨early, hearly⟩ : ∃ early, Model.plan ⟨[Books.book, Books.person]⟩ false
      (Books.search (Books.sought.inlined parameters)) = .ok early := ⟨_, rfl⟩
  obtain ⟨bound, hbound⟩ : ∃ bound, Selection.bindOption (·.mapM (Operand.bind parameters))
      late.selection.filter = .ok bound := by
    cases hlate
    exact ⟨_, rfl⟩
  exact ⟨late, early, bound, hlate, hearly, hbound,
    (Model.plan_inlined hlate hearly).1 bound hbound⟩

/-- A list that is null can be asked for as a constant, but no parameter can be bound to it. -/
theorem Model.plan_rejects_null_list :
    let parameters : Parameters := [("names", .null)]
    ∃ late early,
      Model.plan ⟨[Books.book, Books.person]⟩ false (Books.search Books.listed) = .ok late ∧
      Model.plan ⟨[Books.book, Books.person]⟩ false
        (Books.search (Books.listed.inlined parameters)) = .ok early ∧
      Selection.bindOption (·.mapM (Operand.bind parameters)) late.selection.filter =
        .error (.conversion "Name" (.notAList "null")) :=
  ⟨_, _, rfl, rfl, rfl⟩

end DocMapping
