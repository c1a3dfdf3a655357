import DocMapping.Proofs.Planning.Agreement
import DocMapping.Proofs.Planning.Comparisons

/-!
# Tests of Members

The conditions that are planned as a test of one field: comparisons of members with constants and
with null, and searches in texts, in collections and in lists of constants.
-/

namespace DocMapping

/-! ## Plans and values of tests -/

theorem Property.operand_constant {p : Property} (shape : OperandShape) {value : Value}
    {stored : Bson} (hvalue : value ≠ .null) (h : p.encodeOperand shape value = .ok stored)
    (whole : Expression) :
    p.operand shape whole (.constant value) = .ok (.constant stored) := by
  cases value with
  | null => exact absurd rfl hvalue
  | _ => exact congrArg (Except.map Operand.constant) h

theorem Scope.resolve_constant (s : Scope) (value : Value) :
    s.resolve (.constant value) = .ok none := by
  rw [resolve] <;> simp

theorem Scope.comparison_left {s : Scope} {left right : Expression} {target : Target}
    (hleft : s.resolve left = .ok (some target)) (hright : s.resolve right = .ok none)
    (direct flipped : FieldOperator) (whole : Expression) :
    s.comparison direct flipped whole left right = compareTarget direct whole right target := by
  rw [comparison, hleft, hright]
  rfl

theorem Scope.comparison_right {s : Scope} {left right : Expression} {target : Target}
    (hleft : s.resolve left = .ok none) (hright : s.resolve right = .ok (some target))
    (direct flipped : FieldOperator) (whole : Expression) :
    s.comparison direct flipped whole left right = compareTarget flipped whole left target := by
  rw [comparison, hleft, hright]
  rfl

theorem Expression.evaluate_constant (parameters : Parameters) (x : String)
    (argument value : Value) : (constant value).evaluate parameters x argument = .ok value := by
  rw [evaluate]

theorem Scope.predicate_comparison (s : Scope) {operator : BinaryOperator}
    {direct flipped : FieldOperator}
    (hdirect : operator.fieldOperator? = some direct)
    (hflipped : operator.flipped.fieldOperator? = some flipped) (left right : Expression) :
    s.predicate (.binary operator left right) =
      s.comparison direct flipped (.binary operator left right) left right := by
  rw [predicate, hdirect, hflipped]
  all_goals
    rintro rfl
    cases hdirect

theorem Expression.evaluate_comparison {parameters : Parameters} {x : String} {argument a b : Value}
    {operator : BinaryOperator} (h : operator.isComparison = true) {left right : Expression}
    (hleft : left.evaluate parameters x argument = .ok a)
    (hright : right.evaluate parameters x argument = .ok b) :
    (binary operator left right).evaluate parameters x argument =
      (binary operator left right).binaryOf operator a b := by
  rw [evaluate, hleft, hright]
  · rfl
  all_goals
    rintro rfl
    cases h

theorem Scope.predicate_call {s : Scope} {method : Method}
    (hmethod : method = .startsWith ∨ method = .endsWith ∨ method = .contains)
    (receiver argument : Expression) :
    s.predicate (.call method [receiver, argument]) =
      s.methodTest method (.call method [receiver, argument]) receiver argument := by
  rw [predicate, callTest]
  exact if_pos hmethod

/-- A comparison with null, on either side, and the test that it is planned as. -/
theorem BinaryOperator.nullTest {operator : BinaryOperator}
    (hoperator : operator = .equal ∨ operator = .notEqual) {target : Target}
    (htarget : ∀ path p, target ≠ .property path p) {value : Value} {stored : Bson}
    (hnull : stored.matchesValue .null = value.structuralEq .null) (whole : Expression) :
    ∃ test : FieldOperator,
      (operator.fieldOperator? = some test ∧ operator.flipped.fieldOperator? = some test) ∧
      operator.isComparison = true ∧ test.Decides (some stored) .null ∧
      Scope.compareTarget test whole (.constant .null) target =
        .ok (.test target.path test (.constant .null)) ∧
      whole.binaryOf operator value .null = .ok (.bool (test.holds (some stored) .null)) ∧
      whole.binaryOf operator .null value = .ok (.bool (test.holds (some stored) .null)) := by
  have hcomm : value.structuralEq .null = Value.null.structuralEq value := by
    cases value <;> rfl
  have hplan (test : FieldOperator) (htest : test = .eq ∨ test = .ne) :
      Scope.compareTarget test whole (.constant .null) target =
        .ok (.test target.path test (.constant .null)) := by
    cases target with
    | property path p => exact absurd rfl (htarget path p)
    | entity | ownedCollection => rcases htest with rfl | rfl <;> rfl
  rcases hoperator with rfl | rfl
  · refine ⟨.eq, ⟨rfl, rfl⟩, rfl, .of_unordered rfl, hplan .eq (.inl rfl), ?_, ?_⟩
    · rw [Expression.binaryOf, ← hnull]
      rfl
    · rw [Expression.binaryOf, ← hcomm, ← hnull]
      rfl
  · refine ⟨.ne, ⟨rfl, rfl⟩, rfl, .of_unordered rfl, hplan .ne (.inr rfl), ?_, ?_⟩
    · rw [Expression.binaryOf, ← hnull]
      rfl
    · rw [Expression.binaryOf, ← hcomm, ← hnull]
      rfl

theorem Expression.evaluate_call {parameters : Parameters} {x : String} {argument a b : Value}
    {receiver other : Expression} (hreceiver : receiver.evaluate parameters x argument = .ok a)
    (hother : other.evaluate parameters x argument = .ok b) (method : Method) :
    (call method [receiver, other]).evaluate parameters x argument =
      (call method [receiver, other]).callOf method [a, b] := by
  rw [evaluate, evaluateList, hreceiver, evaluateList, hother, evaluateList]
  rfl

/-! ## Properties -/

section

variable {x : String} {t : EntityType} {e : Entity} {document : Document} (hwell : t.WellFormed)
  (hdocument : t.encode e = .ok document) {m : Expression} {p : Property} {value : Value}

include hwell hdocument

/-- A scalar property and the constant beside it, both in their stored form. -/
theorem ReadsProperty.scalar (h : ReadsProperty x t e m p value) {kind : ScalarKind}
    (hkind : p.kind = .scalar kind) {constant : Value} {operand : Bson}
    (hconstant : IsNaturalForm kind constant operand) (parameters : Parameters) :
    ∃ path stored, (⟨x, t⟩ : Scope).resolve m = .ok (some (.property path p)) ∧
      m.evaluate parameters x e.toValue = .ok value ∧
      document.resolve (Text.dotted path) = some stored ∧ IsNaturalForm kind value stored ∧
      ∀ whole, p.operand .scalar whole (.constant constant) = .ok (.constant operand) := by
  obtain ⟨path, stored, hresolve, hevaluate, hencode, hfield⟩ :=
    h.resolve hwell hdocument parameters
  have hform := Property.isNaturalForm_of_encode hkind h.natural.1 hconstant h.natural.2 hencode
  have hoperand := Property.encode_natural hkind h.natural.1 hconstant
  exact ⟨path, stored, hresolve, hevaluate, hfield, hform,
    Property.operand_constant .scalar hconstant.ne_null hoperand⟩

theorem ReadsProperty.agrees_flag (h : ReadsProperty x t e m p value)
    (hkind : p.kind = .scalar .bool) (parameters : Parameters) :
    Agrees ⟨x, t⟩ parameters e document m := by
  obtain ⟨path, stored, hresolve, hevaluate, hfield, hform, -⟩ :=
    h.scalar hwell hdocument hkind (.bool true) parameters
  refine .test .eq (.boolean true) (.of_unordered rfl) hfield ?_ ?_
  · have hflag : p.isFlag = true := by
      unfold Property.isFlag Property.isCollection Property.scalarKind
      rw [hkind]
      rfl
    have hmember : (⟨x, t⟩ : Scope).predicate m = (⟨x, t⟩ : Scope).memberTest m := by
      cases h
      rw [Scope.predicate]
    rw [hmember, Scope.memberTest, hresolve]
    change (if p.isFlag then _ else _) = _
    rw [hflag, if_pos rfl, Property.encode_natural hkind h.natural.1 (.bool true)]
    rfl
  · rw [hevaluate]
    cases hform with
    | bool flag => cases flag <;> rfl

variable {operator : BinaryOperator}

theorem ReadsProperty.agrees_compareLeft (h : ReadsProperty x t e m p value) {kind : ScalarKind}
    (hkind : p.kind = .scalar kind) {constant : Value} (hcompares : Compares operator kind constant)
    (parameters : Parameters) :
    Agrees ⟨x, t⟩ parameters e document (.binary operator m (.constant constant)) := by
  obtain ⟨operand, hconstant⟩ := hcompares.naturalForm
  obtain ⟨path, stored, hresolve, hevaluate, hfield, hform, hoperand⟩ :=
    h.scalar hwell hdocument hkind hconstant parameters
  obtain ⟨test, htest, hdecides, hvalue⟩ := hcompares.binaryOf_eq hform hconstant
    (.binary operator m (.constant constant))
  obtain ⟨flipped, hflipped, -⟩ := hcompares.flipped.binaryOf_eq hform hconstant m
  refine .test test operand hdecides hfield ?_ ?_
  · rw [Scope.predicate_comparison _ htest hflipped,
      Scope.comparison_left hresolve (Scope.resolve_constant _ _), Scope.compareTarget, hoperand]
    rfl
  · rw [Expression.evaluate_comparison hcompares.isComparison hevaluate
      (Expression.evaluate_constant _ _ _ _), hvalue]

theorem ReadsProperty.agrees_compareRight (h : ReadsProperty x t e m p value) {kind : ScalarKind}
    (hkind : p.kind = .scalar kind) {constant : Value} (hcompares : Compares operator kind constant)
    (parameters : Parameters) :
    Agrees ⟨x, t⟩ parameters e document (.binary operator (.constant constant) m) := by
  obtain ⟨operand, hconstant⟩ := hcompares.naturalForm
  obtain ⟨path, stored, hresolve, hevaluate, hfield, hform, hoperand⟩ :=
    h.scalar hwell hdocument hkind hconstant parameters
  obtain ⟨direct, hdirect, -⟩ := hcompares.binaryOf_eq hform hconstant m
  obtain ⟨test, htest, hdecides, hvalue⟩ := hcompares.flipped.binaryOf_eq hform hconstant
    (.binary operator (.constant constant) m)
  refine .test test operand hdecides hfield ?_ ?_
  · rw [Scope.predicate_comparison _ hdirect htest,
      Scope.comparison_right (Scope.resolve_constant _ _) hresolve, Scope.compareTarget, hoperand]
    rfl
  · rw [Expression.evaluate_comparison hcompares.isComparison
      (Expression.evaluate_constant _ _ _ _) hevaluate, hcompares.binaryOf_flipped hform hconstant,
      hvalue]

theorem ReadsNavigation.agrees_nullLeft (h : ReadsNavigation x t e m value)
    (hoperator : operator = .equal ∨ operator = .notEqual) (parameters : Parameters) :
    Agrees ⟨x, t⟩ parameters e document (.binary operator m (.constant .null)) := by
  obtain ⟨target, stored, hresolve, htarget, hevaluate, hfield, hnull⟩ :=
    h.resolve hwell hdocument parameters
  have hconstant := Expression.evaluate_constant parameters x e.toValue .null
  obtain ⟨test, htest, hcomparison, hdecides, hplan, hbinary, -⟩ :=
    BinaryOperator.nullTest hoperator htarget hnull (.binary operator m (.constant .null))
  refine .test test .null hdecides hfield ?_ ?_
  · rw [Scope.predicate_comparison _ htest.1 htest.2,
      Scope.comparison_left hresolve (Scope.resolve_constant _ _), hplan]
  · rw [Expression.evaluate_comparison hcomparison hevaluate hconstant, hbinary]

theorem ReadsNavigation.agrees_nullRight (h : ReadsNavigation x t e m value)
    (hoperator : operator = .equal ∨ operator = .notEqual) (parameters : Parameters) :
    Agrees ⟨x, t⟩ parameters e document (.binary operator (.constant .null) m) := by
  obtain ⟨target, stored, hresolve, htarget, hevaluate, hfield, hnull⟩ :=
    h.resolve hwell hdocument parameters
  have hconstant := Expression.evaluate_constant parameters x e.toValue .null
  obtain ⟨test, htest, hcomparison, hdecides, hplan, -, hbinary⟩ :=
    BinaryOperator.nullTest hoperator htarget hnull (.binary operator (.constant .null) m)
  refine .test test .null hdecides hfield ?_ ?_
  · rw [Scope.predicate_comparison _ htest.1 htest.2,
      Scope.comparison_right (Scope.resolve_constant _ _) hresolve, hplan]
  · rw [Expression.evaluate_comparison hcomparison hconstant hevaluate, hbinary]

theorem ReadsProperty.agrees_text (h : ReadsProperty x t e m p value)
    (hkind : p.kind = .scalar .string) {method : Method}
    (hmethod : method = .startsWith ∨ method = .endsWith ∨ method = .contains) (part : String)
    (parameters : Parameters) :
    Agrees ⟨x, t⟩ parameters e document (.call method [m, .constant (.string part)]) := by
  obtain ⟨path, stored, hresolve, hevaluate, hfield, hform, hoperand⟩ :=
    h.scalar hwell hdocument hkind (.string part) parameters
  have hcall := Expression.evaluate_call hevaluate
    (Expression.evaluate_constant parameters x e.toValue (.string part)) method
  have hcollection : p.isCollection = false := by
    unfold Property.isCollection
    rw [hkind]
    rfl
  have hplain : p.isPlainText = true := by
    unfold Property.isPlainText Property.scalarKind
    rw [hcollection, hkind, h.natural.1]
    rfl
  refine .test (Scope.textOperator method) (.string part) ?_ hfield ?_ ?_
  · rcases hmethod with rfl | rfl | rfl <;> exact .of_unordered rfl
  · rw [Scope.predicate_call hmethod, Scope.methodTest, hresolve]
    change (if p.isCollection && method == .contains then _ else if p.isPlainText then _ else _) = _
    rw [hcollection, hplain, Bool.false_and, if_neg (by simp), if_pos rfl, hoperand]
    rfl
  · rw [hcall]
    cases hform with
    | string text => rcases hmethod with rfl | rfl | rfl <;> rfl

omit hwell hdocument in
/-- The stored items of a collection of texts equal a text where the items themselves do. -/
theorem ReadsProperty.any_matchesValue (h : ReadsProperty x t e m p value) {container : Container}
    {nullable : Bool} (hkind : p.kind = .collection container .string nullable) {stored : Bson}
    (hencode : p.encode value = .ok stored) :
    ∃ held items storedItems, value = .collection held items ∧ stored = .array storedItems ∧
      ∀ text, storedItems.any (·.matchesValue (.string text)) =
        items.any (·.structuralEq (.string text)) := by
  obtain ⟨hnatural, hvalue⟩ := h.natural
  have hscalarKind : p.scalarKind = .string := congrArg PropertyKind.scalarKind hkind
  have hstored := Outcome.mapError_eq_ok.1 hencode
  unfold Property.encodeValue at hstored
  rw [hkind] at hstored
  cases value with
  | null => exact absurd rfl hvalue
  | collection held items =>
    obtain ⟨storedItems, hitems, rfl⟩ := Outcome.map_eq_ok.1 hstored
    refine ⟨held, items, storedItems, rfl, rfl, fun text ↦ ?_⟩
    refine Outcome.any_of_mapM hitems fun a b hab ↦ ?_
    exact Property.matchesValue_of_encodeItem hscalarKind hnatural hab text
  | _ => cases hstored

theorem ReadsProperty.agrees_element (h : ReadsProperty x t e m p value) {container : Container}
    {nullable : Bool} (hkind : p.kind = .collection container .string nullable) (text : String)
    (parameters : Parameters) :
    Agrees ⟨x, t⟩ parameters e document (.call .contains [m, .constant (.string text)]) := by
  obtain ⟨path, stored, hresolve, hevaluate, hencode, hfield⟩ :=
    h.resolve hwell hdocument parameters
  obtain ⟨held, items, storedItems, rfl, rfl, hany⟩ := h.any_matchesValue hkind hencode
  have hcall := Expression.evaluate_call hevaluate
    (Expression.evaluate_constant parameters x e.toValue (.string text)) .contains
  have hoperand : p.operand .element (.call .contains [m, .constant (.string text)])
      (.constant (.string text)) = .ok (.constant (.string text)) := by
    have hscalarKind : p.scalarKind = .string := congrArg PropertyKind.scalarKind hkind
    exact Property.operand_constant .element (by simp)
      (Property.encodeElement_text hscalarKind h.natural.1 text) _
  have hcollection : p.isCollection = true := by
    unfold Property.isCollection
    rw [hkind]
    rfl
  refine .test .containsElement (.string text) (.of_unordered rfl) hfield ?_ ?_
  · rw [Scope.predicate_call (.inr (.inr rfl)), Scope.methodTest, hresolve]
    change (if p.isCollection && Method.contains == .contains then _ else _) = _
    rw [hcollection, if_pos (by decide), hoperand]
    rfl
  · rw [hcall]
    change Except.ok (Value.bool (items.any (·.structuralEq (.string text)))) = _
    rw [← hany text]
    rfl

theorem ReadsProperty.agrees_among (h : ReadsProperty x t e m p value)
    (hkind : p.kind = .scalar .string) (container : Container) (texts : List String)
    (parameters : Parameters) :
    Agrees ⟨x, t⟩ parameters e document
      (.call .contains [.constant (.collection container (texts.map .string)), m]) := by
  obtain ⟨path, stored, hresolve, hevaluate, hfield, hform, -⟩ :=
    h.scalar hwell hdocument hkind (.string "") parameters
  have hcall := Expression.evaluate_call
    (Expression.evaluate_constant parameters x e.toValue
      (.collection container (texts.map .string))) hevaluate .contains
  have hoperand (whole : Expression) :
      p.operand .list whole (.constant (.collection container (texts.map .string))) =
        .ok (.constant (.array (texts.map .string))) := by
    have hscalarKind : p.scalarKind = .string := congrArg PropertyKind.scalarKind hkind
    refine Property.operand_constant .list (by simp) ?_ whole
    change ((texts.map Value.string).mapM p.encodeElement).map Bson.array = _
    rw [Property.mapM_encodeElement_text hscalarKind h.natural.1]
    rfl
  have hcollection : p.isCollection = false := by
    unfold Property.isCollection
    rw [hkind]
    rfl
  refine .test .anyOf (.array (texts.map .string)) (.of_unordered rfl) hfield ?_ ?_
  · rw [Scope.predicate_call (.inr (.inr rfl)), Scope.methodTest, Scope.resolve_constant]
    change Scope.listTest _ _ _ _ = _
    rw [Scope.listTest, hresolve]
    change (if p.isCollection then _ else _) = _
    rw [hcollection, if_neg (by simp), hoperand]
    rfl
  · have hequal : (texts.map Value.string).any (·.structuralEq value) =
        (texts.map Bson.string).any fun candidate ↦
          stored.matchesValue candidate || stored.hasElement candidate := by
      rw [List.any_map, List.any_map]
      cases hform with
      | string held =>
        refine List.any_congr rfl fun text ↦ ?_
        change (Value.string text).structuralEq (.string held) =
          ((Bson.string held).matchesValue (.string text) || false)
        rw [Bool.or_false, (IsNaturalForm.string held).matchesValue_eq (.string text)]
        exact (IsNaturalForm.string text).structuralEq_comm (.string held)
    rw [hcall]
    change Except.ok (Value.bool ((texts.map Value.string).any (·.structuralEq value))) = _
    rw [hequal]
    rfl

end

end DocMapping
