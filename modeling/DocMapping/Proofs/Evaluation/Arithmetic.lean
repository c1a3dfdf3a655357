import DocMapping.Evaluation
import DocMapping.Proofs.Outcome
import Mathlib.Data.Rat.Floor

/-!
# Arithmetic of Whole Numbers

An expression that is made of whole numbers of 32 and of 64 bits by the four operations denotes a
number without any width, each quotient being the rational one cut toward zero.  Its value is that
number, in 32 bits if all of its leaves have 32 bits.  It fails only where the number of one of its
nodes leaves the width of this node, or a divisor is zero: nothing wraps around on the way.
-/

namespace DocMapping

/-! ## Numbers without a width -/

/-- A rational number without its fraction. -/
def truncation (q : ℚ) : ℤ := if 0 ≤ q then ⌊q⌋ else ⌈q⌉

theorem truncation_neg (q : ℚ) : truncation (-q) = -truncation q := by
  unfold truncation
  rcases lt_trichotomy q 0 with hneg | rfl | hpos
  · rw [if_pos (neg_nonneg.2 hneg.le), if_neg (not_le.2 hneg), Int.floor_neg]
  · simp
  · rw [if_neg (not_le.2 (neg_neg_of_pos hpos)), if_pos hpos.le, Int.ceil_neg]

theorem truncation_natCast_div (a b : ℕ) : truncation ((a : ℚ) / (b : ℚ)) = (a : ℤ) / (b : ℤ) := by
  have hfloor := Rat.floor_intCast_div_natCast (a : ℤ) b
  rw [Int.cast_natCast] at hfloor
  unfold truncation
  rw [if_pos (by positivity), hfloor]

/-- The division of whole numbers that rounds toward zero cuts their quotient. -/
theorem tdiv_eq_truncation (x y : ℤ) : x.tdiv y = truncation ((x : ℚ) / (y : ℚ)) := by
  have hnat (a b : ℕ) : (a : ℤ).tdiv (b : ℤ) = truncation ((a : ℚ) / (b : ℚ)) := by
    rw [truncation_natCast_div]
    exact Int.tdiv_eq_ediv_of_nonneg (Int.natCast_nonneg a)
  obtain ⟨a, rfl | rfl⟩ := x.eq_nat_or_neg <;> obtain ⟨b, rfl | rfl⟩ := y.eq_nat_or_neg
  · exact hnat a b
  · rw [Int.tdiv_neg, hnat, ← truncation_neg, Int.cast_neg, Int.cast_natCast, div_neg]
    rfl
  · rw [Int.neg_tdiv, hnat, ← truncation_neg, Int.cast_neg, Int.cast_natCast, neg_div]
    rfl
  · rw [Int.neg_tdiv, Int.tdiv_neg, neg_neg, hnat, Int.cast_neg, Int.cast_neg, Int.cast_natCast,
      Int.cast_natCast, neg_div_neg_eq]

namespace ArithmeticOperator

/-- The operator as it is written between two operands. -/
def binary : ArithmeticOperator → BinaryOperator
  | add => .add
  | subtract => .subtract
  | multiply => .multiply
  | divide => .divide

/-- The result of the operation on two numbers; by zero nothing is divided. -/
def Gives (operator : ArithmeticOperator) (x y z : ℤ) : Prop :=
  match operator with
  | add => z = x + y
  | subtract => z = x - y
  | multiply => z = x * y
  | divide => y ≠ 0 ∧ z = truncation ((x : ℚ) / (y : ℚ))

theorem binary_inj {operator other : ArithmeticOperator} (h : operator.binary = other.binary) :
    operator = other := by
  cases operator <;> cases other <;> first | rfl | cases h

variable {operator : ArithmeticOperator} {x y z : ℤ}

theorem Gives.unique {other : ℤ} (h : operator.Gives x y z) (hother : operator.Gives x y other) :
    z = other := by
  cases operator with
  | divide => exact h.2.trans hother.2.symm
  | _ => exact h.trans hother.symm

theorem wholeResult?_eq_some :
    Value.wholeResult? operator x y = some z ↔ operator.Gives x y z := by
  cases operator with
  | divide =>
    change (if y = 0 then none else some (x.tdiv y)) = some z ↔ _ ∧ _
    rw [tdiv_eq_truncation]
    split
    · next hzero => simp [hzero]
    · next hne => simp [hne, eq_comm]
  | _ => simp [Value.wholeResult?, Gives, eq_comm]

/-- Only a division by zero has no result. -/
theorem wholeResult?_eq_none :
    Value.wholeResult? operator x y = none ↔ operator = divide ∧ y = 0 := by
  cases operator <;> simp [Value.wholeResult?]

end ArithmeticOperator

/-! ## Numbers of a width -/

/-- The widths of whole numbers. -/
inductive Width where
  /-- 32 bits. -/
  | narrow
  /-- 64 bits. -/
  | wide
deriving DecidableEq

namespace Width

def bits : Width → Nat
  | narrow => 32
  | wide => 64

/-- The numbers in two's complement. -/
def Holds (w : Width) (x : ℤ) : Prop := -2 ^ (w.bits - 1) ≤ x ∧ x < 2 ^ (w.bits - 1)

/-- The width of the result of an operation. -/
def join : Width → Width → Width
  | narrow, narrow => narrow
  | _, _ => wide

/-- A number that has the width as a value. -/
def value (w : Width) (x : ℤ) : Value :=
  match w with
  | narrow => .int32 (Int32.ofInt x)
  | wide => .int64 (Int64.ofInt x)

theorem integer?_value {w : Width} {x : ℤ} (h : w.Holds x) : (w.value x).integer? = some x := by
  cases w with
  | narrow => exact congrArg some (Int32.toInt_ofInt_of_le h.1 h.2)
  | wide => exact congrArg some (Int64.toInt_ofInt_of_le h.1 h.2)

end Width

namespace Value

/-- The width and the number of a value of 32 or 64 bits. -/
def whole? : Value → Option (Width × ℤ)
  | int32 value => some (.narrow, value.toInt)
  | int64 value => some (.wide, value.toInt)
  | _ => none

variable {value a b : Value} {v w : Width} {x y : ℤ} {operator : ArithmeticOperator}

theorem whole?_eq_some : value.whole? = some (w, x) ↔ w.Holds x ∧ value = w.value x := by
  constructor
  · intro h
    cases value <;> cases h
    · next value => exact ⟨⟨value.le_toInt, value.toInt_lt⟩, by simp [Width.value]⟩
    · next value => exact ⟨⟨value.le_toInt, value.toInt_lt⟩, by simp [Width.value]⟩
  · rintro ⟨hholds, rfl⟩
    have hnumber := Width.integer?_value hholds
    cases w with
    | narrow => exact congrArg (Option.map (Width.narrow, ·)) hnumber
    | wide => exact congrArg (Option.map (Width.wide, ·)) hnumber

/-- Whole numbers meet in the wider of their widths. -/
theorem arithmetic_whole (ha : a.whole? = some (v, x)) (hb : b.whole? = some (w, y)) :
    a.arithmetic operator b =
      (within (v.join w).bits (wholeResult? operator x y)).map (v.join w).value := by
  cases a <;> cases ha <;> cases b <;> cases hb <;> cases operator <;> rfl

/-- The result of an operation is the exact one, or there is none. -/
theorem arithmetic_cases (operator : ArithmeticOperator) (ha : a.whole? = some (v, x))
    (hb : b.whole? = some (w, y)) :
    (∃ z, operator.Gives x y z ∧ (v.join w).Holds z ∧
      a.arithmetic operator b = .ok ((v.join w).value z)) ∨
    ((∃ z, operator.Gives x y z ∧ ¬(v.join w).Holds z) ∨ operator = .divide ∧ y = 0) ∧
      a.arithmetic operator b = .error .overflow := by
  rw [arithmetic_whole ha hb]
  cases hresult : wholeResult? operator x y with
  | none => exact .inr ⟨.inr (ArithmeticOperator.wholeResult?_eq_none.1 hresult), rfl⟩
  | some z =>
    have hz := ArithmeticOperator.wholeResult?_eq_some.1 hresult
    unfold within
    dsimp only
    split
    · next hholds => exact .inl ⟨z, hz, hholds, rfl⟩
    · next hnot => exact .inr ⟨.inl ⟨z, hz, hnot⟩, rfl⟩

end Value

/-! ## Trees of operations -/

namespace Expression

/-- Constants, parameters and members. -/
def IsLeaf : Expression → Prop
  | constant _ | parameter _ | queryParameter _ | member _ _ => True
  | _ => False

/-- The leaves of a tree of operations. -/
def operands : Expression → List Expression
  | binary _ left right => operands left ++ operands right
  | e => [e]

/-- A tree of operations and all trees in it. -/
def nodes : Expression → List Expression
  | binary operator left right => binary operator left right :: (nodes left ++ nodes right)
  | e => [e]

theorem IsLeaf.operands_eq {e : Expression} (h : e.IsLeaf) : e.operands = [e] := by
  cases e <;> first | rfl | cases h

theorem IsLeaf.nodes_eq {e : Expression} (h : e.IsLeaf) : e.nodes = [e] := by
  cases e <;> first | rfl | cases h

section

variable (parameters : Parameters) (name : String) (argument : Value)

/-- The expression is made of whole numbers of 32 and of 64 bits by the four operations. -/
inductive IsArithmetic : Expression → Prop
  | leaf {e : Expression} {value : Value} (hleaf : e.IsLeaf)
      (hvalue : e.evaluate parameters name argument = .ok value)
      (hwhole : value.whole?.isSome = true) : IsArithmetic e
  | operation (operator : ArithmeticOperator) {left right : Expression}
      (hleft : IsArithmetic left) (hright : IsArithmetic right) :
      IsArithmetic (binary operator.binary left right)

/-- The number that a tree of operations denotes, whatever its width. -/
inductive Denotes : Expression → ℤ → Prop
  | leaf {e : Expression} {value : Value} {w : Width} {x : ℤ} (hleaf : e.IsLeaf)
      (hvalue : e.evaluate parameters name argument = .ok value)
      (hnumber : value.whole? = some (w, x)) : Denotes e x
  | operation {operator : ArithmeticOperator} {left right : Expression} {x y z : ℤ}
      (hleft : Denotes left x) (hright : Denotes right y) (hgives : operator.Gives x y z) :
      Denotes (binary operator.binary left right) z

def isNarrow (e : Expression) : Bool :=
  match e.evaluate parameters name argument with
  | .ok (.int32 _) => true
  | _ => false

/-- The width of a tree of operations: 32 bits if all of its leaves have 32 bits. -/
def width (e : Expression) : Width :=
  if e.operands.all (isNarrow parameters name argument) then .narrow else .wide

/-- The number of a node does not have its width, or its divisor is zero. -/
def Overflows (e : Expression) : Prop :=
  (∃ x, Denotes parameters name argument e x ∧ ¬(width parameters name argument e).Holds x) ∨
    ∃ left right, e = binary .divide left right ∧ Denotes parameters name argument right 0

end

variable {parameters : Parameters} {name : String} {argument : Value} {e left right : Expression}
  {operator : ArithmeticOperator} {value : Value} {w : Width} {x y : ℤ}

theorem evaluate_operation (operator : ArithmeticOperator) (left right : Expression) :
    (binary operator.binary left right).evaluate parameters name argument = (do
      let a ← left.evaluate parameters name argument
      let b ← right.evaluate parameters name argument
      arithmeticOf (binary operator.binary left right) operator a b) := by
  cases operator <;> simp only [ArithmeticOperator.binary, evaluate] <;> rfl

theorem width_leaf (hleaf : e.IsLeaf) (hvalue : e.evaluate parameters name argument = .ok value)
    (hnumber : value.whole? = some (w, x)) : width parameters name argument e = w := by
  unfold width isNarrow
  rw [hleaf.operands_eq]
  simp only [List.all_cons, hvalue, List.all_nil, Bool.and_true]
  cases value <;> cases hnumber <;> rfl

theorem width_operation (operator : BinaryOperator) (left right : Expression) :
    width parameters name argument (binary operator left right) =
      (width parameters name argument left).join (width parameters name argument right) := by
  unfold width
  rw [operands, List.all_append]
  cases left.operands.all _ <;> cases right.operands.all _ <;> rfl

theorem denotes_operation {z : ℤ} :
    Denotes parameters name argument (binary operator.binary left right) z ↔
      ∃ x y, Denotes parameters name argument left x ∧ Denotes parameters name argument right y ∧
        operator.Gives x y z := by
  constructor
  · intro h
    generalize htree : binary operator.binary left right = tree at h
    cases h with
    | leaf hleaf => exact absurd (htree ▸ hleaf) nofun
    | operation hleft hright hgives =>
      obtain ⟨hoperator, rfl, rfl⟩ := binary.inj htree
      cases ArithmeticOperator.binary_inj hoperator
      exact ⟨_, _, hleft, hright, hgives⟩
  · rintro ⟨x, y, hleft, hright, hgives⟩
    exact .operation hleft hright hgives

/-- A tree denotes one number. -/
theorem Denotes.unique (h : Denotes parameters name argument e x)
    (hother : Denotes parameters name argument e y) : x = y := by
  induction h generalizing y with
  | leaf hleaf hvalue hnumber =>
    cases hother with
    | leaf _ hother hothers =>
      cases hvalue.symm.trans hother
      cases hnumber.symm.trans hothers
      rfl
    | operation => cases hleaf
  | operation _ _ hgives ihleft ihright =>
    obtain ⟨_, _, hfirst, hsecond, hothers⟩ := denotes_operation.1 hother
    cases ihleft hfirst
    cases ihright hsecond
    exact hgives.unique hothers

/-! ## Nodes that overflow -/

theorem not_overflows_leaf (hleaf : e.IsLeaf)
    (hvalue : e.evaluate parameters name argument = .ok value)
    (hnumber : value.whole? = some (w, x)) : ¬Overflows parameters name argument e := by
  rintro (⟨y, hy, hnot⟩ | ⟨left, right, rfl, -⟩)
  · apply hnot
    rw [hy.unique (.leaf hleaf hvalue hnumber), width_leaf hleaf hvalue hnumber]
    exact (Value.whole?_eq_some.1 hnumber).1
  · exact hleaf

theorem overflows_operation (operator : ArithmeticOperator)
    (hleft : Denotes parameters name argument left x)
    (hright : Denotes parameters name argument right y) :
    Overflows parameters name argument (binary operator.binary left right) ↔
      (∃ z, operator.Gives x y z ∧ ¬((width parameters name argument left).join
        (width parameters name argument right)).Holds z) ∨ operator = .divide ∧ y = 0 := by
  unfold Overflows
  rw [width_operation]
  apply or_congr
  · apply exists_congr
    intro z
    apply and_congr_left
    intro _
    rw [denotes_operation]
    constructor
    · rintro ⟨_, _, hfirst, hsecond, hgives⟩
      cases hleft.unique hfirst
      cases hright.unique hsecond
      exact hgives
    · exact fun hgives ↦ ⟨x, y, hleft, hright, hgives⟩
  · constructor
    · rintro ⟨_, _, htree, hzero⟩
      obtain ⟨hoperator, rfl, rfl⟩ := binary.inj htree
      have hdivide : operator = .divide := ArithmeticOperator.binary_inj hoperator
      exact ⟨hdivide, hright.unique hzero⟩
    · rintro ⟨rfl, rfl⟩
      exact ⟨left, right, rfl, hright⟩

/-- Every tree either has the value that it denotes, and then none of its nodes overflows, or it
fails at a node that overflows. -/
theorem IsArithmetic.outcomes (h : IsArithmetic parameters name argument e) :
    (∃ x, Denotes parameters name argument e x ∧ (width parameters name argument e).Holds x ∧
      e.evaluate parameters name argument = .ok ((width parameters name argument e).value x) ∧
      ∀ node ∈ e.nodes, ¬Overflows parameters name argument node) ∨
    ∃ node ∈ e.nodes, Overflows parameters name argument node ∧
      e.evaluate parameters name argument = .error (.operation (.overflow node.text)) := by
  induction h with
  | @leaf e value hleaf hvalue hwhole =>
    obtain ⟨⟨w, x⟩, hnumber⟩ := Option.isSome_iff_exists.1 hwhole
    have hwidth := width_leaf hleaf hvalue hnumber
    obtain ⟨hholds, hshape⟩ := Value.whole?_eq_some.1 hnumber
    refine .inl ⟨x, .leaf hleaf hvalue hnumber, hwidth ▸ hholds, ?_, ?_⟩
    · rw [hwidth, ← hshape, hvalue]
    · rw [hleaf.nodes_eq]
      exact List.forall_mem_singleton.2 (not_overflows_leaf hleaf hvalue hnumber)
  | @operation operator left right _ _ ihleft ihright =>
    rw [nodes, evaluate_operation]
    rcases ihleft with ⟨x, hx, hxHolds, hleft, hleftNodes⟩ | ⟨node, hnode, hoverflows, hfault⟩
    swap
    · refine .inr ⟨node, List.mem_cons_of_mem _ (List.mem_append_left _ hnode), hoverflows, ?_⟩
      rw [hfault]
      rfl
    rcases ihright with ⟨y, hy, hyHolds, hright, hrightNodes⟩ | ⟨node, hnode, hoverflows, hfault⟩
    swap
    · refine .inr ⟨node, List.mem_cons_of_mem _ (List.mem_append_right _ hnode), hoverflows, ?_⟩
      rw [hleft, hfault]
      rfl
    have hoverflows := overflows_operation operator hx hy
    have hoperation := Value.arithmetic_cases operator
      (Value.whole?_eq_some.2 ⟨hxHolds, rfl⟩) (Value.whole?_eq_some.2 ⟨hyHolds, rfl⟩)
    rw [hleft, hright, width_operation]
    change _ ∨ ∃ node ∈ _, _ ∧ arithmeticOf _ operator _ _ = _
    rcases hoperation with ⟨z, hgives, hholds, hresult⟩ | ⟨hfault, hresult⟩
    · refine .inl ⟨z, .operation hx hy hgives, hholds, ?_, ?_⟩
      · change arithmeticOf _ operator _ _ = _
        unfold arithmeticOf
        rw [hresult]
        rfl
      · have hnode : ¬Overflows parameters name argument (binary operator.binary left right) := by
          rw [hoverflows]
          rintro (⟨other, hother, hnot⟩ | ⟨rfl, rfl⟩)
          · exact hnot (hgives.unique hother ▸ hholds)
          · exact hgives.1 rfl
        refine List.forall_mem_cons.2 ⟨hnode, fun node hmem ↦ ?_⟩
        exact (List.mem_append.1 hmem).elim (hleftNodes node) (hrightNodes node)
    · refine .inr ⟨_, List.mem_cons_self, hoverflows.2 hfault, ?_⟩
      unfold arithmeticOf
      rw [hresult]
      rfl

/-- The value of a tree of operations is the number that the tree denotes, in 32 bits if all of its
leaves have 32 bits and in 64 bits otherwise.  There is none exactly if a node overflows, and the
failure shows such a node. -/
theorem evaluate_exact (h : IsArithmetic parameters name argument e) :
    (∀ value, e.evaluate parameters name argument = .ok value →
      ∃ x, Denotes parameters name argument e x ∧
        value.whole? = some (width parameters name argument e, x)) ∧
    (∀ fault, e.evaluate parameters name argument = .error fault →
      ∃ node ∈ e.nodes, Overflows parameters name argument node ∧
        fault = .operation (.overflow node.text)) ∧
    ((∃ fault, e.evaluate parameters name argument = .error fault) ↔
      ∃ node ∈ e.nodes, Overflows parameters name argument node) := by
  rcases h.outcomes with ⟨x, hx, hholds, hvalue, hnodes⟩ | ⟨node, hnode, hoverflows, hfault⟩
  · rw [hvalue]
    refine ⟨fun value heq ↦ ?_, nofun, nofun, fun ⟨node, hnode, hoverflows⟩ ↦ ?_⟩
    · cases heq
      exact ⟨x, hx, Value.whole?_eq_some.2 ⟨hholds, rfl⟩⟩
    · exact absurd hoverflows (hnodes node hnode)
  · rw [hfault]
    refine ⟨nofun, fun fault heq ↦ ?_, fun _ ↦ ⟨node, hnode, hoverflows⟩, fun _ ↦ ⟨_, rfl⟩⟩
    cases heq
    exact ⟨node, hnode, hoverflows, rfl⟩

/-! ## The least number -/

/-- A tide whose lowest level is the least number of 32 bits. -/
def tide : Value := .entity "Tide" [("Low", .int32 (-2147483648))]

def step : Parameters := [("step", .int32 (-1))]

/-- Divides the lowest level by the step and adds a number of 64 bits. -/
def turned : Expression :=
  binary .add (binary .divide (member (parameter "p") "Low") (queryParameter "step"))
    (constant (.int64 1))

/-- The division leaves the 32 bits of its operands, although the sum has 64 bits. -/
theorem evaluate_exact_turned :
    IsArithmetic step "p" tide turned ∧
      turned.evaluate step "p" tide = .error (.operation (.overflow "(p.Low / @step)")) ∧
      ∃ node ∈ turned.nodes, Overflows step "p" tide node ∧ node.text = "(p.Low / @step)" := by
  have hlow : (member (parameter "p") "Low").evaluate step "p" tide =
      .ok (.int32 (-2147483648)) := rfl
  have hstep : (queryParameter "step").evaluate step "p" tide = .ok (.int32 (-1)) := rfl
  have hone : (constant (.int64 1)).evaluate step "p" tide = .ok (.int64 1) := rfl
  have harithmetic : IsArithmetic step "p" tide turned := by
    apply IsArithmetic.operation .add
    · apply IsArithmetic.operation .divide
      · exact .leaf trivial hlow rfl
      · exact .leaf trivial hstep rfl
    · exact .leaf trivial hone rfl
  have hfault : turned.evaluate step "p" tide =
      .error (.operation (.overflow "(p.Low / @step)")) := rfl
  obtain ⟨node, hnode, hoverflows, heq⟩ := (evaluate_exact harithmetic).2.1 _ hfault
  refine ⟨harithmetic, hfault, node, hnode, hoverflows, ?_⟩
  injection heq with hoperation
  injection hoperation with htext
  exact htext.symm

end Expression

end DocMapping
