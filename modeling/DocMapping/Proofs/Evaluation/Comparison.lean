import DocMapping.Evaluation
import DocMapping.Proofs.Number.Binary64
import DocMapping.Proofs.Number.Decimal

/-!
# Comparisons of Numbers

Numbers of different types are ordered as numbers, but are never equal.  The six comparisons of two
numbers therefore fit together as long as the order tells the numbers apart or their types are the
same; of two numbers of different types that stand at one place of the order, none is less than,
equal to or greater than the other.
-/

namespace DocMapping

/-! ## Equality and order -/

namespace Binary64

/-- Patterns that are equal as bits or as numbers are those that the order takes for one number. -/
theorem compare?_eq_iff {x y : Binary64} (hx : x.isNaN = false) :
    x.compare? y = some .eq ↔ (x == y || x.numericEq y) = true := by
  have hnumeric : x.compare? y = some .eq ↔ x.numericEq y = true := by
    unfold numericEq
    rw [beq_iff_eq]
  rw [hnumeric, Bool.or_eq_true, beq_iff_eq]
  constructor
  · exact .inr
  · rintro (rfl | h)
    · exact numericEq_iff_bits.2 ⟨hx, hx, .inr rfl⟩
    · exact h

end Binary64

namespace Value

/-- The value is a number; a double must not be a pattern that is not a number. -/
inductive IsNumber : Value → Prop
  | int32 (value : Int32) : IsNumber (int32 value)
  | int64 (value : Int64) : IsNumber (int64 value)
  | enum (value : Int64) : IsNumber (enum value)
  | decimal (value : Decimal) : IsNumber (decimal value)
  | double {value : Binary64} (h : value.isNaN = false) : IsNumber (double value)

variable {a b : Value}

theorem structuralEq_of_typeName_ne (ha : a.IsNumber) (hb : b.IsNumber)
    (h : a.typeName ≠ b.typeName) : a.structuralEq b = false := by
  cases ha <;> cases hb <;> first | exact absurd rfl h | simp [structuralEq, strictEq]

/-- Numbers of one type are equal if the order takes them for one number. -/
theorem order?_eq_iff (ha : a.IsNumber) (hb : b.IsNumber) (h : a.typeName = b.typeName) :
    a.order? b = some .eq ↔ a.structuralEq b = true := by
  cases ha with
  | int32 x =>
    cases hb with
    | int32 y =>
      change some (compare x.toInt y.toInt) = some .eq ↔ (x == y) = true
      rw [Option.some_inj, Std.compare_eq_iff_eq, Int32.toInt_inj, beq_iff_eq]
    | _ => simp [typeName] at h
  | int64 x =>
    cases hb with
    | int64 y =>
      change some (compare x.toInt y.toInt) = some .eq ↔ (x == y) = true
      rw [Option.some_inj, Std.compare_eq_iff_eq, Int64.toInt_inj, beq_iff_eq]
    | _ => simp [typeName] at h
  | enum x =>
    cases hb with
    | enum y =>
      change some (compare x.toInt y.toInt) = some .eq ↔ (x == y) = true
      rw [Option.some_inj, Std.compare_eq_iff_eq, Int64.toInt_inj, beq_iff_eq]
    | _ => simp [typeName] at h
  | decimal x =>
    cases hb with
    | decimal y =>
      change some (x.order y) = some .eq ↔ (x.order y == .eq) = true
      rw [Option.some_inj, beq_iff_eq]
    | _ => simp [typeName] at h
  | double hx =>
    cases hb with
    | double hy => exact Binary64.compare?_eq_iff hx
    | _ => simp [typeName] at h

/-- Two numbers are equal if they have one type and stand at one place of the order. -/
theorem structuralEq_iff_order {order : Ordering} (ha : a.IsNumber) (hb : b.IsNumber)
    (horder : a.order? b = some order) :
    a.structuralEq b = true ↔ order = .eq ∧ a.typeName = b.typeName := by
  by_cases htype : a.typeName = b.typeName
  · rw [← order?_eq_iff ha hb htype, horder, Option.some_inj]
    exact ⟨fun h ↦ ⟨h, htype⟩, And.left⟩
  · rw [structuralEq_of_typeName_ne ha hb htype]
    exact iff_of_false Bool.false_ne_true fun h ↦ htype h.2

end Value

/-! ## The six comparisons -/

/-- The answers of the six comparisons. -/
structure Comparisons where
  less : Bool
  lessOrEqual : Bool
  greater : Bool
  greaterOrEqual : Bool
  equal : Bool
  notEqual : Bool

namespace Comparisons

/-- Exactly one of less, equal and greater holds, and the other three follow from them. -/
structure Coherent (c : Comparisons) : Prop where
  exactlyOne : c.less = true ∧ c.equal = false ∧ c.greater = false ∨
    c.less = false ∧ c.equal = true ∧ c.greater = false ∨
    c.less = false ∧ c.equal = false ∧ c.greater = true
  lessOrEqual : c.lessOrEqual = true ↔ c.less = true ∨ c.equal = true
  greaterOrEqual : c.greaterOrEqual = true ↔ c.greater = true ∨ c.equal = true
  notEqual : c.notEqual = !c.equal

/-- The answers of a place in the order and of an equality. -/
def ofOrder (order : Ordering) (equal : Bool) : Comparisons :=
  ⟨order.isLT, order.isLE, order.isGT, order.isGE, equal, !equal⟩

/-- Comparisons fit together if the equality is that of the order. -/
theorem coherent_ofOrder {order : Ordering} {equal : Bool} :
    (ofOrder order equal).Coherent ↔ (equal = true ↔ order = .eq) := by
  constructor
  · intro h
    have hone := h.exactlyOne
    cases order <;> cases equal <;> simp_all [ofOrder]
  · intro h
    cases order <;> cases equal <;> first | exact absurd h (by decide) | constructor <;> decide

/-- The answers are those of two expressions. -/
structure Answer (c : Comparisons) (parameters : Parameters) (name : String) (argument : Value)
    (left right : Expression) : Prop where
  less : (Expression.binary .lessThan left right).evaluate parameters name argument =
    .ok (.bool c.less)
  lessOrEqual : (Expression.binary .lessThanOrEqual left right).evaluate parameters name argument =
    .ok (.bool c.lessOrEqual)
  greater : (Expression.binary .greaterThan left right).evaluate parameters name argument =
    .ok (.bool c.greater)
  greaterOrEqual :
    (Expression.binary .greaterThanOrEqual left right).evaluate parameters name argument =
      .ok (.bool c.greaterOrEqual)
  equal : (Expression.binary .equal left right).evaluate parameters name argument =
    .ok (.bool c.equal)
  notEqual : (Expression.binary .notEqual left right).evaluate parameters name argument =
    .ok (.bool c.notEqual)

variable {parameters : Parameters} {name : String} {argument : Value} {left right : Expression}
  {a b : Value}

theorem answer_ofOrder {order : Ordering}
    (hleft : left.evaluate parameters name argument = .ok a)
    (hright : right.evaluate parameters name argument = .ok b) (horder : a.order? b = some order) :
    (ofOrder order (a.structuralEq b)).Answer parameters name argument left right := by
  constructor <;> simp only [Expression.evaluate] <;> rw [hleft, hright] <;>
    simp [bind, Except.bind, Expression.binaryOf, Expression.compares, horder, ofOrder]

end Comparisons

namespace Expression

variable {parameters : Parameters} {name : String} {argument : Value} {left right : Expression}
  {a b : Value}

/-- The comparisons of two numbers that are ordered fit together exactly if numbers at one place of
the order have one type. -/
theorem comparisons_coherent (hleft : left.evaluate parameters name argument = .ok a)
    (hright : right.evaluate parameters name argument = .ok b) (ha : a.IsNumber) (hb : b.IsNumber)
    (hordered : (a.order? b).isSome = true) :
    ∃ c : Comparisons, c.Answer parameters name argument left right ∧
      (c.Coherent ↔ (a.order? b = some .eq → a.typeName = b.typeName)) := by
  obtain ⟨order, horder⟩ := Option.isSome_iff_exists.1 hordered
  refine ⟨_, Comparisons.answer_ofOrder hleft hright horder, ?_⟩
  calc
    _ ↔ (a.structuralEq b = true ↔ order = .eq) := Comparisons.coherent_ofOrder
    _ ↔ (order = .eq ∧ a.typeName = b.typeName ↔ order = .eq) := by
      rw [Value.structuralEq_iff_order ha hb horder]
    _ ↔ (order = .eq → a.typeName = b.typeName) := and_iff_left_iff_imp
    _ ↔ _ := by rw [horder, Option.some_inj]

/-! ## Numbers of several types -/

/-- A star on the equator. -/
def star : Value := .entity "Star" [("Declination", .double (.zero false))]

/-- The other zero. -/
def measured : Parameters := [("measured", .double (.zero true))]

/-- Zeros of both signs fit together. -/
theorem comparisons_coherent_star :
    (member (parameter "s") "Declination").evaluate measured "s" star =
        .ok (.double (.zero false)) ∧
      (queryParameter "measured").evaluate measured "s" star = .ok (.double (.zero true)) ∧
      (Value.double (.zero false)).IsNumber ∧ (Value.double (.zero true)).IsNumber ∧
      (Value.double (.zero false)).order? (.double (.zero true)) = some .eq ∧
      ∃ c : Comparisons, c.Answer measured "s" star (member (parameter "s") "Declination")
        (queryParameter "measured") ∧ c.Coherent := by
  have horder : (Value.double (.zero false)).order? (.double (.zero true)) = some .eq := rfl
  have hstar : (member (parameter "s") "Declination").evaluate measured "s" star =
      .ok (.double (.zero false)) := rfl
  have hmeasured : (queryParameter "measured").evaluate measured "s" star =
      .ok (.double (.zero true)) := rfl
  obtain ⟨c, hanswer, hcoherent⟩ := comparisons_coherent hstar hmeasured (.double rfl) (.double rfl)
    (Option.isSome_of_eq_some horder)
  exact ⟨hstar, hmeasured, .double rfl, .double rfl, horder, c, hanswer, hcoherent.2 fun _ ↦ rfl⟩

/-- Five of 32 bits is neither less than, equal to nor greater than five of 64 bits. -/
theorem comparisons_incoherent :
    ∃ c : Comparisons, c.Answer [] "p" .null (constant (.int32 5)) (constant (.int64 5)) ∧
      c.less = false ∧ c.equal = false ∧ c.greater = false ∧ c.lessOrEqual = true ∧
      ¬c.Coherent := by
  refine ⟨⟨false, true, false, true, false, true⟩, ⟨rfl, rfl, rfl, rfl, rfl, rfl⟩, rfl, rfl, rfl,
    rfl, fun h ↦ ?_⟩
  have hone := h.exactlyOne
  simp at hone

end Expression

end DocMapping
