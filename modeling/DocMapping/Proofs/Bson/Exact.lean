import DocMapping.Proofs.Bson.Elements
import DocMapping.Proofs.Codec.Property

/-!
# Exact Comparisons

The order compares numbers as doubles, and bytes whatever their subtype.  Among values of one form
it still tells apart what differs, as long as no number is decimal, is whole and beyond `2 ^ 53`, or
is a double with more than one pattern.  On such values, equality in filters is equality of stored
values.
-/

namespace DocMapping

/-- All values of the form are told apart by the order. -/
def StoredForm.isExact : StoredForm → Bool
  | int64 => false
  | double => false
  | decimal128 => false
  | _ => true

namespace Bson

open Document (Paired)

/-- The order tells the value apart from all others of its form. -/
def IsExactScalar : Bson → Prop
  | int64 value => value.toInt.natAbs ≤ 2 ^ 53
  | double value => value.IsCanonical
  | decimal128 _ => False
  | _ => True

/-- The value is exact, or it is a document of exact values. -/
def IsExact : Bson → Prop
  | document elements => ∀ element ∈ elements, element.2.IsExactScalar
  | value => value.IsExactScalar

/-- Both values are null or scalars of one form, or documents of such values. -/
inductive SameForm : Bson → Bson → Prop
  | scalar {a b : Bson} (form : StoredForm) (left : a.HasForm form) (right : b.HasForm form) :
      SameForm a b
  | document {first second : Document}
      (paired : Paired (fun a b ↦ ∃ form, HasForm form a ∧ HasForm form b) first second)
      (distinct : second.Distinct) : SameForm (.document first) (.document second)

/-! ## Scalars -/

variable {a b : Bson} {form : StoredForm}

theorem HasForm.isExactScalar (h : a.HasForm form) (hexact : form.isExact = true) :
    a.IsExactScalar := by
  rcases h with rfl | h
  · trivial
  · cases a with
    | int64 => cases h; cases hexact
    | double => cases h; cases hexact
    | decimal128 =>
      rw [form?] at h
      split at h <;> cases h
      cases hexact
    | _ => trivial

/-- A value of a form is no document. -/
theorem HasForm.isExact_iff (h : a.HasForm form) : a.IsExact ↔ a.IsExactScalar := by
  cases a with
  | document => rcases h with h | h <;> cases h
  | _ => rfl

theorem HasForm.eq_null (h : a.HasForm form) (hnull : a.sortKey = .null) : a = .null := by
  rcases h with rfl | h
  · rfl
  · cases a with
    | decimal128 =>
      unfold sortKey at hnull
      split at hnull <;> cases hnull
    | null | undefined => cases h
    | _ => cases hnull

/-- Whole numbers of 32 bits are held exactly by doubles. -/
theorem ofInt_int32_inj {x y : Int32} :
    Binary64.ofInt x.toInt = Binary64.ofInt y.toInt ↔ x = y := by
  have hbound (value : Int32) : value.toInt.natAbs ≤ 2 ^ 53 := by
    have hlow := value.le_toInt
    have hhigh := value.toInt_lt
    omega
  rw [Binary64.ofInt_inj (hbound x) (hbound y), Int32.toInt_inj]

/-- Exact values of one form are alike to the order only if they are equal. -/
theorem sortKey_eq_iff_of_form? (ha : a.form? = some form) (hb : b.form? = some form)
    (haexact : a.IsExactScalar) (hbexact : b.IsExactScalar) :
    a.sortKey = b.sortKey ↔ a.eq b = true := by
  -- Decimals have no exact values, so that their forms, which depend on the value, never matter.
  cases a with
  | boolean | string | objectId | dateTime =>
    cases ha
    cases b with
    | decimal128 => exact hbexact.elim
    | _ => cases hb <;> simp [sortKey, eq]
  | int32 =>
    cases ha
    cases b with
    | int32 => simp [sortKey, eq, ofInt_int32_inj]
    | decimal128 => exact hbexact.elim
    | _ => cases hb
  | int64 =>
    cases ha
    cases b with
    | int64 => simp [sortKey, eq, Binary64.ofInt_inj haexact hbexact, Int64.toInt_inj]
    | decimal128 => exact hbexact.elim
    | _ => cases hb
  | double =>
    cases ha
    cases b with
    | double => simp [sortKey, eq, Binary64.numericEq_iff haexact hbexact]
    | decimal128 => exact hbexact.elim
    | _ => cases hb
  | binary subtype =>
    cases ha
    cases b with
    | binary other =>
      cases hb
      simp [sortKey, eq]
    | decimal128 => exact hbexact.elim
    | _ => cases hb
  | decimal128 => exact haexact.elim
  | _ => cases ha

theorem sortKey_eq_iff_of_hasForm (ha : a.HasForm form) (hb : b.HasForm form)
    (haexact : a.IsExactScalar) (hbexact : b.IsExactScalar) :
    a.sortKey = b.sortKey ↔ a.eq b = true := by
  rcases ha with rfl | ha
  · constructor
    · intro h
      rw [hb.eq_null h.symm]
      rfl
    · intro h
      cases b with
      | null => rfl
      | _ => cases h
  · rcases hb with rfl | hb
    · constructor
      · intro h
        rw [HasForm.eq_null (.inr ha) h]
        rfl
      · intro h
        cases a with
        | null => rfl
        | _ => cases h
    · exact sortKey_eq_iff_of_form? ha hb haexact hbexact

/-! ## Documents -/

variable {first second : Document}

/-- Documents of the same names are alike to the order if all their values are. -/
theorem sortElements_eq_iff
    (h : Paired (fun a b ↦ a.sortKey = b.sortKey ↔ a.eq b = true) first second) {right : Document}
    (hright : ∀ element ∈ second, right.get? element.1 = some element.2) :
    sortElements first = sortElements second ↔ eqElements first right = true := by
  induction h with
  | nil => exact iff_of_true rfl rfl
  | @cons x y xs ys hxy _ ih =>
    obtain ⟨name, value⟩ := x
    obtain ⟨_, other⟩ := y
    obtain ⟨rfl, hvalues⟩ := hxy
    obtain ⟨(hlookup : List.lookup name right = some other), hrest⟩ := List.forall_mem_cons.1 hright
    rw [sortElements, sortElements, List.cons.injEq, Prod.mk.injEq, ih hrest, eqElements, hlookup,
      Bool.and_eq_true]
    simp [hvalues]

/-- Filters do not confuse exact values of one form. -/
theorem SameForm.sortKey_eq_iff (h : SameForm a b) (ha : a.IsExact) (hb : b.IsExact) :
    a.sortKey = b.sortKey ↔ a.eq b = true := by
  cases h with
  | scalar form hleft hright =>
    exact sortKey_eq_iff_of_hasForm hleft hright (hleft.isExact_iff.1 ha) (hright.isExact_iff.1 hb)
  | @document first second hpaired hdistinct =>
    have hvalues : Paired (fun a b ↦ a.sortKey = b.sortKey ↔ a.eq b = true) first second :=
      hpaired.imp_of_mem fun x hx y hy ↦ fun ⟨form, hleft, hright⟩ ↦
        sortKey_eq_iff_of_hasForm hleft hright (ha x hx) (hb y hy)
    have hlookup : ∀ element ∈ second, second.get? element.1 = some element.2 :=
      fun element helement ↦ hdistinct.get? helement
    rw [sortKey, sortKey, SortKey.document.injEq, sortElements_eq_iff hvalues hlookup, eq,
      Bool.and_eq_true, beq_iff_eq, and_iff_right hpaired.length_eq]

end Bson

end DocMapping
