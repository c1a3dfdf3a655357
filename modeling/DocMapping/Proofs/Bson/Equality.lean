import DocMapping.Proofs.Bson.Elements
import DocMapping.Proofs.Number.Binary64

/-!
# Equality of Stored Values

Stored values that are equal are so from either side, and values equal to one value are equal to each
other.  Documents are compared by looking the elements of one up in the other, so that both sides say
the same only where no document holds a name twice.  A pattern that is not a number equals nothing,
not even itself, which does no harm here.
-/

namespace DocMapping

namespace Bson

/-! ## Names in values -/

mutual

/-- No document in the value holds a name twice. -/
def NamesApart : Bson → Prop
  | array items => ItemsApart items
  | document elements => Document.Distinct elements ∧ ElementsApart elements
  | codeWithScope _ scope => Document.Distinct scope ∧ ElementsApart scope
  | _ => True

def ElementsApart : List (String × Bson) → Prop
  | [] => True
  | (_, value) :: rest => value.NamesApart ∧ ElementsApart rest

def ItemsApart : List Bson → Prop
  | [] => True
  | item :: rest => item.NamesApart ∧ ItemsApart rest

end

theorem elementsApart_iff {elements : List (String × Bson)} :
    ElementsApart elements ↔ ∀ element ∈ elements, element.2.NamesApart := by
  induction elements with
  | nil => simp [ElementsApart]
  | cons element rest ih =>
    obtain ⟨name, value⟩ := element
    rw [ElementsApart, ih, List.forall_mem_cons]

/-! ## Equality -/

theorem eqElements_iff_lookup {elements others : List (String × Bson)} :
    eqElements elements others = true ↔ ∀ element ∈ elements,
      ∃ other, others.lookup element.1 = some other ∧ element.2.eq other = true := by
  induction elements with
  | nil => simp [eqElements]
  | cons element rest ih =>
    obtain ⟨name, value⟩ := element
    rw [eqElements, Bool.and_eq_true, ih, List.forall_mem_cons]
    cases others.lookup name <;> simp

/-- Equal elements of documents are equal from the other side if their values are. -/
theorem eqElements_symm {elements others : List (String × Bson)} (hnames : Document.Distinct elements)
    (hothers : Document.Distinct others) (hlength : elements.length = others.length)
    (h : eqElements elements others = true)
    (hvalues : ∀ element ∈ elements, ∀ other, others.lookup element.1 = some other →
      element.2.eq other = true → other.eq element.2 = true) :
    eqElements others elements = true := by
  refine eqElements_iff_lookup.2 (Association.exists_lookup_of_length_eq
    (r := fun x y ↦ y.eq x = true) hnames hothers hlength fun element helement ↦ ?_)
  obtain ⟨other, hother, hequal⟩ := eqElements_iff_lookup.1 h element helement
  exact ⟨other, hother, hvalues element helement other hother hequal⟩

theorem eq_symm_all :
    (∀ a b : Bson, a.NamesApart → b.NamesApart → a.eq b = true → b.eq a = true) ∧
    (∀ elements others : List (String × Bson), ElementsApart elements → ElementsApart others →
      ∀ element ∈ elements, ∀ other, others.lookup element.1 = some other →
        element.2.eq other = true → other.eq element.2 = true) ∧
    (∀ as bs : List Bson, ItemsApart as → ItemsApart bs → eqItems as bs = true →
      eqItems bs as = true) := by
  apply eq.mutual_induct
  case case1 =>
    intro a b _ _ h
    rw [eq] at h ⊢
    exact Binary64.numericEq_symm h
  case case3 =>
    intro as bs ih ha hb h
    rw [eq] at h ⊢
    exact ih ha hb h
  case case4 =>
    intro as bs ih ha hb h
    rw [eq, Bool.and_eq_true, beq_iff_eq] at h ⊢
    exact ⟨h.1.symm, eqElements_symm ha.1 hb.1 h.1 h.2 (ih ha.2 hb.2)⟩
  case case9 =>
    intro _ as _ bs ih ha hb h
    rw [eq, Bool.and_eq_true, Bool.and_eq_true, beq_iff_eq, beq_iff_eq] at h ⊢
    exact ⟨⟨h.1.1.symm, h.1.2.symm⟩, eqElements_symm ha.1 hb.1 h.1.2 h.2 (ih ha.2 hb.2)⟩
  case case23 =>
    intro a as b bs iha ihas ha hb h
    rw [eqItems, Bool.and_eq_true] at h ⊢
    exact ⟨iha ha.1 hb.1 h.1, ihas ha.2 hb.2 h.2⟩
  case case25 =>
    intro _ _ _ element helement
    cases helement
  case case26 =>
    intro name a rest others iha ihrest ha hothers element helement other hother
    rcases List.mem_cons.1 helement with rfl | helement
    · exact iha other ha.1
        (elementsApart_iff.1 hothers _ (Association.mem_of_lookup hother))
    · exact ihrest ha.2 hothers element helement other hother
  case case22 => exact fun _ _ h ↦ h
  -- values of different types, lists of different lengths
  case case21 | case24 =>
    intros
    simp_all [eq, eqItems]
  all_goals
    intros
    simp_all [eq]

theorem eq_symm {a b : Bson} (ha : a.NamesApart) (hb : b.NamesApart) (h : a.eq b = true) :
    b.eq a = true :=
  eq_symm_all.1 a b ha hb h

/-- Elements that are equal to equal elements are equal to each other if their values are. -/
theorem eqElements_trans {elements others third : List (String × Bson)}
    (hfirst : eqElements elements others = true) (hsecond : eqElements others third = true)
    (hvalues : ∀ element ∈ elements, ∀ other, others.lookup element.1 = some other → ∀ c : Bson,
      element.2.eq other = true → other.eq c = true → element.2.eq c = true) :
    eqElements elements third = true := by
  refine eqElements_iff_lookup.2 fun element helement ↦ ?_
  obtain ⟨other, hother, hequal⟩ := eqElements_iff_lookup.1 hfirst element helement
  obtain ⟨last, hlast, hnext⟩ :=
    eqElements_iff_lookup.1 hsecond _ (Association.mem_of_lookup hother)
  exact ⟨last, hlast, hvalues element helement other hother last hequal hnext⟩

theorem eq_trans_all :
    (∀ a b : Bson, ∀ c : Bson, a.eq b = true → b.eq c = true → a.eq c = true) ∧
    (∀ elements others : List (String × Bson), ∀ element ∈ elements, ∀ other,
      others.lookup element.1 = some other → ∀ c : Bson, element.2.eq other = true →
        other.eq c = true → element.2.eq c = true) ∧
    (∀ as bs : List Bson, ∀ cs : List Bson, eqItems as bs = true → eqItems bs cs = true →
      eqItems as cs = true) := by
  apply eq.mutual_induct
  case case1 =>
    intro a b c h hnext
    cases c <;> simp only [eq, Bool.false_eq_true] at h hnext ⊢
    exact Binary64.numericEq_trans h hnext
  case case3 =>
    intro as bs ih c h hnext
    cases c <;> simp only [eq, Bool.false_eq_true] at h hnext ⊢
    exact ih _ h hnext
  case case4 =>
    intro as bs ih c h hnext
    cases c <;> simp only [eq, Bool.false_eq_true, Bool.and_eq_true, beq_iff_eq] at h hnext ⊢
    exact ⟨h.1.trans hnext.1, eqElements_trans h.2 hnext.2 ih⟩
  case case9 =>
    intro _ as _ bs ih c h hnext
    cases c <;> simp only [eq, Bool.false_eq_true, Bool.and_eq_true, beq_iff_eq] at h hnext ⊢
    exact ⟨⟨h.1.1.trans hnext.1.1, h.1.2.trans hnext.1.2⟩, eqElements_trans h.2 hnext.2 ih⟩
  case case22 => exact fun _ _ hnext ↦ hnext
  case case23 =>
    intro a as b bs iha ihas cs h hnext
    cases cs <;> simp only [eqItems, Bool.false_eq_true, Bool.and_eq_true] at h hnext ⊢
    exact ⟨iha _ h.1 hnext.1, ihas _ h.2 hnext.2⟩
  case case25 =>
    intro _ element helement
    cases helement
  case case26 =>
    intro name a rest others iha ihrest element helement other hother
    rcases List.mem_cons.1 helement with rfl | helement
    · exact iha other
    · exact ihrest element helement other hother
  -- values of different types, lists of different lengths
  case case21 | case24 =>
    intros
    simp_all [eq, eqItems]
  -- values without parts are equal only if they are the same
  case case6 | case18 | case19 | case20 => exact fun _ _ hnext ↦ hnext
  case case7 | case12 | case13 =>
    intro _ _ _ _ c h hnext
    rw [eq, Bool.and_eq_true, beq_iff_eq, beq_iff_eq] at h
    rwa [h.1, h.2]
  all_goals
    intro _ _ c h hnext
    rw [eq, beq_iff_eq] at h
    rwa [h]

theorem eq_trans {a b c : Bson} (hab : a.eq b = true) (hbc : b.eq c = true) : a.eq c = true :=
  eq_trans_all.1 a b c hab hbc

end Bson

end DocMapping
