import DocMapping.Comparer
import DocMapping.Proofs.Number.Binary64
import DocMapping.Proofs.Number.Decimal
import DocMapping.Proofs.Value.Entity

/-!
# Equality of Values is Symmetric

Entities are compared by looking the members of one up in the other.  This says the same from either
side only because an entity holds every member once, at every depth of a value.  Copies of values need
no comparison.
-/

namespace DocMapping

namespace Value

/-! ## Strict equality -/

theorem strictEq_symm_all :
    (∀ a b : Value, a.strictEq b = true → b.strictEq a = true) ∧
    (∀ as bs : List (String × Value), strictEqFields as bs = true → strictEqFields bs as = true) ∧
    (∀ as bs : List Value, strictEqItems as bs = true → strictEqItems bs as = true) := by
  apply strictEq.mutual_induct
  case case5 =>
    intro a b h
    rw [strictEq] at h ⊢
    rw [Binary64.numericEq_comm, h]
  case case6 =>
    intro a b h
    rw [strictEq] at h ⊢
    rw [Decimal.numericEq_comm, h]
  case case15 | case16 | case17 =>
    intro _ _ _ _ ih h
    rw [strictEq, Bool.and_eq_true, beq_iff_eq] at h ⊢
    exact ⟨h.1.symm, ih h.2⟩
  case case20 =>
    intro a as b bs iha ihas h
    rw [strictEqItems, Bool.and_eq_true] at h ⊢
    exact ⟨iha h.1, ihas h.2⟩
  case case23 =>
    intro m a as n b bs iha ihas h
    rw [strictEqFields, Bool.and_eq_true, Bool.and_eq_true, beq_iff_eq] at h ⊢
    exact ⟨⟨h.1.1.symm, iha h.1.2⟩, ihas h.2⟩
  case case19 | case22 => exact id
  -- values of different sorts, lists of different lengths
  case case18 | case21 | case24 =>
    intros
    simp_all [strictEq, strictEqItems, strictEqFields]
  all_goals
    intros
    simp_all [strictEq]

theorem strictEq_symm {a b : Value} (h : a.strictEq b = true) : b.strictEq a = true :=
  strictEq_symm_all.1 a b h

/-! ## Structural equality -/

mutual

/-- The members of every entity in the value are in the order of their names.  Nothing is asked of
the entities in records, which are compared member by member. -/
def Sorted : Value → Prop
  | collection _ items => SortedItems items
  | entity type members => (Entity.mk type members).Sorted ∧ SortedMembers members
  | _ => True

def SortedItems : List Value → Prop
  | [] => True
  | item :: rest => item.Sorted ∧ SortedItems rest

def SortedMembers : List (String × Value) → Prop
  | [] => True
  | (_, value) :: rest => value.Sorted ∧ SortedMembers rest

end

theorem sortedMembers_iff {members : List (String × Value)} :
    SortedMembers members ↔ ∀ entry ∈ members, entry.2.Sorted := by
  induction members with
  | nil => simp [SortedMembers]
  | cons entry rest ih =>
    rw [SortedMembers, ih, List.forall_mem_cons]

theorem sortedItems_iff {items : List Value} : SortedItems items ↔ ∀ item ∈ items, item.Sorted := by
  induction items with
  | nil => simp [SortedItems]
  | cons item rest ih =>
    rw [SortedItems, ih, List.forall_mem_cons]

theorem structuralEqMembers_iff {members others : List (String × Value)} :
    structuralEqMembers members others = true ↔ ∀ entry ∈ members,
      ∃ other, others.lookup entry.1 = some other ∧ entry.2.structuralEq other = true := by
  induction members with
  | nil => simp [structuralEqMembers]
  | cons entry rest ih =>
    obtain ⟨name, value⟩ := entry
    rw [structuralEqMembers, Bool.and_eq_true, ih, List.forall_mem_cons]
    cases others.lookup name <;> simp

theorem structuralEq_symm_all :
    (∀ a b : Value, a.Sorted → b.Sorted → a.structuralEq b = true → b.structuralEq a = true) ∧
    (∀ members others : List (String × Value), SortedMembers members → SortedMembers others →
      ∀ entry ∈ members, ∀ other, others.lookup entry.1 = some other →
        entry.2.structuralEq other = true → other.structuralEq entry.2 = true) ∧
    (∀ as bs : List Value, SortedItems as → SortedItems bs → structuralEqItems as bs = true →
      structuralEqItems bs as = true) := by
  apply structuralEq.mutual_induct
  case case1 =>
    intro a b _ _ h
    rw [structuralEq] at h ⊢
    rw [Binary64.numericEq_comm, Bool.beq_comm, h]
  case case2 =>
    intro _ as _ bs ih ha hb h
    rw [structuralEq] at h ⊢
    exact ih ha hb h
  case case3 =>
    intro t as u bs ih ha hb h
    rw [structuralEq, Bool.and_eq_true, Bool.and_eq_true, beq_iff_eq, beq_iff_eq,
      structuralEqMembers_iff] at h ⊢
    obtain ⟨⟨rfl, hlength⟩, hmembers⟩ := h
    refine ⟨⟨rfl, hlength.symm⟩, ?_⟩
    have hback : ∀ entry ∈ as, ∃ other, bs.lookup entry.1 = some other ∧
        other.structuralEq entry.2 = true := by
      intro entry hentry
      obtain ⟨other, hother, hequal⟩ := hmembers entry hentry
      exact ⟨other, hother, ih ha.2 hb.2 entry hentry other hother hequal⟩
    exact Association.exists_lookup_of_length_eq (r := fun x y ↦ y.structuralEq x = true)
      ha.1.nodup hb.1.nodup hlength hback
  case case4 =>
    intro a b hdoubles hcollections hentities _ _ h
    rw [structuralEq] at h ⊢
    · exact strictEq_symm h
    all_goals first | assumption | skip
    · exact fun _ _ hb ha ↦ hdoubles _ _ ha hb
    · exact fun _ _ _ _ hb ha ↦ hcollections _ _ _ _ ha hb
    · exact fun _ _ _ _ hb ha ↦ hentities _ _ _ _ ha hb
  case case5 => exact fun _ _ h ↦ h
  case case6 =>
    intro a as b bs iha ihas ha hb h
    rw [structuralEqItems, Bool.and_eq_true] at h ⊢
    exact ⟨iha ha.1 hb.1 h.1, ihas ha.2 hb.2 h.2⟩
  case case7 =>
    intros
    simp_all [structuralEqItems]
  case case8 =>
    intro _ _ _ entry hentry
    cases hentry
  case case9 =>
    intro name a rest others iha ihrest ha hothers entry hentry other hother
    rcases List.mem_cons.1 hentry with rfl | hentry
    · exact iha other ha.1 (sortedMembers_iff.1 hothers _ (Association.mem_of_lookup hother))
    · exact ihrest ha.2 hothers entry hentry other hother

theorem structuralEq_comm {a b : Value} (ha : a.Sorted) (hb : b.Sorted) :
    a.structuralEq b = b.structuralEq a :=
  Bool.eq_iff_iff.2 ⟨structuralEq_symm_all.1 a b ha hb, structuralEq_symm_all.1 b a hb ha⟩

end Value

/-! ## Comparers -/

namespace Comparer

open Value (SortedItems)

theorem itemsEq_comm (elements : ElementComparison) {a b : Value} (ha : a.Sorted) (hb : b.Sorted) :
    itemsEq elements a b = itemsEq elements b a := by
  cases elements with
  | value => exact Value.structuralEq_comm ha hb
  | nullableValue | reference =>
    simp only [itemsEq]
    rw [Value.structuralEq_comm ha hb]
    cases a.isNull <;> cases b.isNull <;> rfl

theorem sequencesEq_comm (elements : ElementComparison) {as bs : List Value} (ha : SortedItems as)
    (hb : SortedItems bs) : sequencesEq elements as bs = sequencesEq elements bs as := by
  induction as generalizing bs with
  | nil => cases bs <;> rfl
  | cons a as ih =>
    cases bs with
    | nil => rfl
    | cons b bs =>
      rw [sequencesEq, sequencesEq, itemsEq_comm elements ha.1 hb.1, ih ha.2 hb.2]

theorem equals_comm (comparer : Comparer) {a b : Value} (ha : a.Sorted) (hb : b.Sorted) :
    comparer.equals a b = comparer.equals b a := by
  cases comparer with
  | scalar => exact Value.structuralEq_comm ha hb
  | collection container elements =>
    unfold equals
    cases a <;> cases b <;> first | rfl | exact sequencesEq_comm elements ha hb

/-- A copy is the value with its container, whichever way it is made. -/
theorem snapshot_eq (comparer : Comparer) (value : Value) : comparer.snapshot value = value := by
  unfold snapshot
  split <;> rfl

end Comparer

end DocMapping
