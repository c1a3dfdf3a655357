import DocMapping.Proofs.Bson.TotalOrder
import DocMapping.Query

/-!
# Stable Sorting of Documents

A stable sort is known by two facts: its result is in order, and documents that are equal in the
order stand as they stood before.  Hence selecting documents commutes with sorting them, and
sorting by a finer order makes no use of an earlier sort by a coarser one.
-/

namespace DocMapping

namespace Sorting

variable {α : Type} {cmp : α → α → Ordering}

/-- Items that are equal to `a` in the order. -/
def equals (cmp : α → α → Ordering) (a x : α) : Bool := cmp a x == .eq

theorem equals_iff {a x : α} : equals cmp a x = true ↔ cmp a x = .eq := beq_iff_eq

/-- The items in order; equal ones stand as in the list. -/
def stableSort (cmp : α → α → Ordering) (items : List α) : List α :=
  items.mergeSort fun a b ↦ (cmp a b).isLE

theorem stableSort_perm (items : List α) : (stableSort cmp items).Perm items :=
  List.mergeSort_perm items _

theorem stableSort_of_ordered {items : List α}
    (h : items.Pairwise fun a b ↦ (cmp a b).isLE = true) : stableSort cmp items = items :=
  List.mergeSort_of_pairwise h

variable [Std.TransCmp cmp]

theorem isLE_trans (a b c : α) (hab : (cmp a b).isLE = true) (hbc : (cmp b c).isLE = true) :
    (cmp a c).isLE = true :=
  Std.TransCmp.isLE_trans hab hbc

theorem isLE_or_isLE (a b : α) : ((cmp a b).isLE || (cmp b a).isLE) = true := by
  have hswap : cmp b a = (cmp a b).swap := Std.OrientedCmp.eq_swap
  rw [hswap]
  cases cmp a b <;> rfl

theorem stableSort_ordered (items : List α) :
    (stableSort cmp items).Pairwise fun a b ↦ (cmp a b).isLE = true :=
  List.pairwise_mergeSort isLE_trans isLE_or_isLE items

/-- Items that are equal in the order stand as they stood before. -/
theorem stableSort_stable (a : α) (items : List α) :
    (stableSort cmp items).filter (equals cmp a) = items.filter (equals cmp a) := by
  have hordered : (items.filter (equals cmp a)).Pairwise fun x y ↦ (cmp x y).isLE = true := by
    refine List.pairwise_of_forall_mem_list fun x hx y hy ↦ ?_
    have hax := equals_iff.1 (List.mem_filter.1 hx).2
    have hay := equals_iff.1 (List.mem_filter.1 hy).2
    rw [← Std.TransCmp.congr_left hax, hay]
    rfl
  have hsublist : (items.filter (equals cmp a)).Sublist (stableSort cmp items) :=
    List.sublist_mergeSort isLE_trans isLE_or_isLE hordered List.filter_sublist
  have hkept : (items.filter (equals cmp a)).Sublist
      ((stableSort cmp items).filter (equals cmp a)) := by
    have h := hsublist.filter (equals cmp a)
    rwa [List.filter_filter, funext fun x ↦ Bool.and_self (equals cmp a x)] at h
  exact (hkept.eq_of_length (((stableSort_perm items).filter _).length_eq.symm)).symm

/-- The first item of an ordered list comes before every item. -/
theorem head_isLE {a x : α} {rest : List α}
    (h : (a :: rest).Pairwise fun x y ↦ (cmp x y).isLE = true) (hx : x ∈ a :: rest) :
    (cmp a x).isLE = true := by
  rcases List.mem_cons.1 hx with rfl | hrest
  · have hself : cmp x x = .eq := Std.ReflCmp.compare_self
    rw [hself]
    rfl
  · exact List.rel_of_pairwise_cons h hrest

/-- Ordered lists are the same if they have the same items of each class of equal ones. -/
theorem eq_of_ordered {first second : List α}
    (hfirst : first.Pairwise fun a b ↦ (cmp a b).isLE = true)
    (hsecond : second.Pairwise fun a b ↦ (cmp a b).isLE = true)
    (h : ∀ a, first.filter (equals cmp a) = second.filter (equals cmp a)) : first = second := by
  have hmem {l m : List α} (hlm : ∀ a, l.filter (equals cmp a) = m.filter (equals cmp a)) {a : α}
      (ha : a ∈ l) : a ∈ m := by
    have hself : a ∈ l.filter (equals cmp a) :=
      List.mem_filter.2 ⟨ha, equals_iff.2 Std.ReflCmp.compare_self⟩
    rw [hlm] at hself
    exact (List.mem_filter.1 hself).1
  induction first generalizing second with
  | nil =>
    cases second with
    | nil => rfl
    | cons b tail => cases hmem (fun a ↦ (h a).symm) List.mem_cons_self
  | cons a rest ih =>
    cases second with
    | nil => cases hmem h List.mem_cons_self
    | cons b tail =>
      have hab : cmp a b = .eq := Std.OrientedCmp.isLE_antisymm
        (head_isLE hfirst (hmem (fun c ↦ (h c).symm) List.mem_cons_self))
        (head_isLE hsecond (hmem h List.mem_cons_self))
      have hheads : a = b := by
        have hclass := h a
        rw [List.filter_cons_of_pos (equals_iff.2 Std.ReflCmp.compare_self),
          List.filter_cons_of_pos (equals_iff.2 hab)] at hclass
        exact (List.cons.inj hclass).1
      subst hheads
      refine congrArg _ (ih hfirst.of_cons hsecond.of_cons fun c ↦ ?_)
      have hclass := h c
      rw [List.filter_cons, List.filter_cons] at hclass
      split at hclass
      · exact (List.cons.inj hclass).2
      · exact hclass

/-- Selecting items and sorting them may change places. -/
theorem stableSort_filter (p : α → Bool) (items : List α) :
    (stableSort cmp items).filter p = stableSort cmp (items.filter p) := by
  have hcomm (a : α) (l : List α) :
      (l.filter p).filter (equals cmp a) = (l.filter (equals cmp a)).filter p := by
    rw [List.filter_filter, List.filter_filter]
    exact List.filter_congr fun x _ ↦ Bool.and_comm _ _
  refine eq_of_ordered ((stableSort_ordered items).filter p) (stableSort_ordered _) fun a ↦ ?_
  rw [stableSort_stable, hcomm, stableSort_stable, hcomm]

/-- A sort by a finer order makes no use of an earlier sort by a coarser one. -/
theorem stableSort_stableSort {coarse : α → α → Ordering} [Std.TransCmp coarse]
    (hfiner : ∀ a b, cmp a b = .eq → coarse a b = .eq) (items : List α) :
    stableSort cmp (stableSort coarse items) = stableSort cmp items := by
  refine eq_of_ordered (stableSort_ordered _) (stableSort_ordered _) fun a ↦ ?_
  have hclass (l : List α) :
      l.filter (equals cmp a) = (l.filter (equals coarse a)).filter (equals cmp a) := by
    rw [List.filter_filter]
    refine List.filter_congr fun x _ ↦ ?_
    cases hx : equals cmp a x with
    | false => rfl
    | true => rw [equals_iff.2 (hfiner a x (equals_iff.1 hx))]; rfl
  rw [stableSort_stable, stableSort_stable, hclass, stableSort_stable, ← hclass]

end Sorting

/-! ## Documents -/

namespace SortField

open Sorting

theorem order_chains (s : SortField) (a b c : Document) :
    SortKey.Chains (s.order a b) (s.order b c) (s.order a c) := by
  unfold order
  cases s.direction with
  | ascending => exact SortKey.order_chains _ _ _
  | descending =>
    have h := SortKey.order_chains (s.key c) (s.key b) (s.key a)
    exact ⟨fun hab hbc hlt ↦ h.lt hbc hab hlt.symm, fun hab hbc ↦ h.eq hbc hab⟩

theorem order_swap (s : SortField) (a b : Document) : s.order a b = (s.order b a).swap := by
  unfold order
  cases s.direction <;> exact SortKey.order_swap _ _

theorem orderBy_chains (sorts : List SortField) (a b c : Document) :
    SortKey.Chains (orderBy sorts a b) (orderBy sorts b c) (orderBy sorts a c) := by
  induction sorts with
  | nil => exact .eq_left
  | cons s rest ih => exact (s.order_chains a b c).lex fun _ _ ↦ ih

theorem orderBy_swap (sorts : List SortField) (a b : Document) :
    orderBy sorts a b = (orderBy sorts b a).swap := by
  induction sorts with
  | nil => rfl
  | cons s rest ih => rw [orderBy, orderBy, Ordering.swap_then, ← ih, ← s.order_swap]

instance (sorts : List SortField) : Std.TransCmp (orderBy sorts) where
  eq_swap := orderBy_swap sorts _ _
  isLE_trans := (orderBy_chains sorts _ _ _).isLE

theorem orderBy_append (sorts more : List SortField) (a b : Document) :
    orderBy (sorts ++ more) a b = (orderBy sorts a b).then (orderBy more a b) := by
  induction sorts with
  | nil => rfl
  | cons s rest ih => rw [List.cons_append, orderBy, orderBy, ih, Ordering.then_assoc]

theorem documents_nil (items : List Document) : documents [] items = items :=
  stableSort_of_ordered (List.pairwise_of_forall_mem_list fun _ _ _ _ ↦ rfl)

theorem length_documents (sorts : List SortField) (items : List Document) :
    (documents sorts items).length = items.length :=
  (stableSort_perm items).length_eq

theorem documents_filter (sorts : List SortField) (p : Document → Bool) (items : List Document) :
    (documents sorts items).filter p = documents sorts (items.filter p) :=
  stableSort_filter p items

/-- Documents that are sorted by some fields are sorted anew by more of them. -/
theorem documents_append (sorts more : List SortField) (items : List Document) :
    documents (sorts ++ more) (documents sorts items) = documents (sorts ++ more) items := by
  refine stableSort_stableSort (fun a b h ↦ ?_) items
  rw [orderBy_append, Ordering.then_eq_eq] at h
  exact h.1

end SortField

end DocMapping
