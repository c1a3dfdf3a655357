import DocMapping.Proofs.Query.Sorting

/-!
# Sorted by a Total Preorder

Whatever is nested in stored values, there is a total preorder of them, and one of documents by any
list of fields.  Sorting gives back the documents that it was given: in this order, and where two of
them are equal in it, as they stood before.
-/

namespace DocMapping

variable {α : Type} {cmp : α → α → Ordering}

/-- Things can be sorted by the comparison: changing sides turns it around, and it is transitive in
all three outcomes. -/
structure IsTotalPreorder (cmp : α → α → Ordering) : Prop where
  swap : ∀ a b, cmp b a = (cmp a b).swap
  trans : ∀ outcome a b c, cmp a b = outcome → cmp b c = outcome → cmp a c = outcome
  isLE_total : ∀ a b, (cmp a b).isLE = true ∨ (cmp b a).isLE = true
  isLE_trans : ∀ a b c, (cmp a b).isLE = true → (cmp b c).isLE = true → (cmp a c).isLE = true

theorem IsTotalPreorder.of_transCmp [Std.TransCmp cmp] : IsTotalPreorder cmp where
  swap _ _ := Std.OrientedCmp.eq_swap
  trans outcome a b c hab hbc := by
    cases outcome with
    | lt => exact Std.TransCmp.lt_trans hab hbc
    | eq => exact Std.TransCmp.eq_trans hab hbc
    | gt => exact Std.TransCmp.gt_trans hab hbc
  isLE_total a b := by
    rw [← Bool.or_eq_true]
    exact Sorting.isLE_or_isLE a b
  isLE_trans a b c := Sorting.isLE_trans a b c

/-- Stored values are compared by what the order sees of them. -/
theorem Bson.isTotalPreorder_sortKey :
    IsTotalPreorder fun a b : Bson ↦ a.sortKey.order b.sortKey := by
  have hkeys : IsTotalPreorder SortKey.order := .of_transCmp
  exact {
    swap a b := hkeys.swap a.sortKey b.sortKey
    trans outcome a b c := hkeys.trans outcome a.sortKey b.sortKey c.sortKey
    isLE_total a b := hkeys.isLE_total a.sortKey b.sortKey
    isLE_trans a b c := hkeys.isLE_trans a.sortKey b.sortKey c.sortKey }

namespace Sorting

/-- The sorted list holds the items in order, and equal ones as they stood; each of them is listed in
`placed` with the place where it stood. -/
def IsStableSort (cmp : α → α → Ordering) (items sorted : List α) : Prop :=
  ∃ placed : List (α × Nat), placed.map Prod.fst = sorted ∧ placed.Perm items.zipIdx ∧
    placed.Pairwise fun x y ↦ cmp x.1 y.1 ≠ .gt ∧ (cmp x.1 y.1 = .eq → x.2 < y.2)

/-- The items come in order, and equal ones by their places. -/
theorem ne_gt_of_zipIdxLE [Std.TransCmp cmp] {x y : α × Nat}
    (h : List.zipIdxLE (fun a b ↦ (cmp a b).isLE) x y = true) :
    cmp x.1 y.1 ≠ .gt ∧ (cmp x.1 y.1 = .eq → x.2 ≤ y.2) := by
  have hswap : cmp y.1 x.1 = (cmp x.1 y.1).swap := Std.OrientedCmp.eq_swap
  simp only [List.zipIdxLE, hswap] at h
  cases hxy : cmp x.1 y.1 with
  | lt => simp
  | gt => simp [hxy] at h
  | eq => simpa [hxy] using h

theorem isStableSort_stableSort [Std.TransCmp cmp] (items : List α) :
    IsStableSort cmp items (stableSort cmp items) := by
  let le := List.zipIdxLE fun a b ↦ (cmp a b).isLE
  refine ⟨items.zipIdx.mergeSort le, List.mergeSort_zipIdx, List.mergeSort_perm _ _, ?_⟩
  have hordered : (items.zipIdx.mergeSort le).Pairwise fun x y ↦ le x y = true :=
    List.pairwise_mergeSort (List.zipIdxLE_trans isLE_trans) (List.zipIdxLE_total isLE_or_isLE) _
  have hplaces : (items.zipIdx.mergeSort le).Pairwise fun x y ↦ x.2 ≠ y.2 := by
    apply List.pairwise_map.1
    apply ((List.mergeSort_perm _ _).map Prod.snd).nodup_iff.2
    simp [List.nodup_range']
  apply (hordered.and hplaces).imp
  intro x y ⟨hle, hne⟩
  obtain ⟨horder, hplace⟩ := ne_gt_of_zipIdxLE hle
  exact ⟨horder, fun heq ↦ Nat.lt_of_le_of_ne (hplace heq) hne⟩

end Sorting

/-- Sorting documents is a stable sort by a total preorder, which is made of a total preorder of the
stored values. -/
theorem SortField.documents_stable (sorts : List SortField) (items : List Document) :
    IsTotalPreorder (fun a b : Bson ↦ a.sortKey.order b.sortKey) ∧
      IsTotalPreorder (orderBy sorts) ∧
      Sorting.IsStableSort (orderBy sorts) items (documents sorts items) :=
  ⟨Bson.isTotalPreorder_sortKey, .of_transCmp, Sorting.isStableSort_stableSort items⟩

end DocMapping
