import DocMapping.Proofs.Bson.Order

/-!
# A Total Order

The order of stored values is one that values can be sorted by.  Changing sides turns it around, and
it is transitive in all three outcomes.  Both hold because keys are ordered by their groups first,
and documents and arrays part by part, the first part that differs deciding.
-/

namespace DocMapping

namespace SortKey

/-- The orders of a first thing to a second, the second to a third, and the first to the third. -/
structure Chains (first second both : Ordering) : Prop where
  lt : first.isLE → second.isLE → first = .lt ∨ second = .lt → both = .lt
  eq : first = .eq → second = .eq → both = .eq

namespace Chains

variable {first second both first' second' both' : Ordering}

theorem isLE (h : Chains first second both) (hfirst : first.isLE) (hsecond : second.isLE) :
    both.isLE := by
  cases first with
  | lt => rw [h.lt hfirst hsecond (.inl rfl)]; rfl
  | gt => cases hfirst
  | eq =>
    cases second with
    | lt => rw [h.lt hfirst hsecond (.inr rfl)]; rfl
    | gt => cases hsecond
    | eq => rw [h.eq rfl rfl]; rfl

theorem gt_left : Chains .gt second both :=
  ⟨fun hle ↦ (by cases hle), fun heq ↦ (by cases heq)⟩

theorem gt_right : Chains first .gt both :=
  ⟨fun _ hle ↦ (by cases hle), fun _ heq ↦ (by cases heq)⟩

theorem lt_left : Chains .lt second .lt := ⟨fun _ _ _ ↦ rfl, fun heq ↦ (by cases heq)⟩

theorem eq_left : Chains .eq second second :=
  ⟨fun _ _ h ↦ h.resolve_left (by simp), fun _ h ↦ h⟩

/-- Things that are ordered by one part first, and where it is equal by another. -/
theorem lex (h : Chains first second both)
    (h' : first = .eq → second = .eq → Chains first' second' both') :
    Chains (first.then first') (second.then second') (both.then both') := by
  obtain ⟨hlt, heq⟩ := h
  cases first with
  | gt => exact gt_left
  | lt =>
    refine ⟨fun _ hle _ ↦ ?_, fun heq ↦ (by cases heq)⟩
    rw [hlt rfl (Ordering.isLE_left_of_isLE_then hle) (.inl rfl)]
    rfl
  | eq =>
    cases second with
    | gt => exact gt_right
    | lt =>
      refine ⟨fun _ _ _ ↦ ?_, fun _ heq ↦ (by cases heq)⟩
      rw [hlt rfl rfl (.inr rfl)]
      rfl
    | eq =>
      rw [heq rfl rfl]
      exact h' rfl rfl

theorem compare {α : Type} [Ord α] [Std.TransOrd α] (a b c : α) :
    Chains (Ord.compare a b) (Ord.compare b c) (Ord.compare a c) where
  lt hab hbc h :=
    h.elim (fun hlt ↦ Std.TransCmp.lt_of_lt_of_isLE hlt hbc) fun hlt ↦
      Std.TransCmp.lt_of_isLE_of_lt hab hlt
  eq := Std.TransCmp.eq_trans

end Chains

/-! ## Groups -/

theorem order_eq_lex (a b : SortKey) :
    a.order b = (compare a.group b.group).then (a.order b) := by
  cases a <;> cases b <;> rfl

/-- Only keys of one group have to be looked at. -/
theorem chains_of_group {a b c : SortKey}
    (h : a.group = b.group → b.group = c.group →
      Chains (a.order b) (b.order c) (a.order c)) :
    Chains (a.order b) (b.order c) (a.order c) := by
  rw [order_eq_lex a b, order_eq_lex b c, order_eq_lex a c]
  exact (Chains.compare a.group b.group c.group).lex fun hab hbc ↦
    h (Nat.compare_eq_eq.1 hab) (Nat.compare_eq_eq.1 hbc)

/-! ## Both ways -/

theorem bytesOrder_swap (a b : List UInt8) : bytesOrder a b = (bytesOrder b a).swap := by
  induction a generalizing b with
  | nil => cases b <;> rfl
  | cons byte rest ih =>
    cases b with
    | nil => rfl
    | cons other tail =>
      rw [bytesOrder, bytesOrder, Ordering.swap_then, ← ih tail, ← Std.OrientedCmp.eq_swap]

mutual

theorem order_swap : (a b : SortKey) → a.order b = (b.order a).swap
  | number x, b => by
    cases b with
    | number y =>
      rw [order, order]
      exact Std.OrientedCmp.eq_swap
    | _ => rfl
  | string x, b => by
    cases b with
    | string y =>
      rw [order, order]
      exact Std.OrientedCmp.eq_swap
    | _ => rfl
  | document elements, b => by
    cases b with
    | document others => exact elementsOrder_swap elements others
    | _ => rfl
  | array items, b => by
    cases b with
    | array others => exact itemsOrder_swap items others
    | _ => rfl
  | binary bytes, b => by
    cases b with
    | binary others =>
      rw [order, order, Ordering.swap_then, ← bytesOrder_swap, ← Std.OrientedCmp.eq_swap]
    | _ => rfl
  | objectId x, b => by
    cases b with
    | objectId y =>
      rw [order, order]
      exact Std.OrientedCmp.eq_swap
    | _ => rfl
  | boolean x, b => by
    cases b with
    | boolean y =>
      rw [order, order]
      exact Std.OrientedCmp.eq_swap
    | _ => rfl
  | dateTime x, b => by
    cases b with
    | dateTime y =>
      rw [order, order]
      exact Std.OrientedCmp.eq_swap
    | _ => rfl
  | null, b => by cases b <;> rfl
  | unordered, b => by cases b <;> rfl

theorem elementsOrder_swap : (elements others : List (String × SortKey)) →
    elementsOrder elements others = (elementsOrder others elements).swap
  | [], others => by cases others <;> rfl
  | (name, key) :: rest, others => by
    cases others with
    | nil => rfl
    | cons other tail =>
      rw [elementsOrder, elementsOrder, Ordering.swap_then, Ordering.swap_then,
        ← elementsOrder_swap rest tail, ← order_swap key other.2, ← Std.OrientedCmp.eq_swap]

theorem itemsOrder_swap : (items others : List SortKey) →
    itemsOrder items others = (itemsOrder others items).swap
  | [], others => by cases others <;> rfl
  | item :: rest, others => by
    cases others with
    | nil => rfl
    | cons other tail =>
      rw [itemsOrder, itemsOrder, Ordering.swap_then, ← itemsOrder_swap rest tail,
        ← order_swap item other]

end

/-! ## Three keys -/

theorem bytesOrder_chains : (a b c : List UInt8) →
    Chains (bytesOrder a b) (bytesOrder b c) (bytesOrder a c)
  | [], [], _ => .eq_left
  | [], _ :: _, [] => .gt_right
  | [], _ :: _, _ :: _ => .lt_left
  | _ :: _, [], _ => .gt_left
  | _ :: _, _ :: _, [] => .gt_right
  | x :: xs, y :: ys, z :: zs =>
    (Chains.compare x.toNat y.toNat z.toNat).lex fun _ _ ↦ bytesOrder_chains xs ys zs

mutual

theorem order_chains : (a b c : SortKey) → Chains (a.order b) (b.order c) (a.order c)
  | number x, b, c => chains_of_group fun hab hbc ↦ by
    cases b with
    | number y => cases c with
      | number z => exact .compare x.rank y.rank z.rank
      | _ => cases hbc
    | _ => cases hab
  | string x, b, c => chains_of_group fun hab hbc ↦ by
    cases b with
    | string y => cases c with
      | string z => exact .compare x y z
      | _ => cases hbc
    | _ => cases hab
  | document elements, b, c => chains_of_group fun hab hbc ↦ by
    cases b with
    | document others => cases c with
      | document more => exact elementsOrder_chains elements others more
      | _ => cases hbc
    | _ => cases hab
  | array items, b, c => chains_of_group fun hab hbc ↦ by
    cases b with
    | array others => cases c with
      | array more => exact itemsOrder_chains items others more
      | _ => cases hbc
    | _ => cases hab
  | binary x, b, c => chains_of_group fun hab hbc ↦ by
    cases b with
    | binary y => cases c with
      | binary z =>
        exact (Chains.compare x.length y.length z.length).lex fun _ _ ↦ bytesOrder_chains x y z
      | _ => cases hbc
    | _ => cases hab
  | objectId x, b, c => chains_of_group fun hab hbc ↦ by
    cases b with
    | objectId y => cases c with
      | objectId z => exact .compare x.value.val y.value.val z.value.val
      | _ => cases hbc
    | _ => cases hab
  | boolean x, b, c => chains_of_group fun hab hbc ↦ by
    cases b with
    | boolean y => cases c with
      | boolean z => exact .compare x.toNat y.toNat z.toNat
      | _ => cases hbc
    | _ => cases hab
  | dateTime x, b, c => chains_of_group fun hab hbc ↦ by
    cases b with
    | dateTime y => cases c with
      | dateTime z => exact .compare x.toInt y.toInt z.toInt
      | _ => cases hbc
    | _ => cases hab
  | null, b, c => chains_of_group fun hab hbc ↦ by
    cases b with
    | null => exact .eq_left
    | _ => cases hab
  | unordered, b, c => chains_of_group fun hab hbc ↦ by
    cases b with
    | unordered => exact .eq_left
    | _ => cases hab

theorem elementsOrder_chains : (a b c : List (String × SortKey)) →
    Chains (elementsOrder a b) (elementsOrder b c) (elementsOrder a c)
  | [], [], _ => .eq_left
  | [], _ :: _, [] => .gt_right
  | [], _ :: _, _ :: _ => .lt_left
  | _ :: _, [], _ => .gt_left
  | _ :: _, _ :: _, [] => .gt_right
  | (l, x) :: xs, (m, y) :: ys, (n, z) :: zs =>
    ((Chains.compare l m n).lex fun _ _ ↦ order_chains x y z).lex fun _ _ ↦
      elementsOrder_chains xs ys zs

theorem itemsOrder_chains : (a b c : List SortKey) →
    Chains (itemsOrder a b) (itemsOrder b c) (itemsOrder a c)
  | [], [], _ => .eq_left
  | [], _ :: _, [] => .gt_right
  | [], _ :: _, _ :: _ => .lt_left
  | _ :: _, [], _ => .gt_left
  | _ :: _, _ :: _, [] => .gt_right
  | x :: xs, y :: ys, z :: zs =>
    (order_chains x y z).lex fun _ _ ↦ itemsOrder_chains xs ys zs

end

/-- Stored values are ordered totally by what the order sees of them. -/
instance : Std.TransCmp order where
  eq_swap := order_swap _ _
  isLE_trans := (order_chains _ _ _).isLE

end SortKey

end DocMapping
