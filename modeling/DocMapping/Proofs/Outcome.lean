import DocMapping.Error
import Mathlib.Data.List.Forall2

/-!
# Successful Outcomes

A conversion made of several steps succeeds only if every step does.  The equations here take such a
conversion apart into its steps.
-/

namespace DocMapping.Outcome

variable {ε α β γ : Type}

theorem map_eq_ok {f : α → β} {x : Except ε α} {b : β} :
    x.map f = .ok b ↔ ∃ a, x = .ok a ∧ f a = b := by
  cases x with
  | error fault => simp [Except.map]
  | ok a => simp [Except.map]

theorem exists_map_iff {f : α → β} {x : Except ε α} :
    (∃ b, x.map f = .ok b) ↔ ∃ a, x = .ok a := by
  cases x with
  | error fault => simp [Except.map]
  | ok a => simp [Except.map]

theorem bind_eq_ok {x : Except ε α} {f : α → Except ε β} {b : β} :
    x >>= f = .ok b ↔ ∃ a, x = .ok a ∧ f a = .ok b := by
  cases x with
  | error fault => simp [bind, Except.bind]
  | ok a => simp [bind, Except.bind]

theorem mapError_eq_ok {δ : Type} {f : ε → δ} {x : Except ε α} {a : α} :
    x.mapError f = .ok a ↔ x = .ok a := by
  cases x with
  | error fault => simp [Except.mapError]
  | ok a => simp [Except.mapError]

/-- A list is converted item by item. -/
theorem mapM_eq_ok {f : α → Except ε β} {items : List α} {results : List β} :
    items.mapM f = .ok results ↔ List.Forall₂ (fun a b ↦ f a = .ok b) items results := by
  induction items generalizing results with
  | nil =>
    rw [List.mapM_nil, List.forall₂_nil_left_iff]
    exact ⟨fun h ↦ (Except.ok.inj h).symm, fun h ↦ by rw [h]; rfl⟩
  | cons a rest ih =>
    rw [List.mapM_cons, bind_eq_ok, List.forall₂_cons_left_iff]
    constructor
    · rintro ⟨b, hb, htail⟩
      obtain ⟨bs, hbs, hresults⟩ := bind_eq_ok.1 htail
      exact ⟨b, bs, hb, ih.1 hbs, (Except.ok.inj hresults).symm⟩
    · rintro ⟨b, bs, hb, hbs, rfl⟩
      exact ⟨b, hb, bind_eq_ok.2 ⟨bs, ih.2 hbs, rfl⟩⟩

/-- A list passes a check if every item does. -/
theorem forM_eq_ok {f : α → Except ε PUnit} {items : List α} :
    items.forM f = .ok () ↔ ∀ a ∈ items, f a = .ok () := by
  induction items with
  | nil => exact ⟨by simp, fun _ ↦ rfl⟩
  | cons a rest ih =>
    rw [List.forM_eq_forM, List.forM_cons, bind_eq_ok, List.forall_mem_cons, ← ih]
    exact ⟨fun ⟨_, ha, hrest⟩ ↦ ⟨ha, hrest⟩, fun ⟨ha, hrest⟩ ↦ ⟨_, ha, hrest⟩⟩

section

variable {r : α → β → Prop} {items : List α} {results : List β}

theorem exists_right (h : List.Forall₂ r items results) {a : α} (ha : a ∈ items) :
    ∃ b ∈ results, r a b := by
  induction h with
  | nil => cases ha
  | cons hab _ ih =>
    rcases List.mem_cons.1 ha with rfl | hrest
    · exact ⟨_, List.mem_cons_self, hab⟩
    · obtain ⟨b, hb, hresult⟩ := ih hrest
      exact ⟨b, List.mem_cons_of_mem _ hb, hresult⟩

theorem exists_left (h : List.Forall₂ r items results) {b : β} (hb : b ∈ results) :
    ∃ a ∈ items, r a b :=
  exists_right h.flip hb

/-- What holds between all items carries over to their results. -/
theorem pairwise_results {s : α → α → Prop} {t : β → β → Prop} (h : List.Forall₂ r items results)
    (hitems : items.Pairwise s)
    (hst : ∀ a ∈ items, ∀ b ∈ items, ∀ x y, s a b → r a x → r b y → t x y) :
    results.Pairwise t := by
  induction h with
  | nil => exact .nil
  | @cons a x as xs hax hrest ih =>
    obtain ⟨hfirst, hitems⟩ := List.pairwise_cons.1 hitems
    refine List.pairwise_cons.2 ⟨fun y hy ↦ ?_, ih hitems fun a ha b hb ↦
      hst a (List.mem_cons_of_mem _ ha) b (List.mem_cons_of_mem _ hb)⟩
    obtain ⟨b, hb, hby⟩ := exists_left hrest hy
    exact hst a List.mem_cons_self b (List.mem_cons_of_mem _ hb) x y (hfirst b hb) hax hby

theorem exists_getElem? (h : List.Forall₂ r items results) {position : Nat} {a : α}
    (ha : items[position]? = some a) : ∃ b, results[position]? = some b ∧ r a b := by
  induction h generalizing position with
  | nil => cases ha
  | cons hab _ ih =>
    cases position with
    | zero =>
      cases ha
      exact ⟨_, rfl, hab⟩
    | succ position => exact ih ha

/-- Two lists of results of the same items. -/
theorem forall₂_results {s : α → γ → Prop} (h : List.Forall₂ r items results) {others : List γ}
    (hs : List.Forall₂ s items others) :
    List.Forall₂ (fun b c ↦ ∃ a ∈ items, r a b ∧ s a c) results others := by
  induction h generalizing others with
  | nil =>
    cases hs
    exact .nil
  | @cons a b rest bs hab _ ih =>
    cases hs with
    | cons hac hs =>
      refine .cons ⟨a, List.mem_cons_self, hab, hac⟩ ((ih hs).imp ?_)
      rintro b c ⟨a, ha, hboth⟩
      exact ⟨a, List.mem_cons_of_mem _ ha, hboth⟩

theorem map_eq_map (h : List.Forall₂ r items results) {g : β → γ} {k : α → γ}
    (hr : ∀ a b, r a b → g b = k a) : results.map g = items.map k := by
  induction h with
  | nil => rfl
  | cons hab _ ih => rw [List.map_cons, List.map_cons, hr _ _ hab, ih]

end

theorem mem_of_mapM {f : α → Except ε β} {items : List α} {results : List β}
    (h : items.mapM f = .ok results) {a : α} (ha : a ∈ items) :
    ∃ b ∈ results, f a = .ok b :=
  exists_right (mapM_eq_ok.1 h) ha

theorem exists_of_mapM {f : α → Except ε β} {items : List α} {results : List β}
    (h : items.mapM f = .ok results) {b : β} (hb : b ∈ results) :
    ∃ a ∈ items, f a = .ok b :=
  exists_left (mapM_eq_ok.1 h) hb

theorem map_of_mapM {f : α → Except ε β} {items : List α} {results : List β}
    (h : items.mapM f = .ok results) {g : β → γ} {k : α → γ}
    (hf : ∀ a b, f a = .ok b → g b = k a) : results.map g = items.map k :=
  map_eq_map (mapM_eq_ok.1 h) hf

theorem any_of_mapM {f : α → Except ε β} {items : List α} {results : List β}
    (h : items.mapM f = .ok results) {g : β → Bool} {k : α → Bool}
    (hf : ∀ a b, f a = .ok b → g b = k a) : results.any g = items.any k :=
  calc
    results.any g = (results.map g).any id := by rw [List.any_map, Function.id_comp]
    _ = (items.map k).any id := by rw [map_of_mapM h hf]
    _ = items.any k := by rw [List.any_map, Function.id_comp]

/-- A list is converted if every item is. -/
theorem exists_mapM {f : α → Except ε β} {items : List α} (h : ∀ a ∈ items, ∃ b, f a = .ok b) :
    ∃ results, items.mapM f = .ok results := by
  induction items with
  | nil => exact ⟨[], rfl⟩
  | cons a rest ih =>
    obtain ⟨⟨b, hb⟩, hrest⟩ := List.forall_mem_cons.1 h
    obtain ⟨bs, hbs⟩ := ih hrest
    exact ⟨b :: bs, by rw [List.mapM_cons, hb, hbs]; rfl⟩

theorem exists_mapM_iff {f : α → Except ε β} {items : List α} :
    (∃ results, items.mapM f = .ok results) ↔ ∀ a ∈ items, ∃ b, f a = .ok b := by
  refine ⟨?_, exists_mapM⟩
  rintro ⟨results, hresults⟩ a ha
  exact (mem_of_mapM hresults ha).imp fun _ hb ↦ hb.2

/-- A list is read back if every item is. -/
theorem exists_mapM_inverse {f : α → Except ε β} {g : β → Except ε α} {items : List α}
    (h : ∀ a ∈ items, ∃ b, f a = .ok b ∧ g b = .ok a) :
    ∃ results, items.mapM f = .ok results ∧ results.mapM g = .ok items := by
  induction items with
  | nil => exact ⟨[], rfl, rfl⟩
  | cons a rest ih =>
    obtain ⟨⟨b, hb, ha⟩, hrest⟩ := List.forall_mem_cons.1 h
    obtain ⟨bs, hbs, has⟩ := ih hrest
    refine ⟨b :: bs, ?_, ?_⟩
    · rw [List.mapM_cons, hb, hbs]
      rfl
    · rw [List.mapM_cons, ha, has]
      rfl

end DocMapping.Outcome
