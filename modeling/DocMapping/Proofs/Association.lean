import Mathlib.Data.List.Induction
import Mathlib.Data.List.Nodup
import Mathlib.Data.List.Perm.Subperm

/-!
# Association Lists

Documents, the members of entities and the collections of stores are lists of named values in which
the first entry of a name counts.  Where no name occurs twice, looking a name up and being an entry
of the list are the same.  Where names occur more than once, the values of each have an order, and
the names have their first occurrences.
-/

namespace DocMapping.Association

variable {α β : Type} {l : List (α × β)} {key : α} {value : β}

section Lookup

variable [BEq α] [LawfulBEq α]

theorem lookup_cons [DecidableEq α] (name key : α) (value : β) (rest : List (α × β)) :
    ((name, value) :: rest).lookup key = if key = name then some value else rest.lookup key := by
  by_cases h : key = name
  · simp [h]
  · have hbeq : (key == name) = false := by simpa using h
    rw [List.lookup_cons, hbeq, if_neg h]

theorem mem_of_lookup (h : l.lookup key = some value) : (key, value) ∈ l := by
  obtain ⟨front, back, rfl, -⟩ := List.lookup_eq_some_iff.1 h
  exact List.mem_append_right front List.mem_cons_self

/-- The names of entries that are found. -/
theorem lookup_isSome : (l.lookup key).isSome ↔ key ∈ l.map Prod.fst := by
  rw [List.lookup_isSome_iff, List.mem_map]
  constructor
  · rintro ⟨entry, hmem, hkey⟩
    exact ⟨entry, hmem, (eq_of_beq hkey).symm⟩
  · rintro ⟨entry, hmem, rfl⟩
    exact ⟨entry, hmem, beq_self_eq_true _⟩

theorem lookup_eq_none : l.lookup key = none ↔ key ∉ l.map Prod.fst := by
  rw [← lookup_isSome, Option.not_isSome_iff_eq_none]

/-- Every name has a last entry. -/
theorem exists_lookup_reverse (h : key ∈ l.map Prod.fst) :
    ∃ value, l.reverse.lookup key = some value := by
  refine Option.isSome_iff_exists.1 (lookup_isSome.2 ?_)
  rwa [List.map_reverse, List.mem_reverse]

theorem lookup_of_mem [DecidableEq α] (hnames : (l.map Prod.fst).Nodup) (hmem : (key, value) ∈ l) :
    l.lookup key = some value := by
  induction l with
  | nil => cases hmem
  | cons entry rest ih =>
    obtain ⟨name, first⟩ := entry
    obtain ⟨hfirst, hrest⟩ := List.nodup_cons.1 hnames
    rw [lookup_cons]
    rcases List.mem_cons.1 hmem with heq | hmem
    · cases heq
      exact if_pos rfl
    · have hkey : key ∈ rest.map Prod.fst := List.mem_map_of_mem hmem
      rw [if_neg (fun heq : key = name ↦ hfirst (heq ▸ hkey)), ih hrest hmem]

/-- Of two lists of equal length, the first has an entry for every name of the second if the second
has one for every name of the first; related values stay related. -/
theorem exists_lookup_of_length_eq [DecidableEq α] {γ : Type} {r : β → γ → Prop}
    {others : List (α × γ)} (hnames : (l.map Prod.fst).Nodup)
    (hothers : (others.map Prod.fst).Nodup) (hlength : l.length = others.length)
    (h : ∀ entry ∈ l, ∃ other, others.lookup entry.1 = some other ∧ r entry.2 other) :
    ∀ other ∈ others, ∃ value, l.lookup other.1 = some value ∧ r value other.2 := by
  have hsubset : l.map Prod.fst ⊆ others.map Prod.fst := by
    intro name hname
    obtain ⟨entry, hentry, rfl⟩ := List.mem_map.1 hname
    obtain ⟨other, hother, -⟩ := h entry hentry
    exact List.mem_map_of_mem (mem_of_lookup hother)
  have hperm : (l.map Prod.fst).Perm (others.map Prod.fst) :=
    (List.subperm_of_subset hnames hsubset).perm_of_length_le (by simp [hlength])
  rintro ⟨name, other⟩ hother
  have hname : name ∈ l.map Prod.fst := hperm.mem_iff.2 (List.mem_map_of_mem hother)
  obtain ⟨⟨_, value⟩, hentry, rfl⟩ := List.mem_map.1 hname
  obtain ⟨found, hfound, hr⟩ := h _ hentry
  rw [lookup_of_mem hothers hother] at hfound
  cases hfound
  exact ⟨value, lookup_of_mem hnames hentry, hr⟩

end Lookup

/-! ## Replaced values -/

section Put

variable [DecidableEq α]

/-- The list with a value for a name, in place of the first entry of the name or behind all entries. -/
def put (key : α) (value : β) : List (α × β) → List (α × β)
  | [] => [(key, value)]
  | (other, old) :: rest =>
    if key = other then (key, value) :: rest else (other, old) :: put key value rest

theorem lookup_put [BEq α] [LawfulBEq α] (l : List (α × β)) (key other : α) (value : β) :
    (put key value l).lookup other = if other = key then some value else l.lookup other := by
  induction l with
  | nil => exact lookup_cons key other value []
  | cons entry rest ih =>
    obtain ⟨first, old⟩ := entry
    rw [put]
    split
    · next heq =>
      rw [lookup_cons, lookup_cons, heq]
      split <;> rfl
    · next hne =>
      rw [lookup_cons, lookup_cons, ih]
      by_cases h : other = first
      · have hkey : other ≠ key := fun heq ↦ hne (heq.symm.trans h)
        rw [if_pos h, if_pos h, if_neg hkey]
      · rw [if_neg h, if_neg h]

theorem keys_put (l : List (α × β)) (key : α) (value : β) :
    (put key value l).map Prod.fst =
      if key ∈ l.map Prod.fst then l.map Prod.fst else l.map Prod.fst ++ [key] := by
  induction l with
  | nil => rfl
  | cons entry rest ih =>
    obtain ⟨first, old⟩ := entry
    by_cases h : key = first
    · simp [put, h]
    · simp only [put, h, if_false, List.map_cons, ih, List.mem_cons, false_or]
      split <;> rfl

theorem nodup_put (h : (l.map Prod.fst).Nodup) (key : α) (value : β) :
    ((put key value l).map Prod.fst).Nodup := by
  rw [keys_put]
  split
  · exact h
  · next hkey =>
    refine List.nodup_append.2 ⟨h, List.nodup_singleton key, ?_⟩
    intro a ha b hb hab
    exact hkey (List.mem_singleton.1 hb ▸ hab ▸ ha)

theorem mem_put {entry : α × β} (h : entry ∈ put key value l) :
    entry = (key, value) ∨ entry ∈ l := by
  induction l with
  | nil => exact .inl (List.mem_singleton.1 h)
  | cons first rest ih =>
    unfold put at h
    split at h
    · rcases List.mem_cons.1 h with heq | hrest
      · exact .inl heq
      · exact .inr (List.mem_cons_of_mem _ hrest)
    · rcases List.mem_cons.1 h with heq | hrest
      · exact .inr (heq ▸ List.mem_cons_self)
      · exact (ih hrest).imp id (List.mem_cons_of_mem _)

end Put

/-! ## Values of one name -/

section Values

variable [DecidableEq α]

/-- All values under a name, in order. -/
def valuesOf (key : α) (l : List (α × β)) : List β :=
  (l.filter fun entry ↦ entry.1 = key).map Prod.snd

theorem valuesOf_nil : valuesOf key ([] : List (α × β)) = [] := rfl

theorem valuesOf_cons (name : α) :
    valuesOf key ((name, value) :: l) =
      if name = key then value :: valuesOf key l else valuesOf key l := by
  unfold valuesOf
  rw [List.filter_cons]
  by_cases h : name = key <;> simp [h]

theorem valuesOf_append (others : List (α × β)) :
    valuesOf key (l ++ others) = valuesOf key l ++ valuesOf key others := by
  simp [valuesOf]

theorem valuesOf_map {γ : Type} (f : β → γ) :
    valuesOf key (l.map fun entry ↦ (entry.1, f entry.2)) = (valuesOf key l).map f := by
  simp [valuesOf, List.filter_map, Function.comp_def]

theorem valuesOf_eq_nil (h : key ∉ l.map Prod.fst) : valuesOf key l = [] := by
  unfold valuesOf
  rw [List.filter_eq_nil_iff.2, List.map_nil]
  intro entry hentry hkey
  exact h (List.mem_map.2 ⟨entry, hentry, of_decide_eq_true hkey⟩)

/-- Values that are put together name by name keep their order. -/
theorem valuesOf_flatMap {names : List α} (hnames : names.Nodup) (f : α → List β) :
    valuesOf key (names.flatMap fun name ↦ (f name).map fun value ↦ (name, value)) =
      if key ∈ names then f key else [] := by
  have hgroup (name : α) : valuesOf key ((f name).map fun value ↦ (name, value)) =
      if name = key then f name else [] := by
    unfold valuesOf
    by_cases h : name = key <;> simp [List.filter_map, Function.comp_def, h]
  induction names with
  | nil => rfl
  | cons first rest ih =>
    obtain ⟨hfirst, hrest⟩ := List.nodup_cons.1 hnames
    rw [List.flatMap_cons, valuesOf_append, hgroup, ih hrest]
    by_cases h : first = key
    · subst h
      simp [hfirst]
    · simp [h, Ne.symm h]

end Values

/-! ## First occurrences -/

theorem eraseDups_concat (names : List String) (name : String) :
    (names ++ [name]).eraseDups =
      if name ∈ names.eraseDups then names.eraseDups else names.eraseDups ++ [name] := by
  rw [List.eraseDups_append]
  by_cases h : name ∈ names <;> simp [h, List.removeAll, List.eraseDups_cons]

theorem nodup_eraseDups (names : List String) : names.eraseDups.Nodup := by
  induction names using List.reverseRecOn with
  | nil => exact List.nodup_nil
  | append_singleton names name ih =>
    rw [eraseDups_concat]
    split
    · exact ih
    · next hnew =>
      refine List.nodup_append.2 ⟨ih, List.nodup_singleton name, fun a ha b hb hab ↦ hnew ?_⟩
      rwa [← List.mem_singleton.1 hb, ← hab]

end DocMapping.Association
