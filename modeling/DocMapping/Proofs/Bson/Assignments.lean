import DocMapping.Proofs.Bson.Projection

/-!
# Assignments after Assignments

The second of two assignments at one path wins, and assignments to elements that are there, none of
which lies on the way to the other, may be exchanged.
-/

namespace DocMapping

namespace Document

/-! ## Elements -/

theorem insert_insert (document : Document) (name : String) (first second : Bson) :
    (document.insert name first).insert name second = document.insert name second := by
  induction document with
  | nil => simp [insert]
  | cons element rest ih =>
    obtain ⟨other, old⟩ := element
    by_cases h : name = other
    · simp [insert, h]
    · simp [insert, h, ih]

/-- Only the first of two new elements would be stored before the other. -/
theorem insert_comm {document : Document} {name other : String} (hne : name ≠ other)
    (hname : name ∈ document.names) (first second : Bson) :
    (document.insert name first).insert other second =
      (document.insert other second).insert name first := by
  induction document with
  | nil => cases hname
  | cons element rest ih =>
    obtain ⟨head, old⟩ := element
    by_cases hhead : name = head
    · subst hhead
      simp [insert, hne.symm]
    · have hrest : name ∈ Document.names rest :=
        (List.mem_cons.1 hname).resolve_left hhead
      by_cases hother : other = head
      · subst hother
        simp [insert, hne]
      · simp [insert, hhead, hother, ih hrest]

/-! ## Paths -/

/-- An assignment puts a value into the first element of its path, which depends on that element
alone. -/
theorem assign_eq_insert {value : Bson} {document changed : Document} {name : String}
    {rest : List String} (h : document.assign value (name :: rest) = .ok changed) :
    ∃ stored, changed = document.insert name stored ∧ ∀ other : Document,
      other.get? name = document.get? name →
        other.assign value (name :: rest) = .ok (other.insert name stored) := by
  by_cases hrest : rest = []
  · subst hrest
    cases h
    exact ⟨value, rfl, fun _ _ ↦ rfl⟩
  · obtain ⟨nested, inner, hentered, hinner, rfl⟩ := assign_cons_ok hrest h
    refine ⟨.document inner, rfl, fun other hget ↦ ?_⟩
    have hother : other.entered name = .ok nested := by
      rw [← hentered]
      unfold entered
      rw [hget]
    rw [assign_cons value other name hrest, hother]
    change (nested.assign value rest).map _ = _
    rw [hinner]
    rfl

theorem entered_insert (document : Document) (name : String) (inner : Document) :
    (document.insert name (.document inner)).entered name = .ok inner := by
  unfold entered
  rw [get?_insert, if_pos rfl]

theorem assign_assign {first second : Bson} {document changed : Document} {path : List String}
    (h : document.assign first path = .ok changed) :
    changed.assign second path = document.assign second path := by
  induction path generalizing document changed with
  | nil =>
    cases h
    rfl
  | cons name rest ih =>
    by_cases hrest : rest = []
    · subst hrest
      cases h
      exact congrArg Except.ok (insert_insert document name first second)
    · obtain ⟨nested, inner, hentered, hinner, rfl⟩ := assign_cons_ok hrest h
      rw [assign_cons second _ name hrest, assign_cons second _ name hrest, entered_insert, hentered]
      change (inner.assign second rest).map _ = (nested.assign second rest).map _
      rw [ih hinner]
      simp only [insert_insert]

theorem assign_comm {first second : Bson} {document left right : Document}
    {path other : List String} (hapart : Apart path other) (hpath : (document.lookup path).isSome)
    (hleft : document.assign first path = .ok left)
    (hright : document.assign second other = .ok right) :
    left.assign second other = right.assign first path := by
  induction path generalizing document left right other with
  | nil => exact absurd List.nil_prefix hapart.1
  | cons name rest ih =>
    cases other with
    | nil => exact absurd List.nil_prefix hapart.2
    | cons head tail =>
      rw [apart_cons] at hapart
      by_cases hname : name = head
      · subst hname
        have happart := hapart rfl
        have hrest : rest ≠ [] := fun hnil ↦ happart.1 (hnil ▸ List.nil_prefix)
        have htail : tail ≠ [] := fun hnil ↦ happart.2 (hnil ▸ List.nil_prefix)
        obtain ⟨nested, hnested, hlookup⟩ := nested?_of_lookup hrest hpath
        have hentered := entered_of_nested? hnested
        obtain ⟨_, leftInner, hfirst, hleftInner, rfl⟩ := assign_cons_ok hrest hleft
        obtain ⟨_, rightInner, hsecond, hrightInner, rfl⟩ := assign_cons_ok htail hright
        cases hentered.symm.trans hfirst
        cases hentered.symm.trans hsecond
        rw [assign_cons second _ name htail, assign_cons first _ name hrest, entered_insert,
          entered_insert]
        change (leftInner.assign second tail).map _ = (rightInner.assign first rest).map _
        rw [ih happart hlookup hleftInner hrightInner]
        simp only [insert_insert]
      · obtain ⟨leftStored, rfl, hleftAgain⟩ := assign_eq_insert hleft
        obtain ⟨rightStored, rfl, hrightAgain⟩ := assign_eq_insert hright
        rw [hrightAgain _ (by rw [get?_insert, if_neg (Ne.symm hname)]),
          hleftAgain _ (by rw [get?_insert, if_neg hname]),
          insert_comm hname (mem_names_of_lookup hpath)]

end Document

end DocMapping
