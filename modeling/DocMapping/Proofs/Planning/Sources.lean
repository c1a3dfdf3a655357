import DocMapping.Planning
import DocMapping.Proofs.Model.WellFormed
import DocMapping.Proofs.Planning.Projections
import DocMapping.Proofs.Planning.Targets

/-!
# What Plans Read

Whatever every operator keeps holds of every plan.  Operators keep the type that a query reads, and
only a projection decides what becomes of a document.  So every plan reads a type of its model, and
shapes its documents in one of three ways.
-/

namespace DocMapping

/-- How documents of a type become values: as whole entities, by a function that is evaluated here,
or by a function that is planned. -/
inductive EntityType.Shapes (t : EntityType) : Projection → Shaper → Prop
  | whole : Shapes t [([], .stored (.entity [] t false))] (.place [])
  | function (f : Lambda) : Shapes t [] (.function f)
  | projected {projection : Projection} {shaper : Shaper} (f : Lambda)
    (h : (⟨f.parameter, t⟩ : Scope).project [] [] f.body = .ok (shaper, projection)) :
    Shapes t projection shaper

namespace PartialPlan

variable {s s' : PartialPlan} {fallback : Bool} {call : Expression} {arguments : List Expression}

/-- The same type is read, and its documents become the same values. -/
structure SameResults (s' s : PartialPlan) : Prop where
  entity : s'.selection.entity = s.selection.entity
  projection : s'.selection.projection = s.selection.projection
  shaper : s'.shaper = s.shaper

theorem addPredicate_same (s : PartialPlan) (predicate : Predicate) :
    (s.addPredicate predicate).SameResults s := by
  cases predicate with
  | always holds => cases holds <;> exact ⟨rfl, rfl, rfl⟩
  | filter condition => exact ⟨rfl, rfl, rfl⟩

theorem restrictBy_ok {operator : String} {f : Lambda} (h : s.restrictBy operator f = .ok s') :
    ∃ predicate, (s.scope f).predicate f.body = .ok predicate ∧ s' = s.addPredicate predicate := by
  obtain ⟨_, -, h⟩ := Outcome.bind_eq_ok.1 h
  obtain ⟨predicate, hpredicate, h⟩ := Outcome.bind_eq_ok.1 h
  cases h
  exact ⟨predicate, hpredicate, rfl⟩

theorem orderBy_ok {method : Method} {direction : SortDirection}
    (h : s.orderBy method direction call arguments = .ok s') :
    ∃ sort, s' = { s with selection := { s.selection with sort := sort } } := by
  obtain ⟨_, -, h⟩ := Outcome.bind_eq_ok.1 h
  obtain ⟨_, -, h⟩ := Outcome.bind_eq_ok.1 h
  obtain ⟨field, -, h⟩ := Outcome.bind_eq_ok.1 h
  cases h
  exact ⟨[field], rfl⟩

theorem thenBy_ok {method : Method} {direction : SortDirection}
    (h : s.thenBy method direction call arguments = .ok s') :
    ∃ sort, s' = { s with selection := { s.selection with sort := sort } } := by
  obtain ⟨_, -, h⟩ := Outcome.bind_eq_ok.1 h
  dsimp only at h
  split at h
  · cases h
  obtain ⟨_, -, h⟩ := Outcome.bind_eq_ok.1 h
  obtain ⟨field, -, h⟩ := Outcome.bind_eq_ok.1 h
  cases h
  exact ⟨s.selection.sort ++ [field], rfl⟩

theorem skip_ok (h : s.skip call arguments = .ok s') :
    ∃ skip, s' = { s with selection := { s.selection with skip := skip } } := by
  unfold skip at h
  dsimp only at h
  split at h
  · cases h
  obtain ⟨_, -, h⟩ := Outcome.bind_eq_ok.1 h
  obtain ⟨total, -, h⟩ := Outcome.bind_eq_ok.1 h
  split at h <;> cases h <;> exact ⟨_, rfl⟩

theorem take_ok (h : s.take call arguments = .ok s') :
    ∃ limit, s' = { s with selection := { s.selection with limit := limit } } := by
  obtain ⟨_, -, h⟩ := Outcome.bind_eq_ok.1 h
  obtain ⟨total, -, h⟩ := Outcome.bind_eq_ok.1 h
  split at h <;> cases h <;> exact ⟨_, rfl⟩

/-- A projection is the first one, and is asked for from the store or evaluated here. -/
theorem select_ok (h : s.select fallback call arguments = .ok s') :
    s.shaper = none ∧ ∃ f, call.soleLambda arguments = .ok f ∧
      ((f.isIdentity = true ∧ s' = s) ∨
        (∃ shaper projection, (s.scope f).project [] [] f.body = .ok (shaper, projection) ∧
          s' = ⟨{ s.selection with projection := projection }, some shaper⟩) ∨
        s' = ⟨{ s.selection with projection := [] }, some (.function f)⟩) := by
  unfold select at h
  dsimp only at h
  split at h
  · cases h
  next hshaper =>
  refine ⟨by simpa using hshaper, ?_⟩
  obtain ⟨f, hf, h⟩ := Outcome.bind_eq_ok.1 h
  refine ⟨f, hf, ?_⟩
  split at h
  · next hidentity =>
    cases h
    exact .inl ⟨hidentity, rfl⟩
  split at h
  · next shaper projection hproject =>
    cases h
    exact .inr (.inl ⟨shaper, projection, hproject, rfl⟩)
  · split at h
    · cases h
      exact .inr (.inr rfl)
    · cases h

/-- Of what is selected, a projection only changes which parts of it are asked for. -/
theorem select_selection (h : s.select fallback call arguments = .ok s') :
    ∃ projection, s'.selection = { s.selection with projection := projection } := by
  obtain ⟨-, f, -, ⟨-, rfl⟩ | ⟨shaper, projection, -, rfl⟩ | rfl⟩ := select_ok h
  · exact ⟨s'.selection.projection, rfl⟩
  · exact ⟨projection, rfl⟩
  · exact ⟨[], rfl⟩

/-- An operator adds a condition, changes the order or the bounds, or is a projection. -/
theorem apply_ok {method : Method} (h : s.apply fallback method arguments call = .ok s') :
    (∃ f predicate, (s.scope f).predicate f.body = .ok predicate ∧ s' = s.addPredicate predicate) ∨
      (∃ sort skip limit, s' =
        { s with selection := { s.selection with sort := sort, skip := skip, limit := limit } }) ∨
      s.select fallback call arguments = .ok s' := by
  cases method with
  | filter =>
    obtain ⟨_, -, h⟩ := Outcome.bind_eq_ok.1 h
    obtain ⟨f, -, h⟩ := Outcome.bind_eq_ok.1 h
    obtain ⟨predicate, hpredicate, rfl⟩ := restrictBy_ok h
    exact .inl ⟨f, predicate, hpredicate, rfl⟩
  | orderBy | orderByDescending =>
    obtain ⟨sort, rfl⟩ := orderBy_ok h
    exact .inr (.inl ⟨sort, _, _, rfl⟩)
  | thenBy | thenByDescending =>
    obtain ⟨sort, rfl⟩ := thenBy_ok h
    exact .inr (.inl ⟨sort, _, _, rfl⟩)
  | skip =>
    obtain ⟨skip, rfl⟩ := skip_ok h
    exact .inr (.inl ⟨_, skip, _, rfl⟩)
  | take =>
    obtain ⟨limit, rfl⟩ := take_ok h
    exact .inr (.inl ⟨_, _, limit, rfl⟩)
  | select => exact .inr (.inr h)
  | _ => cases h

/-- A property of all documents of a type that stays with a query, whatever operators it has. -/
structure Invariant (model : Model) (fallback : Bool) (motive : PartialPlan → Prop) : Prop where
  documents : ∀ t ∈ model.entities, ∀ selection, t.selection = .ok selection →
    motive ⟨selection, none⟩
  condition : ∀ {s f predicate}, motive s → (s.scope f).predicate f.body = .ok predicate →
    motive (s.addPredicate predicate)
  arrangement : ∀ {s} sort skip limit, motive s →
    motive { s with selection := { s.selection with sort := sort, skip := skip, limit := limit } }
  projection : ∀ {s s' call arguments}, motive s → s.select fallback call arguments = .ok s' →
    motive s'

namespace Invariant

variable {model : Model} {motive : PartialPlan → Prop}

theorem apply (h : Invariant model fallback motive) (hs : motive s) {method : Method}
    (happly : s.apply fallback method arguments call = .ok s') : motive s' := by
  obtain ⟨f, predicate, hpredicate, rfl⟩ | ⟨sort, skip, limit, rfl⟩ | hselect := apply_ok happly
  · exact h.condition hs hpredicate
  · exact h.arrangement sort skip limit hs
  · exact h.projection hs hselect

/-- An invariant holds of every source. -/
theorem source (h : Invariant model fallback motive) : (e : Expression) → {s : PartialPlan} →
    e.source model fallback = .ok s → motive s
  | .entitySet name, s, hsource => by
    rw [Expression.source] at hsource
    split at hsource
    · next t ht =>
      obtain ⟨selection, hselection, rfl⟩ := Outcome.map_eq_ok.1 hsource
      exact h.documents t (List.mem_of_find?_eq_some ht) selection hselection
    · cases hsource
  | .call method [], s, hsource => by
    rw [Expression.source] at hsource
    cases hsource
  | .call method (receiver :: arguments), s, hsource => by
    rw [Expression.source] at hsource
    obtain ⟨before, hbefore, happly⟩ := Outcome.bind_eq_ok.1 hsource
    exact h.apply (h.source receiver hbefore) happly
  | .parameter _, _, hsource | .queryParameter _, _, hsource | .constant _, _, hsource
  | .member _ _, _, hsource | .binary _ _ _, _, hsource | .not _, _, hsource
  | .index _ _, _, hsource | .lambda _ _, _, hsource | .record _ _, _, hsource
  | .array _, _, hsource => by
    rw [Expression.source] at hsource <;> cases hsource

end Invariant

/-- A type of the model is read, and the planner has said how. -/
structure IsSound (model : Model) (s : PartialPlan) : Prop where
  entity : s.selection.entity ∈ model.entities
  shapes : ∀ shaper, s.shaper = some shaper →
    s.selection.entity.Shapes s.selection.projection shaper

theorem IsSound.of_same {model : Model} (h : s.IsSound model) (hsame : s'.SameResults s) :
    s'.IsSound model := by
  obtain ⟨hentity, hprojection, hshaper⟩ := hsame
  refine ⟨?_, ?_⟩
  · rw [hentity]
    exact h.entity
  · rw [hentity, hprojection, hshaper]
    exact h.shapes

theorem IsSound.select {model : Model} (h : s.IsSound model)
    (hselect : s.select fallback call arguments = .ok s') : s'.IsSound model := by
  obtain ⟨-, f, -, ⟨-, rfl⟩ | ⟨shaper, projection, hproject, rfl⟩ | rfl⟩ := select_ok hselect
  · exact h
  · refine ⟨h.entity, fun _ hshaper ↦ ?_⟩
    cases hshaper
    exact .projected f hproject
  · refine ⟨h.entity, fun _ hshaper ↦ ?_⟩
    cases hshaper
    exact .function f

theorem isSound_invariant (model : Model) (fallback : Bool) :
    Invariant model fallback (IsSound model) where
  documents t ht selection hselection := by
    unfold EntityType.selection at hselection
    split at hselection
    · cases hselection
    · cases hselection
      exact ⟨ht, fun shaper hshaper ↦ (by cases hshaper)⟩
  condition h _ := h.of_same (addPredicate_same _ _)
  arrangement _ _ _ h := h.of_same ⟨rfl, rfl, rfl⟩
  projection := IsSound.select

end PartialPlan

/-- The steps of planning. -/
theorem Model.plan_ok {model : Model} {fallback : Bool} {e : Expression} {plan : Plan}
    (h : model.plan fallback e = .ok plan) :
    ∃ sequence terminal condition before s,
      e.splitTerminal = .ok (sequence, terminal, condition) ∧
      sequence.source model fallback = .ok before ∧
      (condition = none ∧ s = before ∨ ∃ f, condition = some f ∧
        before.restrictBy "a terminal predicate" f = .ok s) ∧
      plan = s.finish terminal := by
  obtain ⟨⟨sequence, terminal, condition⟩, hsplit, h⟩ := Outcome.bind_eq_ok.1 h
  obtain ⟨before, hbefore, h⟩ := Outcome.bind_eq_ok.1 h
  dsimp only at h
  cases condition with
  | none =>
    cases h
    exact ⟨sequence, terminal, none, before, before, hsplit, hbefore, .inl ⟨rfl, rfl⟩, rfl⟩
  | some f =>
    obtain ⟨s, hs, h⟩ := Outcome.bind_eq_ok.1 h
    cases h
    exact ⟨sequence, terminal, some f, before, s, hsplit, hbefore, .inr ⟨f, rfl, hs⟩, rfl⟩

/-- An invariant holds of what every plan finishes. -/
theorem PartialPlan.Invariant.plan {model : Model} {fallback : Bool} {motive : PartialPlan → Prop}
    (h : Invariant model fallback motive) {e : Expression} {plan : Plan}
    (hplan : model.plan fallback e = .ok plan) :
    ∃ s terminal, motive s ∧ plan = s.finish terminal := by
  obtain ⟨sequence, terminal, condition, before, s, -, hsource, hcondition, rfl⟩ :=
    Model.plan_ok hplan
  have hbefore := h.source sequence hsource
  refine ⟨s, terminal, ?_, rfl⟩
  obtain ⟨-, rfl⟩ | ⟨f, -, hrestrict⟩ := hcondition
  · exact hbefore
  · obtain ⟨predicate, hpredicate, rfl⟩ := restrictBy_ok hrestrict
    exact h.condition hbefore hpredicate

/-- Every plan reads a type of its model and shapes its documents. -/
theorem Model.plan_sound {model : Model} {fallback : Bool} {e : Expression} {plan : Plan}
    (h : model.plan fallback e = .ok plan) :
    plan.selection.entity ∈ model.entities ∧
      plan.selection.entity.Shapes plan.selection.projection plan.shaper := by
  obtain ⟨s, terminal, hs, rfl⟩ := (PartialPlan.isSound_invariant model fallback).plan h
  unfold PartialPlan.finish
  split
  · exact ⟨hs.entity, .whole⟩
  · exact ⟨hs.entity, .whole⟩
  · exact ⟨hs.entity, .whole⟩
  · exact ⟨hs.entity, .whole⟩
  · next shaper _ _ _ hshaper => exact ⟨hs.entity, hs.shapes shaper hshaper⟩

/-- A planned projection is that of its function, unless the function is evaluated here. -/
theorem Model.plan_select {model : Model} {fallback : Bool} {source : Expression} {f : Lambda}
    {plan : Plan} (h : model.plan fallback (.call .select [source, f.toExpression]) = .ok plan) :
    (⟨f.parameter, plan.selection.entity⟩ : Scope).project [] [] f.body =
      .ok (plan.shaper, plan.selection.projection) ∨ plan.shaper = .function f := by
  obtain ⟨sequence, terminal, condition, before, s, hsplit, hsource, hcondition, rfl⟩ :=
    Model.plan_ok h
  cases hsplit
  obtain ⟨-, rfl⟩ | ⟨_, hnone, -⟩ := hcondition
  · rw [Expression.source] at hsource
    obtain ⟨read, -, hselect⟩ := Outcome.bind_eq_ok.1 hsource
    obtain ⟨hshaper, g, hg, hshaped⟩ := PartialPlan.select_ok hselect
    cases hg
    rcases hshaped with ⟨hidentity, rfl⟩ | ⟨shaper, projection, hproject, rfl⟩ | rfl
    · obtain ⟨x, body⟩ := f
      unfold Lambda.isIdentity at hidentity
      split at hidentity
      · next name hbody =>
        cases hbody
        left
        have hname : name = x := by simpa using hidentity
        unfold PartialPlan.finish
        rw [hshaper, Scope.project, Scope.resolve, if_pos hname]
        · rfl
        all_goals simp
      · cases hidentity
    · exact .inl hproject
    · exact .inr rfl
  · cases hnone

/-! ## Bound members -/

theorem Scope.binding_sound {scope : Scope} (hwell : scope.entity.WellFormed) {e : Expression}
    {target : Target} (h : scope.binding e = .ok (.stored target)) : target.IsSound := by
  unfold Scope.binding at h
  split at h
  · cases h
  · cases h
  · obtain ⟨found, hfound, h⟩ := Outcome.bind_eq_ok.1 h
    split at h
    · cases h
      exact (Scope.resolves_of_resolve e hfound).isSound hwell
    · cases h

/-- What is bound lies where members of the type can lie. -/
theorem EntityType.Shapes.isSound {t : EntityType} {projection : Projection} {shaper : Shaper}
    (h : t.Shapes projection shaper) (hwell : t.WellFormed) {place : Place} {target : Target}
    (hmem : (place, .stored target) ∈ projection) : target.IsSound := by
  cases h with
  | whole =>
    cases List.mem_singleton.1 hmem
    exact ⟨hwell, by simp, .inl rfl⟩
  | function f => cases hmem
  | projected f hproject =>
    rw [Scope.project_eq] at hproject
    obtain ⟨bound, hbound, hpair⟩ := Outcome.map_eq_ok.1 hproject
    cases hpair
    rcases Scope.mem_bindLeaves hbound hmem with hnil | ⟨leaf, -, hleaf⟩
    · cases hnil
    · exact Scope.binding_sound hwell hleaf

/-- Only planned functions ask for parts of documents. -/
theorem EntityType.Shapes.exists_project {t : EntityType} {projection : Projection}
    {shaper : Shaper} (h : t.Shapes projection shaper) {paths : List String}
    (hpaths : projection.paths? = some paths) :
    ∃ f : Lambda, (⟨f.parameter, t⟩ : Scope).project [] [] f.body = .ok (shaper, projection) := by
  cases h with
  | whole => cases hpaths
  | function f => cases hpaths
  | projected f hproject => exact ⟨f, hproject⟩

end DocMapping
