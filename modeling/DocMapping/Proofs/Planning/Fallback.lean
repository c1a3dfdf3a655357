import DocMapping.Proofs.Execution.Terminals
import DocMapping.Proofs.Planning.Sources

/-!
# Projections that Are Evaluated Here

Permission to evaluate a projection here changes nothing about queries that can be planned without
it.  A query that is planned only with it has one projection, and is planned as if it had none: the
store is asked for the same, and the function of the projection is evaluated on the whole entities.
-/

namespace DocMapping

/-! ## Queries without their projections -/

namespace Expression

/-- The function of an operator that is a projection, unless it returns its argument. -/
def projection? (method : Method) (arguments : List Expression) : Option Lambda :=
  match method, arguments with
  | .select, [.lambda argument body] =>
    if (Lambda.mk argument body).isIdentity then none else some ⟨argument, body⟩
  | _, _ => none

/-- The functions of the projections of a query, in the order in which they are applied. -/
def projections : Expression → List Lambda
  | .call method (receiver :: arguments) =>
    projections receiver ++ (projection? method arguments).toList
  | _ => []

/-- The query without its projections. -/
def withoutProjections : Expression → Expression
  | .call method (receiver :: arguments) =>
    match projection? method arguments with
    | some _ => withoutProjections receiver
    | none => .call method (withoutProjections receiver :: arguments)
  | e => e

variable {call other : Expression} {method : Method} {arguments : List Expression}

theorem projection?_of_ne_select (h : method ≠ .select) : projection? method arguments = none := by
  cases method with
  | select => exact absurd rfl h
  | _ => rfl

theorem projection?_lambda (f : Lambda) :
    projection? .select [f.toExpression] = if f.isIdentity then none else some f := rfl

variable {receiver : Expression}

theorem projections_call (h : projection? method arguments = none) :
    (Expression.call method (receiver :: arguments)).projections = receiver.projections := by
  rw [projections, h]
  exact List.append_nil _

theorem withoutProjections_call (h : projection? method arguments = none) :
    (Expression.call method (receiver :: arguments)).withoutProjections =
      .call method (receiver.withoutProjections :: arguments) := by
  rw [withoutProjections, h]

/-! ## Arguments -/

theorem soleArgument_ok {argument : Expression} (h : call.soleArgument arguments = .ok argument) :
    arguments = [argument] := by
  unfold soleArgument at h
  split at h
  · cases h
    rfl
  · cases h

theorem soleLambda_ok {f : Lambda} (h : call.soleLambda arguments = .ok f) :
    arguments = [f.toExpression] := by
  obtain ⟨argument, hargument, h⟩ := Outcome.bind_eq_ok.1 h
  rw [soleArgument_ok hargument]
  split at h
  · cases h
    rfl
  · cases h

/-- A number of documents does not depend on the call that it is an argument of. -/
theorem size_ok {argument : Expression} {count : SizeOperand}
    (h : call.size argument = .ok count) : other.size argument = .ok count := by
  unfold size at h ⊢
  split at h
  · exact h
  · split at h
    · exact h
    · cases h
  · cases h

end Expression

/-! ## Operators -/

namespace PartialPlan

variable {s s' : PartialPlan} {fallback : Bool} {method : Method} {call : Expression}
  {arguments : List Expression}

/-- The plan so far, for whole entities. -/
def unshaped (s : PartialPlan) : PartialPlan := { s with shaper := none }

/-- Only projections decide how documents are shaped. -/
theorem apply_shaping (hmethod : method ≠ .select)
    (h : s.apply fallback method arguments call = .ok s') :
    s'.shaper = s.shaper ∧ s'.selection.projection = s.selection.projection := by
  cases method with
  | select => exact absurd rfl hmethod
  | filter =>
    obtain ⟨_, -, h⟩ := Outcome.bind_eq_ok.1 h
    obtain ⟨f, -, h⟩ := Outcome.bind_eq_ok.1 h
    obtain ⟨predicate, -, rfl⟩ := restrictBy_ok h
    have hsame := s.addPredicate_same predicate
    exact ⟨hsame.shaper, hsame.projection⟩
  | orderBy | orderByDescending =>
    obtain ⟨sort, rfl⟩ := orderBy_ok h
    exact ⟨rfl, rfl⟩
  | thenBy | thenByDescending =>
    obtain ⟨sort, rfl⟩ := thenBy_ok h
    exact ⟨rfl, rfl⟩
  | skip =>
    obtain ⟨skip, rfl⟩ := skip_ok h
    exact ⟨rfl, rfl⟩
  | take =>
    obtain ⟨limit, rfl⟩ := take_ok h
    exact ⟨rfl, rfl⟩
  | _ => cases h

/-- A projection is the only operator that permission is asked for. -/
theorem apply_eq (hmethod : method ≠ .select) (other : Bool) :
    s.apply other method arguments call = s.apply fallback method arguments call := by
  cases method with
  | select => exact absurd rfl hmethod
  | _ => rfl

theorem select_eq (hshaper : s.shaper = none) (f : Lambda) :
    s.select fallback call [f.toExpression] =
      if f.isIdentity then .ok s
      else
        match (s.scope f).project [] [] f.body with
        | .ok (shaper, projection) =>
          .ok ⟨{ s.selection with projection := projection }, some shaper⟩
        | .error fault =>
          if fallback then .ok ⟨{ s.selection with projection := [] }, some (.function f)⟩
          else .error (.planning fault) := by
  have hlambda : call.soleLambda [f.toExpression] = .ok f := rfl
  unfold select
  rw [hshaper, hlambda]
  change (if f.isIdentity = true then _ else _) = _
  cases f.isIdentity with
  | true => rfl
  | false =>
    cases (s.scope f).project [] [] f.body with
    | ok result => rfl
    | error fault => cases fallback <;> rfl

/-- A projection is planned as without permission, or it cannot be and is evaluated here. -/
theorem select_cases (s : PartialPlan) (call : Expression) (arguments : List Expression) :
    s.select true call arguments = s.select false call arguments ∨
      (∃ fault, s.select false call arguments = .error fault) ∧ s.shaper = none ∧
        ∃ f, arguments = [f.toExpression] ∧ f.isIdentity = false ∧
          s.select true call arguments =
            .ok ⟨{ s.selection with projection := [] }, some (.function f)⟩ := by
  cases hshaper : s.shaper with
  | some shaper =>
    left
    unfold select
    rw [hshaper]
    rfl
  | none =>
    cases hf : call.soleLambda arguments with
    | error fault =>
      left
      unfold select
      rw [hshaper, hf]
      rfl
    | ok f =>
      obtain rfl := Expression.soleLambda_ok hf
      rw [select_eq hshaper, select_eq hshaper]
      cases hidentity : f.isIdentity with
      | true => exact .inl rfl
      | false =>
        cases (s.scope f).project [] [] f.body with
        | ok result => exact .inl rfl
        | error fault => exact .inr ⟨⟨.planning fault, rfl⟩, rfl, f, rfl, hidentity, rfl⟩

/-- Permission does not change what is planned without it. -/
theorem apply_permitted (h : s.apply false method arguments call = .ok s') :
    s.apply true method arguments call = .ok s' := by
  by_cases hmethod : method = .select
  · subst hmethod
    change s.select true call arguments = .ok s'
    rcases s.select_cases call arguments with hsame | ⟨⟨fault, hfault⟩, -⟩
    · rw [hsame]
      exact h
    · cases hfault.symm.trans h
  · rw [apply_eq hmethod, h]

theorem not_ensureOpen {shaper : Shaper} (hshaper : s.shaper = some shaper) {operator : String} :
    s.ensureOpen operator ≠ .ok () := by
  unfold ensureOpen closed?
  rw [hshaper]
  rintro ⟨⟩

theorem skip_unshaped (h : s.skip call arguments = .ok s') (other : Expression) :
    s.unshaped.skip other arguments = .ok s'.unshaped := by
  obtain ⟨selection, shaper⟩ := s
  change PartialPlan.skip ⟨selection, none⟩ other arguments = _
  unfold skip at h ⊢
  dsimp only at h ⊢
  split at h
  · cases h
  next hlimit =>
  rw [if_neg hlimit]
  obtain ⟨argument, hargument, hcounted⟩ := Outcome.bind_eq_ok.1 h
  obtain ⟨count, hcount, htotal⟩ := Outcome.bind_eq_ok.1 hcounted
  obtain rfl := Expression.soleArgument_ok hargument
  apply Outcome.bind_eq_ok.2
  refine ⟨argument, rfl, Outcome.bind_eq_ok.2 ⟨count, Expression.size_ok hcount, ?_⟩⟩
  cases hskip : selection.skip with
  | none =>
    rw [hskip] at htotal
    cases htotal
    rfl
  | some first =>
    rw [hskip] at htotal
    cases first <;> cases count <;> cases htotal
    rfl

theorem take_unshaped (h : s.take call arguments = .ok s') (other : Expression) :
    s.unshaped.take other arguments = .ok s'.unshaped := by
  obtain ⟨selection, shaper⟩ := s
  change PartialPlan.take ⟨selection, none⟩ other arguments = _
  obtain ⟨argument, hargument, hcounted⟩ := Outcome.bind_eq_ok.1 h
  obtain ⟨count, hcount, htotal⟩ := Outcome.bind_eq_ok.1 hcounted
  obtain rfl := Expression.soleArgument_ok hargument
  apply Outcome.bind_eq_ok.2
  refine ⟨argument, rfl, Outcome.bind_eq_ok.2 ⟨count, Expression.size_ok hcount, ?_⟩⟩
  dsimp only at htotal ⊢
  cases hlimit : selection.limit with
  | none =>
    rw [hlimit] at htotal
    cases htotal
    rfl
  | some first =>
    rw [hlimit] at htotal
    cases first <;> cases count <;> cases htotal
    rfl

/-- No condition follows a projection. -/
theorem not_restrictBy {shaper : Shaper} (hshaper : s.shaper = some shaper) {operator : String}
    {f : Lambda} : s.restrictBy operator f ≠ .ok s' := by
  intro h
  obtain ⟨_, hopen, -⟩ := Outcome.bind_eq_ok.1 h
  exact not_ensureOpen hshaper hopen

/-- Behind a projection documents are only counted off, which does not depend on how they are
shaped. -/
theorem apply_shaped {shaper : Shaper} (hshaper : s.shaper = some shaper)
    (h : s.apply fallback method arguments call = .ok s') :
    method ≠ .select ∧
      ∀ other, s.unshaped.apply false method arguments other = .ok s'.unshaped := by
  cases method with
  | select =>
    obtain ⟨hnone, -⟩ := select_ok h
    cases hshaper.symm.trans hnone
  | filter | orderBy | orderByDescending | thenBy | thenByDescending =>
    obtain ⟨_, hopen, -⟩ := Outcome.bind_eq_ok.1 h
    exact (not_ensureOpen hshaper hopen).elim
  | skip => exact ⟨by simp, skip_unshaped h⟩
  | take => exact ⟨by simp, take_unshaped h⟩
  | _ => cases h

/-- An operator that leaves documents whole is no projection and is applied to whole documents. -/
theorem apply_unshaped (h : s.apply fallback method arguments call = .ok s')
    (hshaper : s'.shaper = none) :
    Expression.projection? method arguments = none ∧ s.shaper = none ∧
      s'.selection.projection = s.selection.projection := by
  by_cases hmethod : method = .select
  · subst hmethod
    obtain ⟨hwhole, f, hf, ⟨hidentity, rfl⟩ | ⟨_, _, -, rfl⟩ | rfl⟩ := select_ok h
    · rw [Expression.soleLambda_ok hf, Expression.projection?_lambda, if_pos hidentity]
      exact ⟨rfl, hwhole, rfl⟩
    · cases hshaper
    · cases hshaper
  · obtain ⟨hsame, hprojection⟩ := apply_shaping hmethod h
    exact ⟨Expression.projection?_of_ne_select hmethod, hsame.symm.trans hshaper, hprojection⟩

end PartialPlan

/-! ## Sources -/

namespace Expression

variable {model : Model}

/-- A source that leaves documents whole has no projections. -/
theorem source_unshaped {fallback : Bool} : (e : Expression) → {s : PartialPlan} →
    e.source model fallback = .ok s → s.shaper = none →
    e.projections = [] ∧ e.withoutProjections = e ∧ s.selection.projection = []
  | .entitySet name, s, h, _ => by
    rw [source] at h
    split at h
    · obtain ⟨selection, hselection, rfl⟩ := Outcome.map_eq_ok.1 h
      unfold EntityType.selection at hselection
      split at hselection <;> cases hselection
      exact ⟨rfl, rfl, rfl⟩
    · cases h
  | .call method [], s, h, _ => by
    rw [source] at h
    cases h
  | .call method (receiver :: arguments), s, h, hshaper => by
    rw [source] at h
    obtain ⟨before, hbefore, happly⟩ := Outcome.bind_eq_ok.1 h
    obtain ⟨hnone, hwhole, hprojection⟩ := PartialPlan.apply_unshaped happly hshaper
    obtain ⟨hprojections, hwithout, hempty⟩ := source_unshaped receiver hbefore hwhole
    refine ⟨?_, ?_, hprojection.trans hempty⟩
    · rw [projections_call hnone, hprojections]
    · rw [withoutProjections_call hnone, hwithout]
  | .parameter _, _, h, _ | .queryParameter _, _, h, _ | .constant _, _, h, _
  | .member _ _, _, h, _ | .binary _ _ _, _, h, _ | .not _, _, h, _ | .index _ _, _, h, _
  | .lambda _ _, _, h, _ | .record _ _, _, h, _ | .array _, _, h, _ => by
    rw [source] at h <;> cases h

/-- Permission does not change what is planned without it. -/
theorem source_permitted : (e : Expression) → {s : PartialPlan} →
    e.source model false = .ok s → e.source model true = .ok s
  | .call method (receiver :: arguments), s, h => by
    rw [source] at h ⊢
    obtain ⟨before, hbefore, happly⟩ := Outcome.bind_eq_ok.1 h
    exact Outcome.bind_eq_ok.2
      ⟨before, source_permitted receiver hbefore, PartialPlan.apply_permitted happly⟩
  | .entitySet _, _, h => h
  | .call _ [], _, h | .parameter _, _, h | .queryParameter _, _, h | .constant _, _, h
  | .member _ _, _, h | .binary _ _ _, _, h | .not _, _, h | .index _ _, _, h
  | .lambda _ _, _, h | .record _ _, _, h | .array _, _, h => by
    rw [source] at h <;> cases h

/-- The plan so far of a source evaluates its only projection here, and is otherwise that of the
source without it. -/
structure FallsBack (model : Model) (e : Expression) (f : Lambda) (s : PartialPlan) : Prop where
  projections : e.projections = [f]
  computed : f.isIdentity = false
  shaper : s.shaper = some (.function f)
  projection : s.selection.projection = []
  whole : e.withoutProjections.source model false = .ok s.unshaped

/-- What falls back at a projection. -/
theorem FallsBack.select {receiver : Expression} {before s : PartialPlan}
    {arguments : List Expression} (hbefore : receiver.source model false = .ok before)
    (hshaper : before.shaper = none) {f : Lambda} (harguments : arguments = [f.toExpression])
    (hcomputed : f.isIdentity = false)
    (hs : s = ⟨{ before.selection with projection := [] }, some (.function f)⟩) :
    (Expression.call .select (receiver :: arguments)).FallsBack model f s := by
  subst harguments hs
  obtain ⟨hprojections, hwithout, hempty⟩ := source_unshaped receiver hbefore hshaper
  have hprojection : projection? .select [f.toExpression] = some f := by
    rw [projection?_lambda, hcomputed]
    rfl
  refine ⟨?_, hcomputed, rfl, rfl, ?_⟩
  · rw [Expression.projections, hprojections, hprojection]
    rfl
  · rw [withoutProjections, hprojection]
    dsimp only
    rw [hwithout, hbefore]
    obtain ⟨selection, shaper⟩ := before
    cases hshaper
    cases selection
    cases hempty
    rfl

/-- What falls back before an operator does so behind it. -/
theorem FallsBack.apply {receiver : Expression} {before s : PartialPlan} {f : Lambda}
    (h : receiver.FallsBack model f before) {fallback : Bool} {method : Method}
    {arguments : List Expression} {call : Expression}
    (happly : before.apply fallback method arguments call = .ok s) :
    (Expression.call method (receiver :: arguments)).FallsBack model f s := by
  obtain ⟨hmethod, hunshaped⟩ := PartialPlan.apply_shaped h.shaper happly
  obtain ⟨hshaper, hprojection⟩ := PartialPlan.apply_shaping hmethod happly
  have hnone : projection? method arguments = none := projection?_of_ne_select hmethod
  refine ⟨?_, h.computed, hshaper.trans h.shaper, hprojection.trans h.projection, ?_⟩
  · rw [projections_call hnone, h.projections]
  · rw [withoutProjections_call hnone, source]
    exact Outcome.bind_eq_ok.2 ⟨before.unshaped, h.whole, hunshaped _⟩

/-- A source that is planned with permission needs none, or falls back at one projection. -/
theorem source_fallback : (e : Expression) → {s : PartialPlan} → e.source model true = .ok s →
    e.source model false = .ok s ∨ ∃ f, e.FallsBack model f s
  | .call method (receiver :: arguments), s, h => by
    rw [source] at h ⊢
    obtain ⟨before, hbefore, happly⟩ := Outcome.bind_eq_ok.1 h
    rcases source_fallback receiver hbefore with hplanned | ⟨f, hfalls⟩
    · by_cases hmethod : method = .select
      · subst hmethod
        rcases before.select_cases (.call .select (receiver :: arguments)) arguments with
          hsame | ⟨-, hshaper, f, harguments, hf, hselect⟩
        · have hwithout := hsame.symm.trans happly
          exact .inl (Outcome.bind_eq_ok.2 ⟨before, hplanned, hwithout⟩)
        · have hs := Except.ok.inj (happly.symm.trans hselect)
          exact .inr ⟨f, .select hplanned hshaper harguments hf hs⟩
      · have hwithout := (PartialPlan.apply_eq hmethod false).trans happly
        exact .inl (Outcome.bind_eq_ok.2 ⟨before, hplanned, hwithout⟩)
    · exact .inr ⟨f, hfalls.apply happly⟩
  | .entitySet _, _, h => .inl h
  | .call _ [], _, h | .parameter _, _, h | .queryParameter _, _, h | .constant _, _, h
  | .member _ _, _, h | .binary _ _ _, _, h | .not _, _, h | .index _ _, _, h
  | .lambda _ _, _, h | .record _ _, _, h | .array _, _, h => by
    rw [source] at h <;> cases h

/-- A query without a last condition is a source, or what a method makes of one. -/
theorem splitTerminal_ok {e sequence : Expression} {terminal : Terminal}
    (h : e.splitTerminal = .ok (sequence, terminal, none)) :
    e = sequence ∧ terminal = .sequence ∨
      ∃ method, terminal? method = some terminal ∧ e = .call method [sequence] := by
  unfold splitTerminal at h
  split at h
  · next method arguments =>
    cases hterminal : terminal? method with
    | none =>
      rw [hterminal] at h
      cases h
      exact .inl ⟨rfl, rfl⟩
    | some found =>
      rw [hterminal] at h
      dsimp only at h
      split at h <;> cases h
      exact .inr ⟨method, hterminal, rfl⟩
  · cases h
    exact .inl ⟨rfl, rfl⟩

end Expression

/-! ## Plans -/

/-- Terminals that no document is shaped for. -/
def Terminal.counting : List Terminal := [.any, .count, .longCount]

/-- The plan asks for what the plan of whole entities asks for.  Where documents are shaped, the
function is evaluated on the entities. -/
structure Plan.Defers (p whole : Plan) (f : Lambda) : Prop where
  terminal : p.terminal = whole.terminal
  selection : { p.selection with projection := whole.selection.projection } = whole.selection
  queries : ∀ parameters cap,
    p.selection.toQuery parameters cap = whole.selection.toQuery parameters cap
  entities : ∀ parameters document, whole.materialize parameters document =
    (whole.selection.entity.decode document).map Entity.toValue
  counted : p.terminal ∈ Terminal.counting → p = whole
  shaped : p.terminal ∉ Terminal.counting →
    p.shaper = .function f ∧ p.selection.projection = [] ∧
      ∀ parameters document, p.materialize parameters document =
        (whole.materialize parameters document).bind (f.evaluate parameters)

namespace PartialPlan

variable (s : PartialPlan)

theorem finish_unshaped (terminal : Terminal) : s.unshaped.finish terminal =
    ⟨{ s.selection with projection := s.wholeEntity }, .place [], terminal⟩ := by
  cases terminal <;> rfl

theorem finish_counting {terminal : Terminal} (h : terminal ∈ Terminal.counting) :
    s.finish terminal = s.unshaped.finish terminal := by
  rw [finish_unshaped]
  cases terminal with
  | any | count | longCount => rfl
  | _ => simp [Terminal.counting] at h

theorem finish_shaping {shaper : Shaper} (hshaper : s.shaper = some shaper) {terminal : Terminal}
    (h : terminal ∉ Terminal.counting) : s.finish terminal = ⟨s.selection, shaper, terminal⟩ := by
  unfold finish
  rw [hshaper]
  cases terminal with
  | any | count | longCount => simp [Terminal.counting] at h
  | _ => rfl

theorem materialize_unshaped (terminal : Terminal) (parameters : Parameters) (document : Document) :
    (s.unshaped.finish terminal).materialize parameters document =
      (s.selection.entity.decode document).map Entity.toValue := by
  rw [finish_unshaped]
  rfl

/-- The plan that evaluates a function here defers it. -/
theorem finish_defers {f : Lambda} (hshaper : s.shaper = some (.function f))
    (hprojection : s.selection.projection = []) (terminal : Terminal) :
    (s.finish terminal).Defers (s.unshaped.finish terminal) f := by
  have hentities := s.materialize_unshaped terminal
  have hterminal := s.finish_terminal terminal
  by_cases hcounting : terminal ∈ Terminal.counting
  · rw [s.finish_counting hcounting] at hterminal ⊢
    refine ⟨rfl, rfl, fun _ _ ↦ rfl, fun parameters document ↦ ?_, fun _ ↦ rfl, fun h ↦ ?_⟩
    · rw [hentities, finish_unshaped]
    · rw [hterminal] at h
      exact (h hcounting).elim
  · rw [s.finish_shaping hshaper hcounting]
    refine ⟨?_, ?_, fun parameters cap ↦ ?_, fun parameters document ↦ ?_,
      fun h ↦ (hcounting h).elim, fun _ ↦ ⟨rfl, hprojection, fun parameters document ↦ ?_⟩⟩
    · rw [finish_unshaped]
    · rw [finish_unshaped]
    · rw [finish_unshaped]
      unfold Selection.toQuery
      rw [hprojection]
      rfl
    · rw [hentities, finish_unshaped]
    · rw [hentities]
      unfold Plan.materialize
      rw [Plan.shape]
      cases s.selection.entity.decode document <;> rfl

end PartialPlan

namespace Model

variable {model : Model} {e : Expression}

/-- A query is planned once its source and the last condition on it are. -/
theorem plan_of_steps {fallback : Bool} {sequence : Expression} {terminal : Terminal}
    {condition : Option Lambda} {before s : PartialPlan}
    (hsplit : e.splitTerminal = .ok (sequence, terminal, condition))
    (hbefore : sequence.source model fallback = .ok before)
    (hcondition : condition = none ∧ s = before ∨ ∃ f, condition = some f ∧
      before.restrictBy "a terminal predicate" f = .ok s) :
    model.plan fallback e = .ok (s.finish terminal) := by
  refine Outcome.bind_eq_ok.2 ⟨_, hsplit, Outcome.bind_eq_ok.2 ⟨before, hbefore, ?_⟩⟩
  obtain ⟨rfl, rfl⟩ | ⟨f, rfl, hrestrict⟩ := hcondition
  · rfl
  · exact Outcome.bind_eq_ok.2 ⟨s, hrestrict, rfl⟩

/-- Permission does not change what is planned without it. -/
theorem plan_permitted {p : Plan} (h : model.plan false e = .ok p) : model.plan true e = .ok p := by
  obtain ⟨sequence, terminal, condition, before, s, hsplit, hbefore, hcondition, rfl⟩ := plan_ok h
  exact plan_of_steps hsplit (sequence.source_permitted hbefore) hcondition

/-- A query that is planned with permission needs none, or its source falls back at one
projection. -/
theorem plan_cases {p : Plan} (h : model.plan true e = .ok p) :
    model.plan false e = .ok p ∨ ∃ sequence terminal f s,
      e.splitTerminal = .ok (sequence, terminal, none) ∧ sequence.FallsBack model f s ∧
        p = s.finish terminal := by
  obtain ⟨sequence, terminal, condition, before, s, hsplit, hbefore, hcondition, rfl⟩ := plan_ok h
  rcases sequence.source_fallback hbefore with hplanned | ⟨f, hfalls⟩
  · exact .inl (plan_of_steps hsplit hplanned hcondition)
  · obtain ⟨rfl, rfl⟩ | ⟨g, -, hrestrict⟩ := hcondition
    · exact .inr ⟨sequence, terminal, f, s, hsplit, hfalls, rfl⟩
    · exact (PartialPlan.not_restrictBy hfalls.shaper hrestrict).elim

/-- The query without its projections is planned as its source is. -/
theorem plan_withoutProjections {sequence : Expression} {terminal : Terminal} {f : Lambda}
    {s : PartialPlan} (hsplit : e.splitTerminal = .ok (sequence, terminal, none))
    (hfalls : sequence.FallsBack model f s) :
    e.projections = [f] ∧ model.plan false e.withoutProjections = .ok (s.unshaped.finish terminal) := by
  obtain ⟨rfl, rfl⟩ | ⟨method, hterminal, rfl⟩ := Expression.splitTerminal_ok hsplit
  · exact ⟨hfalls.projections, Model.plan_of_source hfalls.whole⟩
  · have hnone : Expression.projection? method [] = none := by
      cases method <;> rfl
    rw [Expression.projections_call hnone, Expression.withoutProjections_call hnone]
    exact ⟨hfalls.projections, Model.plan_call hfalls.whole hterminal⟩

/-- Permission to evaluate projections here does not change the plans of queries that are planned
without it.  A query that is planned only with it has one projection, and is planned as without this
projection, but for the function of the projection. -/
theorem plan_fallback (model : Model) (e : Expression) :
    (∀ p, model.plan false e = .ok p → model.plan true e = .ok p) ∧
      ∀ p fault, model.plan true e = .ok p → model.plan false e = .error fault →
        ∃ f whole, e.projections = [f] ∧ f.isIdentity = false ∧
          model.plan false e.withoutProjections = .ok whole ∧ p.Defers whole f := by
  refine ⟨fun p h ↦ plan_permitted h, fun p fault h hfault ↦ ?_⟩
  rcases plan_cases h with hplanned | ⟨sequence, terminal, f, s, hsplit, hfalls, rfl⟩
  · rw [hfault] at hplanned
    cases hplanned
  · obtain ⟨hprojections, hwhole⟩ := plan_withoutProjections hsplit hfalls
    exact ⟨f, s.unshaped.finish terminal, hprojections, hfalls.computed, hwhole,
      s.finish_defers hfalls.shaper hfalls.projection terminal⟩

end Model

/-! ## Lamps that are out -/

namespace Lamps

/-- Whether a lamp is out, which no store can be asked for. -/
def out : Lambda := ⟨"l", .not (.member (.parameter "l") "Lit")⟩

def firstOut : Expression :=
  .call .first [.call .select [.entitySet "Lamp", out.toExpression]]

end Lamps

/-- Whether the first lamp is out is found out from the first lamp. -/
theorem Model.plan_fallback_lamps :
    ∃ p fault whole, Model.plan ⟨[Lamps.lamp]⟩ true Lamps.firstOut = .ok p ∧
      Model.plan ⟨[Lamps.lamp]⟩ false Lamps.firstOut = .error fault ∧
      Model.plan ⟨[Lamps.lamp]⟩ false (.call .first [.entitySet "Lamp"]) = .ok whole ∧
      p.Defers whole Lamps.out ∧
      p.materialize [] [(idElement, .int64 1), ("Lit", .boolean false)] = .ok (.bool true) := by
  obtain ⟨p, hp⟩ : ∃ p, Model.plan ⟨[Lamps.lamp]⟩ true Lamps.firstOut = .ok p := ⟨_, rfl⟩
  obtain ⟨fault, hfault⟩ :
      ∃ fault, Model.plan ⟨[Lamps.lamp]⟩ false Lamps.firstOut = .error fault := ⟨_, rfl⟩
  obtain ⟨f, whole, hprojections, -, hwhole, hdefers⟩ :=
    (Model.plan_fallback ⟨[Lamps.lamp]⟩ Lamps.firstOut).2 p fault hp hfault
  obtain rfl : Lamps.out = f := by
    cases hprojections
    rfl
  refine ⟨p, fault, whole, hp, hfault, hwhole, hdefers, ?_⟩
  cases hp
  rfl

end DocMapping
