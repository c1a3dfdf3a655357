import DocMapping.Proofs.Materialization.Evaluation
import DocMapping.Proofs.Materialization.Faults
import DocMapping.Proofs.Planning.Paths
import DocMapping.Proofs.Planning.Sources

/-!
# Self-Contained Plans

A plan binds every place that its shaper reads, however deep in records and arrays, so that whatever
goes wrong with a document is not the fault of the plan.  The paths that it asks a store for are few,
and stand for all that is bound.
-/

namespace DocMapping

/-! ## Places of planned functions -/

namespace Expression

theorem places_leaf (place : Place) {e : Expression}
    (hrecord : ∀ shape fields, e ≠ .record shape fields) (harray : ∀ items, e ≠ .array items) :
    (e.shaper place).places = (e.leaves place).map Prod.fst := by
  have hshaper : e.shaper place = .place place := by
    rw [shaper] <;> assumption
  rw [hshaper, leaves_leaf place hrecord harray]
  rfl

mutual

/-- A planned function is read at the places of its leaves. -/
theorem places_shaper (place : Place) : (e : Expression) →
    (e.shaper place).places = (e.leaves place).map Prod.fst
  | .record shape fields => by
    rw [shaper, Shaper.places, leaves, placesOfFields_shaper place fields]
  | .array items => by
    rw [shaper, Shaper.places, leaves, placesOfItems_shaper place 0 items]
  | .constant _ | .queryParameter _ | .entitySet _ | .parameter _ | .member _ _ | .binary _ _ _
  | .not _ | .call _ _ | .index _ _ | .lambda _ _ => places_leaf place nofun nofun

theorem placesOfFields_shaper (place : Place) : (fields : List (String × Expression)) →
    Shaper.placesOfFields (shaperOfFields place fields) = (leavesOfFields place fields).map Prod.fst
  | [] => rfl
  | (name, e) :: rest => by
    rw [shaperOfFields, Shaper.placesOfFields, leavesOfFields, List.map_append,
      places_shaper (place ++ [name]) e, placesOfFields_shaper place rest]

theorem placesOfItems_shaper (place : Place) (position : Nat) : (items : List Expression) →
    Shaper.placesOfItems (shaperOfItems place position items) =
      (leavesOfItems place position items).map Prod.fst
  | [] => rfl
  | e :: rest => by
    rw [shaperOfItems, Shaper.placesOfItems, leavesOfItems, List.map_append,
      places_shaper (place ++ [toString position]) e, placesOfItems_shaper place (position + 1) rest]

end

end Expression

/-- Binding leaves binds all of their places. -/
theorem Scope.binds_bindLeaves {s : Scope} {bindings bound : Projection}
    {leaves : List (Place × Expression)} (h : s.bindLeaves bindings leaves = .ok bound) :
    bound.Binds (leaves.map Prod.fst) := by
  intro place hplace
  -- Fields of one name share a place, which keeps what the last of them is bound to.
  obtain ⟨last, hlast⟩ := Association.exists_lookup_reverse hplace
  obtain ⟨binding, -, hbinding⟩ := lookup_bindLeaves h hlast
  exact ⟨binding, hbinding⟩

/-- Whatever becomes of the documents of a type, the places for it are bound. -/
theorem EntityType.Shapes.binds {t : EntityType} {projection : Projection} {shaper : Shaper}
    (h : t.Shapes projection shaper) : projection.Binds shaper.places := by
  cases h with
  | whole => exact List.forall_mem_singleton.2 ⟨_, rfl⟩
  | function f => exact nofun
  | projected f hproject =>
    rw [Scope.project_eq] at hproject
    obtain ⟨bound, hbound, hpair⟩ := Outcome.map_eq_ok.1 hproject
    cases hpair
    rw [Expression.places_shaper]
    exact Scope.binds_bindLeaves hbound

/-! ## Plans -/

namespace Model

variable {model : Model} {fallback : Bool} {e : Expression} {plan : Plan}

/-- What goes wrong with a document lies in the document, in the parameters or in a function that is
evaluated, and never in the plan. -/
theorem materialize_raises (h : model.plan fallback e = .ok plan) (parameters : Parameters)
    (document : Document) :
    Outcome.Raises StoreError.OfReading (plan.materialize parameters document) :=
  plan.shape_raises parameters document plan.shaper (plan_sound h).2.binds

/-- Plans are self-contained.  Every place that is read is bound, so that no document meets a place
that is not.  All of the document is asked for only where it is needed, and otherwise the paths of
bindings that stand for all of them. -/
theorem plan_selfContained (h : model.plan fallback e = .ok plan) :
    (∀ place ∈ plan.shaper.places, ∃ binding,
      plan.selection.projection.lookup place = some binding) ∧
    (∀ parameters document member, plan.materialize parameters document ≠
      .error (.operation (.unmappedProjection member))) ∧
    (plan.selection.projection.paths? = none ↔ plan.selection.projection = [] ∨
      ∃ entry ∈ plan.selection.projection, entry.2.path? = some []) ∧
    ∀ paths, plan.selection.projection.paths? = some paths →
      plan.selection.projection.IsCoveredBy paths := by
  refine ⟨(plan_sound h).2.binds, fun parameters document member hunmapped ↦ ?_,
    plan.selection.projection.paths?_eq_none, fun paths ↦ Projection.isCoveredBy_paths?⟩
  have hreading := materialize_raises h parameters document _ hunmapped
  exact hreading.ne_unmappedProjection member rfl

end Model

theorem Model.plan_selfContained_years :
    Model.plan ⟨[Orbits.orbit, Orbits.planet]⟩ false
        (.call .select [.entitySet "Planet", Orbits.years.toExpression]) = .ok Orbits.yearsPlan ∧
      Orbits.yearsPlan.shaper.places = [["Planet"], ["Year", "0"], ["Year", "1"]] ∧
      Orbits.yearsPlan.materialize [] [] ≠ .error (.operation (.unmappedProjection "Year.0")) ∧
      ∃ paths, Orbits.yearsPlan.selection.projection.paths? = some paths ∧
        Orbits.yearsPlan.selection.projection.IsCoveredBy paths := by
  have hplan : Model.plan ⟨[Orbits.orbit, Orbits.planet]⟩ false
      (.call .select [.entitySet "Planet", Orbits.years.toExpression]) = .ok Orbits.yearsPlan := rfl
  obtain ⟨-, hmapped, hwhole, hpaths⟩ := Model.plan_selfContained hplan
  refine ⟨hplan, rfl, hmapped [] [] "Year.0", ?_⟩
  cases hasked : Orbits.yearsPlan.selection.projection.paths? with
  | none =>
    have hneeded := hwhole.1 hasked
    simp [Orbits.yearsPlan, ProjectionBinding.path?, Target.path] at hneeded
  | some paths => exact ⟨paths, rfl, hpaths paths hasked⟩

end DocMapping
