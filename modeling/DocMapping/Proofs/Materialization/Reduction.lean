import DocMapping.Proofs.Materialization.Shaping
import DocMapping.Proofs.Planning.Paths
import DocMapping.Proofs.Planning.Sources

/-!
# Materialization of Reduced Documents

A store that answers with the wanted elements only leaves out owners of which nothing wanted is
there.  A value that a whole document has is also the value of the reduced one.  The converse fails
in one way: a required element that is missing in an owner reads as null once the owner is left
out, as if the owner had been missing.
-/

namespace DocMapping

/-! ## Members of reduced documents -/

namespace Target

/-- A member that cannot be null of its own. -/
def isRequired : Target → Bool
  | property _ p => !p.nullable
  | entity _ _ nullable => !nullable
  | ownedCollection _ _ _ => true

/-- The required element is missing in an owner that is there, but not in the reduced document. -/
structure IsForgotten (target : Target) (document reduced : Document) : Prop where
  required : target.isRequired = true
  missing : document.lookup target.path = none
  owned : document.lacksParent target.path = false
  ownerless : reduced.lacksParent target.path = true

end Target

namespace Plan

variable {p : Plan} {document reduced : Document} {target : Target}

/-- A member is read from its element, and from its owners where the element may be missing. -/
theorem readTarget_congr (hne : target.path ≠ [])
    (hlookup : reduced.lookup target.path = document.lookup target.path)
    (hnull : p.nullOr reduced target.path (!target.isRequired) =
      p.nullOr document target.path (!target.isRequired)) :
    p.readTarget reduced target = p.readTarget document target := by
  unfold readTarget
  cases target with
  | property path property =>
    rw [Target.path] at hlookup hnull
    rw [Target.isRequired, Bool.not_not] at hnull
    dsimp only
    rw [hlookup, hnull]
  | entity path t nullable =>
    rw [Target.path] at hlookup hnull hne
    rw [Target.isRequired, Bool.not_not] at hnull
    cases path with
    | nil => exact absurd rfl hne
    | cons name rest =>
      dsimp only
      rw [hlookup, hnull]
  | ownedCollection path t container =>
    rw [Target.path] at hlookup hnull
    rw [Target.isRequired, Bool.not_true] at hnull
    dsimp only
    rw [hlookup, hnull]

/-- A member that is not forgotten reads the same from the reduced document. -/
theorem readTarget_reduced (hpart : reduced.IsPart document) (hne : target.path ≠ [])
    (hlookup : reduced.lookup target.path = document.lookup target.path)
    (hkept : ¬target.IsForgotten document reduced) :
    p.readTarget reduced target = p.readTarget document target := by
  refine readTarget_congr hne hlookup ?_
  unfold nullOr
  cases hrequired : target.isRequired with
  | false => rfl
  | true =>
    suffices howners : reduced.lacksParent target.path = document.lacksParent target.path by
      rw [howners]
    cases howner : document.lacksParent target.path with
    | true => exact hpart.lacksParent howner
    | false =>
      cases hfound : document.lookup target.path with
      | some value => exact Document.lacksParent_of_lookup (hlookup.trans hfound)
      | none =>
        rw [Bool.eq_false_iff]
        exact fun hlacks ↦ hkept ⟨hrequired, hfound, howner, hlacks⟩

/-- A required member that is missing reads as null only if an owner is missing as well. -/
theorem readTarget_required (hne : target.path ≠ []) (hrequired : target.isRequired = true)
    (hmissing : document.lookup target.path = none) :
    p.readTarget document target = p.nullOr document target.path false := by
  unfold readTarget
  cases target with
  | property path property =>
    rw [Target.path] at hmissing ⊢
    rw [Target.isRequired, Bool.not_eq_true'] at hrequired
    dsimp only
    rw [hmissing, hrequired]
  | entity path t nullable =>
    rw [Target.path] at hmissing hne ⊢
    rw [Target.isRequired, Bool.not_eq_true'] at hrequired
    cases path with
    | nil => exact absurd rfl hne
    | cons name rest =>
      dsimp only
      rw [hmissing, hrequired]
  | ownedCollection path t container =>
    rw [Target.path] at hmissing ⊢
    dsimp only
    rw [hmissing]

/-- A member that is forgotten is missing from the whole document. -/
theorem readTarget_forgotten (h : target.IsForgotten document reduced) :
    p.readTarget document target = .error (p.missing target.path) := by
  obtain ⟨hrequired, hmissing, howned, hownerless⟩ := h
  have hne : target.path ≠ [] := fun hnil ↦ by
    rw [hnil] at hownerless
    cases hownerless
  rw [readTarget_required hne hrequired hmissing, nullOr, howned]
  rfl

/-! ## Values of reduced documents -/

/-- A member that the plan reads is forgotten when a document is reduced. -/
def Forgets (p : Plan) (document reduced : Document) : Prop :=
  ∃ place target, p.selection.projection.lookup place = some (.stored target) ∧
    target.IsForgotten document reduced

/-- Without one of the members that its function reads, a plan has no value. -/
theorem exists_error_of_readTarget {f : Lambda}
    (hproject : (⟨f.parameter, p.selection.entity⟩ : Scope).project [] [] f.body =
      .ok (p.shaper, p.selection.projection)) (parameters : Parameters) {place : Place}
    (hlookup : p.selection.projection.lookup place = some (.stored target)) {fault : StoreError}
    (hread : p.readTarget document target = .error fault) :
    ∃ fault, p.materialize parameters document = .error fault := by
  obtain ⟨hvalue, hbound⟩ := materialize_projected hproject parameters document
  rw [hvalue]
  cases hassembled : f.body.assemble (p.readLeaf parameters document) [] with
  | error other => exact ⟨other, rfl⟩
  | ok value =>
    obtain ⟨leaf, hleaf, rfl⟩ := Scope.mem_leaves_of_lookup hbound hlookup
    obtain ⟨found, hfound⟩ := Expression.exists_of_assemble [] f.body hassembled leaf hleaf
    unfold readLeaf readPlace at hfound
    rw [hlookup] at hfound
    dsimp only at hfound
    rw [hread] at hfound
    cases hfound

/-- Reducing a document changes its value only where a member is forgotten, and then the whole
document has none. -/
theorem materialize_reduced (hwell : p.selection.entity.WellFormed)
    (hshapes : p.selection.entity.Shapes p.selection.projection p.shaper) (parameters : Parameters)
    (document : Document) :
    (¬p.Forgets document (p.selection.projection.reduce document) →
      p.materialize parameters (p.selection.projection.reduce document) =
        p.materialize parameters document) ∧
    (p.Forgets document (p.selection.projection.reduce document) →
      ∃ fault, p.materialize parameters document = .error fault) := by
  have hwhole (hpaths : p.selection.projection.paths? = none) :
      p.selection.projection.reduce document = document := by
    unfold Projection.reduce
    rw [hpaths]
  cases hpaths : p.selection.projection.paths? with
  | none =>
    rw [hwhole hpaths]
    refine ⟨fun _ ↦ rfl, ?_⟩
    rintro ⟨place, target, -, hforgotten⟩
    have howned := hforgotten.owned
    rw [hforgotten.ownerless] at howned
    cases howned
  | some paths =>
    obtain ⟨f, hproject⟩ := hshapes.exists_project hpaths
    have hread {place : Place} {target : Target}
        (hlookup : p.selection.projection.lookup place = some (.stored target)) :
        target.path ≠ [] ∧
          (p.selection.projection.reduce document).lookup target.path =
            document.lookup target.path := by
      have hmem := Association.mem_of_lookup hlookup
      exact ⟨(Projection.paths?_eq_some hpaths hmem).1,
        Projection.lookup_reduce document hmem (hshapes.isSound hwell hmem).isAddress⟩
    constructor
    · intro hkept
      rw [(materialize_projected hproject parameters document).1,
        (materialize_projected hproject parameters _).1]
      refine Expression.assemble_congr [] f.body fun leaf _ ↦ ?_
      unfold readLeaf readPlace
      split
      · next target hlookup =>
        obtain ⟨hne, hsame⟩ := hread hlookup
        exact readTarget_reduced (Projection.reduce_isPart _ document) hne hsame fun hforgotten ↦
          hkept ⟨leaf.1, target, hlookup, hforgotten⟩
      · rfl
      · rfl
      · rfl
    · rintro ⟨place, target, hlookup, hforgotten⟩
      exact exists_error_of_readTarget hproject parameters hlookup (readTarget_forgotten hforgotten)

end Plan

/-- Asking a store only for the elements that are read changes the value of a document only by
making null of a required element that is missing in an owner.  A value that the whole document has
is always kept, and the outcomes differ exactly where such an element is forgotten and there is a
value nevertheless. -/
theorem Model.plan_reduced {m : ModelDeclaration} {model : Model} (hmodel : m.build = .ok model)
    {fallback : Bool} {e : Expression} {plan : Plan} (hplan : model.plan fallback e = .ok plan)
    {paths : List String} (hpaths : plan.selection.projection.paths? = some paths)
    (parameters : Parameters) (document : Document) :
    (∀ value, plan.materialize parameters document = .ok value →
      plan.materialize parameters (document.project paths) = .ok value) ∧
    ((plan.materialize parameters (document.project paths)).toOption =
        (plan.materialize parameters document).toOption ↔
      ¬(plan.Forgets document (document.project paths) ∧
        (plan.materialize parameters (document.project paths)).isOk = true)) := by
  obtain ⟨hentity, hshapes⟩ := Model.plan_sound hplan
  have hwell := ModelDeclaration.wellFormed_of_build hmodel _ hentity
  obtain ⟨hkept, hforgets⟩ := Plan.materialize_reduced hwell hshapes parameters document
  have hreduce : plan.selection.projection.reduce document = document.project paths := by
    unfold Projection.reduce
    rw [hpaths]
  rw [hreduce] at hkept hforgets
  by_cases h : plan.Forgets document (document.project paths)
  · obtain ⟨fault, hfault⟩ := hforgets h
    rw [hfault]
    refine ⟨fun value hvalue ↦ (by cases hvalue), ?_⟩
    cases plan.materialize parameters (document.project paths) with
    | error other => exact ⟨fun _ hboth ↦ (by cases hboth.2), fun _ ↦ rfl⟩
    | ok value => exact ⟨fun hsame ↦ (by cases hsame), fun hnot ↦ absurd ⟨h, rfl⟩ hnot⟩
  · rw [hkept h]
    exact ⟨fun _ hvalue ↦ hvalue, fun _ hboth ↦ h hboth.1, fun _ ↦ rfl⟩

namespace Orbits

def number (name : String) : Property := Property.plain name (.scalar .int32)

def declared (name : String) : PropertyDeclaration :=
  ⟨name, .scalar .int32, none, false, .natural, .utc, false, false, .never, false, .eastern⟩

/-- Planets, all of which have an orbit of some days. -/
def planets : ModelDeclaration :=
  ⟨.asDeclared, [⟨"Orbit", true, none, [], [declared "Days"], [], none⟩,
    ⟨"Planet", false, none, ["Id"], [declared "Id"], [⟨"Orbit", "Orbit", none, none, false⟩],
      none⟩]⟩

def orbit : EntityType := ⟨"Orbit", none, [number "Days"], [], [], none⟩

def id : Property := { number "Id" with element := idElement }

def planet : EntityType :=
  ⟨"Planet", some "Planet", [id], [id], [⟨"Orbit", "Orbit", orbit, none, false⟩], none⟩

/-- The days of the orbits of all planets. -/
def days : Expression :=
  .call .select [.entitySet "Planet",
    .lambda "p" (.member (.member (.parameter "p") "Orbit") "Days")]

def plan : Plan :=
  ⟨⟨"Planet", planet, none, [], none, none,
    [([], .stored (.property ["Orbit", "Days"] (number "Days")))]⟩, .place [], .sequence⟩

theorem plan_days : Model.plan ⟨[orbit, planet]⟩ false days = .ok plan := rfl

theorem paths_plan : plan.selection.projection.paths? = some ["Orbit.Days"] := by
  have hdotted : Text.dotted ["Orbit", "Days"] = "Orbit.Days" := by decide
  simp [Projection.paths?, plan, ProjectionBinding.path?, Target.path, hdotted, Projection.dedup,
    Projection.keep]

/-- The document of a planet with some elements in its orbit. -/
def circled (elements : Document) : Document :=
  [(idElement, .int32 1), ("Orbit", .document elements)]

end Orbits

theorem Model.plan_reduced_orbit :
    Orbits.planets.build = .ok ⟨[Orbits.orbit, Orbits.planet]⟩ ∧
      Model.plan ⟨[Orbits.orbit, Orbits.planet]⟩ false Orbits.days = .ok Orbits.plan ∧
      Orbits.plan.selection.projection.paths? = some ["Orbit.Days"] ∧
      Orbits.plan.materialize [] ((Orbits.circled [("Days", .int32 687)]).project ["Orbit.Days"]) =
        .ok (.int32 687) := by
  have hbuild : Orbits.planets.build = .ok ⟨[Orbits.orbit, Orbits.planet]⟩ := rfl
  exact ⟨hbuild, Orbits.plan_days, Orbits.paths_plan,
    (Model.plan_reduced hbuild Orbits.plan_days Orbits.paths_plan [] _).1 _ rfl⟩

/-- The days are missing in an orbit that is there; asked for alone, they read as null. -/
theorem Model.plan_forgets_days :
    Orbits.planets.build = .ok ⟨[Orbits.orbit, Orbits.planet]⟩ ∧
      Model.plan ⟨[Orbits.orbit, Orbits.planet]⟩ false Orbits.days = .ok Orbits.plan ∧
      Orbits.plan.selection.projection.paths? = some ["Orbit.Days"] ∧
      Orbits.plan.materialize [] ((Orbits.circled []).project ["Orbit.Days"]) = .ok .null ∧
      Orbits.plan.materialize [] (Orbits.circled []) =
        .error (.missingElement "Planet" "Orbit.Days") :=
  ⟨rfl, Orbits.plan_days, Orbits.paths_plan, rfl, rfl⟩

end DocMapping
