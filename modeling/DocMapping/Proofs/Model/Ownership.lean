import DocMapping.Proofs.Model.Termination
import DocMapping.Proofs.Model.WellFormed
import DocMapping.Proofs.Value.Owned
import Mathlib.Logic.Relation
import Mathlib.Order.WellFounded

/-!
# Ownership

A declaration describes at most one type, whichever types were built before.  So the target of every
navigation of a model is the type that the model has under its name, and since types lie inside of
their owners, no type lies inside of itself.  Declarations that would require it describe no model.
-/

namespace DocMapping

/-- A type of the first name has a navigation to one of the second name. -/
def Model.Leads (model : Model) (owner target : String) : Prop :=
  ∃ t, model.entity? owner = some t ∧ ∃ n ∈ t.navigations, n.target.name = target

namespace ModelDeclaration

/-! ## Types that are described -/

/-- The navigation that a declaration describes, to a type. -/
def navigation (m : ModelDeclaration) (n : NavigationDeclaration) (t : EntityType) :
    Navigation EntityType where
  name := n.name
  element := n.element.getD (m.naming.apply n.name)
  target := t
  container := n.container
  nullable := n.nullable

variable (m : ModelDeclaration)

mutual

/-- The type that a declaration describes. -/
inductive Describes : EntityDeclaration → EntityType → Prop
  | mk {d : EntityDeclaration} {properties keys : List Property}
    {navigations : List (Navigation EntityType)}
    (hproperties : d.buildProperties m.naming = .ok (properties, keys))
    (hnavigations : DescribesAll d.name d.navigations navigations) :
    Describes d ⟨d.name, d.collectionName?, properties, keys, navigations, d.discriminator⟩

/-- The navigations that declarations of an owner describe. -/
inductive DescribesAll : String → List NavigationDeclaration → List (Navigation EntityType) → Prop
  | nil (owner : String) : DescribesAll owner [] []
  | cons {owner : String} {n : NavigationDeclaration} {target : EntityDeclaration} {t : EntityType}
    {rest : List NavigationDeclaration} {navigations : List (Navigation EntityType)}
    (htarget : m.target owner n = .ok target) (ht : Describes target t)
    (hrest : DescribesAll owner rest navigations) :
    DescribesAll owner (n :: rest) (m.navigation n t :: navigations)

end

variable {m}

mutual

theorem Describes.unique {d : EntityDeclaration} {t t' : EntityType} :
    m.Describes d t → m.Describes d t' → t = t'
  | .mk hproperties hnavigations, .mk hproperties' hnavigations' => by
    obtain ⟨rfl, rfl⟩ := Prod.mk.inj (Except.ok.inj (hproperties.symm.trans hproperties'))
    rw [hnavigations.unique hnavigations']

theorem DescribesAll.unique {owner : String} {declared : List NavigationDeclaration}
    {navigations navigations' : List (Navigation EntityType)} :
    m.DescribesAll owner declared navigations → m.DescribesAll owner declared navigations' →
      navigations = navigations'
  | .nil _, .nil _ => rfl
  | .cons htarget ht hrest, .cons htarget' ht' hrest' => by
    obtain rfl := Except.ok.inj (htarget.symm.trans htarget')
    rw [ht.unique ht', hrest.unique hrest']

end

/-- A declared navigation leads to the type that the declaration of its target describes. -/
def LeadsTo (m : ModelDeclaration) (owner : String) (declared : NavigationDeclaration)
    (n : Navigation EntityType) : Prop :=
  ∃ target t, m.target owner declared = .ok target ∧ m.Describes target t ∧
    n = m.navigation declared t

theorem describesAll_iff {owner : String} {declared : List NavigationDeclaration}
    {navigations : List (Navigation EntityType)} :
    m.DescribesAll owner declared navigations ↔
      List.Forall₂ (m.LeadsTo owner) declared navigations := by
  constructor
  · intro h
    induction declared generalizing navigations with
    | nil =>
      cases h
      exact .nil
    | cons n rest ih =>
      cases h with
      | cons htarget ht hrest => exact .cons ⟨_, _, htarget, ht, rfl⟩ (ih hrest)
  · intro h
    induction h with
    | nil => exact .nil owner
    | cons hn _ ih =>
      obtain ⟨target, t, htarget, ht, rfl⟩ := hn
      exact .cons htarget ht ih

namespace Describes

variable {d : EntityDeclaration} {t : EntityType} (h : m.Describes d t)

include h

theorem name : t.name = d.name := by
  cases h
  rfl

theorem navigations : List.Forall₂ (m.LeadsTo d.name) d.navigations t.navigations := by
  cases h with
  | mk _ hnavigations => exact describesAll_iff.1 hnavigations

end Describes

/-! ## Types that are built -/

open Construction

theorem ensures_describes {construct : EntityDeclaration → Construction EntityType}
    (h : ∀ d ∈ m.entities, Ensures (m.Finished m.Describes) (construct d) (m.Describes d))
    (d : EntityDeclaration) :
    Ensures (m.Finished m.Describes) (m.describe construct d) (m.Describes d) := by
  apply Ensures.bind (.lift fun _ hproperties ↦ hproperties)
  rintro ⟨properties, keys⟩ hproperties
  have hnavigation (n : NavigationDeclaration) : Ensures (m.Finished m.Describes)
      (m.buildNavigation construct d.name n) (m.LeadsTo d.name n) := by
    apply Ensures.bind (.lift fun _ htarget ↦ htarget)
    intro target htarget
    apply Ensures.bind (h target (target_ok htarget).1)
    exact fun t ht ↦ .pure ⟨target, t, htarget, ht, rfl⟩
  apply Ensures.bind (.mapM fun n _ ↦ hnavigation n)
  intro navigations hnavigations
  apply Ensures.bind (.lift fun _ hchecked ↦ hchecked)
  exact fun _ _ ↦ .pure (.mk hproperties (describesAll_iff.2 hnavigations))

/-- The types of a model are those that its declarations describe. -/
theorem describes_of_build {model : Model} (h : m.build = .ok model) :
    List.Forall₂ m.Describes m.entities model.entities :=
  forall₂_of_build h (fun _ _ ht ↦ ht.name) fun _ hconstruct d _ ↦ ensures_describes hconstruct d

/-! ## Chains of navigations -/

/-- A declaration of the first name has a navigation to the second name. -/
def Leads (m : ModelDeclaration) (owner target : String) : Prop :=
  ∃ d ∈ m.entities, d.name = owner ∧ ∃ n ∈ d.navigations, n.target = target

/-- A navigation lacks a declaration of its target, or that of an owned type. -/
def Dangles (m : ModelDeclaration) (n : NavigationDeclaration) : Prop :=
  m.entity? n.target = none ∨ ∃ target, m.entity? n.target = some target ∧ target.owned = false

theorem target_name {owner : String} {n : NavigationDeclaration} {d : EntityDeclaration}
    (h : m.target owner n = .ok d) : d.name = n.target ∧ ¬ m.Dangles n := by
  unfold target at h
  split at h
  · cases h
  next found hfound =>
  split at h
  next howned =>
    cases h
    refine ⟨by simpa using List.find?_some hfound, ?_⟩
    rintro (hnone | ⟨other, hother, hroot⟩)
    · cases hfound.symm.trans hnone
    · cases hfound.symm.trans hother
      cases howned.symm.trans hroot
  · cases h

section

variable {model : Model} (h : m.build = .ok model)

include h

/-- Every declared navigation of a model leads to an owned type. -/
theorem not_dangles_of_build {d : EntityDeclaration} (hd : d ∈ m.entities)
    {n : NavigationDeclaration} (hn : n ∈ d.navigations) : ¬ m.Dangles n := by
  obtain ⟨t, -, hdescribes⟩ := Outcome.exists_right (describes_of_build h) hd
  obtain ⟨_, -, target, _, htarget, -⟩ := Outcome.exists_right hdescribes.navigations hn
  exact (target_name htarget).2

/-- The target of a navigation is the type that its declaration describes by itself. -/
theorem target_mem_of_build {t : EntityType} (ht : t ∈ model.entities)
    {n : Navigation EntityType} (hn : n ∈ t.navigations) : n.target ∈ model.entities := by
  obtain ⟨d, -, hdescribes⟩ := Outcome.exists_left (describes_of_build h) ht
  obtain ⟨declared, -, target, t', htarget, ht', rfl⟩ :=
    Outcome.exists_left hdescribes.navigations hn
  obtain ⟨other, hother, hsame⟩ :=
    Outcome.exists_right (describes_of_build h) (target_ok htarget).1
  rwa [hsame.unique ht'] at hother

/-- A model has the navigations that are declared. -/
theorem leads_of_build (owner target : String) :
    model.Leads owner target ↔ m.Leads owner target := by
  constructor
  · rintro ⟨t, ht, n, hn, rfl⟩
    obtain ⟨d, hd, hdescribes⟩ :=
      Outcome.exists_left (describes_of_build h) (List.mem_of_find?_eq_some ht)
    have hname : t.name = owner := by simpa using List.find?_some ht
    obtain ⟨declared, hdeclared, target, t', htarget, ht', rfl⟩ :=
      Outcome.exists_left hdescribes.navigations hn
    exact ⟨d, hd, hdescribes.name.symm.trans hname, declared, hdeclared,
      (ht'.name.trans (target_name htarget).1).symm⟩
  · rintro ⟨d, hd, rfl, declared, hdeclared, rfl⟩
    obtain ⟨t, ht, hdescribes⟩ := Outcome.exists_right (describes_of_build h) hd
    obtain ⟨n, hn, target, t', htarget, ht', rfl⟩ :=
      Outcome.exists_right hdescribes.navigations hdeclared
    refine ⟨t, ?_, _, hn, ht'.name.trans (target_name htarget).1⟩
    rw [← hdescribes.name]
    exact entity?_of_build h t ht

/-- Every chain of navigations ends, as types lie inside of their owners. -/
theorem wellFounded_of_build : WellFounded (Function.swap model.Leads) := by
  have htypes (t : EntityType) : t ∈ model.entities → Acc (Function.swap model.Leads) t.name := by
    induction t using EntityType.owned_induction with
    | h t ih =>
      refine fun ht ↦ .intro _ ?_
      rintro _ ⟨t', ht', n, hn, rfl⟩
      obtain rfl := Option.some.inj (ht'.symm.trans (entity?_of_build h t ht))
      exact ih n hn (target_mem_of_build h ht hn)
  refine ⟨fun name ↦ .intro name ?_⟩
  rintro _ ⟨t, ht, n, hn, rfl⟩
  exact htypes n.target (target_mem_of_build h (List.mem_of_find?_eq_some ht) hn)

theorem acyclic_of_build (name : String) : ¬ Relation.TransGen model.Leads name name := by
  rw [← Relation.transGen_swap]
  exact (wellFounded_of_build h).transGen.irrefl.irrefl name

end

/-- Building ends, because the equation of its recursion has one solution.  The model that is built
has the declared navigations; every one leads to the owned type that the model has under its name, and
no type lies inside of itself.  Declarations with a cycle or with a navigation that leads to no owned
type are at fault. -/
theorem build_ownership (m : ModelDeclaration) :
    ((∃! construct, m.Unfolds construct) ∧
        ∀ construct, m.Unfolds construct → m.build = m.buildWith construct) ∧
      (∀ model, m.build = .ok model →
        (∀ owner target, model.Leads owner target ↔ m.Leads owner target) ∧
          (∀ t ∈ model.entities, ∀ n ∈ t.navigations, n.target.isOwned = true ∧
            model.entity? n.target.name = some n.target) ∧
          ∀ name, ¬ Relation.TransGen model.Leads name name) ∧
      ((∃ name, Relation.TransGen m.Leads name name) ∨
          (∃ d ∈ m.entities, ∃ n ∈ d.navigations, m.Dangles n) →
        ∃ fault, m.build = .error fault) := by
  refine ⟨⟨m.existsUnique_unfolds, fun _ ↦ Unfolds.build_eq⟩,
    fun model h ↦ ⟨leads_of_build h, ?_, acyclic_of_build h⟩, fun hfaulty ↦ ?_⟩
  · exact fun t ht n hn ↦ ⟨(wellFormed_of_build h t ht).owned n hn,
      entity?_of_build h _ (target_mem_of_build h ht hn)⟩
  · cases h : m.build with
    | error fault => exact ⟨fault, rfl⟩
    | ok model =>
      rcases hfaulty with ⟨name, hcycle⟩ | ⟨d, hd, n, hn, hdangles⟩
      · have hleads : m.Leads ≤ model.Leads := fun owner target ↦ (leads_of_build h owner target).2
        exact (acyclic_of_build h name (Relation.TransGen.mono hleads name name hcycle)).elim
      · exact (not_dangles_of_build h hd hn hdangles).elim

/-! ## Satellites -/

namespace Satellites

def declared (name : String) : PropertyDeclaration :=
  ⟨name, .scalar .string, none, false, .natural, .utc, false, false, .never, false, .eastern⟩

/-- The orbits of planets and those of their moons are of one type. -/
def planets : ModelDeclaration :=
  ⟨.asDeclared, [
    ⟨"Planet", false, none, ["Name"], [declared "Name"],
      [⟨"Moons", "Moon", some .list, none, false⟩, ⟨"Orbit", "Orbit", none, none, true⟩], none⟩,
    ⟨"Orbit", true, none, [], [declared "Days"], [], none⟩,
    ⟨"Moon", true, none, [], [], [⟨"Orbit", "Orbit", none, none, false⟩], none⟩]⟩

/-- Moons with moons. -/
def moons : ModelDeclaration :=
  ⟨.asDeclared, [⟨"Moon", true, none, [], [], [⟨"Moons", "Moon", some .list, none, false⟩], none⟩]⟩

end Satellites

theorem build_ownership_satellites :
    (∃ model, Satellites.planets.build = .ok model ∧ model.Leads "Planet" "Moon" ∧
      ¬ Relation.TransGen model.Leads "Moon" "Moon") ∧
      ∃ fault, Satellites.moons.build = .error fault := by
  obtain ⟨model, hmodel⟩ : ∃ model, Satellites.planets.build = .ok model := ⟨_, rfl⟩
  obtain ⟨-, hplanets, -⟩ := build_ownership Satellites.planets
  obtain ⟨-, -, hmoons⟩ := build_ownership Satellites.moons
  obtain ⟨hleads, -, hacyclic⟩ := hplanets model hmodel
  have hplanet : Satellites.planets.Leads "Planet" "Moon" :=
    ⟨_, List.mem_cons_self, rfl, _, List.mem_cons_self, rfl⟩
  have hmoon : Satellites.moons.Leads "Moon" "Moon" :=
    ⟨_, List.mem_cons_self, rfl, _, List.mem_cons_self, rfl⟩
  exact ⟨⟨model, hmodel, (hleads _ _).2 hplanet, hacyclic "Moon"⟩,
    hmoons (.inl ⟨"Moon", .single hmoon⟩)⟩

end ModelDeclaration

end DocMapping
