import DocMapping.Model
import DocMapping.Proofs.Outcome
import Mathlib.Data.List.Nodup

/-!
# Constructing Types

A construction keeps the types that are built.  Every type is built in one step from the types that
its navigations lead to, so that whatever holds of a type if it holds of these types holds of all
types of a model.
-/

namespace DocMapping.ModelDeclaration

/-! ## Constructions -/

namespace Construction

variable {α β : Type} {invariant : List EntityType → Prop}

/-- A construction that succeeds keeps the invariant, and its result is as promised. -/
def Ensures (invariant : List EntityType → Prop) (x : Construction α) (post : α → Prop) : Prop :=
  ∀ built a built', invariant built → x.run built = .ok (a, built') → invariant built' ∧ post a

theorem Ensures.pure {post : α → Prop} {a : α} (h : post a) :
    Ensures invariant (Pure.pure a) post := by
  intro built b built' hbuilt hrun
  cases hrun
  exact ⟨hbuilt, h⟩

theorem Ensures.throw {post : α → Prop} (fault : ConfigurationFault) :
    Ensures invariant (MonadExcept.throw fault) post := by
  intro built b built' hbuilt hrun
  cases hrun

theorem Ensures.bind {x : Construction α} {f : α → Construction β} {middle : α → Prop}
    {post : β → Prop} (hx : Ensures invariant x middle)
    (hf : ∀ a, middle a → Ensures invariant (f a) post) : Ensures invariant (x >>= f) post := by
  intro built b last hbuilt hrun
  rw [StateT.run_bind] at hrun
  obtain ⟨⟨a, built'⟩, hfirst, hsecond⟩ := Outcome.bind_eq_ok.1 hrun
  obtain ⟨hbuilt', ha⟩ := hx built a built' hbuilt hfirst
  exact hf a ha built' b last hbuilt' hsecond

/-- A step outside of the construction. -/
theorem Ensures.lift {x : Except ConfigurationFault α} {post : α → Prop}
    (h : ∀ a, x = .ok a → post a) : Ensures invariant (liftM x) post := by
  intro built a built' hbuilt hrun
  cases x with
  | error fault => cases hrun
  | ok b =>
    cases hrun
    exact ⟨hbuilt, h a rfl⟩

theorem Ensures.get : Ensures invariant MonadState.get invariant := by
  intro built a built' hbuilt hrun
  cases hrun
  exact ⟨hbuilt, hbuilt⟩

theorem Ensures.modify {f : List EntityType → List EntityType}
    (h : ∀ built, invariant built → invariant (f built)) :
    Ensures invariant (modifyThe (List EntityType) f) fun _ ↦ True := by
  intro built a built' hbuilt hrun
  cases hrun
  exact ⟨h built hbuilt, trivial⟩

theorem Ensures.mapM {items : List α} {f : α → Construction β} {post : α → β → Prop}
    (h : ∀ a ∈ items, Ensures invariant (f a) (post a)) :
    Ensures invariant (items.mapM f) (List.Forall₂ post items) := by
  induction items with
  | nil =>
    rw [List.mapM_nil]
    exact .pure .nil
  | cons a rest ih =>
    obtain ⟨ha, hrest⟩ := List.forall_mem_cons.1 h
    rw [List.mapM_cons]
    exact .bind ha fun b hb ↦ .bind (ih hrest) fun bs hbs ↦ .pure (.cons hb hbs)

end Construction

/-! ## Steps -/

/-- What provides the types of declarations, once it is known which types they lie inside of. -/
abbrev Constructor := List String → EntityDeclaration → Construction EntityType

/-- The type of a declaration, with targets that `construct` provides. -/
def describe (m : ModelDeclaration) (construct : EntityDeclaration → Construction EntityType)
    (d : EntityDeclaration) : Construction EntityType := do
  let (properties, keys) ← d.buildProperties m.naming
  let navigations ← d.navigations.mapM (m.buildNavigation construct d.name)
  let t : EntityType := {
    name := d.name
    collection := d.collectionName?
    properties := properties
    keys := keys
    navigations := navigations
    discriminator := d.discriminator }
  EntityType.checkElements t.name [] t.elements
  return t

/-- One step of the recursion: a type that is built is kept, and one that is being built must not be
asked for again. -/
def step (m : ModelDeclaration) (construct : Constructor) : Constructor := fun owners d ↦ do
  if let some t := (← get).find? (·.name == d.name) then return t
  if owners.contains d.name then throw (.selfContained d.name)
  let t ← m.describe (construct (d.name :: owners)) d
  modify (t :: ·)
  return t

variable {m : ModelDeclaration}

theorem buildEntity_succ (depth : Nat) :
    m.buildEntity (depth + 1) = m.step (m.buildEntity depth) := by
  funext owners d
  symm
  unfold step describe
  simp only [bind_assoc, pure_bind]
  rfl

theorem step_run (construct : Constructor) (owners : List String) (d : EntityDeclaration)
    (built : List EntityType) : (m.step construct owners d).run built =
      match built.find? (·.name == d.name) with
      | some t => .ok (t, built)
      | none =>
        if owners.contains d.name then .error (.selfContained d.name)
        else ((m.describe (construct (d.name :: owners)) d).run built).map fun (t, built') ↦
          (t, t :: built') := by
  unfold step
  rw [StateT.run_bind, StateT.run_get]
  change StateT.run (match built.find? (·.name == d.name) with
    | some t => _
    | _ => _) built = _
  cases built.find? (·.name == d.name) with
  | some t => rfl
  | none =>
    change StateT.run (if owners.contains d.name = true then _ else _) built = _
    cases owners.contains d.name with
    | true => rfl
    | false =>
      change ((m.describe (construct (d.name :: owners)) d).run built >>= _) = _
      cases (m.describe (construct (d.name :: owners)) d).run built <;> rfl

/-! ## Declarations -/

theorem entity?_mem {name : String} {d : EntityDeclaration} (h : m.entity? name = some d) :
    d ∈ m.entities :=
  List.mem_of_find?_eq_some h

theorem target_ok {owner : String} {n : NavigationDeclaration} {d : EntityDeclaration}
    (h : m.target owner n = .ok d) : d ∈ m.entities ∧ d.owned = true := by
  unfold target at h
  split at h
  · cases h
  · next found hfound =>
    split at h
    · next howned =>
      cases h
      exact ⟨entity?_mem hfound, howned⟩
    · cases h

theorem checkNames_ok {seen : List String} {entities : List EntityDeclaration}
    (h : checkNames seen entities = .ok ()) :
    (entities.map EntityDeclaration.name).Nodup ∧ ∀ d ∈ entities, d.name ∉ seen := by
  induction entities generalizing seen with
  | nil => simp
  | cons d rest ih =>
    unfold checkNames at h
    split at h
    · cases h
    · next hseen =>
      obtain ⟨hrest, hunseen⟩ := ih h
      rw [List.map_cons, List.nodup_cons, List.forall_mem_cons]
      refine ⟨⟨fun hmem ↦ ?_, hrest⟩, by simpa using hseen, fun other hother hmem ↦ ?_⟩
      · obtain ⟨other, hother, hname⟩ := List.mem_map.1 hmem
        exact hunseen other hother (hname ▸ List.mem_cons_self)
      · exact hunseen other hother (List.mem_cons_of_mem d.name hmem)

/-! ## Building -/

open Construction

section

variable {post : EntityDeclaration → EntityType → Prop}

/-- What is kept while types are built. -/
def Finished (m : ModelDeclaration) (post : EntityDeclaration → EntityType → Prop)
    (built : List EntityType) : Prop :=
  ∀ t ∈ built, ∃ d ∈ m.entities, post d t

/-- What one step promises, if its targets are as promised, building promises. -/
theorem ensures_buildEntity (hnames : (m.entities.map EntityDeclaration.name).Nodup)
    (hname : ∀ d t, post d t → t.name = d.name)
    (hdescribe : ∀ construct, (∀ d ∈ m.entities, Ensures (m.Finished post) (construct d) (post d)) →
      ∀ d ∈ m.entities, Ensures (m.Finished post) (m.describe construct d) (post d))
    (depth : Nat) (owners : List String) (d : EntityDeclaration) (hd : d ∈ m.entities) :
    Ensures (m.Finished post) (m.buildEntity depth owners d) (post d) := by
  induction depth generalizing owners d with
  | zero => exact .throw _
  | succ depth ih =>
    rw [buildEntity_succ]
    refine .bind .get fun built hbuilt ↦ ?_
    split
    · next t ht =>
      obtain ⟨other, hother, hpost⟩ := hbuilt t (List.mem_of_find?_eq_some ht)
      have hfound : t.name = d.name := by simpa using List.find?_some ht
      have hsame : other = d :=
        List.inj_on_of_nodup_map hnames hother hd ((hname other t hpost).symm.trans hfound)
      exact .pure (hsame ▸ hpost)
    dsimp only
    split
    · exact .bind (.throw _) fun _ (hnever : False) ↦ hnever.elim
    apply Ensures.bind (hdescribe _ (ih (d.name :: owners)) d hd)
    intro t ht
    refine .bind (.modify fun built hold ↦ ?_) fun _ _ ↦ .pure ht
    exact List.forall_mem_cons.2 ⟨⟨d, hd, ht⟩, hold⟩

theorem names_of_build {model : Model} (h : m.build = .ok model) :
    (m.entities.map EntityDeclaration.name).Nodup := by
  obtain ⟨_, hchecked, -⟩ := Outcome.bind_eq_ok.1 h
  exact (checkNames_ok hchecked).1

/-- The types of a model are as promised, in the order of their declarations. -/
theorem forall₂_of_build {model : Model} (h : m.build = .ok model)
    (hname : ∀ d t, post d t → t.name = d.name)
    (hdescribe : ∀ construct, (∀ d ∈ m.entities, Ensures (m.Finished post) (construct d) (post d)) →
      ∀ d ∈ m.entities, Ensures (m.Finished post) (m.describe construct d) (post d)) :
    List.Forall₂ post m.entities model.entities := by
  have hnames := names_of_build h
  obtain ⟨_, -, h⟩ := Outcome.bind_eq_ok.1 h
  obtain ⟨entities, hrun, h⟩ := Outcome.bind_eq_ok.1 h
  obtain ⟨_, -, h⟩ := Outcome.bind_eq_ok.1 h
  cases h
  obtain ⟨⟨_, built⟩, hbuilt, rfl⟩ := Outcome.map_eq_ok.1 hrun
  have hall : Ensures (m.Finished post) (m.entities.mapM (m.buildEntity m.entities.length []))
      (List.Forall₂ post m.entities) :=
    .mapM fun d hd ↦ ensures_buildEntity hnames hname hdescribe _ [] d hd
  exact (hall [] _ built (by simp [Finished]) hbuilt).2

end

end DocMapping.ModelDeclaration
