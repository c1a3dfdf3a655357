import DocMapping.Proofs.Model.Construction

/-!
# Building Ends

Types are built by a recursion through their navigations, which is bounded by the number of
declarations.  The bound decides nothing: the equation of the recursion without a bound has exactly
one solution, and building a model with this solution is building it.
-/

namespace DocMapping.ModelDeclaration

/-- The recursion without a bound. -/
def Unfolds (m : ModelDeclaration) (construct : Constructor) : Prop := construct = m.step construct

/-- The model of declarations whose types `construct` provides. -/
def buildWith (m : ModelDeclaration) (construct : Constructor) :
    Except ConfigurationFault Model := do
  checkNames [] m.entities
  let entities ← (m.entities.mapM (construct [])).run' []
  let model : Model := ⟨entities⟩
  model.checkShared
  return model

variable {m : ModelDeclaration}

/-! ## Constructions that do the same -/

namespace Construction

variable {α β : Type} {invariant : List EntityType → Prop}

/-- Where the invariant holds, two constructions do the same, and what they do keeps the
invariant. -/
def Agrees (invariant : List EntityType → Prop) (x y : Construction α) : Prop :=
  ∀ built, invariant built → x.run built = y.run built ∧
    ∀ a built', x.run built = .ok (a, built') → invariant built'

theorem Agrees.pure (a : α) : Agrees invariant (Pure.pure a) (Pure.pure a) := by
  refine fun built hbuilt ↦ ⟨rfl, fun b built' hrun ↦ ?_⟩
  cases hrun
  exact hbuilt

theorem Agrees.bind {x y : Construction α} {f g : α → Construction β} (hx : Agrees invariant x y)
    (hf : ∀ a, Agrees invariant (f a) (g a)) : Agrees invariant (x >>= f) (y >>= g) := by
  intro built hbuilt
  obtain ⟨hsame, hkeeps⟩ := hx built hbuilt
  rw [StateT.run_bind, StateT.run_bind, ← hsame]
  cases hrun : x.run built with
  | error fault => exact ⟨rfl, nofun⟩
  | ok result => exact hf result.1 result.2 (hkeeps result.1 result.2 hrun)

/-- A step outside of the construction. -/
theorem Agrees.lift {x : Except ConfigurationFault α} {f g : α → Construction β}
    (h : ∀ a, x = .ok a → Agrees invariant (f a) (g a)) :
    Agrees invariant (liftM x >>= f) (liftM x >>= g) := by
  cases x with
  | error fault => exact fun _ _ ↦ ⟨rfl, nofun⟩
  | ok a => exact h a rfl

theorem Agrees.mapM {items : List α} {f g : α → Construction β}
    (h : ∀ a ∈ items, Agrees invariant (f a) (g a)) :
    Agrees invariant (items.mapM f) (items.mapM g) := by
  induction items with
  | nil =>
    rw [List.mapM_nil, List.mapM_nil]
    exact .pure []
  | cons a rest ih =>
    obtain ⟨ha, hrest⟩ := List.forall_mem_cons.1 h
    rw [List.mapM_cons, List.mapM_cons]
    exact .bind ha fun b ↦ .bind (ih hrest) fun bs ↦ .pure (b :: bs)

theorem Agrees.eq {x y : Construction α} (h : Agrees (fun _ ↦ True) x y) : x = y :=
  funext fun built ↦ (h built trivial).1

end Construction

open Construction

section

variable {invariant : List EntityType → Prop}
  {construct other : EntityDeclaration → Construction EntityType}

theorem agrees_describe (h : ∀ d ∈ m.entities, Agrees invariant (construct d) (other d))
    (d : EntityDeclaration) : Agrees invariant (m.describe construct d) (m.describe other d) := by
  have hnavigation (n : NavigationDeclaration) :
      Agrees invariant (m.buildNavigation construct d.name n)
        (m.buildNavigation other d.name n) :=
    .lift fun target htarget ↦ .bind (h target (target_ok htarget).1) fun _ ↦ .pure _
  exact .lift fun _ _ ↦ .bind (.mapM fun n _ ↦ hnavigation n) fun _ ↦ .lift fun _ _ ↦ .pure _

theorem describe_name (d : EntityDeclaration) {built built' : List EntityType} {t : EntityType}
    (h : (m.describe construct d).run built = .ok (t, built')) : t.name = d.name := by
  have hdescribe : Ensures (fun _ ↦ True) (m.describe construct d) fun t ↦ t.name = d.name := by
    apply Ensures.bind (.lift fun _ hproperties ↦ hproperties)
    rintro ⟨properties, keys⟩ -
    have hnavigations : Ensures (fun _ ↦ True)
        (d.navigations.mapM (m.buildNavigation construct d.name)) fun _ ↦ True :=
      fun _ _ _ _ _ ↦ ⟨trivial, trivial⟩
    apply Ensures.bind hnavigations
    intro navigations _
    apply Ensures.bind (.lift fun _ hchecked ↦ hchecked)
    exact fun _ _ ↦ .pure rfl
  exact (hdescribe built t built' trivial h).2

end

/-- What is kept inside of owners can be relied on when a type is entered and when it is left.  With
room to spare nothing needs to be kept; at the bound it matters which types are not yet built. -/
structure IsNested (invariant : List String → List EntityType → Prop) : Prop where
  enter : ∀ {owners : List String} {name : String} {built : List EntityType},
    invariant owners built → built.find? (·.name == name) = none → invariant (name :: owners) built
  leave : ∀ {owners : List String} {t : EntityType} {built : List EntityType},
    t.name ∉ owners → invariant (t.name :: owners) built → invariant owners (t :: built)

variable {invariant : List String → List EntityType → Prop}

theorem IsNested.step (hnested : IsNested invariant) {construct other : Constructor}
    {owners : List String} {d : EntityDeclaration}
    (h : d.name ∉ owners → ∀ target ∈ m.entities, Agrees (invariant (d.name :: owners))
      (construct (d.name :: owners) target) (other (d.name :: owners) target)) :
    Agrees (invariant owners) (m.step construct owners d) (m.step other owners d) := by
  intro built hbuilt
  rw [step_run, step_run]
  cases hfind : built.find? (·.name == d.name) with
  | some t =>
    refine ⟨rfl, fun a built' hrun ↦ ?_⟩
    cases hrun
    exact hbuilt
  | none =>
    dsimp only
    split
    · exact ⟨rfl, nofun⟩
    next hcontains =>
    have howners : d.name ∉ owners := by simpa using hcontains
    obtain ⟨hsame, hkeeps⟩ :=
      agrees_describe (h howners) d built (hnested.enter hbuilt hfind)
    rw [hsame] at hkeeps ⊢
    refine ⟨rfl, fun a last hrun ↦ ?_⟩
    obtain ⟨⟨t, built'⟩, hdescribe, hlast⟩ := Outcome.map_eq_ok.1 hrun
    cases hlast
    have hname := describe_name d hdescribe
    apply hnested.leave
    · rwa [hname]
    · rw [hname]
      exact hkeeps t built' hdescribe

/-! ## Bounds -/

/-- The declarations that are not among the owners. -/
def remaining (m : ModelDeclaration) (owners : List String) : List EntityDeclaration :=
  m.entities.filter fun d ↦ !owners.contains d.name

theorem length_remaining_cons {owners : List String} {d : EntityDeclaration} (hd : d ∈ m.entities)
    (howners : d.name ∉ owners) :
    (m.remaining (d.name :: owners)).length < (m.remaining owners).length := by
  have hfilter : m.remaining (d.name :: owners) =
      (m.remaining owners).filter fun other ↦ !(other.name == d.name) := by
    unfold remaining
    rw [List.filter_filter]
    refine List.filter_congr fun other _ ↦ ?_
    rw [List.contains_cons, Bool.not_or]
  rw [hfilter, List.length_filter_lt_length_iff_exists]
  refine ⟨d, List.mem_filter.2 ⟨hd, by simpa using howners⟩, by simp⟩

/-- Two recursions do the same once they have room for all that remains, if they do the same where
nothing remains. -/
theorem IsNested.recursion (hnested : IsNested invariant) (f g : Nat → Constructor)
    (hf : ∀ n, f (n + 1) = m.step (f n)) (hg : ∀ n, g (n + 1) = m.step (g n))
    (hbase : ∀ owners, ∀ d ∈ m.entities, d.name ∈ owners →
      Agrees (invariant owners) (f 0 owners d) (g 0 owners d))
    (n : Nat) (owners : List String) (d : EntityDeclaration) (hd : d ∈ m.entities)
    (hroom : (m.remaining owners).length ≤ n) :
    Agrees (invariant owners) (f n owners d) (g n owners d) := by
  induction n generalizing owners d with
  | zero =>
    refine hbase owners d hd ?_
    by_contra howners
    exact absurd (length_remaining_cons hd howners) (by omega)
  | succ n ih =>
    rw [hf, hg]
    refine hnested.step fun howners target htarget ↦ ih _ target htarget ?_
    have hless := length_remaining_cons hd howners
    omega

theorem isNested_true : IsNested fun _ _ ↦ True := ⟨fun _ _ ↦ trivial, fun _ _ ↦ trivial⟩

/-- Inside of itself a type is not asked for, whatever would provide it. -/
theorem IsNested.step_of_mem (hnested : IsNested invariant) (construct other : Constructor)
    {owners : List String} {d : EntityDeclaration} (h : d.name ∈ owners) :
    Agrees (invariant owners) (m.step construct owners d) (m.step other owners d) :=
  hnested.step fun howners ↦ absurd h howners

/-- Only declared types are asked for. -/
theorem step_congr {construct other : Constructor}
    (h : ∀ owners, ∀ d ∈ m.entities, construct owners d = other owners d) :
    m.step construct = m.step other := by
  funext owners d
  refine (isNested_true.step fun _ target htarget ↦ ?_).eq
  rw [h _ target htarget]
  exact fun _ _ ↦ ⟨rfl, fun _ _ _ ↦ trivial⟩

/-- With room to spare, recursions do the same however they end. -/
theorem recursion_eq (f g : Nat → Constructor) (hf : ∀ n, f (n + 1) = m.step (f n))
    (hg : ∀ n, g (n + 1) = m.step (g n)) {depth : Nat} (hdepth : m.entities.length < depth)
    {owners : List String} {d : EntityDeclaration} (hd : d ∈ m.entities) :
    f depth owners d = g depth owners d := by
  obtain ⟨n, rfl⟩ := Nat.exists_eq_add_one_of_ne_zero (Nat.ne_zero_of_lt hdepth)
  have hroom : (m.remaining owners).length ≤ n :=
    calc
      (m.remaining owners).length ≤ m.entities.length := List.length_filter_le _ _
      _ ≤ n := Nat.le_of_lt_succ hdepth
  have hbase (owners : List String) (d : EntityDeclaration) (_ : d ∈ m.entities)
      (howners : d.name ∈ owners) : Agrees (fun _ ↦ True) (f 1 owners d) (g 1 owners d) := by
    rw [hf, hg]
    exact isNested_true.step_of_mem _ _ howners
  exact (isNested_true.recursion (fun n ↦ f (n + 1)) (fun n ↦ g (n + 1)) (fun n ↦ hf (n + 1))
    (fun n ↦ hg (n + 1)) hbase n owners d hd hroom).eq

/-! ## The recursion without a bound -/

/-- The recursion without a bound describes one way to construct types. -/
theorem existsUnique_unfolds (m : ModelDeclaration) : ∃! construct, m.Unfolds construct := by
  have hroom : m.entities.length < m.entities.length + 1 := Nat.lt_succ_self _
  refine ⟨m.buildEntity (m.entities.length + 2), ?_, fun construct h ↦ ?_⟩
  · calc
      m.buildEntity (m.entities.length + 2) = m.step (m.buildEntity (m.entities.length + 1)) :=
        buildEntity_succ _
      _ = m.step (m.buildEntity (m.entities.length + 2)) :=
        step_congr fun owners d hd ↦ recursion_eq m.buildEntity (fun n ↦ m.buildEntity (n + 1))
          buildEntity_succ (fun n ↦ buildEntity_succ (n + 1)) hroom hd
  · calc
      construct = m.step construct := h
      _ = m.step (m.buildEntity (m.entities.length + 1)) :=
        step_congr fun owners d hd ↦ recursion_eq (fun _ ↦ construct) m.buildEntity (fun _ ↦ h)
          buildEntity_succ hroom hd
      _ = m.buildEntity (m.entities.length + 2) := (buildEntity_succ _).symm

/-- Types that are being built are not yet built. -/
def Outside (owners : List String) (built : List EntityType) : Prop := ∀ t ∈ built, t.name ∉ owners

theorem isNested_outside : IsNested Outside where
  enter hbuilt hfind t ht := by
    have hname := List.find?_eq_none.1 hfind t ht
    rw [List.mem_cons, not_or]
    exact ⟨by simpa using hname, hbuilt t ht⟩
  leave ht hbuilt :=
    List.forall_mem_cons.2 ⟨ht, fun other hother howners ↦
      hbuilt other hother (List.mem_cons_of_mem _ howners)⟩

/-- Where all declarations are owners, the bound and the recursion report the same fault. -/
theorem Unfolds.agrees_zero {construct : Constructor} (h : m.Unfolds construct)
    {owners : List String} {d : EntityDeclaration} (howners : d.name ∈ owners) :
    Agrees (Outside owners) (m.buildEntity 0 owners d) (construct owners d) := by
  intro built hbuilt
  have hfind : built.find? (·.name == d.name) = none := by
    refine List.find?_eq_none.2 fun t ht hname ↦ hbuilt t ht ?_
    rwa [beq_iff_eq.1 hname]
  refine ⟨?_, nofun⟩
  rw [h, step_run, hfind]
  dsimp only
  rw [if_pos (List.contains_iff_mem.2 howners)]
  rfl

/-- The bound on the depth decides nothing. -/
theorem Unfolds.build_eq {construct : Constructor} (h : m.Unfolds construct) :
    m.build = m.buildWith construct := by
  have hconstruct (d : EntityDeclaration) (hd : d ∈ m.entities) :
      Agrees (Outside []) (m.buildEntity m.entities.length [] d) (construct [] d) :=
    isNested_outside.recursion m.buildEntity (fun _ ↦ construct) buildEntity_succ (fun _ ↦ h)
      (fun _ _ _ ↦ h.agrees_zero) _ [] d hd (List.length_filter_le _ _)
  have hall : Agrees (Outside []) (m.entities.mapM (m.buildEntity m.entities.length []))
      (m.entities.mapM (construct [])) := .mapM hconstruct
  have hrun := (hall [] nofun).1
  unfold build buildWith StateT.run'
  rw [StateT.run] at hrun
  rw [hrun]
  rfl

end DocMapping.ModelDeclaration
