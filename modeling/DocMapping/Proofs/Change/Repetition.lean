import DocMapping.Proofs.Change.Numbering

/-!
# Change Sets Built Again

Building a change set leaves its entities with all keys and numbers, so that building it again from
them finds nothing to generate or to number: the same commands come out, and the entities stay as they
are.  A save that failed can therefore be tried again under the same keys.
-/

namespace DocMapping

open EntityType (HasNumbers BelowGreatest)
open Value (Completes)

theorem IdSource.generateKeys_done (ids : IdSource) (t : EntityType) {keys : List Property}
    {e : Entity} (h : ∀ p ∈ keys, (e.value p.name).isDefault = false) (issued : Nat) :
    Progress.steps (ids.generateKey t) keys e issued = .done e issued := by
  refine Progress.steps_done fun p hp ↦ ?_
  unfold IdSource.generateKey
  rw [if_neg (by simp [h p hp])]

namespace EntityType

variable {t : EntityType} {entry : Nat} {baseline current : Entity}

theorem keyValue_of_planInsert {planned : PlannedCommand}
    (h : t.planInsert entry current = .ok planned) : ∃ key, t.keyValue current = .ok key := by
  unfold planInsert at h
  obtain ⟨_, -, h⟩ := Outcome.bind_eq_ok.1 h
  obtain ⟨_, hcondition, -⟩ := Outcome.bind_eq_ok.1 h
  obtain ⟨_, hfilter, -⟩ := Outcome.map_eq_ok.1 hcondition
  obtain ⟨key, hkey, -⟩ := Outcome.bind_eq_ok.1 hfilter
  exact ⟨key, hkey⟩

theorem keyValue_of_planUpdate {planned : List PlannedCommand}
    (h : t.planUpdate entry baseline current = .ok planned) :
    ∃ key, t.keyValue current = .ok key := by
  unfold planUpdate at h
  obtain ⟨_, -, h⟩ := Outcome.bind_eq_ok.1 h
  obtain ⟨key, hkey, -⟩ := Outcome.bind_eq_ok.1 h
  exact ⟨key, hkey⟩

end EntityType

namespace ChangeEntry

variable {e : ChangeEntry} {ids : IdSource} {collection : String} {s : KeyState}

/-- The entity is stored as it is now. -/
def IsWritten (e : ChangeEntry) : Prop := e.state = .added ∨ e.state = .modified

/-- An entity that is stored as it is now has its keys and numbers. -/
structure IsComplete (e : ChangeEntry) : Prop where
  sorted : e.IsWritten → e.current.DeepSorted
  numbered : e.IsWritten → e.type.AllItems HasNumbers e.current
  keyed : e.IsWritten → ∃ key, e.type.keyValue e.current = .ok key
  resolved : e.state = .added → e.type.KeyResolved e.current

theorem IsComplete.assignOrdinals_done (h : e.IsComplete) (hwritten : e.IsWritten)
    (collection : String) (s : KeyState) : e.assignOrdinals collection s = .done e s := by
  obtain ⟨key, hkey⟩ := h.keyed hwritten
  unfold assignOrdinals
  rw [hkey]
  dsimp only
  rw [e.type.keepsNumbered _ _ _ (h.sorted hwritten) (h.numbered hwritten)]
  rfl

theorem IsComplete.completeKeys_done (h : e.IsComplete) (ids : IdSource) (collection : String)
    (s : KeyState) : e.completeKeys ids collection s = .done e s := by
  unfold completeKeys
  cases hstate : e.state with
  | added =>
    have hkeys : e.generateKeys ids s = .done e s := by
      unfold generateKeys
      rw [ids.generateKeys_done e.type (h.resolved hstate)]
      rfl
    dsimp only
    rw [hkeys]
    exact h.assignOrdinals_done (.inl hstate) collection s
  | modified => exact h.assignOrdinals_done (.inr hstate) collection s
  | detached | unchanged | deleted => rfl

theorem commands_keyed {entry : Nat} {commands : List PlannedCommand}
    (h : e.commands entry = .ok commands) (hwritten : e.IsWritten) :
    ∃ key, e.type.keyValue e.current = .ok key := by
  unfold ChangeEntry.commands at h
  rcases hwritten with hstate | hstate <;> rw [hstate] at h
  · obtain ⟨planned, hplanned, -⟩ := Outcome.map_eq_ok.1 h
    exact EntityType.keyValue_of_planInsert hplanned
  · exact EntityType.keyValue_of_planUpdate h

/-- Numbers are given out below the greatest, and all items have theirs. -/
theorem assignOrdinals_numbers (hcounters : s.ordinals.Below)
    (hdone : (e.assignOrdinals collection s).fault = none)
    (hbelow : e.type.AllItems BelowGreatest (e.assignOrdinals collection s).value.current) :
    e.type.AllItems HasNumbers (e.assignOrdinals collection s).value.current ∧
      (e.assignOrdinals collection s).state.ordinals.Below := by
  unfold assignOrdinals at hdone hbelow ⊢
  cases hkey : e.type.keyValue e.current with
  | error fault =>
    rw [hkey] at hdone
    cases hdone
  | ok key =>
    rw [hkey] at hdone hbelow
    exact e.type.numbers _ _ _ hcounters hdone hbelow

/-- Completing the keys of an entity leaves it with all of them. -/
theorem completeKeys_numbers (hids : ids.NonZero) (hcounters : s.ordinals.Below)
    (hdone : (e.completeKeys ids collection s).fault = none)
    (hbelow : e.IsWritten →
      e.type.AllItems BelowGreatest (e.completeKeys ids collection s).value.current) :
    (e.IsWritten → e.type.AllItems HasNumbers (e.completeKeys ids collection s).value.current) ∧
      (e.state = .added → e.type.KeyResolved (e.completeKeys ids collection s).value.current) ∧
      (e.completeKeys ids collection s).state.ordinals.Below := by
  unfold completeKeys at hdone hbelow ⊢
  unfold IsWritten at hbelow ⊢
  cases hstate : e.state with
  | added =>
    rw [hstate] at hdone hbelow
    dsimp only at hdone hbelow ⊢
    obtain ⟨hgenerated, hnext⟩ := Progress.andThen_done hdone
    rw [hnext] at hdone hbelow ⊢
    have hsame : (e.generateKeys ids s).state.ordinals.Below := hcounters
    obtain ⟨hnumbered, hlast⟩ := assignOrdinals_numbers hsame hdone (hbelow (.inl rfl))
    refine ⟨fun _ ↦ hnumbered, fun _ p hp ↦ ?_, hlast⟩
    have hcompletes := (e.generateKeys ids s).value.completes_assignOrdinals collection
      (e.generateKeys ids s).state
    exact hcompletes.isDefault_member ((hids.generateKeys hgenerated).1 p hp)
  | modified =>
    rw [hstate] at hdone hbelow
    obtain ⟨hnumbered, hlast⟩ := assignOrdinals_numbers hcounters hdone (hbelow (.inr rfl))
    exact ⟨fun _ ↦ hnumbered, by simp, hlast⟩
  | detached | unchanged | deleted => exact ⟨by simp, by simp, hcounters⟩

end ChangeEntry

namespace ChangeSet

variable {e : ChangeEntry} {ids : IdSource} {entry : Nat} {before after : ChangeSet} {s : KeyState}

theorem contribute_eq {collection : String} (hcollection : e.type.collection = some collection)
    (hdone : (e.completeKeys ids collection s).fault = none) (entry : Nat) (before : ChangeSet) :
    e.contribute ids entry before s =
      ((e.completeKeys ids collection s).value, (e.completeKeys ids collection s).state,
        ((e.completeKeys ids collection s).value.commands entry).map fun commands ↦
          commands.foldl (fun changes planned ↦ changes.add collection planned) before) := by
  unfold ChangeEntry.contribute
  rw [hcollection]
  dsimp only
  rw [hdone]

/-- What an entity has contributed it contributes again, whatever keys would be generated for it. -/
theorem contribute_again (hids : ids.NonZero) (hsorted : e.current.DeepSorted)
    (hcounters : s.ordinals.Below) {built : ChangeEntry} {next : KeyState}
    (h : e.contribute ids entry before s = (built, next, .ok after))
    (hbelow : built.IsWritten → built.type.AllItems BelowGreatest built.current) :
    next.ordinals.Below ∧
      ∀ others s, built.contribute others entry before s = (built, s, .ok after) := by
  obtain ⟨collection, commands, hcollection, hdone, -, hcommands, -⟩ :=
    contribute_commands (congrArg (·.2.2) h)
  rw [contribute_eq hcollection hdone] at h
  obtain ⟨rfl, hrest⟩ := Prod.mk.inj h
  obtain ⟨rfl, houtcome⟩ := Prod.mk.inj hrest
  have hsame := e.completeKeys_value ids collection s
  have hcompletes := e.completes_completeKeys ids collection s
  have hnumbers (hbelow) := e.completeKeys_numbers hids hcounters hdone hbelow
  generalize e.completeKeys ids collection s = completed at *
  obtain ⟨built, next, fault⟩ := completed
  obtain ⟨current, rfl⟩ := hsame
  obtain ⟨hnumbered, hresolved, hlast⟩ := hnumbers hbelow
  have hcomplete : ChangeEntry.IsComplete { e with current := current } :=
    ⟨fun _ ↦ hcompletes.sorted hsorted, hnumbered, ChangeEntry.commands_keyed hcommands, hresolved⟩
  refine ⟨hlast, fun others s ↦ ?_⟩
  have hagain := hcomplete.completeKeys_done others collection s
  rw [contribute_eq (e := { e with current := current }) hcollection (by rw [hagain]; rfl), hagain]
  exact congrArg (fun outcome ↦ (_, _, outcome)) houtcome

theorem buildFrom_cons {built : ChangeEntry} {next : KeyState}
    (h : e.contribute ids entry before s = (built, next, .ok after)) {rest : List ChangeEntry} :
    buildFrom ids entry before s (e :: rest) =
      { buildFrom ids (entry + 1) after next rest with
        entries := built :: (buildFrom ids (entry + 1) after next rest).entries } := by
  rw [buildFrom, h]

theorem buildFrom_again (hids : ids.NonZero) {entries : List ChangeEntry}
    (hentries : ∀ e ∈ entries, e.current.DeepSorted) (hcounters : s.ordinals.Below)
    {changes : ChangeSet} (h : (buildFrom ids entry before s entries).outcome = .ok changes)
    (hbelow : ∀ e ∈ (buildFrom ids entry before s entries).entries, e.IsWritten →
      e.type.AllItems BelowGreatest e.current) (others : IdSource) (t : KeyState) :
    buildFrom others entry before t (buildFrom ids entry before s entries).entries =
      ⟨(buildFrom ids entry before s entries).entries, t.issued, .ok changes⟩ := by
  induction entries generalizing entry before s with
  | nil =>
    cases h
    rfl
  | cons e rest ih =>
    obtain ⟨hsorted, hrest⟩ := List.forall_mem_cons.1 hentries
    rcases hcontribute : e.contribute ids entry before s with ⟨built, next, fault | middle⟩
    · rw [buildFrom, hcontribute] at h
      cases h
    · rw [buildFrom_cons hcontribute] at h hbelow ⊢
      obtain ⟨hfirst, hbelow⟩ := List.forall_mem_cons.1 hbelow
      obtain ⟨hnext, hsame⟩ := contribute_again hids hsorted hcounters hcontribute hfirst
      rw [buildFrom_cons (hsame others t), ih hrest hnext h hbelow]

/-- A change set that was built is built again from the entities that it has left, whose keys and
numbers stay as they are, whatever identifiers would be generated next. -/
theorem build_again (hids : ids.NonZero) {issued : Nat} {entries : List ChangeEntry}
    (hentries : ∀ e ∈ entries, e.current.DeepSorted) {changes : ChangeSet}
    (h : (build ids issued entries).outcome = .ok changes)
    (hbelow : ∀ e ∈ (build ids issued entries).entries, e.IsWritten →
      e.type.AllItems BelowGreatest e.current) (others : IdSource) (number : Nat) :
    build others number (build ids issued entries).entries =
      ⟨(build ids issued entries).entries, number, .ok changes⟩ :=
  buildFrom_again hids hentries OrdinalCounters.below_nil h hbelow others ⟨number, []⟩

/-! ## Planets with satellites -/

/-- Planets under a generated key, with satellites that are numbered. -/
def orbits : ModelDeclaration :=
  ⟨.asDeclared,
    [⟨"Satellite", true, none, ["Number"],
      [⟨"Number", .scalar .int32, none, false, .natural, .utc, false, false, .onAdd, false,
          .eastern⟩,
        ⟨"Name", .scalar .string, none, false, .natural, .utc, false, false, .never, false,
          .eastern⟩], [], none⟩,
    ⟨"Planet", false, none, ["Id"],
      [⟨"Id", .scalar .guid, none, false, .natural, .utc, false, false, .onAdd, false, .eastern⟩],
      [⟨"Satellites", "Satellite", some .list, none, false⟩], none⟩]⟩

def satellite : EntityType :=
  let number : Property :=
    { Property.plain "Number" (.scalar .int32) with
      generation := .onAdd, generator := some .ordinal }
  ⟨"Satellite", none, [number, Property.plain "Name" (.scalar .string)], [number], [], none⟩

def orbited : EntityType :=
  let id : Property :=
    { Property.plain "Id" (.scalar .guid) with
      element := idElement, generation := .onAdd, generator := some .guid }
  ⟨"Planet", some "Planet", [id], [id],
    [⟨"Satellites", "Satellites", satellite, some .list, false⟩], none⟩

def named (name : String) (number : Value) : Value :=
  .entity "Satellite" [("Name", .string name), ("Number", number)]

def saturn (id : Value) (satellites : List Value) : Entity :=
  ⟨"Planet", [("Id", id), ("Satellites", .collection .list satellites)]⟩

/-- Saturn without a key, and with a satellite that has no number. -/
def discovered : List ChangeEntry :=
  [.added orbited (saturn .null [named "Titan" (.int32 4), named "Rhea" .null])]

/-- Saturn with all of its keys and numbers. -/
def registered : List ChangeEntry :=
  [.added orbited (saturn (.guid ⟨lowBits 128 1⟩) [named "Titan" (.int32 4), named "Rhea" (.int32 5)])]

theorem build_again_saturn :
    orbits.build = .ok ⟨[satellite, orbited]⟩ ∧ ones.NonZero ∧
      (∀ e ∈ discovered, e.current.DeepSorted) ∧
      (∀ e ∈ (build ones 0 discovered).entries, e.IsWritten →
        e.type.AllItems BelowGreatest e.current) ∧
      (build ones 0 discovered).entries = registered ∧
      ∃ changes, (build ones 0 discovered).outcome = .ok changes ∧
        ∀ others number, build others number registered = ⟨registered, number, .ok changes⟩ := by
  have hmodel : orbits.build = .ok ⟨[satellite, orbited]⟩ := rfl
  have hbuilt : (build ones 0 discovered).entries = registered := rfl
  have hsorted : ∀ e ∈ discovered, e.current.DeepSorted := by
    refine List.forall_mem_singleton.2 ?_
    exact ⟨by decide, trivial, ⟨⟨by decide, trivial, trivial, trivial⟩,
      ⟨by decide, trivial, trivial, trivial⟩, trivial⟩, trivial⟩
  have hbelow : ∀ e ∈ (build ones 0 discovered).entries, e.IsWritten →
      e.type.AllItems BelowGreatest e.current := by
    rw [hbuilt]
    refine List.forall_mem_singleton.2 fun _ ↦ List.forall_mem_singleton.2 ?_
    refine Navigation.allItems_collection.2 ?_
    rintro ⟨type, members⟩ ho
    refine ⟨List.forall_mem_singleton.2 ?_, by simp [EntityType.AllItems, satellite]⟩
    rcases List.mem_cons.1 ho with heq | ho
    · cases heq
      decide
    · cases List.mem_singleton.1 ho
      decide
  refine ⟨hmodel, nonZero_ones, hsorted, hbelow, hbuilt, _, rfl, fun others number ↦ ?_⟩
  rw [← hbuilt]
  exact build_again nonZero_ones hsorted rfl hbelow others number

end ChangeSet

end DocMapping
