import DocMapping.Proofs.Change.Planned

/-!
# Keys of Inserted Documents

An entity that was added has all parts of its key once the building of a change set is done with it.
An entity that was changed gets none: where its key is another one than before, its document is
removed and inserted again under the key as it is.  Numbering owned entities leaves keys alone.
-/

namespace DocMapping

/-! ## Values of keys -/

/-- Every part of the key has a value. -/
def EntityType.KeyResolved (t : EntityType) (e : Entity) : Prop :=
  ∀ p ∈ t.keys, (e.value p.name).isDefault = false

/-- The value holds no entities. -/
def Value.IsPlain (value : Value) : Prop := value.entity? = none ∧ value.elements? = none

theorem Entity.value_set (e : Entity) (member other : String) (value : Value) :
    (e.set member value).value other = if other = member then value else e.value other := by
  unfold Entity.value
  rw [Entity.get?_set]
  split <;> rfl

/-- Scalars are the only values with a stored form in a property that is no collection. -/
theorem Property.isPlain_of_encode {p : Property} {value : Value} {stored : Bson}
    (hscalar : p.isCollection = false) (h : p.encode value = .ok stored) : value.IsPlain := by
  obtain ⟨kind, hkind⟩ : ∃ kind, p.kind = .scalar kind := by
    unfold isCollection PropertyKind.isCollection at hscalar
    split at hscalar
    · exact ⟨_, ‹_›⟩
    · cases hscalar
  replace h := Outcome.mapError_eq_ok.1 h
  unfold encodeValue at h
  rw [hkind] at h
  dsimp only at h
  cases value with
  | entity type members | collection container items =>
    unfold encodeScalar scalarKind at h
    rw [hkind] at h
    cases kind <;> cases h
  | _ => exact ⟨rfl, rfl⟩

/-- What holds of a value keeps holding if further work keeps it. -/
theorem Progress.value_andThen {σ α : Type} {P : α → Prop} {p : Progress σ α}
    {next : α → σ → Progress σ α} (hp : P p.value)
    (hnext : ∀ value state, P value → P (next value state).value) :
    P (p.andThen next).value := by
  unfold andThen
  split
  · exact hp
  · exact hnext _ _ hp

theorem Progress.andThen_done {σ α : Type} {p : Progress σ α} {next : α → σ → Progress σ α}
    (h : (p.andThen next).fault = none) :
    p.fault = none ∧ p.andThen next = next p.value p.state := by
  unfold andThen at h ⊢
  cases hfault : p.fault with
  | some fault =>
    rw [hfault] at h
    exact absurd (hfault.symm.trans h) (by simp)
  | none => exact ⟨rfl, rfl⟩

/-! ## Generating keys -/

namespace IdSource

variable {ids : IdSource} {t : EntityType}

theorem NonZero.generate (h : ids.NonZero) {p : Property} {number : Nat} {value : Value}
    (hvalue : ids.generate t p number = .ok value) : value.isDefault = false := by
  unfold IdSource.generate at hvalue
  split at hvalue <;> cases hvalue
  · exact beq_eq_false_iff_ne.2 (h number).1
  · refine beq_eq_false_iff_ne.2 fun hempty ↦ ?_
    have hdigits := congrArg String.toList hempty
    simp [ObjectId.text, Text.hexDigits, Nat.toDigits_ne_nil] at hdigits
  · exact beq_eq_false_iff_ne.2 (h number).2

/-- A generated value replaces none that is there. -/
theorem NonZero.generateKey (h : ids.NonZero) {p : Property} {e : Entity} {issued : Nat}
    (hdone : (ids.generateKey t p e issued).fault = none) :
    (((ids.generateKey t p e issued).value).value p.name).isDefault = false ∧
      ∀ name, (e.value name).isDefault = false →
        ((ids.generateKey t p e issued).value).value name = e.value name := by
  unfold IdSource.generateKey at hdone ⊢
  split
  · next hmissing =>
    rw [if_pos hmissing] at hdone
    split
    · next value hvalue =>
      refine ⟨?_, fun name hname ↦ ?_⟩
      · unfold Progress.done
        rw [Entity.value_set, if_pos rfl]
        exact h.generate hvalue
      · unfold Progress.done
        rw [Entity.value_set, if_neg]
        rintro rfl
        rw [hmissing] at hname
        cases hname
    · next hfault =>
      rw [hfault] at hdone
      cases hdone
  · next hpresent => exact ⟨Bool.eq_false_iff.2 hpresent, fun _ _ ↦ rfl⟩

/-- Once all keys are generated, every one of them has a value, and those that had one keep it. -/
theorem NonZero.generateKeys (h : ids.NonZero) {keys : List Property} {e : Entity} {issued : Nat}
    (hdone : (Progress.steps (ids.generateKey t) keys e issued).fault = none) :
    (∀ p ∈ keys, (((Progress.steps (ids.generateKey t) keys e issued).value).value
        p.name).isDefault = false) ∧
      ∀ name, (e.value name).isDefault = false →
        ((Progress.steps (ids.generateKey t) keys e issued).value).value name = e.value name := by
  induction keys generalizing e issued with
  | nil => exact ⟨by simp, fun _ _ ↦ rfl⟩
  | cons p rest ih =>
    rw [Progress.steps] at hdone ⊢
    obtain ⟨hfirst, hnext⟩ := Progress.andThen_done hdone
    rw [hnext] at hdone ⊢
    obtain ⟨hp, hkept⟩ := h.generateKey hfirst
    obtain ⟨hrest, hothers⟩ := ih hdone
    refine ⟨List.forall_mem_cons.2 ⟨?_, hrest⟩, fun name hname ↦ ?_⟩
    · rw [hothers p.name hp]
      exact hp
    · rw [hothers name (by rw [hkept name hname]; exact hname), hkept name hname]

end IdSource

/-! ## Numbering owned entities -/

namespace EntityType

variable {t : EntityType}

theorem assignNavigation_plain {scope : String} {n : Navigation EntityType} {value : Value}
    (h : value.IsPlain) (counters : OrdinalCounters) :
    assignNavigation scope n value counters = .done value counters := by
  obtain ⟨name, element, target, container, nullable⟩ := n
  obtain ⟨hentity, helements⟩ := h
  cases value with
  | entity => cases hentity
  | collection => cases helements
  | _ => simp [assignNavigation]

/-- Numbers go to owned entities alone. -/
theorem value_assignNavigations {scope name : String} {e : Entity} (h : (e.value name).IsPlain)
    (navigations : List (Navigation EntityType)) (counters : OrdinalCounters) :
    ((assignNavigations scope navigations e counters).value).value name = e.value name := by
  induction navigations generalizing e counters with
  | nil =>
    rw [assignNavigations]
    rfl
  | cons n rest ih =>
    rw [assignNavigations]
    refine Progress.value_andThen (P := fun other : Entity ↦ other.value name = e.value name) ?_ ?_
    · split
      · next value hvalue =>
        have hmember : e.value n.name = value := by
          unfold Entity.value
          rw [hvalue]
          rfl
        unfold Progress.map
        rw [Entity.value_set]
        split
        · next hname =>
          subst hname
          rw [hmember] at h ⊢
          rw [assignNavigation_plain h]
          rfl
        · rfl
      · rfl
    · intro other counters hother
      exact (ih (hother ▸ h) counters).trans hother

theorem value_assignOrdinals {scope name : String} {e : Entity} (h : (e.value name).IsPlain)
    (counters : OrdinalCounters) :
    ((t.assignOrdinals scope e counters).value).value name = e.value name := by
  cases t
  rw [assignOrdinals]
  exact value_assignNavigations h _ counters

/-- A key that has a stored form consists of scalars. -/
theorem WellKeyed.isPlain (h : t.WellKeyed) (hroot : t.isOwned = false) {e : Entity} {key : Bson}
    (hkey : t.keyValue e = .ok key) : ∀ p ∈ t.keys, (e.value p.name).IsPlain := by
  intro p hp
  cases hcomposite : t.hasCompositeKey with
  | true =>
    obtain ⟨elements, -, helements⟩ := keyElements_composite hcomposite hkey
    obtain ⟨_, -, value, hvalue, -⟩ := Outcome.exists_right helements hp
    exact Property.isPlain_of_encode (h.scalar p hp) hvalue
  | false =>
    rw [keyValue_single hroot hcomposite hp] at hkey
    exact Property.isPlain_of_encode (h.scalar p hp) hkey

end EntityType

namespace EntityType

variable {t : EntityType} {entry : Nat} {baseline current : Entity} {planned : PlannedCommand}

theorem planInsert_ok (h : t.planInsert entry current = .ok planned) : planned.entry = entry ∧
    ∃ document, planned.command = .insert document ∧ t.encode current = .ok document := by
  unfold planInsert at h
  obtain ⟨document, hdocument, h⟩ := Outcome.bind_eq_ok.1 h
  obtain ⟨_, -, h⟩ := Outcome.bind_eq_ok.1 h
  cases h
  exact ⟨rfl, document, rfl, hdocument⟩

theorem planDelete_ok (h : t.planDelete entry baseline = .ok planned) :
    planned.entry = entry ∧ ∃ filter, planned.command = .delete filter := by
  unfold planDelete at h
  obtain ⟨⟨filter, shown⟩, -, h⟩ := Outcome.bind_eq_ok.1 h
  obtain ⟨_, -, h⟩ := Outcome.bind_eq_ok.1 h
  cases h
  exact ⟨rfl, filter, rfl⟩

/-- Among the commands for a changed entity, an insertion stores the entity as it is now. -/
theorem planUpdate_ok {commands : List PlannedCommand}
    (h : t.planUpdate entry baseline current = .ok commands) (hplanned : planned ∈ commands) :
    planned.entry = entry ∧
      ∀ document, planned.command = .insert document → t.encode current = .ok document := by
  unfold planUpdate at h
  obtain ⟨_, -, h⟩ := Outcome.bind_eq_ok.1 h
  obtain ⟨_, -, h⟩ := Outcome.bind_eq_ok.1 h
  split at h
  · obtain ⟨changes, -, h⟩ := Outcome.bind_eq_ok.1 h
    split at h
    · cases h
      cases hplanned
    · obtain ⟨_, -, h⟩ := Outcome.bind_eq_ok.1 h
      obtain ⟨_, -, h⟩ := Outcome.bind_eq_ok.1 h
      obtain ⟨_, -, h⟩ := Outcome.bind_eq_ok.1 h
      cases h
      cases List.mem_singleton.1 hplanned
      exact ⟨rfl, fun document hcommand ↦ by cases hcommand⟩
  · obtain ⟨removal, hremoval, h⟩ := Outcome.bind_eq_ok.1 h
    obtain ⟨insertion, hinsertion, h⟩ := Outcome.bind_eq_ok.1 h
    cases h
    rcases List.mem_cons.1 hplanned with rfl | hlast
    · obtain ⟨hentry, filter, hcommand⟩ := planDelete_ok hremoval
      exact ⟨hentry, fun document hdocument ↦ by cases hcommand.symm.trans hdocument⟩
    · cases List.mem_singleton.1 hlast
      obtain ⟨hentry, stored, hcommand, hstored⟩ := planInsert_ok hinsertion
      refine ⟨hentry, fun document hdocument ↦ ?_⟩
      cases hcommand.symm.trans hdocument
      exact hstored

end EntityType

namespace ChangeEntry

variable {e : ChangeEntry} {ids : IdSource} {collection : String} {s : KeyState}

/-- Numbering owned entities succeeds only where the key has a stored form, and keeps its parts. -/
theorem assignOrdinals_resolved (hkeyed : e.type.WellKeyed) (hroot : e.type.isOwned = false)
    (hdone : (e.assignOrdinals collection s).fault = none) :
    e.type.KeyResolved (e.assignOrdinals collection s).value.current ↔
      e.type.KeyResolved e.current := by
  unfold ChangeEntry.assignOrdinals at hdone ⊢
  split
  · next hfault =>
    simp [hfault] at hdone
  · next key hkey =>
    refine forall₂_congr fun p hp ↦ ?_
    rw [EntityType.value_assignOrdinals (hkeyed.isPlain hroot hkey p hp)]

/-- Only an entity that is added gets the parts of its key that it misses. -/
theorem completeKeys_resolved (hids : ids.NonZero) (hkeyed : e.type.WellKeyed)
    (hroot : e.type.isOwned = false) (hdone : (e.completeKeys ids collection s).fault = none) :
    e.type.KeyResolved (e.completeKeys ids collection s).value.current ↔
      e.state = .added ∨ e.type.KeyResolved e.current := by
  unfold completeKeys at hdone ⊢
  cases hstate : e.state with
  | added =>
    rw [hstate] at hdone
    dsimp only at hdone ⊢
    obtain ⟨hgenerated, hnext⟩ := Progress.andThen_done hdone
    refine iff_of_true ?_ (.inl rfl)
    rw [hnext] at hdone ⊢
    refine (assignOrdinals_resolved ?_ ?_ hdone).2 (hids.generateKeys hgenerated).1
    · exact hkeyed
    · exact hroot
  | modified =>
    rw [hstate] at hdone
    simpa using assignOrdinals_resolved hkeyed hroot hdone
  | detached | unchanged | deleted => simp [Progress.done]

/-- Documents are inserted for entities that were added, or changed to another key. -/
theorem insert_of_commands {entry : Nat} {commands : List PlannedCommand}
    (h : e.commands entry = .ok commands) {planned : PlannedCommand} (hplanned : planned ∈ commands) :
    planned.entry = entry ∧ ∀ document, planned.command = .insert document →
      (e.state = .added ∨ e.state = .modified) ∧ e.type.encode e.current = .ok document := by
  unfold ChangeEntry.commands at h
  cases hstate : e.state with
  | detached | unchanged =>
    rw [hstate] at h
    cases h
    cases hplanned
  | added =>
    rw [hstate] at h
    obtain ⟨insertion, hinsertion, rfl⟩ := Outcome.map_eq_ok.1 h
    cases List.mem_singleton.1 hplanned
    obtain ⟨hentry, stored, hcommand, hstored⟩ := EntityType.planInsert_ok hinsertion
    refine ⟨hentry, fun document hdocument ↦ ⟨.inl rfl, ?_⟩⟩
    cases hcommand.symm.trans hdocument
    exact hstored
  | deleted =>
    rw [hstate] at h
    obtain ⟨removal, hremoval, rfl⟩ := Outcome.map_eq_ok.1 h
    cases List.mem_singleton.1 hplanned
    obtain ⟨hentry, filter, hcommand⟩ := EntityType.planDelete_ok hremoval
    exact ⟨hentry, fun document hdocument ↦ by cases hcommand.symm.trans hdocument⟩
  | modified =>
    rw [hstate] at h
    obtain ⟨hentry, hdocument⟩ := EntityType.planUpdate_ok h hplanned
    exact ⟨hentry, fun document hcommand ↦ ⟨.inr rfl, hdocument document hcommand⟩⟩

end ChangeEntry

/-! ## Change sets -/

namespace ChangeSet

/-- The command was planned for the entry, once its keys were complete. -/
def PlannedFor (ids : IdSource) (given built : ChangeEntry) (entry : Nat)
    (command : String × PlannedCommand) : Prop :=
  ∃ s commands, given.type.collection = some command.1 ∧
    (given.completeKeys ids command.1 s).fault = none ∧
    (given.completeKeys ids command.1 s).value = built ∧
    built.commands entry = .ok commands ∧ command.2 ∈ commands

theorem contribute_planned {e : ChangeEntry} {ids : IdSource} {entry : Nat}
    {before after : ChangeSet} {s : KeyState}
    (h : (e.contribute ids entry before s).2.2 = .ok after) {command : String × PlannedCommand}
    (hcommand : command ∈ after.commands) : command ∈ before.commands ∨
      PlannedFor ids e (e.contribute ids entry before s).1 entry command := by
  obtain ⟨collection, planned, hcollection, hdone, heq, hplanned, rfl⟩ := contribute_commands h
  have hadded := (commands_collect ..).mem_iff.1 hcommand
  refine (List.mem_append.1 hadded).imp_right fun hnew ↦ ?_
  obtain ⟨next, hnext, rfl⟩ := List.mem_map.1 hnew
  rw [heq]
  exact ⟨s, planned, hcollection, hdone, rfl, hplanned, hnext⟩

/-- Every command of a change set was planned for one of its entries. -/
theorem buildFrom_planned {ids : IdSource} {entry : Nat} {before changes : ChangeSet} {s : KeyState}
    {entries : List ChangeEntry}
    (h : (buildFrom ids entry before s entries).outcome = .ok changes)
    {command : String × PlannedCommand} (hcommand : command ∈ changes.commands) :
    command ∈ before.commands ∨ ∃ index given built, entries[index]? = some given ∧
      (buildFrom ids entry before s entries).entries[index]? = some built ∧
      PlannedFor ids given built (entry + index) command := by
  induction entries generalizing entry before s with
  | nil =>
    cases h
    exact .inl hcommand
  | cons e rest ih =>
    unfold buildFrom at h ⊢
    have hcontribute : ∀ after, (e.contribute ids entry before s).2.2 = .ok after →
        command ∈ after.commands → command ∈ before.commands ∨
          PlannedFor ids e (e.contribute ids entry before s).1 entry command :=
      fun _ hafter hmem ↦ contribute_planned hafter hmem
    generalize e.contribute ids entry before s = contribution at h hcontribute ⊢
    obtain ⟨built, next, fault | middle⟩ := contribution
    · cases h
    · rcases ih h with hmiddle | ⟨index, given, later, hgiven, hlater, hplanned⟩
      · refine (hcontribute middle rfl hmiddle).imp_right fun hplanned ↦ ?_
        exact ⟨0, e, built, rfl, rfl, hplanned⟩
      · rw [Nat.add_right_comm] at hplanned
        exact .inr ⟨index + 1, given, later, hgiven, hlater, hplanned⟩

end ChangeSet

/-! ## Inserted documents -/

/-- The document is stored under the key of the entity, with every part of it in its place. -/
structure EntityType.KeyStored (t : EntityType) (e : Entity) (document : Document) : Prop where
  whole : ∃ key, t.keyValue e = .ok key ∧ document.get? idElement = some key
  parts : t.KeyPartsApart → ∀ p ∈ t.keys, ∃ stored, p.encode (e.value p.name) = .ok stored ∧
    document.lookup (t.elementPath p) = some stored

/-- A document is inserted for an entity that was added or changed, under the key of that entity.
All parts of the key have values if the entity was added or was given them by the application. -/
structure ChangeSet.Inserts (given built : ChangeEntry) (document : Document) : Prop where
  type : built.type = given.type
  state : built.state = given.state
  storing : given.state = .added ∨ given.state = .modified
  stored : built.type.KeyStored built.current document
  resolved : built.type.KeyResolved built.current ↔
    given.state = .added ∨ given.type.KeyResolved given.current

/-- Every insertion of a change set is for one of its entries, and its key is complete unless the
entity was changed to an incomplete key. -/
theorem ChangeSet.build_inserts {m : ModelDeclaration} {model : Model}
    (hmodel : m.build = .ok model) {ids : IdSource} (hids : ids.NonZero) {issued : Nat}
    {entries : List ChangeEntry}
    (hentries : ∀ e ∈ entries, e.type ∈ model.entities ∧ e.type.KeyHasId) {changes : ChangeSet}
    (h : (build ids issued entries).outcome = .ok changes) {collection : String}
    {planned : PlannedCommand} (hplanned : (collection, planned) ∈ changes.commands)
    {document : Document} (hcommand : planned.command = .insert document) :
    ∃ given built, entries[planned.entry]? = some given ∧
      (build ids issued entries).entries[planned.entry]? = some built ∧
      given.type.collection = some collection ∧ Inserts given built document := by
  obtain ⟨index, given, built, hgiven, hbuilt, s, commands, hcollection, hdone, rfl, hcommands,
    hmem⟩ := (buildFrom_planned h hplanned).resolve_left (by simp [ChangeSet.commands, empty])
  obtain ⟨ht, hid⟩ := hentries given (List.mem_of_getElem? hgiven)
  obtain ⟨current, hvalue⟩ := given.completeKeys_value ids collection s
  have hroot : given.type.isOwned = false := by
    unfold EntityType.isOwned
    rw [hcollection]
    rfl
  have hidentified : given.type.Identified :=
    ⟨ModelDeclaration.wellFormed_of_build hmodel _ ht, fun _ ↦ hid⟩
  have hresolved := given.completeKeys_resolved hids
    (ModelDeclaration.wellKeyed_of_build hmodel _ ht) hroot hdone
  dsimp only at hcommands hbuilt hresolved hmem
  rw [hvalue] at hcommands hbuilt hresolved
  obtain ⟨hentry, hinsert⟩ := ChangeEntry.insert_of_commands hcommands hmem
  obtain ⟨hstate, hdocument⟩ := hinsert document hcommand
  rw [Nat.zero_add] at hentry
  rw [← hentry] at hgiven hbuilt
  exact ⟨given, _, hgiven, hbuilt, hcollection,
    { type := rfl
      state := rfl
      storing := hstate
      stored := ⟨(hidentified.encode_names hdocument).2.2 hroot, fun hparts _ hp ↦
        hidentified.lookup_key hroot hparts hdocument hp⟩
      resolved := hresolved }⟩

namespace ChangeSet

/-! ## Sightings -/

/-- The source gives one identifier of each kind only. -/
def ones : IdSource := ⟨fun _ ↦ ⟨lowBits 96 1⟩, fun _ ↦ ⟨lowBits 128 1⟩⟩

theorem nonZero_ones : ones.NonZero :=
  fun _ ↦ ⟨Nat.one_ne_zero, Nat.one_ne_zero⟩

/-- Sightings are known by their site and a number that is generated. -/
def sightings : ModelDeclaration :=
  ⟨.camelCase, [⟨"Sighting", false, none, ["Site", "Id"],
    [⟨"Site", .scalar .string, none, false, .natural, .utc, false, false, .never, false, .eastern⟩,
      ⟨"Id", .scalar .guid, none, false, .string, .utc, false, false, .onAdd, false, .eastern⟩,
      ⟨"Comet", .scalar .string, none, false, .natural, .utc, false, false, .never, false,
        .eastern⟩],
    [], none⟩]⟩

def sighting : EntityType :=
  let site : Property := { Property.plain "Site" (.scalar .string) with element := "site" }
  let id : Property :=
    { Property.plain "Id" (.scalar .guid) with
      element := "id", representation := .string, generation := .onAdd, generator := some .guid }
  ⟨"Sighting", some "Sighting",
    [site, id, { Property.plain "Comet" (.scalar .string) with element := "comet" }], [site, id], [],
    none⟩

def seen (site : String) (id : Value) (comet : String) : Entity :=
  ⟨"Sighting", [("Comet", .string comet), ("Id", id), ("Site", .string site)]⟩

/-- One sighting is added without a number, another one is moved to a different site. -/
def reported : List ChangeEntry :=
  [.added sighting (seen "Palomar" .null "1P"),
    .modified sighting (seen "Palomar" (.guid ⟨lowBits 128 7⟩) "2P")
      (seen "Lowell" (.guid ⟨lowBits 128 7⟩) "2P")]

/-- The stored key of a sighting. -/
def keyOf (site : String) (id : Guid) : Bson :=
  .document [("site", .string site), ("id", .string id.text)]

theorem build_inserts_sightings :
    sightings.build = .ok ⟨[sighting]⟩ ∧ ones.NonZero ∧
      (∀ e ∈ reported, e.type ∈ [sighting] ∧ e.type.KeyHasId) ∧
      ∃ changes, (build ones 0 reported).outcome = .ok changes ∧
        changes.commands.map (fun c ↦ c.2.command) =
          [.insert [(idElement, keyOf "Palomar" ⟨1⟩), ("comet", .string "1P")],
            .delete (Filter.matching [(idElement, keyOf "Palomar" ⟨7⟩)]),
            .insert [(idElement, keyOf "Lowell" ⟨7⟩), ("comet", .string "2P")]] ∧
        ∀ c ∈ changes.commands, ∀ document, c.2.command = .insert document →
          ∃ given built, reported[c.2.entry]? = some given ∧
            (build ones 0 reported).entries[c.2.entry]? = some built ∧
            Inserts given built document ∧ built.type.KeyResolved built.current := by
  have hmodel : sightings.build = .ok ⟨[sighting]⟩ := rfl
  have hentries : ∀ e ∈ reported, e.type ∈ [sighting] ∧ e.type.KeyHasId :=
    List.forall_mem_cons.2 ⟨⟨List.mem_cons_self, fun h ↦ absurd h (by decide)⟩,
      List.forall_mem_singleton.2 ⟨List.mem_cons_self, fun h ↦ absurd h (by decide)⟩⟩
  have hgiven : ∀ e ∈ reported, e.state = .added ∨ e.type.KeyResolved e.current :=
    List.forall_mem_cons.2 ⟨.inl rfl, List.forall_mem_singleton.2 (.inr
      (List.forall_mem_cons.2 ⟨by decide, List.forall_mem_singleton.2 (by decide)⟩))⟩
  refine ⟨hmodel, nonZero_ones, hentries, _, rfl, rfl, fun c hc document hcommand ↦ ?_⟩
  obtain ⟨given, built, hbefore, hafter, -, hinserts⟩ :=
    build_inserts hmodel nonZero_ones hentries rfl hc hcommand
  exact ⟨given, built, hbefore, hafter, hinserts,
    hinserts.resolved.2 (hgiven given (List.mem_of_getElem? hbefore))⟩

/-- Pages are known by texts that are not generated. -/
def pages : ModelDeclaration :=
  ⟨.asDeclared, [⟨"Page", false, none, ["Id"],
    [⟨"Id", .scalar .string, none, false, .natural, .utc, false, false, .never, false, .eastern⟩,
      ⟨"Text", .scalar .string, none, false, .natural, .utc, false, false, .never, false,
        .eastern⟩],
    [], none⟩]⟩

def page : EntityType :=
  let id : Property := { Property.plain "Id" (.scalar .string) with element := idElement }
  ⟨"Page", some "Page", [id, Property.plain "Text" (.scalar .string)], [id], [], none⟩

/-- A page that has lost its key is inserted again without one, although it could not be added. -/
theorem build_inserts_keyless :
    let stored : Entity := ⟨"Page", [("Id", .string "p1"), ("Text", .string "first")]⟩
    let changed : Entity := ⟨"Page", [("Text", .string "first")]⟩
    pages.build = .ok ⟨[page]⟩ ∧ page.KeyHasId ∧ ones.NonZero ∧
      (∃ changes, (build ones 0 [.modified page stored changed]).outcome = .ok changes ∧
        changes.commands.map (fun c ↦ c.2.command) =
          [.delete (Filter.matching [(idElement, .string "p1")]),
            .insert [(idElement, .null), ("Text", .string "first")]]) ∧
      (build ones 0 [.modified page stored changed]).entries = [.modified page stored changed] ∧
      ¬page.KeyResolved changed ∧
      (build ones 0 [.added page changed]).outcome =
        .error (.operation (.missingKey "Page" "Id")) := by
  intro stored changed
  have hid : page.KeyHasId := fun _ ↦ by decide
  refine ⟨rfl, hid, nonZero_ones, ⟨_, rfl, rfl⟩, rfl, fun hresolved ↦ ?_, rfl⟩
  exact absurd (hresolved _ List.mem_cons_self) (by decide)

end ChangeSet

end DocMapping
