import DocMapping.Proofs.Change.Planned
import DocMapping.Proofs.Change.Tokens
import DocMapping.Proofs.UnitOfWork.Atomicity

/-!
# Conflicting Saves

A change is in vain if its document has been changed by somebody else: the filter of its command
then selects nothing, the save fails as a whole, and the store keeps what it holds.  This goes as far
as the tokens of the root type go.
-/

namespace DocMapping

/-! ## Commands that find nothing -/

namespace WriteCommand

/-- The filter by which the command looks for its document. -/
def filter? : WriteCommand → Option (Filter Bson)
  | insert _ => none
  | update filter _ => some filter
  | delete filter => some filter

variable {command : WriteCommand} {filter : Filter Bson}

theorem expectsMatch_of_filter? (h : command.filter? = some filter) :
    command.expectsMatch = true := by
  cases command with
  | insert => cases h
  | update | delete => rfl

theorem perform_unmatched (h : command.filter? = some filter) {documents : List Document}
    (hnone : ∀ document ∈ documents, filter.holds document = false) (fresh : ObjectId)
    (collection : String) : command.perform fresh collection documents = (documents, .ok 0) := by
  have hindex : documents.findIdx? filter.holds = none := List.findIdx?_eq_none_iff.2 hnone
  cases command with
  | insert => cases h
  | update _ changes =>
    cases h
    simp only [perform, apply, hindex]
  | delete =>
    cases h
    simp only [perform, apply, hindex]

end WriteCommand

namespace UnitOfWork

theorem transactional_of_ne_never {options : Options}
    (h : options.transactionBehavior ≠ .never) : options.transactional true = .ok true := by
  unfold Options.transactional
  cases hbehavior : options.transactionBehavior with
  | never => exact absurd hbehavior h
  | required | whenSupported => rfl

/-- A command that finds no document fails, and its transaction stays as it is. -/
theorem runChecked_unmatched {initial : Store} {contents : Contents} {s : MemorySession}
    (h : s.InTransaction initial contents) {collection : String} {planned : PlannedCommand}
    {filter : Filter Bson} (hfilter : planned.command.filter? = some filter)
    (hnone : ∀ document ∈ contents collection, filter.holds document = false) :
    let ran := runChecked (Transport.memory true) Signal.never true collection planned s
    ran.1 = .error (.concurrencyConflict collection planned.key) ∧
      ran.2.store.collections = initial.collections := by
  have hidentified : planned.command.IsIdentified := by
    cases hcommand : planned.command with
    | insert =>
      rw [hcommand] at hfilter
      cases hfilter
    | update | delete => trivial
  obtain ⟨houtcome, hafter⟩ := h.execute collection hidentified ⟨0⟩
  rw [WriteCommand.perform_unmatched hfilter hnone] at houtcome hafter
  have hexecute : (Transport.memory true).execute true collection planned.command s =
      (.ok 0, (s.execute true collection planned.command).2) := Prod.ext houtcome rfl
  have hgoes : (Signal.never : Signal MemorySession) s = (false, s) := rfl
  rw [runChecked_apply, hgoes, if_neg Bool.false_ne_true, run_apply, hexecute,
    WriteCommand.expectsMatch_of_filter? hfilter]
  exact ⟨rfl, hafter.collections⟩

/-- If the first command of a change set finds no document, nothing is stored. -/
theorem save_unmatched {options : Options} (hoptions : options.transactionBehavior ≠ .never)
    {changes : ChangeSet} {collection : String} {planned : PlannedCommand}
    {rest : List (String × PlannedCommand)}
    (hcommands : changes.commands = (collection, planned) :: rest) {filter : Filter Bson}
    (hfilter : planned.command.filter? = some filter) {s : MemorySession}
    (hs : s.store.transactions = true)
    (hnone : ∀ document ∈ s.store.documents collection, filter.holds document = false) :
    let saved := save (Transport.memory true) Signal.never options changes .idle s
    saved.1 = (.error (.concurrencyConflict collection planned.key), .rolledBack) ∧
      saved.2.store.collections = s.store.collections := by
  obtain ⟨hbegin, hopen⟩ := MemorySession.inTransaction_begin hs
  obtain ⟨hfault, hkept⟩ := runChecked_unmatched hopen hfilter hnone
  -- Only the outcome of the first command matters: it ends the save before the rest is run.
  generalize hran : runChecked (Transport.memory true) Signal.never true collection planned
    s.begin.2 = ran at hfault hkept
  obtain ⟨_, final⟩ := ran
  cases hfault
  have hbegun : (Transport.memory true).begin s = (.ok (), s.begin.2) := Prod.ext hbegin rfl
  have hattempt : attempt (Transport.memory true) Signal.never changes s.begin.2 =
      (.error (.concurrencyConflict collection planned.key), final) := by
    rw [attempt_apply, hcommands, runEach_cons, hran]
  have hsave : saveInTransaction (Transport.memory true) Signal.never changes s =
      (.error (.concurrencyConflict collection planned.key), final.abort.2) := by
    rw [saveInTransaction_apply, hbegun]
    dsimp only
    rw [hattempt]
    rfl
  have hgoes : (Signal.never : Signal MemorySession) s = (false, s) := rfl
  rw [save_transactional (Transport.memory true) Signal.never (transactional_of_ne_never hoptions),
    hgoes, if_neg Bool.false_ne_true]
  dsimp only
  rw [hsave]
  exact ⟨rfl, hkept⟩

end UnitOfWork

/-! ## Changes of one entity -/

/-- The command looks for the document of an entity, with its tokens as they were. -/
def PlannedCommand.LooksFor (planned : PlannedCommand) (t : EntityType) (e : Entity) : Prop :=
  ∃ filter, t.keyCondition true e = .ok (filter, planned.key) ∧
    planned.command.filter? = some filter

namespace EntityType

variable {t : EntityType} {entry : Nat} {baseline current : Entity}

theorem planDelete_looksFor {planned : PlannedCommand}
    (h : t.planDelete entry baseline = .ok planned) : planned.LooksFor t baseline := by
  unfold planDelete at h
  obtain ⟨⟨filter, shown⟩, hcondition, h⟩ := Outcome.bind_eq_ok.1 h
  obtain ⟨document, -, h⟩ := Outcome.bind_eq_ok.1 h
  cases h
  exact ⟨filter, hcondition, rfl⟩

theorem planUpdate_looksFor {planned : PlannedCommand} {rest : List PlannedCommand}
    (h : t.planUpdate entry baseline current = .ok (planned :: rest)) :
    planned.LooksFor t baseline := by
  unfold planUpdate at h
  obtain ⟨baselineKey, -, h⟩ := Outcome.bind_eq_ok.1 h
  obtain ⟨currentKey, -, h⟩ := Outcome.bind_eq_ok.1 h
  split at h
  · obtain ⟨changes, -, h⟩ := Outcome.bind_eq_ok.1 h
    split at h
    · cases h
    · obtain ⟨⟨filter, shown⟩, hcondition, h⟩ := Outcome.bind_eq_ok.1 h
      obtain ⟨restored, -, h⟩ := Outcome.bind_eq_ok.1 h
      obtain ⟨restoring, -, h⟩ := Outcome.bind_eq_ok.1 h
      cases h
      exact ⟨filter, hcondition, rfl⟩
  · obtain ⟨removal, hremoval, h⟩ := Outcome.bind_eq_ok.1 h
    obtain ⟨insertion, -, h⟩ := Outcome.bind_eq_ok.1 h
    cases h
    exact planDelete_looksFor hremoval

end EntityType

namespace ChangeEntry

/-- The entity is stored already, and a save has something to do with it. -/
def IsChange (e : ChangeEntry) : Prop := e.state = .modified ∨ e.state = .deleted

variable {e : ChangeEntry}

theorem commands_looksFor (h : e.IsChange) {entry : Nat} {planned : PlannedCommand}
    {rest : List PlannedCommand} (hcommands : e.commands entry = .ok (planned :: rest)) :
    planned.LooksFor e.type e.baseline := by
  unfold commands at hcommands
  rcases h with hstate | hstate <;> rw [hstate] at hcommands
  · exact EntityType.planUpdate_looksFor hcommands
  · obtain ⟨removal, hremoval, heq⟩ := Outcome.map_eq_ok.1 hcommands
    cases heq
    exact EntityType.planDelete_looksFor hremoval

end ChangeEntry

namespace ChangeSet

theorem foldl_add (collection : String) (before commands : List PlannedCommand) :
    commands.foldl (fun (changes : ChangeSet) planned ↦ changes.add collection planned)
      ⟨[⟨collection, before⟩]⟩ = ⟨[⟨collection, before ++ commands⟩]⟩ := by
  induction commands generalizing before with
  | nil =>
    rw [List.append_nil]
    rfl
  | cons planned rest ih =>
    have hadd : add ⟨[⟨collection, before⟩]⟩ collection planned =
        ⟨[⟨collection, before ++ [planned]⟩]⟩ := by
      unfold add insertBatch
      rw [if_pos rfl]
    rw [List.foldl_cons, hadd, ih, List.append_assoc]
    rfl

/-- The commands of a single change, the first of which looks for its document. -/
theorem build_change {e : ChangeEntry} (he : e.IsChange) {collection : String}
    (hcollection : e.type.collection = some collection) {ids : IdSource} {issued : Nat}
    {changes : ChangeSet} (h : (build ids issued [e]).outcome = .ok changes)
    (hsome : changes.isEmpty = false) :
    ∃ planned rest, changes.commands = (collection, planned) :: rest ∧
      planned.LooksFor e.type e.baseline := by
  obtain ⟨current, hcurrent⟩ := e.completeKeys_value ids collection ⟨issued, []⟩
  have houtcome : (e.contribute ids 0 empty ⟨issued, []⟩).2.2 = .ok changes := by
    unfold build buildFrom at h
    split at h
    · cases h
    · next hcontribute =>
      rw [hcontribute]
      exact h
  unfold ChangeEntry.contribute at houtcome
  rw [hcollection] at houtcome
  dsimp only at houtcome
  rw [hcurrent] at houtcome
  split at houtcome
  · cases houtcome
  obtain ⟨commands, hcommands, rfl⟩ := Outcome.map_eq_ok.1 houtcome
  cases commands with
  | nil => cases hsome
  | cons planned rest =>
    refine ⟨planned, rest.map fun planned ↦ (collection, planned), ?_, ?_⟩
    · have hfirst : empty.add collection planned = ⟨[⟨collection, [planned]⟩]⟩ := rfl
      rw [List.foldl_cons, hfirst, foldl_add]
      simp [ChangeSet.commands]
    · exact ChangeEntry.commands_looksFor (e := { e with current := current }) he hcommands

end ChangeSet

/-! ## Stale documents -/

namespace UnitOfWork

/-- A change of an entity of an accepted model is not saved if every document with its key is stale:
the save tells of a conflict, and the store keeps what it holds. -/
theorem save_stale {m : ModelDeclaration} {model : Model} (hmodel : m.build = .ok model)
    {e : ChangeEntry} (htype : e.type ∈ model.entities) (hid : e.type.KeyHasId)
    {collection : String} (hcollection : e.type.collection = some collection)
    (hchange : e.IsChange) {ids : IdSource}
    {issued : Nat} {changes : ChangeSet}
    (hchanges : (ChangeSet.build ids issued [e]).outcome = .ok changes)
    (hsome : changes.isEmpty = false) {options : Options}
    (hoptions : options.transactionBehavior ≠ .never) {s : MemorySession}
    (hs : s.store.transactions = true)
    (hstale : ∀ key, e.type.keyValue e.baseline = .ok key →
      ∀ document ∈ s.store.documents collection,
        FieldOperator.equalsField (document.get? idElement) key = true →
          e.type.IsStale e.baseline document) :
    ∃ key, e.type.keyValue e.baseline = .ok key ∧
      let saved := save (Transport.memory true) Signal.never options changes .idle s
      saved.1 = (.error (.concurrencyConflict collection key.text), .rolledBack) ∧
        saved.2.store.collections = s.store.collections := by
  have hroot : e.type.isOwned = false := by
    rw [EntityType.isOwned, hcollection]
    rfl
  have h : e.type.Identified := ⟨ModelDeclaration.wellFormed_of_build hmodel _ htype, fun _ ↦ hid⟩
  obtain ⟨planned, rest, hcommands, filter, hcondition, hfilter⟩ :=
    ChangeSet.build_change hchange hcollection hchanges hsome
  obtain ⟨key, hkey, hshown, hselects⟩ := h.not_holds_of_isStale hroot hcondition
  have hnone : ∀ document ∈ s.store.documents collection, filter.holds document = false :=
    fun document hdocument ↦ hselects document (hstale key hkey document hdocument)
  refine ⟨key, hkey, ?_⟩
  rw [← hshown]
  exact save_unmatched hoptions hcommands hfilter hs hnone

open EntityType (declared)

/-- Drafts with a version, which is a concurrency token. -/
def drafts : ModelDeclaration :=
  ⟨.asDeclared, [⟨"Draft", false, none, ["Id"],
    [declared "Id" .string, declared "Text" .string,
      { declared "Version" .int32 with concurrencyToken := true }], [], none⟩]⟩

def draft : EntityType :=
  ⟨"Draft", some "Draft",
    [{ Property.plain "Id" (.scalar .string) with element := idElement },
      Property.plain "Text" (.scalar .string),
      { Property.plain "Version" (.scalar .int32) with concurrencyToken := true }],
    [{ Property.plain "Id" (.scalar .string) with element := idElement }], [], none⟩

def drafted (text : String) (version : Int32) : Entity :=
  ⟨"Draft", [("Id", .string "n"), ("Text", .string text), ("Version", .int32 version)]⟩

/-- A store with one document. -/
def storing (collection : String) (document : Document) : MemorySession :=
  .ofStore ⟨0, [(collection, ⟨[document], 0⟩)], true, fun issued ↦ ⟨lowBits 96 issued⟩, 0⟩

theorem save_stale_draft :
    let entry := ChangeEntry.modified draft (drafted "old" 1) (drafted "mine" 1)
    let s := storing "Draft" [(idElement, .string "n"), ("Text", .string "theirs"),
      ("Version", .int32 2)]
    drafts.build = .ok ⟨[draft]⟩ ∧ draft.KeyHasId ∧ entry.IsChange ∧
      Options.default.transactionBehavior ≠ .never ∧
      ∃ changes, (ChangeSet.build (.counting 1 1) 0 [entry]).outcome = .ok changes ∧
        changes.isEmpty = false ∧
        let saved := save (Transport.memory true) Signal.never Options.default changes .idle s
        saved.1 = (.error (.concurrencyConflict "Draft" (Bson.string "n").text), .rolledBack) ∧
          saved.2.store.collections = s.store.collections := by
  intro entry s
  have hbuild : drafts.build = .ok ⟨[draft]⟩ := rfl
  have hid : draft.KeyHasId := by simp [EntityType.KeyHasId, draft]
  have hplain : { Property.plain "Version" (.scalar .int32) with concurrencyToken := true } ∈
      draft.plainProperties :=
    EntityType.mem_plainProperties.2 ⟨.tail _ (.tail _ (.head _)), rfl⟩
  have hchange : entry.IsChange := .inl rfl
  have hoptions : Options.default.transactionBehavior ≠ .never := by decide
  obtain ⟨changes, hchanges, hsome⟩ : ∃ changes,
      (ChangeSet.build (.counting 1 1) 0 [entry]).outcome = .ok changes ∧
        changes.isEmpty = false := ⟨_, rfl, rfl⟩
  obtain ⟨key, hkey, hsaved⟩ := save_stale hbuild (e := entry) List.mem_cons_self hid rfl hchange
    hchanges hsome hoptions (s := s) rfl fun key hkey document hdocument _ ↦ by
      cases List.mem_singleton.1 hdocument
      exact ⟨_, List.mem_singleton_self _, hplain, _, rfl,
        .inr ⟨rfl, trivial, _, rfl, .inr rfl, trivial, rfl⟩⟩
  cases hkey
  exact ⟨hbuild, hid, hchange, hoptions, changes, hchanges, hsome, hsaved⟩

/-- Notes that own a stamp with a version, which is a concurrency token. -/
def stampedNotes : ModelDeclaration :=
  ⟨.asDeclared,
    [⟨"Stamp", true, none, [], [{ declared "Version" .int32 with concurrencyToken := true }], [],
      none⟩,
    ⟨"Note", false, none, ["Id"], [declared "Id" .string, declared "Text" .string],
      [⟨"Stamp", "Stamp", none, none, false⟩], none⟩]⟩

def stamp : EntityType :=
  ⟨"Stamp", none,
    [{ Property.plain "Version" (.scalar .int32) with concurrencyToken := true }], [], [], none⟩

def stampedNote : EntityType :=
  ⟨"Note", some "Note",
    [{ Property.plain "Id" (.scalar .string) with element := idElement },
      Property.plain "Text" (.scalar .string)],
    [{ Property.plain "Id" (.scalar .string) with element := idElement }],
    [⟨"Stamp", "Stamp", stamp, none, false⟩], none⟩

def stamped (text : String) (version : Int32) : Entity :=
  ⟨"Note", [("Id", .string "n"), ("Stamp", .entity "Stamp" [("Version", .int32 version)]),
    ("Text", .string text)]⟩

/-- The version of an owned stamp is never asked for, so that a newer text is overwritten. -/
theorem save_overwrites_owned :
    let entry := ChangeEntry.modified stampedNote (stamped "old" 1) (stamped "mine" 1)
    let document (text : String) : Document := [(idElement, .string "n"), ("Text", .string text),
      ("Stamp", .document [("Version", .int32 2)])]
    let s := storing "Note" (document "theirs")
    stampedNotes.build = .ok ⟨[stamp, stampedNote]⟩ ∧ stampedNote.KeyHasId ∧
      (∀ p ∈ stamp.properties, p.concurrencyToken = true) ∧
      ∃ changes, (ChangeSet.build (.counting 1 1) 0 [entry]).outcome = .ok changes ∧
        let saved := save (Transport.memory true) Signal.never Options.default changes .idle s
        saved.1 = (.ok ⟨0, 1, 0⟩, .committed) ∧
          saved.2.store.documents "Note" = [document "mine"] := by
  have hid : stampedNote.KeyHasId := by simp [EntityType.KeyHasId, stampedNote]
  exact ⟨rfl, hid, by decide, _, rfl, rfl, rfl⟩

end UnitOfWork

end DocMapping
