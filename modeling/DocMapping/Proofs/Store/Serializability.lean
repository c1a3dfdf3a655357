import DocMapping.Proofs.Store.Replay

/-!
# Serializability of Stores

Many users of one store, each with a transaction of their own or with commands by themselves, take
their steps in any order.  A history keeps the commands that took effect, those of a transaction at
the moment of its commit.  The main statement is that running the history from the initial store,
one command after the other, gives the same documents and every command the same outcome.

A transaction copies a collection when it first touches it.  What makes its commands repeatable at
the time of the commit is that a collection whose version has not changed still holds what was
copied: the version would have to go through all numbers of 64 bits to come back.
-/

namespace DocMapping

/-! ## Stores in use -/

/-- An atomic step of a user of a store.  Transactions are told apart by numbers. -/
inductive StoreStep where
  | begin (number : Nat)
  | execute (number : Nat) (collection : String) (command : WriteCommand)
  | commit (number : Nat)
  | abort (number : Nat)
  /-- A command by itself. -/
  | direct (collection : String) (command : WriteCommand)

/-- The documents that a step stores have identifiers of their own. -/
def StoreStep.IsIdentified : StoreStep → Prop
  | execute _ _ command => command.IsIdentified
  | direct _ command => command.IsIdentified
  | begin _ | commit _ | abort _ => True

/-- A transaction that is open, and the commands it has run so far. -/
structure OpenTransaction where
  transaction : Transaction
  performed : List Performed

/-- A store, the transactions that are open on it, and the commands that took effect. -/
structure SharedStore where
  store : Store
  transactions : Nat → Option OpenTransaction
  /-- Successful commands by themselves and all commands of committed transactions, in the order in
  which they took effect. -/
  history : List Performed

namespace SharedStore

def ofStore (store : Store) : SharedStore := ⟨store, fun _ ↦ none, []⟩

/-- Begins a transaction; one of the same number that was open is dropped. -/
def begin (w : SharedStore) (number : Nat) : SharedStore :=
  match w.store.begin with
  | .ok transaction =>
    { w with transactions := Function.update w.transactions number (some ⟨transaction, []⟩) }
  | .error _ => w

def execute (w : SharedStore) (number : Nat) (collection : String) (command : WriteCommand) :
    SharedStore :=
  match w.transactions number with
  | some o =>
    let result := w.store.executeIn o.transaction collection command
    { w with
      store := result.1
      transactions := Function.update w.transactions number
        (some ⟨result.2.1, o.performed ++ [⟨collection, command, result.2.2⟩]⟩) }
  | none => w

def commit (w : SharedStore) (number : Nat) : SharedStore :=
  match w.transactions number with
  | some o =>
    let result := w.store.commit o.transaction
    { store := result.1
      transactions := Function.update w.transactions number none
      history := if result.2.isOk then w.history ++ o.performed else w.history }
  | none => w

def abort (w : SharedStore) (number : Nat) : SharedStore :=
  { w with transactions := Function.update w.transactions number none }

def direct (w : SharedStore) (collection : String) (command : WriteCommand) : SharedStore :=
  let result := w.store.execute collection command
  { w with
    store := result.1
    history :=
      if result.2.isOk then w.history ++ [⟨collection, command, result.2⟩] else w.history }

/-- What a step does; one of a transaction that is not open does nothing. -/
def step (w : SharedStore) : StoreStep → SharedStore
  | .begin number => w.begin number
  | .execute number collection command => w.execute number collection command
  | .commit number => w.commit number
  | .abort number => w.abort number
  | .direct collection command => w.direct collection command

def run (w : SharedStore) (steps : List StoreStep) : SharedStore := steps.foldl step w

end SharedStore

/-! ## How a store goes on -/

namespace Store

/-- A collection had the documents at the version, and at most so many changes were made to it
since. -/
def ChangedAtMost (s : Store) (steps : Nat) (collection : String) (version : UInt64)
    (documents : List Document) : Prop :=
  ∃ changes ≤ steps, s.version collection = version + .ofNat changes ∧
    (changes = 0 → s.documents collection = documents)

section ChangedAtMost

variable {s next : Store} {steps more : Nat} {collection : String} {version : UInt64}
  {documents : List Document}

theorem changedAtMost_of_eq (hversion : s.version collection = version)
    (hdocuments : s.documents collection = documents) :
    s.ChangedAtMost steps collection version documents :=
  ⟨0, steps.zero_le, hversion.trans (UInt64.add_zero _).symm, fun _ ↦ hdocuments⟩

theorem changedAtMost_one (hversion : s.version collection = version + 1) :
    s.ChangedAtMost 1 collection version documents :=
  ⟨1, Nat.le_refl 1, hversion, fun hone ↦ absurd hone Nat.one_ne_zero⟩

theorem ChangedAtMost.trans (h : s.ChangedAtMost steps collection version documents)
    (hnext : next.ChangedAtMost more collection (s.version collection) (s.documents collection)) :
    next.ChangedAtMost (steps + more) collection version documents := by
  obtain ⟨before, hbefore, hversion, hdocuments⟩ := h
  obtain ⟨since, hsince, hversion', hdocuments'⟩ := hnext
  refine ⟨before + since, Nat.add_le_add hbefore hsince, ?_, fun hzero ↦ ?_⟩
  · rw [hversion', hversion, UInt64.ofNat_add, UInt64.add_assoc]
  · obtain ⟨hfirst, hsecond⟩ := Nat.add_eq_zero_iff.1 hzero
    exact (hdocuments' hsecond).trans (hdocuments hfirst)

/-- A version that has not gone once through all numbers of 64 bits comes back only if nothing was
changed. -/
theorem ChangedAtMost.documents_eq (h : s.ChangedAtMost steps collection version documents)
    (hsteps : steps < 2 ^ 64) (hversion : version = s.version collection) :
    s.documents collection = documents := by
  obtain ⟨changes, hchanges, hcount, hdocuments⟩ := h
  refine hdocuments ?_
  have hnumbers := congrArg UInt64.toNat (hversion.trans hcount)
  rw [UInt64.toNat_add, UInt64.toNat_ofNat'] at hnumbers
  have hbound := version.toNat_lt
  omega

end ChangedAtMost

/-- One step leads from a store to the next: it changes no collection more than once. -/
structure Precedes (s next : Store) : Prop where
  identity : s.identity = next.identity
  changed : ∀ name, next.ChangedAtMost 1 name (s.version name) (s.documents name)

theorem precedes_of_collections {s next : Store} (hidentity : s.identity = next.identity)
    (h : s.collections = next.collections) : s.Precedes next := by
  refine ⟨hidentity, fun name ↦ changedAtMost_of_eq ?_ ?_⟩
  · simp only [version, h]
  · simp only [documents, h]

theorem precedes_execute (s : Store) (collection : String) (command : WriteCommand) :
    s.Precedes (s.execute collection command).1 := by
  cases happly : command.apply (s.ids s.nextId) collection (s.documents collection) with
  | error fault =>
    rw [execute_of_error happly]
    exact precedes_of_collections rfl rfl
  | ok result =>
    have hok : (s.execute collection command).2.isOk := by rw [execute_of_ok happly]; rfl
    refine ⟨(s.identity_execute collection command).symm, fun name ↦ ?_⟩
    have hversion := s.version_execute collection command name
    simp only [hok, and_true] at hversion
    by_cases hname : name = collection
    · rw [if_pos hname] at hversion
      exact changedAtMost_one hversion
    · rw [if_neg hname] at hversion
      refine changedAtMost_of_eq hversion ?_
      rw [s.documents_execute collection command, Function.update_of_ne hname]

theorem precedes_commit {s : Store} {t : Transaction} (hd : t.staged.Distinct) :
    s.Precedes (s.commit t).1 := by
  by_cases hcurrent : s.Current t
  · refine ⟨by rw [commit_of_current hcurrent], fun name ↦ ?_⟩
    have hversion := version_commit hd hcurrent name
    cases hcopy : t.staged.lookup name with
    | some copy =>
      rw [hcopy] at hversion
      exact changedAtMost_one hversion
    | none =>
      rw [hcopy] at hversion
      refine changedAtMost_of_eq hversion ?_
      rw [documents_commit hd hcurrent]
      simp only [view, staged, hcopy, Option.getD_none, documents]
  · obtain ⟨fault, hcommit⟩ := commit_of_not_current hcurrent
    rw [hcommit]
    exact precedes_of_collections rfl rfl

end Store

/-! ## What can be repeated -/

/-- The contents with the copies of a transaction in place of what they copy. -/
def Transaction.overlay (t : Transaction) (contents : Contents) : Contents :=
  fun name ↦ ((t.staged.lookup name).map Collection.documents).getD (contents name)

theorem Store.view_eq_overlay (s : Store) (t : Transaction) :
    s.view t = t.overlay s.documents := by
  funext name
  unfold view staged Transaction.overlay
  cases t.staged.lookup name <;> rfl

theorem Transaction.overlay_set (t : Transaction) (contents : Contents) (collection : String)
    (value : Collection) :
    Transaction.overlay { t with staged := t.staged.set collection value } contents =
      Function.update (t.overlay contents) collection value.documents := by
  funext name
  simp only [overlay, Collections.lookup_set, Function.update_apply]
  split <;> rfl

namespace OpenTransaction

/-- The commands of a transaction do the same on all contents that hold what was copied, and since it
was copied at most so many changes were made to the store. -/
structure Sound (o : OpenTransaction) (s : Store) (steps : Nat) : Prop where
  identity : o.transaction.store = s.identity
  distinct : o.transaction.staged.Distinct
  repeatable : ∃ copied : Contents,
    (∀ contents : Contents,
      (∀ name, (o.transaction.staged.lookup name).isSome → contents name = copied name) →
        contents.Replays o.performed (o.transaction.overlay contents)) ∧
    ∀ name copy, o.transaction.staged.lookup name = some copy →
      s.ChangedAtMost steps name copy.version (copied name)

variable {o : OpenTransaction} {s next : Store} {steps : Nat}

theorem sound_begin {t : Transaction} (h : s.begin = .ok t) : Sound ⟨t, []⟩ s steps := by
  unfold Store.begin at h
  split at h
  · cases h
    refine ⟨rfl, List.nodup_nil, s.documents, fun contents _ ↦ .nil contents, ?_⟩
    intro name copy hcopy
    cases hcopy
  · cases h

/-- What others do to the store does not make a transaction unsound. -/
theorem Sound.of_precedes (h : o.Sound s steps) (hnext : s.Precedes next) :
    o.Sound next (steps + 1) := by
  obtain ⟨copied, hreplays, hcopies⟩ := h.repeatable
  exact ⟨h.identity.trans hnext.identity, h.distinct, copied, hreplays,
    fun name copy hcopy ↦ (hcopies name copy hcopy).trans (hnext.changed name)⟩

/-- A sound transaction that can be committed repeats its commands on the store as it is now. -/
theorem Sound.replays (h : o.Sound s steps) (hsteps : steps < 2 ^ 64)
    (hcurrent : s.Current o.transaction) :
    Contents.Replays s.documents o.performed (s.commit o.transaction).1.documents := by
  obtain ⟨copied, hreplays, hcopies⟩ := h.repeatable
  rw [Store.documents_commit h.distinct hcurrent, Store.view_eq_overlay]
  apply hreplays
  intro name hname
  obtain ⟨copy, hcopy⟩ := Option.isSome_iff_exists.1 hname
  have hversion := hcurrent _ (Association.mem_of_lookup hcopy)
  exact (hcopies name copy hcopy).documents_eq hsteps hversion.symm

/-- What was copied, with the collections of the store where nothing was copied yet. -/
def copiedBy (t : Transaction) (s : Store) (copied : Contents) : Contents :=
  fun name ↦ if (t.staged.lookup name).isSome then copied name else s.documents name

section Touch

variable {t : Transaction} {copied : Contents} {collection : String}

theorem copiedBy_of_isSome {name : String} (h : (t.staged.lookup name).isSome) :
    copiedBy t s copied name = copied name := if_pos h

theorem copiedBy_of_eq_none {name : String} (h : t.staged.lookup name = none) :
    copiedBy t s copied name = s.documents name := by
  simp [copiedBy, h]

/-- Contents that hold what was copied look to the transaction as the store does, in the collection
that it touches. -/
theorem overlay_eq_view {contents : Contents}
    (h : contents collection = copiedBy t s copied collection) :
    t.overlay contents collection = s.view t collection := by
  rw [Store.view_eq_overlay]
  unfold Transaction.overlay
  cases hlookup : t.staged.lookup collection with
  | some copy => rfl
  | none => exact h.trans (copiedBy_of_eq_none hlookup)

/-- A collection that is touched is copied as it is now, unless it was copied before. -/
theorem copies_set
    (hcopies : ∀ name copy, t.staged.lookup name = some copy →
      s.ChangedAtMost steps name copy.version (copied name))
    {documents : List Document} {name : String} {copy : Collection}
    (hcopy : (t.staged.set collection ⟨documents, (s.staged t collection).version⟩).lookup name =
      some copy) :
    s.ChangedAtMost steps name copy.version (copiedBy t s copied name) := by
  have hversion : copy.version = (s.staged t name).version := by
    rw [Collections.lookup_set] at hcopy
    split at hcopy
    · next heq =>
      cases hcopy
      rw [heq]
    · simp only [Store.staged, hcopy, Option.getD_some]
  cases hlookup : t.staged.lookup name with
  | some old =>
    rw [copiedBy_of_isSome (by rw [hlookup]; rfl)]
    simp only [Store.staged, hlookup, Option.getD_some] at hversion
    rw [hversion]
    exact hcopies name old hlookup
  | none =>
    simp only [Store.staged, hlookup, Option.getD_none] at hversion
    exact Store.changedAtMost_of_eq hversion.symm (copiedBy_of_eq_none hlookup).symm

end Touch

/-- A command keeps its transaction sound, and others see nothing of it. -/
theorem Sound.executeIn (h : o.Sound s steps) (collection : String) {command : WriteCommand}
    (hcommand : command.IsIdentified) :
    let result := s.executeIn o.transaction collection command
    s.Precedes result.1 ∧ result.1.documents = s.documents ∧
      Sound ⟨result.2.1, o.performed ++ [⟨collection, command, result.2.2⟩]⟩ result.1
        (steps + 1) := by
  obtain ⟨next, hexecute⟩ := Store.executeIn_eq h.identity collection command
  rw [hexecute]
  refine ⟨Store.precedes_of_collections rfl rfl, rfl, h.identity, h.distinct.set _ _, ?_⟩
  obtain ⟨copied, hreplays, hcopies⟩ :=
    (h.of_precedes (Store.precedes_of_collections rfl rfl)).repeatable
  refine ⟨copiedBy o.transaction s copied, fun contents hcontents ↦ ?_,
    fun name copy hcopy ↦ copies_set hcopies hcopy⟩
  have hold : ∀ name, (o.transaction.staged.lookup name).isSome →
      contents name = copied name := by
    intro name hname
    rw [hcontents name (by rw [Collections.lookup_set]; split <;> simp [hname]),
      copiedBy_of_isSome hname]
  have hview := overlay_eq_view (hcontents collection (by rw [Collections.lookup_set]; simp))
  rw [Transaction.overlay_set]
  refine (hreplays contents hold).concat fun fresh ↦ ?_
  rw [hview, WriteCommand.perform_fresh hcommand fresh (s.ids s.nextId)]

end OpenTransaction

/-! ## The invariant of a store in use -/

namespace SharedStore

/-- The history leads from the initial contents to those of the store, and all open transactions are
sound after so many steps. -/
structure Sound (initial : Contents) (w : SharedStore) (steps : Nat) : Prop where
  history : initial.Replays w.history w.store.documents
  transactions : ∀ number o, w.transactions number = some o → o.Sound w.store steps

theorem sound_ofStore (s : Store) : (ofStore s).Sound s.documents 0 where
  history := .nil s.documents
  transactions number o h := by cases h

variable {initial : Contents} {w : SharedStore} {steps : Nat}

/-- The transactions stay sound where the store goes on and one of them is replaced. -/
theorem Sound.update (h : w.Sound initial steps) {next : Store} (hnext : w.store.Precedes next)
    (number : Nat) {replaced : Option OpenTransaction}
    (hreplaced : ∀ o, replaced = some o → o.Sound next (steps + 1)) :
    ∀ other o, Function.update w.transactions number replaced other = some o →
      o.Sound next (steps + 1) := by
  intro other o ho
  rw [Function.update_apply] at ho
  split at ho
  · exact hreplaced o ho
  · exact (h.transactions other o ho).of_precedes hnext

/-- A step that does nothing counts as well. -/
theorem Sound.idle (h : w.Sound initial steps) : w.Sound initial (steps + 1) :=
  ⟨h.history, fun number o ho ↦
    (h.transactions number o ho).of_precedes (Store.precedes_of_collections rfl rfl)⟩

theorem Sound.begin (h : w.Sound initial steps) (number : Nat) :
    (w.begin number).Sound initial (steps + 1) := by
  unfold SharedStore.begin
  cases hbegin : w.store.begin with
  | ok t =>
    refine ⟨h.history, h.update (Store.precedes_of_collections rfl rfl) number ?_⟩
    rintro o ⟨⟩
    exact OpenTransaction.sound_begin hbegin
  | error fault => exact h.idle

theorem Sound.execute (h : w.Sound initial steps) (number : Nat) (collection : String)
    {command : WriteCommand} (hcommand : command.IsIdentified) :
    (w.execute number collection command).Sound initial (steps + 1) := by
  unfold SharedStore.execute
  cases ho : w.transactions number with
  | none => exact h.idle
  | some o =>
    obtain ⟨hnext, hdocuments, hsound⟩ :=
      (h.transactions number o ho).executeIn collection hcommand
    refine ⟨?_, h.update hnext number (by rintro o' ⟨⟩; exact hsound)⟩
    rw [hdocuments]
    exact h.history

/-- It is here that a version must not have come back: the transaction is repeated on the store as it
is now. -/
theorem Sound.commit (h : w.Sound initial steps) (hsteps : steps < 2 ^ 64) (number : Nat) :
    (w.commit number).Sound initial (steps + 1) := by
  unfold SharedStore.commit
  cases ho : w.transactions number with
  | none => exact h.idle
  | some o =>
    have hsound := h.transactions number o ho
    refine ⟨?_, h.update (Store.precedes_commit hsound.distinct) number (by rintro o' ⟨⟩)⟩
    by_cases hcurrent : w.store.Current o.transaction
    · have hok : (w.store.commit o.transaction).2.isOk := by
        rw [Store.commit_of_current hcurrent]
        rfl
      simp only [hok, if_true]
      exact h.history.append (hsound.replays hsteps hcurrent)
    · obtain ⟨fault, hcommit⟩ := Store.commit_of_not_current hcurrent
      simp only [hcommit]
      exact h.history

theorem Sound.abort (h : w.Sound initial steps) (number : Nat) :
    (w.abort number).Sound initial (steps + 1) :=
  ⟨h.history, h.update (Store.precedes_of_collections rfl rfl) number (by rintro o ⟨⟩)⟩

theorem Sound.direct (h : w.Sound initial steps) (collection : String) {command : WriteCommand}
    (hcommand : command.IsIdentified) :
    (w.direct collection command).Sound initial (steps + 1) := by
  have hnext := w.store.precedes_execute collection command
  refine ⟨?_, fun number o ho ↦ (h.transactions number o ho).of_precedes hnext⟩
  have hreplays : initial.Replays
      (w.history ++ [⟨collection, command, (w.store.execute collection command).2⟩])
      (w.store.execute collection command).1.documents := by
    rw [Store.documents_execute]
    refine h.history.concat fun fresh ↦ ?_
    rw [Store.execute_outcome, WriteCommand.perform_fresh hcommand fresh]
  unfold SharedStore.direct
  cases happly : command.apply (w.store.ids w.store.nextId) collection
      (w.store.documents collection) with
  | ok result =>
    have hok : (w.store.execute collection command).2.isOk := by
      rw [Store.execute_of_ok happly]
      rfl
    simpa only [hok, if_true] using hreplays
  | error fault =>
    rw [Store.execute_of_error happly]
    exact h.history

theorem Sound.step (h : w.Sound initial steps) (hsteps : steps < 2 ^ 64) {step : StoreStep}
    (hstep : step.IsIdentified) : (w.step step).Sound initial (steps + 1) := by
  cases step with
  | begin number => exact h.begin number
  | execute number collection command => exact h.execute number collection hstep
  | commit number => exact h.commit hsteps number
  | abort number => exact h.abort number
  | direct collection command => exact h.direct collection hstep

theorem Sound.run (h : w.Sound initial steps) {more : List StoreStep}
    (hmore : ∀ step ∈ more, step.IsIdentified) (hcount : steps + more.length ≤ 2 ^ 64) :
    (w.run more).Sound initial (steps + more.length) := by
  induction more generalizing w steps with
  | nil => exact h
  | cons step rest ih =>
    obtain ⟨hstep, hrest⟩ := List.forall_mem_cons.1 hmore
    have hlength : steps + (step :: rest).length = steps + 1 + rest.length :=
      (Nat.add_right_comm steps 1 rest.length).symm
    rw [hlength] at hcount ⊢
    exact ih (h.step (by omega) hstep) hrest hcount

/-! ## What others see -/

/-- Between two moments nothing took effect. -/
def SameEffects (w next : SharedStore) : Prop :=
  next.store.documents = w.store.documents ∧ next.history = w.history

theorem sameEffects_begin (w : SharedStore) (number : Nat) : w.SameEffects (w.begin number) := by
  unfold SharedStore.begin
  cases w.store.begin <;> exact ⟨rfl, rfl⟩

theorem Sound.sameEffects_execute (h : w.Sound initial steps) (number : Nat) (collection : String)
    (command : WriteCommand) : w.SameEffects (w.execute number collection command) := by
  unfold SharedStore.execute
  cases ho : w.transactions number with
  | none => exact ⟨rfl, rfl⟩
  | some o =>
    have hidentity := (h.transactions number o ho).identity
    obtain ⟨next, hexecute⟩ := Store.executeIn_eq hidentity collection command
    simp only [hexecute]
    exact ⟨rfl, rfl⟩

theorem sameEffects_commit {o : OpenTransaction} {number : Nat} (ho : w.transactions number = some o)
    (hfails : (w.store.commit o.transaction).2.isOk = false) :
    w.SameEffects (w.commit number) := by
  have hcurrent : ¬w.store.Current o.transaction := fun hcurrent ↦ by
    rw [Store.commit_of_current hcurrent] at hfails
    cases hfails
  obtain ⟨fault, hcommit⟩ := Store.commit_of_not_current hcurrent
  simp only [SharedStore.commit, ho, hcommit]
  exact ⟨rfl, rfl⟩

/-- Whatever order the users of a store take their steps in, at every moment the commands that took
effect give the same documents and the same outcomes if they are run one after the other; beginning
a transaction, running commands in it, aborting it and failing to commit it have no effect.  Versions
are counted in 64 bits, which is enough for runs of up to `2 ^ 64` steps. -/
theorem run_serializable (initial : Store) (steps : List StoreStep)
    (hsteps : ∀ step ∈ steps, step.IsIdentified) (hcount : steps.length ≤ 2 ^ 64) :
    let w := (ofStore initial).run steps
    let replayed := initial.replay (w.history.map Performed.request)
    replayed.1.documents = w.store.documents ∧
      replayed.2 = w.history.map Performed.outcome ∧
      ∀ number,
        w.SameEffects (w.begin number) ∧
        (∀ collection command, w.SameEffects (w.execute number collection command)) ∧
        w.SameEffects (w.abort number) ∧
        ∀ o, w.transactions number = some o → (w.store.commit o.transaction).2.isOk = false →
          w.SameEffects (w.commit number) := by
  intro w replayed
  have hsound := (sound_ofStore initial).run hsteps (by omega)
  obtain ⟨hdocuments, houtcomes⟩ := hsound.history.replay
  refine ⟨hdocuments, houtcomes, fun number ↦ ?_⟩
  exact ⟨sameEffects_begin w number, hsound.sameEffects_execute number, ⟨rfl, rfl⟩,
    fun o ho hfails ↦ sameEffects_commit ho hfails⟩

/-- Two transactions that store a document in one collection; the second one to commit fails. -/
def contention : List StoreStep :=
  [.begin 0, .begin 1,
    .execute 0 "a" (.insert [(idElement, .int32 1)]),
    .execute 1 "a" (.insert [(idElement, .int32 2)]),
    .direct "b" (.delete (.all [])),
    .commit 1, .commit 0]

theorem run_serializable_contention :
    (∀ step ∈ contention, step.IsIdentified) ∧ contention.length ≤ 2 ^ 64 ∧
      let initial := Store.empty 0 true fun _ ↦ ⟨0⟩
      let w := (ofStore initial).run contention
      let replayed := initial.replay (w.history.map Performed.request)
      replayed.1.documents = w.store.documents ∧ replayed.2 = [.ok 0, .ok 1] := by
  have hsteps : ∀ step ∈ contention, step.IsIdentified := by
    simp [contention, StoreStep.IsIdentified, WriteCommand.IsIdentified, Document.get?]
  obtain ⟨hdocuments, houtcomes, -⟩ :=
    run_serializable (Store.empty 0 true fun _ ↦ ⟨0⟩) contention hsteps (by decide)
  exact ⟨hsteps, by decide, hdocuments, houtcomes⟩

end SharedStore

end DocMapping
