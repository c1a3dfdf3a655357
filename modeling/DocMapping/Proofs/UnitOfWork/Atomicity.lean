import DocMapping.Proofs.Store.Replay
import DocMapping.Proofs.UnitOfWork.Steps
import DocMapping.Transport.Memory
import Mathlib.Data.List.Forall2

/-!
# Saves that Happen as a Whole

A unit of work that uses a transaction on a store in memory.  Whatever goes wrong, and at whatever
check the work is to stop, the store holds in the end what it held before, or else every command
took effect.  The signal may keep a state of its own beside that of the transport, so that it can
answer each check as it likes; nobody else works on the store in the meantime.
-/

namespace DocMapping

/-! ## Transports beside other state -/

section Beside

variable {σ α : Type} (τ : Type)

/-- An effect on the first part of a state. -/
def Effect.beside (effect : Effect σ α) : Effect (σ × τ) α :=
  fun s ↦ ((effect s.1).1, (effect s.1).2, s.2)

/-- A transport that knows nothing of the second part of a state. -/
def Transport.beside (transport : Transport σ) : Transport (σ × τ) where
  supportsTransactions := transport.supportsTransactions
  find collection query :=
    (fun cursor ↦ cursor.map (Effect.beside τ)) <$> (transport.find collection query).beside τ
  count collection query := (transport.count collection query).beside τ
  execute inTransaction collection command :=
    (transport.execute inTransaction collection command).beside τ
  begin := transport.begin.beside τ
  commit := transport.commit.beside τ
  abort := transport.abort.beside τ

/-- The signal leaves the first part of the state alone. -/
def Signal.IsPassive {τ : Type} (signal : Signal (σ × τ)) : Prop := ∀ s, (signal s).2.1 = s.1

end Beside

/-! ## Commands in the open transaction -/

/-- The command succeeded, and found a document if it looked for one. -/
def WriteCommand.Succeeded (command : WriteCommand) (outcome : Outcome Nat) : Prop :=
  ∃ matched, outcome = .ok matched ∧ (command.expectsMatch = true → matched ≠ 0)

namespace MemorySession

/-- The store holds what it held, and the open transaction finds other contents. -/
structure InTransaction (initial : Store) (contents : Contents) (s : MemorySession) : Prop where
  collections : s.store.collections = initial.collections
  transaction : ∃ t, s.transaction = some t ∧ t.store = s.store.identity ∧ t.staged.Distinct ∧
    s.store.Current t ∧ s.store.view t = contents

variable {initial : Store} {contents : Contents} {s : MemorySession}

theorem inTransaction_begin (h : s.store.transactions = true) :
    s.begin.1 = .ok () ∧ s.begin.2.InTransaction s.store s.store.documents := by
  have hbegin : s.store.begin = .ok ⟨s.store.identity, []⟩ := by
    unfold Store.begin
    rw [if_pos h]
  unfold MemorySession.begin
  rw [hbegin]
  refine ⟨rfl, rfl, _, rfl, rfl, List.nodup_nil, ?_, rfl⟩
  intro entry hentry
  cases hentry

/-- A command in the transaction does to its contents what it does to documents, and nothing to
those of the store. -/
theorem InTransaction.execute (h : s.InTransaction initial contents) (collection : String)
    {command : WriteCommand} (hcommand : command.IsIdentified) (fresh : ObjectId) :
    let result := s.execute true collection command
    let performed := command.perform fresh collection (contents collection)
    result.1 = performed.2 ∧
      result.2.InTransaction initial (Function.update contents collection performed.1) := by
  obtain ⟨hcollections, t, ht, hidentity, hdistinct, hcurrent, rfl⟩ := h
  obtain ⟨next, hexecute⟩ := Store.executeIn_eq hidentity collection command
  rw [WriteCommand.perform_fresh hcommand (s.store.ids s.store.nextId) fresh] at hexecute
  simp only [MemorySession.execute, ht, hexecute]
  refine ⟨trivial, hcollections, _, rfl, hidentity, hdistinct.set _ _, ?_, ?_⟩
  · exact Store.Current.set hcurrent collection _
  · funext name
    simp only [Store.view, Function.update_apply]
    rw [Store.staged_set]
    split <;> rfl

/-- A commit with nobody else at work publishes what the transaction found. -/
theorem InTransaction.commit (h : s.InTransaction initial contents) :
    s.commit.1 = .ok () ∧ s.commit.2.store.documents = contents := by
  obtain ⟨-, t, ht, -, hdistinct, hcurrent, rfl⟩ := h
  have hcommit := Store.commit_of_current hcurrent
  have hdocuments := Store.documents_commit hdistinct hcurrent
  rw [hcommit] at hdocuments
  unfold MemorySession.commit
  rw [ht]
  dsimp only
  rw [hcommit]
  exact ⟨rfl, hdocuments⟩

theorem InTransaction.documents (h : s.InTransaction initial contents) :
    s.store.documents = initial.documents := by
  funext name
  simp only [Store.documents, h.collections]

end MemorySession

/-! ## Runs and saves -/

namespace UnitOfWork

open MemorySession

variable {τ : Type} {signal : Signal (MemorySession × τ)} {initial : Store} {contents : Contents}

/-- Access to a store in memory that has transactions, with the state of the signal beside it. -/
abbrev memory (τ : Type) : Transport (MemorySession × τ) := (Transport.memory true).beside τ

/-- What the commands of a change set ask of their collections, in order. -/
def requests (commands : List (String × PlannedCommand)) : List (String × WriteCommand) :=
  commands.map fun entry ↦ (entry.1, entry.2.command)

/-- A command is not run once the work is to stop.  Otherwise the run fails if the command does or
found nothing, and succeeds if the command does. -/
theorem runChecked_cases {σ : Type} (transport : Transport σ) (signal : Signal σ)
    (inTransaction : Bool) (collection : String) (planned : PlannedCommand) (s : σ) :
    let ran := runChecked transport signal inTransaction collection planned s
    let executed := transport.execute inTransaction collection planned.command (signal s).2
    ran = (.error .cancelled, (signal s).2) ∨
      (∃ fault, ran = (.error fault, executed.2) ∧
        (executed.1 = .error fault ∨ executed.1 = .ok 0)) ∨
      (ran = (.ok (), executed.2) ∧ planned.command.Succeeded executed.1) := by
  dsimp only
  rw [runChecked_apply]
  cases (signal s).1 with
  | true => exact .inl (if_pos rfl)
  | false =>
    rw [if_neg Bool.false_ne_true, run_apply]
    rcases transport.execute inTransaction collection planned.command (signal s).2 with
      ⟨fault | matched, after⟩
    · exact .inr (.inl ⟨fault, rfl, .inl rfl⟩)
    · dsimp only
      split
      · next hvain =>
        obtain ⟨-, hzero⟩ := Bool.and_eq_true_iff.1 hvain
        rw [beq_iff_eq] at hzero
        exact .inr (.inl ⟨_, rfl, .inr (congrArg Except.ok hzero)⟩)
      · next hfound =>
        refine .inr (.inr ⟨rfl, matched, rfl, fun hexpects hzero ↦ hfound ?_⟩)
        simp [hexpects, hzero]

/-- A command that is run keeps its transaction open, with the contents that it leads to. -/
theorem runChecked_memory (hsignal : signal.IsPassive) {s : MemorySession × τ}
    (h : s.1.InTransaction initial contents) (collection : String) {planned : PlannedCommand}
    (hplanned : planned.command.IsIdentified) :
    let ran := runChecked (memory τ) signal true collection planned s
    (∃ after, ran.2.1.InTransaction initial after) ∧
      (ran.1 = .ok () → ∃ documents outcome,
        (∀ fresh, planned.command.perform fresh collection (contents collection) =
          (documents, outcome)) ∧
        planned.command.Succeeded outcome ∧
        ran.2.1.InTransaction initial (Function.update contents collection documents)) := by
  intro ran
  rw [← hsignal s] at h
  obtain ⟨houtcome, hafter⟩ := h.execute collection hplanned ⟨0⟩
  have hexecute : ((memory τ).execute true collection planned.command (signal s).2).1 = _ := houtcome
  rcases runChecked_cases (memory τ) signal true collection planned s with
    hran | ⟨fault, hran, -⟩ | ⟨hran, hsucceeded⟩
  · rw [show ran = _ from hran]
    exact ⟨⟨contents, h⟩, fun hok ↦ by cases hok⟩
  · rw [show ran = _ from hran]
    exact ⟨⟨_, hafter⟩, fun hok ↦ by cases hok⟩
  · rw [show ran = _ from hran]
    rw [hexecute] at hsucceeded
    refine ⟨⟨_, hafter⟩, fun _ ↦ ⟨_, _, fun fresh ↦ ?_, hsucceeded, hafter⟩⟩
    exact WriteCommand.perform_fresh hplanned fresh ⟨0⟩ collection (contents collection)

/-- Commands that are run keep their transaction open; if none of them fails, they lead to its
contents one after the other. -/
theorem runEach_memory (hsignal : signal.IsPassive) {commands : List (String × PlannedCommand)}
    (hcommands : ∀ entry ∈ commands, entry.2.command.IsIdentified) {s : MemorySession × τ}
    (h : s.1.InTransaction initial contents) :
    let ran := runEach (memory τ) signal true commands s
    ∃ after, ran.2.1.InTransaction initial after ∧
      (ran.1.2 = .ok () → ∃ performed, contents.Replays performed after ∧
        performed.map Performed.request = requests commands ∧
        ∀ p ∈ performed, p.command.Succeeded p.outcome) := by
  induction commands generalizing s contents with
  | nil => exact ⟨contents, h, fun _ ↦ ⟨[], .nil contents, rfl, by simp⟩⟩
  | cons entry rest ih =>
    obtain ⟨collection, planned⟩ := entry
    obtain ⟨hplanned, hrest⟩ := List.forall_mem_cons.1 hcommands
    obtain ⟨⟨stopped, hstopped⟩, hok⟩ := runChecked_memory hsignal h collection hplanned
    intro ran
    have hran : ran = runEach (memory τ) signal true ((collection, planned) :: rest) s := rfl
    rw [runEach_cons] at hran
    generalize runChecked (memory τ) signal true collection planned s = checked
      at hstopped hok hran
    obtain ⟨fault | _, s⟩ := checked
    · rw [hran]
      exact ⟨stopped, hstopped, fun hfault ↦ by cases hfault⟩
    · obtain ⟨documents, outcome, hperform, hsucceeded, hnext⟩ := hok rfl
      obtain ⟨after, hafter, hran'⟩ := ih hrest hnext
      rw [hran]
      refine ⟨after, hafter, fun hdone ↦ ?_⟩
      obtain ⟨performed, hreplays, hrequests, hall⟩ := hran' hdone
      refine ⟨⟨collection, planned.command, outcome⟩ :: performed,
        .cons documents hperform hreplays, ?_, List.forall_mem_cons.2 ⟨hsucceeded, hall⟩⟩
      rw [List.map_cons, hrequests]
      rfl

/-- A save in a transaction on which nobody else works. -/
theorem saveInTransaction_memory (hsignal : signal.IsPassive) {changes : ChangeSet}
    (hchanges : ∀ entry ∈ changes.commands, entry.2.command.IsIdentified) {s : MemorySession × τ}
    (hs : s.1.store.transactions = true) :
    let saved := saveInTransaction (memory τ) signal changes s
    (∀ fault, saved.1 = .error fault → saved.2.1.store.documents = s.1.store.documents) ∧
      (∀ summary, saved.1 = .ok summary → ∃ performed,
        Contents.Replays s.1.store.documents performed saved.2.1.store.documents ∧
        performed.map Performed.request = requests changes.commands ∧
        ∀ p ∈ performed, p.command.Succeeded p.outcome) := by
  intro saved
  have hsaved : saved = saveInTransaction (memory τ) signal changes s := rfl
  obtain ⟨hbegin, hopen⟩ := inTransaction_begin hs
  have hbegun : (memory τ).begin s = (.ok (), s.1.begin.2, s.2) := Prod.ext hbegin rfl
  rw [saveInTransaction_apply, hbegun] at hsaved
  dsimp only at hsaved
  rw [attempt_apply] at hsaved
  obtain ⟨after, hafter, hran⟩ := runEach_memory (s := (s.1.begin.2, s.2)) hsignal hchanges hopen
  generalize runEach (memory τ) signal true changes.commands (s.1.begin.2, s.2) = ran
    at hafter hran hsaved
  obtain ⟨⟨applied, fault | _⟩, s'⟩ := ran
  · rw [hsaved]
    exact ⟨fun _ _ ↦ hafter.documents, fun _ hok ↦ by cases hok⟩
  · dsimp only at hsaved
    rw [Signal.check_apply] at hsaved
    rw [← hsignal s'] at hafter
    cases hstop : (signal s').1 with
    | true =>
      rw [hstop] at hsaved
      rw [hsaved]
      exact ⟨fun _ _ ↦ hafter.documents, fun _ hok ↦ by cases hok⟩
    | false =>
      obtain ⟨hcommit, hdocuments⟩ := hafter.commit
      have hcommitted : (memory τ).commit (signal s').2 =
          (.ok (), (signal s').2.1.commit.2, (signal s').2.2) := Prod.ext hcommit rfl
      rw [hstop] at hsaved
      simp only [Bool.false_eq_true, if_false, hcommitted] at hsaved
      rw [hsaved]
      refine ⟨fun _ hfault ↦ (by cases hfault), fun _ _ ↦ ?_⟩
      dsimp only
      rw [hdocuments]
      exact hran rfl

/-- What the outcome of a save says about a store in memory on which nobody else works. -/
structure IsAtomic (changes : ChangeSet) (before : Store) (outcome : Outcome SaveSummary)
    (after : Store) : Prop where
  /-- All commands have taken effect, one after the other, and found their documents. -/
  ok : ∀ summary, outcome = .ok summary →
    let replayed := before.replay (requests changes.commands)
    after.documents = replayed.1.documents ∧
      List.Forall₂ (fun request result ↦ request.2.Succeeded result) (requests changes.commands)
        replayed.2
  /-- Nothing has taken effect. -/
  error : ∀ fault, outcome = .error fault → after.documents = before.documents

theorem isAtomic_saveInTransaction (hsignal : signal.IsPassive) {changes : ChangeSet}
    (hchanges : ∀ entry ∈ changes.commands, entry.2.command.IsIdentified) {s : MemorySession × τ}
    (hs : s.1.store.transactions = true) :
    let saved := saveInTransaction (memory τ) signal changes s
    IsAtomic changes s.1.store saved.1 saved.2.1.store := by
  obtain ⟨herror, hok⟩ := saveInTransaction_memory hsignal hchanges hs
  refine ⟨fun summary hsummary ↦ ?_, herror⟩
  obtain ⟨performed, hreplays, hrequests, hall⟩ := hok summary hsummary
  obtain ⟨hdocuments, houtcomes⟩ := hreplays.replay
  rw [← hrequests]
  refine ⟨hdocuments.symm, ?_⟩
  rw [houtcomes, List.forall₂_map_left_iff, List.forall₂_map_right_iff, List.forall₂_same]
  exact hall

/-- A save in a transaction on a store in memory happens as a whole or not at all, wherever it fails
or is told to stop.  A unit that has begun is committed or rolled back, and refuses every further
save, which touches nothing. -/
theorem save_atomic (hsignal : signal.IsPassive) {options : Options}
    (hoptions : options.transactionBehavior ≠ .never) {changes : ChangeSet}
    (hchanges : ∀ entry ∈ changes.commands, entry.2.command.IsIdentified) (s : MemorySession × τ)
    (hs : s.1.store.transactions = true) :
    let saved := save (memory τ) signal options changes .idle s
    IsAtomic changes s.1.store saved.1.1 saved.2.1.store ∧
      saved.1.2 = (if (signal s).1 then .idle
        else if saved.1.1.isOk then .committed else .rolledBack) ∧
      (saved.1.1.isOk → saved.1.2 = .committed) ∧
      (saved.1.2 ≠ .idle → ∀ signal options changes (s : MemorySession × τ),
        save (memory τ) signal options changes saved.1.2 s =
          ((.error (.operation (.alreadySaved saved.1.2.name)), saved.1.2), s)) := by
  have htransactional : options.transactional (memory τ).supportsTransactions = .ok true := by
    unfold Options.transactional
    cases hbehavior : options.transactionBehavior with
    | never => exact absurd hbehavior hoptions
    | required => rfl
    | whenSupported => rfl
  intro saved
  have hsaved : saved = save (memory τ) signal options changes .idle s := rfl
  rw [save_transactional (memory τ) signal htransactional] at hsaved
  refine ⟨?_, ?_, ?_, fun hstate signal options changes s ↦
    save_of_not_idle (memory τ) signal hstate options changes s⟩
  · cases hstop : (signal s).1 with
    | true =>
      rw [hstop, if_pos rfl] at hsaved
      rw [hsaved]
      refine ⟨fun _ hok ↦ (by cases hok), fun _ _ ↦ ?_⟩
      dsimp only
      rw [hsignal s]
    | false =>
      rw [hstop, if_neg (by decide)] at hsaved
      rw [hsaved, ← hsignal s]
      rw [← hsignal s] at hs
      exact isAtomic_saveInTransaction hsignal hchanges hs
  · rw [hsaved]
    cases (signal s).1 <;> rfl
  · rw [hsaved]
    cases (signal s).1 with
    | true =>
      intro hok
      cases hok
    | false =>
      intro hok
      exact if_pos hok

/-- A signal that reads its answers from a list. -/
def answers : Signal (MemorySession × List Bool) :=
  fun s ↦ (s.2.headD false, s.1, s.2.tail)

/-- Two documents to be stored in one collection. -/
def twoInserts : ChangeSet :=
  ⟨[⟨"a", [⟨.insert [(idElement, .int32 1)], 0, "1", none⟩,
    ⟨.insert [(idElement, .int32 2)], 1, "2", none⟩]⟩]⟩

/-- The save of two documents in an empty store, checked with some answers. -/
def savedInserts (replies : List Bool) :
    (Outcome SaveSummary × UnitState) × (MemorySession × List Bool) :=
  save (memory (List Bool)) answers Options.default twoInserts .idle
    (MemorySession.ofStore (Store.empty 0 true fun issued ↦ ⟨lowBits 96 issued⟩), replies)

theorem save_atomic_twoInserts :
    answers.IsPassive ∧ Options.default.transactionBehavior ≠ .never ∧
      (∀ entry ∈ twoInserts.commands, entry.2.command.IsIdentified) ∧
      (savedInserts []).1 = (.ok ⟨2, 0, 0⟩, .committed) ∧
      (savedInserts []).2.1.store.documents "a" = [[(idElement, .int32 1)], [(idElement, .int32 2)]] ∧
      (savedInserts [false, false, true]).1 = (.error .cancelled, .rolledBack) ∧
      (savedInserts [false, false, true]).2.1.store.documents "a" = [] := by
  have hpassive : answers.IsPassive := fun s ↦ rfl
  have hbehavior : Options.default.transactionBehavior ≠ .never := by decide
  have hidentified : ∀ entry ∈ twoInserts.commands, entry.2.command.IsIdentified := by
    simp [twoInserts, ChangeSet.commands, WriteCommand.IsIdentified, Document.get?]
  have hsaved (replies : List Bool) := save_atomic hpassive hbehavior hidentified
    (MemorySession.ofStore (Store.empty 0 true fun issued ↦ ⟨lowBits 96 issued⟩), replies) rfl
  have hdone : (savedInserts []).1.1 = .ok ⟨2, 0, 0⟩ := rfl
  have hstopped : (savedInserts [false, false, true]).1.1 = .error .cancelled := rfl
  obtain ⟨hcommitted, hstate, -⟩ := hsaved []
  obtain ⟨hrolledBack, hstate', -⟩ := hsaved [false, false, true]
  refine ⟨hpassive, hbehavior, hidentified, Prod.ext hdone ?_, ?_, Prod.ext hstopped ?_, ?_⟩
  · exact hstate.trans rfl
  · exact congrFun (hcommitted.ok _ hdone).1 "a"
  · exact hstate'.trans rfl
  · exact congrFun (hrolledBack.error _ hstopped) "a"

end UnitOfWork

end DocMapping
