import DocMapping.Proofs.UnitOfWork.Atomicity

/-!
# Saves that Undo Themselves

A unit of work without a transaction runs its commands one after the other.  If each of them, in the
state that it is run in, can be undone by its compensation up to the order of documents, then running
the compensations backwards undoes any number of them: the one of the last command meets the documents
that the command has left, and leaves those that the command before it has left, up to their order.
-/

namespace DocMapping

/-! ## Commands and their compensations -/

/-- The compensation of the command turns the documents after it into those before it, whatever
their order. -/
def PlannedCommand.Undone (planned : PlannedCommand) (collection : String)
    (before after : List Document) : Prop :=
  ∃ inverse, planned.compensation = some inverse ∧ ∀ fresh documents, documents.Perm after →
    (inverse.perform fresh collection documents).1.Perm before

/-- Every command can be undone in the contents that the commands before it lead to. -/
def Revertible : List (String × PlannedCommand) → Contents → Prop
  | [], _ => True
  | (collection, planned) :: rest, contents => ∀ fresh documents outcome,
      planned.command.perform fresh collection (contents collection) = (documents, outcome) →
      planned.command.Succeeded outcome →
        planned.Undone collection (contents collection) documents ∧
          Revertible rest (Function.update contents collection documents)

theorem Contents.perm_update {contents other : Contents} {collection : String}
    {documents : List Document} (hothers : ∀ name ≠ collection, (contents name).Perm (other name))
    (h : documents.Perm (other collection)) (name : String) :
    (Function.update contents collection documents name).Perm (other name) := by
  rw [Function.update_apply]
  split
  · next hname =>
    rw [hname]
    exact h
  · next hname => exact hothers name hname

/-! ## Runs -/

namespace UnitOfWork

variable {τ : Type} {signal : Signal (MemorySession × τ)} (transactions : Bool)

/-- Access to a store in memory with the state of the signal beside it. -/
abbrev inMemory (τ : Type) : Transport (MemorySession × τ) :=
  (Transport.memory transactions).beside τ

theorem documents_execute (collection : String) (command : WriteCommand) (s : MemorySession × τ) :
    ∃ fresh,
      let performed := command.perform fresh collection (s.1.store.documents collection)
      let executed := (inMemory transactions τ).execute false collection command s
      executed.1 = performed.2 ∧
        executed.2.1.store.documents =
          Function.update s.1.store.documents collection performed.1 :=
  ⟨s.1.store.ids s.1.store.nextId, s.1.store.execute_outcome collection command,
    s.1.store.documents_execute collection command⟩

/-- A command by itself either changes nothing, or succeeds and does what it does to documents. -/
theorem runChecked_directly (hsignal : signal.IsPassive) (collection : String)
    (planned : PlannedCommand) (s : MemorySession × τ) :
    let ran := runChecked (inMemory transactions τ) signal false collection planned s
    (∃ fault, ran.1 = .error fault ∧ ran.2.1.store.documents = s.1.store.documents) ∨
      (ran.1 = .ok () ∧ ∃ fresh documents outcome,
        planned.command.perform fresh collection (s.1.store.documents collection) =
          (documents, outcome) ∧ planned.command.Succeeded outcome ∧
        ran.2.1.store.documents = Function.update s.1.store.documents collection documents) := by
  intro ran
  obtain ⟨fresh, houtcome, hdocuments⟩ :=
    documents_execute transactions collection planned.command (signal s).2
  rw [hsignal s] at houtcome hdocuments
  generalize hperform : planned.command.perform fresh collection
    (s.1.store.documents collection) = performed at houtcome hdocuments
  obtain ⟨documents, outcome⟩ := performed
  rcases runChecked_cases (inMemory transactions τ) signal false collection planned s with
    hran | ⟨fault, hran, hfailed⟩ | ⟨hran, hsucceeded⟩
  · rw [show ran = _ from hran]
    exact .inl ⟨_, rfl, by rw [← hsignal s]⟩
  · rw [show ran = _ from hran]
    rw [houtcome] at hfailed
    have hkept : documents = s.1.store.documents collection := by
      rcases hfailed with rfl | rfl
      · exact WriteCommand.perform_error hperform
      · exact WriteCommand.perform_zero hperform
    exact .inl ⟨fault, rfl, hdocuments.trans (by rw [hkept, Function.update_eq_self])⟩
  · rw [show ran = _ from hran]
    rw [houtcome] at hsucceeded
    exact .inr ⟨rfl, fresh, documents, outcome, hperform, hsucceeded, hdocuments⟩

/-- Running the compensations of all commands that succeeded restores the documents of every
collection up to order. -/
theorem compensate_runEach (hsignal : signal.IsPassive)
    {commands : List (String × PlannedCommand)} {s : MemorySession × τ}
    (h : Revertible commands s.1.store.documents) :
    let ran := runEach (inMemory transactions τ) signal false commands s
    ∀ after : MemorySession × τ,
      (∀ name, (after.1.store.documents name).Perm (ran.2.1.store.documents name)) →
      ∀ name, (((compensate (inMemory transactions τ) ran.1.1 after).2.1.store.documents name).Perm
        (s.1.store.documents name)) := by
  induction commands generalizing s with
  | nil => exact fun after hafter ↦ hafter
  | cons entry rest ih =>
    obtain ⟨collection, planned⟩ := entry
    intro ran after hafter
    have hran : ran =
        runEach (inMemory transactions τ) signal false ((collection, planned) :: rest) s := rfl
    rw [runEach_cons] at hran
    have hchecked := runChecked_directly transactions hsignal collection planned s
    generalize runChecked (inMemory transactions τ) signal false collection planned s = checked
      at hchecked hran
    obtain ⟨outcome, next⟩ := checked
    obtain ⟨fault, rfl, hkept⟩ | ⟨rfl, fresh, documents, matched, hperform, hsucceeded, hnext⟩ :=
      hchecked
    · rw [hran] at hafter ⊢
      intro name
      rw [← hkept]
      exact hafter name
    · obtain ⟨⟨inverse, hinverse, hundo⟩, hrest⟩ := h fresh documents matched hperform hsucceeded
      rw [← hnext] at hrest
      rw [hran] at hafter ⊢
      have hback := ih hrest after hafter
      dsimp only
      rw [compensate_cons, hinverse]
      obtain ⟨other, -, hdocuments⟩ := documents_execute transactions collection inverse
        (compensate (inMemory transactions τ)
          (runEach (inMemory transactions τ) signal false rest next).1.1 after).2
      dsimp only
      rw [hdocuments]
      refine Contents.perm_update (fun name hname ↦ ?_) (hundo other _ ?_)
      · have hsame : next.1.store.documents name = s.1.store.documents name := by
          rw [hnext, Function.update_of_ne hname]
        rw [← hsame]
        exact hback name
      · have hlast := hback collection
        rw [hnext, Function.update_self] at hlast
        exact hlast

/-! ## Saves -/

/-- A save without a transaction that fails, at whatever command or check, leaves every collection
with the documents that it had, if its commands can be undone. -/
theorem save_undone (hsignal : signal.IsPassive) {options : Options}
    (hoptions : options.transactional transactions = .ok false)
    (hcompensate : options.compensateOnFailure = true) {changes : ChangeSet}
    {s : MemorySession × τ} (h : Revertible changes.commands s.1.store.documents)
    (state : UnitState) :
    let saved := save (inMemory transactions τ) signal options changes state s
    ∀ fault, saved.1.1 = .error fault →
      ∀ name, (saved.2.1.store.documents name).Perm (s.1.store.documents name) := by
  intro saved fault hfault name
  have hsaved : saved = save (inMemory transactions τ) signal options changes state s := rfl
  by_cases hstate : state = .idle
  · subst hstate
    rw [save_direct (inMemory transactions τ) signal hoptions] at hsaved
    have hpassive := hsignal s
    cases hstop : (signal s).1 with
    | true =>
      rw [hstop, if_pos rfl] at hsaved
      rw [hsaved, ← hpassive]
    | false =>
      rw [hstop, if_neg Bool.false_ne_true, hcompensate, saveDirectly_apply] at hsaved
      rw [← hpassive] at h ⊢
      have hback := compensate_runEach transactions hsignal h
      generalize runEach (inMemory transactions τ) signal false changes.commands (signal s).2 = ran
        at hback hsaved
      obtain ⟨⟨applied, _ | _⟩, last⟩ := ran
      · rw [hsaved]
        exact hback last (fun _ ↦ .rfl) name
      · rw [hsaved] at hfault
        cases hfault
  · rw [save_of_not_idle (inMemory transactions τ) signal hstate] at hsaved
    rw [hsaved]

end UnitOfWork

end DocMapping
