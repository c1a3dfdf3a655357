import DocMapping.UnitOfWork

/-!
# Units of Work as Functions of the State

Every effect is a function from a state to an outcome and the next state.  The equations here say
what the parts of a save are as such functions, so that later proofs follow the states by cases on
outcomes.
-/

namespace DocMapping

/-! ## Effects -/

namespace Effect

variable {σ α β : Type}

theorem bind_apply (effect : Effect σ α) (next : α → Effect σ β) (s : σ) :
    (effect >>= next) s =
      match effect s with
      | (.ok a, s) => next a s
      | (.error fault, s) => (.error fault, s) := by
  change ExceptT.bindCont next (effect s).1 (effect s).2 = _
  rcases effect s with ⟨_ | a, s⟩ <;> rfl

theorem lift_apply (action : StateM σ α) (s : σ) :
    (ExceptT.lift action : Effect σ α) s = (.ok (action s).1, (action s).2) := rfl

/-- Reports of effects are values like any others. -/
theorem state_bind_apply (action : StateM σ α) (next : α → StateM σ β) (s : σ) :
    (action >>= next) s = next (action s).1 (action s).2 := rfl

theorem mk_apply (action : StateM σ (Outcome α)) (s : σ) :
    (ExceptT.mk action : Effect σ α) s = action s := rfl

end Effect

theorem Signal.check_apply {σ : Type} (signal : Signal σ) (s : σ) :
    signal.check s = (if (signal s).1 then .error .cancelled else .ok (), (signal s).2) := by
  unfold Signal.check
  rw [Effect.bind_apply, Effect.lift_apply]
  cases (signal s).1 <;> rfl

/-! ## Commands -/

namespace UnitOfWork

variable {σ : Type} (transport : Transport σ) (signal : Signal σ)

theorem run_apply (inTransaction : Bool) (collection : String) (planned : PlannedCommand) (s : σ) :
    run transport inTransaction collection planned s =
      match transport.execute inTransaction collection planned.command s with
      | (.error fault, s) => (.error fault, s)
      | (.ok matched, s) =>
        (if planned.command.expectsMatch && matched == 0 then
          .error (.concurrencyConflict collection planned.key) else .ok (), s) := by
  unfold run
  rw [Effect.bind_apply]
  rcases transport.execute inTransaction collection planned.command s with ⟨fault | matched, s⟩
  · rfl
  · dsimp only
    split <;> rfl

/-- Runs one command unless the work is to stop. -/
def runChecked (inTransaction : Bool) (collection : String) (planned : PlannedCommand) :
    Effect σ Unit := do
  signal.check
  run transport inTransaction collection planned

theorem runChecked_apply (inTransaction : Bool) (collection : String) (planned : PlannedCommand)
    (s : σ) :
    runChecked transport signal inTransaction collection planned s =
      if (signal s).1 then (.error .cancelled, (signal s).2)
      else run transport inTransaction collection planned (signal s).2 := by
  unfold runChecked
  rw [Effect.bind_apply, Signal.check_apply]
  cases (signal s).1 <;> rfl

theorem runEach_cons (inTransaction : Bool) (collection : String) (planned : PlannedCommand)
    (rest : List (String × PlannedCommand)) (s : σ) :
    runEach transport signal inTransaction ((collection, planned) :: rest) s =
      match runChecked transport signal inTransaction collection planned s with
      | (.error fault, s) => (([], .error fault), s)
      | (.ok (), s) =>
        let ran := runEach transport signal inTransaction rest s
        (((collection, planned) :: ran.1.1, ran.1.2), ran.2) := by
  have hchecked : (do
      signal.check
      run transport inTransaction collection planned : Effect σ Unit).run s =
        runChecked transport signal inTransaction collection planned s := rfl
  rw [runEach, Effect.state_bind_apply, hchecked]
  rcases runChecked transport signal inTransaction collection planned s with ⟨fault | _, s⟩ <;> rfl

/-! ## Saves -/

/-- All commands in the open transaction, and the last chance to stop before it is committed. -/
def attempt (changes : ChangeSet) : Effect σ Unit := ExceptT.mk do
  let (_, outcome) ← runEach transport signal true changes.commands
  match outcome with
  | .error fault => pure (.error fault)
  | .ok () => signal.check.run

theorem attempt_apply (changes : ChangeSet) (s : σ) :
    attempt transport signal changes s =
      match runEach transport signal true changes.commands s with
      | ((_, .error fault), s) => (.error fault, s)
      | ((_, .ok ()), s) => signal.check s := by
  unfold attempt
  rw [Effect.mk_apply, Effect.state_bind_apply]
  rcases runEach transport signal true changes.commands s with ⟨⟨_, fault | _⟩, s⟩ <;> rfl

theorem saveInTransaction_apply (changes : ChangeSet) (s : σ) :
    saveInTransaction transport signal changes s =
      match transport.begin s with
      | (.error fault, s) => (.error fault, s)
      | (.ok (), s) =>
        match attempt transport signal changes s with
        | (.error fault, s) => (.error fault, (transport.abort s).2)
        | (.ok (), s) =>
          ((transport.commit s).1.map fun _ ↦ changes.summary, (transport.commit s).2) := by
  unfold saveInTransaction
  rw [Effect.bind_apply]
  rcases transport.begin s with ⟨fault | _, s⟩
  · rfl
  dsimp only
  rw [attempt_apply, Effect.bind_apply, Effect.lift_apply, Effect.state_bind_apply]
  rcases runEach transport signal true changes.commands s with ⟨⟨_, fault | _⟩, s⟩
  · rfl
  dsimp only [ExceptT.run]
  rcases signal.check s with ⟨fault | _, s⟩
  · rfl
  dsimp only
  rw [Effect.bind_apply]
  rcases transport.commit s with ⟨fault | _, s⟩ <;> rfl

theorem compensate_cons (collection : String) (planned : PlannedCommand)
    (rest : List (String × PlannedCommand)) (s : σ) :
    compensate transport ((collection, planned) :: rest) s =
      match planned.compensation with
      | some inverse =>
        ((), (transport.execute false collection inverse (compensate transport rest s).2).2)
      | none => ((), (compensate transport rest s).2) := by
  rw [compensate, Effect.state_bind_apply]
  cases planned.compensation <;> rfl

theorem saveDirectly_apply (compensating : Bool) (changes : ChangeSet) (s : σ) :
    saveDirectly transport signal compensating changes s =
      match runEach transport signal false changes.commands s with
      | ((_, .ok ()), s) => (.ok changes.summary, s)
      | ((applied, .error fault), s) =>
        (.error fault, if compensating then (compensate transport applied s).2 else s) := by
  unfold saveDirectly
  rw [Effect.bind_apply, Effect.lift_apply]
  rcases runEach transport signal false changes.commands s with ⟨⟨applied, fault | _⟩, s⟩
  · cases compensating <;> rfl
  · rfl

/-- A unit that is not idle refuses to save, and nothing happens. -/
theorem save_of_not_idle {state : UnitState} (h : state ≠ .idle) (options : Options)
    (changes : ChangeSet) (s : σ) :
    save transport signal options changes state s =
      ((.error (.operation (.alreadySaved state.name)), state), s) := by
  cases state <;> first | exact absurd rfl h | rfl

theorem prepare_apply {options : Options} {transactional : Bool}
    (h : options.transactional transport.supportsTransactions = .ok transactional) (s : σ) :
    prepare transport signal options .idle s =
      (if (signal s).1 then .error .cancelled else .ok transactional, (signal s).2) := by
  have hoption : (Effect.ofOutcome (options.transactional transport.supportsTransactions) :
      Effect σ Bool) s = (.ok transactional, s) := by
    rw [h]
    rfl
  change (do
    let transactional ← Effect.ofOutcome (options.transactional transport.supportsTransactions)
    signal.check
    return transactional : Effect σ Bool) s = _
  rw [Effect.bind_apply, hoption]
  dsimp only
  rw [Effect.bind_apply, Signal.check_apply]
  cases (signal s).1 <;> rfl

/-- An idle unit stays idle only if the work is to stop before it begins. -/
theorem save_idle {options : Options} {transactional : Bool}
    (h : options.transactional transport.supportsTransactions = .ok transactional)
    (changes : ChangeSet) (s : σ) :
    save transport signal options changes .idle s =
      if (signal s).1 then ((.error .cancelled, .idle), (signal s).2)
      else
        let saved :=
          (if transactional then saveInTransaction transport signal changes
            else saveDirectly transport signal options.compensateOnFailure changes) (signal s).2
        ((saved.1, if saved.1.isOk then .committed else .rolledBack), saved.2) := by
  have hprepare : (prepare transport signal options .idle).run s =
      (if (signal s).1 then .error .cancelled else .ok transactional, (signal s).2) :=
    prepare_apply transport signal h s
  unfold save
  rw [Effect.state_bind_apply, hprepare]
  cases (signal s).1 <;> rfl

theorem save_transactional {options : Options}
    (h : options.transactional transport.supportsTransactions = .ok true) (changes : ChangeSet)
    (s : σ) :
    save transport signal options changes .idle s =
      if (signal s).1 then ((.error .cancelled, .idle), (signal s).2)
      else
        let saved := saveInTransaction transport signal changes (signal s).2
        ((saved.1, if saved.1.isOk then .committed else .rolledBack), saved.2) :=
  save_idle transport signal h changes s

theorem save_direct {options : Options}
    (h : options.transactional transport.supportsTransactions = .ok false) (changes : ChangeSet)
    (s : σ) :
    save transport signal options changes .idle s =
      if (signal s).1 then ((.error .cancelled, .idle), (signal s).2)
      else
        let saved := saveDirectly transport signal options.compensateOnFailure changes (signal s).2
        ((saved.1, if saved.1.isOk then .committed else .rolledBack), saved.2) :=
  save_idle transport signal h changes s

end UnitOfWork

end DocMapping
