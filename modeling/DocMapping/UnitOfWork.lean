import DocMapping.Change.ChangeSet
import DocMapping.Options
import DocMapping.Transport

/-!
# Units of Work

Storing a change set as a whole.  In a transaction nothing is stored unless everything is.  Without
one, commands take effect as they are run, and after a failure the commands that undo them may be run in
reverse order, as far as they can.  Cancellation is asked for before every command, and before the
commit; a unit that has begun cannot be saved again.
-/

namespace DocMapping

/-- How far a unit of work has come. -/
inductive UnitState where
  | idle
  | executing
  | committed
  | rolledBack
deriving DecidableEq

def UnitState.name : UnitState → String
  | idle => "Idle"
  | executing => "Executing"
  | committed => "Committed"
  | rolledBack => "RolledBack"

/-- How many documents a save has stored, changed and removed. -/
structure SaveSummary where
  inserted : Nat
  updated : Nat
  deleted : Nat
deriving DecidableEq

namespace SaveSummary

def zero : SaveSummary := ⟨0, 0, 0⟩

def total (s : SaveSummary) : Nat := s.inserted + s.updated + s.deleted

def record (s : SaveSummary) : WriteCommand → SaveSummary
  | .insert _ => { s with inserted := s.inserted + 1 }
  | .update _ _ => { s with updated := s.updated + 1 }
  | .delete _ => { s with deleted := s.deleted + 1 }

end SaveSummary

namespace ChangeSet

/-- What the commands amount to. -/
def summary (c : ChangeSet) : SaveSummary :=
  c.commands.foldl (fun s entry ↦ s.record entry.2.command) SaveSummary.zero

end ChangeSet

namespace Options

/-- Whether a save uses a transaction, with a store that has them or not. -/
def transactional (o : Options) (supported : Bool) : Outcome Bool :=
  match o.transactionBehavior with
  | .required => if supported then .ok true else .error (.configuration .transactionsRequired)
  | .whenSupported => .ok supported
  | .never => .ok false

end Options

namespace UnitOfWork

variable {σ : Type}

/-- Runs one command, which must match a document if it looks for one. -/
def run (transport : Transport σ) (inTransaction : Bool) (collection : String)
    (planned : PlannedCommand) : Effect σ Unit := do
  let matched ← transport.execute inTransaction collection planned.command
  if planned.command.expectsMatch && matched == 0 then
    throw (.concurrencyConflict collection planned.key)

/-- Runs commands up to the first failure: those that succeeded, and the outcome. -/
def runEach (transport : Transport σ) (signal : Signal σ) (inTransaction : Bool) :
    List (String × PlannedCommand) → StateM σ (List (String × PlannedCommand) × Outcome Unit)
  | [] => pure ([], .ok ())
  | (collection, planned) :: rest => do
    let outcome ← (do signal.check; run transport inTransaction collection planned : Effect σ Unit).run
    match outcome with
    | .error fault => return ([], .error fault)
    | .ok () =>
      let (applied, outcome) ← runEach transport signal inTransaction rest
      return ((collection, planned) :: applied, outcome)

/-- Runs the commands that undo applied ones, the last first, whether they succeed or not. -/
def compensate (transport : Transport σ) : List (String × PlannedCommand) → StateM σ Unit
  | [] => pure ()
  | (collection, planned) :: rest => do
    compensate transport rest
    match planned.compensation with
    | some inverse =>
      let _ ← (transport.execute false collection inverse).run
    | none => pure ()

/-- Runs all commands in a transaction and commits it. -/
def saveInTransaction (transport : Transport σ) (signal : Signal σ) (changes : ChangeSet) :
    Effect σ SaveSummary := do
  transport.begin
  let outcome ← ExceptT.lift do
    let (_, outcome) ← runEach transport signal true changes.commands
    match outcome with
    | .error fault => pure (.error fault)
    | .ok () => signal.check.run
  match outcome with
  | .error fault =>
    let _ ← Effect.observe transport.abort
    throw fault
  | .ok () =>
    transport.commit
    return changes.summary

/-- Runs all commands by themselves. -/
def saveDirectly (transport : Transport σ) (signal : Signal σ) (compensating : Bool)
    (changes : ChangeSet) : Effect σ SaveSummary := do
  let (applied, outcome) ← ExceptT.lift (runEach transport signal false changes.commands)
  match outcome with
  | .ok () => return changes.summary
  | .error fault =>
    if compensating then ExceptT.lift (compensate transport applied)
    throw fault

/-- Checks whether the unit may begin, and tells whether it uses a transaction. -/
def prepare (transport : Transport σ) (signal : Signal σ) (options : Options) (state : UnitState) :
    Effect σ Bool := do
  if state ≠ .idle then throw (.operation (.alreadySaved state.name))
  let transactional ← Effect.ofOutcome (options.transactional transport.supportsTransactions)
  signal.check
  return transactional

/-- Saves a change set with a unit in some state: the outcome, and the state after it. -/
def save (transport : Transport σ) (signal : Signal σ) (options : Options) (changes : ChangeSet)
    (state : UnitState) : StateM σ (Outcome SaveSummary × UnitState) := do
  match ← (prepare transport signal options state).run with
  | .error fault => return (.error fault, state)
  | .ok transactional =>
    let outcome ←
      (if transactional then saveInTransaction transport signal changes
        else saveDirectly transport signal options.compensateOnFailure changes).run
    return (outcome, if outcome.isOk then .committed else .rolledBack)

end UnitOfWork

end DocMapping
