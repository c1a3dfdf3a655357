import DocMapping.Error
import DocMapping.Query
import DocMapping.WriteCommand

/-!
# Transports

How the library reaches a store: the only operations that have effects.  They act on a state of the
transport's own, which keeps what they did even when they fail.  A cursor is a list of steps, each of
which fetches one document.  Cancellation is asked for, never announced: every check runs the signal.
-/

namespace DocMapping

/-- An operation on a state that may fail. -/
abbrev Effect (σ α : Type) := ExceptT StoreError (StateM σ) α

namespace Effect

variable {σ α : Type}

/-- An outcome without an effect. -/
def ofOutcome (outcome : Outcome α) : Effect σ α := ExceptT.mk (pure outcome)

/-- The outcome of an operation as a value. -/
def observe (effect : Effect σ α) : Effect σ (Outcome α) := ExceptT.lift effect.run

end Effect

/-- The answer to whether the work is to stop. -/
abbrev Signal (σ : Type) := StateM σ Bool

namespace Signal

variable {σ : Type}

/-- Work that nobody stops. -/
def never : Signal σ := fun s ↦ (false, s)

/-- Stops the work if it is to stop. -/
def check (signal : Signal σ) : Effect σ Unit := do
  if ← ExceptT.lift signal then throw .cancelled

end Signal

/-- Access to a store with at most one open transaction. -/
structure Transport (σ : Type) where
  supportsTransactions : Bool
  find : String → Query → Effect σ (List (Effect σ Document))
  count : String → Query → Effect σ Nat
  /-- Runs a command, inside the open transaction or by itself, and tells how many documents it
  matched. -/
  execute : Bool → String → WriteCommand → Effect σ Nat
  begin : Effect σ Unit
  commit : Effect σ Unit
  abort : Effect σ Unit

end DocMapping
