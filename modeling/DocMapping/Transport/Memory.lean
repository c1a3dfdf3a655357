import DocMapping.Store
import DocMapping.Transport

/-!
# Access to a Store in Memory

The transport over a store in memory.  Its state is the store and the transaction that is open; a
transaction ends when it is committed or aborted, whether that succeeds or not.
-/

namespace DocMapping

/-- A store in memory and the open transaction on it. -/
structure MemorySession where
  store : Store
  transaction : Option Transaction

namespace MemorySession

def ofStore (store : Store) : MemorySession := ⟨store, none⟩

/-- Runs a command in the open transaction; without one, by itself. -/
def execute (inTransaction : Bool) (collection : String) (command : WriteCommand)
    (s : MemorySession) : Outcome Nat × MemorySession :=
  match inTransaction, s.transaction with
  | true, some transaction =>
    let (store, transaction, matched) := s.store.executeIn transaction collection command
    (matched, ⟨store, some transaction⟩)
  | _, _ =>
    let (store, matched) := s.store.execute collection command
    (matched, { s with store := store })

def begin (s : MemorySession) : Outcome Unit × MemorySession :=
  match s.store.begin with
  | .ok transaction => (.ok (), { s with transaction := some transaction })
  | .error fault => (.error fault, s)

def commit (s : MemorySession) : Outcome Unit × MemorySession :=
  match s.transaction with
  | some transaction =>
    let (store, outcome) := s.store.commit transaction
    (outcome, ⟨store, none⟩)
  | none => (.ok (), s)

def abort (s : MemorySession) : Outcome Unit × MemorySession :=
  (.ok (), { s with transaction := none })

end MemorySession

namespace Transport

/-- The transport over a store in memory with or without transactions. -/
def memory (transactions : Bool) : Transport MemorySession where
  supportsTransactions := transactions
  find collection query := fun s ↦ (.ok ((s.store.find collection query).map pure), s)
  count collection query := fun s ↦ (.ok (s.store.count collection query), s)
  execute inTransaction collection command :=
    MemorySession.execute inTransaction collection command
  begin := MemorySession.begin
  commit := MemorySession.commit
  abort := MemorySession.abort

end Transport

end DocMapping
