import DocMapping.Execution
import DocMapping.Planning
import DocMapping.UnitOfWork

/-!
# Document Contexts

What an application works with: a model, its options and a supply of identifiers, over any transport.
A context plans and runs queries, tracks entities, and saves what has become of them in one unit
of work.
-/

namespace DocMapping

structure DocumentContext where
  model : Model
  options : Options
  ids : IdSource

/-- Tracked entities after a save, and what came of it. -/
structure SavedChanges where
  entries : List ChangeEntry
  issued : Nat
  outcome : Outcome SaveSummary

namespace DocumentContext

variable {σ : Type}

/-- Tracks a new entity. -/
def add (c : DocumentContext) (type : String) (value : Entity) : Outcome ChangeEntry :=
  (c.model.require type).map fun t ↦ .added t value

/-- Tracks a stored entity. -/
def attach (c : DocumentContext) (type : String) (value : Entity) : Outcome ChangeEntry :=
  (c.model.require type).map fun t ↦ .unchanged t value

def compile (c : DocumentContext) (query : Expression) : Outcome Plan :=
  c.model.plan c.options.clientProjectionFallback query

/-- Saves the changes of tracked entities, generating identifiers from number `issued` on.  Only a
successful save makes the entities count as stored. -/
def save (c : DocumentContext) (transport : Transport σ) (signal : Signal σ) (issued : Nat)
    (entries : List ChangeEntry) : StateM σ SavedChanges := do
  let built := ChangeSet.build c.ids issued (entries.map ChangeEntry.detect)
  match built.outcome with
  | .error fault => return ⟨built.entries, built.issued, .error fault⟩
  | .ok changes =>
    if changes.isEmpty then return ⟨built.entries, built.issued, .ok SaveSummary.zero⟩
    let (outcome, _) ← UnitOfWork.save transport signal c.options changes .idle
    match outcome with
    | .error fault => return ⟨built.entries, built.issued, .error fault⟩
    | .ok summary => return ⟨built.entries.map ChangeEntry.accept, built.issued, .ok summary⟩

end DocumentContext

end DocMapping
