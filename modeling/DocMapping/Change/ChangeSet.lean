import DocMapping.Bson.Text
import DocMapping.Change.Entry
import DocMapping.Change.Ordinal
import DocMapping.WriteCommand

/-!
# Change Sets

The commands that store the changes of tracked entities, in batches by collection, each with the
command that undoes it.  Missing keys are generated first.  Whatever an entity was given stays with it
even if the change set cannot be completed.
-/

namespace DocMapping

/-- A command, the entity that it is for, its key as shown in errors, and the command that undoes it. -/
structure PlannedCommand where
  command : WriteCommand
  entry : Nat
  key : String
  compensation : Option WriteCommand

/-- The commands for one collection, in order. -/
structure WriteBatch where
  collection : String
  commands : List PlannedCommand

/-- The commands for all collections, in the order in which the collections first occur. -/
structure ChangeSet where
  batches : List WriteBatch

namespace ChangeSet

def empty : ChangeSet := ⟨[]⟩

def isEmpty (c : ChangeSet) : Bool := c.batches.isEmpty

/-- The commands in the order in which they are run, each with its collection. -/
def commands (c : ChangeSet) : List (String × PlannedCommand) :=
  c.batches.flatMap fun batch ↦ batch.commands.map fun planned ↦ (batch.collection, planned)

def size (c : ChangeSet) : Nat := c.commands.length

/-- Adds a command to the batch of its collection. -/
def insertBatch (collection : String) (planned : PlannedCommand) : List WriteBatch → List WriteBatch
  | [] => [⟨collection, [planned]⟩]
  | batch :: rest =>
    if batch.collection = collection then { batch with commands := batch.commands ++ [planned] } :: rest
    else batch :: insertBatch collection planned rest

def add (c : ChangeSet) (collection : String) (planned : PlannedCommand) : ChangeSet :=
  ⟨insertBatch collection planned c.batches⟩

end ChangeSet

/-! ## Commands -/

namespace EntityType

/-- The condition that finds the document of an entity, and its key as shown. -/
def keyCondition (t : EntityType) (withTokens : Bool) (e : Entity) :
    Outcome (Filter Bson × String) :=
  (t.keyFilter withTokens e).map fun elements ↦
    (Filter.matching elements, ((elements.get? idElement).map Bson.text).getD "")

def planInsert (t : EntityType) (entry : Nat) (current : Entity) : Outcome PlannedCommand := do
  let document ← t.encode current
  let (condition, key) ← t.keyCondition false current
  return ⟨.insert document, entry, key, some (.delete condition)⟩

def planDelete (t : EntityType) (entry : Nat) (baseline : Entity) : Outcome PlannedCommand := do
  let (condition, key) ← t.keyCondition true baseline
  let document ← t.encode baseline
  return ⟨.delete condition, entry, key, some (.insert document)⟩

/-- Changes a document in place, or replaces it where the key is another one. -/
def planUpdate (t : EntityType) (entry : Nat) (baseline current : Entity) :
    Outcome (List PlannedCommand) := do
  let baselineKey ← t.keyValue baseline
  let currentKey ← t.keyValue current
  if baselineKey.eq currentKey then
    let changes ← t.diff baseline current
    if changes.isEmpty then return []
    let (condition, key) ← t.keyCondition true baseline
    let restored ← t.diff current baseline
    let (restoring, _) ← t.keyCondition true current
    return [⟨.update condition changes, entry, key, some (.update restoring restored)⟩]
  else
    let removal ← t.planDelete entry baseline
    return [removal, ← t.planInsert entry current]

end EntityType

/-! ## Keys -/

/-- What the building of change sets carries along. -/
structure KeyState where
  /-- The number of the next generated identifier. -/
  issued : Nat
  ordinals : OrdinalCounters

namespace IdSource

/-- The generated value of a key. -/
def generate (ids : IdSource) (t : EntityType) (p : Property) (number : Nat) : Outcome Value :=
  match p.generator with
  | some .objectId => .ok (.objectId (ids.objectId number))
  | some .objectIdString => .ok (.string (ids.objectId number).text)
  | some .guid => .ok (.guid (ids.guid number))
  | some .ordinal => .error (.operation (.ordinalKey p.name t.name))
  | none => .error (.operation (.missingKey t.name p.name))

/-- Generates a key if the entity has none. -/
def generateKey (ids : IdSource) (t : EntityType) (p : Property) (e : Entity) (issued : Nat) :
    Progress Nat Entity :=
  if (e.value p.name).isDefault then
    match ids.generate t p issued with
    | .ok value => .done (e.set p.name value) (issued + 1)
    | .error fault => ⟨e, issued, some fault⟩
  else .done e issued

end IdSource

namespace ChangeEntry

/-- Generates the missing keys of the entity itself. -/
def generateKeys (e : ChangeEntry) (ids : IdSource) (s : KeyState) : Progress KeyState ChangeEntry :=
  let p := Progress.steps (ids.generateKey e.type) e.type.keys e.current s.issued
  ⟨{ e with current := p.value }, { s with issued := p.state }, p.fault⟩

/-- Numbers the owned entities of the entity. -/
def assignOrdinals (e : ChangeEntry) (collection : String) (s : KeyState) :
    Progress KeyState ChangeEntry :=
  match e.type.keyValue e.current with
  | .error fault => ⟨e, s, some fault⟩
  | .ok key =>
    let p := e.type.assignOrdinals (collection ++ "/" ++ key.text) e.current s.ordinals
    ⟨{ e with current := p.value }, { s with ordinals := p.state }, p.fault⟩

/-- Gives the entity all keys that it misses. -/
def completeKeys (e : ChangeEntry) (ids : IdSource) (collection : String) (s : KeyState) :
    Progress KeyState ChangeEntry :=
  match e.state with
  | .added => (e.generateKeys ids s).andThen fun e s ↦ e.assignOrdinals collection s
  | .modified => e.assignOrdinals collection s
  | _ => .done e s

/-- The commands for an entity whose keys are complete. -/
def commands (e : ChangeEntry) (entry : Nat) : Outcome (List PlannedCommand) :=
  match e.state with
  | .detached | .unchanged => .ok []
  | .added => (e.type.planInsert entry e.current).map fun planned ↦ [planned]
  | .modified => e.type.planUpdate entry e.baseline e.current
  | .deleted => (e.type.planDelete entry e.baseline).map fun planned ↦ [planned]

/-- Completes an entity and adds its commands to a change set. -/
def contribute (e : ChangeEntry) (ids : IdSource) (entry : Nat) (changes : ChangeSet)
    (s : KeyState) : ChangeEntry × KeyState × Outcome ChangeSet :=
  match e.type.collection with
  | none => (e, s, .error (.operation (.ownedEntry e.type.name)))
  | some collection =>
    let p := e.completeKeys ids collection s
    let outcome : Outcome ChangeSet :=
      match p.fault with
      | some fault => .error fault
      | none =>
        (p.value.commands entry).map fun commands ↦
          commands.foldl (fun changes planned ↦ changes.add collection planned) changes
    (p.value, p.state, outcome)

end ChangeEntry

/-- The entities as building a change set has left them, with the change set or its failure. -/
structure BuiltChanges where
  entries : List ChangeEntry
  issued : Nat
  outcome : Outcome ChangeSet

namespace ChangeSet

/-- Adds the commands of entities, numbered from `entry` on; those after a failure stay untouched. -/
def buildFrom (ids : IdSource) (entry : Nat) (changes : ChangeSet) (s : KeyState) :
    List ChangeEntry → BuiltChanges
  | [] => ⟨[], s.issued, .ok changes⟩
  | e :: rest =>
    match e.contribute ids entry changes s with
    | (e, s, .error fault) => ⟨e :: rest, s.issued, .error fault⟩
    | (e, s, .ok changes) =>
      let built := buildFrom ids (entry + 1) changes s rest
      { built with entries := e :: built.entries }

/-- The change set of entities, generating identifiers from number `issued` on. -/
def build (ids : IdSource) (issued : Nat) (entries : List ChangeEntry) : BuiltChanges :=
  buildFrom ids 0 empty ⟨issued, []⟩ entries

end ChangeSet

end DocMapping
