import DocMapping.Materialization
import DocMapping.Transport

/-!
# Execution

Running a plan through a transport.  A sequence is fetched step by step, and every document is shaped
only after the work was not cancelled.  Operators that want one result fetch no more documents than
they need to tell how many there are, and count them before they shape any.
-/

namespace DocMapping

variable {σ : Type}

namespace Plan

/-- The documents of a plan, at most `cap` of them. -/
def fetch (p : Plan) (transport : Transport σ) (signal : Signal σ) (parameters : Parameters)
    (cap : Nat) : Effect σ (List Document) := do
  let query ← Effect.ofOutcome (p.selection.toQuery parameters (some cap))
  let cursor ← transport.find p.selection.collection query
  (cursor.take cap).mapM fun step ↦ do
    let document ← Effect.observe step
    signal.check
    Effect.ofOutcome document

/-- The results of a plan, each a step of its own. -/
def stream (p : Plan) (transport : Transport σ) (signal : Signal σ) (parameters : Parameters) :
    Effect σ (List (Effect σ Value)) := do
  signal.check
  let query ← Effect.ofOutcome (p.selection.toQuery parameters none)
  let cursor ← transport.find p.selection.collection query
  return cursor.map fun step ↦ do
    let document ← Effect.observe step
    signal.check
    Effect.ofOutcome (document.bind (p.materialize parameters))

/-- All results of a plan, up to the first that fails. -/
def toList (p : Plan) (transport : Transport σ) (signal : Signal σ) (parameters : Parameters) :
    Effect σ (List Value) := do
  (← p.stream transport signal parameters).mapM id

/-- The only document, or the value for none. -/
def shapeOne (p : Plan) (parameters : Parameters) (orDefault : Bool) : List Document → Outcome Value
  | [] => if orDefault then .ok .null else .error (.cardinality .noElements)
  | [document] => p.materialize parameters document
  | _ => .error (.cardinality .moreThanOneElement)

/-- There is a document, whatever its content. -/
def any (p : Plan) (transport : Transport σ) (signal : Signal σ) (parameters : Parameters) :
    Effect σ Bool := do
  let query ← Effect.ofOutcome (p.selection.toQuery parameters (some 1))
  let cursor ← transport.find p.selection.collection
    { query with projection := some [idElement] }
  signal.check
  match cursor with
  | [] => return false
  | step :: _ => do
    let _ ← step
    return true

/-- The number of documents. -/
def count (p : Plan) (transport : Transport σ) (signal : Signal σ) (parameters : Parameters) :
    Effect σ Nat := do
  let query ← Effect.ofOutcome (p.selection.toQuery parameters none)
  let number ← transport.count p.selection.collection query
  signal.check
  return number

/-- A number of documents as a value of the bits of the result. -/
def countValue (bits : Nat) (value : Int → Value) (number : Nat) : Outcome Value :=
  if number < 2 ^ (bits - 1) then .ok (value number)
  else .error (.operation (.countTooLarge (toString number)))

/-- The result of a plan. -/
def execute (p : Plan) (transport : Transport σ) (signal : Signal σ) (parameters : Parameters) :
    Effect σ Value := do
  signal.check
  match p.terminal with
  | .sequence => return .collection .list (← p.toList transport signal parameters)
  | .first orDefault =>
    let documents ← p.fetch transport signal parameters 1
    Effect.ofOutcome (p.shapeOne parameters orDefault documents)
  | .single orDefault =>
    let documents ← p.fetch transport signal parameters 2
    Effect.ofOutcome (p.shapeOne parameters orDefault documents)
  | .any => return .bool (← p.any transport signal parameters)
  | .count =>
    let number ← p.count transport signal parameters
    Effect.ofOutcome (countValue 32 (fun n ↦ .int32 (Int32.ofInt n)) number)
  | .longCount =>
    let number ← p.count transport signal parameters
    Effect.ofOutcome (countValue 64 (fun n ↦ .int64 (Int64.ofInt n)) number)

end Plan

/-! ## Results that can be given up -/

/-- The results of a plan for values of its parameters, until they are disposed of. -/
structure QueryResults where
  plan : Plan
  parameters : Parameters
  disposed : Bool

namespace QueryResults

def dispose (r : QueryResults) : QueryResults := { r with disposed := true }

/-- The results, each a step of its own. -/
def stream (r : QueryResults) (transport : Transport σ) (signal : Signal σ) :
    Effect σ (List (Effect σ Value)) :=
  if r.disposed then throw (.operation .disposed)
  else r.plan.stream transport signal r.parameters

def toList (r : QueryResults) (transport : Transport σ) (signal : Signal σ) :
    Effect σ (List Value) := do
  (← r.stream transport signal).mapM id

end QueryResults

end DocMapping
