import DocMapping.Model
import DocMapping.Planning.Predicate
import DocMapping.Planning.Projection

/-!
# Planning

A query expression as a plan.  Operators are taken from the source outward; each may only follow those
that leave its place in the fixed order of a selection open: conditions and orders come before skipping
and taking, and a projection before nothing that looks at members.  A projection that no store can
be asked for is evaluated on whole entities instead, if that is permitted.
-/

namespace DocMapping

/-- A query while its operators are being applied. -/
structure PartialPlan where
  selection : Selection
  /-- The shaper of a projection, once there is one. -/
  shaper : Option Shaper

namespace Expression

/-! ## Arguments -/

/-- The only argument besides the receiver. -/
def soleArgument (call : Expression) : List Expression → Outcome Expression
  | [argument] => .ok argument
  | _ => .error (.planning (.argumentList call.text))

def soleLambda (call : Expression) (arguments : List Expression) : Outcome Lambda := do
  match ← soleArgument call arguments with
  | .lambda argument body => return ⟨argument, body⟩
  | other => throw (.planning (.notALambda other.text call.text))

/-- A number of documents. -/
def size (call : Expression) : Expression → Outcome SizeOperand
  | .queryParameter name => .ok (.parameter name)
  | .constant value =>
    match value.integer? with
    | some (.ofNat count) => .ok (.constant count)
    | _ => .error (.planning (.notACount call.text))
  | other => .error (.planning (.notAnOperand other.text call.text))

end Expression

namespace PartialPlan

def scope (s : PartialPlan) (f : Lambda) : Scope := ⟨f.parameter, s.selection.entity⟩

/-- The latest part of a selection that no condition and no order may follow. -/
def closed? (s : PartialPlan) : Option String :=
  if s.shaper.isSome then some "Select"
  else if s.selection.limit.isSome then some "Take"
  else if s.selection.skip.isSome then some "Skip"
  else none

def ensureOpen (s : PartialPlan) (operator : String) : Outcome Unit :=
  match s.closed? with
  | some previous => .error (.planning (.operatorAfter operator previous))
  | none => .ok ()

/-! ## Operators -/

/-- Selects only the documents that meet a condition.  One that none meets asks for documents without
an identifier. -/
def addPredicate (s : PartialPlan) (predicate : Predicate) : PartialPlan :=
  let restrict (condition : Filter Operand) : PartialPlan :=
    let filter :=
      match s.selection.filter with
      | some existing => existing.and condition
      | none => condition
    { s with selection := { s.selection with filter := some filter } }
  match predicate with
  | .always true => s
  | .always false => restrict (.present idElement false)
  | .filter condition => restrict condition

def restrictBy (s : PartialPlan) (operator : String) (f : Lambda) : Outcome PartialPlan := do
  s.ensureOpen operator
  return s.addPredicate (← (s.scope f).predicate f.body)

/-- The field that a function of an entity sorts by. -/
def sortField (s : PartialPlan) (direction : SortDirection) (f : Lambda) : Outcome SortField := do
  match ← ((s.scope f).resolve f.body).toOutcome with
  | some (.property path _) => return ⟨Text.dotted path, direction⟩
  | _ => throw (.planning (.sortKey f.body.text))

/-- Sorts anew. -/
def orderBy (s : PartialPlan) (method : Method) (direction : SortDirection) (call : Expression)
    (arguments : List Expression) : Outcome PartialPlan := do
  s.ensureOpen method.text
  let field ← s.sortField direction (← call.soleLambda arguments)
  return { s with selection := { s.selection with sort := [field] } }

/-- Sorts what is equal in the order so far. -/
def thenBy (s : PartialPlan) (method : Method) (direction : SortDirection) (call : Expression)
    (arguments : List Expression) : Outcome PartialPlan := do
  s.ensureOpen method.text
  if s.selection.sort.isEmpty then throw (.planning (.thenByFirst call.text))
  let field ← s.sortField direction (← call.soleLambda arguments)
  return { s with selection := { s.selection with sort := s.selection.sort ++ [field] } }

/-- The greatest number of documents that can be skipped. -/
def greatestCount : Nat := 2 ^ 64 - 1

/-- Skips documents, and those that were skipped before. -/
def skip (s : PartialPlan) (call : Expression) (arguments : List Expression) :
    Outcome PartialPlan := do
  if s.selection.limit.isSome then throw (.planning (.skipAfterTake call.text))
  let count ← call.size (← call.soleArgument arguments)
  let total ←
    match s.selection.skip, count with
    | none, count => pure count
    | some (.constant first), .constant second =>
      pure (.constant (min (first + second) greatestCount))
    | _, _ => throw (.planning (.repeatedSkip call.text))
  return { s with selection := { s.selection with skip := some total } }

/-- Takes the first documents, of those that were taken before. -/
def take (s : PartialPlan) (call : Expression) (arguments : List Expression) :
    Outcome PartialPlan := do
  let count ← call.size (← call.soleArgument arguments)
  let total ←
    match s.selection.limit, count with
    | none, count => pure count
    | some (.constant first), .constant second => pure (.constant (min first second))
    | _, _ => throw (.planning (.repeatedTake call.text))
  return { s with selection := { s.selection with limit := some total } }

/-- Shapes the results by a function.  The identity changes nothing. -/
def select (s : PartialPlan) (clientFallback : Bool) (call : Expression)
    (arguments : List Expression) : Outcome PartialPlan := do
  if s.shaper.isSome then throw (.planning (.repeatedSelect call.text))
  let f ← call.soleLambda arguments
  if f.isIdentity then return s
  match (s.scope f).project [] [] f.body with
  | .ok (shaper, projection) =>
    return { selection := { s.selection with projection := projection }, shaper := some shaper }
  | .error fault =>
    if clientFallback then
      return { selection := { s.selection with projection := [] }, shaper := some (.function f) }
    else throw (.planning fault)

/-- Applies one operator. -/
def apply (s : PartialPlan) (clientFallback : Bool) (method : Method)
    (arguments : List Expression) (call : Expression) : Outcome PartialPlan :=
  match method with
  | .filter => do
    s.ensureOpen method.text
    s.restrictBy method.text (← call.soleLambda arguments)
  | .orderBy => s.orderBy method .ascending call arguments
  | .orderByDescending => s.orderBy method .descending call arguments
  | .thenBy => s.thenBy method .ascending call arguments
  | .thenByDescending => s.thenBy method .descending call arguments
  | .skip => s.skip call arguments
  | .take => s.take call arguments
  | .select => s.select clientFallback call arguments
  | .first | .firstOrDefault | .single | .singleOrDefault | .any | .count | .longCount =>
    .error (.planning (.innerTerminal call.text method.text))
  | .contains | .startsWith | .endsWith | .named _ =>
    .error (.planning (.notAQueryMethod method.text call.text))

end PartialPlan

/-! ## Sources -/

namespace EntityType

/-- All documents of a root type.  A discriminator tells them from others in the collection. -/
def selection (t : EntityType) : Outcome Selection :=
  match t.collection with
  | none => .error (.planning (.ownedSource t.name))
  | some collection =>
    .ok {
      collection := collection
      entity := t
      filter := t.discriminator.map fun d ↦ .test d.element .eq (.constant (.string d.value))
      sort := []
      skip := none
      limit := none
      projection := [] }

end EntityType

namespace Expression

/-- The query of a set of entities with operators applied to it. -/
def source (model : Model) (clientFallback : Bool) : Expression → Outcome PartialPlan
  | .entitySet name =>
    match model.entity? name with
    | some t => t.selection.map fun selection ↦ ⟨selection, none⟩
    | none => .error (.planning (.unmappedEntity name))
  | .call method [] => .error (.planning (.noSource method.text))
  | .call method (receiver :: arguments) => do
    let s ← receiver.source model clientFallback
    s.apply clientFallback method arguments (.call method (receiver :: arguments))
  | other => .error (.planning (.notASource other.text))

/-- What a method makes of a sequence, if it ends a query. -/
def terminal? : Method → Option Terminal
  | .first => some (.first false)
  | .firstOrDefault => some (.first true)
  | .single => some (.single false)
  | .singleOrDefault => some (.single true)
  | .any => some .any
  | .count => some .count
  | .longCount => some .longCount
  | _ => none

/-- The sequence of a query, what becomes of it, and the last condition on it. -/
def splitTerminal (e : Expression) : Outcome (Expression × Terminal × Option Lambda) :=
  match e with
  | .call method arguments =>
    match terminal? method with
    | none => .ok (e, .sequence, none)
    | some terminal =>
      match arguments with
      | [sequence] => .ok (sequence, terminal, none)
      | [sequence, .lambda argument body] => .ok (sequence, terminal, some ⟨argument, body⟩)
      | _ => .error (.planning (.argumentList e.text))
  | _ => .ok (e, .sequence, none)

end Expression

namespace PartialPlan

/-- The projection to whole entities. -/
def wholeEntity (s : PartialPlan) : Projection :=
  [([], .stored (.entity [] s.selection.entity false))]

/-- The plan once all operators are applied. -/
def finish (s : PartialPlan) (terminal : Terminal) : Plan :=
  let whole : Plan := ⟨{ s.selection with projection := s.wholeEntity }, .place [], terminal⟩
  match terminal, s.shaper with
  | .any, _ => whole
  | .count, _ => whole
  | .longCount, _ => whole
  | _, none => whole
  | _, some shaper => ⟨s.selection, shaper, terminal⟩

end PartialPlan

namespace Model

/-- The plan of a query. -/
def plan (model : Model) (clientFallback : Bool) (e : Expression) : Outcome Plan := do
  let (sequence, terminal, condition) ← e.splitTerminal
  let s ← sequence.source model clientFallback
  let s ←
    match condition with
    | some f => s.restrictBy "a terminal predicate" f
    | none => pure s
  return s.finish terminal

end Model

end DocMapping
