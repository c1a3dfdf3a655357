import DocMapping.Planning.Target

/-!
# Projections of Plans

A function of an entity as a shaper and the bindings of its places.  Records and arrays are taken
apart; at their leaves stand members, constants and parameters of the query, and nothing else.
-/

namespace DocMapping.Scope

mutual

/-- The shaper for an expression at a place, with its bindings added to those found before. -/
def project (s : Scope) (place : Place) (bindings : Projection) :
    Expression → Planned (Shaper × Projection)
  | .record shape fields => do
    let (fields, bindings) ← s.projectFields place bindings fields
    return (.record shape fields, bindings)
  | .array items => do
    let (items, bindings) ← s.projectItems place bindings 0 items
    return (.array items, bindings)
  | .constant value => .ok (.place place, bindings.insert place (.constant value))
  | .queryParameter name => .ok (.place place, bindings.insert place (.parameter name))
  | other => do
    match ← s.resolve other with
    | some target => return (.place place, bindings.insert place (.stored target))
    | none => throw (.unsupportedProjection other.text)

def projectFields (s : Scope) (place : Place) (bindings : Projection) :
    List (String × Expression) → Planned (List (String × Shaper) × Projection)
  | [] => .ok ([], bindings)
  | (name, e) :: rest => do
    let (shaper, bindings) ← s.project (place ++ [name]) bindings e
    let (others, bindings) ← s.projectFields place bindings rest
    return ((name, shaper) :: others, bindings)

/-- Items are at the places of their positions. -/
def projectItems (s : Scope) (place : Place) (bindings : Projection) (position : Nat) :
    List Expression → Planned (List Shaper × Projection)
  | [] => .ok ([], bindings)
  | e :: rest => do
    let (shaper, bindings) ← s.project (place ++ [toString position]) bindings e
    let (others, bindings) ← s.projectItems place bindings (position + 1) rest
    return (shaper :: others, bindings)

end

end DocMapping.Scope
