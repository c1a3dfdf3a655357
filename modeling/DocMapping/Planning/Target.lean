import DocMapping.Plan

/-!
# Members of Documents

What a chain of members leads to, starting from the argument of a function: a property, an owned
entity or a collection of them.  An expression that does not start there leads nowhere, which is no
error; a chain that starts there and goes astray is one.
-/

namespace DocMapping

/-- The argument of a function of an entity: its name and the type of the entity. -/
structure Scope where
  parameter : String
  entity : EntityType

namespace EntityType

/-- What a member of the type at a path leads to.  Properties come before navigations. -/
def target (t : EntityType) (path : List String) (member : String) : Planned Target :=
  match t.property? member with
  | some p => .ok (.property (path ++ t.elementPath p) p)
  | none =>
    match t.navigation? member with
    | some n =>
      match n.container with
      | some container => .ok (.ownedCollection (path ++ [n.element]) n.target container)
      | none => .ok (.entity (path ++ [n.element]) n.target n.nullable)
    | none => .error (.unmappedMember member t.name)

end EntityType

namespace Scope

/-- What an expression leads to, if it starts from the argument. -/
def resolve (s : Scope) : Expression → Planned (Option Target)
  | .parameter name =>
    if name = s.parameter then .ok (some (.entity [] s.entity false)) else .error (.outOfScope name)
  | .member target name => do
    match ← s.resolve target with
    | some (.entity path entity _) => (entity.target path name).map some
    | some _ => throw (.memberOfValue name target.text)
    | none => return none
  | .index target position => do
    match ← s.resolve target with
    | some _ => throw (.indexer (Expression.index target position).text)
    | none => return none
  | _ => .ok none

end Scope

end DocMapping
