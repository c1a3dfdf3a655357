import DocMapping.Error
import DocMapping.Text.Json

/-!
# Options

The choices of an application, and their JSON form.  Members that are left out keep their defaults and
unknown ones are passed over; a member that occurs twice or has a value of another type is refused.  In
place of an object an array gives the first members in order.
-/

namespace DocMapping

/-- Whether changes are saved in a transaction. -/
inductive TransactionBehavior where
  /-- Always; a store without transactions is refused. -/
  | required
  | whenSupported
  | never
deriving DecidableEq

namespace TransactionBehavior

def name : TransactionBehavior → String
  | required => "required"
  | whenSupported => "when_supported"
  | never => "never"

def ofName? (name : String) : Option TransactionBehavior :=
  [required, whenSupported, never].find? fun b ↦ b.name == name

end TransactionBehavior

structure Options where
  transactionBehavior : TransactionBehavior
  /-- A failed save without a transaction undoes what it has done. -/
  compensateOnFailure : Bool
  /-- Projections that no store can be asked for are evaluated on whole entities. -/
  clientProjectionFallback : Bool
  database : String
deriving DecidableEq

namespace Options

def default : Options := ⟨.required, false, false, "docbridge"⟩

open Text (Json)

/-! ## Reading -/

/-- A behaviour by its name, or as the only member of an object, with null as its value. -/
def behavior? : Json → Option TransactionBehavior
  | .string (some name) => TransactionBehavior.ofName? name
  | .object [(some name, .null)] => TransactionBehavior.ofName? name
  | _ => none

def flag? : Json → Option Bool
  | .boolean value => some value
  | _ => none

def text? : Json → Option String
  | .string text => text
  | _ => none

/-- The names of the members in order. -/
def names : List String :=
  ["transaction_behavior", "compensate_on_failure", "client_projection_fallback", "database"]

/-- The options with a member set from its JSON form. -/
def assign? (o : Options) (name : String) (value : Json) : Option Options :=
  match name with
  | "transaction_behavior" => (behavior? value).map fun v ↦ { o with transactionBehavior := v }
  | "compensate_on_failure" => (flag? value).map fun v ↦ { o with compensateOnFailure := v }
  | "client_projection_fallback" =>
    (flag? value).map fun v ↦ { o with clientProjectionFallback := v }
  | "database" => (text? value).map fun v ↦ { o with database := v }
  | _ => some o

/-- Sets the members of an object; `seen` are the names of those set before. -/
def assignMembers? (o : Options) (seen : List String) :
    List (Option String × Json) → Option Options
  | [] => some o
  | (none, _) :: _ => none
  | (some name, value) :: rest =>
    if seen.contains name then none
    else
      (o.assign? name value).bind fun o ↦
        o.assignMembers? (if names.contains name then name :: seen else seen) rest

/-- Sets the members from the items of an array. -/
def assignItems? (o : Options) : List String → List Json → Option Options
  | _, [] => some o
  | [], _ :: _ => none
  | name :: names, value :: rest => (o.assign? name value).bind fun o ↦ o.assignItems? names rest

/-- The options that a JSON value describes. -/
def ofJson? : Json → Option Options
  | .object members => default.assignMembers? [] members
  | .array items => default.assignItems? names items
  | _ => none

/-- The options that a text describes. -/
def ofText (text : String) : Outcome Options :=
  match (Json.ofText? text).bind ofJson? with
  | some o => .ok o
  | none => .error .serialization

end Options

end DocMapping
