import DocMapping.Filter

/-!
# Write Commands

The smallest changes of a collection: a document is stored, changed at some paths, or removed.  A
command that looks for a document takes the first that its filter selects.
-/

namespace DocMapping

/-- A change of one document. -/
inductive WriteCommand where
  | insert (document : Document)
  /-- Assigns the values at the paths, in order. -/
  | update (filter : Filter Bson) (changes : Document)
  | delete (filter : Filter Bson)

namespace WriteCommand

def kind : WriteCommand → String
  | insert _ => "insert"
  | update _ _ => "update"
  | delete _ => "delete"

/-- The command is in vain unless it finds a document. -/
def expectsMatch : WriteCommand → Bool
  | insert _ => false
  | update _ _ => true
  | delete _ => true

end WriteCommand

end DocMapping
