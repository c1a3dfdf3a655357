import DocMapping.Bson.Text
import DocMapping.Error
import DocMapping.Query
import DocMapping.WriteCommand

/-!
# Document Stores

Collections of documents in the order of their insertion.  A transaction works on copies of the
collections that it touches and puts them in place when it is committed, unless one of them has been
changed since the copy was taken, which versions tell.
-/

namespace DocMapping

/-! ## Collections -/

/-- The documents of one collection and the number of changes they have seen, in 64 bits. -/
structure Collection where
  documents : List Document
  version : UInt64

namespace Collection

def empty : Collection := ⟨[], 0⟩

end Collection

namespace WriteCommand

/-- The document with an identifier: its own one, or else a fresh one at its end. -/
def identified (fresh : ObjectId) (document : Document) : Document × Bson :=
  match document.get? idElement with
  | some id => (document, id)
  | none => (document ++ [(idElement, .objectId fresh)], .objectId fresh)

/-- Assigns values one after the other; an identifier may only be assigned to itself. -/
def assignAll : Document → Document → Outcome Document
  | document, [] => .ok document
  | document, (path, value) :: rest =>
    if path = idElement && !(document.get? idElement).any (·.eq value) then
      .error (.transport .immutableIdentifier)
    else
      match document.assign value (Text.segments path) with
      | .ok changed => assignAll changed rest
      | .error obstacle =>
        .error (.transport (.blockedPath path obstacle.element obstacle.value.text))

/-- The documents after the command and the number of documents it was applied to. -/
def apply (fresh : ObjectId) (collection : String) (documents : List Document) :
    WriteCommand → Outcome (List Document × Nat)
  | insert document =>
    let (document, id) := identified fresh document
    if documents.any fun other ↦ (other.get? idElement).any (·.eq id) then
      .error (.duplicateKey id.text collection)
    else .ok (documents ++ [document], 1)
  | update filter changes =>
    match documents.findIdx? filter.holds with
    | none => .ok (documents, 0)
    | some index =>
      (assignAll (documents.getD index []) changes).map fun changed ↦
        (documents.set index changed, 1)
  | delete filter =>
    match documents.findIdx? filter.holds with
    | none => .ok (documents, 0)
    | some index => .ok (documents.eraseIdx index, 1)

end WriteCommand

/-! ## Collections by name -/

/-- Collections by their names; one without an entry is empty. -/
abbrev Collections := List (String × Collection)

namespace Collections

def get (c : Collections) (name : String) : Collection := (c.lookup name).getD Collection.empty

def set (name : String) (collection : Collection) : Collections → Collections
  | [] => [(name, collection)]
  | (other, old) :: rest =>
    if name = other then (name, collection) :: rest else (other, old) :: set name collection rest

end Collections

/-! ## Stores -/

/-- A store of documents in memory. -/
structure Store where
  /-- Tells stores apart, so that transactions are not mixed up. -/
  identity : Nat
  collections : Collections
  /-- The store offers transactions. -/
  transactions : Bool
  /-- The identifiers for documents that come without one. -/
  ids : Nat → ObjectId
  /-- The number of the first identifier that was not given out. -/
  nextId : Nat

/-- Copies of the collections that a transaction has touched. -/
structure Transaction where
  store : Nat
  staged : Collections

namespace Store

def empty (identity : Nat) (transactions : Bool) (ids : Nat → ObjectId) : Store :=
  ⟨identity, [], transactions, ids, 0⟩

/-- The committed documents of a collection. -/
def documents (s : Store) (collection : String) : List Document :=
  (s.collections.get collection).documents

/-- The names of the collections with documents, in order. -/
def collectionNames (s : Store) : List String :=
  ((s.collections.filter fun entry ↦ !entry.2.documents.isEmpty).map Prod.fst).mergeSort fun a b ↦
    decide (a ≤ b)

/-! ## Reading -/

def find (s : Store) (collection : String) (query : Query) : List Document :=
  query.select (s.documents collection)

/-- The number of documents that a query selects. -/
def count (s : Store) (collection : String) (query : Query) : Nat :=
  query.count (s.documents collection)

/-! ## Writing -/

/-- Runs a command by itself. -/
def execute (s : Store) (collection : String) (command : WriteCommand) : Store × Outcome Nat :=
  let target := s.collections.get collection
  match command.apply (s.ids s.nextId) collection target.documents with
  | .ok (documents, matched) =>
    ({ s with
        collections := s.collections.set collection ⟨documents, target.version + 1⟩
        nextId := s.nextId + 1 }, .ok matched)
  | .error fault => (s, .error fault)

def begin (s : Store) : Outcome Transaction :=
  if s.transactions then .ok ⟨s.identity, []⟩
  else .error (.configuration .transactionsDisabled)

/-- The copy of a collection in a transaction, as it is committed if there is none yet. -/
def staged (s : Store) (t : Transaction) (collection : String) : Collection :=
  (t.staged.lookup collection).getD (s.collections.get collection)

/-- Runs a command in a transaction.  The collection counts as touched even if the command fails. -/
def executeIn (s : Store) (t : Transaction) (collection : String) (command : WriteCommand) :
    Store × Transaction × Outcome Nat :=
  if t.store ≠ s.identity then (s, t, .error (.operation .foreignTransaction))
  else
    let target := s.staged t collection
    match command.apply (s.ids s.nextId) collection target.documents with
    | .ok (documents, matched) =>
      ({ s with nextId := s.nextId + 1 },
        { t with staged := t.staged.set collection ⟨documents, target.version⟩ }, .ok matched)
    | .error fault =>
      (s, { t with staged := t.staged.set collection target }, .error fault)

/-- The first touched collection that was changed since it was copied. -/
def conflict? (s : Store) (t : Transaction) : Option String :=
  (t.staged.find? fun entry ↦ (s.collections.get entry.1).version != entry.2.version).map Prod.fst

/-- Puts the copies of a transaction in place of the collections. -/
def commit (s : Store) (t : Transaction) : Store × Outcome Unit :=
  match s.conflict? t with
  | some collection => (s, .error (.transport (.writeConflict collection)))
  | none =>
    let collections := t.staged.foldl
      (fun collections entry ↦
        collections.set entry.1 ⟨entry.2.documents, entry.2.version + 1⟩)
      s.collections
    ({ s with collections := collections }, .ok ())

/-! ## Initial documents -/

/-- Stores documents in a collection without counting them as changes. -/
def seedDocuments (collection : String) : List Document → Store → Outcome Store
  | [], s => .ok s
  | document :: rest, s => do
    let target := s.collections.get collection
    let (documents, _) ←
      (WriteCommand.insert document).apply (s.ids s.nextId) collection target.documents
    seedDocuments collection rest
      { s with
        collections := s.collections.set collection ⟨documents, target.version⟩
        nextId := s.nextId + 1 }

/-- Stores the documents of several collections, one collection after the other. -/
def seed : List (String × List Document) → Store → Outcome Store
  | [], s => .ok s
  | (collection, documents) :: rest, s => do seed rest (← seedDocuments collection documents s)

end Store

end DocMapping
