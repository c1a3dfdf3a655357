import DocMapping.Transport

/-!
# Scripted Transports

A transport that gives answers laid down beforehand, keeps a journal of what it was asked, and cancels
the work at the points that its script names.  A request is entered in the journal before it fails.
-/

namespace DocMapping

/-- One step of a scripted cursor. -/
inductive ScriptedItem where
  | document (document : Document)
  | failure (text : String)
  /-- Cancels the work and then gives the document. -/
  | cancelling (document : Document)

/-- The answers of a scripted transport.  Texts are those of failures. -/
structure Script where
  items : List ScriptedItem
  count : Nat
  findFailure : Option String
  cancelsOnFind : Bool
  transactions : Bool
  /-- What each command answers in turn; one document matched after the last. -/
  results : List (Except String Nat)
  /-- The number of the command, from one, that cancels the work. -/
  cancelsAfter : Option Nat
  cancelsOnBegin : Bool
  beginFailure : Option String
  commitFailure : Option String
  abortFailure : Option String

/-- A request to a scripted transport. -/
inductive Request where
  | find (collection : String) (query : Query)
  | count (collection : String) (query : Query)
  | begin
  | execute (collection : String) (command : WriteCommand) (inTransaction : Bool)
  | commit
  | abort

/-- What a scripted transport has seen. -/
structure ScriptState where
  cancelled : Bool
  /-- The number of commands so far. -/
  executed : Nat
  journal : List Request

namespace ScriptState

def initial (cancelled : Bool) : ScriptState := ⟨cancelled, 0, []⟩

def enter (request : Request) (s : ScriptState) : ScriptState :=
  { s with journal := s.journal ++ [request] }

def cancelIf (condition : Bool) (s : ScriptState) : ScriptState :=
  { s with cancelled := s.cancelled || condition }

end ScriptState

namespace Script

def failing (failure : Option String) : Outcome Unit :=
  match failure with
  | some text => .error (.transport (.reported text))
  | none => .ok ()

/-- The step of a cursor for an item. -/
def fetch : ScriptedItem → Effect ScriptState Document
  | .document document => fun s ↦ (.ok document, s)
  | .failure text => fun s ↦ (.error (.transport (.reported text)), s)
  | .cancelling document => fun s ↦ (.ok document, s.cancelIf true)

/-- Answers a request for documents, or for their number. -/
def answer {α : Type} (script : Script) (request : Request) (result : α) :
    Effect ScriptState α := fun s ↦
  ((failing script.findFailure).map fun _ ↦ result,
    (s.enter request).cancelIf script.cancelsOnFind)

/-- Answers a command. -/
def execute (script : Script) (inTransaction : Bool) (collection : String)
    (command : WriteCommand) : Effect ScriptState Nat := fun s ↦
  let next := { s.enter (.execute collection command inTransaction) with executed := s.executed + 1 }
  let matched : Outcome Nat :=
    match script.results[s.executed]? with
    | some (.ok matched) => .ok matched
    | some (.error text) => .error (.transport (.reported text))
    | none => .ok 1
  (matched, next.cancelIf (script.cancelsAfter == some next.executed))

/-- The transport that follows a script. -/
def transport (script : Script) : Transport ScriptState where
  supportsTransactions := script.transactions
  find collection query := script.answer (.find collection query) (script.items.map fetch)
  count collection query := script.answer (.count collection query) script.count
  execute := script.execute
  begin := fun s ↦
    (failing script.beginFailure, (s.enter .begin).cancelIf script.cancelsOnBegin)
  commit := fun s ↦ (failing script.commitFailure, s.enter .commit)
  abort := fun s ↦ (failing script.abortFailure, s.enter .abort)

end Script

/-- The signal of a scripted transport. -/
def ScriptState.signal : Signal ScriptState := fun s ↦ (s.cancelled, s)

end DocMapping
