import DocMapping.Error

/-!
# Progress

Work on a value that may fail part of the way and then keeps what it has done so far, together with
a state that it carries along.
-/

namespace DocMapping

/-- A value and a state as work on them has left them, and the failure that ended it. -/
structure Progress (σ α : Type) where
  value : α
  state : σ
  fault : Option StoreError

namespace Progress

variable {σ α β : Type}

/-- No work. -/
def done (value : α) (state : σ) : Progress σ α := ⟨value, state, none⟩

def map (f : α → β) (p : Progress σ α) : Progress σ β := ⟨f p.value, p.state, p.fault⟩

/-- Goes on with the next work, unless the one before failed. -/
def andThen (p : Progress σ α) (next : α → σ → Progress σ α) : Progress σ α :=
  match p.fault with
  | some _ => p
  | none => next p.value p.state

/-- Takes one step of work for each of the instructions. -/
def steps (step : β → α → σ → Progress σ α) : List β → α → σ → Progress σ α
  | [], value, state => done value state
  | b :: rest, value, state => (step b value state).andThen (steps step rest)

/-- Works on each of the items from a position on; those after a failure stay as they are. -/
def items (work : Nat → α → σ → Progress σ α) (position : Nat) :
    List α → σ → Progress σ (List α)
  | [], state => done [] state
  | item :: rest, state =>
    let first := work position item state
    match first.fault with
    | some fault => ⟨first.value :: rest, first.state, some fault⟩
    | none => (items work (position + 1) rest first.state).map (first.value :: ·)

end Progress

end DocMapping
