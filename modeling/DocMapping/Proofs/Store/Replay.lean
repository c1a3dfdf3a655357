import DocMapping.Proofs.Store.Contents

/-!
# Running Commands Again

A record of commands and of what came of them can be run again on a store.  The relation between
contents that runs the record is independent of versions and of the supply of identifiers; if it
holds, the store that runs the commands by themselves goes through the same contents and gives every
command its recorded outcome.
-/

namespace DocMapping

/-- A command on a collection, and what came of it. -/
structure Performed where
  collection : String
  command : WriteCommand
  outcome : Outcome Nat

/-- The command without its outcome. -/
def Performed.request (p : Performed) : String × WriteCommand := (p.collection, p.command)

namespace Store

/-- Runs commands by themselves, one after the other: the store after them, and what came of each.
-/
def replay (s : Store) : List (String × WriteCommand) → Store × List (Outcome Nat)
  | [] => (s, [])
  | (collection, command) :: rest =>
    let (next, outcome) := s.execute collection command
    let (last, outcomes) := next.replay rest
    (last, outcome :: outcomes)

end Store

/-- Commands lead from contents to contents with the outcomes that they had. -/
inductive Contents.Replays : Contents → List Performed → Contents → Prop
  | nil (contents : Contents) : Replays contents [] contents
  | cons {before after : Contents} {p : Performed} {rest : List Performed}
      (documents : List Document)
      (hperform : ∀ fresh, p.command.perform fresh p.collection (before p.collection) =
        (documents, p.outcome))
      (hrest : Replays (Function.update before p.collection documents) rest after) :
      Replays before (p :: rest) after

namespace Contents.Replays

theorem append {first middle last : Contents} {ps qs : List Performed}
    (hps : Replays first ps middle) (hqs : Replays middle qs last) :
    Replays first (ps ++ qs) last := by
  induction hps with
  | nil => exact hqs
  | cons documents hperform _ ih => exact .cons documents hperform (ih hqs)

/-- One more command at the end. -/
theorem concat {before middle : Contents} {ps : List Performed} {p : Performed}
    {documents : List Document} (hps : Replays before ps middle)
    (hperform : ∀ fresh, p.command.perform fresh p.collection (middle p.collection) =
      (documents, p.outcome)) :
    Replays before (ps ++ [p]) (Function.update middle p.collection documents) :=
  hps.append (.cons documents hperform (.nil _))

theorem replay {s : Store} {history : List Performed} {contents : Contents}
    (h : Replays s.documents history contents) :
    (s.replay (history.map Performed.request)).1.documents = contents ∧
      (s.replay (history.map Performed.request)).2 = history.map Performed.outcome := by
  generalize hbefore : s.documents = before at h
  induction h generalizing s with
  | nil => exact ⟨hbefore, rfl⟩
  | @cons before after p rest documents hperform _ ih =>
    subst hbefore
    have hdocuments := s.documents_execute p.collection p.command
    rw [hperform] at hdocuments
    obtain ⟨hlast, houtcomes⟩ := ih hdocuments
    refine ⟨hlast, ?_⟩
    have houtcome := s.execute_outcome p.collection p.command
    rw [hperform] at houtcome
    simp only [List.map_cons, Performed.request, Store.replay, houtcome, houtcomes]

end Contents.Replays

end DocMapping
