import DocMapping.Proofs.Change.Grouping
import DocMapping.Proofs.Change.Repetition
import DocMapping.Proofs.UnitOfWork.Atomicity

/-!
# Commands in Batches

Commands on different collections do not meet: what a run leaves in a collection, and what comes of
the commands on it, depends on these commands alone.  Running a change set batch by batch therefore
does the same as running the commands of one entry after the other.
-/

namespace DocMapping

open Association (valuesOf)
open UnitOfWork (requests)

/-! ## Commands on one collection -/

namespace WriteCommand

/-- Runs commands on the documents of one collection: what is left of them and what came of each. -/
def performAll (fresh : ObjectId) (collection : String) :
    List Document → List WriteCommand → List Document × List (Outcome Nat)
  | documents, [] => (documents, [])
  | documents, command :: rest =>
    let (changed, outcome) := command.perform fresh collection documents
    let (last, outcomes) := performAll fresh collection changed rest
    (last, outcome :: outcomes)

end WriteCommand

/-! ## Commands on several collections -/

namespace Store

/-- Every command succeeds, and finds a document if it looks for one. -/
def Accepts (s : Store) (requests : List (String × WriteCommand)) : Prop :=
  List.Forall₂ (fun request outcome ↦ request.2.Succeeded outcome) requests (s.replay requests).2

section Replay

variable (fresh : ObjectId) {collection name : String} {command : WriteCommand}
  {rest requests : List (String × WriteCommand)}

theorem documents_execute_of_ne (s : Store) (h : collection ≠ name) :
    (s.execute collection command).1.documents name = s.documents name := by
  rw [documents_execute, Function.update_of_ne (Ne.symm h)]

theorem documents_execute_self (s : Store) (h : command.IsIdentified) :
    (s.execute collection command).1.documents collection =
      (command.perform fresh collection (s.documents collection)).1 := by
  rw [documents_execute, Function.update_self, WriteCommand.perform_fresh h _ fresh]

/-- A run leaves in a collection what the commands on it leave there. -/
theorem documents_replay (h : ∀ request ∈ requests, request.2.IsIdentified) (s : Store)
    (name : String) :
    (s.replay requests).1.documents name =
      (WriteCommand.performAll fresh name (s.documents name) (valuesOf name requests)).1 := by
  induction requests generalizing s with
  | nil => rfl
  | cons request rest ih =>
    obtain ⟨collection, command⟩ := request
    obtain ⟨hcommand, hrest⟩ := List.forall_mem_cons.1 h
    have hstep : (s.replay ((collection, command) :: rest)).1 =
        ((s.execute collection command).1.replay rest).1 := rfl
    rw [hstep, ih hrest, Association.valuesOf_cons]
    split
    · next hname =>
      subst hname
      rw [documents_execute_self fresh s hcommand]
      rfl
    · next hname => rw [documents_execute_of_ne s hname]

/-- A run succeeds if the commands on each collection do. -/
theorem accepts_iff (h : ∀ request ∈ requests, request.2.IsIdentified) (s : Store) :
    s.Accepts requests ↔ ∀ name, List.Forall₂ WriteCommand.Succeeded (valuesOf name requests)
      (WriteCommand.performAll fresh name (s.documents name) (valuesOf name requests)).2 := by
  induction requests generalizing s with
  | nil => exact iff_of_true .nil fun _ ↦ .nil
  | cons request rest ih =>
    obtain ⟨collection, command⟩ := request
    obtain ⟨hcommand, hrest⟩ := List.forall_mem_cons.1 h
    have hstep : s.Accepts ((collection, command) :: rest) ↔
        command.Succeeded (command.perform fresh collection (s.documents collection)).2 ∧
          (s.execute collection command).1.Accepts rest := by
      rw [← WriteCommand.perform_fresh hcommand (s.ids s.nextId) fresh, ← execute_outcome]
      exact List.forall₂_cons
    have hother : ∀ name, collection ≠ name →
        (s.execute collection command).1.documents name = s.documents name :=
      fun _ ↦ documents_execute_of_ne s
    have hself : (s.execute collection command).1.documents collection =
        (command.perform fresh collection (s.documents collection)).1 :=
      documents_execute_self fresh s hcommand
    rw [hstep, ih hrest]
    constructor
    · rintro ⟨hfirst, hall⟩ name
      rw [Association.valuesOf_cons]
      split
      · next hname =>
        subst hname
        have hlater := hall collection
        rw [hself] at hlater
        exact .cons hfirst hlater
      · next hname =>
        rw [← hother name hname]
        exact hall name
    · intro hall
      have hcollection := hall collection
      rw [Association.valuesOf_cons, if_pos rfl] at hcollection
      obtain ⟨hfirst, hlater⟩ := List.forall₂_cons.1 hcollection
      refine ⟨hfirst, fun name ↦ ?_⟩
      by_cases hname : collection = name
      · subst hname
        rw [hself]
        exact hlater
      · have hsame := hall name
        rwa [Association.valuesOf_cons, if_neg hname, ← hother name hname] at hsame

/-- Two runs in which each collection sees the same commands do the same. -/
theorem replay_congr {others : List (String × WriteCommand)}
    (h : ∀ request ∈ requests, request.2.IsIdentified)
    (hothers : ∀ request ∈ others, request.2.IsIdentified)
    (hsame : ∀ name, valuesOf name requests = valuesOf name others) (s : Store) :
    (s.Accepts requests ↔ s.Accepts others) ∧
      (s.replay requests).1.documents = (s.replay others).1.documents := by
  have fresh := s.ids s.nextId
  constructor
  · rw [accepts_iff fresh h, accepts_iff fresh hothers]
    simp only [hsame]
  · funext name
    rw [documents_replay fresh h, documents_replay fresh hothers, hsame]

end Replay

end Store

/-! ## Change sets -/

namespace ChangeSet

variable {ids : IdSource} {issued : Nat} {entries : List ChangeEntry} {changes : ChangeSet}

/-- The commands of a change set bring the identifiers of the documents that they insert. -/
theorem isIdentified_inOrder {built : List ChangeEntry} {entry : Nat} :
    ∀ command ∈ inOrder entry built, command.2.command.IsIdentified := by
  induction built generalizing entry with
  | nil => simp [inOrder]
  | cons e rest ih =>
    intro command hmem
    rcases List.mem_append.1 hmem with hfirst | hrest
    · unfold ChangeEntry.contributions at hfirst
      split at hfirst
      · next collection commands hcollection hcommands =>
        obtain ⟨planned, hplanned, rfl⟩ := List.mem_map.1 hfirst
        have hroot : e.type.isOwned = false := by
          unfold EntityType.isOwned
          rw [hcollection]
          rfl
        obtain ⟨-, hinsert⟩ := ChangeEntry.insert_of_commands hcommands hplanned
        cases hcommand : planned.command with
        | insert document =>
          exact EntityType.get?_encode_isSome hroot (hinsert document hcommand).2
        | update filter changes => trivial
        | delete filter => trivial
      · cases hfirst
    · exact ih command hrest

/-- The batches of a change set have the commands of its entries, each collection those on it in the
order of the entries.  On every store, running them batch by batch succeeds if running them entry by
entry does, and leaves the same documents. -/
theorem build_batches (h : (build ids issued entries).outcome = .ok changes) :
    let built := (build ids issued entries).entries
    built.length = entries.length ∧
      (∀ index given e, entries[index]? = some given → built[index]? = some e →
        Prepares given e index) ∧
      changes.Groups (inOrder 0 built) ∧
      ∀ s : Store,
        (s.Accepts (requests changes.commands) ↔ s.Accepts (requests (inOrder 0 built))) ∧
          (s.replay (requests changes.commands)).1.documents =
            (s.replay (requests (inOrder 0 built))).1.documents := by
  intro built
  obtain ⟨hlength, hentries, hchanges⟩ := buildFrom_collect h
  have hgroups : changes.Groups (inOrder 0 built) := hchanges ▸ groups_collect _
  have hordered : ∀ request ∈ requests (inOrder 0 built), request.2.IsIdentified :=
    List.forall_mem_map.2 isIdentified_inOrder
  have hbatched : ∀ request ∈ requests changes.commands, request.2.IsIdentified :=
    List.forall_mem_map.2 fun command hcommand ↦
      isIdentified_inOrder command (hgroups.whole.mem_iff.1 hcommand)
  have hsame : ∀ name, valuesOf name (requests changes.commands) =
      valuesOf name (requests (inOrder 0 built)) := by
    intro name
    unfold requests
    rw [Association.valuesOf_map, Association.valuesOf_map, hgroups.valuesOf_commands]
  refine ⟨hlength, fun index given e hgiven he ↦ ?_, hgroups,
    Store.replay_congr hbatched hordered hsame⟩
  have hprepares := hentries index given e hgiven he
  rwa [Nat.zero_add] at hprepares

/-- Two planets and a page are added; another page is moved to a new key between the planets. -/
def gathered : List ChangeEntry :=
  [.added orbited (saturn (.guid ⟨lowBits 128 1⟩) []),
    .modified page ⟨"Page", [("Id", .string "p1"), ("Text", .string "first")]⟩
      ⟨"Page", [("Id", .string "p2"), ("Text", .string "first")]⟩,
    .added orbited (saturn (.guid ⟨lowBits 128 2⟩) []),
    .added page ⟨"Page", [("Id", .string "p3"), ("Text", .string "third")]⟩]

/-- A store with the page that is moved. -/
def shelf : Store :=
  ⟨0, [("Page", ⟨[[(idElement, .string "p1"), ("Text", .string "first")]], 1⟩)], true,
    fun _ ↦ ⟨lowBits 96 0⟩, 0⟩

theorem build_batches_gathered :
    let ordered := inOrder 0 (build ones 0 gathered).entries
    ordered.map (fun command ↦ (command.1, command.2.entry, command.2.command.kind)) =
        [("Planet", 0, "insert"), ("Page", 1, "delete"), ("Page", 1, "insert"),
          ("Planet", 2, "insert"), ("Page", 3, "insert")] ∧
      shelf.Accepts (requests ordered) ∧ ¬(Store.empty 0 true fun _ ↦ ⟨0⟩).Accepts (requests ordered) ∧
      ∃ changes, (build ones 0 gathered).outcome = .ok changes ∧
        changes.batches.map (fun batch ↦ (batch.collection, batch.commands.map (·.entry))) =
          [("Planet", [0, 2]), ("Page", [1, 1, 3])] ∧
        changes.Groups ordered ∧ shelf.Accepts (requests changes.commands) ∧
        ¬(Store.empty 0 true fun _ ↦ ⟨0⟩).Accepts (requests changes.commands) := by
  intro ordered
  have haccepts : shelf.Accepts (requests ordered) :=
    .cons ⟨1, rfl, by decide⟩ (.cons ⟨1, rfl, by decide⟩ (.cons ⟨1, rfl, by decide⟩
      (.cons ⟨1, rfl, by decide⟩ (.cons ⟨1, rfl, by decide⟩ .nil))))
  have hrejects : ¬(Store.empty 0 true fun _ ↦ ⟨0⟩).Accepts (requests ordered) := by
    rintro (_ | ⟨-, _ | ⟨⟨matched, hmatched, hfound⟩, -⟩⟩)
    cases hmatched
    exact hfound rfl rfl
  obtain ⟨-, -, hgroups, hruns⟩ := @build_batches ones 0 gathered _ rfl
  exact ⟨rfl, haccepts, hrejects, _, rfl, rfl, hgroups, (hruns shelf).1.2 haccepts,
    mt (hruns (Store.empty 0 true fun _ ↦ ⟨0⟩)).1.1 hrejects⟩

end ChangeSet

end DocMapping
