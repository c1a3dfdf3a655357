import DocMapping.Proofs.Association
import DocMapping.Proofs.Change.Inserts
import Mathlib.Data.List.Induction

/-!
# Commands by Collection

A change set keeps the commands of each collection together.  Adding commands one after the other
leaves one batch for every collection that occurs among them, in the order of the first occurrences,
and in it the commands of that collection in the order in which they were added.  The change set of
entities is made in this way from the commands of one entry after the other.
-/

namespace DocMapping

open Association (eraseDups_concat nodup_eraseDups valuesOf)

namespace ChangeSet

/-! ## Adding commands -/

theorem collect_append (c : ChangeSet) (front back : List (String × PlannedCommand)) :
    c.collect (front ++ back) = (c.collect front).collect back :=
  List.foldl_append

/-- A batch for every name gains one, or the batch of its collection gains a command. -/
theorem insertBatch_map {collection : String} (planned : PlannedCommand) {names : List String}
    (hnames : names.Nodup) {commands : String → List PlannedCommand}
    (hnew : collection ∉ names → commands collection = []) :
    insertBatch collection planned (names.map fun name ↦ ⟨name, commands name⟩) =
      (if collection ∈ names then names else names ++ [collection]).map fun name ↦
        ⟨name, commands name ++ if collection = name then [planned] else []⟩ := by
  induction names with
  | nil => simp [insertBatch, hnew]
  | cons first rest ih =>
    obtain ⟨hfirst, hrest⟩ := List.nodup_cons.1 hnames
    rw [List.map_cons, insertBatch]
    by_cases h : first = collection
    · subst h
      have hothers : ∀ name ∈ rest, first ≠ name := fun name hname heq ↦ hfirst (heq ▸ hname)
      simp +contextual [hothers]
    · rw [if_neg h, ih hrest fun hnot ↦ hnew (by simp [Ne.symm h, hnot])]
      by_cases hmem : collection ∈ rest <;> simp [hmem, Ne.symm h]

/-- The batches of commands that are added to an empty change set. -/
theorem batches_collect (commands : List (String × PlannedCommand)) :
    (empty.collect commands).batches = (commands.map Prod.fst).eraseDups.map fun collection ↦
      ⟨collection, valuesOf collection commands⟩ := by
  induction commands using List.reverseRecOn with
  | nil => rfl
  | append_singleton commands command ih =>
    obtain ⟨collection, planned⟩ := command
    have hnew : collection ∉ (commands.map Prod.fst).eraseDups →
        valuesOf collection commands = [] := by
      rw [List.mem_eraseDups]
      exact Association.valuesOf_eq_nil
    have hstep : (empty.collect (commands ++ [(collection, planned)])).batches =
        insertBatch collection planned (empty.collect commands).batches := by
      rw [collect_append]
      rfl
    rw [hstep, ih, insertBatch_map planned (nodup_eraseDups _) hnew, List.map_append, List.map_cons,
      List.map_nil, eraseDups_concat]
    simp only [Association.valuesOf_append, Association.valuesOf_cons, Association.valuesOf_nil]

/-- Every collection has one batch, in the order in which the collections occur among the commands.
A batch has the commands of its collection in their order, and no command is lost or repeated. -/
structure Groups (changes : ChangeSet) (commands : List (String × PlannedCommand)) : Prop where
  distinct : (changes.batches.map WriteBatch.collection).Nodup
  order : changes.batches.map WriteBatch.collection = (commands.map Prod.fst).eraseDups
  batch : ∀ batch ∈ changes.batches, batch.commands = valuesOf batch.collection commands
  whole : changes.commands.Perm commands

theorem groups_collect (commands : List (String × PlannedCommand)) :
    (empty.collect commands).Groups commands := by
  have horder : (empty.collect commands).batches.map WriteBatch.collection =
      (commands.map Prod.fst).eraseDups := by
    rw [batches_collect, List.map_map, Function.comp_def, List.map_id']
  refine ⟨?_, horder, fun batch hbatch ↦ ?_, commands_collect empty commands⟩
  · rw [horder]
    exact nodup_eraseDups _
  · rw [batches_collect] at hbatch
    obtain ⟨collection, -, rfl⟩ := List.mem_map.1 hbatch
    rfl

/-- Each collection sees the same commands in the same order. -/
theorem Groups.valuesOf_commands {changes : ChangeSet} {commands : List (String × PlannedCommand)}
    (h : changes.Groups commands) (collection : String) :
    valuesOf collection changes.commands = valuesOf collection commands := by
  have hbatches : changes.commands = (changes.batches.map WriteBatch.collection).flatMap
      fun name ↦ (valuesOf name commands).map fun planned ↦ (name, planned) := by
    rw [List.flatMap_map]
    refine List.flatMap_congr fun batch hbatch ↦ ?_
    rw [h.batch batch hbatch]
  rw [hbatches, Association.valuesOf_flatMap h.distinct, h.order]
  split
  · rfl
  · next hnone => exact (Association.valuesOf_eq_nil (mt List.mem_eraseDups.2 hnone)).symm

end ChangeSet

/-! ## Commands of entries -/

/-- The commands of an entry, in its collection. -/
def ChangeEntry.contributions (e : ChangeEntry) (entry : Nat) : List (String × PlannedCommand) :=
  match e.type.collection, e.commands entry with
  | some collection, .ok commands => commands.map fun planned ↦ (collection, planned)
  | _, _ => []

namespace ChangeSet

/-- The commands of entries that are numbered from `entry` on, one entry after the other. -/
def inOrder (entry : Nat) : List ChangeEntry → List (String × PlannedCommand)
  | [] => []
  | e :: rest => e.contributions entry ++ inOrder (entry + 1) rest

/-- What building a change set makes of an entry: its keys are complete, the rest of it is as it
was, and it has commands for its collection. -/
structure Prepares (given built : ChangeEntry) (entry : Nat) : Prop where
  kept : ∃ current, built = { given with current := current }
  planned : ∃ collection commands, built.type.collection = some collection ∧
    built.commands entry = .ok commands ∧ ∀ planned ∈ commands, planned.entry = entry

variable {ids : IdSource} {entry : Nat} {before after changes : ChangeSet} {s : KeyState}

theorem contribute_collect {e built : ChangeEntry} {next : KeyState}
    (h : e.contribute ids entry before s = (built, next, .ok after)) :
    Prepares e built entry ∧ after = before.collect (built.contributions entry) := by
  obtain ⟨collection, commands, hcollection, -, heq, hcommands, rfl⟩ :=
    contribute_commands (congrArg (·.2.2) h)
  obtain ⟨current, hcurrent⟩ := e.completeKeys_value ids collection s
  have hbuilt : built = (e.completeKeys ids collection s).value :=
    congrArg Prod.fst (h.symm.trans heq)
  rw [← hbuilt] at hcommands hcurrent
  have htype : built.type.collection = some collection := by
    rw [hcurrent]
    exact hcollection
  have hplanned : ∀ planned ∈ commands, planned.entry = entry := fun planned hmem ↦
    (ChangeEntry.insert_of_commands hcommands hmem).1
  refine ⟨⟨⟨current, hcurrent⟩, collection, commands, htype, hcommands, hplanned⟩, ?_⟩
  unfold ChangeEntry.contributions
  rw [htype, hcommands]

/-- The change set of entries has the commands of one entry after the other. -/
theorem buildFrom_collect {entries : List ChangeEntry}
    (h : (buildFrom ids entry before s entries).outcome = .ok changes) :
    (buildFrom ids entry before s entries).entries.length = entries.length ∧
      (∀ (index : Nat) given built, entries[index]? = some given →
        (buildFrom ids entry before s entries).entries[index]? = some built →
        Prepares given built (entry + index)) ∧
      changes = before.collect (inOrder entry (buildFrom ids entry before s entries).entries) := by
  induction entries generalizing entry before s with
  | nil =>
    cases h
    exact ⟨rfl, fun _ _ _ hgiven ↦ absurd hgiven (by simp), rfl⟩
  | cons e rest ih =>
    rcases hcontribute : e.contribute ids entry before s with ⟨built, next, fault | middle⟩
    · rw [buildFrom, hcontribute] at h
      cases h
    · obtain ⟨hfirst, hmiddle⟩ := contribute_collect hcontribute
      rw [buildFrom, hcontribute] at h ⊢
      obtain ⟨hlength, hrest, hchanges⟩ := ih h
      refine ⟨congrArg (· + 1) hlength, fun index given later hgiven hlater ↦ ?_, ?_⟩
      · cases index with
        | zero =>
          cases hgiven
          cases hlater
          exact hfirst
        | succ index =>
          rw [← Nat.add_assoc, Nat.add_right_comm]
          exact hrest index given later hgiven hlater
      · rw [inOrder, collect_append, ← hmiddle]
        exact hchanges

end ChangeSet

end DocMapping
