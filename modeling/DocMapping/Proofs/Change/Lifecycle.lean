import DocMapping.Proofs.Change.Inserts

/-!
# Lives of Tracked Entities

What an application does to a tracked entity, one thing after the other, and which commands are
planned for the entity afterwards.  An entity that was never stored is forgotten by a first deletion,
but a second one plans the removal of a document; so does any deletion of an entity whose removal was
stored, until the next acceptance.  Short of that, neither is ever updated or removed.
-/

namespace DocMapping

/-- One thing that is done to a tracked entity. -/
inductive Touch where
  | delete
  | detect
  /-- The entity is given other members. -/
  | assign (current : Entity)
  | accept

def Touch.isDelete : Touch → Bool
  | delete => true
  | _ => false

namespace ChangeEntry

def touch (e : ChangeEntry) : Touch → ChangeEntry
  | .delete => e.delete
  | .detect => e.detect
  | .assign current => { e with current := current }
  | .accept => e.accept

/-- The entity after everything that was done to it, in order. -/
def after (e : ChangeEntry) (touches : List Touch) : ChangeEntry := touches.foldl touch e

end ChangeEntry

/-- Some deletion was not accepted. -/
def LeavesDeletion (touches : List Touch) : Prop :=
  ∃ before later, touches = before ++ .delete :: later ∧ .accept ∉ later

theorem leavesDeletion_cons {touch : Touch} {rest : List Touch} :
    LeavesDeletion (touch :: rest) ↔ touch = .delete ∧ .accept ∉ rest ∨ LeavesDeletion rest := by
  constructor
  · rintro ⟨before, later, heq, hlater⟩
    cases before with
    | nil =>
      cases heq
      exact .inl ⟨rfl, hlater⟩
    | cons first before =>
      cases heq
      exact .inr ⟨before, later, rfl, hlater⟩
  · rintro (⟨rfl, hrest⟩ | ⟨before, later, rfl, hlater⟩)
    · exact ⟨[], rest, rfl, hrest⟩
    · exact ⟨touch :: before, later, rfl, hlater⟩

/-! ## States -/

/-- The state of an entity that was never stored, by how often it was deleted. -/
def EntityState.unstored : Nat → EntityState
  | 0 => added
  | 1 => detached
  | _ + 2 => deleted

theorem EntityState.unstored_eq_deleted {deletions : Nat} (h : 1 < deletions) :
    unstored deletions = deleted := by
  obtain ⟨more, rfl⟩ := Nat.exists_eq_add_of_le' h
  rfl

theorem EntityState.unstored_of_le_one {deletions : Nat} (h : deletions ≤ 1) :
    unstored deletions = added ∨ unstored deletions = detached := by
  match deletions with
  | 0 => exact .inl rfl
  | 1 => exact .inr rfl

namespace ChangeEntry

open EntityState (unstored)

variable {e : ChangeEntry}

/-- Only a deletion moves an entity that was never stored, short of an acceptance. -/
theorem state_touch_unstored {deletions : Nat} (h : e.state = unstored deletions) {touch : Touch}
    (haccept : touch ≠ .accept) :
    (e.touch touch).state = unstored (deletions + if touch.isDelete then 1 else 0) := by
  have hkept : deletions + (if false then 1 else 0) = deletions := rfl
  cases touch with
  | delete =>
    change (if e.state = .added then EntityState.detached else .deleted) = unstored (deletions + 1)
    rw [h]
    match deletions with
    | 0 | 1 | _ + 2 => rfl
  | detect =>
    have hnot : ¬(e.state = .unchanged ∨ e.state = .modified) := by
      rw [h]
      match deletions with
      | 0 | 1 | _ + 2 => simp [unstored]
    change e.detect.state = unstored deletions
    rw [detect, if_neg hnot, h]
  | assign current => exact h
  | accept => exact absurd rfl haccept

theorem state_after_unstored {deletions : Nat} (h : e.state = unstored deletions)
    {touches : List Touch} (haccept : .accept ∉ touches) :
    (e.after touches).state = unstored (deletions + touches.countP Touch.isDelete) := by
  induction touches generalizing e deletions with
  | nil => exact h
  | cons touch rest ih =>
    rw [List.mem_cons, not_or] at haccept
    have hfirst := state_touch_unstored h (Ne.symm haccept.1)
    change ((e.touch touch).after rest).state = _
    rw [ih hfirst haccept.2, List.countP_cons, Nat.add_assoc, Nat.add_comm (List.countP _ rest)]

/-- An entity whose removal was stored is untracked, or waits for another removal. -/
theorem state_after_removed (h : e.state = .detached ∨ e.state = .deleted) (touches : List Touch) :
    ((e.after touches).state = .detached ∨ (e.after touches).state = .deleted) ∧
      ((e.after touches).state = .deleted ↔
        e.state = .deleted ∧ .accept ∉ touches ∨ LeavesDeletion touches) := by
  induction touches generalizing e with
  | nil =>
    refine ⟨h, ?_⟩
    have hnone : ¬LeavesDeletion [] := by
      rintro ⟨before, later, heq, -⟩
      cases before <;> cases heq
    simp [after, hnone]
  | cons touch rest ih =>
    change (((e.touch touch).after rest).state = _ ∨ ((e.touch touch).after rest).state = _) ∧
      (((e.touch touch).after rest).state = _ ↔ _)
    rw [leavesDeletion_cons]
    cases touch with
    | delete =>
      have hfirst : (e.touch .delete).state = .deleted := by
        change (if e.state = .added then EntityState.detached else .deleted) = .deleted
        rcases h with h | h <;> rw [h] <;> rfl
      refine ⟨(ih (.inr hfirst)).1, (ih (.inr hfirst)).2.trans ?_⟩
      simp only [hfirst, List.mem_cons, reduceCtorEq, false_or, true_and]
      tauto
    | accept =>
      have hfirst : (e.touch .accept).state = .detached := by
        change e.accept.state = .detached
        unfold accept
        rcases h with h | h <;> rw [h]
        exact h
      refine ⟨(ih (.inl hfirst)).1, (ih (.inl hfirst)).2.trans ?_⟩
      simp [hfirst]
    | detect =>
      have hfirst : e.touch .detect = e := by
        change e.detect = e
        unfold detect
        rcases h with h | h <;> rw [h] <;> rfl
      rw [hfirst]
      refine ⟨(ih h).1, (ih h).2.trans ?_⟩
      simp
    | assign current =>
      have hfirst : (e.touch (.assign current)).state = e.state := rfl
      rw [← hfirst] at h ⊢
      refine ⟨(ih h).1, (ih h).2.trans ?_⟩
      simp

/-! ## Commands -/

variable {entry : Nat} {commands : List PlannedCommand}

theorem commands_of_added (hstate : e.state = .added) (h : e.commands entry = .ok commands) :
    ∀ planned ∈ commands, ∃ document, planned.command = .insert document := by
  unfold ChangeEntry.commands at h
  rw [hstate] at h
  obtain ⟨insertion, hinsertion, rfl⟩ := Outcome.map_eq_ok.1 h
  obtain ⟨-, document, hcommand, -⟩ := EntityType.planInsert_ok hinsertion
  exact List.forall_mem_singleton.2 ⟨document, hcommand⟩

theorem commands_of_detached (hstate : e.state = .detached) (h : e.commands entry = .ok commands) :
    commands = [] := by
  unfold ChangeEntry.commands at h
  rw [hstate] at h
  exact (Except.ok.inj h).symm

theorem commands_of_deleted (hstate : e.state = .deleted) (h : e.commands entry = .ok commands) :
    ∃ planned filter, commands = [planned] ∧ planned.entry = entry ∧
      planned.command = .delete filter := by
  unfold ChangeEntry.commands at h
  rw [hstate] at h
  obtain ⟨removal, hremoval, rfl⟩ := Outcome.map_eq_ok.1 h
  obtain ⟨hentry, filter, hcommand⟩ := EntityType.planDelete_ok hremoval
  exact ⟨removal, filter, rfl, hentry, hcommand⟩

end ChangeEntry

namespace ChangeSet

variable {ids : IdSource} {entry : Nat} {before changes : ChangeSet} {s : KeyState}
  {entries : List ChangeEntry}

/-- Everything that is planned for an entity is in the change set. -/
theorem buildFrom_carries (h : (buildFrom ids entry before s entries).outcome = .ok changes)
    {position : Nat} {e : ChangeEntry} (he : entries[position]? = some e) :
    ∃ collection commands s, e.type.collection = some collection ∧
      (e.completeKeys ids collection s).value.commands (entry + position) = .ok commands ∧
      ∀ planned ∈ commands, (collection, planned) ∈ changes.commands := by
  induction entries generalizing entry before s position with
  | nil => cases he
  | cons first rest ih =>
    have hrest := h
    unfold buildFrom at hrest
    generalize hcontribution : first.contribute ids entry before s = contribution at hrest
    obtain ⟨built, next, fault | middle⟩ := contribution
    · cases hrest
    · cases position with
      | zero =>
        cases he
        obtain ⟨collection, commands, hcollection, -, -, hcommands, rfl⟩ :=
          contribute_commands (congrArg (·.2.2) hcontribution)
        obtain ⟨others, -, hchanges⟩ := buildFrom_commands hrest
        refine ⟨collection, commands, s, hcollection, hcommands, fun planned hplanned ↦ ?_⟩
        refine hchanges.mem_iff.2 (List.mem_append_left _ ((commands_collect ..).mem_iff.2 ?_))
        exact List.mem_append_right _ (List.mem_map_of_mem hplanned)
      | succ position =>
        have hlater := ih hrest he
        rw [Nat.add_right_comm] at hlater
        exact hlater

/-- A command for the entity at a position was planned for it, once its keys were complete. -/
theorem build_planned {issued : Nat} (h : (build ids issued entries).outcome = .ok changes)
    {command : String × PlannedCommand} (hcommand : command ∈ changes.commands) {e : ChangeEntry}
    (he : entries[command.2.entry]? = some e) :
    ∃ (built : ChangeEntry) (commands : List PlannedCommand), built.state = e.state ∧
      built.commands command.2.entry = .ok commands ∧ command.2 ∈ commands := by
  obtain ⟨index, given, built, hgiven, -, s, commands, -, -, rfl, hcommands, hmem⟩ :=
    (buildFrom_planned h hcommand).resolve_left (by simp [ChangeSet.commands, empty])
  obtain ⟨hentry, -⟩ := ChangeEntry.insert_of_commands hcommands hmem
  rw [Nat.zero_add] at hentry hcommands
  rw [hentry, hgiven] at he
  cases he
  obtain ⟨current, hvalue⟩ := e.completeKeys_value ids command.1 s
  rw [← hentry] at hcommands
  exact ⟨_, commands, by rw [hvalue], hcommands, hmem⟩

/-- An entity that is marked for removal has a command that removes a document. -/
theorem build_deletes {issued : Nat} (h : (build ids issued entries).outcome = .ok changes)
    {position : Nat} {e : ChangeEntry} (he : entries[position]? = some e)
    (hstate : e.state = .deleted) :
    ∃ c ∈ changes.commands, c.2.entry = position ∧ ∃ filter, c.2.command = .delete filter := by
  obtain ⟨collection, commands, s, -, hcommands, hmem⟩ := buildFrom_carries h he
  obtain ⟨current, hvalue⟩ := e.completeKeys_value ids collection s
  rw [hvalue, Nat.zero_add] at hcommands
  obtain ⟨planned, filter, rfl, hentry, hcommand⟩ :=
    ChangeEntry.commands_of_deleted (by exact hstate) hcommands
  exact ⟨_, hmem planned List.mem_cons_self, hentry, filter, hcommand⟩

/-- An entity that was never stored is only ever inserted if it is deleted at most once; an entity
whose removal was stored has no commands if every later deletion is accepted. -/
theorem build_touched (touches : List Touch) :
    (∀ (t : EntityType) (current : Entity), .accept ∉ touches →
      ∀ (ids : IdSource) (issued : Nat) (entries : List ChangeEntry) (position : Nat),
        entries[position]? = some ((ChangeEntry.added t current).after touches) →
        ∀ changes, (build ids issued entries).outcome = .ok changes →
          ((∀ c ∈ changes.commands, c.2.entry = position →
              ∃ document, c.2.command = .insert document) ↔
            touches.countP Touch.isDelete ≤ 1)) ∧
      ∀ e : ChangeEntry, e.state = .detached →
        ((e.after touches).state = .detached ↔ ¬LeavesDeletion touches) ∧
        ∀ (ids : IdSource) (issued : Nat) (entries : List ChangeEntry) (position : Nat),
          entries[position]? = some (e.after touches) →
          ∀ changes, (build ids issued entries).outcome = .ok changes →
            ((∀ c ∈ changes.commands, c.2.entry ≠ position) ↔ ¬LeavesDeletion touches) := by
  constructor
  · intro t current haccept ids issued entries position he changes h
    have hadded : (ChangeEntry.added t current).state = .unstored 0 := rfl
    have hstate := ChangeEntry.state_after_unstored hadded haccept
    rw [Nat.zero_add] at hstate
    constructor
    · intro hinserts
      by_contra hmany
      obtain ⟨c, hc, hentry, filter, hcommand⟩ := build_deletes h he
        (hstate.trans (EntityState.unstored_eq_deleted (Nat.not_le.1 hmany)))
      obtain ⟨document, hinsert⟩ := hinserts c hc hentry
      cases hcommand.symm.trans hinsert
    · rintro hfew c hc rfl
      obtain ⟨built, commands, hbuilt, hcommands, hmem⟩ := build_planned h hc he
      rcases EntityState.unstored_of_le_one hfew with hkept | hforgotten
      · exact ChangeEntry.commands_of_added (hbuilt.trans (hstate.trans hkept)) hcommands _ hmem
      · rw [ChangeEntry.commands_of_detached (hbuilt.trans (hstate.trans hforgotten)) hcommands]
          at hmem
        cases hmem
  · intro e hdetached
    obtain ⟨hstate, hdeleted⟩ := ChangeEntry.state_after_removed (.inl hdetached) touches
    have hleaves : (e.after touches).state = .deleted ↔ LeavesDeletion touches := by
      rw [hdeleted, hdetached]
      simp
    have hiff : (e.after touches).state = .detached ↔ ¬LeavesDeletion touches := by
      rw [← hleaves]
      constructor
      · intro hsame
        rw [hsame]
        simp
      · exact hstate.resolve_right
    refine ⟨hiff, fun ids issued entries position he changes h ↦ ⟨fun hnone hleft ↦ ?_, ?_⟩⟩
    · obtain ⟨c, hc, hentry, -⟩ := build_deletes h he (hleaves.2 hleft)
      exact hnone c hc hentry
    · rintro hnot c hc rfl
      obtain ⟨built, commands, hbuilt, hcommands, hmem⟩ := build_planned h hc he
      rw [ChangeEntry.commands_of_detached (hbuilt.trans (hiff.2 hnot)) hcommands] at hmem
      cases hmem

/-! ## Lives of pages -/

def firstPage : Entity := ⟨"Page", [("Id", .string "p1"), ("Text", .string "first")]⟩

def secondPage : Entity := ⟨"Page", [("Id", .string "p1"), ("Text", .string "second")]⟩

/-- What is done to a page that is written anew before it is stored. -/
def redrafted : List Touch := [.detect, .assign secondPage]

/-- What is done to a page that is thrown away. -/
def thrownAway : List Touch := [.assign secondPage, .delete, .detect]

/-- A stored page that was removed. -/
def removedPage : ChangeEntry := (ChangeEntry.unchanged page firstPage).after [.delete, .accept]

/-- One page is rewritten, one thrown away, and one removed again, which is stored as well. -/
def lives : List ChangeEntry :=
  [(ChangeEntry.added page firstPage).after redrafted,
    (ChangeEntry.added page firstPage).after thrownAway,
    removedPage.after [.detect, .delete, .accept]]

theorem build_touched_lives :
    .accept ∉ redrafted ∧ .accept ∉ thrownAway ∧ removedPage.state = .detached ∧
      ∃ changes, (build ones 0 lives).outcome = .ok changes ∧
        changes.commands.map (fun c ↦ c.2.command) =
          [.insert [(idElement, .string "p1"), ("Text", .string "second")]] ∧
        (∀ c ∈ changes.commands, c.2.entry = 0 → ∃ document, c.2.command = .insert document) ∧
        (∀ c ∈ changes.commands, c.2.entry = 1 → ∃ document, c.2.command = .insert document) ∧
        ∀ c ∈ changes.commands, c.2.entry ≠ 2 := by
  have hredrafted : .accept ∉ redrafted := by simp [redrafted]
  have hthrownAway : .accept ∉ thrownAway := by simp [thrownAway]
  have hremoved : removedPage.state = .detached := rfl
  obtain ⟨hstate, hcommands⟩ := (build_touched [.detect, .delete, .accept]).2 _ hremoved
  refine ⟨hredrafted, hthrownAway, hremoved, _, rfl, rfl, ?_, ?_, ?_⟩
  · exact ((build_touched redrafted).1 page firstPage hredrafted ones 0 lives 0 rfl _ rfl).2
      (by decide)
  · exact ((build_touched thrownAway).1 page firstPage hthrownAway ones 0 lives 1 rfl _ rfl).2
      (by decide)
  · exact (hcommands ones 0 lives 2 rfl _ rfl).2 (hstate.1 rfl)

/-- A page that was never stored is deleted twice, and the document without a key is to be removed; a
page whose removal was stored is deleted once more, and is to be removed again. -/
theorem build_touched_again :
    (∃ changes, (build ones 0 [(ChangeEntry.added page firstPage).after [.delete, .delete]]).outcome =
        .ok changes ∧
      changes.commands.map (fun c ↦ c.2.command) =
        [.delete (Filter.matching [(idElement, .null)])]) ∧
      removedPage.state = .detached ∧ (removedPage.after [.delete]).state = .deleted ∧
      ∃ changes, (build ones 0 [removedPage.after [.delete]]).outcome = .ok changes ∧
        changes.commands.map (fun c ↦ c.2.command) =
          [.delete (Filter.matching [(idElement, .string "p1")])] :=
  ⟨⟨_, rfl, rfl⟩, rfl, rfl, _, rfl, rfl⟩

end ChangeSet

end DocMapping
