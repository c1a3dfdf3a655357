import DocMapping.Proofs.Change.Restoration
import DocMapping.Proofs.Codec.PlainKey

/-!
# Commands for Keys

Every command that is planned for an entity without concurrency tokens is for one key.  It stores a
document under the key, or it looks for the stored document by the key and changes or removes it; its
compensation does the opposite.  The commands of a change set are those of its entries, in batches.
-/

namespace DocMapping

/-! ## Commands and the documents that they are for -/

/-- The command is for a plain key, under which it finds the stored document as it is given, if it is
to find one.  Its compensation takes back what it does. -/
inductive PlannedCommand.Concerns (planned : PlannedCommand) (key : Bson) : Option Document → Prop
  | insertion {document : Document} (hkey : key.IsPlainKey)
      (hid : document.get? idElement = some key) (hcommand : planned.command = .insert document)
      (hinverse : planned.compensation = some (.delete (Filter.matching [(idElement, key)]))) :
      Concerns planned key none
  | removal {document : Document} (hkey : key.IsPlainKey)
      (hid : document.get? idElement = some key)
      (hcommand : planned.command = .delete (Filter.matching [(idElement, key)]))
      (hinverse : planned.compensation = some (.insert document)) :
      Concerns planned key (some document)
  | replacement {old patched changes restored : Document} (hkey : key.IsPlainKey)
      (hid : old.get? idElement = some key)
      (hcommand : planned.command = .update (Filter.matching [(idElement, key)]) changes)
      (hinverse : planned.compensation =
        some (.update (Filter.matching [(idElement, key)]) restored))
      (hpatched : WriteCommand.assignAll old changes = .ok patched)
      (hrestored : WriteCommand.assignAll patched restored = .ok old)
      (hkept : patched.get? idElement = old.get? idElement) :
      Concerns planned key (some old)

namespace PlannedCommand.Concerns

variable {planned : PlannedCommand} {key other : Bson} {stored found : Option Document}

theorem plain (h : planned.Concerns key stored) : key.IsPlainKey := by
  cases h with
  | insertion hkey | removal hkey | replacement hkey => exact hkey

theorem get?_stored (h : planned.Concerns key stored) :
    ∀ document ∈ stored, document.get? idElement = some key := by
  intro document hdocument
  cases h with
  | insertion => cases hdocument
  | removal _ hid | replacement _ hid =>
    cases hdocument
    exact hid

theorem unique (h : planned.Concerns key stored) (hother : planned.Concerns other found) :
    key = other := by
  have hfilter : ∀ {a b : Bson}, Filter.matching [(idElement, a)] =
      Filter.matching [(idElement, b)] → a = b := by
    intro a b hsame
    simpa [Filter.matching] using hsame
  cases h with
  | insertion _ _ hcommand hinverse =>
    cases hother with
    | insertion _ _ _ hsecond =>
      rw [hinverse, Option.some.injEq, WriteCommand.delete.injEq] at hsecond
      exact hfilter hsecond
    | removal _ _ hsecond | replacement _ _ hsecond =>
      rw [hcommand] at hsecond
      cases hsecond
  | removal _ _ hcommand =>
    cases hother with
    | removal _ _ hsecond =>
      rw [hcommand, WriteCommand.delete.injEq] at hsecond
      exact hfilter hsecond
    | insertion _ _ hsecond | replacement _ _ hsecond =>
      rw [hcommand] at hsecond
      cases hsecond
  | replacement _ _ hcommand =>
    cases hother with
    | replacement _ _ hsecond =>
      rw [hcommand, WriteCommand.update.injEq] at hsecond
      exact hfilter hsecond.1
    | insertion _ _ hsecond | removal _ _ hsecond =>
      rw [hcommand] at hsecond
      cases hsecond

end PlannedCommand.Concerns

/-! ## Commands of one entity -/

namespace EntityType

/-- Entities of the type are found by plain keys alone. -/
structure PlainlyKeyed (t : EntityType) : Prop where
  identified : t.Identified
  keyed : t.WellKeyed
  plain : ∀ p ∈ t.keys, p.IsPlain
  tokenless : t.concurrencyTokens = []

variable {t : EntityType} {entry : Nat} {baseline current : Entity} {planned : PlannedCommand}

theorem PlainlyKeyed.of_build {m : ModelDeclaration} {model : Model} (hmodel : m.build = .ok model)
    (ht : t ∈ model.entities) (hid : t.KeyHasId) (hplain : ∀ p ∈ t.keys, p.IsPlain)
    (htokens : t.concurrencyTokens = []) : t.PlainlyKeyed :=
  ⟨⟨ModelDeclaration.wellFormed_of_build hmodel t ht, fun _ ↦ hid⟩,
    ModelDeclaration.wellKeyed_of_build hmodel t ht, hplain, htokens⟩

theorem PlainlyKeyed.isPlainKey (h : t.PlainlyKeyed) (hroot : t.isOwned = false) {e : Entity}
    {key : Bson} (hkey : t.keyValue e = .ok key) : key.IsPlainKey :=
  h.keyed.isPlainKey hroot h.plain hkey

theorem PlainlyKeyed.keyCondition_eq (h : t.PlainlyKeyed) {e : Entity} {key : Bson}
    (hkey : t.keyValue e = .ok key) (withTokens : Bool) :
    t.keyCondition withTokens e = .ok (Filter.matching [(idElement, key)], key.text) := by
  unfold keyCondition keyFilter tokenElements
  rw [hkey, h.tokenless]
  cases withTokens <;> rfl

/-- The stored document of an entity has its key. -/
theorem PlainlyKeyed.get?_encode (h : t.PlainlyKeyed) (hroot : t.isOwned = false) {e : Entity}
    {document : Document} (hdocument : t.encode e = .ok document) :
    ∃ key, t.keyValue e = .ok key ∧ document.get? idElement = some key ∧ key.IsPlainKey := by
  obtain ⟨key, hkey, hget⟩ := (h.identified.encode_names hdocument).2.2 hroot
  exact ⟨key, hkey, hget, h.isPlainKey hroot hkey⟩

/-- Keys of one type that are equal are the same. -/
theorem PlainlyKeyed.keyValue_eq (h : t.PlainlyKeyed) (hroot : t.isOwned = false) {a b : Entity}
    {key other : Bson} (hkey : t.keyValue a = .ok key) (hother : t.keyValue b = .ok other)
    (hequal : key.eq other = true) : key = other := by
  have hexact : ∀ p ∈ t.keys, p.storedForm.isExact = true := by
    intro p hp
    rcases p.storedForm_of_isPlain (h.plain p hp) with hform | hform | hform <;> rw [hform] <;> rfl
  have hsame := (h.keyed.sameForm_keyValue hroot hkey hother).sortKey_eq_iff
    (h.keyed.isExact_keyValue hroot hexact hkey) (h.keyed.isExact_keyValue hroot hexact hother)
  exact (h.isPlainKey hroot hkey).of_sortKey_eq (h.isPlainKey hroot hother) (hsame.2 hequal)

theorem planInsert_concerns (h : t.PlainlyKeyed) (hroot : t.isOwned = false)
    (hplanned : t.planInsert entry current = .ok planned) :
    ∃ key, t.keyValue current = .ok key ∧ planned.Concerns key none := by
  unfold planInsert at hplanned
  obtain ⟨document, hdocument, hplanned⟩ := Outcome.bind_eq_ok.1 hplanned
  obtain ⟨key, hkey, hid, hplain⟩ := h.get?_encode hroot hdocument
  rw [h.keyCondition_eq hkey] at hplanned
  cases hplanned
  exact ⟨key, hkey, .insertion hplain hid rfl rfl⟩

theorem planDelete_concerns (h : t.PlainlyKeyed) (hroot : t.isOwned = false)
    (hplanned : t.planDelete entry baseline = .ok planned) :
    ∃ key document, t.keyValue baseline = .ok key ∧ t.encode baseline = .ok document ∧
      planned.Concerns key (some document) := by
  unfold planDelete at hplanned
  obtain ⟨⟨filter, shown⟩, hcondition, hplanned⟩ := Outcome.bind_eq_ok.1 hplanned
  obtain ⟨document, hdocument, hplanned⟩ := Outcome.bind_eq_ok.1 hplanned
  obtain ⟨key, hkey, hid, hplain⟩ := h.get?_encode hroot hdocument
  cases (h.keyCondition_eq hkey true).symm.trans hcondition
  cases hplanned
  exact ⟨key, document, hkey, hdocument, .removal hplain hid rfl rfl⟩

/-- A change of a stored entity is one command for its key, or one for each of its keys. -/
theorem planUpdate_concerns (h : t.PlainlyKeyed) (hroot : t.isOwned = false)
    (hbaseline : baseline.DeepSorted) (hcurrent : current.DeepSorted) {document : Document}
    (hdocument : t.encode baseline = .ok document) {commands : List PlannedCommand}
    (hcommands : t.planUpdate entry baseline current = .ok commands) :
    (∃ key, t.keyValue baseline = .ok key ∧
        ∀ planned ∈ commands, commands = [planned] ∧ planned.Concerns key (some document)) ∨
      ∃ key other removal insertion, t.keyValue baseline = .ok key ∧
        t.keyValue current = .ok other ∧ key.eq other = false ∧
        commands = [removal, insertion] ∧ removal.Concerns key (some document) ∧
        insertion.Concerns other none := by
  unfold planUpdate at hcommands
  obtain ⟨key, hkey, hcommands⟩ := Outcome.bind_eq_ok.1 hcommands
  obtain ⟨other, hother, hcommands⟩ := Outcome.bind_eq_ok.1 hcommands
  split at hcommands
  · next hequal =>
    cases h.keyValue_eq hroot hkey hother hequal
    obtain ⟨changes, hchanges, hcommands⟩ := Outcome.bind_eq_ok.1 hcommands
    refine .inl ⟨key, hkey, ?_⟩
    split at hcommands
    · cases hcommands
      simp
    · rw [h.keyCondition_eq hkey, h.keyCondition_eq hother] at hcommands
      obtain ⟨_, hcondition, hcommands⟩ := Outcome.bind_eq_ok.1 hcommands
      cases hcondition
      obtain ⟨restored, hrestored, hcommands⟩ := Outcome.bind_eq_ok.1 hcommands
      cases hcommands
      obtain ⟨patched, hpatched, hback, hkept⟩ :=
        h.identified.restores hroot hbaseline hcurrent hdocument hchanges hrestored
      obtain ⟨_, hsame, hid, hplain⟩ := h.get?_encode hroot hdocument
      cases hkey.symm.trans hsame
      intro planned hplanned
      cases List.mem_singleton.1 hplanned
      exact ⟨rfl, .replacement hplain hid rfl rfl hpatched hback hkept⟩
  · next hdiffer =>
    obtain ⟨removal, hremoval, hcommands⟩ := Outcome.bind_eq_ok.1 hcommands
    obtain ⟨insertion, hinsertion, hcommands⟩ := Outcome.bind_eq_ok.1 hcommands
    cases hcommands
    obtain ⟨_, _, hfirst, hsecond, hremoves⟩ := planDelete_concerns h hroot hremoval
    obtain ⟨_, hthird, hinserts⟩ := planInsert_concerns h hroot hinsertion
    cases hkey.symm.trans hfirst
    cases hdocument.symm.trans hsecond
    cases hother.symm.trans hthird
    exact .inr ⟨key, other, removal, insertion, hkey, hother, by simpa using hdiffer, rfl, hremoves,
      hinserts⟩

end EntityType

/-! ## Commands of change sets -/

namespace ChangeEntry

/-- Completing keys changes nothing but the entity itself. -/
theorem completeKeys_value (e : ChangeEntry) (ids : IdSource) (collection : String) (s : KeyState) :
    ∃ current, (e.completeKeys ids collection s).value = { e with current := current } := by
  have hordinals (e : ChangeEntry) (s : KeyState) :
      ∃ current, (e.assignOrdinals collection s).value = { e with current := current } := by
    unfold assignOrdinals
    split
    · exact ⟨e.current, rfl⟩
    · exact ⟨_, rfl⟩
  obtain ⟨t, state, current, baseline⟩ := e
  cases state with
  | added =>
    unfold completeKeys Progress.andThen
    dsimp only
    split
    · exact ⟨_, rfl⟩
    · exact hordinals _ _
  | modified => exact hordinals _ _
  | detached | unchanged | deleted => exact ⟨current, rfl⟩

/-- The commands of the entry, in its collection. -/
def Contributes (e : ChangeEntry) (commands : List (String × PlannedCommand)) : Prop :=
  ∃ collection entry planned, e.type.collection = some collection ∧
    e.commands entry = .ok planned ∧ commands = planned.map fun command ↦ (collection, command)

end ChangeEntry

namespace ChangeSet

theorem commands_add (c : ChangeSet) (collection : String) (planned : PlannedCommand) :
    (c.add collection planned).commands.Perm (c.commands ++ [(collection, planned)]) := by
  obtain ⟨batches⟩ := c
  unfold add commands
  dsimp only
  induction batches with
  | nil => exact .rfl
  | cons batch rest ih =>
    unfold insertBatch
    split
    · next hsame =>
      simp only [List.flatMap_cons, List.map_append, List.map_cons, List.map_nil, hsame,
        List.append_assoc]
      exact .append_left _ List.perm_append_comm
    · simp only [List.flatMap_cons, List.append_assoc]
      exact ih.append_left _

/-- Adds commands one after the other, each to the batch of its collection. -/
def collect (c : ChangeSet) (commands : List (String × PlannedCommand)) : ChangeSet :=
  commands.foldl (fun changes command ↦ changes.add command.1 command.2) c

theorem commands_collect (c : ChangeSet) (commands : List (String × PlannedCommand)) :
    (c.collect commands).commands.Perm (c.commands ++ commands) := by
  induction commands generalizing c with
  | nil =>
    rw [List.append_nil]
    exact .rfl
  | cons command rest ih =>
    have hfirst := (commands_add c command.1 command.2).append_right rest
    rw [List.append_assoc] at hfirst
    exact (ih (c.add command.1 command.2)).trans hfirst

/-- An entity contributes the commands that are planned for it once its keys are complete. -/
theorem contribute_commands {e : ChangeEntry} {ids : IdSource} {entry : Nat}
    {before after : ChangeSet} {s : KeyState}
    (h : (e.contribute ids entry before s).2.2 = .ok after) :
    ∃ collection commands, e.type.collection = some collection ∧
      (e.completeKeys ids collection s).fault = none ∧
      e.contribute ids entry before s = ((e.completeKeys ids collection s).value,
        (e.completeKeys ids collection s).state, .ok after) ∧
      (e.completeKeys ids collection s).value.commands entry = .ok commands ∧
      after = before.collect (commands.map fun command ↦ (collection, command)) := by
  unfold ChangeEntry.contribute at h ⊢
  cases hcollection : e.type.collection with
  | none =>
    rw [hcollection] at h
    cases h
  | some collection =>
    rw [hcollection] at h
    dsimp only at h ⊢
    refine ⟨collection, ?_⟩
    split at h
    · cases h
    · next hdone =>
      obtain ⟨planned, hplanned, rfl⟩ := Outcome.map_eq_ok.1 h
      rw [hdone, hplanned]
      refine ⟨planned, rfl, rfl, rfl, rfl, ?_⟩
      rw [collect, List.foldl_map]

theorem contribute_ok {e : ChangeEntry} {ids : IdSource} {entry : Nat} {before after : ChangeSet}
    {s : KeyState} (h : (e.contribute ids entry before s).2.2 = .ok after) :
    ∃ commands, (e.contribute ids entry before s).1.Contributes commands ∧
      after.commands.Perm (before.commands ++ commands) := by
  obtain ⟨collection, planned, hcollection, -, heq, hplanned, rfl⟩ := contribute_commands h
  obtain ⟨current, hcurrent⟩ := e.completeKeys_value ids collection s
  refine ⟨_, ⟨collection, entry, planned, ?_, ?_, rfl⟩, commands_collect ..⟩
  · rw [heq, hcurrent]
    exact hcollection
  · rw [heq]
    exact hplanned

/-- A change set has the commands of all its entries. -/
theorem buildFrom_commands {ids : IdSource} {entry : Nat} {before changes : ChangeSet}
    {s : KeyState} {entries : List ChangeEntry}
    (h : (buildFrom ids entry before s entries).outcome = .ok changes) :
    ∃ commands, List.Forall₂ ChangeEntry.Contributes (buildFrom ids entry before s entries).entries
      commands ∧ changes.commands.Perm (before.commands ++ commands.flatten) := by
  induction entries generalizing entry before s with
  | nil =>
    cases h
    exact ⟨[], .nil, by simp⟩
  | cons e rest ih =>
    unfold buildFrom at h ⊢
    have hcontribute : ∀ after, (e.contribute ids entry before s).2.2 = .ok after → ∃ commands,
        (e.contribute ids entry before s).1.Contributes commands ∧
          after.commands.Perm (before.commands ++ commands) := fun after ↦ contribute_ok
    generalize e.contribute ids entry before s = contribution at h hcontribute ⊢
    obtain ⟨e, next, fault | middle⟩ := contribution
    · cases h
    · obtain ⟨first, hfirst, hmiddle⟩ := hcontribute middle rfl
      obtain ⟨others, hothers, hchanges⟩ := ih h
      refine ⟨first :: others, .cons hfirst hothers, ?_⟩
      rw [List.flatten_cons, ← List.append_assoc]
      exact hchanges.trans (hmiddle.append_right _)

end ChangeSet

end DocMapping
