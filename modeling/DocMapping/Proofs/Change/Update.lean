import DocMapping.Change.ChangeSet
import DocMapping.Proofs.Change.Difference
import DocMapping.Proofs.Change.Tokens
import DocMapping.Store

/-!
# Updates Agree with Documents

An entity that has changed is stored by an update of its document.  The filter of the update selects
the document as it was, and its assignments turn that document into one that holds what the document
of the changed entity would hold at every changed path, and is otherwise left as it was.
-/

namespace DocMapping

open Document (Apart assignedPath names)

/-! ## Assignments that do not meet -/

theorem WriteCommand.assignAll_cons {document changed : Document} {a : String × Bson}
    (hid : a.1 ≠ idElement) (h : document.assign a.2 (assignedPath a) = .ok changed)
    (rest : Document) : assignAll document (a :: rest) = assignAll changed rest := by
  obtain ⟨path, value⟩ := a
  change document.assign value (Text.segments path) = .ok changed at h
  rw [assignAll, h]
  simp [hid]

/-- Assignments to elements that are there, none of which lies on the way to another, all succeed,
and each of them stays in force. -/
theorem WriteCommand.assignAll_of_apart {changes : Document} {document : Document}
    (hid : ∀ a ∈ changes, a.1 ≠ idElement)
    (happart : changes.Pairwise fun a b ↦ Apart (assignedPath a) (assignedPath b))
    (hlookup : ∀ a ∈ changes, (document.lookup (assignedPath a)).isSome) :
    ∃ patched, assignAll document changes = .ok patched ∧
      (∀ a ∈ changes, patched.lookup (assignedPath a) = some a.2) ∧
      (∀ path, (∀ a ∈ changes, Apart (assignedPath a) path) →
        patched.lookup path = document.lookup path) ∧
      (∀ path, (∀ a ∈ changes, ¬assignedPath a <+: path) →
        (patched.descend path).map names = (document.descend path).map names) := by
  induction changes generalizing document with
  | nil => exact ⟨document, rfl, by simp, fun _ _ ↦ rfl, fun _ _ ↦ rfl⟩
  | cons a rest ih =>
    obtain ⟨hida, hid⟩ := List.forall_mem_cons.1 hid
    obtain ⟨ha, happart⟩ := List.pairwise_cons.1 happart
    obtain ⟨hlookupa, hlookup⟩ := List.forall_mem_cons.1 hlookup
    obtain ⟨changed, hchanged⟩ := Document.assign_of_lookup a.2 hlookupa
    have hkept : ∀ path, Apart (assignedPath a) path →
        changed.lookup path = document.lookup path :=
      fun path ↦ Document.lookup_assign_of_apart hchanged
    obtain ⟨patched, hpatched, hvalues, hothers, hnames⟩ := ih hid happart fun b hb ↦ by
      rw [hkept _ (ha b hb)]
      exact hlookup b hb
    refine ⟨patched, (assignAll_cons hida hchanged rest).trans hpatched, ?_, ?_, ?_⟩
    · refine List.forall_mem_cons.2 ⟨?_, hvalues⟩
      rw [hothers _ fun b hb ↦ (ha b hb).symm]
      exact Document.lookup_assign (Text.segments_ne_nil a.1) hchanged
    · intro path hpath
      obtain ⟨hfirst, hrest⟩ := List.forall_mem_cons.1 hpath
      rw [hothers path hrest, hkept path hfirst]
    · intro path hpath
      obtain ⟨hfirst, hrest⟩ := List.forall_mem_cons.1 hpath
      rw [hnames path hrest, Document.names_assign hlookupa hchanged hfirst]

namespace EntityType

variable {t : EntityType}

/-! ## Updates -/

/-- What the update of a document is to do with it. -/
structure Patches (t : EntityType) (before after : Entity) (old new patched : Document) : Prop where
  /-- Changed paths hold what they hold in the new document. -/
  changed : ∀ path, ChangedAt t before after path →
    patched.lookup path = new.lookup path ∧ (new.lookup path).isSome
  /-- Paths that no changed one leads to or through hold what they held. -/
  kept : ∀ path, (∀ other, ChangedAt t before after other → Apart other path) →
    patched.lookup path = old.lookup path
  /-- Documents that no changed path leads through have the same elements in the same order. -/
  order : ∀ path, (∀ other, ChangedAt t before after other → ¬other <+: path) →
    (patched.descend path).map names = (old.descend path).map names

/-- The assignments reach every changed path once, and no path under the key. -/
structure AssignsApart (changes : Document) : Prop where
  notKey : ∀ a ∈ changes, (assignedPath a).head? ≠ some idElement
  apart : changes.Pairwise fun a b ↦ Apart (assignedPath a) (assignedPath b)

theorem Identified.head_ne_id (h : t.Identified) (hroot : t.isOwned = false) (hkeys : t.keys ≠ [])
    {before after : Entity} {path : List String} (hchanged : ChangedAt t before after path) :
    path.head? ≠ some idElement := by
  have hid := h.idElement_notMem hroot hkeys
  unfold bodyNames at hid
  rw [List.append_assoc] at hid
  obtain ⟨name, rest, rfl⟩ := List.exists_cons_of_ne_nil hchanged.ne_nil
  have hmem := hchanged.head_mem
  intro heq
  cases heq
  exact hid (List.mem_append_right _ hmem)

/-- The difference of two entities of a root type assigns what has changed, and never the key. -/
theorem Identified.diff_assigns (h : t.Identified) (hroot : t.isOwned = false) (hkeys : t.keys ≠ [])
    {before after : Entity} {changes : Document} (hchanges : t.diff before after = .ok changes) :
    Assigns [] (ChangedAt t before after) (Fits t before after) changes ∧ AssignsApart changes := by
  obtain ⟨assignments, hassignments, rfl⟩ := Outcome.map_eq_ok.1 hchanges
  have hassigns := h.wellFormed.diffFrom_assigns Text.leads_empty hassignments
  have hnodup : (assignments.map Prod.fst).Nodup := by
    rw [List.Nodup, List.pairwise_map]
    refine hassigns.apart.imp fun happart heq ↦ happart.1 ?_
    rw [assignedPath, heq]
    exact List.prefix_rfl
  rw [Document.ofList_of_nodup hnodup]
  exact ⟨hassigns, fun a ha ↦ h.head_ne_id hroot hkeys (hassigns.of_mem ha).1, hassigns.apart⟩

theorem AssignsApart.ne_idElement {changes : Document} (h : AssignsApart changes)
    {a : String × Bson} (ha : a ∈ changes) : a.1 ≠ idElement := by
  intro hid
  refine h.notKey a ha ?_
  rw [assignedPath, hid, Text.segments_of_isSegment isSegment_idElement]
  rfl

/-- The difference of two entities patches the document of the first. -/
theorem Addressable.diff_patches (h : t.Addressable) (hroot : t.isOwned = false)
    {before after : Entity} {old new : Document} (hold : t.encode before = .ok old)
    (hnew : t.encode after = .ok new) :
    ∃ changes patched, t.diff before after = .ok changes ∧
      (changes = [] ↔ ∀ path, ¬ChangedAt t before after path) ∧ AssignsApart changes ∧
      WriteCommand.assignAll old changes = .ok patched ∧
      Patches t before after old new patched := by
  obtain ⟨assignments, hassignments⟩ := h.wellFormed.exists_diffFrom "" hold hnew
  have hdiff : t.diff before after = .ok (Document.ofList assignments) := by
    rw [diff, hassignments]
    rfl
  obtain ⟨key, hkey, -⟩ := (h.identified.encode_names hold).2.2 hroot
  obtain ⟨hassigns, happart⟩ :=
    h.identified.diff_assigns hroot (keys_ne_nil_of_keyValue hkey) hdiff
  generalize Document.ofList assignments = changes at hdiff hassigns happart
  obtain ⟨patched, hpatched, hvalues, hothers, hnames⟩ := WriteCommand.assignAll_of_apart
    (fun a ha ↦ happart.ne_idElement ha) happart.apart
    fun a ha ↦ (hassigns.of_mem ha).2.old old hold
  refine ⟨changes, patched, hdiff, ?_, happart, hpatched, ?_, ?_, ?_⟩
  · constructor
    · rintro rfl path hpath
      obtain ⟨a, ha, -⟩ := hassigns.complete path hpath
      cases ha
    · intro hnone
      exact List.eq_nil_iff_forall_not_mem.2 fun a ha ↦ hnone _ (hassigns.of_mem ha).1
  · intro path hpath
    obtain ⟨a, ha, rfl⟩ := hassigns.complete path hpath
    have hafter := (hassigns.of_mem ha).2.new new hnew
    rw [hvalues a ha, hafter]
    exact ⟨rfl, rfl⟩
  · exact fun path hpath ↦ hothers path fun a ha ↦ hpath _ (hassigns.of_mem ha).1
  · exact fun path hpath ↦ hnames path fun a ha ↦ hpath _ (hassigns.of_mem ha).1

/-- The update of an entity whose key stays the same can always be planned.  It is left out exactly
if nothing has changed outside of the key; otherwise it is one command, which selects the document
as it was and patches it. -/
theorem planUpdate_agrees {m : ModelDeclaration} {model : Model} (hmodel : m.build = .ok model)
    (ht : t ∈ model.entities) (hroot : t.isOwned = false) (hkey : t.KeyUnderId)
    (htokens : t.TokensApartFromKeys) {before after : Entity} {old new : Document}
    (hold : t.encode before = .ok old) (hnew : t.encode after = .ok new) {baselineKey key : Bson}
    (hbaseline : t.keyValue before = .ok baselineKey) (hcurrent : t.keyValue after = .ok key)
    (hsame : baselineKey.eq key = true) (entry : Nat) :
    ∃ commands, t.planUpdate entry before after = .ok commands ∧
      (commands = [] ↔ ∀ path, ¬ChangedAt t before after path) ∧
      ∀ planned ∈ commands, ∃ filter changes patched, commands = [planned] ∧
        planned.command = .update filter changes ∧ filter.holds old = true ∧
        AssignsApart changes ∧ WriteCommand.assignAll old changes = .ok patched ∧
        Patches t before after old new patched := by
  have h : t.Addressable := ⟨ModelDeclaration.wellFormed_of_build hmodel t ht, fun _ ↦ hkey⟩
  obtain ⟨changes, patched, hchanges, hnone, hassigns, hpatched, hpatches⟩ :=
    h.diff_patches hroot hold hnew
  obtain ⟨restored, _, hrestored, -⟩ := h.diff_patches hroot hnew hold
  obtain ⟨filter, shown, hfilter, hholds⟩ := h.keyCondition_holds hroot htokens hold
  obtain ⟨restoring, _, hrestoring, -⟩ := h.keyCondition_holds hroot htokens hnew
  have hplan : t.planUpdate entry before after =
      if changes.isEmpty then .ok []
      else .ok [⟨.update filter changes, entry, shown, some (.update restoring restored)⟩] := by
    unfold planUpdate
    rw [hbaseline, hcurrent]
    change (if baselineKey.eq key then _ else _) = _
    rw [if_pos hsame, hchanges, hfilter, hrestored, hrestoring]
    cases changes <;> rfl
  cases changes with
  | nil => exact ⟨[], hplan, ⟨fun _ ↦ hnone.1 rfl, fun _ ↦ rfl⟩, by simp⟩
  | cons first rest =>
    refine ⟨_, hplan, ⟨fun hnil ↦ (by cases hnil), fun hall ↦ (by cases hnone.2 hall)⟩, ?_⟩
    intro planned hmem
    rw [List.mem_singleton.1 hmem]
    exact ⟨filter, first :: rest, patched, rfl, rfl, hholds, hassigns, hpatched, hpatches⟩

/-! ## Keys that share their name or their stored form -/

/-- Notes whose revision goes by the name of their key. -/
def notes : ModelDeclaration :=
  ⟨.asDeclared, [⟨"Note", false, none, ["Id"],
    [declared "Id" .string, declared "Text" .string,
      { declared "Id" .string with element := some "Revision", concurrencyToken := true }], [],
    none⟩]⟩

def note : EntityType :=
  ⟨"Note", some "Note",
    [{ Property.plain "Id" (.scalar .string) with element := idElement },
      Property.plain "Text" (.scalar .string),
      { Property.plain "Id" (.scalar .string) with element := "Revision", concurrencyToken := true }],
    [{ Property.plain "Id" (.scalar .string) with element := idElement }], [], none⟩

theorem planUpdate_agrees_page :
    pages.build = .ok ⟨[page]⟩ ∧ page.KeyUnderId ∧ page.TokensApartFromKeys ∧
      ∃ planned, page.planUpdate 0 (written "Page" (.int32 5) "t") (written "Page" (.int64 5) "u") =
          .ok [planned] ∧
        ∃ filter changes patched, planned.command = .update filter changes ∧
          WriteCommand.assignAll [(idElement, .int64 5), ("Text", .string "t")] changes =
            .ok patched ∧
          patched.lookup ["Text"] = some (.string "u") ∧
          patched.names = [idElement, "Text"] := by
  have hkey : page.KeyUnderId := by
    simp [KeyUnderId, page, hasCompositeKey]
  have htokens : page.TokensApartFromKeys := by
    intro p hp
    cases hp
  have hbuild : pages.build = .ok ⟨[page]⟩ := rfl
  have hold : page.encode (written "Page" (.int32 5) "t") =
      .ok [(idElement, .int64 5), ("Text", .string "t")] := rfl
  have hnew : page.encode (written "Page" (.int64 5) "u") =
      .ok [(idElement, .int64 5), ("Text", .string "u")] := rfl
  obtain ⟨commands, hcommands, hnone, hall⟩ := planUpdate_agrees hbuild List.mem_cons_self rfl hkey
    htokens hold hnew rfl rfl rfl 0
  have htext : Property.plain "Text" (.scalar .string) ∈ page.storedProperties :=
    List.mem_singleton_self _
  have hchanged : ChangedAt page (written "Page" (.int32 5) "t") (written "Page" (.int64 5) "u")
      ["Text"] := ChangedAt.property htext rfl
  have hne : commands ≠ [] := fun hnil ↦ hnone.1 hnil _ hchanged
  obtain ⟨planned, hplanned⟩ := List.exists_mem_of_ne_nil _ hne
  obtain ⟨filter, changes, patched, rfl, hcommand, -, -, hpatched, hpatches⟩ := hall planned hplanned
  refine ⟨hbuild, hkey, htokens, planned, hcommands, filter, changes, patched, hcommand, hpatched,
    (hpatches.changed _ hchanged).1, ?_⟩
  have horder := hpatches.order [] fun other hother ↦ fun hprefix ↦
    hother.ne_nil (List.prefix_nil.1 hprefix)
  exact Option.some.inj horder

/-- Two accepted models.  In the first, the filter of an update asks for a token that no document
has.  In the second, nothing is planned although the keys are different values, since they are
stored alike. -/
theorem planUpdate_beside_documents :
    (notes.build = .ok ⟨[note]⟩ ∧ note.isOwned = false ∧ note.KeyUnderId ∧
      note.keyValue (written "Note" (.string "n") "a") = .ok (.string "n") ∧
      note.keyValue (written "Note" (.string "n") "b") = .ok (.string "n") ∧
      note.encode (written "Note" (.string "n") "b") =
        .ok [(idElement, .string "n"), ("Text", .string "b")] ∧
      ∃ old planned filter changes, note.encode (written "Note" (.string "n") "a") = .ok old ∧
        note.planUpdate 0 (written "Note" (.string "n") "a") (written "Note" (.string "n") "b") =
          .ok [planned] ∧
        planned.command = .update filter changes ∧ filter.holds old = false) ∧
    (pages.build = .ok ⟨[page]⟩ ∧ page.isOwned = false ∧ page.KeyUnderId ∧
      page.keyValue (written "Page" (.int32 5) "t") = .ok (.int64 5) ∧
      page.keyValue (written "Page" (.int64 5) "t") = .ok (.int64 5) ∧
      page.planUpdate 0 (written "Page" (.int32 5) "t") (written "Page" (.int64 5) "t") = .ok [] ∧
      ∃ p ∈ page.properties, p.element = idElement ∧
        p.comparer.equals (.int32 5) (.int64 5) = false) := by
  have hnote : note.KeyUnderId := by
    simp [KeyUnderId, note, hasCompositeKey]
  have hpage : page.KeyUnderId := by
    simp [KeyUnderId, page, hasCompositeKey]
  exact ⟨⟨rfl, rfl, hnote, rfl, rfl, rfl, _, _, _, _, rfl, rfl, rfl, rfl⟩,
    rfl, rfl, hpage, rfl, rfl, rfl, _, List.mem_cons_self, rfl, rfl⟩

end EntityType

end DocMapping
