import DocMapping.Proofs.Bson.Assignments
import DocMapping.Proofs.Change.Update
import DocMapping.Proofs.Value.Equality
import Mathlib.Data.List.Pairwise

/-!
# Differences Undo Each Other

Two entities differ at the same paths in either direction.  So the difference back from the second
entity to the first overwrites everything that the difference to it assigned, and a document that was
patched by the one is restored by the other, element order included.
-/

namespace DocMapping

open Document (Apart assignedPath)

/-! ## Assignments over others -/

instance : Std.Symm fun a b : String × Bson ↦ Apart (assignedPath a) (assignedPath b) :=
  ⟨fun _ _ h ↦ h.symm⟩

namespace WriteCommand

/-- Assignments may be made over another one at a path of theirs as if it had not been there. -/
theorem assignAll_overwrites {restored document changed : Document} {a : String × Bson}
    (hid : ∀ b ∈ restored, b.1 ≠ idElement)
    (happart : restored.Pairwise fun b c ↦ Apart (assignedPath b) (assignedPath c))
    (hlookup : ∀ b ∈ restored, (document.lookup (assignedPath b)).isSome)
    (hmem : ∃ b ∈ restored, assignedPath b = assignedPath a)
    (h : document.assign a.2 (assignedPath a) = .ok changed) :
    assignAll changed restored = assignAll document restored := by
  induction restored generalizing document changed with
  | nil => simp at hmem
  | cons b rest ih =>
    obtain ⟨hidb, hid⟩ := List.forall_mem_cons.1 hid
    obtain ⟨hb, happart⟩ := List.pairwise_cons.1 happart
    obtain ⟨hlookupb, hlookup⟩ := List.forall_mem_cons.1 hlookup
    obtain ⟨next, hnext⟩ := Document.assign_of_lookup b.2 hlookupb
    by_cases hsame : assignedPath b = assignedPath a
    · have hchanged : changed.assign b.2 (assignedPath b) = .ok next := by
        rw [hsame] at hnext ⊢
        rw [Document.assign_assign h, hnext]
      rw [assignAll_cons hidb hchanged, assignAll_cons hidb hnext]
    · obtain ⟨c, hc, hpath⟩ := (List.exists_mem_cons_iff ..).1 hmem |>.resolve_left hsame
      have hba : Apart (assignedPath b) (assignedPath a) := hpath ▸ hb c hc
      have hkept : ∀ d ∈ rest, (next.lookup (assignedPath d)).isSome := by
        intro d hd
        rw [Document.lookup_assign_of_apart hnext (hb d hd)]
        exact hlookup d hd
      obtain ⟨last, hlast⟩ := Document.assign_of_lookup a.2 (hpath ▸ hkept c hc)
      have hchanged : changed.assign b.2 (assignedPath b) = .ok last := by
        rw [← hlast]
        exact (Document.assign_comm hba hlookupb hnext h).symm
      rw [assignAll_cons hidb hchanged, assignAll_cons hidb hnext]
      exact ih hid happart hkept ⟨c, hc, hpath⟩ hlast

/-- Assignments that reach every path of others take no notice of them. -/
theorem assignAll_assignAll {changes restored document patched : Document}
    (hchanges : ∀ a ∈ changes, a.1 ≠ idElement ∧ ∃ b ∈ restored, assignedPath b = assignedPath a)
    (hid : ∀ b ∈ restored, b.1 ≠ idElement)
    (happart : restored.Pairwise fun b c ↦ Apart (assignedPath b) (assignedPath c))
    (hlookup : ∀ b ∈ restored, (document.lookup (assignedPath b)).isSome)
    (h : assignAll document changes = .ok patched) :
    assignAll patched restored = assignAll document restored := by
  induction changes generalizing document with
  | nil =>
    cases h
    rfl
  | cons a rest ih =>
    obtain ⟨⟨hida, hmem⟩, hrest⟩ := List.forall_mem_cons.1 hchanges
    obtain ⟨c, hc, hpath⟩ := hmem
    obtain ⟨changed, hchanged⟩ := Document.assign_of_lookup a.2 (hpath ▸ hlookup c hc)
    rw [assignAll_cons hida hchanged] at h
    have hkept : ∀ b ∈ restored, (changed.lookup (assignedPath b)).isSome := by
      intro b hb
      by_cases hsame : assignedPath b = assignedPath a
      · have hvalue := Document.lookup_assign (Text.segments_ne_nil a.1) hchanged
        rw [hsame, assignedPath, hvalue]
        rfl
      · have hne : c ≠ b := fun heq ↦ hsame (heq ▸ hpath)
        have hcb : Apart (assignedPath c) (assignedPath b) := happart.forall hc hb hne
        rw [Document.lookup_assign_of_apart hchanged (hpath ▸ hcb)]
        exact hlookup b hb
    rw [ih hrest hkept h]
    exact assignAll_overwrites hid happart hlookup ⟨c, hc, hpath⟩ hchanged

/-- Assigning what is there already changes nothing. -/
theorem assignAll_self {restored document : Document} (hid : ∀ b ∈ restored, b.1 ≠ idElement)
    (hlookup : ∀ b ∈ restored, document.lookup (assignedPath b) = some b.2) :
    assignAll document restored = .ok document := by
  induction restored with
  | nil => rfl
  | cons b rest ih =>
    obtain ⟨hidb, hid⟩ := List.forall_mem_cons.1 hid
    obtain ⟨hlookupb, hlookup⟩ := List.forall_mem_cons.1 hlookup
    rw [assignAll_cons hidb (Document.assign_self hlookupb), ih hid hlookup]

end WriteCommand

/-! ## Differences in both directions -/

/-- The members of an entity, and of all entities in it, are in the order of their names. -/
def Entity.DeepSorted (e : Entity) : Prop := e.toValue.Sorted

theorem Entity.DeepSorted.value {e : Entity} (h : e.DeepSorted) (member : String) :
    (e.value member).Sorted := by
  unfold Entity.value Entity.get?
  cases hlookup : e.members.lookup member with
  | none => trivial
  | some value => exact Value.sortedMembers_iff.1 h.2 _ (Association.mem_of_lookup hlookup)

namespace EntityType

variable {t : EntityType}

/-- Two entities differ at the same paths in either direction. -/
theorem ChangedAt.symm {before after : Entity} {path : List String}
    (h : ChangedAt t before after path) :
    before.DeepSorted → after.DeepSorted → ChangedAt t after before path := by
  refine @ChangedAt.rec
    (fun t before after path _ ↦
      before.DeepSorted → after.DeepSorted → ChangedAt t after before path)
    (fun n before after path _ ↦
      before.Sorted → after.Sorted → OwnedChangedAt n after before path)
    ?property ?navigation ?whole ?inside _ _ _ _ h
  case property =>
    intro t before after p hp h hbefore hafter
    refine .property hp ?_
    rw [Comparer.equals_comm _ (hafter.value _) (hbefore.value _), h]
  case navigation =>
    intro t before after n path hn _ ih hbefore hafter
    exact .navigation hn (ih (hbefore.value _) (hafter.value _))
  case whole =>
    intro n before after hwhole h hbefore hafter
    refine .whole (fun hentered ↦ hwhole ⟨hentered.1, hentered.2.2, hentered.2.1⟩) ?_
    rw [Value.structuralEq_comm hafter hbefore, h]
  case inside =>
    intro n before after old new path hsingle hold hnew _ ih hbefore hafter
    rw [Value.eq_toValue hold] at hbefore
    rw [Value.eq_toValue hnew] at hafter
    exact .inside hsingle hnew hold (ih hbefore hafter)

/-- A document is patched by a difference from its entity, and restored by the difference back.  The
other entity need not be one that can be stored: the differences are all that is known of it. -/
theorem Identified.restores (h : t.Identified) (hroot : t.isOwned = false) {before after : Entity}
    (hbefore : before.DeepSorted) (hafter : after.DeepSorted) {old : Document}
    (hold : t.encode before = .ok old) {changes restored : Document}
    (hchanges : t.diff before after = .ok changes)
    (hrestored : t.diff after before = .ok restored) :
    ∃ patched, WriteCommand.assignAll old changes = .ok patched ∧
      WriteCommand.assignAll patched restored = .ok old ∧
      patched.get? idElement = old.get? idElement := by
  obtain ⟨key, hkey, -⟩ := (h.encode_names hold).2.2 hroot
  have hkeys := keys_ne_nil_of_keyValue hkey
  obtain ⟨hassigns, happart⟩ := h.diff_assigns hroot hkeys hchanges
  obtain ⟨hback, hapartBack⟩ := h.diff_assigns hroot hkeys hrestored
  obtain ⟨patched, hpatched, -, hothers, -⟩ := WriteCommand.assignAll_of_apart
    (fun a ha ↦ happart.ne_idElement ha) happart.apart
    fun a ha ↦ (hassigns.of_mem ha).2.old old hold
  have hid : ∀ b ∈ restored, b.1 ≠ idElement := fun b hb ↦ hapartBack.ne_idElement hb
  have hlookup : ∀ b ∈ restored, old.lookup (assignedPath b) = some b.2 :=
    fun b hb ↦ (hback.of_mem hb).2.new old hold
  have hreached : ∀ a ∈ changes, a.1 ≠ idElement ∧
      ∃ b ∈ restored, assignedPath b = assignedPath a := by
    intro a ha
    refine ⟨happart.ne_idElement ha, ?_⟩
    exact hback.complete _ ((hassigns.of_mem ha).1.symm hbefore hafter)
  refine ⟨patched, hpatched, ?_, hothers [idElement] fun a ha ↦ ?_⟩
  · calc WriteCommand.assignAll patched restored = WriteCommand.assignAll old restored :=
          WriteCommand.assignAll_assignAll hreached hid hapartBack.apart
            (fun b hb ↦ by rw [hlookup b hb]; rfl) hpatched
      _ = .ok old := WriteCommand.assignAll_self hid hlookup
  · have hnotKey := happart.notKey a ha
    obtain ⟨name, rest, hpath⟩ := List.exists_cons_of_ne_nil (Text.segments_ne_nil a.1)
    rw [assignedPath, hpath] at hnotKey ⊢
    exact apart_of_ne rest [] fun hname ↦ hnotKey (congrArg some hname)

end EntityType

end DocMapping
