import DocMapping.Proofs.Model.WellFormed
import Mathlib.Data.List.Pairwise

/-!
# Shared Collections

Types in one collection have discriminators, and the texts of these differ.  The check looks at the
texts alone: the discriminators of two types may lie in different elements.
-/

namespace DocMapping

namespace Model

/-- The discriminators of both types are there and have different texts. -/
def Discriminated (s t : EntityType) : Prop :=
  ∃ d ∈ s.discriminator, ∃ e ∈ t.discriminator, d.value ≠ e.value

instance : Std.Symm Discriminated where
  symm := fun _ _ ⟨d, hd, e, he, hne⟩ ↦ ⟨e, he, d, hd, hne.symm⟩

theorem checkDiscriminators_ok {collection : String} {seen : List String} {types : List EntityType}
    (h : checkDiscriminators collection seen types = .ok ()) :
    (∀ t ∈ types, ∃ d ∈ t.discriminator, d.value ∉ seen) ∧ types.Pairwise Discriminated := by
  induction types generalizing seen with
  | nil => exact ⟨by simp, .nil⟩
  | cons t rest ih =>
    unfold checkDiscriminators at h
    split at h
    · cases h
    next d hd =>
    split at h
    · cases h
    next hseen =>
    obtain ⟨hunseen, hpairwise⟩ := ih h
    refine ⟨List.forall_mem_cons.2 ⟨⟨d, hd, by simpa using hseen⟩, fun other hother ↦ ?_⟩,
      .cons (fun other hother ↦ ?_) hpairwise⟩
    · obtain ⟨e, he, hnew⟩ := hunseen other hother
      exact ⟨e, he, fun hmem ↦ hnew (List.mem_cons_of_mem d.value hmem)⟩
    · obtain ⟨e, he, hnew⟩ := hunseen other hother
      exact ⟨d, hd, e, he, fun hvalue ↦ hnew (hvalue ▸ List.mem_cons_self)⟩

theorem mem_sharing {m : Model} {collection : String} {t : EntityType} :
    t ∈ m.sharing collection ↔ t ∈ m.entities ∧ t.collection = some collection := by
  unfold sharing
  simp

/-- Where there are two types to be told apart, the discriminators have been looked at. -/
theorem checkShared_ok {m : Model} (h : m.checkShared = .ok ()) {collection : String}
    {t : EntityType} (ht : t ∈ m.sharing collection) (hmany : 2 ≤ (m.sharing collection).length) :
    checkDiscriminators collection [] (m.sharing collection) = .ok () := by
  obtain ⟨hmem, hcollection⟩ := mem_sharing.1 ht
  have hcheck := Outcome.forM_eq_ok.1 h t hmem
  rw [hcollection] at hcheck
  simpa only [if_neg (Nat.not_lt.2 hmany)] using hcheck

end Model

namespace ModelDeclaration

variable {m : ModelDeclaration} {model : Model}

theorem checkShared_of_build (h : m.build = .ok model) : model.checkShared = .ok () := by
  unfold build at h
  obtain ⟨_, -, h⟩ := Outcome.bind_eq_ok.1 h
  obtain ⟨entities, -, h⟩ := Outcome.bind_eq_ok.1 h
  obtain ⟨_, hshared, h⟩ := Outcome.bind_eq_ok.1 h
  cases h
  exact hshared

/-- Two types of one collection have discriminators of different texts. -/
theorem discriminated_of_build (h : m.build = .ok model) {s t : EntityType}
    (hs : s ∈ model.entities) (ht : t ∈ model.entities) (hne : s ≠ t) {collection : String}
    (hscollection : s.collection = some collection)
    (htcollection : t.collection = some collection) : Model.Discriminated s t := by
  have hs := Model.mem_sharing.2 ⟨hs, hscollection⟩
  have ht := Model.mem_sharing.2 ⟨ht, htcollection⟩
  have hmany : 2 ≤ (model.sharing collection).length := by
    by_contra hfew
    obtain ⟨only, honly⟩ : ∃ only, model.sharing collection = [only] := by
      have hsome := List.length_pos_of_mem hs
      exact List.length_eq_one_iff.1 (by omega)
    rw [honly, List.mem_singleton] at hs ht
    exact hne (hs.trans ht.symm)
  obtain ⟨-, hpairwise⟩ :=
    Model.checkDiscriminators_ok (Model.checkShared_ok (checkShared_of_build h) hs hmany)
  exact hpairwise.forall hs ht hne

end ModelDeclaration

end DocMapping
