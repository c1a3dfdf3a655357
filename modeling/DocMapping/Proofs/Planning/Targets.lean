import DocMapping.Planning.Target
import DocMapping.Proofs.Codec.Document

/-!
# Where Members Lie

A chain of members leads to a path that can be written with points and read back, except inside of a
composite key, whose elements may have any names.  The entities on its way are of well-formed types.
-/

namespace DocMapping

/-- The path consists of segments, or lies at or below the identifier. -/
def IsAddress (path : List String) : Prop :=
  (∀ part ∈ path, Text.IsSegment part) ∨ ∃ rest, path = idElement :: rest

/-- What a chain of members of a well-formed type leads to. -/
def Target.IsSound : Target → Prop
  | .property path _ => IsAddress path
  | .entity path t _ => t.WellFormed ∧ (∀ part ∈ path, Text.IsSegment part) ∧
    (path = [] ∨ t.isOwned = true)
  | .ownedCollection path _ _ => ∀ part ∈ path, Text.IsSegment part

theorem Target.IsSound.isAddress {target : Target} (h : target.IsSound) :
    IsAddress target.path := by
  cases target with
  | property path p => exact h
  | entity path t nullable => exact .inl h.2.1
  | ownedCollection path t container => exact .inl h

namespace EntityType

variable {t : EntityType} {path : List String}

/-- The parts of a composite key lie below the identifier, other properties in elements. -/
theorem isAddress_elementPath (hwell : t.WellFormed)
    (hsegments : ∀ part ∈ path, Text.IsSegment part) (howner : path = [] ∨ t.isOwned = true)
    {p : Property} (hp : p ∈ t.properties) :
    IsAddress (path ++ t.elementPath p) := by
  unfold elementPath
  split
  · next hkey =>
    have hroot := isOwned_of_hasCompositeKey (Bool.and_eq_true_iff.1 hkey).1
    rcases howner with rfl | howned
    · exact .inr ⟨[p.element], rfl⟩
    · rw [hroot] at howned
      cases howned
  · next hkey =>
    have helement : p.element ∈ t.elements := by
      cases hcomposite : t.hasCompositeKey with
      | true =>
        rw [hcomposite, Bool.true_and, Bool.not_eq_true] at hkey
        exact element_mem_of_stored (mem_storedProperties.2 ⟨hp, .inr hkey⟩)
      | false =>
        rw [elements_of_not_composite hcomposite]
        simp only [List.mem_append]
        exact .inl (.inl (List.mem_map_of_mem hp))
    exact .inl (List.forall_mem_append.2 ⟨hsegments,
      List.forall_mem_singleton.2 (isSegment_of_isElementName (hwell.valid _ helement))⟩)

/-- What a member leads to is its first property, or else its first navigation. -/
theorem target_cases {name : String} {target : Target} (h : t.target path name = .ok target) :
    (∃ p, t.property? name = some p ∧ target = .property (path ++ t.elementPath p) p) ∨
      ∃ n, t.navigation? name = some n ∧
        ((n.container = none ∧ target = .entity (path ++ [n.element]) n.target n.nullable) ∨
          ∃ container, n.container = some container ∧
            target = .ownedCollection (path ++ [n.element]) n.target container) := by
  unfold EntityType.target at h
  split at h
  · next p hp => exact .inl ⟨p, hp, (Except.ok.inj h).symm⟩
  split at h
  · next n hn =>
    refine .inr ⟨n, hn, ?_⟩
    split at h
    · next container hcontainer => exact .inr ⟨container, hcontainer, (Except.ok.inj h).symm⟩
    · next hsingle => exact .inl ⟨hsingle, (Except.ok.inj h).symm⟩
  · cases h

theorem target_sound (hwell : t.WellFormed) (hsegments : ∀ part ∈ path, Text.IsSegment part)
    (howner : path = [] ∨ t.isOwned = true) {member : String} {target : Target}
    (h : t.target path member = .ok target) : target.IsSound := by
  have hbelow {n : Navigation EntityType} (hn : t.navigation? member = some n) :
      ∀ part ∈ path ++ [n.element], Text.IsSegment part := by
    have hvalid := hwell.valid _ (element_mem_of_navigation (List.mem_of_find?_eq_some hn))
    exact List.forall_mem_append.2 ⟨hsegments,
      List.forall_mem_singleton.2 (isSegment_of_isElementName hvalid)⟩
  rcases target_cases h with ⟨p, hp, rfl⟩ | ⟨n, hn, ⟨-, rfl⟩ | ⟨container, -, rfl⟩⟩
  · exact isAddress_elementPath hwell hsegments howner (List.mem_of_find?_eq_some hp)
  · have hmem : n ∈ t.navigations := List.mem_of_find?_eq_some hn
    exact ⟨hwell.targets n hmem, hbelow hn, .inr (hwell.owned n hmem)⟩
  · exact hbelow hn

end EntityType

namespace Scope

/-- What a chain of members of the parameter is planned as.  No other expression has a target. -/
inductive Resolves (s : Scope) : Expression → Target → Prop
  | parameter : Resolves s (.parameter s.parameter) (.entity [] s.entity false)
  | member {e : Expression} {path : List String} {owner : EntityType} {nullable : Bool}
      {name : String} {target : Target} (h : Resolves s e (.entity path owner nullable))
      (htarget : owner.target path name = .ok target) : Resolves s (.member e name) target

theorem resolves_of_resolve {s : Scope} : (e : Expression) → {target : Target} →
    s.resolve e = .ok (some target) → s.Resolves e target
  | .parameter name, target, h => by
    rw [resolve] at h
    split at h
    · next hname =>
      cases h
      rw [hname]
      exact .parameter
    · cases h
  | .member e name, target, h => by
    rw [resolve] at h
    obtain ⟨found, hfound, h⟩ := Outcome.bind_eq_ok.1 h
    split at h
    · obtain ⟨_, htarget, hsome⟩ := Outcome.map_eq_ok.1 h
      cases hsome
      exact .member (resolves_of_resolve e hfound) htarget
    · cases h
    · cases h
  | .index e position, target, h => by
    rw [resolve] at h
    obtain ⟨found, -, h⟩ := Outcome.bind_eq_ok.1 h
    cases found <;> cases h
  | .entitySet _, _, h | .queryParameter _, _, h | .constant _, _, h | .binary _ _ _, _, h
  | .not _, _, h | .call _ _, _, h | .lambda _ _, _, h | .record _ _, _, h | .array _, _, h => by
    cases h

theorem Resolves.isSound {s : Scope} (hwell : s.entity.WellFormed) {e : Expression}
    {target : Target} (h : s.Resolves e target) : target.IsSound := by
  induction h with
  | parameter => exact ⟨hwell, by simp, .inl rfl⟩
  | member _ htarget ih =>
    obtain ⟨howner, hsegments, hroot⟩ := ih
    exact EntityType.target_sound howner hsegments hroot htarget

end Scope

end DocMapping
