import DocMapping.Proofs.Bson.Projection
import DocMapping.Proofs.Planning.Targets
import DocMapping.Plan
import Mathlib.Data.List.Sort
import Mathlib.Data.String.Basic

/-!
# The Paths that a Projection Asks for

A store is asked for the paths of all members that are read, but not for those below another one.
They are found in one scan of the paths in their order: since a parent comes before what is below
it, a path only has to be compared with those taken before it.  So whatever is read lies at or below
a path that is asked for, and a document that is reduced to these paths still has every element that
is read.
-/

namespace DocMapping

namespace Projection

/-! ### Paths in order -/

theorem isNested_iff {path parent : String} :
    isNested path parent = true ↔ ∃ rest, path = parent ++ "." ++ rest := by
  unfold isNested
  rw [Bool.and_eq_true, Text.startsWith_iff]
  constructor
  · rintro ⟨⟨rest, rfl⟩, hpoint⟩
    rw [String.toList_append, ← String.length_toList, List.drop_left, beq_iff_eq] at hpoint
    obtain ⟨more, hmore⟩ := List.head?_eq_some_iff.1 hpoint
    have hrest : rest = "." ++ String.ofList more := String.toList_inj.1 (by simp [hmore])
    exact ⟨String.ofList more, by rw [hrest, String.append_assoc]⟩
  · rintro ⟨rest, rfl⟩
    refine ⟨⟨"." ++ rest, String.append_assoc⟩, ?_⟩
    rw [String.append_assoc, String.toList_append, ← String.length_toList, List.drop_left,
      String.toList_append]
    rfl

theorem isWithin_iff {path above : String} :
    Text.IsWithin path above ↔ path = above ∨ isNested path above = true :=
  or_congr_right isNested_iff.symm

/-- A parent comes before what is below it. -/
theorem lt_of_isNested {path parent : String} (h : isNested path parent = true) :
    parent < path := by
  obtain ⟨rest, rfl⟩ := isNested_iff.1 h
  have hle : ¬parent ++ "." ++ rest < parent := by
    rw [String.lt_iff, String.append_assoc, String.toList_append]
    exact (List.prefix_append parent.toList _).le
  refine lt_of_le_of_ne (not_lt.1 hle) fun heq ↦ ?_
  -- What goes on behind a point is longer.
  have hlength := congrArg String.length heq
  have hpoint : ".".length = 1 := rfl
  rw [String.length_append, String.length_append] at hlength
  omega

theorem mem_dedup {paths : List String} {path : String} :
    path ∈ dedup paths ↔ path ∈ paths := by
  fun_induction dedup paths with
  | case1 second rest ih => rw [ih, List.mem_cons, List.mem_cons, List.mem_cons, or_self_left]
  | case2 first second rest hne ih => rw [List.mem_cons, ih, ← List.mem_cons]
  | case3 => rfl

/-- Equal paths of an ordered list stand side by side, so that none of them is left twice. -/
theorem pairwise_lt_dedup {paths : List String} (h : paths.Pairwise (· ≤ ·)) :
    (dedup paths).Pairwise (· < ·) := by
  fun_induction dedup paths with
  | case1 second rest ih => exact ih h.of_cons
  | case2 first second rest hne ih =>
    refine List.pairwise_cons.2 ⟨fun path hpath ↦ ?_, ih h.of_cons⟩
    have hlt : first < second := lt_of_le_of_ne (List.rel_of_pairwise_cons h List.mem_cons_self) hne
    rcases List.mem_cons.1 (mem_dedup.1 hpath) with rfl | hrest
    · exact hlt
    · exact lt_of_lt_of_le hlt (List.rel_of_pairwise_cons h.of_cons hrest)
  | case3 short hshort =>
    match short, hshort with
    | [], _ => exact .nil
    | [path], _ => exact List.pairwise_singleton _ _
    | first :: second :: rest, hshort => exact absurd rfl (hshort first second rest)

/-! ### The scan -/

/-- What is taken of the paths that were seen: paths of which none lies in another one, and in one
of which every path that was seen lies. -/
structure Kept (seen kept : List String) : Prop where
  sublist : kept.Sublist seen
  apart : ∀ path ∈ kept, ∀ above ∈ kept, Text.IsWithin path above → path = above
  covers : ∀ path ∈ seen, ∃ above ∈ kept, Text.IsWithin path above

namespace Kept

variable {seen kept rest : List String} {path : String}

theorem initial : Kept [] [] where
  sublist := .slnil
  apart := nofun
  covers := nofun

/-- A path below one that was taken lies in it. -/
theorem skip (h : Kept seen kept) (hnested : kept.any (isNested path) = true) :
    Kept (seen ++ [path]) kept where
  sublist := h.sublist.trans (List.sublist_append_left seen [path])
  apart := h.apart
  covers := by
    intro other hother
    rcases List.mem_append.1 hother with hseen | hnew
    · exact h.covers other hseen
    · obtain ⟨parent, hparent, hbelow⟩ := List.any_eq_true.1 hnested
      rw [List.mem_singleton.1 hnew]
      exact ⟨parent, hparent, isWithin_iff.2 (.inr hbelow)⟩

/-- A path that comes after all others is above none of them, so that it is apart from those that
were taken if it is not below them. -/
theorem take (h : Kept seen kept) (hlast : ∀ other ∈ seen, other < path)
    (hnested : kept.any (isNested path) = false) : Kept (seen ++ [path]) (kept ++ [path]) where
  sublist := h.sublist.append_right [path]
  apart := by
    have hbelow : ∀ above ∈ kept, Text.IsWithin path above → path = above :=
      fun above habove hwithin ↦
        (isWithin_iff.1 hwithin).resolve_right (List.any_eq_false.1 hnested above habove)
    have habove : ∀ inner ∈ kept, Text.IsWithin inner path → inner = path :=
      fun inner hinner hwithin ↦ (isWithin_iff.1 hwithin).resolve_right fun hbefore ↦
        lt_asymm (lt_of_isNested hbefore) (hlast inner (h.sublist.subset hinner))
    simp only [List.forall_mem_append, List.forall_mem_singleton, implies_true, and_true]
    exact ⟨fun inner hinner ↦ ⟨h.apart inner hinner, habove inner hinner⟩, hbelow⟩
  covers := by
    intro other hother
    rcases List.mem_append.1 hother with hseen | hnew
    · obtain ⟨above, habove, hwithin⟩ := h.covers other hseen
      exact ⟨above, List.mem_append_left [path] habove, hwithin⟩
    · exact ⟨other, List.mem_append_right kept hnew, .inl rfl⟩

theorem step (h : Kept seen kept) (hlast : ∀ other ∈ seen, other < path) :
    Kept (seen ++ [path]) (keep kept path) := by
  unfold keep
  split
  · next hnested => exact h.skip hnested
  · next hnested => exact h.take hlast (Bool.eq_false_of_not_eq_true hnested)

theorem run (h : Kept seen kept) (hordered : (seen ++ rest).Pairwise (· < ·)) :
    Kept (seen ++ rest) (rest.foldl keep kept) := by
  induction rest generalizing seen kept with
  | nil => rwa [List.append_nil]
  | cons path rest ih =>
    have hlast : ∀ other ∈ seen, other < path := fun other hother ↦
      (List.pairwise_append.1 hordered).2.2 other hother path List.mem_cons_self
    rw [List.append_cons] at hordered ⊢
    exact ih (h.step hlast) hordered

/-- Other paths may come between a parent and what is below it. -/
example : ["Orbit", "Orbit-Days", "Orbit.Days"].foldl keep [] = ["Orbit", "Orbit-Days"] := by decide

end Kept

/-- The paths of the bindings, each of them once and in order. -/
def readPaths (projection : Projection) : List String :=
  dedup (((projection.filterMap fun entry ↦ entry.2.path?).map Text.dotted).mergeSort
    fun a b ↦ decide (a ≤ b))

theorem mem_readPaths {projection : Projection} {path : String} : path ∈ projection.readPaths ↔
    ∃ entry ∈ projection, ∃ names, entry.2.path? = some names ∧ Text.dotted names = path := by
  unfold readPaths
  rw [mem_dedup, List.mem_mergeSort, List.mem_map]
  constructor
  · rintro ⟨names, hnames, hpath⟩
    obtain ⟨entry, hentry, hread⟩ := List.mem_filterMap.1 hnames
    exact ⟨entry, hentry, names, hread, hpath⟩
  · rintro ⟨entry, hentry, names, hread, hpath⟩
    exact ⟨names, List.mem_filterMap.2 ⟨entry, hentry, hread⟩, hpath⟩

theorem pairwise_readPaths (projection : Projection) : projection.readPaths.Pairwise (· < ·) :=
  pairwise_lt_dedup (List.pairwise_mergeSort' (· ≤ ·) _)

theorem kept_readPaths (projection : Projection) :
    Kept projection.readPaths (projection.readPaths.foldl keep []) :=
  Kept.initial.run projection.pairwise_readPaths

/-! ### What a store is asked for -/

/-- The whole document is needed: it is bound at some place, or nothing is bound. -/
def ReadsWhole (projection : Projection) : Prop :=
  projection = [] ∨ ∃ entry ∈ projection, entry.2.path? = some []

/-- A store is asked for the paths that the scan takes, unless the whole document is read. -/
theorem paths?_eq (projection : Projection) : projection.paths? =
    if projection.isEmpty || (projection.filterMap fun entry ↦ entry.2.path?).any (·.isEmpty)
    then none else some (projection.readPaths.foldl keep []) := rfl

theorem paths?_eq_none (projection : Projection) :
    projection.paths? = none ↔ projection.ReadsWhole := by
  have hwhole : (projection.isEmpty ||
      (projection.filterMap fun entry ↦ entry.2.path?).any (·.isEmpty)) = true ↔
      projection.ReadsWhole := by
    rw [Bool.or_eq_true, List.isEmpty_iff, List.any_eq_true]
    refine or_congr_right ?_
    constructor
    · rintro ⟨names, hnames, hempty⟩
      obtain ⟨entry, hentry, hread⟩ := List.mem_filterMap.1 hnames
      rw [List.isEmpty_iff.1 hempty] at hread
      exact ⟨entry, hentry, hread⟩
    · rintro ⟨entry, hentry, hread⟩
      exact ⟨[], List.mem_filterMap.2 ⟨entry, hentry, hread⟩, rfl⟩
  rw [paths?_eq, ← hwhole]
  split
  · next h => exact iff_of_true rfl h
  · next h => exact iff_of_false nofun h

/-- Paths that stand for all bindings: paths of bindings, none of which lies in another one, and in
one of which every binding lies. -/
structure IsCoveredBy (projection : Projection) (paths : List String) : Prop where
  distinct : paths.Nodup
  bound : ∀ path ∈ paths, ∃ entry ∈ projection, ∃ names,
    entry.2.path? = some names ∧ Text.dotted names = path
  apart : ∀ path ∈ paths, ∀ above ∈ paths, Text.IsWithin path above → path = above
  covers : ∀ entry ∈ projection, ∀ names, entry.2.path? = some names →
    ∃ above ∈ paths, Text.IsWithin (Text.dotted names) above

theorem isCoveredBy_readPaths (projection : Projection) :
    projection.IsCoveredBy (projection.readPaths.foldl keep []) where
  distinct := projection.kept_readPaths.sublist.nodup
    (projection.pairwise_readPaths.imp fun hlt ↦ hlt.ne)
  bound _ hpath := mem_readPaths.1 (projection.kept_readPaths.sublist.subset hpath)
  apart := projection.kept_readPaths.apart
  covers entry hentry names hnames :=
    projection.kept_readPaths.covers _ (mem_readPaths.2 ⟨entry, hentry, names, hnames, rfl⟩)

theorem isCoveredBy_paths? {projection : Projection} {paths : List String}
    (h : projection.paths? = some paths) : projection.IsCoveredBy paths := by
  rw [paths?_eq] at h
  split at h
  · cases h
  · cases h
    exact projection.isCoveredBy_readPaths

/-- What a projection asks for. -/
theorem paths?_eq_some {projection : Projection} {paths : List String}
    (h : projection.paths? = some paths) {place : Place} {target : Target}
    (hmem : (place, .stored target) ∈ projection) :
    target.path ≠ [] ∧ ∃ path ∈ paths, ∃ rest,
      Text.segments (Text.dotted target.path) = Text.segments path ++ rest := by
  refine ⟨fun hnil ↦ ?_, ?_⟩
  · have hwhole : projection.ReadsWhole := .inr ⟨_, hmem, congrArg some hnil⟩
    rw [projection.paths?_eq_none.2 hwhole] at h
    cases h
  · obtain ⟨path, hpath, hwithin⟩ := (isCoveredBy_paths? h).covers _ hmem target.path rfl
    obtain ⟨rest, hrest⟩ := Text.isWithin_iff.1 hwithin
    exact ⟨path, hpath, rest, hrest.symm⟩

/-- The document that a store answers with for a projection. -/
def reduce (projection : Projection) (document : Document) : Document :=
  match projection.paths? with
  | some paths => document.project paths
  | none => document

theorem reduce_isPart (projection : Projection) (document : Document) :
    (projection.reduce document).IsPart document := by
  unfold reduce
  cases projection.paths? with
  | some paths => exact document.project_isPart paths
  | none => exact fun _ _ h ↦ .inl h

/-- Every element that is read is still found in the reduced document. -/
theorem lookup_reduce {projection : Projection} (document : Document) {place : Place}
    {target : Target} (hmem : (place, .stored target) ∈ projection)
    (haddress : IsAddress target.path) :
    (projection.reduce document).lookup target.path = document.lookup target.path := by
  unfold reduce
  cases hpaths : projection.paths? with
  | none => rfl
  | some paths =>
    obtain ⟨hne, path, hpath, rest, hsegments⟩ := paths?_eq_some hpaths hmem
    rcases haddress with hparts | ⟨below, hid⟩
    · rw [Text.segments_dotted hne hparts] at hsegments
      rw [hsegments]
      exact document.lookup_project hpath rest
    · rw [hid]
      exact document.lookup_project_id paths below

end Projection

end DocMapping
