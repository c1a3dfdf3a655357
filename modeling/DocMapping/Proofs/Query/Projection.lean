import DocMapping.Proofs.Bson.Projection
import Mathlib.Data.List.Induction

/-!
# Projections Are Exact

The projection of a document to a list of paths has at each of them, and at the identifier, what the
document has there.  It has nothing at a path that neither leads to one of them nor through one.  The
paths may repeat and may lie below each other: each of them is assigned in its turn without a failure.
-/

namespace DocMapping.Document

variable {document projected : Document} {listed : String} {path : List String}

/-! ## Steps of a projection -/

theorem project_concat (document : Document) (paths : List String) (listed : String) :
    document.project (paths ++ [listed]) =
      document.projectPath (document.project paths) listed := by
  unfold project
  rw [List.foldl_append]
  rfl

/-- A value that is found is assigned to what has been projected so far. -/
theorem assign_projected (hpart : IsPart projected document) {value : Bson}
    (h : document.resolve listed = some value) :
    projected.assign value (Text.segments listed) =
      .ok (document.projectPath projected listed) := by
  obtain ⟨changed, hassign⟩ := hpart.exists_assign h
  unfold projectPath
  rw [h]
  dsimp only
  rw [hassign]
  rfl

/-! ## Beside the listed paths -/

/-- Before any path is listed there is the identifier only. -/
theorem lookup_project_nil (document : Document) (h : Apart [idElement] path) :
    (document.project []).lookup path = none := by
  cases path with
  | nil => rfl
  | cons name rest =>
    have hname : name ≠ idElement := fun heq ↦ apart_cons.1 h heq.symm |>.1 List.nil_prefix
    have hget : (document.project []).get? name = Document.get? [] name := by
      change Document.get? ((document.get? idElement).toList.map fun id ↦ (idElement, id)) name = _
      cases document.get? idElement with
      | none => rfl
      | some id => exact (get?_cons idElement name id []).trans (if_neg hname)
    rw [lookup_congr hget rest, lookup_empty]

theorem lookup_projectPath (h : Apart (Text.segments listed) path) :
    (document.projectPath projected listed).lookup path = projected.lookup path := by
  unfold projectPath
  cases document.resolve listed with
  | none => rfl
  | some value =>
    cases hassign : projected.assign value (Text.segments listed) with
    | ok changed =>
      dsimp only
      rw [hassign]
      exact lookup_assign_of_apart hassign h
    | error obstacle =>
      dsimp only
      rw [hassign]
      rfl

/-- Nothing is projected that is beside the identifier and all of the paths. -/
theorem lookup_project_of_apart (document : Document) {paths : List String}
    (hid : Apart [idElement] path) (h : ∀ listed ∈ paths, Apart (Text.segments listed) path) :
    (document.project paths).lookup path = none := by
  induction paths using List.reverseRecOn with
  | nil => exact document.lookup_project_nil hid
  | append_singleton front listed ih =>
    rw [List.forall_mem_append, List.forall_mem_singleton] at h
    rw [project_concat, lookup_projectPath h.2]
    exact ih h.1

/-! ## Projecting -/

theorem segments_idElement : Text.segments idElement = [idElement] := by decide

/-- A projection is exact.  At the identifier and at every listed path there is what the document has
there, a path beside all of these leads to nothing, and a value that is found at a path is assigned to
the projection to whichever paths come before it. -/
theorem project_exact (document : Document) (paths : List String) :
    (∀ path ∈ idElement :: paths, (document.project paths).resolve path = document.resolve path) ∧
    (∀ path : List String,
      (∀ listed ∈ idElement :: paths,
        ¬Text.segments listed <+: path ∧ ¬path <+: Text.segments listed) →
      (document.project paths).lookup path = none) ∧
    ∀ front path value, document.resolve path = some value →
      (document.project front).assign value (Text.segments path) =
        .ok (document.project (front ++ [path])) := by
  refine ⟨List.forall_mem_cons.2 ⟨?_, fun path hpath ↦ ?_⟩, fun path h ↦ ?_, ?_⟩
  · unfold resolve
    rw [segments_idElement]
    exact document.lookup_project_id paths []
  · have hsame := document.lookup_project hpath []
    rw [List.append_nil] at hsame
    exact hsame
  · obtain ⟨hid, hpaths⟩ := List.forall_mem_cons.1 h
    rw [segments_idElement] at hid
    exact document.lookup_project_of_apart hid hpaths
  · intro front path value hvalue
    rw [project_concat]
    exact assign_projected (document.project_isPart front) hvalue

/-! ### Orbits of planets -/

/-- A planet with its orbit. -/
def mars : Document :=
  [(idElement, .int32 4), ("name", .string "Mars"),
    ("orbit", .document [("days", .int32 687), ("axis", .null)])]

/-- One path lies below another, one is listed twice, and one leads to nothing. -/
def wanted : List String := ["orbit.days", "orbit", "orbit.days", "moons.name"]

theorem project_exact_mars :
    mars.resolve "orbit.days" = some (.int32 687) ∧
      (mars.project wanted).resolve "orbit.days" = some (.int32 687) ∧
      (mars.project wanted).resolve "moons.name" = mars.resolve "moons.name" ∧
      (mars.project wanted).lookup ["name"] = none ∧
      (mars.project ["orbit.days", "orbit"]).assign (.int32 687) (Text.segments "orbit.days") =
        .ok (mars.project ["orbit.days", "orbit", "orbit.days"]) := by
  obtain ⟨hfound, hbeside, hassigned⟩ := mars.project_exact wanted
  have hdays : mars.resolve "orbit.days" = some (.int32 687) := by
    have hsegments : Text.segments "orbit.days" = ["orbit", "days"] := by decide
    unfold resolve
    rw [hsegments]
    rfl
  refine ⟨hdays, (hfound "orbit.days" (by simp [wanted])).trans hdays,
    hfound "moons.name" (by simp [wanted]), hbeside ["name"] (by decide), ?_⟩
  exact hassigned ["orbit.days", "orbit"] "orbit.days" _ hdays

end DocMapping.Document
