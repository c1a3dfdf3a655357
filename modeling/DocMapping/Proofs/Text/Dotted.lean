import DocMapping.Text.Dotted
import DocMapping.Text.Search

/-!
# Segments of Dotted Paths

Splitting a path at its points and joining segments with points are inverse to each other, as long
as no segment holds a point.  Paths are mostly built from the left, by putting texts in front of
others; how these split is all that is needed to know the segments of what is built.
-/

namespace DocMapping.Text

/-- A text without points is a single segment. -/
def IsSegment (text : String) : Prop := '.' ∉ text.toList

theorem splitDots_ne_nil (chars : List Char) : splitDots chars ≠ [] := by
  cases chars with
  | nil => simp [splitDots]
  | cons c rest =>
    unfold splitDots
    split
    · simp
    · split <;> simp

theorem splitDots_of_notMem {chars : List Char} (h : '.' ∉ chars) : splitDots chars = [chars] := by
  induction chars with
  | nil => rfl
  | cons c rest ih =>
    rw [List.mem_cons, not_or] at h
    rw [splitDots, if_neg (Ne.symm h.1), ih h.2]

/-- Points separate the segments of what stands in front of them from those of what follows. -/
theorem splitDots_concat (chars rest : List Char) :
    splitDots (chars ++ '.' :: rest) = splitDots chars ++ splitDots rest := by
  induction chars with
  | nil => simp [splitDots]
  | cons c tail ih =>
    rw [List.cons_append, splitDots, splitDots, ih]
    split
    · rfl
    · cases hsplit : splitDots tail with
      | nil => exact absurd hsplit (splitDots_ne_nil tail)
      | cons segment segments => rfl

theorem splitDots_append {chars : List Char} (h : '.' ∉ chars) (rest : List Char) :
    splitDots (chars ++ '.' :: rest) = chars :: splitDots rest := by
  rw [splitDots_concat, splitDots_of_notMem h, List.singleton_append]

theorem joinDots_cons (part : List Char) {rest : List (List Char)} (h : rest ≠ []) :
    joinDots (part :: rest) = part ++ '.' :: joinDots rest := by
  cases rest with
  | nil => exact absurd rfl h
  | cons next rest => rfl

theorem splitDots_joinDots {parts : List (List Char)} (hne : parts ≠ [])
    (h : ∀ part ∈ parts, '.' ∉ part) : splitDots (joinDots parts) = parts := by
  induction parts with
  | nil => exact absurd rfl hne
  | cons part rest ih =>
    obtain ⟨hpart, hrest⟩ := List.forall_mem_cons.1 h
    by_cases hend : rest = []
    · rw [hend]
      exact splitDots_of_notMem hpart
    · rw [joinDots_cons part hend, splitDots_append hpart, ih hend hrest]

theorem joinDots_append {front back : List (List Char)} (hfront : front ≠ []) (hback : back ≠ []) :
    joinDots (front ++ back) = joinDots front ++ '.' :: joinDots back := by
  induction front with
  | nil => exact absurd rfl hfront
  | cons part rest ih =>
    by_cases hrest : rest = []
    · rw [hrest]
      exact joinDots_cons part hback
    · rw [List.cons_append, joinDots_cons part (List.append_ne_nil_of_left_ne_nil hrest back),
        joinDots_cons part hrest, ih hrest, List.append_assoc, List.cons_append]

theorem joinDots_splitDots (chars : List Char) : joinDots (splitDots chars) = chars := by
  induction chars with
  | nil => rfl
  | cons c rest ih =>
    unfold splitDots
    split
    · next hpoint =>
      rw [joinDots_cons [] (splitDots_ne_nil rest), ih, hpoint, List.nil_append]
    · cases hsplit : splitDots rest with
      | nil => exact absurd hsplit (splitDots_ne_nil rest)
      | cons segment segments =>
        rw [hsplit] at ih
        cases segments with
        | nil => exact congrArg (c :: ·) ih
        | cons next others => exact congrArg (c :: ·) ih

/-! ## Texts -/

theorem segments_ne_nil (path : String) : segments path ≠ [] := by
  simp [segments, splitDots_ne_nil]

theorem segments_of_isSegment {text : String} (h : IsSegment text) : segments text = [text] := by
  simp [segments, splitDots_of_notMem h]

theorem segments_dotted {path : List String} (hne : path ≠ []) (h : ∀ part ∈ path, IsSegment part) :
    segments (dotted path) = path := by
  have hparts : ∀ part ∈ path.map String.toList, '.' ∉ part := by
    intro part hpart
    obtain ⟨text, htext, rfl⟩ := List.mem_map.1 hpart
    exact h text htext
  rw [segments, dotted, String.toList_ofList, splitDots_joinDots (by simpa using hne) hparts,
    List.map_map]
  simp [Function.comp_def]

theorem segments_append (front back : String) :
    segments (front ++ "." ++ back) = segments front ++ segments back := by
  have hpoint : (front ++ "." ++ back).toList = front.toList ++ '.' :: back.toList := by
    rw [String.toList_append, String.toList_append, List.append_assoc]
    rfl
  rw [segments, hpoint, splitDots_concat, List.map_append]
  rfl

/-- Every path is that of its segments. -/
theorem dotted_segments (path : String) : dotted (segments path) = path := by
  rw [dotted, segments, List.map_map]
  simp [Function.comp_def, joinDots_splitDots]

/-- A path of one segment is the segment. -/
theorem eq_of_segments {path segment : String} (h : segments path = [segment]) :
    path = segment := by
  rw [← dotted_segments path, h]
  exact String.ofList_toList

theorem dotted_append {front back : List String} (hfront : front ≠ []) (hback : back ≠ []) :
    dotted (front ++ back) = dotted front ++ "." ++ dotted back := by
  have hpoint : ".".toList = ['.'] := rfl
  rw [← String.toList_inj, dotted, dotted, dotted, List.map_append,
    joinDots_append (by simpa using hfront) (by simpa using hback)]
  simp [hpoint]

/-- The path is another one, or goes on behind it after a point. -/
def IsWithin (path above : String) : Prop := path = above ∨ ∃ rest, path = above ++ "." ++ rest

theorem isWithin_iff {path above : String} :
    IsWithin path above ↔ segments above <+: segments path := by
  constructor
  · rintro (rfl | ⟨rest, rfl⟩)
    · exact List.prefix_rfl
    · rw [segments_append]
      exact List.prefix_append _ _
  · rintro ⟨rest, hrest⟩
    have hpath : dotted (segments above ++ rest) = path := by
      rw [hrest, dotted_segments]
    by_cases hend : rest = []
    · rw [hend, List.append_nil, dotted_segments] at hpath
      exact .inl hpath.symm
    · rw [dotted_append (segments_ne_nil above) hend, dotted_segments] at hpath
      exact .inr ⟨dotted rest, hpath.symm⟩

theorem startsWith_iff (text part : String) :
    startsWith text part = true ↔ ∃ rest, text = part ++ rest := by
  unfold startsWith
  rw [List.isPrefixOf_iff_prefix]
  constructor
  · rintro ⟨rest, hrest⟩
    exact ⟨String.ofList rest, String.toList_inj.1 (by simp [hrest])⟩
  · rintro ⟨rest, rfl⟩
    exact ⟨rest.toList, by simp⟩

/-- The text in front adds segments to those of every text behind it. -/
def Leads (start : String) (owners : List String) : Prop :=
  ∀ text, segments (start ++ text) = owners ++ segments text

theorem leads_empty : Leads "" [] := by
  intro text
  simp

theorem Leads.concat {start element : String} {owners : List String} (h : Leads start owners)
    (helement : IsSegment element) : Leads (start ++ element ++ ".") (owners ++ [element]) := by
  intro text
  have htail : segments (element ++ ("." ++ text)) = element :: segments text := by
    have hpoint : ".".toList = ['.'] := rfl
    rw [segments, String.toList_append, String.toList_append, hpoint, List.singleton_append,
      splitDots_append helement]
    simp [segments]
  rw [String.append_assoc, String.append_assoc, h, htail]
  simp

theorem contains_point {text : String} : contains text "." = true ↔ '.' ∈ text.toList := by
  have hlist : ∀ chars : List Char, containsList ['.'] chars = true ↔ '.' ∈ chars := by
    intro chars
    induction chars with
    | nil => simp [containsList]
    | cons c rest ih => simp [containsList, ih]
  exact hlist text.toList

end DocMapping.Text
