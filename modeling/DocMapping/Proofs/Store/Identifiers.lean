import DocMapping.Proofs.Bson.Equality
import DocMapping.Proofs.Bson.Paths
import DocMapping.Proofs.Store.Keyed
import DocMapping.Proofs.Store.Replay

/-!
# Identifiers of Stored Documents

In a collection every document has an identifier, and no two have equal ones.  Commands keep this:
a document is only stored under a new identifier, and an update may assign an identifier only what it
equals.  But a path that leads into an identifier is not looked at, and so an identifier that is a
document can be changed, and even made equal to that of another document.
-/

namespace DocMapping

open Document (IdsDiffer)

/-! ## Collections -/

/-- Every document has an identifier, in which no name stands twice, and no two of them have equal
ones. -/
structure Identifiable (documents : List Document) : Prop where
  present : ∀ document ∈ documents, ∃ id, document.get? idElement = some id ∧ id.NamesApart
  apart : documents.Pairwise IdsDiffer

/-- The identifiers of two documents are the same, or they are equal. -/
def Document.SameId (a b : Document) : Prop :=
  b.get? idElement = a.get? idElement ∨
    ∃ id other, a.get? idElement = some id ∧ b.get? idElement = some other ∧ id.eq other = true

/-- At most one of the documents is another one, and it has the identifier of the one before. -/
structure ChangesOne (before after : List Document) : Prop where
  sameIds : List.Forall₂ Document.SameId before after
  others : ∃ index, ∀ position : Nat, position ≠ index → after[position]? = before[position]?

/-! ## Paths into identifiers -/

/-- The path leads into the identifier, past the identifier as a whole. -/
def EntersId (path : String) : Prop :=
  path ≠ idElement ∧ [idElement] <+: Text.segments path

/-- No path leads into the value. -/
def Bson.isClosed : Bson → Bool
  | document _ => false
  | null => false
  | _ => true

theorem Bson.isClosed_of_eq {a b : Bson} (h : a.eq b = true) (ha : a.isClosed = true) :
    b.isClosed = true := by
  cases b with
  | document elements => cases a <;> simp_all [eq, isClosed]
  | null => cases a <;> simp_all [eq, isClosed]
  | _ => rfl

/-- The document has an identifier that no path leads into. -/
def Document.HasClosedId (document : Document) : Prop :=
  ∃ id, document.get? idElement = some id ∧ id.isClosed = true

theorem Document.SameId.hasClosedId {a b : Document} (h : a.SameId b) (ha : a.HasClosedId) :
    b.HasClosedId := by
  obtain ⟨id, hid, hclosed⟩ := ha
  rcases h with hsame | ⟨found, other, hfound, hother, hequal⟩
  · exact ⟨id, hsame.trans hid, hclosed⟩
  · cases hid.symm.trans hfound
    exact ⟨other, hother, Bson.isClosed_of_eq hequal hclosed⟩

/-! ## Assignments -/

section

variable {document changed : Document} {value : Bson} {path : String}

theorem Document.get?_assign_of_not_prefix (hpath : ¬[idElement] <+: Text.segments path)
    (h : document.assign value (Text.segments path) = .ok changed) :
    changed.get? idElement = document.get? idElement := by
  have hne := Text.segments_ne_nil path
  have habove : ¬Text.segments path <+: [idElement] := by
    intro hprefix
    rcases List.prefix_cons_iff.1 hprefix with hnil | ⟨rest, hrest, hshort⟩
    · exact hne hnil
    · rw [List.prefix_nil.1 hshort] at hrest
      exact hpath (hrest ▸ List.prefix_refl _)
  exact Document.lookup_assign_of_apart h ⟨habove, hpath⟩

/-- Nothing is assigned inside of an identifier that is closed. -/
theorem Document.not_assign_of_hasClosedId (hid : document.HasClosedId) (hpath : EntersId path) :
    document.assign value (Text.segments path) ≠ .ok changed := by
  intro h
  obtain ⟨hne, rest, hrest⟩ := hpath
  have hinside : rest ≠ [] := by
    rintro rfl
    exact hne (Text.eq_of_segments hrest.symm)
  obtain ⟨id, hget, hclosed⟩ := hid
  rw [← hrest] at h
  obtain ⟨nested, inner, hentered, -, -⟩ := Document.assign_cons_ok hinside h
  unfold Document.entered at hentered
  rw [hget] at hentered
  cases id <;> simp_all [Bson.isClosed]

end

namespace WriteCommand

variable {document changed : Document} {changes : Document}

/-- An update leaves an identifier as it is, or puts an equal one in its place. -/
theorem assignAll_id (hpaths : ∀ a ∈ changes, EntersId a.1 → document.HasClosedId)
    (h : assignAll document changes = .ok changed) :
    changed.get? idElement = document.get? idElement ∨
      ∃ id value, document.get? idElement = some id ∧ changed.get? idElement = some value ∧
        id.eq value = true ∧ (idElement, value) ∈ changes := by
  induction changes generalizing document with
  | nil =>
    cases h
    exact .inl rfl
  | cons a rest ih =>
    obtain ⟨path, value⟩ := a
    rw [List.forall_mem_cons] at hpaths
    rw [assignAll] at h
    split at h
    · cases h
    next hallowed =>
    split at h
    · next middle hmiddle =>
      have hfirst : middle.get? idElement = document.get? idElement ∨
          ∃ id, document.get? idElement = some id ∧ middle.get? idElement = some value ∧
            id.eq value = true ∧ path = idElement := by
        by_cases hpath : path = idElement
        · subst hpath
          simp only [decide_true, Bool.true_and, Bool.not_eq_true, Bool.not_eq_false',
            Option.any_eq_true] at hallowed
          obtain ⟨id, hid, hequal⟩ := hallowed
          have hone : Text.segments idElement = [idElement] :=
            Text.segments_of_isSegment EntityType.isSegment_idElement
          rw [hone] at hmiddle
          cases hmiddle
          exact .inr ⟨id, hid, by rw [Document.get?_insert, if_pos rfl], hequal, rfl⟩
        · refine .inl (Document.get?_assign_of_not_prefix (fun hprefix ↦ ?_) hmiddle)
          exact Document.not_assign_of_hasClosedId (hpaths.1 ⟨hpath, hprefix⟩) ⟨hpath, hprefix⟩
            hmiddle
      have hsame : document.SameId middle := by
        rcases hfirst with hkept | ⟨id, hid, hvalue, hequal, -⟩
        · exact .inl hkept
        · exact .inr ⟨id, value, hid, hvalue, hequal⟩
      have hrest := ih (fun b hb hentered ↦ hsame.hasClosedId (hpaths.2 b hb hentered)) h
      rcases hrest with hkept | ⟨id, last, hid, hlast, hequal, hmem⟩
      · rcases hfirst with hfirst | ⟨id, hid, hvalue, hequal, rfl⟩
        · exact .inl (hkept.trans hfirst)
        · exact .inr ⟨id, value, hid, hkept.trans hvalue, hequal, List.mem_cons_self⟩
      · rcases hfirst with hfirst | ⟨first, hfirst, hvalue, hstep, -⟩
        · exact .inr ⟨id, last, hfirst.symm.trans hid, hlast, hequal, List.mem_cons_of_mem _ hmem⟩
        · cases hid.symm.trans hvalue
          exact .inr ⟨first, last, hfirst, hlast, Bson.eq_trans hstep hequal,
            List.mem_cons_of_mem _ hmem⟩
    · cases h

end WriteCommand

/-! ## Commands -/

namespace WriteCommand

/-- No document in what the command brings holds a name twice. -/
def NamesApart : WriteCommand → Prop
  | insert document => (Bson.document document).NamesApart
  | update _ changes => ∀ a ∈ changes, a.2.NamesApart
  | delete _ => True

/-- No path of the command leads into an identifier. -/
def KeepsOut : WriteCommand → Prop
  | update _ changes => ∀ a ∈ changes, ¬EntersId a.1
  | _ => True

/-- No path of the command leads into an identifier of the documents that could be entered. -/
def KeepsOutOf (documents : List Document) : WriteCommand → Prop
  | update _ changes => ∀ a ∈ changes, EntersId a.1 → ∀ document ∈ documents, document.HasClosedId
  | _ => True

/-- The command brings no identifier that paths could lead into. -/
def BringsClosedId : WriteCommand → Prop
  | insert document => ∀ id, document.get? idElement = some id → id.isClosed = true
  | _ => True

theorem KeepsOut.keepsOutOf {command : WriteCommand} (h : command.KeepsOut)
    (documents : List Document) : command.KeepsOutOf documents := by
  cases command with
  | update filter changes => exact fun a ha hentered ↦ absurd hentered (h a ha)
  | insert | delete => trivial

theorem keepsOutOf_of_closed {documents : List Document}
    (h : ∀ document ∈ documents, document.HasClosedId) (command : WriteCommand) :
    command.KeepsOutOf documents := by
  cases command with
  | update filter changes => exact fun _ _ _ ↦ h
  | insert | delete => trivial

end WriteCommand

/-- An update that succeeds has found no document, or it has changed one that its filter selects. -/
theorem WriteCommand.update_ok {filter : Filter Bson} {changes : Document} {fresh : ObjectId}
    {collection : String} {documents after : List Document} {matched : Nat}
    (h : (update filter changes).apply fresh collection documents = .ok (after, matched)) :
    after = documents ∨ ∃ index document changed, documents[index]? = some document ∧
      assignAll document changes = .ok changed ∧ after = documents.set index changed := by
  simp only [apply] at h
  split at h
  · cases h
    exact .inl rfl
  · next index hindex =>
    obtain ⟨hlt, -⟩ := List.findIdx?_eq_some_iff_getElem.1 hindex
    obtain ⟨changed, hchanged, hafter⟩ := Outcome.map_eq_ok.1 h
    cases hafter
    rw [List.getD_eq_getElem?_getD, List.getElem?_eq_getElem hlt, Option.getD_some] at hchanged
    exact .inr ⟨index, documents[index], changed, List.getElem?_eq_getElem hlt, hchanged, rfl⟩

theorem ChangesOne.refl (documents : List Document) : ChangesOne documents documents :=
  ⟨List.forall₂_same.2 fun _ _ ↦ .inl rfl, 0, fun _ _ ↦ rfl⟩

theorem ChangesOne.set {documents : List Document} {index : Nat} {document changed : Document}
    (hindex : documents[index]? = some document) (h : document.SameId changed) :
    ChangesOne documents (documents.set index changed) := by
  refine ⟨List.forall₂_iff_get.2 ⟨(List.length_set ..).symm, fun position hleft hright ↦ ?_⟩, index,
    fun position hne ↦ List.getElem?_set_ne hne.symm⟩
  rw [List.get_eq_getElem, List.get_eq_getElem, List.getElem_set]
  split
  · next heq =>
    subst heq
    rw [List.getElem?_eq_getElem hleft, Option.some.injEq] at hindex
    rwa [hindex]
  · exact .inl rfl

/-- An element of a list may be exchanged for one that is related to the others in the same way. -/
theorem pairwise_set {α : Type} {r : α → α → Prop} {l : List α} (h : l.Pairwise r) {index : Nat}
    {a b : α} (hindex : l[index]? = some a) (hbefore : ∀ c ∈ l, r c a → r c b)
    (hbehind : ∀ c ∈ l, r a c → r b c) : (l.set index b).Pairwise r := by
  induction l generalizing index with
  | nil => exact .nil
  | cons first rest ih =>
    obtain ⟨hfirst, hrest⟩ := List.pairwise_cons.1 h
    rw [List.forall_mem_cons] at hbefore hbehind
    cases index with
    | zero =>
      cases hindex
      exact List.pairwise_cons.2 ⟨fun c hc ↦ hbehind.2 c hc (hfirst c hc), hrest⟩
    | succ index =>
      have ha : a ∈ rest := List.mem_of_getElem? hindex
      refine List.pairwise_cons.2 ⟨fun c hc ↦ ?_, ih hrest hindex hbefore.2 hbehind.2⟩
      rcases List.mem_or_eq_of_mem_set hc with hold | rfl
      · exact hfirst c hold
      · exact hbefore.1 (hfirst a ha)

namespace Identifiable

variable {documents after : List Document} {document : Document} {command : WriteCommand}
  {fresh : ObjectId} {collection : String} {matched : Nat}

theorem insert (h : Identifiable documents) (hnames : (Bson.document document).NamesApart)
    (happly : (WriteCommand.insert document).apply fresh collection documents =
      .ok (after, matched)) : Identifiable after := by
  refine ⟨?_, WriteCommand.idsDiffer_insert h.apart happly⟩
  simp only [WriteCommand.apply] at happly
  split at happly
  · cases happly
  · cases happly
    intro other hother
    rcases List.mem_append.1 hother with hold | hnew
    · exact h.present other hold
    · rw [List.mem_singleton.1 hnew]
      refine ⟨_, WriteCommand.get?_identified fresh document, ?_⟩
      unfold WriteCommand.identified
      cases hid : document.get? idElement with
      | some id => exact Bson.elementsApart_iff.1 hnames.2 _ (Association.mem_of_lookup hid)
      | none => trivial

theorem delete {filter : Filter Bson} (h : Identifiable documents)
    (happly : (WriteCommand.delete filter).apply fresh collection documents =
      .ok (after, matched)) : Identifiable after := by
  simp only [WriteCommand.apply] at happly
  split at happly <;> cases happly
  · exact h
  · next index _ =>
    have hkept : (documents.eraseIdx index).Sublist documents := List.eraseIdx_sublist ..
    exact ⟨fun other hother ↦ h.present other (hkept.subset hother), h.apart.sublist hkept⟩

/-- An update does the same to the identifiers as assigning an equal one to one document. -/
theorem update {filter : Filter Bson} {changes : Document} (h : Identifiable documents)
    (hnames : ∀ a ∈ changes, a.2.NamesApart)
    (hpaths : (WriteCommand.update filter changes).KeepsOutOf documents)
    (happly : (WriteCommand.update filter changes).apply fresh collection documents =
      .ok (after, matched)) : Identifiable after ∧ ChangesOne documents after := by
  rcases WriteCommand.update_ok happly with rfl | ⟨index, document, changed, hindex, hassign, rfl⟩
  · exact ⟨h, .refl _⟩
  have hdocument : document ∈ documents := List.mem_of_getElem? hindex
  obtain ⟨id, hid, hidNames⟩ := h.present document hdocument
  obtain ⟨value, hvalue, hvalueNames, hsame⟩ : ∃ value, changed.get? idElement = some value ∧
      value.NamesApart ∧ (value = id ∨ id.eq value = true) := by
    rcases WriteCommand.assignAll_id (fun a ha hentered ↦ hpaths a ha hentered document hdocument)
      hassign with hkept | ⟨found, value, hfound, hvalue, hequal, hmem⟩
    · exact ⟨id, hkept.trans hid, hidNames, .inl rfl⟩
    · cases hid.symm.trans hfound
      exact ⟨value, hvalue, hnames _ hmem, .inr hequal⟩
  refine ⟨⟨fun other hother ↦ ?_, pairwise_set h.apart hindex ?_ ?_⟩, .set hindex ?_⟩
  · rcases List.mem_or_eq_of_mem_set hother with hold | rfl
    · exact h.present other hold
    · exact ⟨value, hvalue, hvalueNames⟩
  · intro other _ hdiffer key found hkey hfound
    cases hvalue.symm.trans hfound
    have hold := hdiffer key id hkey hid
    rcases hsame with rfl | hequal
    · exact hold
    · -- An identifier that equals the new one would have equalled the old one as well.
      refine Bool.eq_false_iff.2 fun hnew ↦ Bool.eq_false_iff.1 hold ?_
      exact Bson.eq_trans hnew (Bson.eq_symm hidNames hvalueNames hequal)
  · intro other _ hdiffer found key hfound hkey
    cases hvalue.symm.trans hfound
    have hold := hdiffer id key hid hkey
    rcases hsame with rfl | hequal
    · exact hold
    · refine Bool.eq_false_iff.2 fun hnew ↦ Bool.eq_false_iff.1 hold ?_
      exact Bson.eq_trans hequal hnew
  · rcases hsame with rfl | hequal
    · exact .inl (hvalue.trans hid.symm)
    · exact .inr ⟨id, value, hid, hvalue, hequal⟩

/-- A command that succeeds leaves documents that can be told apart. -/
theorem apply (h : Identifiable documents) (hnames : command.NamesApart)
    (hpaths : command.KeepsOutOf documents)
    (happly : command.apply fresh collection documents = .ok (after, matched)) :
    Identifiable after := by
  cases command with
  | insert document => exact h.insert hnames happly
  | update filter changes => exact (h.update hnames hpaths happly).1
  | delete filter => exact h.delete happly

end Identifiable

/-- Identifiers that no path leads into stay so. -/
theorem WriteCommand.closed_apply {documents after : List Document} {command : WriteCommand}
    {fresh : ObjectId} {collection : String} {matched : Nat}
    (h : ∀ document ∈ documents, document.HasClosedId) (hbrings : command.BringsClosedId)
    (happly : command.apply fresh collection documents = .ok (after, matched)) :
    ∀ document ∈ after, document.HasClosedId := by
  intro other hother
  cases command with
  | insert document =>
    simp only [apply] at happly
    split at happly <;> cases happly
    rcases List.mem_append.1 hother with hold | hnew
    · exact h other hold
    · rw [List.mem_singleton.1 hnew]
      refine ⟨_, get?_identified fresh document, ?_⟩
      unfold identified
      cases hid : document.get? idElement with
      | some id => exact hbrings id hid
      | none => rfl
  | update filter changes =>
    rcases update_ok happly with rfl | ⟨index, document, changed, hindex, hassign, rfl⟩
    · exact h other hother
    · rcases List.mem_or_eq_of_mem_set hother with hold | rfl
      · exact h other hold
      · have hdocument := h document (List.mem_of_getElem? hindex)
        refine Document.SameId.hasClosedId ?_ hdocument
        rcases assignAll_id (fun _ _ _ ↦ hdocument) hassign with
          hkept | ⟨id, value, hid, hvalue, hequal, -⟩
        · exact .inl hkept
        · exact .inr ⟨id, value, hid, hvalue, hequal⟩
  | delete filter =>
    simp only [apply] at happly
    split at happly <;> cases happly
    · exact h other hother
    · exact h other (List.eraseIdx_subset hother)

/-! ## Stores -/

namespace Store

/-- In no collection a command that fails changes anything; one that succeeds leaves documents that
can be told apart; an update that succeeds changes one document of its collection at most, and no
identifier. -/
structure KeepsIds (s : Store) (collection : String) (command : WriteCommand) : Prop where
  failed : ∀ fault, (s.execute collection command).2 = .error fault →
    (s.execute collection command).1.documents = s.documents
  succeeded : ∀ matched, (s.execute collection command).2 = .ok matched →
    ∀ name, Identifiable ((s.execute collection command).1.documents name)
  updated : ∀ filter changes matched, command = .update filter changes →
    (s.execute collection command).2 = .ok matched →
    (∀ other ≠ collection, (s.execute collection command).1.documents other = s.documents other) ∧
      ChangesOne (s.documents collection) ((s.execute collection command).1.documents collection)

variable {s : Store} {collection : String} {command : WriteCommand}

theorem execute_keepsIds (h : ∀ name, Identifiable (s.documents name))
    (hnames : command.NamesApart) (hpaths : command.KeepsOutOf (s.documents collection)) :
    s.KeepsIds collection command := by
  have hdocuments := s.documents_execute collection command
  have houtcome := s.execute_outcome collection command
  unfold WriteCommand.perform at hdocuments houtcome
  cases happly : command.apply (s.ids s.nextId) collection (s.documents collection) with
  | error fault =>
    rw [happly] at hdocuments houtcome
    refine ⟨fun _ _ ↦ hdocuments.trans (Function.update_eq_self _ _), fun matched hok ↦ ?_,
      fun _ _ matched _ hok ↦ ?_⟩ <;>
    · rw [houtcome] at hok
      cases hok
  | ok result =>
    obtain ⟨after, matched⟩ := result
    rw [happly] at hdocuments houtcome
    refine ⟨fun fault hfault ↦ ?_, fun _ _ name ↦ ?_, fun filter changes _ hcommand _ ↦ ?_⟩
    · rw [houtcome] at hfault
      cases hfault
    · rw [hdocuments, Function.update_apply]
      split
      · exact (h collection).apply hnames hpaths happly
      · exact h name
    · subst hcommand
      rw [hdocuments]
      refine ⟨fun other hother ↦ Function.update_of_ne hother _ _, ?_⟩
      rw [Function.update_self]
      exact ((h collection).update hnames hpaths happly).2

theorem KeepsIds.identifiable (h : s.KeepsIds collection command)
    (hs : ∀ name, Identifiable (s.documents name)) (name : String) :
    Identifiable ((s.execute collection command).1.documents name) := by
  cases houtcome : (s.execute collection command).2 with
  | ok matched => exact h.succeeded matched houtcome name
  | error fault =>
    rw [h.failed fault houtcome]
    exact hs name

theorem closed_execute (h : ∀ name, ∀ document ∈ s.documents name, document.HasClosedId)
    (hbrings : command.BringsClosedId) (name : String) :
    ∀ document ∈ (s.execute collection command).1.documents name, document.HasClosedId := by
  have hdocuments := s.documents_execute collection command
  unfold WriteCommand.perform at hdocuments
  cases happly : command.apply (s.ids s.nextId) collection (s.documents collection) with
  | error fault =>
    rw [happly] at hdocuments
    rw [hdocuments, Function.update_eq_self]
    exact h name
  | ok result =>
    rw [happly] at hdocuments
    rw [hdocuments, Function.update_apply]
    split
    · exact WriteCommand.closed_apply (h collection) hbrings happly
    · exact h name

/-- No path of the commands leads into an identifier, or else no identifier can be entered. -/
def KeepsOut (s : Store) (commands : List (String × WriteCommand)) : Prop :=
  (∀ c ∈ commands, c.2.KeepsOut) ∨
    (∀ name, ∀ document ∈ s.documents name, document.HasClosedId) ∧
      ∀ c ∈ commands, c.2.BringsClosedId

theorem KeepsOut.execute {commands : List (String × WriteCommand)}
    (h : s.KeepsOut ((collection, command) :: commands)) :
    command.KeepsOutOf (s.documents collection) ∧
      (s.execute collection command).1.KeepsOut commands := by
  rcases h with hpaths | ⟨hclosed, hbrings⟩
  · obtain ⟨hfirst, hrest⟩ := List.forall_mem_cons.1 hpaths
    exact ⟨hfirst.keepsOutOf _, .inl hrest⟩
  · obtain ⟨hfirst, hrest⟩ := List.forall_mem_cons.1 hbrings
    exact ⟨WriteCommand.keepsOutOf_of_closed (hclosed collection) command,
      .inr ⟨closed_execute hclosed hfirst, hrest⟩⟩

/-- Documents can be told apart after any commands if they could be before, and every one of the
commands keeps the identifiers. -/
theorem replay_identifiable {commands : List (String × WriteCommand)}
    (hs : ∀ name, Identifiable (s.documents name)) (hnames : ∀ c ∈ commands, c.2.NamesApart)
    (hpaths : s.KeepsOut commands) :
    (∀ name, Identifiable ((s.replay commands).1.documents name)) ∧
      ∀ front collection command back, commands = front ++ (collection, command) :: back →
        (s.replay front).1.KeepsIds collection command := by
  induction commands generalizing s with
  | nil => exact ⟨hs, fun front _ _ _ h ↦ absurd h (by simp)⟩
  | cons c rest ih =>
    obtain ⟨collection, command⟩ := c
    obtain ⟨hfirst, hrest⟩ := List.forall_mem_cons.1 hnames
    obtain ⟨hentered, hpaths⟩ := hpaths.execute
    have hstep := execute_keepsIds hs hfirst hentered
    obtain ⟨hlast, hsteps⟩ := ih (hstep.identifiable hs) hrest hpaths
    refine ⟨hlast, fun front other next back hsplit ↦ ?_⟩
    cases front with
    | nil =>
      cases hsplit
      exact hstep
    | cons first front =>
      cases hsplit
      exact hsteps front other next back rfl

/-! ## Keys of two parts -/

/-- The document of a moon, which is known by its planet and its number. -/
def moon (planet number name : String) : Document :=
  [(idElement, .document [("planet", .string planet), ("number", .string number)]),
    ("name", .string name)]

/-- Two moons are stored, the second one once more under its key with the parts exchanged, which
fails; the first one gets an orbit and is given its own key. -/
def sightings : List (String × WriteCommand) :=
  [("Moon", .insert (moon "Mars" "1" "Phobos")), ("Moon", .insert (moon "Mars" "2" "Deimos")),
    ("Moon", .insert [(idElement,
      .document [("number", .string "2"), ("planet", .string "Mars")])]),
    ("Moon", .update (Filter.matching [("name", .string "Phobos")])
      [("orbit.hours", .string "8"),
        (idElement, .document [("number", .string "1"), ("planet", .string "Mars")])])]

theorem replay_identifiable_sightings :
    let s := Store.empty 0 true fun _ ↦ ⟨0⟩
    (∀ name, Identifiable (s.documents name)) ∧ (∀ c ∈ sightings, c.2.NamesApart) ∧
      s.KeepsOut sightings ∧ (∀ name, Identifiable ((s.replay sightings).1.documents name)) ∧
      (s.replay (sightings.take 3)).1.KeepsIds "Moon" (.update
        (Filter.matching [("name", .string "Phobos")])
        [("orbit.hours", .string "8"),
          (idElement, .document [("number", .string "1"), ("planet", .string "Mars")])]) ∧
      (s.replay sightings).2.map Except.isOk = [true, true, false, true] := by
  intro s
  have hempty : ∀ name, Identifiable (s.documents name) := fun _ ↦ ⟨by simp [s, documents,
    Store.empty, Collections.get, Collection.empty], .nil⟩
  have hnames : ∀ c ∈ sightings, c.2.NamesApart := by
    simp [sightings, moon, WriteCommand.NamesApart, Bson.NamesApart, Bson.ElementsApart,
      Document.Distinct, Document.names, idElement, or_imp, forall_and]
  have hpaths : s.KeepsOut sightings := .inl (by
    have horbit : ¬EntersId "orbit.hours" := fun h ↦ absurd h.2 (by decide)
    have hid : ¬EntersId idElement := fun h ↦ h.1 rfl
    simpa [sightings, WriteCommand.KeepsOut, or_imp, forall_and] using ⟨horbit, hid⟩)
  obtain ⟨hlast, hsteps⟩ := replay_identifiable hempty hnames hpaths
  exact ⟨hempty, hnames, hpaths, hlast, hsteps (sightings.take 3) "Moon" _ [] rfl, by decide⟩

end Store

/-- A path that leads into an identifier changes it, here to the one that another document has. -/
theorem Identifiable.update_enters_id :
    let renumbering := WriteCommand.update (Filter.matching [("name", .string "Phobos")])
      [("_id.number", .string "2")]
    let moons := [Store.moon "Mars" "1" "Phobos", Store.moon "Mars" "2" "Deimos"]
    Identifiable moons ∧ renumbering.NamesApart ∧
      renumbering.apply ⟨0⟩ "Moon" moons =
        .ok ([Store.moon "Mars" "2" "Phobos", Store.moon "Mars" "2" "Deimos"], 1) ∧
      ¬Document.SameId (Store.moon "Mars" "1" "Phobos") (Store.moon "Mars" "2" "Phobos") ∧
      ¬Identifiable [Store.moon "Mars" "2" "Phobos", Store.moon "Mars" "2" "Deimos"] := by
  intro renumbering moons
  refine ⟨⟨?_, ?_⟩, ?_, rfl, ?_, fun h ↦ ?_⟩
  · simp [moons, Store.moon, Document.get?, Bson.NamesApart, Bson.ElementsApart,
      Document.Distinct, Document.names, idElement]
  · refine List.pairwise_pair.2 fun id other hid hother ↦ ?_
    cases hid
    cases hother
    decide
  · simp [renumbering, WriteCommand.NamesApart, Bson.NamesApart]
  · rintro (hsame | ⟨id, other, hid, hother, hequal⟩)
    · exact absurd (Option.some.inj hsame) (by simp)
    · cases hid
      cases hother
      exact absurd hequal (by decide)
  · exact absurd (List.pairwise_pair.1 h.apart _ _ rfl rfl) (by decide)

end DocMapping
