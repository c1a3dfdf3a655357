import DocMapping.Proofs.Codec.PlainKey
import DocMapping.Proofs.Store.Contents

/-!
# Collections by Key

In a collection whose documents have plain keys, each a different one, a command for a key meets one
document at most.  What it does is then said up to the order of the documents: it puts a document in
front of the others, exchanges the one in front, or takes it away.
-/

namespace DocMapping

/-- Both documents have plain keys, and these differ. -/
def Document.KeysDiffer (a b : Document) : Prop :=
  ∃ key other, a.get? idElement = some key ∧ b.get? idElement = some other ∧ key.IsPlainKey ∧
    other.IsPlainKey ∧ key.eq other = false

theorem Document.KeysDiffer.symm {a b : Document} (h : a.KeysDiffer b) : b.KeysDiffer a := by
  obtain ⟨key, other, ha, hb, hkey, hother, hne⟩ := h
  exact ⟨other, key, hb, ha, hother, hkey, (hother.eq_comm hkey).trans hne⟩

/-- The documents have plain keys, each a different one. -/
structure Keyed (documents : List Document) : Prop where
  plain : ∀ document ∈ documents, ∃ key, document.get? idElement = some key ∧ key.IsPlainKey
  apart : documents.Pairwise Document.KeysDiffer

namespace Keyed

variable {documents rest : List Document} {document : Document}

theorem perm (h : Keyed documents) (hperm : documents.Perm rest) : Keyed rest :=
  ⟨fun document hdocument ↦ h.plain document (hperm.mem_iff.2 hdocument),
    (hperm.pairwise_iff Document.KeysDiffer.symm).1 h.apart⟩

theorem tail (h : Keyed (document :: rest)) : Keyed rest :=
  ⟨fun other hother ↦ h.plain other (List.mem_cons_of_mem document hother), h.apart.tail⟩

/-- A document may be exchanged for one with the same key. -/
theorem exchange (h : Keyed (document :: rest)) {changed : Document}
    (hid : changed.get? idElement = document.get? idElement) : Keyed (changed :: rest) := by
  obtain ⟨hfirst, hrest⟩ := List.pairwise_cons.1 h.apart
  refine ⟨List.forall_mem_cons.2 ⟨?_, h.tail.plain⟩,
    List.pairwise_cons.2 ⟨fun other hother ↦ ?_, hrest⟩⟩
  · rw [hid]
    exact h.plain document List.mem_cons_self
  · obtain ⟨key, found, hkey, hfound⟩ := hfirst other hother
    exact ⟨key, found, hid.trans hkey, hfound⟩

end Keyed

/-! ## Identifiers of stored documents -/

/-- The identifiers of two documents differ. -/
def Document.IdsDiffer (a b : Document) : Prop :=
  ∀ key other, a.get? idElement = some key → b.get? idElement = some other → key.eq other = false

theorem WriteCommand.get?_identified (fresh : ObjectId) (document : Document) :
    (identified fresh document).1.get? idElement = some (identified fresh document).2 := by
  unfold identified
  cases hid : document.get? idElement with
  | some id => exact hid
  | none =>
    have hnotMem : idElement ∉ document.names := by
      rw [← Document.get?_isSome, hid]
      simp
    dsimp only
    rw [← Document.insert_of_notMem hnotMem, Document.get?_insert, if_pos rfl]

/-- No document is stored in front of another one with its identifier. -/
theorem WriteCommand.idsDiffer_insert {fresh : ObjectId} {collection : String}
    {documents after : List Document} {document : Document} {matched : Nat}
    (hdocuments : documents.Pairwise Document.IdsDiffer)
    (h : (insert document).apply fresh collection documents = .ok (after, matched)) :
    after.Pairwise Document.IdsDiffer := by
  simp only [apply] at h
  split at h
  · cases h
  · next hnone =>
    cases h
    refine List.pairwise_append.2 ⟨hdocuments, List.pairwise_singleton _ _, ?_⟩
    intro other hother last hlast key id hkey hid
    rw [List.mem_singleton.1 hlast, get?_identified, Option.some.injEq] at hid
    subst hid
    refine Bool.eq_false_iff.2 fun hequal ↦ hnone (List.any_eq_true.2 ⟨other, hother, ?_⟩)
    rw [hkey, Option.any_some, hequal]

theorem Store.idsDiffer_seedDocuments {collection : String} {documents : List Document}
    {s t : Store} (h : seedDocuments collection documents s = .ok t)
    (hs : ∀ name, (s.documents name).Pairwise Document.IdsDiffer) (name : String) :
    (t.documents name).Pairwise Document.IdsDiffer := by
  induction documents generalizing s with
  | nil =>
    cases h
    exact hs name
  | cons document rest ih =>
    unfold seedDocuments at h
    obtain ⟨⟨after, matched⟩, hinsert, h⟩ := Outcome.bind_eq_ok.1 h
    refine ih h fun other ↦ ?_
    have hafter := WriteCommand.idsDiffer_insert (hs collection) hinsert
    simp only [Store.documents, Collections.get_set]
    split
    · exact hafter
    · exact hs other

/-- A store that is filled with documents holds none with the identifier of another in its
collection. -/
theorem Store.idsDiffer_seed {collections : List (String × List Document)} {s t : Store}
    (h : seed collections s = .ok t)
    (hs : ∀ name, (s.documents name).Pairwise Document.IdsDiffer) (name : String) :
    (t.documents name).Pairwise Document.IdsDiffer := by
  induction collections generalizing s with
  | nil =>
    cases h
    exact hs name
  | cons entry rest ih =>
    unfold seed at h
    obtain ⟨middle, hmiddle, h⟩ := Outcome.bind_eq_ok.1 h
    exact ih h (idsDiffer_seedDocuments hmiddle hs)

/-! ## Finding a document -/

/-- An element that alone has a property is found, wherever it stands. -/
theorem exists_findIdx? {α : Type} {p : α → Bool} {l rest : List α} {a : α}
    (hperm : l.Perm (a :: rest)) (ha : p a = true) (hrest : ∀ b ∈ rest, p b = false) :
    ∃ index, l.findIdx? p = some index ∧ l[index]? = some a ∧ (l.eraseIdx index).Perm rest := by
  have hsome : (l.findIdx? p).isSome := by
    rw [List.findIdx?_isSome, List.any_eq_true]
    exact ⟨a, hperm.mem_iff.2 List.mem_cons_self, ha⟩
  obtain ⟨index, hindex⟩ := Option.isSome_iff_exists.1 hsome
  obtain ⟨hlt, hp, -⟩ := List.findIdx?_eq_some_iff_getElem.1 hindex
  have hfound : l[index] = a := by
    rcases List.mem_cons.1 (hperm.mem_iff.1 (List.getElem_mem hlt)) with heq | hmem
    · exact heq
    · rw [hrest _ hmem] at hp
      cases hp
  refine ⟨index, hindex, by rw [List.getElem?_eq_getElem hlt, hfound], ?_⟩
  have herase := (List.getElem_cons_eraseIdx_perm hlt).trans hperm
  rw [hfound] at herase
  exact herase.cons_inv

theorem Filter.holds_plainKey {document : Document} {key other : Bson}
    (hid : document.get? idElement = some other) (hother : other.IsPlainKey)
    (hkey : key.IsPlainKey) :
    (Filter.matching [(idElement, key)]).holds document = true ↔ other = key := by
  rw [holds_matching, List.forall_mem_singleton, EntityType.resolve_idElement, hid]
  change other.matchesValue key = true ↔ _
  rw [Bson.matchesValue_iff, and_iff_left hother.isOrdered]
  constructor
  · exact hother.of_sortKey_eq hkey
  · exact congrArg Bson.sortKey

namespace Keyed

variable {documents rest : List Document} {document : Document} {key : Bson}

/-- Of several documents, a filter for the key of one selects that one alone. -/
theorem holds_iff (h : Keyed (document :: rest)) (hid : document.get? idElement = some key) :
    (Filter.matching [(idElement, key)]).holds document = true ∧
      ∀ other ∈ rest, (Filter.matching [(idElement, key)]).holds other = false := by
  obtain ⟨found, hfound, hkey⟩ := h.plain document List.mem_cons_self
  cases hid.symm.trans hfound
  refine ⟨(Filter.holds_plainKey hid hkey hkey).2 rfl, fun other hother ↦ ?_⟩
  obtain ⟨_, second, hfirst, hsecond, -, hplain, hne⟩ :=
    (List.pairwise_cons.1 h.apart).1 other hother
  cases hid.symm.trans hfirst
  refine Bool.eq_false_iff.2 fun hholds ↦ ?_
  rw [(Filter.holds_plainKey hsecond hplain hkey).1 hholds, hkey.eq_self] at hne
  cases hne

/-! ## Commands -/

variable (h : Keyed (document :: rest)) (hid : document.get? idElement = some key)
  (fresh : ObjectId) (collection : String)

include h hid

theorem perform_delete (hperm : documents.Perm (document :: rest)) :
    ∃ after, (WriteCommand.delete (Filter.matching [(idElement, key)])).perform fresh collection
        documents = (after, .ok 1) ∧ after.Perm rest := by
  obtain ⟨hdocument, hrest⟩ := h.holds_iff hid
  obtain ⟨index, hindex, -, herase⟩ := exists_findIdx? hperm hdocument hrest
  refine ⟨documents.eraseIdx index, ?_, herase⟩
  rw [WriteCommand.perform_delete, hindex]

theorem perform_update (hperm : documents.Perm (document :: rest)) {changes changed : Document}
    (hchanges : WriteCommand.assignAll document changes = .ok changed) :
    ∃ after, (WriteCommand.update (Filter.matching [(idElement, key)]) changes).perform fresh
        collection documents = (after, .ok 1) ∧ after.Perm (changed :: rest) := by
  obtain ⟨hdocument, hrest⟩ := h.holds_iff hid
  obtain ⟨index, hindex, hfound, herase⟩ := exists_findIdx? hperm hdocument hrest
  obtain ⟨hlt, -⟩ := List.getElem?_eq_some_iff.1 hfound
  refine ⟨documents.set index changed, ?_,
    (List.set_perm_cons_eraseIdx hlt changed).trans (herase.cons changed)⟩
  rw [WriteCommand.perform_update, hindex]
  dsimp only
  rw [List.getD_eq_getElem?_getD, hfound]
  dsimp only [Option.getD]
  rw [hchanges]

theorem perform_insert (hperm : documents.Perm rest) :
    (WriteCommand.insert document).perform fresh collection documents =
      (documents ++ [document], .ok 1) := by
  rw [WriteCommand.perform_insert _ _ _ hid, if_neg]
  intro hany
  obtain ⟨other, hother, hequal⟩ := List.any_eq_true.1 hany
  obtain ⟨_, second, hfirst, hsecond, hkey, hplain, hne⟩ :=
    (List.pairwise_cons.1 h.apart).1 other (hperm.mem_iff.1 hother)
  cases hid.symm.trans hfirst
  rw [hsecond, Option.any_some, hplain.eq_comm hkey, hne] at hequal
  cases hequal

omit h

/-- The store takes in a document only if its key is a different one. -/
theorem of_perform_insert (hdocuments : Keyed documents) (hkey : key.IsPlainKey)
    {after : List Document} {matched : Nat}
    (hperform : (WriteCommand.insert document).perform fresh collection documents =
      (after, .ok matched)) :
    after = documents ++ [document] ∧ Keyed (document :: documents) := by
  rw [WriteCommand.perform_insert _ _ _ hid] at hperform
  split at hperform
  · cases hperform
  · next hnone =>
    cases hperform
    refine ⟨rfl, List.forall_mem_cons.2 ⟨⟨key, hid, hkey⟩, hdocuments.plain⟩,
      List.pairwise_cons.2 ⟨fun other hother ↦ ?_, hdocuments.apart⟩⟩
    obtain ⟨found, hfound, hplain⟩ := hdocuments.plain other hother
    refine ⟨key, found, hid, hfound, hkey, hplain, Bool.eq_false_iff.2 fun hequal ↦ hnone ?_⟩
    refine List.any_eq_true.2 ⟨other, hother, ?_⟩
    rw [hfound, Option.any_some, hplain.eq_comm hkey, hequal]

end Keyed

end DocMapping
