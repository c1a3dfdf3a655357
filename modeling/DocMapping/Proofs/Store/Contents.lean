import DocMapping.Proofs.Association
import DocMapping.Store
import Mathlib.Logic.Function.Basic

/-!
# Contents of Stores

What a store holds, seen as a function from the names of collections to their documents.  Every
operation of a store is described by what it does to this view and to the versions of the
collections; later modules do not look inside the operations.  A command that brings its own
identifier does the same whatever identifier the store would have given out.
-/

namespace DocMapping

/-- The documents of every collection. -/
abbrev Contents := String → List Document

/-! ## Commands -/

namespace WriteCommand

/-- A document to be stored has an identifier of its own. -/
def IsIdentified : WriteCommand → Prop
  | insert document => (document.get? idElement).isSome
  | update _ _ => True
  | delete _ => True

/-- The documents after a command, unchanged if it fails, and what came of it. -/
def perform (fresh : ObjectId) (collection : String) (documents : List Document)
    (command : WriteCommand) : List Document × Outcome Nat :=
  match command.apply fresh collection documents with
  | .ok (changed, matched) => (changed, .ok matched)
  | .error fault => (documents, .error fault)

theorem perform_fresh {command : WriteCommand} (h : command.IsIdentified) (a b : ObjectId)
    (collection : String) (documents : List Document) :
    command.perform a collection documents = command.perform b collection documents := by
  have happly : command.apply a collection documents = command.apply b collection documents := by
    cases command with
    | insert document =>
      obtain ⟨id, hid⟩ := Option.isSome_iff_exists.1 h
      simp only [apply, identified, hid]
    | update filter changes => rfl
    | delete filter => rfl
  simp only [perform, happly]

section Perform

variable (fresh : ObjectId) (collection : String) (documents : List Document)

theorem perform_insert {document : Document} {id : Bson} (hid : document.get? idElement = some id) :
    (insert document).perform fresh collection documents =
      if documents.any fun other ↦ (other.get? idElement).any (·.eq id) then
        (documents, .error (.duplicateKey id.text collection))
      else (documents ++ [document], .ok 1) := by
  simp only [perform, apply, identified, hid]
  cases documents.any fun other ↦ (other.get? idElement).any (·.eq id) <;> rfl

theorem perform_update (filter : Filter Bson) (changes : Document) :
    (update filter changes).perform fresh collection documents =
      match documents.findIdx? filter.holds with
      | none => (documents, .ok 0)
      | some index =>
        match assignAll (documents.getD index []) changes with
        | .ok changed => (documents.set index changed, .ok 1)
        | .error fault => (documents, .error fault) := by
  simp only [perform, apply]
  cases documents.findIdx? filter.holds with
  | none => rfl
  | some index =>
    dsimp only
    cases assignAll (documents.getD index []) changes <;> rfl

theorem perform_delete (filter : Filter Bson) :
    (delete filter).perform fresh collection documents =
      match documents.findIdx? filter.holds with
      | none => (documents, .ok 0)
      | some index => (documents.eraseIdx index, .ok 1) := by
  simp only [perform, apply]
  cases documents.findIdx? filter.holds <;> rfl

variable {fresh collection documents}

theorem perform_error {command : WriteCommand} {after : List Document} {fault : StoreError}
    (h : command.perform fresh collection documents = (after, .error fault)) :
    after = documents := by
  unfold perform at h
  split at h <;> cases h
  rfl

/-- A command that was applied to no document has left all of them alone. -/
theorem perform_zero {command : WriteCommand} {after : List Document}
    (h : command.perform fresh collection documents = (after, .ok 0)) : after = documents := by
  cases command with
  | insert document =>
    simp only [perform, apply] at h
    split at h
    · next happly =>
      split at happly <;> cases happly
      cases h
    · cases h
  | update filter changes =>
    rw [perform_update] at h
    split at h
    · cases h
      rfl
    · split at h <;> cases h
  | delete filter =>
    rw [perform_delete] at h
    split at h <;> cases h
    rfl

end Perform

end WriteCommand

/-! ## Collections by name -/

namespace Collections

theorem set_eq_put (c : Collections) (name : String) (value : Collection) :
    c.set name value = Association.put name value c := by
  induction c with
  | nil => rfl
  | cons entry rest ih =>
    obtain ⟨first, old⟩ := entry
    rw [set, Association.put, ih]

theorem lookup_set (c : Collections) (name other : String) (value : Collection) :
    (c.set name value).lookup other = if other = name then some value else c.lookup other := by
  rw [set_eq_put, Association.lookup_put]

theorem get_set (c : Collections) (name other : String) (value : Collection) :
    (c.set name value).get other = if other = name then value else c.get other := by
  unfold get
  rw [lookup_set]
  split <;> rfl

/-- Every collection has one entry. -/
def Distinct (c : Collections) : Prop := (c.map Prod.fst).Nodup

theorem Distinct.set {c : Collections} (h : c.Distinct) (name : String) (value : Collection) :
    (c.set name value).Distinct := by
  rw [set_eq_put]
  exact Association.nodup_put h name value

theorem mem_set {c : Collections} {name : String} {value : Collection} {entry : String × Collection}
    (h : entry ∈ c.set name value) : entry = (name, value) ∨ entry ∈ c :=
  Association.mem_put (set_eq_put c name value ▸ h)

end Collections

/-! ## Stores -/

namespace Store

/-- The number of changes of a collection, in 64 bits. -/
def version (s : Store) (collection : String) : UInt64 := (s.collections.get collection).version

/-! ### Commands by themselves -/

section Execute

variable {s : Store} {collection : String} {command : WriteCommand}

theorem execute_of_ok {result : List Document × Nat}
    (h : command.apply (s.ids s.nextId) collection (s.documents collection) = .ok result) :
    s.execute collection command =
      ({ s with
          collections := s.collections.set collection ⟨result.1, s.version collection + 1⟩
          nextId := s.nextId + 1 }, .ok result.2) := by
  unfold documents at h
  simp only [execute, h]
  rfl

theorem execute_of_error {fault : StoreError}
    (h : command.apply (s.ids s.nextId) collection (s.documents collection) = .error fault) :
    s.execute collection command = (s, .error fault) := by
  unfold documents at h
  simp only [execute, h]

variable (s collection command)

theorem execute_outcome :
    (s.execute collection command).2 =
      (command.perform (s.ids s.nextId) collection (s.documents collection)).2 := by
  unfold WriteCommand.perform
  cases h : command.apply (s.ids s.nextId) collection (s.documents collection) with
  | ok result => rw [execute_of_ok h]
  | error fault => rw [execute_of_error h]

theorem documents_execute :
    (s.execute collection command).1.documents = Function.update s.documents collection
      (command.perform (s.ids s.nextId) collection (s.documents collection)).1 := by
  unfold WriteCommand.perform
  cases h : command.apply (s.ids s.nextId) collection (s.documents collection) with
  | ok result =>
    rw [execute_of_ok h]
    funext other
    simp only [documents, Collections.get_set, Function.update_apply]
    split <;> rfl
  | error fault => rw [execute_of_error h, Function.update_eq_self]

theorem version_execute (other : String) :
    (s.execute collection command).1.version other =
      if other = collection ∧ (s.execute collection command).2.isOk then s.version other + 1
      else s.version other := by
  cases h : command.apply (s.ids s.nextId) collection (s.documents collection) with
  | ok result =>
    rw [execute_of_ok h]
    simp only [version, Collections.get_set, Except.isOk, Except.toBool, and_true]
    split
    · next heq => rw [heq]
    · rfl
  | error fault =>
    rw [execute_of_error h]
    simp [Except.isOk, Except.toBool]

@[simp]
theorem identity_execute : (s.execute collection command).1.identity = s.identity := by
  cases h : command.apply (s.ids s.nextId) collection (s.documents collection) with
  | ok result => rw [execute_of_ok h]
  | error fault => rw [execute_of_error h]

end Execute

/-! ### Commands in transactions -/

section ExecuteIn

/-- The documents of every collection as a transaction finds them. -/
def view (s : Store) (t : Transaction) : Contents :=
  fun collection ↦ (s.staged t collection).documents

variable {s : Store} {t : Transaction} (h : t.store = s.identity) (collection : String)
  (command : WriteCommand)

include h

/-- A command in a transaction changes the copy of its collection, and of the store at most the
supply of identifiers. -/
theorem executeIn_eq :
    ∃ next, s.executeIn t collection command =
      ({ s with nextId := next },
        { t with
          staged := t.staged.set collection
            ⟨(command.perform (s.ids s.nextId) collection (s.view t collection)).1,
              (s.staged t collection).version⟩ },
        (command.perform (s.ids s.nextId) collection (s.view t collection)).2) := by
  unfold WriteCommand.perform
  cases happly : command.apply (s.ids s.nextId) collection (s.view t collection) with
  | ok result =>
    unfold view at happly
    refine ⟨s.nextId + 1, ?_⟩
    simp only [executeIn, h, ne_eq, not_true_eq_false, if_false, happly]
  | error fault =>
    unfold view at happly
    refine ⟨s.nextId, ?_⟩
    simp only [executeIn, h, ne_eq, not_true_eq_false, if_false, happly]
    rfl

end ExecuteIn

theorem staged_set (s : Store) (t : Transaction) (collection other : String) (value : Collection) :
    s.staged { t with staged := t.staged.set collection value } other =
      if other = collection then value else s.staged t other := by
  unfold staged
  rw [Collections.lookup_set]
  split <;> rfl

/-! ### Commits -/

/-- Every copy was taken of the collection as it is now. -/
def Current (s : Store) (t : Transaction) : Prop :=
  ∀ entry ∈ t.staged, s.version entry.1 = entry.2.version

/-- A copy that is changed is no more out of date than it was. -/
theorem Current.set {s : Store} {t : Transaction} (h : s.Current t) (collection : String)
    (documents : List Document) :
    s.Current
      { t with
        staged := t.staged.set collection
          ⟨documents, (s.staged t collection).version⟩ } := by
  intro entry hentry
  rcases Collections.mem_set hentry with rfl | hold
  · cases hcopy : t.staged.lookup collection with
    | some copy =>
      simp only [staged, hcopy, Option.getD_some]
      exact h _ (Association.mem_of_lookup hcopy)
    | none =>
      simp only [staged, hcopy, Option.getD_none]
      rfl
  · exact h entry hold

theorem conflict?_eq_none {s : Store} {t : Transaction} : s.conflict? t = none ↔ s.Current t := by
  simp [conflict?, Current, version, List.find?_eq_none]

/-- The collections with copies put in place of them. -/
def install (collections copies : Collections) : Collections :=
  copies.foldl
    (fun collections entry ↦ collections.set entry.1 ⟨entry.2.documents, entry.2.version + 1⟩)
    collections

theorem get_install {copies : Collections} (hd : copies.Distinct) (collections : Collections)
    (name : String) :
    (install collections copies).get name =
      ((copies.lookup name).map fun copy ↦ ⟨copy.documents, copy.version + 1⟩).getD
        (collections.get name) := by
  induction copies generalizing collections with
  | nil => rfl
  | cons entry rest ih =>
    obtain ⟨first, copy⟩ := entry
    obtain ⟨hfirst, hrest⟩ := List.nodup_cons.1 hd
    have hstep : install collections ((first, copy) :: rest) =
        install (collections.set first ⟨copy.documents, copy.version + 1⟩) rest := rfl
    rw [hstep, ih hrest, Association.lookup_cons, Collections.get_set]
    by_cases h : name = first
    · subst h
      rw [Association.lookup_eq_none.2 hfirst]
      simp
    · simp [h]

theorem commit_of_current {s : Store} {t : Transaction} (h : s.Current t) :
    s.commit t = ({ s with collections := install s.collections t.staged }, .ok ()) := by
  unfold commit
  rw [conflict?_eq_none.2 h]
  rfl

/-- A commit that fails leaves the store as it is. -/
theorem commit_of_not_current {s : Store} {t : Transaction} (h : ¬s.Current t) :
    ∃ fault, s.commit t = (s, .error fault) := by
  obtain ⟨name, hname⟩ := Option.ne_none_iff_exists'.1 (mt conflict?_eq_none.1 h)
  refine ⟨.transport (.writeConflict name), ?_⟩
  simp only [commit, hname]

section Commit

variable {s : Store} {t : Transaction} (hd : t.staged.Distinct) (h : s.Current t)

include hd h

theorem documents_commit : (s.commit t).1.documents = s.view t := by
  rw [commit_of_current h]
  funext name
  simp only [documents, view, staged, get_install hd]
  cases t.staged.lookup name <;> rfl

theorem version_commit (name : String) :
    (s.commit t).1.version name =
      if (t.staged.lookup name).isSome then s.version name + 1 else s.version name := by
  rw [commit_of_current h]
  simp only [version, get_install hd]
  cases hcopy : t.staged.lookup name with
  | none => rfl
  | some copy =>
    have hversion := h _ (Association.mem_of_lookup hcopy)
    simp only [version] at hversion
    simp [hversion]

end Commit

end Store

end DocMapping
