import DocMapping.Proofs.Change.Planned
import DocMapping.Proofs.Store.Keyed
import DocMapping.Proofs.UnitOfWork.Compensation
import DocMapping.Proofs.UnitOfWork.Conflicts

/-!
# Failed Saves Restore the Store

The commands of a change set are for different keys, so that each of them leaves alone the documents
that the others are for.  Where these are stored as the entities say, every command can be undone at
the moment that it is run, and a save that fails leaves the store as it was.
-/

namespace DocMapping

/-! ## Commands one after the other -/

/-- Commands on one collection are for different keys. -/
def KeysApart (first second : String × PlannedCommand) : Prop :=
  first.1 = second.1 → ∀ key other stored found, first.2.Concerns key stored →
    second.2.Concerns other found → key.eq other = false

theorem KeysApart.symm {first second : String × PlannedCommand} (h : KeysApart first second) :
    KeysApart second first := by
  intro hcollection key other stored found hkey hother
  rw [hkey.plain.eq_comm hother.plain]
  exact h hcollection.symm other key found stored hother hkey

/-- A command for a key can be undone, and leaves the documents with other keys alone. -/
theorem PlannedCommand.Concerns.undone {planned : PlannedCommand} {key : Bson}
    {stored : Option Document} (h : planned.Concerns key stored) {before after : List Document}
    (hbefore : Keyed before) (hstored : ∀ document ∈ stored, document ∈ before) {fresh : ObjectId}
    {collection : String} {outcome : Outcome Nat}
    (hperform : planned.command.perform fresh collection before = (after, outcome))
    (hsucceeded : planned.command.Succeeded outcome) :
    planned.Undone collection before after ∧ Keyed after ∧
      ∀ document ∈ before, document.get? idElement ≠ some key → document ∈ after := by
  cases h with
  | @insertion document hkey hid hcommand hinverse =>
    obtain ⟨matched, rfl, -⟩ := hsucceeded
    rw [hcommand] at hperform
    obtain ⟨rfl, hafter⟩ := Keyed.of_perform_insert hid fresh collection hbefore hkey hperform
    have hperm : (before ++ [document]).Perm (document :: before) := List.perm_append_singleton ..
    refine ⟨⟨_, hinverse, fun fresh documents hdocuments ↦ ?_⟩, hafter.perm hperm.symm,
      fun other hother _ ↦ List.mem_append_left _ hother⟩
    obtain ⟨last, hlast, hrest⟩ :=
      hafter.perform_delete hid fresh collection (hdocuments.trans hperm)
    rw [hlast]
    exact hrest
  | @removal document hkey hid hcommand hinverse =>
    obtain ⟨front, back, rfl⟩ := List.append_of_mem (hstored document rfl)
    have hperm : (front ++ document :: back).Perm (document :: (front ++ back)) := List.perm_middle
    have hkeyed := hbefore.perm hperm
    rw [hcommand] at hperform
    obtain ⟨_, hdelete, hrest⟩ := hkeyed.perform_delete hid fresh collection hperm
    cases hdelete.symm.trans hperform
    refine ⟨⟨_, hinverse, fun fresh documents hdocuments ↦ ?_⟩, hkeyed.tail.perm hrest.symm,
      fun other hother hne ↦ hrest.mem_iff.2 ?_⟩
    · have hback := hdocuments.trans hrest
      rw [hkeyed.perform_insert hid fresh collection hback]
      exact (List.perm_append_singleton ..).trans ((hback.cons document).trans hperm.symm)
    · refine (List.mem_cons.1 (hperm.mem_iff.1 hother)).resolve_left fun heq ↦ hne ?_
      rw [heq, hid]
  | @replacement old patched changes restored hkey hid hcommand hinverse hpatched hrestored hkept =>
    obtain ⟨front, back, rfl⟩ := List.append_of_mem (hstored old rfl)
    have hperm : (front ++ old :: back).Perm (old :: (front ++ back)) := List.perm_middle
    have hkeyed := hbefore.perm hperm
    have hexchanged := hkeyed.exchange hkept
    rw [hcommand] at hperform
    obtain ⟨_, hupdate, hrest⟩ := hkeyed.perform_update hid fresh collection hperm hpatched
    cases hupdate.symm.trans hperform
    refine ⟨⟨_, hinverse, fun fresh documents hdocuments ↦ ?_⟩, hexchanged.perm hrest.symm,
      fun other hother hne ↦ hrest.mem_iff.2 (List.mem_cons_of_mem patched ?_)⟩
    · obtain ⟨last, hlast, hback⟩ := hexchanged.perform_update (hkept.trans hid) fresh collection
        (hdocuments.trans hrest) hrestored
      rw [hlast]
      exact hback.trans hperm.symm
    · refine (List.mem_cons.1 (hperm.mem_iff.1 hother)).resolve_left fun heq ↦ hne ?_
      rw [heq, hid]

/-- The commands are for different keys and find the documents that they are for. -/
structure Ready (commands : List (String × PlannedCommand)) (contents : Contents) : Prop where
  concern : ∀ entry ∈ commands, Keyed (contents entry.1) ∧ ∃ key stored,
    entry.2.Concerns key stored ∧ ∀ document ∈ stored, document ∈ contents entry.1
  apart : commands.Pairwise KeysApart

/-- Running the first command leaves the others ready. -/
theorem Ready.revertible {commands : List (String × PlannedCommand)} {contents : Contents}
    (h : Ready commands contents) : Revertible commands contents := by
  induction commands generalizing contents with
  | nil => trivial
  | cons entry rest ih =>
    obtain ⟨collection, planned⟩ := entry
    obtain ⟨⟨hkeyed, key, stored, hconcerns, hstored⟩, hrest⟩ := List.forall_mem_cons.1 h.concern
    obtain ⟨hfirst, happart⟩ := List.pairwise_cons.1 h.apart
    intro fresh documents outcome hperform hsucceeded
    obtain ⟨hundone, hafter, hkept⟩ := hconcerns.undone hkeyed hstored hperform hsucceeded
    refine ⟨hundone, ih ⟨fun other hother ↦ ?_, happart⟩⟩
    obtain ⟨hcontents, second, found, hsecond, hfound⟩ := hrest other hother
    rw [Function.update_apply]
    split
    · next hsame =>
      refine ⟨hafter, second, found, hsecond, fun document hdocument ↦ ?_⟩
      rw [hsame] at hfound
      refine hkept document (hfound document hdocument) fun hid ↦ ?_
      have hne := hfirst other hother hsame.symm key second stored found hconcerns hsecond
      cases hid.symm.trans (hsecond.get?_stored document hdocument)
      rw [hconcerns.plain.eq_self] at hne
      cases hne
    · exact ⟨hcontents, second, found, hsecond, hfound⟩

/-! ## Entries -/

namespace ChangeEntry

variable {e : ChangeEntry}

/-- The entry has something to do with the document under the key: the key of the entity as it is, or
as it was. -/
def RefersTo (e : ChangeEntry) (key : Bson) : Prop :=
  (e.state = .added ∨ e.state = .modified) ∧ e.type.keyValue e.current = .ok key ∨
    e.IsChange ∧ e.type.keyValue e.baseline = .ok key

/-- The commands of an entry are for keys that it refers to, each for a different one. -/
theorem commands_concern (htype : e.type.PlainlyKeyed) (hroot : e.type.isOwned = false)
    (hsorted : e.baseline.DeepSorted ∧ e.current.DeepSorted) {documents : List Document}
    (hstored : e.IsChange → ∃ document ∈ documents, e.type.encode e.baseline = .ok document)
    {entry : Nat} {commands : List PlannedCommand} (hcommands : e.commands entry = .ok commands) :
    (∀ planned ∈ commands, ∃ key stored, planned.Concerns key stored ∧ e.RefersTo key ∧
        ∀ document ∈ stored, document ∈ documents) ∧
      commands.Pairwise fun first second ↦ ∀ key other stored found, first.Concerns key stored →
        second.Concerns other found → key.eq other = false := by
  unfold ChangeEntry.commands at hcommands
  cases hstate : e.state with
  | detached | unchanged =>
    rw [hstate] at hcommands
    cases hcommands
    exact ⟨by simp, .nil⟩
  | added =>
    rw [hstate] at hcommands
    obtain ⟨planned, hplanned, rfl⟩ := Outcome.map_eq_ok.1 hcommands
    obtain ⟨key, hkey, hconcerns⟩ := EntityType.planInsert_concerns htype hroot hplanned
    refine ⟨List.forall_mem_singleton.2 ⟨key, none, hconcerns, .inl ⟨.inl hstate, hkey⟩, by simp⟩,
      List.pairwise_singleton _ _⟩
  | deleted =>
    rw [hstate] at hcommands
    have hchange : e.IsChange := .inr hstate
    obtain ⟨planned, hplanned, rfl⟩ := Outcome.map_eq_ok.1 hcommands
    obtain ⟨key, document, hkey, hdocument, hconcerns⟩ :=
      EntityType.planDelete_concerns htype hroot hplanned
    obtain ⟨_, hmem, hsame⟩ := hstored hchange
    cases hdocument.symm.trans hsame
    refine ⟨List.forall_mem_singleton.2 ⟨key, some document, hconcerns, .inr ⟨hchange, hkey⟩, ?_⟩,
      List.pairwise_singleton _ _⟩
    rintro _ ⟨⟩
    exact hmem
  | modified =>
    rw [hstate] at hcommands
    have hchange : e.IsChange := .inl hstate
    obtain ⟨document, hmem, hdocument⟩ := hstored hchange
    have hfound : ∀ other ∈ some document, other ∈ documents := by
      rintro _ ⟨⟩
      exact hmem
    obtain ⟨key, hkey, hsingle⟩ | ⟨key, other, removal, insertion, hkey, hother, hdiffer, rfl,
        hremoval, hinsertion⟩ :=
      EntityType.planUpdate_concerns htype hroot hsorted.1 hsorted.2 hdocument hcommands
    · refine ⟨fun planned hplanned ↦ ⟨key, some document, (hsingle planned hplanned).2,
        .inr ⟨hchange, hkey⟩, hfound⟩, ?_⟩
      cases commands with
      | nil => exact .nil
      | cons planned rest =>
        rw [(hsingle planned List.mem_cons_self).1]
        exact List.pairwise_singleton _ _
    · refine ⟨List.forall_mem_cons.2 ⟨⟨key, some document, hremoval, .inr ⟨hchange, hkey⟩, hfound⟩,
        List.forall_mem_singleton.2
          ⟨other, none, hinsertion, .inl ⟨.inr hstate, hother⟩, by simp⟩⟩, ?_⟩
      refine List.pairwise_pair.2 fun first second stored found hfirst hsecond ↦ ?_
      rw [hfirst.unique hremoval, hsecond.unique hinsertion]
      exact hdiffer

end ChangeEntry

/-! ## Entries that match a store -/

/-- The entries are of types with plain keys and without tokens, and refer to different keys; their
entities have their members in order.  What is stored in the collections of those that refer to a key
are documents of entities of these types, with different identifiers, and among them the documents
of the entities that are to be changed or removed, as they were. -/
structure Matched (model : Model) (entries : List ChangeEntry) (contents : Contents) : Prop where
  types : ∀ e ∈ entries, e.type ∈ model.entities ∧ e.type.KeyHasId ∧
    (∀ p ∈ e.type.keys, p.IsPlain) ∧ e.type.concurrencyTokens = []
  sorted : ∀ e ∈ entries, e.baseline.DeepSorted ∧ e.current.DeepSorted
  keys : entries.Pairwise fun e f ↦ e.type.collection = f.type.collection →
    ∀ key other, e.RefersTo key → f.RefersTo other → key.eq other = false
  stored : ∀ e ∈ entries, e.IsChange → ∀ collection, e.type.collection = some collection →
    ∃ document ∈ contents collection, e.type.encode e.baseline = .ok document
  written : ∀ e ∈ entries, ∀ key, e.RefersTo key → ∀ collection,
    e.type.collection = some collection → ∀ document ∈ contents collection, ∃ f ∈ entries,
      f.type.collection = some collection ∧ ∃ entity, f.type.encode entity = .ok document
  ids : ∀ e ∈ entries, ∀ key, e.RefersTo key → ∀ collection,
    e.type.collection = some collection → (contents collection).Pairwise Document.IdsDiffer

theorem EntityType.isOwned_of_collection {t : EntityType} {collection : String}
    (h : t.collection = some collection) : t.isOwned = false := by
  rw [EntityType.isOwned, h]
  rfl

namespace Matched

variable {m : ModelDeclaration} {model : Model} {entries : List ChangeEntry} {contents : Contents}

theorem plainlyKeyed (h : Matched model entries contents) (hmodel : m.build = .ok model)
    {e : ChangeEntry} (he : e ∈ entries) : e.type.PlainlyKeyed := by
  obtain ⟨htype, hid, hplain, htokens⟩ := h.types e he
  exact .of_build hmodel htype hid hplain htokens

theorem keyed (h : Matched model entries contents) (hmodel : m.build = .ok model) {e : ChangeEntry}
    (he : e ∈ entries) {own : Bson} (hrefers : e.RefersTo own) {collection : String}
    (hcollection : e.type.collection = some collection) : Keyed (contents collection) := by
  have hplain : ∀ document ∈ contents collection,
      ∃ key, document.get? idElement = some key ∧ key.IsPlainKey := by
    intro document hdocument
    obtain ⟨f, hf, hsame, entity, hencode⟩ :=
      h.written e he own hrefers collection hcollection document hdocument
    obtain ⟨key, -, hget, hkey⟩ := (h.plainlyKeyed hmodel hf).get?_encode
      (EntityType.isOwned_of_collection hsame) hencode
    exact ⟨key, hget, hkey⟩
  refine ⟨hplain, (h.ids e he own hrefers collection hcollection).imp_of_mem fun ha hb hne ↦ ?_⟩
  obtain ⟨key, hkey, hkeyPlain⟩ := hplain _ ha
  obtain ⟨other, hother, hotherPlain⟩ := hplain _ hb
  exact ⟨key, other, hkey, hother, hkeyPlain, hotherPlain, hne key other hkey hother⟩

/-- The commands that an entry contributes find what they are for. -/
theorem concern (h : Matched model entries contents) (hmodel : m.build = .ok model) {e : ChangeEntry}
    (he : e ∈ entries) {commands : List (String × PlannedCommand)}
    (hcommands : e.Contributes commands) :
    (∀ command ∈ commands, e.type.collection = some command.1 ∧ ∃ key stored,
        command.2.Concerns key stored ∧ e.RefersTo key ∧
          ∀ document ∈ stored, document ∈ contents command.1) ∧
      commands.Pairwise KeysApart := by
  obtain ⟨collection, entry, planned, hcollection, hplanned, rfl⟩ := hcommands
  obtain ⟨hconcern, happart⟩ := ChangeEntry.commands_concern (h.plainlyKeyed hmodel he)
    (EntityType.isOwned_of_collection hcollection) (h.sorted e he)
    (fun hchange ↦ h.stored e he hchange collection hcollection) hplanned
  have hpairs : planned.Pairwise fun first second ↦
      KeysApart (collection, first) (collection, second) := by
    refine happart.imp fun hne ↦ ?_
    intro _
    exact hne
  refine ⟨fun command hcommand ↦ ?_, List.pairwise_map.2 hpairs⟩
  obtain ⟨command, hmem, rfl⟩ := List.mem_map.1 hcommand
  exact ⟨hcollection, hconcern command hmem⟩

/-- The commands of a change set are ready to be run on what its entries match. -/
theorem ready (hmodel : m.build = .ok model) {ids : IdSource} {issued : Nat}
    {changes : ChangeSet} (hchanges : (ChangeSet.build ids issued entries).outcome = .ok changes)
    (h : Matched model (ChangeSet.build ids issued entries).entries contents) :
    Ready changes.commands contents := by
  obtain ⟨commands, hcontributes, hperm⟩ := ChangeSet.buildFrom_commands hchanges
  change List.Forall₂ _ (ChangeSet.build ids issued entries).entries commands at hcontributes
  generalize (ChangeSet.build ids issued entries).entries = built at h hcontributes
  refine ⟨fun command hcommand ↦ ?_, (hperm.pairwise_iff KeysApart.symm).2 ?_⟩
  · obtain ⟨part, hpart, hmem⟩ := List.mem_flatten.1 (hperm.mem_iff.1 hcommand)
    obtain ⟨e, he, hcontribute⟩ := Outcome.exists_left hcontributes hpart
    obtain ⟨hcollection, key, stored, hconcerns, hrefers, hstored⟩ :=
      (h.concern hmodel he hcontribute).1 command hmem
    exact ⟨h.keyed hmodel he hrefers hcollection, key, stored, hconcerns, hstored⟩
  · refine List.pairwise_flatten.2 ⟨fun part hpart ↦ ?_, ?_⟩
    · obtain ⟨e, he, hcontribute⟩ := Outcome.exists_left hcontributes hpart
      exact (h.concern hmodel he hcontribute).2
    · refine Outcome.pairwise_results hcontributes h.keys
        fun e he f hf left right hkeys hleft hright ↦ ?_
      intro first hfirst second hsecond hsame key other stored found hkey hother
      obtain ⟨hcollection, _, _, hconcerns, hrefers, -⟩ := (h.concern hmodel he hleft).1 first hfirst
      obtain ⟨hcollection', _, _, hconcerns', hrefers', -⟩ :=
        (h.concern hmodel hf hright).1 second hsecond
      rw [hkey.unique hconcerns, hother.unique hconcerns']
      exact hkeys (by rw [hcollection, hcollection', hsame]) _ _ hrefers hrefers'

end Matched

/-! ## Saves -/

namespace UnitOfWork

/-- A save without a transaction that undoes itself leaves every collection with the documents that it
had, up to their order, wherever it fails or is told to stop. -/
theorem save_restores {τ : Type} {signal : Signal (MemorySession × τ)} (hsignal : signal.IsPassive)
    {m : ModelDeclaration} {model : Model} (hmodel : m.build = .ok model) {ids : IdSource}
    {issued : Nat} {entries : List ChangeEntry} {changes : ChangeSet}
    (hchanges : (ChangeSet.build ids issued entries).outcome = .ok changes) {transactions : Bool}
    {options : Options} (hoptions : options.transactional transactions = .ok false)
    (hcompensate : options.compensateOnFailure = true) {s : MemorySession × τ}
    (h : Matched model (ChangeSet.build ids issued entries).entries s.1.store.documents)
    (state : UnitState) :
    let saved := save (inMemory transactions τ) signal options changes state s
    ∀ fault, saved.1.1 = .error fault →
      ∀ name, (saved.2.1.store.documents name).Perm (s.1.store.documents name) :=
  save_undone transactions hsignal hoptions hcompensate (Matched.ready hmodel hchanges h).revertible
    state

open EntityType (declared)

/-- Cards with a label of their own. -/
def cards : ModelDeclaration :=
  ⟨.asDeclared,
    [⟨"Label", true, none, [], [declared "Color" .string], [], none⟩,
    ⟨"Card", false, none, ["Id"], [declared "Id" .string, declared "Text" .string],
      [⟨"Label", "Label", none, none, false⟩], none⟩]⟩

def label : EntityType := ⟨"Label", none, [Property.plain "Color" (.scalar .string)], [], [], none⟩

def card : EntityType :=
  ⟨"Card", some "Card",
    [{ Property.plain "Id" (.scalar .string) with element := idElement },
      Property.plain "Text" (.scalar .string)],
    [{ Property.plain "Id" (.scalar .string) with element := idElement }],
    [⟨"Label", "Label", label, none, false⟩], none⟩

def labelled (id text color : String) : Entity :=
  ⟨"Card", [("Id", .string id), ("Label", .entity "Label" [("Color", .string color)]),
    ("Text", .string text)]⟩

/-- The document of a card. -/
def filed (id text color : String) : Document :=
  [(idElement, .string id), ("Text", .string text), ("Label", .document [("Color", .string color)])]

/-- One card is removed, one is changed, and one is to get the identifier of another that is stored. -/
def shuffled : List ChangeEntry :=
  [.deleted card (labelled "a" "first" "red"),
    .modified card (labelled "b" "second" "red") (labelled "b" "new" "blue"),
    .modified card (labelled "c" "third" "red") (labelled "d" "third" "red")]

def stack : List Document :=
  [filed "a" "first" "red", filed "b" "second" "red", filed "c" "third" "red",
    filed "d" "fourth" "red"]

def stacked : Store := ⟨0, [("Card", ⟨stack, 0⟩)], false, fun issued ↦ ⟨lowBits 96 issued⟩, 4⟩

def compensating : Options :=
  { Options.default with transactionBehavior := .never, compensateOnFailure := true }

theorem deepSorted_labelled (id text color : String) : (labelled id text color).DeepSorted := by
  have hnames : "Id" < "Label" ∧ "Id" < "Text" ∧ "Label" < "Text" := by decide
  refine ⟨.cons ?_ (List.pairwise_pair.2 hnames.2.2), trivial,
    ⟨List.pairwise_singleton _ _, trivial, trivial⟩, trivial, trivial⟩
  exact List.forall_mem_cons.2 ⟨hnames.1, List.forall_mem_singleton.2 hnames.2.1⟩

theorem refersTo_card {state : EntityState} {id other text color second third : String} {key : Bson}
    (h : ChangeEntry.RefersTo ⟨card, state, labelled id text color, labelled other second third⟩
      key) : key = .string id ∨ key = .string other := by
  rcases h with ⟨-, hkey⟩ | ⟨-, hkey⟩ <;> cases hkey
  · exact .inl rfl
  · exact .inr rfl

theorem matched_shuffled : Matched ⟨[label, card]⟩ shuffled stacked.documents := by
  have htype : ∀ e ∈ shuffled, e.type = card := by
    simp [shuffled, ChangeEntry.deleted, ChangeEntry.modified]
  have hcollection : ∀ e ∈ shuffled, ∀ collection, e.type.collection = some collection →
      collection = "Card" := by
    intro e he collection hcollection
    rw [htype e he] at hcollection
    cases hcollection
    rfl
  have hstack : ∀ document ∈ stack, ∃ e, card.encode e = .ok document := by
    simp only [stack, List.forall_mem_cons]
    exact ⟨⟨labelled "a" "first" "red", rfl⟩, ⟨labelled "b" "second" "red", rfl⟩,
      ⟨labelled "c" "third" "red", rfl⟩, ⟨labelled "d" "fourth" "red", rfl⟩, by simp⟩
  have hbaselines : ∀ e ∈ shuffled, ∃ document ∈ stack, card.encode e.baseline = .ok document := by
    simp only [shuffled, List.forall_mem_cons]
    exact ⟨⟨filed "a" "first" "red", by simp [stack], rfl⟩,
      ⟨filed "b" "second" "red", by simp [stack], rfl⟩,
      ⟨filed "c" "third" "red", by simp [stack], rfl⟩, by simp⟩
  have hseed : Store.seed [("Card", stack)]
      (.empty 0 false fun issued ↦ ⟨lowBits 96 issued⟩) = .ok stacked := rfl
  refine ⟨fun e he ↦ ?_, ?_, ?_, fun e he _ collection hname ↦ ?_,
    fun e he _ _ collection hname document hdocument ↦ ?_,
    fun _ _ _ _ collection _ ↦ Store.idsDiffer_seed hseed (fun _ ↦ .nil) collection⟩
  · rw [htype e he]
    exact ⟨by simp, by simp [EntityType.KeyHasId, card], by simp [card, Property.IsPlain,
      Property.scalarKind, Property.plain, PropertyKind.scalarKind], rfl⟩
  · simp [shuffled, ChangeEntry.deleted, ChangeEntry.modified, deepSorted_labelled]
  · simp only [shuffled, List.pairwise_cons, List.forall_mem_cons]
    refine ⟨⟨?_, ?_, by simp⟩, ⟨?_, by simp⟩, by simp⟩ <;> intro _ key other hkey hother <;>
      rcases refersTo_card hkey with rfl | rfl <;> rcases refersTo_card hother with rfl | rfl <;> rfl
  · cases hcollection e he collection hname
    rw [htype e he]
    exact hbaselines e he
  · cases hcollection e he collection hname
    refine ⟨e, he, hname, ?_⟩
    rw [htype e he]
    exact hstack document hdocument

theorem save_restores_cards :
    let built := ChangeSet.build (.counting 1 1) 0 shuffled
    let s : MemorySession × Unit := (.ofStore stacked, ())
    cards.build = .ok ⟨[label, card]⟩ ∧ compensating.transactional false = .ok false ∧
      compensating.compensateOnFailure = true ∧
      Matched ⟨[label, card]⟩ built.entries s.1.store.documents ∧
      ∃ changes, built.outcome = .ok changes ∧
        let saved := save (inMemory false Unit) Signal.never compensating changes .idle s
        saved.1 = (.error (.duplicateKey (Bson.string "d").text "Card"), .rolledBack) ∧
          ∀ name, (saved.2.1.store.documents name).Perm (stacked.documents name) := by
  intro built s
  have hbuild : cards.build = .ok ⟨[label, card]⟩ := rfl
  have hmatched : Matched ⟨[label, card]⟩ built.entries s.1.store.documents := matched_shuffled
  obtain ⟨changes, hchanges, hfails⟩ : ∃ changes, built.outcome = .ok changes ∧
      (save (inMemory false Unit) Signal.never compensating changes .idle s).1 =
        (.error (.duplicateKey (Bson.string "d").text "Card"), .rolledBack) := ⟨_, rfl, rfl⟩
  have hoptions : compensating.transactional false = .ok false := rfl
  refine ⟨hbuild, hoptions, rfl, hmatched, changes, hchanges, hfails, ?_⟩
  exact save_restores (fun _ ↦ rfl) hbuild hchanges hoptions rfl hmatched .idle _
    (congrArg Prod.fst hfails)

end UnitOfWork

end DocMapping
