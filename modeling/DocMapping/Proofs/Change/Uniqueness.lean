import DocMapping.Proofs.Change.Passes
import DocMapping.Proofs.Change.Repetition

/-!
# Numbers are Unique and Final

Building a change set gives every item of an owned collection its numbers.  Those that had a number
keep it, and the new ones rise in the order of the items and are above all that the collection held,
whatever was numbered before in the same scope.  Nothing else changes but generated keys.

What the collection held is what it held as whole numbers: one that is held as a double or a decimal
is stored as the same whole number, but is not seen when the new numbers are chosen.
-/

namespace DocMapping

open EntityType (HasNumbers BelowGreatest)
open Value (Numbered Raised)

/-! ## Keys and numbers of one entry -/

/-- If no number was given and all items have one, they had it before. -/
theorem Value.Untouched.raised {member : String} {items others : List Value}
    (h : Untouched member items others)
    (hcomplete : ∀ f, Entity.toValue f ∈ others → (f.value member).isDefault = false) :
    Raised member items others where
  complete := hcomplete
  rising := by
    have hnone : given member items others = [] := by
      refine List.eq_nil_iff_forall_not_mem.2 fun value hvalue ↦ ?_
      obtain ⟨⟨item, other⟩, hpair, hgiven⟩ := List.mem_filterMap.1 hvalue
      obtain ⟨o, f, -, hother, -, rfl⟩ := givenTo_eq_some.1 hgiven
      have hf := hcomplete f (hother ▸ (List.of_mem_zip hpair).2)
      exact absurd (h _ hvalue) (by simp [hf])
    exact ⟨[], by rw [hnone]; rfl, .nil, by simp⟩

/-- The numbers of a key in a collection: the items keep those that they had, and all others get
rising ones above them. -/
structure Property.Numbering (p : Property) (items others : List Value) : Prop
    extends Raised p.name items others where
  kept : List.Forall₂ (fun item other ↦ ∀ o f : Entity, item = o.toValue → other = f.toValue →
    (o.value p.name).isDefault = false → (o.value p.name).IsPlain →
      f.value p.name = o.value p.name) items others

/-- The second entity is the first one with generated values for keys that had none. -/
inductive IdSource.Keyed (ids : IdSource) (t : EntityType) : Entity → Entity → Prop
  | refl (e : Entity) : Keyed ids t e e
  | generate {e f : Entity} {p : Property} {number : Nat} {value : Value} (hp : p ∈ t.keys)
      (hmissing : (e.value p.name).isDefault = true)
      (hvalue : ids.generate t p number = .ok value)
      (h : Keyed ids t (e.set p.name value) f) : Keyed ids t e f

namespace IdSource

variable {ids : IdSource} {t : EntityType}

theorem keyed_steps (keys : List Property) (hkeys : ∀ p ∈ keys, p ∈ t.keys) (e : Entity)
    (issued : Nat) : ids.Keyed t e (Progress.steps (ids.generateKey t) keys e issued).value := by
  induction keys generalizing e issued with
  | nil => exact .refl e
  | cons p rest ih =>
    obtain ⟨hp, hrest⟩ := List.forall_mem_cons.1 hkeys
    rw [Progress.steps]
    unfold generateKey
    split
    · next hmissing =>
      cases hvalue : ids.generate t p issued with
      | ok value => exact .generate hp hmissing hvalue (ih hrest _ _)
      | error fault => exact .refl e
    · exact ih hrest e issued

theorem Keyed.passedInside {e f : Entity} (h : ids.Keyed t e f) :
    Value.PassedInside e.toValue f.toValue := by
  induction h with
  | refl => exact .refl _
  | generate _ hmissing _ _ ih => exact (Value.PassedInside.set_missing _ hmissing).trans ih

end IdSource

namespace ChangeEntry

/-- What building a change set makes of an entry whose entity is written. -/
structure Finished (ids : IdSource) (e built : ChangeEntry) : Prop where
  /-- Only the entity may change. -/
  entity : built = { e with current := built.current }
  /-- Missing keys are generated for added entities, and numbers are given in passes. -/
  passes : ∃ keyed, ids.Keyed e.type e.current keyed ∧ (e.state = .modified → keyed = e.current) ∧
    Numbered e.type keyed.toValue built.current.toValue
  /-- Every item of an owned collection has its numbers. -/
  numbered : e.type.AllItems HasNumbers built.current
  /-- Every owned collection is in its place, with the numbers that its items had. -/
  collections : ∀ place n, e.type.Reaches place n → ∀ container items,
    e.current.toValue.at? place = some (.collection container items) →
      ∃ others, built.current.toValue.at? place = some (.collection container others) ∧
        ∀ p ∈ n.target.ordinalKeys, p.Numbering items others

variable {ids : IdSource} {e built : ChangeEntry} {collection : String} {s : KeyState}

/-- Passes leave numbers that rise in every collection, once all items have theirs. -/
theorem finished_of_passes (hentity : built = { e with current := built.current }) {keyed : Entity}
    (hkeyed : ids.Keyed e.type e.current keyed) (hsame : e.state = .modified → keyed = e.current)
    (hpasses : Numbered e.type keyed.toValue built.current.toValue)
    (hnumbered : e.type.AllItems HasNumbers built.current) : e.Finished ids built where
  entity := hentity
  passes := ⟨keyed, hkeyed, hsame, hpasses⟩
  numbered := hnumbered
  collections := by
    intro place n hplace container items hat
    obtain ⟨others, hothers, hpassed⟩ :=
      (hkeyed.passedInside.trans hpasses.passedInside) place container items hat
    refine ⟨others, hothers, fun p hp ↦ ?_⟩
    have hcomplete : ∀ f, Entity.toValue f ∈ others → (f.value p.name).isDefault = false :=
      fun f hf ↦ hplace.allItems hnumbered hothers hf p hp
    have hraised : Raised p.name items others :=
      (hpassed.numbers p.name).elim (fun huntouched ↦ huntouched.raised hcomplete) id
    refine ⟨hraised, hpassed.completes.imp fun item other hitem o f ho hf hvalue hplain ↦ ?_⟩
    subst ho hf
    exact hitem.value_member hvalue hplain

theorem numbered_assignOrdinals (hcounters : s.ordinals.Below)
    (hdone : (e.assignOrdinals collection s).fault = none)
    (hbelow : e.type.AllItems BelowGreatest (e.assignOrdinals collection s).value.current) :
    Numbered e.type e.current.toValue (e.assignOrdinals collection s).value.current.toValue := by
  unfold assignOrdinals at hdone hbelow ⊢
  cases hkey : e.type.keyValue e.current with
  | error fault =>
    rw [hkey] at hdone
    cases hdone
  | ok key =>
    rw [hkey] at hdone hbelow
    exact e.type.numbersInPasses _ _ _ hcounters hdone hbelow

/-- Completing the keys of an entry that is written finishes it. -/
theorem finished_completeKeys (hcounters : s.ordinals.Below)
    (hdone : (e.completeKeys ids collection s).fault = none)
    (hbelow : e.IsWritten →
      e.type.AllItems BelowGreatest (e.completeKeys ids collection s).value.current) :
    (e.IsWritten → e.Finished ids (e.completeKeys ids collection s).value) ∧
      (e.completeKeys ids collection s).state.ordinals.Below := by
  have hentity : (e.completeKeys ids collection s).value =
      { e with current := (e.completeKeys ids collection s).value.current } := by
    obtain ⟨current, hvalue⟩ := e.completeKeys_value ids collection s
    rw [hvalue]
  unfold completeKeys at hdone hbelow hentity ⊢
  unfold IsWritten at hbelow ⊢
  cases hstate : e.state with
  | added =>
    rw [hstate] at hdone hbelow hentity
    dsimp only at hdone hbelow hentity ⊢
    obtain ⟨-, hnext⟩ := Progress.andThen_done hdone
    rw [hnext] at hdone hbelow hentity ⊢
    have hmiddle : (e.generateKeys ids s).state.ordinals.Below := hcounters
    have hpasses := numbered_assignOrdinals hmiddle hdone (hbelow (.inl rfl))
    obtain ⟨hnumbered, hlast⟩ := assignOrdinals_numbers hmiddle hdone (hbelow (.inl rfl))
    have hkeyed : ids.Keyed e.type e.current (e.generateKeys ids s).value.current :=
      IdSource.keyed_steps e.type.keys (fun _ hp ↦ hp) e.current s.issued
    rw [← hstate] at hentity
    exact ⟨fun _ ↦ finished_of_passes hentity hkeyed (by simp [hstate]) hpasses hnumbered, hlast⟩
  | modified =>
    rw [hstate] at hdone hbelow hentity
    dsimp only at hdone hbelow hentity ⊢
    have hpasses := numbered_assignOrdinals hcounters hdone (hbelow (.inr rfl))
    obtain ⟨hnumbered, hlast⟩ := assignOrdinals_numbers hcounters hdone (hbelow (.inr rfl))
    rw [← hstate] at hentity
    exact ⟨fun _ ↦ finished_of_passes hentity (.refl _) (fun _ ↦ rfl) hpasses hnumbered, hlast⟩
  | detached | unchanged | deleted => exact ⟨by simp, hcounters⟩

end ChangeEntry

namespace ChangeSet

variable {ids : IdSource} {entry : Nat} {before : ChangeSet} {s : KeyState}

theorem contribute_finishes {e built : ChangeEntry} {after : ChangeSet} {next : KeyState}
    (hcounters : s.ordinals.Below)
    (h : e.contribute ids entry before s = (built, next, .ok after))
    (hbelow : built.IsWritten → built.type.AllItems BelowGreatest built.current) :
    (e.IsWritten → e.Finished ids built) ∧ next.ordinals.Below := by
  obtain ⟨collection, commands, hcollection, hdone, -, -, -⟩ :=
    contribute_commands (congrArg (·.2.2) h)
  rw [contribute_eq hcollection hdone] at h
  obtain ⟨rfl, hrest⟩ := Prod.mk.inj h
  obtain ⟨rfl, -⟩ := Prod.mk.inj hrest
  refine ChangeEntry.finished_completeKeys hcounters hdone fun hwritten ↦ ?_
  obtain ⟨current, hvalue⟩ := e.completeKeys_value ids collection s
  rw [hvalue] at hbelow ⊢
  exact hbelow hwritten

theorem buildFrom_finishes {entries : List ChangeEntry} (hcounters : s.ordinals.Below)
    {changes : ChangeSet} (h : (buildFrom ids entry before s entries).outcome = .ok changes)
    (hbelow : ∀ e ∈ (buildFrom ids entry before s entries).entries, e.IsWritten →
      e.type.AllItems BelowGreatest e.current) :
    List.Forall₂ (fun e built ↦ e.IsWritten → e.Finished ids built) entries
      (buildFrom ids entry before s entries).entries := by
  induction entries generalizing entry before s with
  | nil => exact .nil
  | cons e rest ih =>
    rcases hcontribute : e.contribute ids entry before s with ⟨built, next, fault | middle⟩
    · rw [buildFrom, hcontribute] at h
      cases h
    · rw [buildFrom_cons hcontribute] at h hbelow ⊢
      obtain ⟨hfirst, hbelow⟩ := List.forall_mem_cons.1 hbelow
      obtain ⟨hfinished, hnext⟩ := contribute_finishes hcounters hcontribute hfirst
      exact .cons hfinished (ih hnext h hbelow)

/-- A change set that is built leaves every written entity with all numbers, those that it had and
rising new ones above them, and nothing but generated keys and numbers has changed in it. -/
theorem build_finishes {issued : Nat} {entries : List ChangeEntry} {changes : ChangeSet}
    (h : (build ids issued entries).outcome = .ok changes)
    (hbelow : ∀ e ∈ (build ids issued entries).entries, e.IsWritten →
      e.type.AllItems BelowGreatest e.current) :
    List.Forall₂ (fun e built ↦ e.IsWritten → e.Finished ids built) entries
      (build ids issued entries).entries :=
  buildFrom_finishes OrdinalCounters.below_nil h hbelow

/-! ## Saturn and its satellites -/

/-- Saturn under a given key. -/
def ringed (satellites : List Value) : ChangeEntry :=
  .added orbited (saturn (.guid ⟨lowBits 128 1⟩) satellites)

/-- Satellites of one planet in two entries. -/
def sighted : List ChangeEntry :=
  [ringed [named "Titan" (.int32 4), named "Rhea" .null, named "Dione" .null],
    ringed [named "Tethys" .null]]

def catalogued : List ChangeEntry :=
  [ringed [named "Titan" (.int32 4), named "Rhea" (.int32 5), named "Dione" (.int32 6)],
    ringed [named "Tethys" (.int32 7)]]

theorem orbited_allItems {P : EntityType → Entity → Prop} {id : Value} {satellites : List Value}
    (h : ∀ o, Entity.toValue o ∈ satellites → P satellite o) :
    orbited.AllItems P (saturn id satellites) := by
  refine List.forall_mem_singleton.2 (Navigation.allItems_collection.2 fun o ho ↦ ⟨h o ho, ?_⟩)
  simp [EntityType.AllItems, satellite]

/-- The second entry goes on with the numbers of the first. -/
theorem build_finishes_sighted :
    (∃ changes, (build ones 0 sighted).outcome = .ok changes) ∧
      (∀ e ∈ (build ones 0 sighted).entries, e.IsWritten →
        e.type.AllItems BelowGreatest e.current) ∧
      (build ones 0 sighted).entries = catalogued ∧
      ∀ p ∈ satellite.ordinalKeys,
        p.Numbering [named "Titan" (.int32 4), named "Rhea" .null, named "Dione" .null]
            [named "Titan" (.int32 4), named "Rhea" (.int32 5), named "Dione" (.int32 6)] ∧
          p.Numbering [named "Tethys" .null] [named "Tethys" (.int32 7)] := by
  have hbuilt : (build ones 0 sighted).entries = catalogued := rfl
  have hitem (name : String) (number : Int32) (hnumber : number.toInt ≠ greatestNumber) (o : Entity)
      (ho : o.toValue = named name (.int32 number)) : satellite.BelowGreatest o := by
    obtain rfl : o = ⟨"Satellite", [("Name", .string name), ("Number", .int32 number)]⟩ :=
      Entity.toValue_inj ho
    exact List.forall_mem_singleton.2 fun h ↦ hnumber (Option.some_inj.1 h)
  have hbelow : ∀ e ∈ (build ones 0 sighted).entries, e.IsWritten →
      e.type.AllItems BelowGreatest e.current := by
    rw [hbuilt]
    refine List.forall_mem_cons.2 ⟨fun _ ↦ orbited_allItems fun o ho ↦ ?_,
      List.forall_mem_singleton.2 fun _ ↦ orbited_allItems fun o ho ↦ ?_⟩
    · rcases List.mem_cons.1 ho with ho | ho
      · exact hitem _ _ (by decide) o ho
      rcases List.mem_cons.1 ho with ho | ho
      · exact hitem _ _ (by decide) o ho
      · exact hitem _ _ (by decide) o (List.mem_singleton.1 ho)
    · exact hitem _ _ (by decide) o (List.mem_singleton.1 ho)
  have hfinished : List.Forall₂ (fun e built ↦ e.IsWritten → e.Finished ones built) sighted
      (build ones 0 sighted).entries := build_finishes rfl hbelow
  rw [hbuilt] at hfinished
  obtain ⟨hfirst, hrest⟩ := List.forall₂_cons.1 hfinished
  obtain ⟨hsecond, -⟩ := List.forall₂_cons.1 hrest
  have hplace := EntityType.Reaches.navigation (t := orbited) List.mem_cons_self
  refine ⟨⟨_, rfl⟩, hbelow, hbuilt, fun p hp ↦ ⟨?_, ?_⟩⟩
  · obtain ⟨others, hothers, hnumbering⟩ := (hfirst (.inl rfl)).collections _ _ hplace .list _ rfl
    cases hothers
    exact hnumbering p hp
  · obtain ⟨others, hothers, hnumbering⟩ := (hsecond (.inl rfl)).collections _ _ hplace .list _ rfl
    cases hothers
    exact hnumbering p hp

/-- The number one, held as a decimal. -/
def decimalOne : Value := .decimal ⟨false, lowBits 96 1, ⟨0, by decide⟩⟩

def surveyed : List ChangeEntry := [ringed [named "Titan" decimalOne, named "Rhea" .null]]

/-- A number that is held as a decimal is given again: two satellites are stored under it. -/
theorem build_repeats :
    (build ones 0 surveyed).entries =
        [ringed [named "Titan" decimalOne, named "Rhea" (.int32 1)]] ∧
      ∃ changes, (build ones 0 surveyed).outcome = .ok changes ∧
        changes.commands.map (·.2.command) =
          [.insert [("_id", .binary 4 (Guid.bytes ⟨lowBits 128 1⟩)),
            ("Satellites", .array [.document [("Number", .int32 1), ("Name", .string "Titan")],
              .document [("Number", .int32 1), ("Name", .string "Rhea")]])]] :=
  ⟨rfl, _, rfl, rfl⟩

end ChangeSet

end DocMapping
