import DocMapping.Proofs.Codec.Legible
import DocMapping.Proofs.Codec.Reading

/-!
# Documents that Can Be Read

Not every document that was written can be read.  Writing accepts null for every property, and moves
numbers and times into forms that reading refuses; navigations are read wherever they were written.
So the document of an entity is read exactly if each of its properties is, at every depth of owned
entities.
-/

namespace DocMapping

/-- Members that are set one after the other to what is read for them: all is read, or nothing. -/
theorem Entity.exists_foldlM_set {α : Type} (name : α → String) {read : α → Outcome Value}
    {items : List α} (start : Entity) :
    (∃ e, items.foldlM (fun e item ↦ (read item).map (e.set (name item))) start = .ok e) ↔
      ∀ item ∈ items, ∃ value, read item = .ok value := by
  induction items generalizing start with
  | nil => exact ⟨fun _ ↦ by simp, fun _ ↦ ⟨start, rfl⟩⟩
  | cons item rest ih =>
    rw [List.forall_mem_cons]
    constructor
    · rintro ⟨e, he⟩
      obtain ⟨next, hnext, hrest⟩ := Outcome.bind_eq_ok.1 he
      obtain ⟨value, hvalue, rfl⟩ := Outcome.map_eq_ok.1 hnext
      exact ⟨⟨value, hvalue⟩, (ih _).1 ⟨e, hrest⟩⟩
    · rintro ⟨⟨value, hvalue⟩, hrest⟩
      obtain ⟨e, he⟩ := (ih (start.set (name item) value)).2 hrest
      exact ⟨e, Outcome.bind_eq_ok.2 ⟨_, Outcome.map_eq_ok.2 ⟨value, hvalue, rfl⟩, he⟩⟩

namespace EntityType

/-- Every property has a value that can be read once it is stored, also in owned entities. -/
inductive Legible : EntityType → Entity → Prop
  | mk {t : EntityType} {e : Entity}
      (properties : ∀ p ∈ t.properties, p.Legible (e.value p.name))
      (owned : ∀ n ∈ t.navigations, ∀ o ∈ (e.value n.name).owned, Legible n.target o) :
      Legible t e

theorem legible_iff {t : EntityType} {e : Entity} :
    t.Legible e ↔ (∀ p ∈ t.properties, p.Legible (e.value p.name)) ∧
      ∀ n ∈ t.navigations, ∀ o ∈ (e.value n.name).owned, n.target.Legible o :=
  ⟨fun ⟨hproperties, howned⟩ ↦ ⟨hproperties, howned⟩, fun h ↦ .mk h.1 h.2⟩

variable {t : EntityType} {e : Entity} {document : Document}

/-- An entity is read if all its members are. -/
theorem exists_decode_iff : (∃ back, t.decode document = .ok back) ↔
    (∀ p ∈ t.properties, ∃ value, t.readProperty document p = .ok value) ∧
      ∀ n ∈ t.navigations, ∃ value, t.readNavigation document n = .ok value := by
  rw [decode_eq, ← Entity.exists_foldlM_set Property.name (Entity.empty t.name),
    ← decodeProperties_eq]
  constructor
  · rintro ⟨back, hback⟩
    obtain ⟨between, hbetween, hback⟩ := Outcome.bind_eq_ok.1 hback
    rw [decodeNavigations_eq] at hback
    exact ⟨⟨between, hbetween⟩, (Entity.exists_foldlM_set Navigation.name between).1 ⟨back, hback⟩⟩
  · rintro ⟨⟨between, hbetween⟩, hnavigations⟩
    obtain ⟨back, hback⟩ :=
      (Entity.exists_foldlM_set Navigation.name between).2 hnavigations
    rw [← decodeNavigations_eq] at hback
    exact ⟨back, Outcome.bind_eq_ok.2 ⟨between, hbetween, hback⟩⟩

/-- What a navigation holds is read if every owned entity is. -/
theorem decodeNavigation_iff {n : Navigation EntityType} {value : Value} {stored : Bson}
    (hstored : encodeNavigation n value = .ok stored) {legible : Entity → Prop}
    (h : ∀ o ∈ value.owned, ∀ document, n.target.encode o = .ok document →
      ((∃ back, n.target.decode document = .ok back) ↔ legible o)) :
    (∃ back, decodeNavigation n stored = .ok back) ↔ ∀ o ∈ value.owned, legible o := by
  obtain ⟨name, element, target, container, nullable⟩ := n
  unfold encodeNavigation at hstored
  split at hstored
  · cases hstored
    refine iff_of_true ⟨.null, by rw [decodeNavigation]⟩ fun o ho ↦ ?_
    cases ho
  · next type members =>
    obtain ⟨document, hdocument, rfl⟩ := Outcome.map_eq_ok.1 hstored
    have hread := h ⟨type, members⟩ List.mem_cons_self document hdocument
    rw [decodeNavigation]
    change _ ↔ ∀ o ∈ [Entity.mk type members], legible o
    rw [List.forall_mem_singleton, ← hread]
    exact Outcome.exists_map_iff
  · next form items container =>
    obtain ⟨results, hresults, rfl⟩ := Outcome.map_eq_ok.1 hstored
    have hitems := Outcome.mapM_eq_ok.1 hresults
    rw [decodeNavigation, Outcome.exists_map_iff, Outcome.exists_mapM_iff]
    constructor
    · intro hread o ho
      obtain ⟨item, hitem, howner⟩ := List.mem_filterMap.1 ho
      obtain ⟨stored, hmem, hencode⟩ := Outcome.exists_right hitems hitem
      rw [Value.eq_toValue howner] at hencode
      obtain ⟨document, hdocument, rfl⟩ := Outcome.map_eq_ok.1 hencode
      exact (h o ho document hdocument).1 (Outcome.exists_map_iff.1 (hread _ hmem))
    · intro hlegible stored hmem
      obtain ⟨item, hitem, hencode⟩ := Outcome.exists_left hitems hmem
      cases item with
      | entity type members =>
        obtain ⟨document, hdocument, rfl⟩ := Outcome.map_eq_ok.1 hencode
        have ho : Entity.mk type members ∈ (Value.collection form items).owned :=
          List.mem_filterMap.2 ⟨_, hitem, rfl⟩
        exact Outcome.exists_map_iff.2 ((h _ ho document hdocument).2 (hlegible _ ho))
      | _ => cases hencode
  · cases hstored

/-- The document of an entity is read exactly if the values of all its properties are. -/
theorem WellFormed.decode_iff (h : t.WellFormed) (hkey : t.isOwned = false → t.KeyReadable)
    (hdocument : t.encode e = .ok document) :
    (∃ back, t.decode document = .ok back) ↔ t.Legible e := by
  induction h generalizing e document with
  | @mk t distinct valid keys owned targets ih =>
    have hwell : t.WellFormed := .mk distinct valid keys owned targets
    have hidentified : t.Identified := ⟨hwell, fun hroot ↦ (hkey hroot).hasId⟩
    rw [exists_decode_iff, legible_iff]
    refine and_congr (forall₂_congr fun p hp ↦ ?_) (forall₂_congr fun n hn ↦ ?_)
    · obtain ⟨stored, hstored, hlookup⟩ := hidentified.lookup_property hkey hdocument hp
      rw [readProperty, hlookup]
      exact Property.decode_iff hstored
    · obtain ⟨stored, hstored, hget⟩ := (hwell.encoded hdocument).navigation n hn
      rw [readNavigation, hget]
      refine decodeNavigation_iff hstored fun o ho document hdocument ↦ ?_
      have howned : n.target.isOwned = false → n.target.KeyReadable := fun hroot ↦ by
        rw [owned n hn] at hroot
        cases hroot
      exact ih n hn howned hdocument

/-- Whatever is written of an entity of an accepted model can be read again exactly if its values are
legible, if the key of a root type is read where it is written. -/
theorem decode_iff_legible {m : ModelDeclaration} {model : Model} (hmodel : m.build = .ok model)
    (ht : t ∈ model.entities) (hkey : t.isOwned = false → t.KeyReadable)
    (hdocument : t.encode e = .ok document) :
    (∃ back, t.decode document = .ok back) ↔ t.Legible e :=
  (ModelDeclaration.wellFormed_of_build hmodel t ht).decode_iff hkey hdocument

end EntityType

/-! ## Comets that were seen -/

namespace SeenComets

def declared (name : String) (kind : ScalarKind) (nullable : Bool) : PropertyDeclaration :=
  ⟨name, .scalar kind, none, nullable, .natural, .utc, false, false, .never, false, .eastern⟩

/-- Comets by name, which may have an orbit, with a number and with the time they were seen. -/
def comets : ModelDeclaration :=
  ⟨.asDeclared,
    [⟨"Orbit", true, none, [], [declared "Days" .int32 true], [], none⟩,
    ⟨"Comet", false, none, ["Name"],
      [declared "Name" .string false, declared "Number" .int32 false, declared "Seen" .time true],
      [⟨"Orbit", "Orbit", none, none, true⟩], none⟩]⟩

def name : Property := { Property.plain "Name" (.scalar .string) with element := idElement }

def number : Property := Property.plain "Number" (.scalar .int32)

def seen : Property := { Property.plain "Seen" (.scalar .time) with nullable := true }

def orbit : EntityType :=
  ⟨"Orbit", none, [{ Property.plain "Days" (.scalar .int32) with nullable := true }], [], [], none⟩

def comet : EntityType :=
  ⟨"Comet", some "Comet", [name, number, seen], [name],
    [⟨"Orbit", "Orbit", orbit, none, true⟩], none⟩

theorem keyReadable_comet : comet.isOwned = false → comet.KeyReadable :=
  fun _ ↦ ⟨fun _ ↦ by decide, fun h ↦ absurd h (by decide),
    by simp [comet, name, number, seen, Property.plain, EntityType.isKey]⟩

def halley (number : Value) : Entity :=
  ⟨"Comet", [("Name", .string "Halley"), ("Number", number)]⟩

def stored (number : Bson) : Document :=
  [("_id", .string "Halley"), ("Number", number), ("Seen", .null), ("Orbit", .null)]

theorem legible_halley : comet.Legible (halley (.int32 1)) := by
  refine .mk ?_ ?_
  · simp only [comet, List.forall_mem_cons, List.not_mem_nil, false_implies, implies_true, and_true]
    exact ⟨⟨fun hnull ↦ (by cases hnull), trivial⟩, Property.legible_int32 rfl 1, fun _ ↦ rfl, trivial⟩
  · simp only [comet, List.forall_mem_singleton]
    exact fun o ho ↦ by cases ho

theorem decode_iff_legible_halley :
    comets.build = .ok ⟨[orbit, comet]⟩ ∧ comet.encode (halley (.int32 1)) = .ok (stored (.int32 1)) ∧
      ∃ back, comet.decode (stored (.int32 1)) = .ok back := by
  have hbuild : comets.build = .ok ⟨[orbit, comet]⟩ := rfl
  have hdocument : comet.encode (halley (.int32 1)) = .ok (stored (.int32 1)) := rfl
  exact ⟨hbuild, hdocument, (EntityType.decode_iff_legible hbuild (by simp) keyReadable_comet
    hdocument).2 legible_halley⟩

/-- A number that was never set is stored as null, and then refused. -/
theorem written_unreadable :
    comets.build = .ok ⟨[orbit, comet]⟩ ∧ (comet.isOwned = false → comet.KeyReadable) ∧
      comet.encode (halley .null) = .ok (stored .null) ∧
      comet.decode (stored .null) = .error (.conversion "Number" .storedNull) :=
  ⟨rfl, keyReadable_comet, rfl, rfl⟩

end SeenComets

end DocMapping
