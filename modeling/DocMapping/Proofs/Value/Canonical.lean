import DocMapping.Comparer
import DocMapping.Proofs.Number.Normal
import DocMapping.Proofs.Value.Equality

/-!
# Canonical Values

The canonical form of a value forgets what equality by structure and the bytes of a value do not
see: the containers of collections, the zeros at the end of decimals and the sign of a zero.  Equal
values have one canonical form, and values without records are equal if they have one.  A value
contributes the bytes of its canonical form to a hash, so that equal values contribute the same.
-/

namespace DocMapping

namespace Association

theorem lookup_map {α β γ : Type} [DecidableEq α] (f : β → γ) (l : List (α × β)) (key : α) :
    (l.map fun entry ↦ (entry.1, f entry.2)).lookup key = (l.lookup key).map f := by
  induction l with
  | nil => rfl
  | cons entry rest ih =>
    obtain ⟨name, value⟩ := entry
    rw [List.map_cons, lookup_cons, lookup_cons, ih]
    split <;> rfl

end Association

namespace Binary64

/-- The same number, zero without its sign. -/
def canonical (x : Binary64) : Binary64 := if x.isZero then zero false else x

theorem isZero_canonical (x : Binary64) : x.canonical.isZero = x.isZero := by
  unfold canonical
  cases h : x.isZero with
  | true => rfl
  | false => exact h

theorem canonical_eq_iff {x y : Binary64} :
    x.canonical = y.canonical ↔ (x == y || x.numericEq y) = true := by
  rw [Bool.or_eq_true, beq_iff_eq, numericEq_iff_bits]
  constructor
  · intro h
    have hzero : x.isZero = y.isZero := by rw [← isZero_canonical, h, isZero_canonical]
    by_cases hx : x.isZero = true
    · have hnumber {z : Binary64} (hz : z.isZero = true) : z.isNaN = false := by
        obtain ⟨hexponent, -⟩ := of_decide_eq_true hz
        exact decide_eq_false fun hnan ↦ by omega
      have hy : y.isZero = true := hzero ▸ hx
      exact .inr ⟨hnumber hx, hnumber hy, .inl ⟨hx, hy⟩⟩
    · have hy : ¬y.isZero = true := hzero ▸ hx
      unfold canonical at h
      rw [if_neg hx, if_neg hy] at h
      exact .inl h
  · unfold canonical
    rintro (rfl | ⟨-, -, ⟨hx, hy⟩ | rfl⟩)
    · rfl
    · rw [if_pos hx, if_pos hy]
    · rfl

end Binary64

namespace Value

mutual

/-- The value without what equality by structure does not see. -/
def canonical : Value → Value
  | double value => double value.canonical
  | decimal value => decimal value.normalize
  | collection _ items => collection .array (canonicalItems items)
  | entity type members => entity type (canonicalFields members)
  | record shape fields => record shape (canonicalFields fields)
  | other => other

def canonicalItems : List Value → List Value
  | [] => []
  | item :: rest => canonical item :: canonicalItems rest

def canonicalFields : List (String × Value) → List (String × Value)
  | [] => []
  | (name, value) :: rest => (name, canonical value) :: canonicalFields rest

end

theorem canonicalFields_eq_map (fields : List (String × Value)) :
    canonicalFields fields = fields.map fun entry ↦ (entry.1, entry.2.canonical) := by
  induction fields with
  | nil => rfl
  | cons entry rest ih => rw [canonicalFields, ih, List.map_cons]

/-! ## Equal values -/

theorem canonical_of_strictEq_all :
    (∀ a b : Value, a.strictEq b = true → a.canonical = b.canonical) ∧
    (∀ as bs : List (String × Value), strictEqFields as bs = true →
      canonicalFields as = canonicalFields bs) ∧
    (∀ as bs : List Value, strictEqItems as bs = true → canonicalItems as = canonicalItems bs) := by
  apply strictEq.mutual_induct
  case case5 =>
    intro a b h
    rw [strictEq] at h
    rw [canonical, canonical, Binary64.canonical_eq_iff.2 (by rw [h, Bool.or_true])]
  case case6 =>
    intro a b h
    rw [strictEq] at h
    rw [canonical, canonical, Decimal.normalize_eq_iff.2 h]
  case case15 =>
    intro c as d bs ih h
    rw [strictEq, Bool.and_eq_true] at h
    rw [canonical, canonical, ih h.2]
  case case16 | case17 =>
    intro _ _ _ _ ih h
    rw [strictEq, Bool.and_eq_true, beq_iff_eq] at h
    rw [canonical, canonical, h.1, ih h.2]
  case case20 =>
    intro a as b bs iha ihas h
    rw [strictEqItems, Bool.and_eq_true] at h
    rw [canonicalItems, canonicalItems, iha h.1, ihas h.2]
  case case23 =>
    intro m a as n b bs iha ihas h
    rw [strictEqFields, Bool.and_eq_true, Bool.and_eq_true, beq_iff_eq] at h
    rw [canonicalFields, canonicalFields, h.1.1, iha h.1.2, ihas h.2]
  case case19 | case22 => exact fun _ ↦ rfl
  -- values of different sorts, lists of different lengths
  case case18 | case21 | case24 =>
    intros
    simp_all [strictEq, strictEqItems, strictEqFields]
  all_goals
    intros
    simp_all [strictEq]

/-- Entities with the same names have one canonical form if their members have. -/
theorem canonical_of_lookup {type : String} {members others : List (String × Value)}
    (hmembers : (Entity.mk type members).Sorted) (hothers : (Entity.mk type others).Sorted)
    (hlength : members.length = others.length)
    (h : ∀ entry ∈ members, ∃ other, others.lookup entry.1 = some other ∧
      entry.2.canonical = other.canonical) :
    canonicalFields members = canonicalFields others := by
  have hback := Association.exists_lookup_of_length_eq
    (r := fun x y : Value ↦ x.canonical = y.canonical) hmembers.nodup hothers.nodup hlength h
  have hsorted {list : List (String × Value)} (hlist : (Entity.mk type list).Sorted) :
      (Entity.mk type (canonicalFields list)).Sorted := by
    rw [canonicalFields_eq_map]
    exact List.pairwise_map.2 hlist
  have hentity : Entity.mk type (canonicalFields members) =
      Entity.mk type (canonicalFields others) := by
    refine (hsorted hmembers).ext (hsorted hothers) rfl fun member ↦ ?_
    change List.lookup _ _ = List.lookup _ _
    rw [canonicalFields_eq_map, canonicalFields_eq_map, Association.lookup_map,
      Association.lookup_map]
    cases hmember : members.lookup member with
    | some value =>
      obtain ⟨other, hother, hequal⟩ := h _ (Association.mem_of_lookup hmember)
      rw [hother, Option.map_some, Option.map_some, hequal]
    | none =>
      cases hother : others.lookup member with
      | none => rfl
      | some other =>
        obtain ⟨value, hvalue, -⟩ := hback _ (Association.mem_of_lookup hother)
        cases hmember.symm.trans hvalue
  exact congrArg Entity.members hentity

theorem canonical_of_structuralEq_all :
    (∀ a b : Value, a.Sorted → b.Sorted → a.structuralEq b = true → a.canonical = b.canonical) ∧
    (∀ members others : List (String × Value), SortedMembers members → SortedMembers others →
      ∀ entry ∈ members, ∀ other, others.lookup entry.1 = some other →
        entry.2.structuralEq other = true → entry.2.canonical = other.canonical) ∧
    (∀ as bs : List Value, SortedItems as → SortedItems bs → structuralEqItems as bs = true →
      canonicalItems as = canonicalItems bs) := by
  apply structuralEq.mutual_induct
  case case1 =>
    intro a b _ _ h
    rw [structuralEq] at h
    rw [canonical, canonical, Binary64.canonical_eq_iff.2 h]
  case case2 =>
    intro _ as _ bs ih ha hb h
    rw [structuralEq] at h
    rw [canonical, canonical, ih ha hb h]
  case case3 =>
    intro t as u bs ih ha hb h
    rw [structuralEq, Bool.and_eq_true, Bool.and_eq_true, beq_iff_eq, beq_iff_eq,
      structuralEqMembers_iff] at h
    obtain ⟨⟨rfl, hlength⟩, hmembers⟩ := h
    rw [canonical, canonical, canonical_of_lookup ha.1 hb.1 hlength]
    intro entry hentry
    obtain ⟨other, hother, hequal⟩ := hmembers entry hentry
    exact ⟨other, hother, ih ha.2 hb.2 entry hentry other hother hequal⟩
  case case4 =>
    intro a b _ _ _ _ _ h
    rw [structuralEq] at h
    · exact canonical_of_strictEq_all.1 a b h
    all_goals assumption
  case case5 => exact fun _ _ _ ↦ rfl
  case case6 =>
    intro a as b bs iha ihas ha hb h
    rw [structuralEqItems, Bool.and_eq_true] at h
    rw [canonicalItems, canonicalItems, iha ha.1 hb.1 h.1, ihas ha.2 hb.2 h.2]
  case case7 =>
    intros
    simp_all [structuralEqItems]
  case case8 =>
    intro _ _ _ entry hentry
    cases hentry
  case case9 =>
    intro name a rest others iha ihrest ha hothers entry hentry other hother
    rcases List.mem_cons.1 hentry with rfl | hentry
    · exact iha other ha.1 (sortedMembers_iff.1 hothers _ (Association.mem_of_lookup hother))
    · exact ihrest ha.2 hothers entry hentry other hother

theorem canonical_of_structuralEq {a b : Value} (ha : a.Sorted) (hb : b.Sorted)
    (h : a.structuralEq b = true) : a.canonical = b.canonical :=
  canonical_of_structuralEq_all.1 a b ha hb h

/-! ## Values without records -/

mutual

/-- No record is in the value.  Equality inside of a record is the strict one, for which not even a
number that is none equals itself. -/
def RecordFree : Value → Prop
  | record _ _ => False
  | collection _ items => RecordFreeItems items
  | entity _ members => RecordFreeMembers members
  | _ => True

def RecordFreeItems : List Value → Prop
  | [] => True
  | item :: rest => item.RecordFree ∧ RecordFreeItems rest

def RecordFreeMembers : List (String × Value) → Prop
  | [] => True
  | (_, value) :: rest => value.RecordFree ∧ RecordFreeMembers rest

end

/-- Outside of doubles, collections and entities, values with one canonical form are strictly equal. -/
theorem strictEq_of_canonical {a b : Value} (hfree : a.RecordFree)
    (hdoubles : ∀ x y, a = double x → b = double y → False)
    (hcollections : ∀ c as d bs, a = collection c as → b = collection d bs → False)
    (hentities : ∀ t as u bs, a = entity t as → b = entity u bs → False)
    (h : a.canonical = b.canonical) : a.strictEq b = true := by
  cases a with
  | decimal a =>
    cases b with
    | decimal b =>
      rw [canonical, canonical] at h
      rw [strictEq, Decimal.normalize_eq_iff.1 (decimal.inj h)]
    | _ => cases h
  | double a =>
    cases b with
    | double b => exact (hdoubles a b rfl rfl).elim
    | _ => cases h
  | collection c items =>
    cases b with
    | collection d others => exact (hcollections c items d others rfl rfl).elim
    | _ => cases h
  | entity t members =>
    cases b with
    | entity u others => exact (hentities t members u others rfl rfl).elim
    | _ => cases h
  | record => exact hfree.elim
  | _ =>
    cases b <;> cases h
    simp [strictEq]

/-- Where members have one canonical form, each is among the others with its own. -/
theorem lookup_of_canonicalFields {type : String} {members others : List (String × Value)}
    (hmembers : (Entity.mk type members).Sorted)
    (h : canonicalFields members = canonicalFields others) {entry : String × Value}
    (hentry : entry ∈ members) :
    ∃ other, others.lookup entry.1 = some other ∧ entry.2.canonical = other.canonical := by
  rw [canonicalFields_eq_map, canonicalFields_eq_map] at h
  have hlookup := congrArg (List.lookup entry.1) h
  rw [Association.lookup_map, Association.lookup_map,
    Association.lookup_of_mem hmembers.nodup hentry] at hlookup
  obtain ⟨other, hother, hequal⟩ := Option.map_eq_some_iff.1 hlookup.symm
  exact ⟨other, hother, hequal.symm⟩

theorem structuralEq_of_canonical_all :
    (∀ a b : Value, a.RecordFree → a.Sorted → b.Sorted → a.canonical = b.canonical →
      a.structuralEq b = true) ∧
    (∀ members others : List (String × Value), RecordFreeMembers members → SortedMembers members →
      SortedMembers others → ∀ entry ∈ members, ∀ other, others.lookup entry.1 = some other →
        entry.2.canonical = other.canonical → entry.2.structuralEq other = true) ∧
    (∀ as bs : List Value, RecordFreeItems as → SortedItems as → SortedItems bs →
      canonicalItems as = canonicalItems bs → structuralEqItems as bs = true) := by
  apply structuralEq.mutual_induct
  case case1 =>
    intro a b _ _ _ h
    rw [canonical, canonical] at h
    rw [structuralEq, Binary64.canonical_eq_iff.1 (double.inj h)]
  case case2 =>
    intro _ as _ bs ih hfree ha hb h
    rw [canonical, canonical] at h
    rw [structuralEq, ih hfree ha hb (collection.inj h).2]
  case case3 =>
    intro t as u bs ih hfree ha hb h
    rw [canonical, canonical] at h
    obtain ⟨rfl, hfields⟩ := entity.inj h
    have hlength : as.length = bs.length := by
      simpa [canonicalFields_eq_map] using congrArg List.length hfields
    rw [structuralEq, Bool.and_eq_true, Bool.and_eq_true, beq_iff_eq, beq_iff_eq,
      structuralEqMembers_iff]
    refine ⟨⟨rfl, hlength⟩, fun entry hentry ↦ ?_⟩
    obtain ⟨other, hother, hequal⟩ := lookup_of_canonicalFields ha.1 hfields hentry
    exact ⟨other, hother, ih hfree ha.2 hb.2 entry hentry other hother hequal⟩
  case case4 =>
    intro a b hdoubles hcollections hentities hfree _ _ h
    rw [structuralEq]
    · exact strictEq_of_canonical hfree hdoubles hcollections hentities h
    all_goals assumption
  case case5 => exact fun _ _ _ _ ↦ rfl
  case case6 =>
    intro a as b bs iha ihas hfree ha hb h
    rw [canonicalItems, canonicalItems] at h
    obtain ⟨hitem, hrest⟩ := List.cons.inj h
    rw [structuralEqItems, iha hfree.1 ha.1 hb.1 hitem, ihas hfree.2 ha.2 hb.2 hrest]
    rfl
  case case7 =>
    intro as bs hnil hcons _ _ _ h
    cases as with
    | nil =>
      cases bs with
      | nil => exact absurd rfl (hnil rfl)
      | cons => cases h
    | cons a as =>
      cases bs with
      | nil => cases h
      | cons b bs => exact (hcons a as b bs rfl rfl).elim
  case case8 =>
    intro _ _ _ _ entry hentry
    cases hentry
  case case9 =>
    intro name a rest others iha ihrest hfree ha hothers entry hentry other hother
    rcases List.mem_cons.1 hentry with rfl | hentry
    · have hsorted := sortedMembers_iff.1 hothers _ (Association.mem_of_lookup hother)
      exact iha other hfree.1 ha.1 hsorted
    · exact ihrest hfree.2 ha.2 hothers entry hentry other hother

/-- Values without records are equal if they have one canonical form. -/
theorem structuralEq_iff_canonical {a b : Value} (hfree : a.RecordFree) (ha : a.Sorted)
    (hb : b.Sorted) : a.structuralEq b = true ↔ a.canonical = b.canonical :=
  ⟨canonical_of_structuralEq ha hb, structuralEq_of_canonical_all.1 a b hfree ha hb⟩

/-! ## Digests -/

theorem digest_double_canonical (x : Binary64) :
    (double x.canonical).digest = (double x).digest := by
  rw [digest, digest, Binary64.isZero_canonical]
  by_cases h : x.isZero = true
  · rw [if_pos h, if_pos h]
  · unfold Binary64.canonical
    rw [if_neg h, if_neg h, if_neg h]

theorem decimalBytes_normalize (d : Decimal) : decimalBytes d.normalize = decimalBytes d := by
  have hidem : d.normalize.normalize = d.normalize := by
    apply Decimal.normalize_eq_iff.2
    rw [Decimal.numericEq_comm, d.numericEq_normalize]
  unfold decimalBytes
  rw [hidem]

theorem digest_canonical_all :
    (∀ v : Value, v.canonical.digest = v.digest) ∧
    (∀ fields : List (String × Value),
      digestFields (canonicalFields fields) = digestFields fields) ∧
    (∀ items : List Value, (canonicalItems items).length = items.length ∧
      digestItems (canonicalItems items) = digestItems items) := by
  apply canonical.mutual_induct
  case case1 => exact digest_double_canonical
  case case2 =>
    intro d
    rw [canonical, digest, digest, decimalBytes_normalize]
  case case3 =>
    intro container items ih
    rw [canonical, digest, digest, ih.1, ih.2]
  case case4 | case5 =>
    intro _ fields ih
    rw [canonical, digest, digest, ih]
  case case6 =>
    intro v _ _ _ _ _
    rw [canonical] <;> assumption
  case case7 => exact ⟨rfl, rfl⟩
  case case8 =>
    intro item rest ihitem ihrest
    rw [canonicalItems, digestItems, digestItems, ihitem, ihrest.2, List.length_cons, ihrest.1]
    exact ⟨rfl, rfl⟩
  case case9 => rfl
  case case10 =>
    intro name value rest ihvalue ihrest
    rw [canonicalFields, digestFields, digestFields, ihvalue, ihrest]

/-- Equal values contribute the same bytes. -/
theorem digest_of_structuralEq {a b : Value} (ha : a.Sorted) (hb : b.Sorted)
    (h : a.structuralEq b = true) : a.digest = b.digest := by
  calc
    a.digest = a.canonical.digest := (digest_canonical_all.1 a).symm
    _ = b.canonical.digest := by rw [canonical_of_structuralEq ha hb h]
    _ = b.digest := digest_canonical_all.1 b

end Value

end DocMapping
