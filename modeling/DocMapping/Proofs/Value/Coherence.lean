import DocMapping.Proofs.Value.Canonical

/-!
# Comparers are Coherent

The equality, the digest and the snapshot of a comparer belong together.  A comparer is handed the
values of its own shape, and on those without records its equality is equality of canonical forms.
-/

namespace DocMapping

namespace Comparer

open Value

/-- The values of the shape of a comparer. -/
def Admits : Comparer → Value → Prop
  | scalar, _ => True
  | collection _ _, value => value.elements?.isSome = true ∨ value.isNull = true

/-- A value without records that a comparer is handed.  Its entities have their members in the order
of their names, as setting a member leaves them. -/
structure IsComparand (comparer : Comparer) (value : Value) : Prop where
  admitted : comparer.Admits value
  recordFree : value.RecordFree
  sorted : value.Sorted

/-- Nulls are told apart before items are compared, and equality by structure does the same. -/
theorem itemsEq_eq (elements : ElementComparison) (a b : Value) :
    itemsEq elements a b = a.structuralEq b := by
  cases elements with
  | value => rfl
  | nullableValue | reference =>
    unfold itemsEq
    cases a <;> cases b <;> simp [isNull, structuralEq, strictEq]

theorem sequencesEq_eq (elements : ElementComparison) (as bs : List Value) :
    sequencesEq elements as bs = structuralEqItems as bs := by
  induction as generalizing bs with
  | nil => cases bs <;> rfl
  | cons a as ih =>
    cases bs with
    | nil => rfl
    | cons b bs => rw [sequencesEq, structuralEqItems, itemsEq_eq, ih]

/-- A comparer of collections takes other values for equal only if both are null. -/
theorem structuralEq_of_equals {comparer : Comparer} {a b : Value}
    (h : comparer.equals a b = true) : a.structuralEq b = true := by
  cases comparer with
  | scalar => exact h
  | collection container elements =>
    unfold equals at h
    cases a with
    | null =>
      cases b with
      | null => rfl
      | _ => cases h
    | collection c items =>
      cases b with
      | collection d others =>
        rw [structuralEq, ← sequencesEq_eq elements]
        exact h
      | _ => cases h
    | _ => cases h

theorem equals_eq_structuralEq {comparer : Comparer} {a b : Value} (ha : comparer.Admits a)
    (hb : comparer.Admits b) : comparer.equals a b = a.structuralEq b := by
  cases comparer with
  | scalar => rfl
  | collection container elements =>
    unfold equals
    cases a with
    | null =>
      cases b with
      | null => rfl
      | collection => rfl
      | _ => exact (hb.elim Bool.false_ne_true Bool.false_ne_true).elim
    | collection c items =>
      cases b with
      | null => rfl
      | collection d others =>
        rw [structuralEq]
        exact sequencesEq_eq elements items others
      | _ => exact (hb.elim Bool.false_ne_true Bool.false_ne_true).elim
    | _ => exact (ha.elim Bool.false_ne_true Bool.false_ne_true).elim

variable {comparer : Comparer}

theorem IsComparand.equals_iff {a b : Value} (ha : comparer.IsComparand a)
    (hb : comparer.IsComparand b) :
    comparer.equals a b = true ↔ a.canonical = b.canonical := by
  rw [equals_eq_structuralEq ha.admitted hb.admitted]
  exact structuralEq_iff_canonical ha.recordFree ha.sorted hb.sorted

theorem IsComparand.container {c : Container} {items : List Value}
    (h : comparer.IsComparand (.collection c items)) (d : Container) :
    comparer.IsComparand (.collection d items) where
  admitted := by
    cases comparer with
    | scalar => trivial
    | collection => exact .inl rfl
  recordFree := h.recordFree
  sorted := h.sorted

/-- Equality is an equivalence of the comparands and says the same of items in either container,
equal values have one digest, records among them, and a snapshot is an equal comparand in the same
container. -/
theorem coherent (comparer : Comparer) :
    Equivalence (fun a b : {value : Value // comparer.IsComparand value} ↦
      comparer.equals a.1 b.1 = true) ∧
    (∀ (c d : Container) (items : List Value), comparer.IsComparand (.collection c items) →
      comparer.equals (.collection c items) (.collection d items) = true) ∧
    (∀ a b : Value, a.Sorted → b.Sorted → comparer.equals a b = true ∨ a.structuralEq b = true →
      comparer.digest a = comparer.digest b) ∧
    ∀ value : Value, comparer.IsComparand value →
      comparer.equals value (comparer.snapshot value) = true ∧
        comparer.IsComparand (comparer.snapshot value) ∧
        ∀ c items, value = .collection c items →
          ∃ copies, comparer.snapshot value = .collection c copies := by
  refine ⟨⟨?reflexive, ?symmetric, ?transitive⟩, ?containers, ?digests, ?snapshots⟩
  case reflexive =>
    intro a
    exact (a.2.equals_iff a.2).2 rfl
  case symmetric =>
    intro a b h
    exact (b.2.equals_iff a.2).2 ((a.2.equals_iff b.2).1 h).symm
  case transitive =>
    intro a b c hab hbc
    apply (a.2.equals_iff c.2).2
    calc
      a.1.canonical = b.1.canonical := (a.2.equals_iff b.2).1 hab
      _ = c.1.canonical := (b.2.equals_iff c.2).1 hbc
  case containers =>
    intro c d items h
    apply (h.equals_iff (h.container d)).2
    rw [canonical, canonical]
  case digests =>
    intro a b ha hb h
    have hequal : a.structuralEq b = true := h.elim structuralEq_of_equals id
    exact digest_of_structuralEq ha hb hequal
  case snapshots =>
    intro value h
    rw [comparer.snapshot_eq]
    exact ⟨(h.equals_iff h).2 rfl, h, fun c items hvalue ↦ ⟨items, hvalue⟩⟩

/-! ## A log of readings -/

def reading (depth : Value) : Value := .entity "Reading" [("Depth", depth), ("Note", .null)]

/-- Two and a half with one digit after the point. -/
def half : Value := .decimal ⟨false, lowBits 96 25, ⟨1, by decide⟩⟩

/-- The same number with two digits after the point. -/
def longHalf : Value := .decimal ⟨false, lowBits 96 250, ⟨2, by decide⟩⟩

/-- Readings of a sensor, one of them of no number. -/
def readings : Value :=
  .collection .array [reading (.double (.zero false)), reading half, .null,
    reading (.double (.nan false))]

/-- The same readings in a list, with the other zero and one more digit. -/
def rereadings : Value :=
  .collection .list [reading (.double (.zero true)), reading longHalf, .null,
    reading (.double (.nan false))]

/-- A record of one of the two zeros. -/
def logged (negative : Bool) : Value := .record .anonymous [("Depth", .double (.zero negative))]

theorem coherent_readings :
    (collection .array .reference).IsComparand readings ∧
      (collection .array .reference).IsComparand rereadings ∧
      (collection .array .reference).equals readings rereadings = true ∧
      (collection .array .reference).equals rereadings readings = true ∧
      (collection .array .reference).digest readings =
        (collection .array .reference).digest rereadings ∧
      (collection .array .reference).equals readings
        ((collection .array .reference).snapshot readings) = true ∧
      scalar.equals (logged false) (logged true) = true ∧
      scalar.digest (logged false) = scalar.digest (logged true) := by
  have hnames : "Depth" < "Note" := by decide
  have hsorted (depth : Value) (h : depth.Sorted) : (reading depth).Sorted :=
    ⟨List.pairwise_pair.2 hnames, h, trivial, trivial⟩
  have hfree (depth : Value) (h : depth.RecordFree) : (reading depth).RecordFree :=
    ⟨h, trivial, trivial⟩
  have hreadings : (collection .array .reference).IsComparand readings :=
    ⟨.inl rfl, ⟨hfree _ trivial, hfree _ trivial, trivial, hfree _ trivial, trivial⟩,
      hsorted _ trivial, hsorted _ trivial, trivial, hsorted _ trivial, trivial⟩
  have hrereadings : (collection .array .reference).IsComparand rereadings :=
    ⟨.inl rfl, ⟨hfree _ trivial, hfree _ trivial, trivial, hfree _ trivial, trivial⟩,
      hsorted _ trivial, hsorted _ trivial, trivial, hsorted _ trivial, trivial⟩
  have hequal : (collection .array .reference).equals readings rereadings = true := rfl
  have hlogged : scalar.equals (logged false) (logged true) = true := rfl
  obtain ⟨hequivalence, -, hdigest, hsnapshot⟩ := coherent (collection .array .reference)
  obtain ⟨-, -, hrecords, -⟩ := coherent scalar
  refine ⟨hreadings, hrereadings, hequal, ?_, ?_, ?_, hlogged, ?_⟩
  · exact @Equivalence.symm _ _ hequivalence ⟨readings, hreadings⟩ ⟨rereadings, hrereadings⟩ hequal
  · exact hdigest readings rereadings hreadings.sorted hrereadings.sorted (.inl hequal)
  · exact (hsnapshot readings hreadings).1
  · exact hrecords (logged false) (logged true) trivial trivial (.inl hlogged)

end Comparer

end DocMapping
