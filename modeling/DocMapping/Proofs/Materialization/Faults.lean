import DocMapping.Materialization
import DocMapping.Proofs.Codec.Reading

/-!
# Faults of Materialization

What goes wrong while a document becomes a value lies in the document, where elements are missing or
cannot be converted, or in a function that is evaluated.  The one fault of the plan itself is a place
that nothing is bound at.
-/

namespace DocMapping

/-! ## Causes -/

namespace Outcome

variable {ε α β : Type} {causes : ε → Prop}

/-- Whatever fails does so for one of the causes. -/
def Raises (causes : ε → Prop) (x : Except ε α) : Prop := ∀ fault, x = .error fault → causes fault

namespace Raises

variable {x : Except ε α}

theorem ok (a : α) : Raises causes (.ok a) := nofun

theorem error {fault : ε} (h : causes fault) : Raises causes (.error fault : Except ε α) := by
  rintro _ ⟨⟩
  exact h

theorem mono {others : ε → Prop} (h : Raises causes x) (hsub : ∀ fault, causes fault → others fault) :
    Raises others x := fun fault hfault ↦ hsub fault (h fault hfault)

theorem bind {f : α → Except ε β} (h : Raises causes x) (hf : ∀ a, x = .ok a → Raises causes (f a)) :
    Raises causes (x >>= f) := by
  cases x with
  | error fault => exact error (h fault rfl)
  | ok a => exact hf a rfl

theorem map (f : α → β) (h : Raises causes x) : Raises causes (x.map f) := by
  cases x with
  | error fault => exact error (h fault rfl)
  | ok a => exact ok (f a)

theorem mapError {δ : Type} {f : δ → ε} (hf : ∀ fault, causes (f fault)) (y : Except δ α) :
    Raises causes (y.mapError f) := by
  cases y with
  | error fault => exact error (hf fault)
  | ok a => exact ok a

theorem mapM {f : α → Except ε β} {items : List α} (h : ∀ a ∈ items, Raises causes (f a)) :
    Raises causes (items.mapM f) := by
  induction items with
  | nil => exact ok []
  | cons a rest ih =>
    obtain ⟨ha, hrest⟩ := List.forall_mem_cons.1 h
    rw [List.mapM_cons]
    exact ha.bind fun b _ ↦ (ih hrest).bind fun bs _ ↦ ok (b :: bs)

theorem foldlM {f : β → α → Except ε β} {items : List α}
    (h : ∀ a ∈ items, ∀ b, Raises causes (f b a)) (start : β) :
    Raises causes (items.foldlM f start) := by
  induction items generalizing start with
  | nil => exact ok start
  | cons a rest ih =>
    obtain ⟨ha, hrest⟩ := List.forall_mem_cons.1 h
    exact (ha start).bind fun b _ ↦ ih hrest b

end Raises

end Outcome

open Outcome (Raises)

/-- The causes that lie in a document: elements that are missing, or cannot be converted. -/
def StoreError.InDocument : StoreError → Prop
  | missingElement _ _ => True
  | conversion _ _ => True
  | _ => False

/-- The causes that lie in the evaluation of a function. -/
def StoreError.InFunction : StoreError → Prop
  | operation (.missingParameter _) => True
  | operation (.noRecordMember _) => True
  | operation (.nullTarget _ _) => True
  | operation (.memberOfScalar _ _) => True
  | operation (.notAnIndex _) => True
  | operation (.indexOutOfRange _ _) => True
  | operation (.notEvaluable _) => True
  | operation (.notABoolean _) => True
  | operation (.notBooleans _) => True
  | operation (.overflow _) => True
  | operation (.incompatible _) => True
  | operation (.notNumeric _ _ _) => True
  | operation (.notText _) => True
  | _ => False

/-- What can go wrong although everything is bound. -/
def StoreError.OfReading (fault : StoreError) : Prop := fault.InDocument ∨ fault.InFunction

theorem StoreError.OfReading.ne_unmappedProjection {fault : StoreError} (h : fault.OfReading)
    (member : String) : fault ≠ .operation (.unmappedProjection member) := by
  rintro rfl
  exact h.elim id id

/-! ## Documents -/

theorem Property.decode_raises (p : Property) (stored : Bson) :
    Raises StoreError.InDocument (p.decode stored) :=
  Raises.mapError (fun _ ↦ trivial) _

namespace EntityType

theorem readProperty_raises (t : EntityType) (document : Document) (p : Property) :
    Raises StoreError.InDocument (t.readProperty document p) := by
  unfold readProperty
  split
  · exact p.decode_raises _
  · split
    · exact .ok _
    · exact .error trivial

theorem readNavigation_raises (t : EntityType) (document : Document) {n : Navigation EntityType}
    (h : ∀ stored, Raises StoreError.InDocument (decodeNavigation n stored)) :
    Raises StoreError.InDocument (t.readNavigation document n) := by
  unfold readNavigation
  split
  · exact h _
  · split
    · exact .ok _
    · exact .error trivial

mutual

/-- Documents are read, or the fault lies in them. -/
theorem decode_raises : (t : EntityType) → (document : Document) →
    Raises StoreError.InDocument (t.decode document)
  | ⟨name, collection, properties, keys, navigations, discriminator⟩, document => by
    rw [decode_eq, decodeProperties_eq]
    refine Raises.bind ?_ fun e _ ↦ ?_
    · exact .foldlM (fun p _ e ↦ (readProperty_raises _ document p).map _) _
    · rw [decodeNavigations_eq]
      exact .foldlM (fun n hn e ↦
        (readNavigation_raises _ document (decodeNavigations_raises navigations n hn)).map _) _

theorem decodeNavigations_raises : (navigations : List (Navigation EntityType)) →
    ∀ n ∈ navigations, ∀ stored, Raises StoreError.InDocument (decodeNavigation n stored)
  | [] => nofun
  | n :: rest =>
    List.forall_mem_cons.2 ⟨decodeNavigation_raises n, decodeNavigations_raises rest⟩

theorem decodeNavigation_raises : (n : Navigation EntityType) → (stored : Bson) →
    Raises StoreError.InDocument (decodeNavigation n stored)
  | ⟨_, _, target, _, _⟩, stored => by
    unfold decodeNavigation
    split
    · exact .ok _
    · exact (decode_raises target _).map _
    · refine .map _ (.mapM fun item _ ↦ ?_)
      split
      · exact (decode_raises target _).map _
      · exact .error trivial
    · exact .error trivial

end

end EntityType

/-! ## Functions -/

theorem Parameters.require_raises (parameters : Parameters) (name : String) :
    Raises StoreError.InFunction (parameters.require name) := by
  unfold require
  split
  · exact .ok _
  · exact .error trivial

namespace Expression

theorem truth_raises (e : Expression) {result : Outcome Value}
    (h : Raises StoreError.InFunction result) : Raises StoreError.InFunction (e.truth result) :=
  h.bind fun value _ ↦ by
    split
    · exact .ok _
    · exact .error trivial

theorem memberOf_raises (target : Expression) (name : String) (value : Value) :
    Raises StoreError.InFunction (target.memberOf name value) := by
  unfold memberOf
  split
  · exact .ok _
  · split
    · exact .ok _
    · exact .error trivial
  · exact .error trivial
  · exact .error trivial

theorem itemOf_raises (e : Expression) (collection position : Value) :
    Raises StoreError.InFunction (e.itemOf collection position) := by
  unfold itemOf
  split
  · split
    · exact .ok _
    · exact .error trivial
  · exact .error trivial

theorem binaryOf_raises (e : Expression) (operator : BinaryOperator) (a b : Value) :
    Raises StoreError.InFunction (e.binaryOf operator a b) := by
  have harithmetic (operator : ArithmeticOperator) :
      Raises StoreError.InFunction (e.arithmeticOf operator a b) :=
    Raises.mapError (fun fault ↦ by cases fault <;> trivial) _
  cases operator with
  | add | subtract | multiply | divide => exact harithmetic _
  | andAlso | orElse => exact .error trivial
  | _ => exact .ok _

theorem callOf_raises (e : Expression) (method : Method) (values : List Value) :
    Raises StoreError.InFunction (e.callOf method values) := by
  unfold callOf
  split
  · exact .ok _
  · exact .ok _
  · exact .ok _
  · exact .ok _
  · exact .error trivial

variable (parameters : Parameters) (name : String) (argument : Value)

mutual

/-- Functions are evaluated, or the fault lies in them. -/
theorem evaluate_raises : (e : Expression) →
    Raises StoreError.InFunction (e.evaluate parameters name argument)
  | .parameter other => by
    rw [evaluate]
    split
    · exact .ok _
    · exact .error trivial
  | .queryParameter other => by
    rw [evaluate]
    exact parameters.require_raises other
  | .constant value => by
    rw [evaluate]
    exact .ok value
  | .member target field => by
    rw [evaluate]
    exact (evaluate_raises target).bind fun value _ ↦ target.memberOf_raises field value
  | .binary operator left right => by
    have hleft := evaluate_raises left
    have hright := evaluate_raises right
    have htruth := right.truth_raises hright
    -- The two connectives may do without their second operand.
    by_cases hand : operator = .andAlso
    · rw [hand, evaluate]
      refine (left.truth_raises hleft).bind fun flag _ ↦ ?_
      split
      · exact htruth.map _
      · exact .ok _
    by_cases hor : operator = .orElse
    · rw [hor, evaluate]
      refine (left.truth_raises hleft).bind fun flag _ ↦ ?_
      split
      · exact .ok _
      · exact htruth.map _
    rw [evaluate]
    · exact hleft.bind fun a _ ↦ hright.bind fun b _ ↦ binaryOf_raises _ operator a b
    · exact hand
    · exact hor
  | .not operand => by
    rw [evaluate]
    exact (operand.truth_raises (evaluate_raises operand)).map _
  | .call method arguments => by
    rw [evaluate]
    exact (evaluateList_raises arguments).bind fun values _ ↦ callOf_raises _ method values
  | .index target position => by
    rw [evaluate]
    exact (evaluate_raises target).bind fun collection _ ↦
      (evaluate_raises position).bind fun place _ ↦ itemOf_raises _ collection place
  | .record shape fields => by
    rw [evaluate]
    exact (evaluateFields_raises fields).map _
  | .array items => by
    rw [evaluate]
    exact (evaluateList_raises items).map _
  | .entitySet _ | .lambda _ _ => by
    rw [evaluate]
    exact .error trivial

theorem evaluateList_raises : (items : List Expression) →
    Raises StoreError.InFunction (evaluateList parameters name argument items)
  | [] => by
    rw [evaluateList]
    exact .ok []
  | e :: rest => by
    rw [evaluateList]
    exact (evaluate_raises e).bind fun value _ ↦
      (evaluateList_raises rest).bind fun values _ ↦ .ok (value :: values)

theorem evaluateFields_raises : (fields : List (String × Expression)) →
    Raises StoreError.InFunction (evaluateFields parameters name argument fields)
  | [] => by
    rw [evaluateFields]
    exact .ok []
  | (field, e) :: rest => by
    rw [evaluateFields]
    exact (evaluate_raises e).bind fun value _ ↦
      (evaluateFields_raises rest).bind fun values _ ↦ .ok ((field, value) :: values)

end

end Expression

/-! ## Plans -/

namespace Shaper

mutual

/-- The places that a shaper reads. -/
def places : Shaper → List Place
  | .place read => [read]
  | .record _ fields => placesOfFields fields
  | .array items => placesOfItems items
  | .function _ => []

def placesOfFields : List (String × Shaper) → List Place
  | [] => []
  | (_, shaper) :: rest => places shaper ++ placesOfFields rest

def placesOfItems : List Shaper → List Place
  | [] => []
  | shaper :: rest => places shaper ++ placesOfItems rest

end

end Shaper

namespace Projection

/-- Something is bound at every one of the places. -/
def Binds (projection : Projection) (places : List Place) : Prop :=
  ∀ place ∈ places, ∃ binding, projection.lookup place = some binding

theorem binds_append {projection : Projection} {places others : List Place} :
    projection.Binds (places ++ others) ↔ projection.Binds places ∧ projection.Binds others :=
  List.forall_mem_append

end Projection

namespace Plan

variable (p : Plan) (parameters : Parameters) (document : Document)

theorem nullOr_raises (path : List String) (permitted : Bool) :
    Raises StoreError.InDocument (p.nullOr document path permitted) := by
  unfold nullOr
  split
  · exact .ok _
  · exact .error trivial

theorem readTarget_raises (target : Target) :
    Raises StoreError.InDocument (p.readTarget document target) := by
  unfold readTarget
  split
  · split
    · exact Property.decode_raises _ _
    · exact p.nullOr_raises document _ _
  · exact (EntityType.decode_raises _ document).map _
  · split
    · exact (EntityType.decode_raises _ _).map _
    · exact p.nullOr_raises document _ _
    · exact p.nullOr_raises document _ _
    · exact .error trivial
  · split
    · refine .map _ (.mapM fun item _ ↦ ?_)
      unfold ownedItem
      split
      · exact (EntityType.decode_raises _ _).map _
      · exact .error trivial
    · exact .ok _
    · exact p.nullOr_raises document _ _
    · exact .error trivial

/-- What is bound is read, or the fault lies in the document or in the parameters. -/
theorem readPlace_raises {place : Place} {binding : ProjectionBinding}
    (h : p.selection.projection.lookup place = some binding) :
    Raises StoreError.OfReading (p.readPlace parameters document place) := by
  unfold readPlace
  rw [h]
  cases binding with
  | stored target => exact (p.readTarget_raises document target).mono fun _ ↦ .inl
  | constant value => exact .ok value
  | parameter name => exact (parameters.require_raises name).mono fun _ ↦ .inr

mutual

/-- Documents become values, or the fault lies in them or in a function, wherever all places of the
shaper are bound. -/
theorem shape_raises : (shaper : Shaper) → p.selection.projection.Binds shaper.places →
    Raises StoreError.OfReading (p.shape parameters document shaper)
  | .place place, h => by
    rw [Shaper.places] at h
    obtain ⟨binding, hbinding⟩ := h place List.mem_cons_self
    rw [shape]
    exact p.readPlace_raises parameters document hbinding
  | .record _ fields, h => by
    rw [Shaper.places] at h
    rw [shape]
    exact (shapeFields_raises fields h).map _
  | .array items, h => by
    rw [Shaper.places] at h
    rw [shape]
    exact (shapeItems_raises items h).map _
  | .function f, _ => by
    rw [shape]
    exact ((p.selection.entity.decode_raises document).mono fun _ ↦ .inl).bind fun e _ ↦
      (f.body.evaluate_raises parameters f.parameter e.toValue).mono fun _ ↦ .inr

theorem shapeFields_raises : (fields : List (String × Shaper)) →
    p.selection.projection.Binds (Shaper.placesOfFields fields) →
    Raises StoreError.OfReading (p.shapeFields parameters document fields)
  | [], _ => by
    rw [shapeFields]
    exact .ok []
  | (name, shaper) :: rest, h => by
    rw [Shaper.placesOfFields, Projection.binds_append] at h
    rw [shapeFields]
    exact (shape_raises shaper h.1).bind fun value _ ↦
      (shapeFields_raises rest h.2).bind fun values _ ↦ .ok ((name, value) :: values)

theorem shapeItems_raises : (items : List Shaper) →
    p.selection.projection.Binds (Shaper.placesOfItems items) →
    Raises StoreError.OfReading (p.shapeItems parameters document items)
  | [], _ => by
    rw [shapeItems]
    exact .ok []
  | shaper :: rest, h => by
    rw [Shaper.placesOfItems, Projection.binds_append] at h
    rw [shapeItems]
    exact (shape_raises shaper h.1).bind fun value _ ↦
      (shapeItems_raises rest h.2).bind fun values _ ↦ .ok (value :: values)

end

end Plan

end DocMapping
