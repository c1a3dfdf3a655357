import DocMapping.Execution
import DocMapping.Planning
import DocMapping.Proofs.Outcome
import DocMapping.Proofs.Query.Sorting
import DocMapping.Proofs.UnitOfWork.Steps
import DocMapping.Transport.Memory

/-!
# Single Results Agree with the Sequence

A query that ends with an operator for one result sends a request of its own: it asks for fewer
documents, for other parts of them, or only for their number.  On a store in memory its result is
still a function of the documents that the whole sequence reads.
-/

namespace DocMapping

/-! ## Operations that change nothing -/

namespace Effect

variable {σ α β : Type} {s : σ}

/-- In the state, the operation has the outcome and changes nothing. -/
def Answers (effect : Effect σ α) (s : σ) (outcome : Outcome α) : Prop := effect s = (outcome, s)

namespace Answers

variable {effect : Effect σ α} {next : α → Effect σ β}

theorem bind {outcome : Outcome α} {rest : α → Outcome β} (h : effect.Answers s outcome)
    (hnext : ∀ a, outcome = .ok a → (next a).Answers s (rest a)) :
    (effect >>= next).Answers s (outcome.bind rest) := by
  unfold Answers at h
  unfold Answers
  rw [bind_apply, h]
  cases outcome with
  | error fault => rfl
  | ok a => exact hnext a rfl

theorem bind_ok {a : α} {outcome : Outcome β} (h : effect.Answers s (.ok a))
    (hnext : (next a).Answers s outcome) : (effect >>= next).Answers s outcome := by
  have hbound : (effect >>= next).Answers s ((Except.ok a).bind fun _ ↦ outcome) := by
    refine h.bind fun _ ha ↦ ?_
    cases ha
    exact hnext
  exact hbound

theorem bind_error {fault : StoreError} (h : effect.Answers s (.error fault)) :
    (effect >>= next).Answers s (.error fault) := by
  have hbound : (effect >>= next).Answers s
      ((Except.error fault : Outcome α).bind fun _ ↦ .error fault) := by
    refine h.bind fun _ ha ↦ ?_
    cases ha
  exact hbound

/-- Operations on the items of a list, up to the first that fails. -/
theorem mapM {f : α → Effect σ β} {g : α → Outcome β} {items : List α}
    (h : ∀ a ∈ items, (f a).Answers s (g a)) : (items.mapM f).Answers s (items.mapM g) := by
  induction items with
  | nil => rfl
  | cons a rest ih =>
    obtain ⟨ha, hrest⟩ := List.forall_mem_cons.1 h
    rw [List.mapM_cons, List.mapM_cons]
    exact ha.bind fun b _ ↦ (ih hrest).bind fun bs _ ↦ rfl

end Answers

end Effect

/-! ## Parts of a query -/

namespace Query

/-- The query for at most `cap` of its documents. -/
def capped (q : Query) (cap : Nat) : Query :=
  { q with limit := Selection.smaller q.limit (some cap) }

theorem select_capped (q : Query) (cap : Nat) (documents : List Document) :
    (q.capped cap).select documents = (q.select documents).take cap := by
  have hrange (items : List Document) : (q.capped cap).range items = (q.range items).take cap := by
    unfold range capped Selection.smaller
    cases q.limit with
    | none => rfl
    | some limit => exact (List.take_take.trans (by rw [Nat.min_comm])).symm
  exact (congrArg (List.map q.shape) (hrange _)).trans List.map_take

theorem length_select (q : Query) (documents : List Document) :
    (q.select documents).length =
      (q.range (SortField.documents q.sort (documents.filter q.accepts))).length :=
  List.length_map _

end Query

namespace Selection

variable (s : Selection) (parameters : Parameters)

theorem toQuery_cap (cap : Nat) :
    s.toQuery parameters (some cap) = (s.toQuery parameters none).map (·.capped cap) := by
  unfold toQuery
  cases bindOption (·.mapM (Operand.bind parameters)) s.filter with
  | error fault => rfl
  | ok filter =>
    cases bindOption (·.bind parameters) s.skip with
    | error fault => rfl
    | ok offset =>
      cases bindOption (·.bind parameters) s.limit with
      | error fault => rfl
      | ok limit => cases limit <;> rfl

theorem toQuery_projection (projection : Projection) :
    ({ s with projection := projection } : Selection).toQuery parameters none =
      (s.toQuery parameters none).map ({ · with projection := projection.paths? }) := by
  unfold toQuery
  cases bindOption (·.mapM (Operand.bind parameters)) s.filter with
  | error fault => rfl
  | ok filter =>
    cases bindOption (·.bind parameters) s.skip with
    | error fault => rfl
    | ok offset => cases bindOption (·.bind parameters) s.limit <;> rfl

end Selection

/-! ## Reading a store in memory -/

namespace Plan

/-- The documents that the sequence of a plan reads. -/
def documents (p : Plan) (parameters : Parameters) (store : Store) : Outcome (List Document) :=
  (p.selection.toQuery parameters none).map (store.find p.selection.collection)

variable (p : Plan) (transactions : Bool) (parameters : Parameters) (session : MemorySession)

theorem find_answers (collection : String) (query : Query) :
    ((Transport.memory transactions).find collection query).Answers session
      (.ok ((session.store.find collection query).map pure)) := rfl

theorem check_answers : (Signal.never.check : Effect MemorySession Unit).Answers session (.ok ()) :=
  Signal.check_apply Signal.never session

/-- One step of a stream. -/
def step (signal : Signal MemorySession) (fetched : Effect MemorySession Document) :
    Effect MemorySession Value := do
  let document ← Effect.observe fetched
  signal.check
  Effect.ofOutcome (document.bind (p.materialize parameters))

theorem step_answers (document : Document) :
    (p.step parameters Signal.never (pure document)).Answers session
      (p.materialize parameters document) := rfl

theorem stream_answers {query : Query} (h : p.selection.toQuery parameters none = .ok query) :
    (p.stream (Transport.memory transactions) Signal.never parameters).Answers session
      (.ok (((session.store.find p.selection.collection query).map pure).map
        (p.step parameters Signal.never))) := by
  unfold stream
  rw [h]
  rfl

theorem toList_answers :
    (p.toList (Transport.memory transactions) Signal.never parameters).Answers session
      ((p.documents parameters session.store).bind
        (·.mapM (p.materialize parameters))) := by
  unfold toList documents
  cases hquery : p.selection.toQuery parameters none with
  | error fault =>
    unfold stream
    rw [hquery]
    rfl
  | ok query =>
    refine (p.stream_answers transactions parameters session hquery).bind_ok ?_
    rw [List.mapM_map, List.mapM_map]
    exact .mapM fun document _ ↦ p.step_answers parameters session document

theorem fetch_answers (cap : Nat) :
    (p.fetch (Transport.memory transactions) Signal.never parameters cap).Answers session
      ((p.documents parameters session.store).map (·.take cap)) := by
  unfold fetch documents
  rw [p.selection.toQuery_cap]
  cases p.selection.toQuery parameters none with
  | error fault => rfl
  | ok query =>
    have hfound : ((session.store.find p.selection.collection (query.capped cap)).map pure).take
        cap = ((session.store.find p.selection.collection query).take cap).map
          (pure : Document → Effect MemorySession Document) := by
      unfold Store.find
      rw [← List.map_take, query.select_capped, List.take_take, Nat.min_self]
    have hitems : ((session.store.find p.selection.collection query).take cap).mapM
        (fun document ↦ (pure document : Outcome Document)) =
          .ok ((session.store.find p.selection.collection query).take cap) :=
      List.mapM_pure.trans (congrArg Except.ok (List.map_id' _))
    change Effect.Answers (List.mapM _ (List.take cap (List.map _ _))) session
      (.ok ((session.store.find p.selection.collection query).take cap))
    rw [hfound, List.mapM_map, ← hitems]
    exact .mapM fun document _ ↦ rfl

theorem any_answers :
    (p.any (Transport.memory transactions) Signal.never parameters).Answers session
      (((p.documents parameters session.store).map List.length).map fun number ↦
        decide (0 < number)) := by
  unfold any documents
  rw [p.selection.toQuery_cap]
  cases p.selection.toQuery parameters none with
  | error fault => rfl
  | ok query =>
    have hlength : (session.store.find p.selection.collection
        { query.capped 1 with projection := some [idElement] }).length =
        min 1 (session.store.find p.selection.collection query).length := by
      unfold Store.find
      rw [Query.length_select, ← List.length_take, ← query.select_capped, Query.length_select]
      rfl
    change Effect.Answers _ session
      (.ok (decide (0 < (session.store.find p.selection.collection query).length)))
    refine Effect.Answers.bind_ok (a := query.capped 1) rfl ?_
    refine (find_answers transactions session p.selection.collection
      { query.capped 1 with projection := some [idElement] }).bind_ok ?_
    refine (check_answers session).bind_ok ?_
    cases hfound : session.store.find p.selection.collection
        { query.capped 1 with projection := some [idElement] } with
    | nil =>
      rw [hfound] at hlength
      cases hnone : session.store.find p.selection.collection query with
      | nil => rfl
      | cons document rest => rw [hnone] at hlength; cases hlength
    | cons found others =>
      rw [hfound] at hlength
      cases hsome : session.store.find p.selection.collection query with
      | nil => rw [hsome] at hlength; cases hlength
      | cons document rest => rfl

theorem count_answers :
    (p.count (Transport.memory transactions) Signal.never parameters).Answers session
      ((p.documents parameters session.store).map List.length) := by
  unfold count documents
  cases p.selection.toQuery parameters none <;> rfl

end Plan

/-! ## Materialization without the terminal -/

namespace Plan

variable {p q : Plan} {parameters : Parameters} {document : Document}

mutual

theorem shape_congr (h : p.selection = q.selection) : (shaper : Shaper) →
    p.shape parameters document shaper = q.shape parameters document shaper
  | .place place => by
    rw [shape, shape]
    unfold readPlace readTarget nullOr missing
    rw [h]
  | .record shape fields => by rw [Plan.shape, Plan.shape, shapeFields_congr h fields]
  | .array items => by rw [shape, shape, shapeItems_congr h items]
  | .function f => by rw [shape, shape, h]

theorem shapeFields_congr (h : p.selection = q.selection) : (fields : List (String × Shaper)) →
    p.shapeFields parameters document fields = q.shapeFields parameters document fields
  | [] => rfl
  | (name, shaper) :: rest => by
    rw [shapeFields, shapeFields, shape_congr h shaper, shapeFields_congr h rest]

theorem shapeItems_congr (h : p.selection = q.selection) : (items : List Shaper) →
    p.shapeItems parameters document items = q.shapeItems parameters document items
  | [] => rfl
  | shaper :: rest => by
    rw [shapeItems, shapeItems, shape_congr h shaper, shapeItems_congr h rest]

end

theorem materialize_congr (h : p.selection = q.selection) (hshaper : p.shaper = q.shaper) :
    p.materialize parameters = q.materialize parameters := by
  funext document
  unfold materialize
  rw [hshaper, shape_congr h]

theorem documents_congr (h : p.selection = q.selection) {store : Store} :
    p.documents parameters store = q.documents parameters store := by
  unfold documents
  rw [h]

end Plan

/-! ## Results of documents -/

/-- What becomes of the documents of a sequence. -/
def Terminal.answer (materialize : Document → Outcome Value) (documents : List Document) :
    Terminal → Outcome Value
  | sequence => (documents.mapM materialize).map (Value.collection .list)
  | first orDefault =>
    match documents with
    | [] => if orDefault then .ok .null else .error (.cardinality .noElements)
    | document :: _ => materialize document
  | single orDefault =>
    match documents with
    | [] => if orDefault then .ok .null else .error (.cardinality .noElements)
    | [document] => materialize document
    | _ => .error (.cardinality .moreThanOneElement)
  | any => .ok (.bool (decide (0 < documents.length)))
  | count => .ok (.int32 (Int32.ofInt documents.length))
  | longCount => .ok (.int64 (Int64.ofInt documents.length))

/-- The result of a plan is what becomes of the documents that it reads. -/
theorem Plan.execute_answers (p : Plan) (transactions : Bool) (parameters : Parameters)
    (session : MemorySession)
    (hnumber : ∀ documents, p.documents parameters session.store = .ok documents →
      p.terminal = .sequence ∨ documents.length < 2 ^ 31) :
    (p.execute (Transport.memory transactions) Signal.never parameters).Answers session
      ((p.documents parameters session.store).bind fun documents ↦
        p.terminal.answer (p.materialize parameters) documents) := by
  refine (check_answers session).bind_ok ?_
  have hlist := p.toList_answers transactions parameters session
  have hfetched := p.fetch_answers transactions parameters session
  have hany := p.any_answers transactions parameters session
  have hcounted := p.count_answers transactions parameters session
  cases hdocuments : p.documents parameters session.store with
  | error fault =>
    rw [hdocuments] at hlist hfetched hany hcounted
    cases p.terminal with
    | sequence => exact hlist.bind_error
    | first orDefault => exact (hfetched 1).bind_error
    | single orDefault => exact (hfetched 2).bind_error
    | any => exact hany.bind_error
    | count => exact hcounted.bind_error
    | longCount => exact hcounted.bind_error
  | ok documents =>
    have hfew := hnumber documents hdocuments
    rw [hdocuments] at hlist hfetched hany hcounted
    cases hterminal : p.terminal with
    | sequence => exact hlist.bind fun _ _ ↦ rfl
    | first orDefault =>
      refine (hfetched 1).bind_ok ?_
      match documents with
      | [] => rfl
      | _ :: _ => rfl
    | single orDefault =>
      refine (hfetched 2).bind_ok ?_
      match documents with
      | [] => rfl
      | [_] => rfl
      | _ :: _ :: _ => rfl
    | any => exact hany.bind_ok rfl
    | count =>
      refine hcounted.bind_ok ?_
      have hfew := hfew.resolve_left (by rw [hterminal]; rintro ⟨⟩)
      unfold countValue
      rw [if_pos hfew]
      rfl
    | longCount =>
      refine hcounted.bind_ok ?_
      have hfew := hfew.resolve_left (by rw [hterminal]; rintro ⟨⟩)
      unfold countValue
      rw [if_pos (Nat.lt_trans hfew (by decide))]
      rfl

namespace PartialPlan

variable (s : PartialPlan) (parameters : Parameters)

/-- Results that are shaped are shaped as in the sequence. -/
theorem finish_shaped {terminal : Terminal}
    (h : terminal = .sequence ∨ ∃ orDefault, terminal = .first orDefault ∨
      terminal = .single orDefault) :
    (s.finish terminal).selection = (s.finish .sequence).selection ∧
      (s.finish terminal).shaper = (s.finish .sequence).shaper := by
  unfold finish
  obtain rfl | ⟨orDefault, rfl | rfl⟩ := h <;> cases s.shaper <;> exact ⟨rfl, rfl⟩

theorem finish_selection (terminal : Terminal) : ∃ projection,
    (s.finish terminal).selection = { s.selection with projection := projection } := by
  unfold finish
  split <;> exact ⟨_, rfl⟩

theorem finish_terminal (terminal : Terminal) : (s.finish terminal).terminal = terminal := by
  unfold finish
  split <;> rfl

/-- Whatever becomes of the documents, they are asked for if the sequence can be. -/
theorem binds_finish (terminal : Terminal) (cap : Option Nat) :
    ((s.finish terminal).selection.toQuery parameters cap).map (fun _ ↦ ()) =
      ((s.finish .sequence).selection.toQuery parameters none).map fun _ ↦ () := by
  obtain ⟨projection, hprojection⟩ := s.finish_selection terminal
  obtain ⟨others, hothers⟩ := s.finish_selection .sequence
  have hcap : ((s.finish terminal).selection.toQuery parameters cap).map (fun _ ↦ ()) =
      ((s.finish terminal).selection.toQuery parameters none).map fun _ ↦ () := by
    cases cap with
    | none => rfl
    | some cap =>
      rw [Selection.toQuery_cap]
      cases (s.finish terminal).selection.toQuery parameters none <;> rfl
  rw [hcap, hprojection, hothers, s.selection.toQuery_projection parameters projection,
    s.selection.toQuery_projection parameters others]
  cases s.selection.toQuery parameters none <;> rfl

/-- Whatever becomes of the documents, there are as many of them. -/
theorem length_documents (terminal : Terminal) (store : Store) :
    ((s.finish terminal).documents parameters store).map List.length =
      ((s.finish .sequence).documents parameters store).map List.length := by
  have hlength (terminal : Terminal) :
      ((s.finish terminal).documents parameters store).map List.length =
        (s.selection.toQuery parameters none).map fun query ↦
          (store.find s.selection.collection query).length := by
    obtain ⟨projection, hprojection⟩ := s.finish_selection terminal
    unfold Plan.documents
    rw [hprojection, s.selection.toQuery_projection]
    cases s.selection.toQuery parameters none with
    | error fault => rfl
    | ok query =>
      refine congrArg Except.ok ?_
      unfold Store.find
      rw [Query.length_select]
      exact (query.length_select (store.documents s.selection.collection)).symm
  rw [hlength, hlength]

/-- The documents of a plan lead to the result that the documents of its sequence lead to. -/
theorem answer_finish (terminal : Terminal) (store : Store) :
    ((s.finish terminal).documents parameters store).bind (fun documents ↦
        terminal.answer ((s.finish terminal).materialize parameters) documents) =
      ((s.finish .sequence).documents parameters store).bind fun documents ↦
        terminal.answer ((s.finish .sequence).materialize parameters) documents := by
  have hlength := s.length_documents parameters terminal store
  have hcounted (answer : Nat → Outcome Value) :
      ((s.finish terminal).documents parameters store).bind (fun documents ↦
          answer documents.length) =
        ((s.finish .sequence).documents parameters store).bind fun documents ↦
          answer documents.length := by
    have hmap (found : Outcome (List Document)) :
        found.bind (fun documents ↦ answer documents.length) =
          (found.map List.length).bind answer := by
      cases found <;> rfl
    rw [hmap, hmap, hlength]
  cases terminal with
  | sequence => rfl
  | first orDefault =>
    obtain ⟨hselection, hshaper⟩ := s.finish_shaped (.inr ⟨orDefault, .inl rfl⟩)
    rw [Plan.documents_congr hselection, Plan.materialize_congr hselection hshaper]
  | single orDefault =>
    obtain ⟨hselection, hshaper⟩ := s.finish_shaped (.inr ⟨orDefault, .inr rfl⟩)
    rw [Plan.documents_congr hselection, Plan.materialize_congr hselection hshaper]
  | any => exact hcounted fun number ↦ .ok (.bool (decide (0 < number)))
  | count => exact hcounted fun number ↦ .ok (.int32 (Int32.ofInt number))
  | longCount => exact hcounted fun number ↦ .ok (.int64 (Int64.ofInt number))

end PartialPlan

/-- A query that can be a source is no result of a terminal. -/
theorem Expression.splitTerminal_of_source {model : Model} {fallback : Bool} {e : Expression}
    {s : PartialPlan} (h : e.source model fallback = .ok s) :
    e.splitTerminal = .ok (e, .sequence, none) := by
  unfold splitTerminal
  split
  · next method arguments =>
    cases arguments with
    | nil => rw [Expression.source] at h; cases h
    | cons receiver arguments =>
      rw [Expression.source] at h
      obtain ⟨before, -, happly⟩ := Outcome.bind_eq_ok.1 h
      cases method <;> first | rfl | cases happly
  · rfl

theorem Model.plan_of_source {model : Model} {fallback : Bool} {e : Expression} {s : PartialPlan}
    (h : e.source model fallback = .ok s) : model.plan fallback e = .ok (s.finish .sequence) := by
  have hsplit := Expression.splitTerminal_of_source h
  unfold plan
  rw [hsplit]
  change (e.source model fallback).bind _ = _
  rw [h]
  rfl

theorem Model.plan_call {model : Model} {fallback : Bool} {e : Expression} {s : PartialPlan}
    (h : e.source model fallback = .ok s) {method : Method} {terminal : Terminal}
    (hterminal : Expression.terminal? method = some terminal) :
    model.plan fallback (.call method [e]) = .ok (s.finish terminal) := by
  have hsplit : (Expression.call method [e]).splitTerminal = .ok (e, terminal, none) := by
    unfold Expression.splitTerminal
    dsimp only
    rw [hterminal]
  unfold plan
  rw [hsplit]
  change (e.source model fallback).bind _ = _
  rw [h]
  rfl

/-- Whatever ends a query is a function of the documents that the sequence of its source reads.  Its
request can be made for the same parameters, and its result is what it makes of these documents. -/
theorem Model.plan_terminal {model : Model} {fallback : Bool} {e : Expression} {s : PartialPlan}
    (hsource : e.source model fallback = .ok s) (parameters : Parameters) :
    ∃ sequence, model.plan fallback e = .ok sequence ∧
      (∀ (transactions : Bool) (session : MemorySession),
        sequence.execute (Transport.memory transactions) Signal.never parameters session =
          ((sequence.documents parameters session.store).bind fun documents ↦
            (documents.mapM (sequence.materialize parameters)).map (Value.collection .list),
            session)) ∧
      ∀ method terminal, Expression.terminal? method = some terminal →
        ∃ plan, model.plan fallback (.call method [e]) = .ok plan ∧
          (∀ cap, (plan.selection.toQuery parameters cap).map (fun _ ↦ ()) =
            (sequence.selection.toQuery parameters none).map fun _ ↦ ()) ∧
          ∀ (transactions : Bool) (session : MemorySession),
            (∀ documents, sequence.documents parameters session.store = .ok documents →
              documents.length < 2 ^ 31) →
            plan.execute (Transport.memory transactions) Signal.never parameters session =
              ((sequence.documents parameters session.store).bind
                (terminal.answer (sequence.materialize parameters)), session) := by
  refine ⟨s.finish .sequence, Model.plan_of_source hsource, fun transactions session ↦ ?_,
    fun method terminal hterminal ↦ ⟨s.finish terminal, Model.plan_call hsource hterminal,
      s.binds_finish parameters terminal, fun transactions session hnumber ↦ ?_⟩⟩
  · have hanswers := (s.finish .sequence).execute_answers transactions parameters session
      fun _ _ ↦ .inl (s.finish_terminal .sequence)
    rw [s.finish_terminal] at hanswers
    exact hanswers
  · have hlength := s.length_documents parameters terminal session.store
    have hanswers := (s.finish terminal).execute_answers transactions parameters session
      fun documents hdocuments ↦ by
        rw [hdocuments] at hlength
        obtain ⟨found, hfound, hequal⟩ := Outcome.map_eq_ok.1 hlength.symm
        rw [← hequal]
        exact .inr (hnumber found hfound)
    rw [s.finish_terminal, s.answer_finish] at hanswers
    exact hanswers

/-! ## Lamps -/

namespace Lamps

def number : Property := { Property.plain "Id" (.scalar .int64) with element := idElement }

def lamp : EntityType :=
  ⟨"Lamp", some "Lamp", [number, Property.plain "Lit" (.scalar .bool)], [number], [], none⟩

/-- All lamps. -/
def source : PartialPlan := ⟨⟨"Lamp", lamp, none, [], none, none, []⟩, none⟩

/-- Two lamps of which nothing else is known. -/
def stored : List Document := [[(idElement, .int64 1)], [(idElement, .int64 2)]]

def session : MemorySession :=
  .ofStore ⟨0, [("Lamp", ⟨stored, 0⟩)], true, fun _ ↦ ⟨⟨0, by decide⟩⟩, 0⟩

theorem documents_session :
    (source.finish .sequence).documents [] session.store = .ok stored := by
  refine congrArg Except.ok ?_
  change List.map id (SortField.documents [] stored) = stored
  rw [SortField.documents_nil, List.map_id]

end Lamps

/-- There is more than one lamp, although none of them can be materialized. -/
theorem Model.plan_terminal_lamps :
    ∃ plan, Model.plan ⟨[Lamps.lamp]⟩ false (.call .single [.entitySet "Lamp"]) = .ok plan ∧
      plan.execute (Transport.memory true) Signal.never [] Lamps.session =
        (.error (.cardinality .moreThanOneElement), Lamps.session) := by
  have hsource : (Expression.entitySet "Lamp").source ⟨[Lamps.lamp]⟩ false = .ok Lamps.source := rfl
  obtain ⟨sequence, hsequence, -, hterminals⟩ := Model.plan_terminal hsource []
  obtain rfl := Except.ok.inj (hsequence.symm.trans (Model.plan_of_source hsource))
  obtain ⟨plan, hplan, -, hexecute⟩ := hterminals .single (.single false) rfl
  refine ⟨plan, hplan, (hexecute true Lamps.session fun documents hdocuments ↦ ?_).trans ?_⟩
  · rw [Lamps.documents_session] at hdocuments
    cases hdocuments
    decide
  · rw [Lamps.documents_session]
    rfl

end DocMapping
