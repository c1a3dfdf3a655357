import DocMapping.Planning
import DocMapping.Proofs.Planning.Tests

/-!
# Planned Conditions Mean what they Evaluate to

However a condition on an entity is composed, the filter that a query with this condition asks for
holds of the document of the entity exactly if the condition is true of the entity.
-/

namespace DocMapping

/-- A condition on the argument `x`, an entity `e` of the type `t`.  Every property in it is stored
in the natural form of its kind and has a value, and the two sides of every test are of one kind. -/
inductive Condition (x : String) (t : EntityType) (e : Entity) : Expression → Prop
  | constant (holds : Bool) : Condition x t e (.constant (.bool holds))
  | andAlso {left right : Expression} (hleft : Condition x t e left)
    (hright : Condition x t e right) : Condition x t e (.binary .andAlso left right)
  | orElse {left right : Expression} (hleft : Condition x t e left)
    (hright : Condition x t e right) : Condition x t e (.binary .orElse left right)
  | not {operand : Expression} (h : Condition x t e operand) : Condition x t e (.not operand)
  | flag {m : Expression} {p : Property} {value : Value} (h : ReadsProperty x t e m p value)
    (hkind : p.kind = .scalar .bool) : Condition x t e m
  | compareLeft {m : Expression} {p : Property} {value constant : Value} {kind : ScalarKind}
    {operator : BinaryOperator} (h : ReadsProperty x t e m p value) (hkind : p.kind = .scalar kind)
    (hcompares : Compares operator kind constant) :
    Condition x t e (.binary operator m (.constant constant))
  | compareRight {m : Expression} {p : Property} {value constant : Value} {kind : ScalarKind}
    {operator : BinaryOperator} (h : ReadsProperty x t e m p value) (hkind : p.kind = .scalar kind)
    (hcompares : Compares operator kind constant) :
    Condition x t e (.binary operator (.constant constant) m)
  | nullLeft {m : Expression} {value : Value} {operator : BinaryOperator}
    (h : ReadsNavigation x t e m value) (hoperator : operator = .equal ∨ operator = .notEqual) :
    Condition x t e (.binary operator m (.constant .null))
  | nullRight {m : Expression} {value : Value} {operator : BinaryOperator}
    (h : ReadsNavigation x t e m value) (hoperator : operator = .equal ∨ operator = .notEqual) :
    Condition x t e (.binary operator (.constant .null) m)
  | text {m : Expression} {p : Property} {value : Value} {method : Method}
    (h : ReadsProperty x t e m p value) (hkind : p.kind = .scalar .string)
    (hmethod : method = .startsWith ∨ method = .endsWith ∨ method = .contains) (part : String) :
    Condition x t e (.call method [m, .constant (.string part)])
  | element {m : Expression} {p : Property} {value : Value} {container : Container}
    {nullable : Bool} (h : ReadsProperty x t e m p value)
    (hkind : p.kind = .collection container .string nullable)
    (item : String) : Condition x t e (.call .contains [m, .constant (.string item)])
  | among {m : Expression} {p : Property} {value : Value} (h : ReadsProperty x t e m p value)
    (hkind : p.kind = .scalar .string) (container : Container) (texts : List String) :
    Condition x t e (.call .contains [.constant (.collection container (texts.map .string)), m])

/-- Evaluating a condition and asking for it give the same answer. -/
theorem Condition.agrees {x : String} {t : EntityType} {e : Entity} {body : Expression}
    (h : Condition x t e body) (hwell : t.WellFormed) {document : Document}
    (hdocument : t.encode e = .ok document) (parameters : Parameters) :
    Agrees ⟨x, t⟩ parameters e document body := by
  induction h with
  | constant holds => exact .constant holds
  | andAlso _ _ hleft hright => exact hleft.andAlso hright
  | orElse _ _ hleft hright => exact hleft.orElse hright
  | not _ ih => exact ih.not
  | flag h hkind => exact h.agrees_flag hwell hdocument hkind parameters
  | compareLeft h hkind hcompares =>
    exact h.agrees_compareLeft hwell hdocument hkind hcompares parameters
  | compareRight h hkind hcompares =>
    exact h.agrees_compareRight hwell hdocument hkind hcompares parameters
  | nullLeft h hoperator => exact h.agrees_nullLeft hwell hdocument hoperator parameters
  | nullRight h hoperator => exact h.agrees_nullRight hwell hdocument hoperator parameters
  | text h hkind hmethod part => exact h.agrees_text hwell hdocument hkind hmethod part parameters
  | element h hkind text => exact h.agrees_element hwell hdocument hkind text parameters
  | among h hkind container texts =>
    exact h.agrees_among hwell hdocument hkind container texts parameters

/-! ## Filters of queries -/

/-- The condition that a selection puts on documents. -/
def Selection.condition (s : Selection) : Predicate :=
  match s.filter with
  | some filter => .filter filter
  | none => .always true

variable {parameters : Parameters} {document : Document}

/-- A query without bounds accepts the documents that its selection is meant for. -/
theorem Selection.toQuery_accepts {s : Selection} (hskip : s.skip = none) (hlimit : s.limit = none)
    {truth : Bool} (h : s.condition.Means parameters document truth) (cap : Option Nat) :
    ∃ query, s.toQuery parameters cap = .ok query ∧ query.accepts document = truth := by
  unfold condition at h
  unfold toQuery
  rw [hskip, hlimit]
  cases hfilter : s.filter with
  | none =>
    rw [hfilter] at h
    cases h
    exact ⟨_, rfl, rfl⟩
  | some filter =>
    rw [hfilter] at h
    cases h with
    | @filter _ bound hbound _ =>
      have hbind :
          bindOption (·.mapM (Operand.bind parameters)) (some filter) = .ok (some bound) := by
        rw [bindOption, hbound]
        rfl
      refine ⟨⟨some bound, s.sort, none, smaller none cap, s.projection.paths?⟩, ?_, rfl⟩
      rw [hbind]
      rfl

/-- The discriminator selects the documents of its type. -/
theorem EntityType.selection_means {t : EntityType} (hroot : t.isOwned = false)
    (hwell : t.WellFormed) {e : Entity} (hdocument : t.encode e = .ok document)
    (parameters : Parameters) :
    ∃ s, t.selection = .ok s ∧ s.entity = t ∧ s.skip = none ∧ s.limit = none ∧
      s.condition.Means parameters document true := by
  obtain ⟨collection, hcollection⟩ : ∃ collection, t.collection = some collection := by
    unfold isOwned at hroot
    exact Option.isSome_iff_exists.1 (Option.isNone_eq_false_iff.1 hroot)
  unfold selection
  rw [hcollection]
  refine ⟨_, rfl, rfl, rfl, rfl, ?_⟩
  unfold Selection.condition
  cases hdiscriminator : t.discriminator with
  | none => exact .always true
  | some d =>
    have hfield : document.resolve d.element = some (.string d.value) :=
      (hwell.resolve_discriminator hdiscriminator document).trans
        ((hwell.encoded hdocument).discriminator d hdiscriminator)
    have hordered : (Bson.string d.value).IsOrdered := by
      simp [Bson.IsOrdered, Bson.sortKey]
    have hholds : (Filter.test d.element .eq (.string d.value)).holds document = true := by
      rw [Filter.holds_test, hfield]
      exact hordered.matchesValue_self
    rw [← hholds]
    exact .filter rfl (.test (.of_unordered rfl))

theorem PartialPlan.condition_addPredicate (s : PartialPlan) (condition : Filter Operand) :
    (s.addPredicate (.filter condition)).selection.condition =
      s.selection.condition.and (.filter condition) := by
  unfold addPredicate Selection.condition
  cases s.selection.filter <;> rfl

/-- A condition that is added to a selection is asked for as well. -/
theorem PartialPlan.addPredicate_means {s : PartialPlan} {predicate : Predicate} {p q : Bool}
    (hid : (document.resolve idElement).isSome = true)
    (hs : s.selection.condition.Means parameters document p)
    (hpredicate : predicate.Means parameters document q) :
    (s.addPredicate predicate).selection.condition.Means parameters document (p && q) := by
  have hrestrict {condition : Filter Operand} {truth : Bool}
      (h : (Predicate.filter condition).Means parameters document truth) :
      (s.addPredicate (.filter condition)).selection.condition.Means parameters document
        (p && truth) := by
    rw [s.condition_addPredicate]
    exact hs.and h
  cases hpredicate with
  | filter hbound hdecided => exact hrestrict (.filter hbound hdecided)
  | always =>
    cases q with
    | true =>
      rw [Bool.and_true]
      exact hs
    | false =>
      have hnone : (Filter.present idElement false).holds document = false := by
        rw [Filter.holds, hid]
        rfl
      have hmeans : (Predicate.filter (.present idElement false)).Means parameters document
          ((Filter.present idElement false).holds document) :=
        .filter rfl (.present idElement false)
      rw [hnone] at hmeans
      exact hrestrict hmeans

theorem PartialPlan.addPredicate_bounds (s : PartialPlan) (predicate : Predicate) :
    (s.addPredicate predicate).shaper = s.shaper ∧
      (s.addPredicate predicate).selection.skip = s.selection.skip ∧
      (s.addPredicate predicate).selection.limit = s.selection.limit := by
  cases predicate with
  | always holds => cases holds <;> exact ⟨rfl, rfl, rfl⟩
  | filter condition => exact ⟨rfl, rfl, rfl⟩

theorem PartialPlan.finish_sequence {s : PartialPlan} (hshaper : s.shaper = none) :
    (s.finish .sequence).selection = { s.selection with projection := s.wholeEntity } := by
  unfold finish
  rw [hshaper]

/-- The plan of a query for the entities of a type that meet a condition. -/
theorem Model.plan_filter {model : Model} {t : EntityType} (hmodel : model.entity? t.name = some t)
    {s : Selection} (hs : t.selection = .ok s) (hentity : s.entity = t) (hskip : s.skip = none)
    (hlimit : s.limit = none) {x : String} {body : Expression} {predicate : Predicate}
    (hpredicate : (⟨x, t⟩ : Scope).predicate body = .ok predicate) (fallback : Bool) :
    model.plan fallback (.call .filter [.entitySet t.name, .lambda x body]) =
      .ok ((PartialPlan.addPredicate ⟨s, none⟩ predicate).finish .sequence) := by
  have hopen (operator : String) : (⟨s, none⟩ : PartialPlan).ensureOpen operator = .ok () := by
    unfold PartialPlan.ensureOpen PartialPlan.closed?
    rw [hskip, hlimit]
    rfl
  have hsource : (Expression.entitySet t.name).source model fallback = .ok ⟨s, none⟩ := by
    rw [Expression.source, hmodel]
    dsimp only
    rw [hs]
    rfl
  have hrestrict (operator : String) : (⟨s, none⟩ : PartialPlan).restrictBy operator ⟨x, body⟩ =
      .ok (PartialPlan.addPredicate ⟨s, none⟩ predicate) := by
    unfold PartialPlan.restrictBy PartialPlan.scope
    dsimp only
    rw [hopen, hentity, hpredicate]
    rfl
  have happly (call : Expression) :
      (⟨s, none⟩ : PartialPlan).apply fallback .filter [.lambda x body] call =
        .ok (PartialPlan.addPredicate ⟨s, none⟩ predicate) := by
    have hlambda : call.soleLambda [.lambda x body] = .ok ⟨x, body⟩ := rfl
    unfold PartialPlan.apply
    dsimp only
    rw [hopen, hlambda]
    exact hrestrict _
  have hwhole :
      (Expression.call .filter [.entitySet t.name, .lambda x body]).source model fallback =
        .ok (PartialPlan.addPredicate ⟨s, none⟩ predicate) := by
    rw [Expression.source, hsource]
    exact happly _
  unfold Model.plan
  change (do
    let s ← (Expression.call .filter [.entitySet t.name, .lambda x body]).source model fallback
    return s.finish .sequence : Outcome Plan) = _
  rw [hwhole]
  rfl

/-- A query with a condition asks for a document exactly if the condition is true of its entity.  It
can always be planned, and the condition can always be evaluated. -/
theorem Model.plan_agrees {m : ModelDeclaration} {model : Model} (hmodel : m.build = .ok model)
    {t : EntityType} (ht : t ∈ model.entities) (hroot : t.isOwned = false) {e : Entity}
    {document : Document} (hdocument : t.encode e = .ok document) {x : String} {body : Expression}
    (hbody : Condition x t e body) (fallback : Bool) (parameters : Parameters) (cap : Option Nat) :
    ∃ plan query truth,
      model.plan fallback (.call .filter [.entitySet t.name, .lambda x body]) = .ok plan ∧
      plan.selection.toQuery parameters cap = .ok query ∧
      (⟨x, body⟩ : Lambda).evaluate parameters e.toValue = .ok (.bool truth) ∧
      query.accepts document = truth := by
  have hwell := ModelDeclaration.wellFormed_of_build hmodel t ht
  have hfound := ModelDeclaration.entity?_of_build hmodel t ht
  obtain ⟨predicate, truth, hpredicate, hevaluate, hmeans⟩ :=
    hbody.agrees hwell hdocument parameters
  obtain ⟨s, hs, hentity, hskip, hlimit, hselection⟩ :=
    EntityType.selection_means hroot hwell hdocument parameters
  have hplan := Model.plan_filter hfound hs hentity hskip hlimit hpredicate fallback
  have hid : (document.resolve idElement).isSome = true := by
    rw [Document.resolve, Text.segments_of_isSegment EntityType.isSegment_idElement]
    exact (hwell.encoded hdocument).identified hroot
  have hcondition := PartialPlan.addPredicate_means (s := ⟨s, none⟩) hid hselection hmeans
  rw [Bool.true_and] at hcondition
  obtain ⟨hshaper, hskip', hlimit'⟩ := PartialPlan.addPredicate_bounds ⟨s, none⟩ predicate
  have hfinish := PartialPlan.finish_sequence hshaper
  obtain ⟨query, hquery, haccepts⟩ := Selection.toQuery_accepts
    (s := ((PartialPlan.addPredicate ⟨s, none⟩ predicate).finish .sequence).selection)
    (by rw [hfinish]; exact hskip'.trans hskip) (by rw [hfinish]; exact hlimit'.trans hlimit)
    (by rw [hfinish]; exact hcondition) cap
  exact ⟨_, query, truth, hplan, hquery, hevaluate, haccepts⟩

/-! ## Books by their authors -/

namespace Books

def declared (name : String) (kind : PropertyKind) : PropertyDeclaration :=
  ⟨name, kind, none, false, .natural, .utc, false, false, .never, false, .eastern⟩

/-- Books with tags and with authors inside of them, among other documents of their collection. -/
def books : ModelDeclaration :=
  ⟨.asDeclared, [
    ⟨"Book", false, none, ["Id"],
      [declared "Id" (.scalar .int64), declared "Tags" (.collection .list .string false)],
      [⟨"Author", "Person", none, none, true⟩], some ⟨"Kind", "book"⟩⟩,
    ⟨"Person", true, none, [],
      [declared "Name" (.scalar .string), declared "Alive" (.scalar .bool)], [], none⟩]⟩

def person : EntityType :=
  ⟨"Person", none,
    [Property.plain "Name" (.scalar .string), Property.plain "Alive" (.scalar .bool)], [], [], none⟩

def authorship : Navigation EntityType := ⟨"Author", "Author", person, none, true⟩

def book : EntityType :=
  ⟨"Book", some "Book",
    [{ Property.plain "Id" (.scalar .int64) with element := idElement },
      Property.plain "Tags" (.collection .list .string false)],
    [{ Property.plain "Id" (.scalar .int64) with element := idElement }],
    [authorship], some ⟨"Kind", "book"⟩⟩

def author : Entity := ⟨"Person", [("Alive", .bool true), ("Name", .string "Ann")]⟩

def novel : Entity :=
  ⟨"Book", [("Author", author.toValue), ("Id", .int64 7),
    ("Tags", .collection .list [.string "sea"])]⟩

/-- The author comes before "B" and is not alive, or the book is about the sea. -/
def condition : Expression :=
  let writer := Expression.member (.parameter "b") "Author"
  .binary .orElse
    (.binary .andAlso (.binary .greaterThan (.constant (.string "B")) (.member writer "Name"))
      (.not (.member writer "Alive")))
    (.call .contains [.member (.parameter "b") "Tags", .constant (.string "sea")])

theorem condition_novel : Condition "b" book novel condition := by
  have hauthor : Reaches "b" book novel (.member (.parameter "b") "Author") person author :=
    .owned (n := authorship) .argument rfl rfl rfl rfl
  have hname : ReadsProperty "b" book novel
      (.member (.member (.parameter "b") "Author") "Name") (.plain "Name" (.scalar .string))
      (.string "Ann") := .mk hauthor rfl rfl rfl (by rintro ⟨⟩)
  have halive : ReadsProperty "b" book novel
      (.member (.member (.parameter "b") "Author") "Alive") (.plain "Alive" (.scalar .bool))
      (.bool true) := .mk hauthor rfl rfl rfl (by rintro ⟨⟩)
  have htags : ReadsProperty "b" book novel (.member (.parameter "b") "Tags")
      (.plain "Tags" (.collection .list .string false)) (.collection .list [.string "sea"]) :=
    .mk .argument rfl rfl rfl (by rintro ⟨⟩)
  exact .orElse (.andAlso (.compareRight hname rfl (.string rfl "B")) (.not (.flag halive rfl)))
    (.element htags rfl "sea")

end Books

theorem Model.plan_agrees_books :
    ∃ document plan query, Books.books.build = .ok ⟨[Books.book, Books.person]⟩ ∧
      Books.book.encode Books.novel = .ok document ∧
      Model.plan ⟨[Books.book, Books.person]⟩ false
        (.call .filter [.entitySet "Book", .lambda "b" Books.condition]) = .ok plan ∧
      plan.selection.toQuery [] none = .ok query ∧ query.accepts document = true := by
  have hbuild : Books.books.build = .ok ⟨[Books.book, Books.person]⟩ := rfl
  obtain ⟨document, hdocument⟩ : ∃ document, Books.book.encode Books.novel = .ok document :=
    ⟨_, rfl⟩
  obtain ⟨plan, query, truth, hplan, hquery, hevaluate, haccepts⟩ := Model.plan_agrees hbuild
    List.mem_cons_self rfl hdocument Books.condition_novel false [] none
  have htrue : (⟨"b", Books.condition⟩ : Lambda).evaluate [] Books.novel.toValue =
      .ok (.bool true) := rfl
  have htruth : truth = true := by
    rw [htrue] at hevaluate
    cases hevaluate
    rfl
  exact ⟨document, plan, query, hbuild, hdocument, hplan, hquery, haccepts.trans htruth⟩

end DocMapping
