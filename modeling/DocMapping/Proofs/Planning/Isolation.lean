import DocMapping.Proofs.Bson.Order
import DocMapping.Proofs.Model.Shared
import DocMapping.Proofs.Planning.Conditions
import DocMapping.Proofs.Planning.Sources

/-!
# Types in One Collection

Every query asks for the discriminator of its type before anything else, whatever operators it is
made of.  A document of another type of the collection is selected only if it holds the text of this
discriminator, which its own discriminator never does, but which another of its elements may.
-/

namespace DocMapping

/-- The condition that a document holds the text of a discriminator. -/
def Discriminator.condition (d : Discriminator) : Filter Operand :=
  .test d.element .eq (.constant (.string d.value))

/-- One of the conditions on what is selected is the discriminator of its type. -/
def Selection.IsDiscriminated (s : Selection) : Prop :=
  ∀ d ∈ s.entity.discriminator, ∃ filter ∈ s.filter, d.condition ∈ filter.conjuncts

/-! ## Planning -/

theorem EntityType.selection_isDiscriminated {t : EntityType} {s : Selection}
    (h : t.selection = .ok s) : s.IsDiscriminated := by
  unfold selection at h
  split at h
  · cases h
  · cases h
    intro d hd
    rw [Option.mem_def.1 hd]
    exact ⟨d.condition, rfl, List.mem_singleton_self _⟩

namespace PartialPlan

variable {s : PartialPlan}

/-- Conditions are added behind those that are there. -/
theorem addPredicate_isDiscriminated (h : s.selection.IsDiscriminated) (predicate : Predicate) :
    (s.addPredicate predicate).selection.IsDiscriminated := by
  have hrestrict (condition : Filter Operand) :
      (s.addPredicate (.filter condition)).selection.IsDiscriminated := by
    intro d hd
    obtain ⟨existing, hexisting, hmem⟩ := h d hd
    refine ⟨existing.and condition, ?_, ?_⟩
    · unfold addPredicate
      rw [Option.mem_def.1 hexisting]
      rfl
    · rw [Filter.and_eq]
      exact List.mem_append_left [condition] hmem
  cases predicate with
  | filter condition => exact hrestrict condition
  | always holds =>
    cases holds with
    | true => exact h
    | false => exact hrestrict (.present idElement false)

theorem isDiscriminated_invariant (model : Model) (fallback : Bool) :
    Invariant model fallback fun s ↦ s.selection.IsDiscriminated where
  documents _ _ _ := EntityType.selection_isDiscriminated
  condition h _ := addPredicate_isDiscriminated h _
  arrangement _ _ _ h := h
  projection h hselect := by
    obtain ⟨projection, hselection⟩ := select_selection hselect
    rw [hselection]
    exact h

end PartialPlan

theorem Model.plan_isDiscriminated {model : Model} {fallback : Bool} {e : Expression} {plan : Plan}
    (h : model.plan fallback e = .ok plan) : plan.selection.IsDiscriminated := by
  obtain ⟨s, terminal, hs, rfl⟩ := (PartialPlan.isDiscriminated_invariant model fallback).plan h
  unfold PartialPlan.finish
  split <;> exact hs

/-! ## Documents -/

/-- Only a text equals a text. -/
theorem Bson.matchesValue_string {stored : Bson} {text : String} :
    stored.matchesValue (.string text) = true ↔ stored = .string text := by
  constructor
  · intro h
    obtain ⟨hkey, -⟩ := matchesValue_iff.1 h
    cases stored with
    | string other =>
      rw [sortKey, sortKey, SortKey.string.injEq] at hkey
      rw [hkey]
    | decimal128 value =>
      rw [sortKey, sortKey] at hkey
      split at hkey <;> cases hkey
    | _ => cases hkey
  · rintro rfl
    exact IsOrdered.matchesValue_self (by simp [IsOrdered, sortKey])

theorem FieldOperator.holds_eq_string {field : Option Bson} {text : String} :
    FieldOperator.eq.holds field (.string text) = true ↔ field = some (.string text) := by
  cases field with
  | none => exact ⟨fun h ↦ (by cases h), fun h ↦ (by cases h)⟩
  | some stored => exact Bson.matchesValue_string.trans Option.some_inj.symm

/-- Where a condition holds, everything holds that it is a conjunction of. -/
theorem Filter.holds_of_mem_conjuncts {α ε : Type} {convert : α → Except ε Bson} {a : Filter α}
    {bound : Filter Bson} (hbound : a.mapM convert = .ok bound) {document : Document}
    (hholds : bound.holds document = true) {c : Filter α} (hc : c ∈ a.conjuncts) :
    ∃ conjunct, c.mapM convert = .ok conjunct ∧ conjunct.holds document = true := by
  have hconjuncts : a.conjuncts.mapM (mapM convert) = .ok bound.conjuncts := by
    rw [mapM_conjuncts, hbound]
    rfl
  obtain ⟨conjunct, hmem, hconjunct⟩ := Outcome.mem_of_mapM hconjuncts hc
  rw [← all_conjuncts, List.all_eq_true] at hholds
  exact ⟨conjunct, hconjunct, hholds conjunct hmem⟩

variable {parameters : Parameters} {cap : Option Nat} {query : Query} {document : Document}

theorem Selection.toQuery_filter {s : Selection} (h : s.toQuery parameters cap = .ok query) :
    bindOption (·.mapM (Operand.bind parameters)) s.filter = .ok query.filter := by
  obtain ⟨filter, hfilter, h⟩ := Outcome.bind_eq_ok.1 h
  obtain ⟨_, -, h⟩ := Outcome.bind_eq_ok.1 h
  obtain ⟨_, -, h⟩ := Outcome.bind_eq_ok.1 h
  cases h
  exact hfilter

/-- What a query selects has the discriminator of its type. -/
theorem Selection.IsDiscriminated.get?_of_accepts {s : Selection} (h : s.IsDiscriminated)
    (hwell : s.entity.WellFormed) (hquery : s.toQuery parameters cap = .ok query)
    (haccepts : query.accepts document = true) {d : Discriminator}
    (hd : d ∈ s.entity.discriminator) : document.get? d.element = some (.string d.value) := by
  obtain ⟨filter, hfilter, hmem⟩ := h d hd
  have hquery := Selection.toQuery_filter hquery
  rw [Option.mem_def.1 hfilter] at hquery
  obtain ⟨bound, hbound, hsome⟩ := Outcome.map_eq_ok.1 hquery
  unfold Query.accepts at haccepts
  rw [← hsome] at haccepts
  obtain ⟨conjunct, hconjunct, hholds⟩ := Filter.holds_of_mem_conjuncts hbound haccepts hmem
  cases hconjunct
  rwa [Filter.holds_test, hwell.resolve_discriminator hd, FieldOperator.holds_eq_string] at hholds

/-- The query for all documents of a type asks for nothing but the discriminator. -/
theorem EntityType.exists_accepts {model : Model} {t : EntityType}
    (hmodel : model.entity? t.name = some t) (hroot : t.isOwned = false) (hwell : t.WellFormed)
    {d : Discriminator} (hd : t.discriminator = some d) (parameters : Parameters)
    (hget : document.get? d.element = some (.string d.value)) :
    ∃ plan query, model.plan false (.entitySet t.name) = .ok plan ∧ plan.selection.entity = t ∧
      plan.selection.toQuery parameters none = .ok query ∧ query.accepts document = true := by
  obtain ⟨selection, hselection, hentity, hskip, hlimit, hfilter⟩ : ∃ selection,
      t.selection = .ok selection ∧ selection.entity = t ∧ selection.skip = none ∧
      selection.limit = none ∧ selection.filter = some d.condition := by
    obtain ⟨collection, hcollection⟩ : ∃ collection, t.collection = some collection :=
      Option.isSome_iff_exists.1 (Option.isNone_eq_false_iff.1 hroot)
    unfold EntityType.selection
    rw [hcollection, hd]
    exact ⟨_, rfl, rfl, rfl, rfl, rfl⟩
  have hplan : model.plan false (.entitySet t.name) =
      .ok ((⟨selection, none⟩ : PartialPlan).finish .sequence) := by
    change ((Expression.entitySet t.name).source model false >>= fun s ↦
      pure (s.finish .sequence) : Outcome Plan) = _
    rw [Expression.source, hmodel]
    dsimp only
    rw [hselection]
    rfl
  have hholds : (Filter.test d.element .eq (.string d.value)).holds document = true := by
    rw [Filter.holds_test, hwell.resolve_discriminator hd, hget]
    exact FieldOperator.holds_eq_string.2 rfl
  have hmeans : selection.condition.Means parameters document true := by
    unfold Selection.condition
    rw [hfilter, ← hholds]
    exact .filter rfl (.test (.of_unordered rfl))
  obtain ⟨query, hquery, haccepts⟩ := Selection.toQuery_accepts
    (s := ((⟨selection, none⟩ : PartialPlan).finish .sequence).selection) hskip hlimit hmeans none
  exact ⟨_, query, hplan, hentity, hquery, haccepts⟩

/-- Of the documents of one type in a shared collection, queries of another type select exactly those
that hold the text of its discriminator where it lies.  It then lies in an element of its own. -/
theorem Model.plan_isolates {m : ModelDeclaration} {model : Model} (hmodel : m.build = .ok model)
    {s t : EntityType} (hs : s ∈ model.entities) (ht : t ∈ model.entities) (hne : s ≠ t)
    {collection : String} (hscollection : s.collection = some collection)
    (htcollection : t.collection = some collection) {e : Entity}
    (hdocument : t.encode e = .ok document) :
    (∃ fallback expression plan parameters cap query,
      model.plan fallback expression = .ok plan ∧ plan.selection.entity = s ∧
      plan.selection.toQuery parameters cap = .ok query ∧ query.accepts document = true) ↔
    ∃ d ∈ s.discriminator, ∃ own ∈ t.discriminator, d.element ≠ own.element ∧
      document.get? d.element = some (.string d.value) := by
  have hwell := ModelDeclaration.wellFormed_of_build hmodel
  obtain ⟨d, hd, own, hown, hvalue⟩ :=
    ModelDeclaration.discriminated_of_build hmodel hs ht hne hscollection htcollection
  constructor
  · rintro ⟨fallback, expression, plan, parameters, cap, query, hplan, rfl, hquery, haccepts⟩
    have hget := (Model.plan_isDiscriminated hplan).get?_of_accepts (hwell _ hs) hquery haccepts hd
    refine ⟨d, hd, own, hown, fun helement ↦ hvalue ?_, hget⟩
    have hwritten := ((hwell t ht).encoded hdocument).discriminator own hown
    rw [← helement, hget, Option.some_inj, Bson.string.injEq] at hwritten
    exact hwritten
  · rintro ⟨d, hd, -, -, -, hget⟩
    obtain ⟨plan, query, hplan, hentity, hquery, haccepts⟩ :=
      EntityType.exists_accepts (ModelDeclaration.entity?_of_build hmodel s hs)
        (by rw [EntityType.isOwned, hscollection]; rfl) (hwell s hs) hd [] hget
    exact ⟨false, _, plan, [], none, query, hplan, hentity, hquery, haccepts⟩

/-! ## Posts -/

namespace Posts

def declared (name : String) : PropertyDeclaration :=
  ⟨name, .scalar .string, none, false, .natural, .utc, false, false, .never, false, .eastern⟩

/-- Articles and comments in one collection, each with a discriminator in an element of its own.  A
comment has a kind, which is stored where the discriminator of articles lies. -/
def posts : ModelDeclaration :=
  ⟨.asDeclared, [
    ⟨"Article", false, some "Posts", ["Id"], [declared "Id"], [], some ⟨"Kind", "article"⟩⟩,
    ⟨"Comment", false, some "Posts", ["Id"], [declared "Id", declared "Kind"], [],
      some ⟨"Type", "comment"⟩⟩]⟩

def key : Property := { Property.plain "Id" (.scalar .string) with element := idElement }

def article : EntityType :=
  ⟨"Article", some "Posts", [key], [key], [], some ⟨"Kind", "article"⟩⟩

def comment : EntityType :=
  ⟨"Comment", some "Posts", [key, Property.plain "Kind" (.scalar .string)], [key], [],
    some ⟨"Type", "comment"⟩⟩

/-- A comment of a kind. -/
def written (kind : String) : Entity :=
  ⟨"Comment", [("Id", .string "c"), ("Kind", .string kind)]⟩

end Posts

/-- No query of articles finds a reply. -/
theorem Model.plan_isolates_replies :
    Posts.posts.build = .ok ⟨[Posts.article, Posts.comment]⟩ ∧
      ∃ document, Posts.comment.encode (Posts.written "reply") = .ok document ∧
        ¬∃ fallback expression plan parameters cap query,
          Model.plan ⟨[Posts.article, Posts.comment]⟩ fallback expression = .ok plan ∧
          plan.selection.entity = Posts.article ∧
          plan.selection.toQuery parameters cap = .ok query ∧ query.accepts document = true := by
  have hbuild : Posts.posts.build = .ok ⟨[Posts.article, Posts.comment]⟩ := rfl
  obtain ⟨document, hdocument⟩ :
      ∃ document, Posts.comment.encode (Posts.written "reply") = .ok document := ⟨_, rfl⟩
  have hne : Posts.article ≠ Posts.comment := fun h ↦ absurd (congrArg EntityType.name h) (by decide)
  refine ⟨hbuild, document, hdocument, ?_⟩
  rw [Model.plan_isolates hbuild List.mem_cons_self (by simp) hne rfl rfl hdocument]
  rintro ⟨d, hd, -, -, -, hget⟩
  cases hd
  cases hdocument
  have hkind : some (Bson.string "reply") = some (Bson.string "article") := hget
  simp at hkind

/-- The query for all articles finds a comment of the kind "article". -/
theorem Model.plan_confuses_comments :
    Posts.posts.build = .ok ⟨[Posts.article, Posts.comment]⟩ ∧
      Posts.article.name ≠ Posts.comment.name ∧
      Posts.article.collection = Posts.comment.collection ∧
      ∃ document plan query, Posts.comment.encode (Posts.written "article") = .ok document ∧
        Model.plan ⟨[Posts.article, Posts.comment]⟩ false (.entitySet "Article") = .ok plan ∧
        plan.selection.entity = Posts.article ∧
        plan.selection.toQuery [] none = .ok query ∧ query.accepts document = true := by
  refine ⟨rfl, by decide, rfl, _, _, _, rfl, rfl, rfl, rfl, ?_⟩
  decide

end DocMapping
