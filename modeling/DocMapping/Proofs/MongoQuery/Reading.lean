import DocMapping.Filter.Matching
import DocMapping.MongoQuery
import DocMapping.Proofs.Outcome

/-!
# The Meaning of Translated Filters

The documents that filters are translated to are given a meaning of their own, from the names of
their elements and the characters of their regular expressions.  A filter whose tests of texts have
texts as operands can be translated, and on every document the translation means what the filter
selects.  Whatever a text contains, its regular expression finds that text and no other.
-/

namespace DocMapping

/-! ## Regular expressions -/

/-- A literal text to look for, which may be tied to the start or the end of the text searched. -/
structure TextPattern where
  atStart : Bool
  text : String
  atEnd : Bool

namespace TextPattern

/-- The characters that stand for themselves only behind a backslash. -/
def metacharacters : List Char := "\\^$.|?*+()[]\x7b\x7d".toList

/-- The literal text of an expression, and whether it is tied to the end. -/
def readText : List Char → Option (List Char × Bool)
  | [] => some ([], false)
  | ['\\', 'z'] => some ([], true)
  | '\\' :: c :: rest =>
    if c ∈ metacharacters then (readText rest).map fun (text, atEnd) ↦ (c :: text, atEnd)
    else none
  | c :: rest =>
    if c ∈ metacharacters then none
    else (readText rest).map fun (text, atEnd) ↦ (c :: text, atEnd)

/-- The pattern of an expression, if it is one of a literal text. -/
def read (expression : String) : Option TextPattern :=
  match expression.toList with
  | '^' :: rest => (readText rest).map fun (text, atEnd) ↦ ⟨true, String.ofList text, atEnd⟩
  | characters =>
    (readText characters).map fun (text, atEnd) ↦ ⟨false, String.ofList text, atEnd⟩

def finds (p : TextPattern) (text : String) : Bool :=
  match p.atStart, p.atEnd with
  | true, true => text == p.text
  | true, false => Text.startsWith text p.text
  | false, true => Text.endsWith text p.text
  | false, false => Text.contains text p.text

/-- The field is a text in which the pattern is found. -/
def holds (p : TextPattern) : Option Bson → Bool
  | some (.string text) => p.finds text
  | _ => false

end TextPattern

/-! ## Documents -/

namespace MongoReading

/-- The test of a field that an operator name stands for. -/
def comparison? : String → Option FieldOperator
  | "$eq" => some .eq
  | "$ne" => some .ne
  | "$gt" => some .gt
  | "$gte" => some .gte
  | "$lt" => some .lt
  | "$lte" => some .lte
  | "$in" => some .anyOf
  | "$nin" => some .noneOf
  | _ => none

mutual

/-- All tests of a field hold. -/
def tests (field : Option Bson) : Document → Option Bool
  | [] => some true
  | (name, operand) :: rest => do
    let first ← test field name operand
    let others ← tests field rest
    return first && others

def test (field : Option Bson) (name : String) (operand : Bson) : Option Bool :=
  match name, operand with
  | "$exists", .boolean expected => some (field.isSome == expected)
  | "$regex", .string expression => (TextPattern.read expression).map fun p ↦ p.holds field
  | "$elemMatch", .document [("$eq", item)] => some (FieldOperator.containsElement.holds field item)
  | "$not", .document negated => (tests field negated).map (!·)
  | name, operand => (comparison? name).map fun operator ↦ operator.holds field operand

end

/-- The meaning of a group of conditions, by its name. -/
def group : String → List Bool → Option Bool
  | "$and", parts => some (parts.all id)
  | "$or", parts => some (parts.any id)
  | "$nor", parts => some (!parts.any id)
  | _, _ => none

mutual

/-- All conditions of a query hold of a document.  What is not a group of parts names a field. -/
def query (document : Document) : Document → Option Bool
  | [] => some true
  | (name, condition) :: rest => do
    let first ← element document name condition
    let others ← query document rest
    return first && others

def element (document : Document) (name : String) (condition : Bson) : Option Bool :=
  match condition with
  | .array items => do group name (← parts document items)
  | .document conditions => tests (document.resolve name) conditions
  | _ => none

def parts (document : Document) : List Bson → Option (List Bool)
  | [] => some []
  | item :: rest => do
    let first ← part document item
    let others ← parts document rest
    return first :: others

def part (document : Document) : Bson → Option Bool
  | .document conditions => query document conditions
  | _ => none

end

end MongoReading

/-! ## Patterns of texts -/

theorem Text.isPatternMark_iff {c : Char} :
    isPatternMark c = true ↔ c ∈ TextPattern.metacharacters := by
  rw [isPatternMark, List.contains_iff_mem]
  rfl

namespace TextPattern

open Text (isPatternMark isPatternMark_iff)

/-- The characters of a text with every metacharacter behind a backslash. -/
def escaped (text : List Char) : List Char :=
  text.flatMap fun c ↦ if isPatternMark c then ['\\', c] else [c]

theorem toList_pattern (text : String) : (Text.pattern text).toList = escaped text.toList :=
  String.toList_ofList

/-- A character that stands for itself is read, whatever follows. -/
theorem readText_plain {c : Char} (h : c ∉ metacharacters) (rest : List Char) :
    readText (c :: rest) = (readText rest).map fun (text, atEnd) ↦ (c :: text, atEnd) := by
  have hslash : c ≠ '\\' := fun heq ↦ h (heq ▸ by decide)
  rw [readText.eq_4, if_neg h]
  · exact fun heq ↦ absurd heq hslash
  · exact fun _ _ heq ↦ absurd heq hslash

theorem readText_mark {c : Char} (h : c ∈ metacharacters) (rest : List Char) :
    readText ('\\' :: c :: rest) = (readText rest).map fun (text, atEnd) ↦ (c :: text, atEnd) := by
  have hanchor : c ≠ 'z' := fun heq ↦ absurd (heq ▸ h) (by decide)
  rw [readText.eq_3, if_pos h]
  exact fun heq ↦ absurd heq hanchor

/-- An escaped text is read up to what follows it. -/
theorem readText_escaped (text tail : List Char) {atEnd : Bool}
    (htail : readText tail = some ([], atEnd)) :
    readText (escaped text ++ tail) = some (text, atEnd) := by
  induction text with
  | nil => exact htail
  | cons c rest ih =>
    rw [escaped, List.flatMap_cons, List.append_assoc]
    change readText (_ ++ (escaped rest ++ tail)) = _
    by_cases hmark : isPatternMark c = true
    · rw [if_pos hmark]
      change readText ('\\' :: c :: (escaped rest ++ tail)) = _
      rw [readText_mark (isPatternMark_iff.1 hmark), ih]
      rfl
    · rw [if_neg hmark]
      change readText (c :: (escaped rest ++ tail)) = _
      rw [readText_plain (mt isPatternMark_iff.2 hmark), ih]
      rfl

/-- An escaped text does not begin with the mark of the start. -/
theorem head?_escaped (text tail : List Char) (htail : tail.head? ≠ some '^') :
    (escaped text ++ tail).head? ≠ some '^' := by
  cases text with
  | nil => exact htail
  | cons c rest =>
    rw [escaped, List.flatMap_cons]
    split
    · simp
    · next hplain =>
      intro heq
      cases heq
      exact hplain (by decide)

theorem read_of_head? {expression : String} (h : expression.toList.head? ≠ some '^') :
    read expression =
      (readText expression.toList).map fun (text, atEnd) ↦ ⟨false, String.ofList text, atEnd⟩ := by
  unfold read
  split
  · next rest hrest =>
    rw [hrest] at h
    exact absurd rfl h
  · rfl

theorem read_pattern (text : String) : read (Text.pattern text) = some ⟨false, text, false⟩ := by
  have hread := readText_escaped text.toList [] rfl
  have hhead := head?_escaped text.toList [] (by simp)
  rw [List.append_nil, ← toList_pattern] at hread hhead
  rw [read_of_head? hhead, hread]
  simp

theorem read_start (text : String) :
    read ("^" ++ Text.pattern text) = some ⟨true, text, false⟩ := by
  have hread := readText_escaped text.toList [] rfl
  have hlist : ("^" ++ Text.pattern text).toList = '^' :: escaped text.toList := by
    rw [String.toList_append, toList_pattern]
    rfl
  rw [List.append_nil] at hread
  unfold read
  rw [hlist]
  change (readText (escaped text.toList)).map (fun (text, atEnd) ↦
    (⟨true, String.ofList text, atEnd⟩ : TextPattern)) = _
  rw [hread]
  simp

theorem read_end (text : String) :
    read (Text.pattern text ++ "\\z") = some ⟨false, text, true⟩ := by
  have hread := readText_escaped text.toList ['\\', 'z'] rfl
  have hhead := head?_escaped text.toList ['\\', 'z'] (by simp)
  have hlist : (Text.pattern text ++ "\\z").toList = escaped text.toList ++ ['\\', 'z'] := by
    rw [String.toList_append, toList_pattern]
    rfl
  rw [← hlist] at hread hhead
  rw [read_of_head? hhead, hread]
  simp

end TextPattern

/-! ## Tests -/

namespace MongoReading

variable {field : Option Bson} {operator : FieldOperator} {name : String} {operand : Bson}

theorem tests_singleton : tests field [(name, operand)] = test field name operand := by
  rw [tests, tests]
  cases test field name operand <;> simp

theorem test_comparison (h : comparison? name = some operator) :
    test field name operand = some (operator.holds field operand) := by
  unfold test
  split
  · cases h
  · cases h
  · cases h
  · cases h
  · rw [h]
    rfl

theorem test_element :
    test field "$elemMatch" (.document [("$eq", operand)]) =
      some (FieldOperator.containsElement.holds field operand) := by
  simp [test]

theorem test_not {negated : Document} :
    test field "$not" (.document negated) = (tests field negated).map (!·) := by
  simp [test]

/-- A regular expression is the test of the pattern that it is read as. -/
theorem test_regex {expression : String} {p : TextPattern} (accepts : String → String → Bool)
    (part : String) (hread : TextPattern.read expression = some p)
    (hfinds : ∀ text, p.finds text = accepts text part) :
    test field "$regex" (.string expression) =
      some (FieldOperator.textsField accepts field (.string part)) := by
  have hholds : p.holds field = FieldOperator.textsField accepts field (.string part) := by
    obtain _ | value := field
    · rfl
    · cases value with
      | string text => exact hfinds text
      | _ => rfl
  simp [test, hread, hholds]

end MongoReading

namespace FieldOperator

open MongoReading (tests_singleton test_comparison test_element test_not test_regex)

/-- The test looks for a text in a text. -/
def testsText : FieldOperator → Bool
  | contains | notContains | startsWith | endsWith => true
  | _ => false

variable {operator : FieldOperator} {operand : Bson}

/-- A test is translated if it looks for a text or for none, and it is read as what it is. -/
theorem toMongo_reads (name : String)
    (h : operator.testsText = true → ∃ text, operand = .string text) :
    ∃ query, operator.toMongo name operand = .ok query ∧
      ∀ field, MongoReading.tests field query = some (operator.holds field operand) := by
  cases operator with
  | eq | ne | gt | gte | lt | lte =>
    exact ⟨_, rfl, fun field ↦ tests_singleton.trans (test_comparison rfl)⟩
  | anyOf | noneOf =>
    -- a single candidate is translated to a list of one
    refine ⟨_, rfl, fun field ↦ ?_⟩
    rw [tests_singleton, test_comparison rfl]
    cases operand <;> rfl
  | containsElement =>
    exact ⟨_, rfl, fun field ↦ tests_singleton.trans test_element⟩
  | notContainsElement =>
    refine ⟨_, rfl, fun field ↦ ?_⟩
    rw [tests_singleton, test_not, tests_singleton, test_element]
    rfl
  | contains =>
    obtain ⟨text, rfl⟩ := h rfl
    refine ⟨_, rfl, fun field ↦ tests_singleton.trans ?_⟩
    exact test_regex Text.contains text (TextPattern.read_pattern text) fun _ ↦ rfl
  | startsWith =>
    obtain ⟨text, rfl⟩ := h rfl
    refine ⟨_, rfl, fun field ↦ tests_singleton.trans ?_⟩
    exact test_regex Text.startsWith text (TextPattern.read_start text) fun _ ↦ rfl
  | endsWith =>
    obtain ⟨text, rfl⟩ := h rfl
    refine ⟨_, rfl, fun field ↦ tests_singleton.trans ?_⟩
    exact test_regex Text.endsWith text (TextPattern.read_end text) fun _ ↦ rfl
  | notContains =>
    obtain ⟨text, rfl⟩ := h rfl
    refine ⟨_, rfl, fun field ↦ ?_⟩
    rw [tests_singleton, test_not, tests_singleton,
      test_regex Text.contains text (TextPattern.read_pattern text) fun _ ↦ rfl]
    rfl

theorem testsText_of_toMongo {name : String} {query : Document}
    (h : operator.toMongo name operand = .ok query) :
    operator.testsText = true → ∃ text, operand = .string text := by
  intro htexts
  cases operand with
  | string text => exact ⟨text, rfl⟩
  | _ =>
    cases operator with
    | contains | notContains | startsWith | endsWith => cases h
    | _ => cases htexts

end FieldOperator

/-! ## Filters -/

namespace Filter

mutual

/-- Where a filter looks for texts, its operands are texts. -/
def HasTextOperands : Filter Bson → Prop
  | all conditions => EachHasTextOperands conditions
  | any conditions => EachHasTextOperands conditions
  | not condition => HasTextOperands condition
  | present _ _ => True
  | test _ operator operand => operator.testsText = true → ∃ text, operand = .string text

def EachHasTextOperands : List (Filter Bson) → Prop
  | [] => True
  | condition :: rest => HasTextOperands condition ∧ EachHasTextOperands rest

end

/-- A filter is translated to a document that means what the filter selects. -/
def Translates (f : Filter Bson) : Prop :=
  ∃ query, f.toMongo = .ok query ∧
    ∀ document, MongoReading.query document query = some (f.holds document)

/-- A group is read as what its name says of the readings of its parts. -/
theorem query_group {name : String} {items : List Bson} {document : Document} {found : List Bool}
    (hparts : MongoReading.parts document items = some found) :
    MongoReading.query document [(name, .array items)] = MongoReading.group name found := by
  rw [MongoReading.query, MongoReading.query, MongoReading.element, hparts]
  change (MongoReading.group name found).bind _ = _
  cases MongoReading.group name found <;> simp

theorem query_field {name : String} {conditions document : Document} :
    MongoReading.query document [(name, .document conditions)] =
      MongoReading.tests (document.resolve name) conditions := by
  rw [MongoReading.query, MongoReading.query, MongoReading.element]
  cases MongoReading.tests (document.resolve name) conditions <;> simp

theorem allHold_eq (document : Document) (conditions : List (Filter Bson)) :
    allHold document conditions = (conditions.map (holds document)).all id := by
  induction conditions with
  | nil => rfl
  | cons condition rest ih => rw [allHold, ih, List.map_cons, List.all_cons, id]

theorem anyHolds_eq (document : Document) (conditions : List (Filter Bson)) :
    anyHolds document conditions = (conditions.map (holds document)).any id := by
  induction conditions with
  | nil => rfl
  | cons condition rest ih => rw [anyHolds, ih, List.map_cons, List.any_cons, id]

mutual

theorem translates : (f : Filter Bson) → f.HasTextOperands → f.Translates
  | all conditions, h => by
    obtain ⟨items, hitems, hread⟩ := eachTranslates conditions h
    cases conditions with
    | nil => exact ⟨[], by rw [toMongo], fun document ↦ rfl⟩
    | cons first rest =>
      have hquery : toMongo (all (first :: rest)) = .ok [("$and", .array items)] := by
        rw [toMongo, hitems]
        · rfl
        · simp
      refine ⟨_, hquery, fun document ↦ ?_⟩
      rw [query_group (hread document), holds, allHold_eq]
      rfl
  | any conditions, h => by
    obtain ⟨items, hitems, hread⟩ := eachTranslates conditions h
    cases conditions with
    | nil =>
      -- no alternatives are translated to the exclusion of the query that always holds
      refine ⟨_, by rw [toMongo], fun document ↦ ?_⟩
      have hparts : MongoReading.parts document [.document []] = some [true] := rfl
      rw [query_group hparts, holds, anyHolds]
      rfl
    | cons first rest =>
      have hquery : toMongo (any (first :: rest)) = .ok [("$or", .array items)] := by
        rw [toMongo, hitems]
        · rfl
        · simp
      refine ⟨_, hquery, fun document ↦ ?_⟩
      rw [query_group (hread document), holds, anyHolds_eq]
      rfl
  | not condition, h => by
    obtain ⟨inner, hinner, hread⟩ := translates condition h
    refine ⟨_, by rw [toMongo, hinner]; rfl, fun document ↦ ?_⟩
    have hparts : MongoReading.parts document [.document inner] =
        some [condition.holds document] := by
      rw [MongoReading.parts, MongoReading.parts, MongoReading.part, hread]
      rfl
    rw [query_group hparts, holds]
    change some (!(condition.holds document || false)) = _
    rw [Bool.or_false]
  | present field expected, _ => by
    refine ⟨_, by rw [toMongo], fun document ↦ ?_⟩
    rw [query_field, MongoReading.tests_singleton, holds]
    simp [MongoReading.test]
  | test field operator operand, h => by
    obtain ⟨inner, hinner, hread⟩ := operator.toMongo_reads field h
    refine ⟨_, by rw [toMongo, hinner]; rfl, fun document ↦ ?_⟩
    rw [query_field, hread, holds]

theorem eachTranslates : (conditions : List (Filter Bson)) → EachHasTextOperands conditions →
    ∃ items, toMongoEach conditions = .ok items ∧
      ∀ document, MongoReading.parts document items = some (conditions.map (holds document))
  | [], _ => ⟨[], by rw [toMongoEach], fun _ ↦ rfl⟩
  | condition :: rest, h => by
    obtain ⟨first, hfirst, hread⟩ := translates condition h.1
    obtain ⟨others, hothers, hreads⟩ := eachTranslates rest h.2
    refine ⟨.document first :: others, by rw [toMongoEach, hfirst, hothers]; rfl, fun document ↦ ?_⟩
    rw [MongoReading.parts, MongoReading.part, hread, hreads]
    rfl

end

mutual

/-- What is looked for in a text is a text wherever a filter can be translated. -/
theorem hasTextOperands_of_toMongo : (f : Filter Bson) → {query : Document} →
    f.toMongo = .ok query → f.HasTextOperands
  | all [], _, _ => trivial
  | all (first :: rest), _, h => by
    rw [toMongo] at h
    · obtain ⟨items, hitems, -⟩ := Outcome.map_eq_ok.1 h
      exact eachHasTextOperands_of_toMongo (first :: rest) hitems
    · simp
  | any [], _, _ => trivial
  | any (first :: rest), _, h => by
    rw [toMongo] at h
    · obtain ⟨items, hitems, -⟩ := Outcome.map_eq_ok.1 h
      exact eachHasTextOperands_of_toMongo (first :: rest) hitems
    · simp
  | not condition, _, h => by
    rw [toMongo] at h
    obtain ⟨inner, hinner, -⟩ := Outcome.map_eq_ok.1 h
    exact hasTextOperands_of_toMongo condition hinner
  | present _ _, _, _ => trivial
  | test field operator operand, _, h => by
    rw [toMongo] at h
    obtain ⟨inner, hinner, -⟩ := Outcome.map_eq_ok.1 h
    exact operator.testsText_of_toMongo hinner

theorem eachHasTextOperands_of_toMongo : (conditions : List (Filter Bson)) → {items : List Bson} →
    toMongoEach conditions = .ok items → EachHasTextOperands conditions
  | [], _, _ => trivial
  | condition :: rest, _, h => by
    rw [toMongoEach] at h
    obtain ⟨first, hfirst, h⟩ := Outcome.bind_eq_ok.1 h
    obtain ⟨others, hothers, -⟩ := Outcome.bind_eq_ok.1 h
    exact ⟨hasTextOperands_of_toMongo condition hfirst, eachHasTextOperands_of_toMongo rest hothers⟩

end

/-- A filter can be translated exactly if it looks for texts in texts, and the translation means on
every document what the filter selects. -/
theorem toMongo_means (f : Filter Bson) :
    (f.HasTextOperands ↔ ∃ query, f.toMongo = .ok query) ∧
      ∀ query, f.toMongo = .ok query →
        ∀ document, MongoReading.query document query = some (f.holds document) := by
  refine ⟨⟨fun h ↦ ?_, fun ⟨query, hquery⟩ ↦ hasTextOperands_of_toMongo f hquery⟩, ?_⟩
  · obtain ⟨query, hquery, -⟩ := translates f h
    exact ⟨query, hquery⟩
  · intro query hquery
    obtain ⟨_, hsame, hread⟩ := translates f (hasTextOperands_of_toMongo f hquery)
    cases hquery.symm.trans hsame
    exact hread

/-- Names and tags that are looked for by texts which look like expressions. -/
def unmarked : Filter Bson :=
  any [any [], not (all []), not (test "name" .startsWith (.string "^a.b")),
    test "tag" .notContains (.string "\\z"), test "name" .endsWith (.string "\\")]

theorem toMongo_means_unmarked :
    unmarked.HasTextOperands ∧ ∃ query, unmarked.toMongo = .ok query ∧
      query = [("$or", .array [
        .document [("$nor", .array [.document []])],
        .document [("$nor", .array [.document []])],
        .document [("$nor", .array [
          .document [("name", .document [("$regex", .string "^\\^a\\.b")])]])],
        .document [("tag", .document [("$not", .document [("$regex", .string "\\\\z")])])],
        .document [("name", .document [("$regex", .string "\\\\\\z")])]])] ∧
      MongoReading.query [("name", .string "^a.b"), ("tag", .string "a\\z")] query =
        some false ∧
      MongoReading.query [("name", .string "^a.b\\"), ("tag", .string "a\\z")] query =
        some true := by
  obtain ⟨htexts, hreads⟩ := toMongo_means unmarked
  have hquery : ∃ query, unmarked.toMongo = .ok query ∧ query = _ := ⟨_, rfl, rfl⟩
  obtain ⟨query, htranslated, heq⟩ := hquery
  refine ⟨htexts.2 ⟨query, htranslated⟩, query, htranslated, heq, ?_, ?_⟩
  · exact (hreads query htranslated _).trans (by decide)
  · exact (hreads query htranslated _).trans (by decide)

end Filter

end DocMapping
