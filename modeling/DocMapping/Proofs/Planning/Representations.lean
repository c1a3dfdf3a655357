import DocMapping.Proofs.Codec.StoredOrder
import DocMapping.Proofs.Planning.Tests

/-!
# Comparisons in the Stored Form

A comparison of a member with a constant is planned as a test of the field against the stored form
of the constant, and so it sees the order of the stored forms.  That is the order of the values
exactly where the property keeps it: of numbers that are stored as texts it mostly is not.
-/

namespace DocMapping

/-! ## Comparisons and orders -/

namespace BinaryOperator

/-- The comparison holds of two operands in this order. -/
def accepts (operator : BinaryOperator) (order : Ordering) : Bool :=
  match operator with
  | equal => order == .eq
  | notEqual => !(order == .eq)
  | lessThan => order.isLT
  | lessThanOrEqual => order.isLE
  | greaterThan => order.isGT
  | greaterThanOrEqual => order.isGE
  | _ => false

/-- The comparison is planned as a test, which holds of a field in an order to the operand if the
comparison does. -/
theorem exists_test {operator : BinaryOperator} (h : operator.isComparison = true)
    {stored operand : Bson} {order : Ordering} (hstands : stored.Stands operand order) :
    ∃ test, operator.fieldOperator? = some test ∧ test.Decides (some stored) operand ∧
      test.holds (some stored) operand = operator.accepts order := by
  have horders (accepts : Ordering → Bool) :
      FieldOperator.ordersField accepts (some stored) operand = accepts order := by
    rw [FieldOperator.ordersField, Option.bind_some, hstands.order?]
    rfl
  have hdecides (test : FieldOperator) : test.Decides (some stored) operand := fun _ ↦ by
    rw [Option.bind_some, hstands.order?]
    rfl
  cases operator with
  | equal => exact ⟨.eq, rfl, hdecides _, hstands.matchesValue⟩
  | notEqual => exact ⟨.ne, rfl, hdecides _, congrArg (! ·) hstands.matchesValue⟩
  | lessThan => exact ⟨.lt, rfl, hdecides _, horders _⟩
  | lessThanOrEqual => exact ⟨.lte, rfl, hdecides _, horders _⟩
  | greaterThan => exact ⟨.gt, rfl, hdecides _, horders _⟩
  | greaterThanOrEqual => exact ⟨.gte, rfl, hdecides _, horders _⟩
  | andAlso | orElse | add | subtract | multiply | divide => cases h

end BinaryOperator

/-- A predicate stands for no more than one truth value. -/
theorem Predicate.Means.unique {parameters : Parameters} {document : Document} {a : Predicate}
    {p q : Bool} (h : a.Means parameters document p) (h' : a.Means parameters document q) :
    p = q := by
  cases h with
  | always =>
    cases h'
    rfl
  | filter hbound =>
    cases h' with
    | filter hbound' =>
      cases hbound.symm.trans hbound'
      rfl

namespace Scope

/-- In the document, every comparison of the member with the constant is planned as a condition that
holds if the comparison holds in this order. -/
def Ranks (s : Scope) (parameters : Parameters) (document : Document) (m : Expression)
    (constant : Value) (order : Ordering) : Prop :=
  ∀ operator : BinaryOperator, operator.isComparison = true →
    ∃ predicate, s.predicate (.binary operator m (.constant constant)) = .ok predicate ∧
      predicate.Means parameters document (operator.accepts order)

variable {s : Scope} {parameters : Parameters} {document : Document} {m : Expression}
  {constant : Value} {p : Property} {path : List String} {stored operand : Bson}

/-- The comparisons tell the order. -/
theorem Ranks.unique {order other : Ordering}
    (h : s.Ranks parameters document m constant order)
    (h' : s.Ranks parameters document m constant other) : order = other := by
  have haccepts (operator : BinaryOperator) (hcomparison : operator.isComparison = true) :
      operator.accepts order = operator.accepts other := by
    obtain ⟨predicate, hpredicate, hmeans⟩ := h operator hcomparison
    obtain ⟨predicate', hpredicate', hmeans'⟩ := h' operator hcomparison
    cases hpredicate.symm.trans hpredicate'
    exact hmeans.unique hmeans'
  have hless : order.isLT = other.isLT := haccepts .lessThan rfl
  have hgreater : order.isGT = other.isGT := haccepts .greaterThan rfl
  revert hless hgreater
  cases order <;> cases other <;> decide

theorem ranks_stands (hresolve : s.resolve m = .ok (some (.property path p)))
    (hconstant : constant ≠ .null) (hoperand : p.encode constant = .ok operand)
    (hfield : document.resolve (Text.dotted path) = some stored) {order : Ordering}
    (hstands : stored.Stands operand order) (parameters : Parameters) :
    s.Ranks parameters document m constant order := by
  intro operator hcomparison
  obtain ⟨test, htest, hdecides, hholds⟩ := BinaryOperator.exists_test hcomparison hstands
  have hflipped : operator.flipped.isComparison = true := by
    rw [← hcomparison]
    cases operator <;> rfl
  obtain ⟨flipped, hflippedTest, -⟩ := BinaryOperator.exists_test hflipped hstands
  refine ⟨.test path test (.constant operand), ?_, ?_⟩
  · rw [predicate_comparison s htest hflippedTest, comparison_left hresolve (resolve_constant s _),
      compareTarget, Property.operand_constant .scalar hconstant hoperand]
    rfl
  · rw [← hholds]
    exact Predicate.means_test hfield hdecides

/-- Comparisons of a member with a constant, both stored without loss, are planned as conditions of
the stored forms.  They agree with the order of the values exactly if the property keeps it, as it
always does for times, for numbers of 32 bits that are not stored as texts, for date-times if local
ones are in a zone that reads repeated times alike, and for other orderly values. -/
theorem ranks_iff_keepsOrder {kind : ScalarKind} {x : Value}
    (hresolve : s.resolve m = .ok (some (.property path p))) (hkind : p.kind = .scalar kind)
    (hvalue : HasOrder kind x) (hconstant : HasOrder kind constant)
    (hx : p.Lossless x stored) (hc : p.Lossless constant operand)
    (hfield : document.resolve (Text.dotted path) = some stored) (parameters : Parameters) :
    ∃ natural order, x.order? constant = some natural ∧
      s.Ranks parameters document m constant order ∧
      (s.Ranks parameters document m constant natural ↔ p.KeepsOrder x constant) ∧
      (p.IsOrderly x → p.IsOrderly constant →
        s.Ranks parameters document m constant natural) := by
  obtain ⟨natural, order, hnatural, hstands, hkeeps⟩ := hx.stands hc hkind hvalue hconstant
  have hnull : constant ≠ .null := by cases hconstant <;> simp
  have hranks := ranks_stands hresolve hnull hc.encoded hfield hstands parameters
  have hiff : s.Ranks parameters document m constant natural ↔ p.KeepsOrder x constant := by
    rw [← hkeeps]
    exact ⟨hranks.unique, fun h ↦ h ▸ hranks⟩
  exact ⟨natural, order, hnatural, hranks, hiff, fun hx' hc' ↦
    hiff.2 (hx'.keepsOrder hc' hx hc hkind hvalue hconstant)⟩

end Scope

namespace DistantMoons

def declared (name : String) (kind : ScalarKind) (representation : Representation) :
    PropertyDeclaration :=
  ⟨name, .scalar kind, none, false, representation, .utc, false, false, .never, false, .eastern⟩

/-- Moons by name, with their distance and with a number that is stored as a text. -/
def moons : ModelDeclaration :=
  ⟨.asDeclared, [⟨"Moon", false, none, ["Name"],
    [declared "Name" .string .natural, declared "Distance" .int64 .natural,
      declared "Number" .int32 .string], [], none⟩]⟩

def name : Property := { Property.plain "Name" (.scalar .string) with element := idElement }

def distance : Property := Property.plain "Distance" (.scalar .int64)

def number : Property :=
  { Property.plain "Number" (.scalar .int32) with representation := .string }

def moon : EntityType := ⟨"Moon", some "Moon", [name, distance, number], [name], [], none⟩

/-- A moon of a distance. -/
def far (distance : Int64) : Document := [("_id", .string "Io"), ("Distance", .int64 distance)]

/-- A moon of a number. -/
def numbered (number : String) : Document :=
  [("_id", .string "Io"), ("Number", .string number)]

theorem lossless_distance (d : Int64) (h : distance.encode (.int64 d) = .ok (.int64 d))
    (h' : distance.decode (.int64 d) = .ok (.int64 d)) :
    distance.Lossless (.int64 d) (.int64 d) :=
  ⟨h, _, h', beq_self_eq_true d⟩

theorem resolve_distance : (⟨"m", moon⟩ : Scope).resolve (.member (.parameter "m") "Distance") =
    .ok (some (.property ["Distance"] distance)) := rfl

theorem resolve_far (d : Int64) :
    (far d).resolve (Text.dotted ["Distance"]) = some (.int64 d) := rfl

/-- The local time at which a moon rises. -/
def rise : Property :=
  { Property.plain "Rise" (.scalar .dateTime) with dateTimeKind := .local, zone := .eastern }

def risingMoon : EntityType := ⟨"Moon", some "Moon", [name, rise], [name], [], none⟩

/-- Midnight before the clock is put back. -/
def lastOfSummer : DateTime := ⟨⟨⟨20394, by decide, by decide⟩, .midnight⟩, .local⟩

/-- The next midnight, twenty-five hours later. -/
def firstOfWinter : DateTime := ⟨⟨⟨20395, by decide, by decide⟩, .midnight⟩, .local⟩

def risen (milliseconds : Int64) : Document :=
  [("_id", .string "Io"), ("Rise", .dateTime milliseconds)]

theorem lossless_rise : rise.Lossless (.dateTime lastOfSummer) (.dateTime 1762056000000) ∧
    rise.Lossless (.dateTime firstOfWinter) (.dateTime 1762146000000) :=
  ⟨⟨rfl, .dateTime lastOfSummer, rfl, rfl⟩, ⟨rfl, .dateTime firstOfWinter, rfl, rfl⟩⟩

theorem isOrderly_rise (d : DateTime) : rise.IsOrderly (.dateTime d) :=
  fun _ ↦ .inr Zone.Eastern.readsLast

theorem ranks_iff_keepsOrder_distance :
    moons.build = .ok ⟨[moon]⟩ ∧ distance.Lossless (.int64 384400) (.int64 384400) ∧
      distance.Lossless (.int64 363300) (.int64 363300) ∧
      (⟨"m", moon⟩ : Scope).Ranks [] (far 384400) (.member (.parameter "m") "Distance")
        (.int64 363300) .gt ∧
      (⟨"m", risingMoon⟩ : Scope).Ranks [] (risen 1762056000000)
        (.member (.parameter "m") "Rise") (.dateTime firstOfWinter) .lt := by
  have hfar := lossless_distance 384400 rfl rfl
  have hnear := lossless_distance 363300 rfl rfl
  obtain ⟨natural, _, hnatural, -, -, horderly⟩ :=
    Scope.ranks_iff_keepsOrder resolve_distance rfl (.int64 384400) (.int64 363300) hfar hnear
      (resolve_far 384400) []
  cases hnatural
  have hresolve : (⟨"m", risingMoon⟩ : Scope).resolve (.member (.parameter "m") "Rise") =
      .ok (some (.property ["Rise"] rise)) := rfl
  have hrisen : (risen 1762056000000).resolve (Text.dotted ["Rise"]) =
      some (.dateTime 1762056000000) := rfl
  obtain ⟨natural, _, hrises, -, -, hrise⟩ := Scope.ranks_iff_keepsOrder hresolve rfl
    (.dateTime lastOfSummer) (.dateTime firstOfWinter) lossless_rise.1 lossless_rise.2 hrisen []
  cases hrises
  exact ⟨rfl, hfar, hnear, horderly ⟨by decide, fun _ _ ↦ by decide⟩
    ⟨by decide, fun _ _ ↦ by decide⟩, hrise (isOrderly_rise _) (isOrderly_rise _)⟩

/-- Ten is not found above nine where numbers are stored as texts, nor `2 ^ 53 + 1` above `2 ^ 53`
where they are stored as numbers. -/
theorem ranks_loses_order :
    moons.build = .ok ⟨[moon]⟩ ∧
      (number.Lossless (.int32 10) (.string "10") ∧ number.Lossless (.int32 9) (.string "9") ∧
        (Value.int32 10).order? (.int32 9) = some .gt ∧
        ¬(⟨"m", moon⟩ : Scope).Ranks [] (numbered "10") (.member (.parameter "m") "Number")
          (.int32 9) .gt) ∧
      (distance.Lossless (.int64 9007199254740993) (.int64 9007199254740993) ∧
        distance.Lossless (.int64 9007199254740992) (.int64 9007199254740992) ∧
        (Value.int64 9007199254740993).order? (.int64 9007199254740992) = some .gt ∧
        ¬(⟨"m", moon⟩ : Scope).Ranks [] (far 9007199254740993)
          (.member (.parameter "m") "Distance") (.int64 9007199254740992) .gt) := by
  have hnine : number.Lossless (.int32 9) (.string "9") := ⟨rfl, .int32 9, rfl, rfl⟩
  have hnumber : (⟨"m", moon⟩ : Scope).resolve (.member (.parameter "m") "Number") =
      .ok (some (.property ["Number"] number)) := rfl
  have hten : (numbered "10").resolve (Text.dotted ["Number"]) = some (.string "10") := rfl
  have htexts := Scope.ranks_stands hnumber (by simp) hnine.encoded hten (.string "10" "9") []
  have hedge := lossless_distance 9007199254740992 rfl rfl
  have hnumbers := Scope.ranks_stands resolve_distance (by simp) hedge.encoded
    (resolve_far 9007199254740993) (.number (by rw [Bson.sortKey]) (by rw [Bson.sortKey])) []
  refine ⟨rfl, ⟨⟨rfl, .int32 10, rfl, rfl⟩, hnine, rfl, fun h ↦ ?_⟩,
    lossless_distance 9007199254740993 rfl rfl, hedge, rfl, fun h ↦ ?_⟩
  · exact absurd (htexts.unique h) (by decide)
  · exact absurd (hnumbers.unique h) (by decide +kernel)

end DistantMoons

end DocMapping
