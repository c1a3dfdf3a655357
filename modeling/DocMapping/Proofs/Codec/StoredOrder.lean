import DocMapping.Proofs.Codec.Moments
import DocMapping.Proofs.Number.DecimalBinary
import DocMapping.Value.Arithmetic

/-!
# The Order of Stored Forms

What filters make of two values of one kind that are stored without loss.  Their stored forms always
have an order.  It is the order of the values for times and for dates that are stored as moments; for
local date-times, if their zone does not turn it around; for numbers that are stored as numbers, if the
doubles that they are taken as tell them apart; and for whatever is stored as a text, if the texts
happen to stand in the order of the values.
-/

namespace DocMapping

/-- In filters, the first stored form stands in an order to the second. -/
structure Bson.Stands (a b : Bson) (order : Ordering) : Prop where
  order? : a.sortKey.order? b.sortKey = some order
  matchesValue : a.matchesValue b = (order == .eq)

namespace Bson.Stands

variable {a b : Bson}

theorem number {x y : Binary64} (ha : a.sortKey = .number x) (hb : b.sortKey = .number y) :
    a.Stands b (compare x.rank y.rank) := by
  constructor
  · rw [ha, hb]
    rfl
  · rw [Bson.matchesValue, ha, hb]
    rfl

theorem string (x y : String) : (Bson.string x).Stands (.string y) (compare x y) :=
  ⟨rfl, rfl⟩

theorem dateTime (x y : Int64) :
    (Bson.dateTime x).Stands (.dateTime y) (compare x.toInt y.toInt) :=
  ⟨rfl, rfl⟩

end Bson.Stands

/-! ## Order in the stored form -/

/-- The texts of two whole numbers stand in the order of the numbers. -/
def Text.WrittenInOrder (a b : Int) : Prop := writtenOrder a b = compare a b

/-- Two whole numbers are the same if they become the same double. -/
def Binary64.TellsApart (a b : Int) : Prop := ofInt a = ofInt b → a = b

theorem Binary64.tellsApart_of_le {a b : Int} (ha : a.natAbs ≤ 2 ^ 53) (hb : b.natAbs ≤ 2 ^ 53) :
    TellsApart a b :=
  (ofInt_inj ha hb).1

/-- Whole numbers keep their order as doubles exactly if they are told apart. -/
theorem Binary64.compare_rank_ofInt (a b : Int) :
    compare (ofInt a).rank (ofInt b).rank = compare a b ↔ TellsApart a b := by
  rw [order_keys]
  · rw [Std.compare_eq_iff_eq, Std.compare_eq_iff_eq, rank_inj]
    rfl
  · rw [Std.compare_eq_lt]
    exact fun h hturned ↦ absurd (Std.compare_eq_gt.1 hturned) (rank_ofInt_mono h.le).not_gt
  · rw [Std.compare_eq_gt]
    exact fun h hturned ↦ absurd (Std.compare_eq_lt.1 hturned) (rank_ofInt_mono h.le).not_gt
  · rw [Std.compare_eq_iff_eq, Std.compare_eq_iff_eq]
    exact fun h ↦ by rw [h]

namespace Property

/-- The property stores two values of its kind in forms that have their order. -/
def KeepsOrder (p : Property) : Value → Value → Prop
  | .int32 a, .int32 b => p.representation = .string → Text.WrittenInOrder a.toInt b.toInt
  | .int64 a, .int64 b =>
    match p.representation with
    | .string => Text.WrittenInOrder a.toInt b.toInt
    | _ => Binary64.TellsApart a.toInt b.toInt
  | .decimal a, .decimal b =>
    match p.representation with
    | .string => compare a.text b.text = a.order b
    | .int32 => True
    | .int64 => Binary64.TellsApart a.truncate b.truncate
    | .double => compare a.toBinary.rank b.toBinary.rank = a.order b
    | _ => compare a.approximation.rank b.approximation.rank = a.order b
  | .enum a, .enum b =>
    match p.representation with
    | .string => ∀ type name other, p.scalarKind = .enum type → type.nameOf? a = some name →
        type.nameOf? b = some other → compare name other = compare a.toInt b.toInt
    | .int64 => Binary64.TellsApart a.toInt b.toInt
    | _ => True
  | .date a, .date b => p.representation = .string → compare a.text b.text = compare a.day b.day
  | .dateTime a, .dateTime b => ∀ u v, a.universal? p.zone = some u → b.universal? p.zone = some v →
      u.order v = a.moment.order b.moment
  | _, _ => True

theorem encodeNumber_text {p : Property} (h : p.representation = .string) (number : Numeral) :
    p.encodeNumber number = .ok (.string number.text) :=
  if_pos h

end Property

/-! ## One lemma a kind -/

namespace Property.Lossless

variable {p : Property} {stored operand : Bson}

/-- Whole numbers that are stored as texts are compared as texts. -/
theorem stands_texts {a b : Int} (hstored : stored = .string (toString a))
    (hoperand : operand = .string (toString b)) :
    ∃ order, stored.Stands operand order ∧ (order = compare a b ↔ Text.WrittenInOrder a b) := by
  subst hstored hoperand
  refine ⟨_, .string _ _, ?_⟩
  rw [Text.compare_toString]
  rfl

/-- Whole numbers that are stored as numbers are compared as doubles. -/
theorem stands_numbers {a b : Int} (hstored : stored.sortKey = .number (Binary64.ofInt a))
    (hoperand : operand.sortKey = .number (Binary64.ofInt b)) :
    ∃ order, stored.Stands operand order ∧ (order = compare a b ↔ Binary64.TellsApart a b) :=
  ⟨_, .number hstored hoperand, Binary64.compare_rank_ofInt a b⟩

theorem int32_text {number : Int32} (h : p.Lossless (.int32 number) stored)
    (hkind : p.kind = .scalar .int32) (htext : p.representation = .string) :
    stored = .string (toString number.toInt) := by
  have hencode := h.encodeScalar hkind
  rw [encodeScalar_int32 (congrArg PropertyKind.scalarKind hkind), encodeNumber_text htext,
    Numeral.text, Numeral.toInt_int32] at hencode
  cases hencode
  rfl

theorem stands_int32 {a b : Int32} (hx : p.Lossless (.int32 a) stored)
    (hy : p.Lossless (.int32 b) operand) (hkind : p.kind = .scalar .int32) :
    ∃ order, stored.Stands operand order ∧
      (order = compare a.toInt b.toInt ↔ p.KeepsOrder (.int32 a) (.int32 b)) := by
  by_cases htext : p.representation = .string
  · obtain ⟨order, hstands, hkeeps⟩ :=
      stands_texts (hx.int32_text hkind htext) (hy.int32_text hkind htext)
    exact ⟨order, hstands, hkeeps.trans ⟨fun h _ ↦ h, fun h ↦ h htext⟩⟩
  · obtain ⟨order, hstands, hkeeps⟩ :=
      stands_numbers (hx.sortKey_int32 hkind htext) (hy.sortKey_int32 hkind htext)
    have hsmall (number : Int32) : number.toInt.natAbs ≤ 2 ^ 53 := by
      have hlow := number.le_toInt
      have hhigh := number.toInt_lt
      omega
    exact ⟨order, hstands, iff_of_true
      (hkeeps.2 (Binary64.tellsApart_of_le (hsmall a) (hsmall b))) fun h ↦ absurd h htext⟩

theorem int64_text {number : Int64} (h : p.Lossless (.int64 number) stored)
    (hkind : p.kind = .scalar .int64) (htext : p.representation = .string) :
    stored = .string (toString number.toInt) := by
  have hencode := h.encodeScalar hkind
  rw [encodeScalar_int64 (congrArg PropertyKind.scalarKind hkind), encodeNumber_text htext]
    at hencode
  cases hencode
  rfl

theorem stands_int64 {a b : Int64} (hx : p.Lossless (.int64 a) stored)
    (hy : p.Lossless (.int64 b) operand) (hkind : p.kind = .scalar .int64) :
    ∃ order, stored.Stands operand order ∧
      (order = compare a.toInt b.toInt ↔ p.KeepsOrder (.int64 a) (.int64 b)) := by
  by_cases htext : p.representation = .string
  · obtain ⟨order, hstands, hkeeps⟩ :=
      stands_texts (hx.int64_text hkind htext) (hy.int64_text hkind htext)
    refine ⟨order, hstands, ?_⟩
    rw [hkeeps, KeepsOrder, htext]
  · obtain ⟨order, hstands, hkeeps⟩ :=
      stands_numbers (hx.sortKey_int64 hkind htext) (hy.sortKey_int64 hkind htext)
    refine ⟨order, hstands, hkeeps.trans ?_⟩
    dsimp only [KeepsOrder]
    split
    · next h => exact absurd h htext
    · rfl

theorem stands_decimal {a b : Decimal} (hx : p.Lossless (.decimal a) stored)
    (hy : p.Lossless (.decimal b) operand) (hkind : p.kind = .scalar .decimal) :
    ∃ order, stored.Stands operand order ∧
      (order = a.order b ↔ p.KeepsOrder (.decimal a) (.decimal b)) := by
  have hscalar : p.scalarKind = .decimal := congrArg PropertyKind.scalarKind hkind
  dsimp only [KeepsOrder]
  split
  · next htext =>
    have hencode {number : Decimal} {form : Bson} (h : p.Lossless (.decimal number) form) :
        form = .string number.text := by
      have hencode := h.encodeScalar hkind
      rw [encodeScalar_decimal hscalar, encodeNumber_text htext] at hencode
      cases hencode
      rfl
    rw [hencode hx, hencode hy]
    exact ⟨_, .string _ _, Iff.rfl⟩
  · next hnarrow =>
    obtain ⟨k, hk, hstored, hkrange⟩ := hx.sortKey_decimal_whole hkind (.inl hnarrow)
    obtain ⟨l, hl, hoperand, hlrange⟩ := hy.sortKey_decimal_whole hkind (.inl hnarrow)
    obtain ⟨order, hstands, hkeeps⟩ := stands_numbers hstored hoperand
    obtain ⟨hklow, hkhigh⟩ := hkrange hnarrow
    obtain ⟨hllow, hlhigh⟩ := hlrange hnarrow
    rw [hk.order hl]
    exact ⟨order, hstands,
      iff_of_true (hkeeps.2 (Binary64.tellsApart_of_le (by omega) (by omega))) trivial⟩
  · next hwide =>
    obtain ⟨k, hk, hstored, -⟩ := hx.sortKey_decimal_whole hkind (.inr hwide)
    obtain ⟨l, hl, hoperand, -⟩ := hy.sortKey_decimal_whole hkind (.inr hwide)
    rw [hk.order hl, hk.truncate, hl.truncate]
    exact stands_numbers hstored hoperand
  · next hdouble =>
    exact ⟨_, .number (hx.sortKey_decimal_double hkind hdouble)
      (hy.sortKey_decimal_double hkind hdouble), Iff.rfl⟩
  · next htext hnarrow hwide hdouble =>
    exact ⟨_, .number (hx.sortKey_decimal hkind htext hnarrow hwide hdouble)
      (hy.sortKey_decimal hkind htext hnarrow hwide hdouble), Iff.rfl⟩

theorem stands_enum {type : EnumType} {a b : Int64} (hx : p.Lossless (.enum a) stored)
    (hy : p.Lossless (.enum b) operand) (hkind : p.kind = .scalar (.enum type)) :
    ∃ order, stored.Stands operand order ∧
      (order = compare a.toInt b.toInt ↔ p.KeepsOrder (.enum a) (.enum b)) := by
  have hscalar : p.scalarKind = .enum type := congrArg PropertyKind.scalarKind hkind
  dsimp only [KeepsOrder]
  split
  · next htext =>
    have hencode {member : Int64} {form : Bson} (h : p.Lossless (.enum member) form) :
        ∃ name, type.nameOf? member = some name ∧ form = .string name := by
      have hencode := h.encodeScalar hkind
      rw [encodeScalar_enum hscalar, encodeEnum, htext] at hencode
      dsimp only at hencode
      split at hencode <;> cases hencode
      next name hname => exact ⟨name, hname, rfl⟩
    obtain ⟨name, hname, rfl⟩ := hencode hx
    obtain ⟨other, hother, rfl⟩ := hencode hy
    refine ⟨_, .string _ _, fun h type' name' other' htype hname' hother' ↦ ?_,
      fun h ↦ h type name other hscalar hname hother⟩
    cases hscalar.symm.trans htype
    cases hname.symm.trans hname'
    cases hother.symm.trans hother'
    exact h
  · next hwide =>
    have hnumeric : p.representation ≠ .string := by simp [hwide]
    exact stands_numbers (hx.sortKey_enum hkind hnumeric).1 (hy.sortKey_enum hkind hnumeric).1
  · next hnumeric hnarrow =>
    obtain ⟨hstored, harange⟩ := hx.sortKey_enum hkind hnumeric
    obtain ⟨hoperand, hbrange⟩ := hy.sortKey_enum hkind hnumeric
    obtain ⟨order, hstands, hkeeps⟩ := stands_numbers hstored hoperand
    obtain ⟨halow, hahigh⟩ := harange hnarrow
    obtain ⟨hblow, hbhigh⟩ := hbrange hnarrow
    exact ⟨order, hstands,
      iff_of_true (hkeeps.2 (Binary64.tellsApart_of_le (by omega) (by omega))) trivial⟩

theorem stands_date {a b : Date} (hx : p.Lossless (.date a) stored)
    (hy : p.Lossless (.date b) operand) (hkind : p.kind = .scalar .date) :
    ∃ order, stored.Stands operand order ∧
      (order = compare a.day b.day ↔ p.KeepsOrder (.date a) (.date b)) := by
  have hscalar : p.scalarKind = .date := congrArg PropertyKind.scalarKind hkind
  have hstored := hx.encodeScalar hkind
  have hoperand := hy.encodeScalar hkind
  rw [encodeScalar_date hscalar] at hstored hoperand
  by_cases htext : p.representation = .string
  · rw [if_pos htext] at hstored hoperand
    cases hstored
    cases hoperand
    exact ⟨_, .string _ _, fun h _ ↦ h, fun h ↦ h htext⟩
  · rw [if_neg htext] at hstored hoperand
    cases hstored
    cases hoperand
    have hfits (d : Date) : (Int64.ofInt d.milliseconds).toInt = d.milliseconds := by
      have hlow := d.day_ge
      have hhigh := d.day_le
      unfold Date.milliseconds
      exact Int64.toInt_ofInt_of_le (by omega) (by omega)
    refine ⟨_, .dateTime _ _, iff_of_true ?_ fun h ↦ absurd h htext⟩
    rw [hfits, hfits]
    unfold Date.milliseconds
    exact compare_keys (fun h ↦ by omega) (fun h ↦ by omega) fun h ↦ by omega

/-! ## Moments -/

/-- What a date with a time is stored as: its moment in universal time. -/
def moment (p : Property) (u : Moment) : Bson :=
  match p.representation with
  | .string => .string u.internetText
  | .int64 => .int64 (Int64.ofInt u.milliseconds)
  | _ => .dateTime (Int64.ofInt u.milliseconds)

/-- The date-time is stored as the moment, which has all of its digits and by which it is found
again. -/
structure StoredAs (p : Property) (d : DateTime) (u : Moment) : Prop where
  universal? : d.universal? p.zone = some u
  whole : u.subMilliseconds = 0
  back : DateTime.ofUniversal p.zone p.dateTimeKind u = .ok d
  /-- A text has a year of four digits. -/
  short : p.representation = .string → u.date.IsShort
  /-- Milliseconds are no part of a leap second. -/
  steady : p.representation ≠ .string → u.time.nanosecond.val < 10 ^ 9

theorem read_moment {d : DateTime} {u : Moment} (hkind : p.scalarKind = .dateTime)
    (hwhole : u.subMilliseconds = 0)
    (hle : u.time.nanosecond.val ≤ d.moment.time.nanosecond.val)
    (h : p.decodeScalar (moment p u) = .ok (.dateTime d)) :
    DateTime.ofUniversal p.zone p.dateTimeKind u = .ok d ∧
      (p.representation = .string → u.date.IsShort) ∧
      (p.representation ≠ .string → u.time.nanosecond.val < 10 ^ 9) := by
  obtain ⟨hstored, hequal⟩ := decodeScalar_milliseconds hkind (Int64.ofInt u.milliseconds)
  unfold moment at h
  cases hform : p.representation with
  | string =>
    rw [hform] at h
    obtain ⟨hback, hshort⟩ := (decodeScalar_internetText_iff hkind hwhole d).1 h
    exact ⟨hback, fun _ ↦ hshort, fun h ↦ absurd rfl h⟩
  | _ =>
    rw [hform] at h
    simp only [hequal, hstored] at h
    obtain ⟨read, hread, hsame⟩ := Outcome.map_eq_ok.1 h
    cases hsame
    have hleap := hle.trans_lt (DateTime.nanosecond_ofMilliseconds hread)
    rw [DateTime.ofMilliseconds_milliseconds _ _ hwhole hleap] at hread
    exact ⟨hread, nofun, fun _ ↦ hleap⟩

/-- Date-times that are stored without loss are stored as moments. -/
theorem exists_storedAs {d : DateTime} (h : p.Lossless (.dateTime d) stored)
    (hkind : p.kind = .scalar .dateTime) : ∃ u, stored = moment p u ∧ StoredAs p d u := by
  have hscalar : p.scalarKind = .dateTime := congrArg PropertyKind.scalarKind hkind
  have hencode := h.encodeScalar hkind
  rw [encodeScalar_dateTime hscalar] at hencode
  obtain ⟨_, huniversal, rfl⟩ := Outcome.map_eq_ok.1 hencode
  obtain ⟨u, hu, rfl, -⟩ := DateTime.toUniversal_ok huniversal
  have hnanosecond := DateTime.nanosecond_universal? hu
  have hread := read_moment hscalar u.subMilliseconds_truncate
    ((Nat.sub_le _ _).trans_eq hnanosecond) (h.read hkind (.dateTime d) (by simp))
  -- The nanoseconds are read back, so that none of them was dropped.
  have hsame : u.truncate = u := by
    have hkept := (DateTime.ofUniversal_ok hread.1).2.2.2
    rw [← hnanosecond] at hkept
    exact congrArg (Moment.mk u.date) (Time.eq_of_parts rfl (Fin.ext hkept.symm))
  rw [hsame] at hread
  exact ⟨u, congrArg (moment p) hsame, hu, hsame ▸ u.subMilliseconds_truncate, hread.1, hread.2.1,
    hread.2.2⟩

namespace StoredAs

variable {a b : DateTime} {u v : Moment}

/-- Moments are stored in their order. -/
theorem stands (ha : StoredAs p a u) (hb : StoredAs p b v) :
    (moment p u).Stands (moment p v) (u.order v) := by
  have hfits (m : Moment) : (Int64.ofInt m.milliseconds).toInt = m.milliseconds := by
    obtain ⟨hlow, hhigh⟩ := m.milliseconds_bounds
    exact Int64.toInt_ofInt_of_le (by omega) (by omega)
  have horder : u.truncate.order v.truncate = u.order v := by
    rw [Moment.truncate_of_subMilliseconds ha.whole, Moment.truncate_of_subMilliseconds hb.whole]
  rw [← horder]
  unfold moment
  split
  · next htext =>
    rw [← Moment.compare_internetText (ha.short htext) (hb.short htext)]
    exact .string _ _
  · next hwide =>
    have hform : p.representation ≠ .string := by simp [hwide]
    rw [← Moment.compare_milliseconds (ha.steady hform) (hb.steady hform)]
    obtain ⟨hulow, huhigh⟩ := u.milliseconds_bounds
    obtain ⟨hvlow, hvhigh⟩ := v.milliseconds_bounds
    rw [← (Binary64.compare_rank_ofInt _ _).2 (Binary64.tellsApart_of_le
      (by omega : u.milliseconds.natAbs ≤ 2 ^ 53) (by omega : v.milliseconds.natAbs ≤ 2 ^ 53))]
    exact .number (by rw [Bson.sortKey, hfits]) (by rw [Bson.sortKey, hfits])
  · next hform _ =>
    rw [← Moment.compare_milliseconds (ha.steady hform) (hb.steady hform)]
    have hstands := Bson.Stands.dateTime (Int64.ofInt u.milliseconds) (Int64.ofInt v.milliseconds)
    rwa [hfits, hfits] at hstands

/-- The moments stand in the order of the date-times, unless it is the zone that turns it around. -/
theorem order (ha : StoredAs p a u) (hb : StoredAs p b v)
    (hzone : p.dateTimeKind = .local → p.zone.ReadsFirst ∨ p.zone.ReadsLast) :
    u.order v = a.moment.order b.moment := by
  obtain ⟨hakind, halocal, haother, -⟩ := DateTime.ofUniversal_ok ha.back
  obtain ⟨hbkind, hblocal, hbother, -⟩ := DateTime.ofUniversal_ok hb.back
  by_cases hlocal : p.dateTimeKind = .local
  · have hu := ha.universal?
    have hv := hb.universal?
    unfold DateTime.universal? at hu hv
    rw [hakind, hlocal] at hu
    rw [hbkind, hlocal] at hv
    exact Zone.order_of_toLocal? (hzone hlocal) hu hv (halocal hlocal) (hblocal hlocal)
  · rw [haother hlocal, hbother hlocal]

end StoredAs

theorem stands_dateTime {a b : DateTime} (hx : p.Lossless (.dateTime a) stored)
    (hy : p.Lossless (.dateTime b) operand) (hkind : p.kind = .scalar .dateTime) :
    ∃ order, stored.Stands operand order ∧
      (order = a.moment.order b.moment ↔ p.KeepsOrder (.dateTime a) (.dateTime b)) := by
  obtain ⟨u, rfl, ha⟩ := hx.exists_storedAs hkind
  obtain ⟨v, rfl, hb⟩ := hy.exists_storedAs hkind
  refine ⟨_, ha.stands hb, fun h w x hw hx ↦ ?_, fun h ↦ h u v ha.universal? hb.universal?⟩
  cases ha.universal?.symm.trans hw
  cases hb.universal?.symm.trans hx
  exact h

/-! ## Times of day -/

/-- A time of day that is stored in ticks is whole to the tick. -/
theorem exists_ticks {t : Time} (h : p.Lossless (.time t) stored) (hkind : p.kind = .scalar .time)
    (hnumeric : p.representation ≠ .string) :
    ∃ ticks : Int64, stored = .int64 ticks ∧ 0 ≤ ticks.toInt ∧ ticks.toInt < 86400 * 10 ^ 7 ∧
      t.second.val * 10 ^ 9 + t.nanosecond.val = ticks.toInt * 100 ∧
      t.nanosecond.val < 10 ^ 9 := by
  have hencode := h.encodeScalar hkind
  have hread := h.read hkind (.time t) (by simp)
  rw [encodeScalar_time (congrArg PropertyKind.scalarKind hkind), encodeTime, if_neg hnumeric]
    at hencode
  obtain ⟨ticks, -, rfl⟩ := Outcome.map_eq_ok.1 hencode
  unfold Property.decodeScalar at hread
  rw [show p.scalarKind = .time from congrArg PropertyKind.scalarKind hkind] at hread
  obtain ⟨read, hticks, hequal⟩ := Outcome.map_eq_ok.1 hread
  cases hequal
  exact ⟨ticks, rfl, Time.ofTicks_ok hticks⟩

theorem stands_time {a b : Time} (hx : p.Lossless (.time a) stored)
    (hy : p.Lossless (.time b) operand) (hkind : p.kind = .scalar .time) :
    stored.Stands operand (a.order b) := by
  by_cases htext : p.representation = .string
  · have hencode {t : Time} {form : Bson} (h : p.Lossless (.time t) form) :
        form = .string t.text := by
      have hencode := h.encodeScalar hkind
      rw [encodeScalar_time (congrArg PropertyKind.scalarKind hkind), encodeTime, if_pos htext]
        at hencode
      cases hencode
      rfl
    rw [hencode hx, hencode hy, ← Time.compare_text]
    exact .string _ _
  · obtain ⟨m, rfl, hmlow, hmhigh, hm, hasteady⟩ := hx.exists_ticks hkind htext
    obtain ⟨n, rfl, hnlow, hnhigh, hn, hbsteady⟩ := hy.exists_ticks hkind htext
    have horder : compare m.toInt n.toInt = a.order b := by
      rw [Time.order_eq]
      exact compare_keys (fun h ↦ by omega) (fun h ↦ by omega) fun h ↦ by omega
    rw [← horder, ← (Binary64.compare_rank_ofInt _ _).2
      (Binary64.tellsApart_of_le (by omega : m.toInt.natAbs ≤ 2 ^ 53) (by omega))]
    exact .number (by rw [Bson.sortKey]) (by rw [Bson.sortKey])

/-! ## All kinds -/

/-- Values that are stored without loss have an order, and so have their stored forms: the same one
exactly if the property keeps it. -/
theorem stands {kind : ScalarKind} {x y : Value} (hx : p.Lossless x stored)
    (hy : p.Lossless y operand) (hkind : p.kind = .scalar kind) (hvalue : HasOrder kind x)
    (hvalue' : HasOrder kind y) :
    ∃ natural order, x.order? y = some natural ∧ stored.Stands operand order ∧
      (order = natural ↔ p.KeepsOrder x y) := by
  cases hvalue with
  | int32 a =>
    cases hvalue' with
    | int32 b => exact ⟨_, (stands_int32 hx hy hkind).imp fun _ h ↦ ⟨rfl, h⟩⟩
  | int64 a =>
    cases hvalue' with
    | int64 b => exact ⟨_, (stands_int64 hx hy hkind).imp fun _ h ↦ ⟨rfl, h⟩⟩
  | decimal a =>
    cases hvalue' with
    | decimal b => exact ⟨_, (stands_decimal hx hy hkind).imp fun _ h ↦ ⟨rfl, h⟩⟩
  | enum type a =>
    cases hvalue' with
    | enum _ b => exact ⟨_, (stands_enum hx hy hkind).imp fun _ h ↦ ⟨rfl, h⟩⟩
  | date a =>
    cases hvalue' with
    | date b => exact ⟨_, (stands_date hx hy hkind).imp fun _ h ↦ ⟨rfl, h⟩⟩
  | dateTime a =>
    cases hvalue' with
    | dateTime b => exact ⟨_, (stands_dateTime hx hy hkind).imp fun _ h ↦ ⟨rfl, h⟩⟩
  | time a =>
    cases hvalue' with
    | time b => exact ⟨_, _, rfl, stands_time hx hy hkind, iff_of_true rfl trivial⟩

end Property.Lossless

/-! ## Values that are never put out of order -/

namespace Property

/-- The stored form of the value is no text of a number or a name, nor one of a date without four
digits for the year, and the value is told apart from all others of this sort.  The zone of a local
date-time reads repeated times all as the first of their moments, or all as the last. -/
def IsOrderly (p : Property) : Value → Prop
  | .int32 _ => p.representation ≠ .string
  | .int64 number => p.representation ≠ .string ∧ (p.representation ≠ .int32 →
      p.representation ≠ .double → number.toInt.natAbs ≤ 2 ^ 53)
  | .decimal number => p.representation ≠ .string ∧ (p.representation ≠ .int32 →
      number.scale.val = 0 ∧ number.signedCoefficient.natAbs ≤ 2 ^ 53)
  | .enum member => p.representation ≠ .string ∧ (p.representation = .int64 →
      member.toInt.natAbs ≤ 2 ^ 53)
  | .date d => p.representation = .string → d.IsShort
  | .dateTime d => d.kind = .local → p.zone.ReadsFirst ∨ p.zone.ReadsLast
  | _ => True

variable {p : Property} {stored operand : Bson}

/-- A double that holds a whole number of 64 bits without loss holds no other one. -/
theorem Lossless.tellsApart_int64 {a b : Int64} (hx : p.Lossless (.int64 a) stored)
    (hy : p.Lossless (.int64 b) operand) (hkind : p.kind = .scalar .int64)
    (hform : p.representation = .int32 ∨ p.representation = .double) :
    Binary64.TellsApart a.toInt b.toInt := by
  intro hequal
  have hnumeric : p.representation ≠ .string := by rcases hform with h | h <;> simp [h]
  have hencode {number : Int64} {form : Bson} (h : p.Lossless (.int64 number) form) :
      (Numeral.integer number).toBson p.permissions
        (p.representation.numberForm?.getD p.scalarKind.numberForm) = .ok form := by
    have hencode := h.encodeScalar hkind
    rwa [encodeScalar_int64 (congrArg PropertyKind.scalarKind hkind), encodeNumber,
      if_neg hnumeric] at hencode
  have hseen : stored.sortKey = operand.sortKey := by
    rw [hx.sortKey_int64 hkind hnumeric, hy.sortKey_int64 hkind hnumeric, hequal]
  have hsame : stored = operand := by
    have hstored := hencode hx
    have hoperand := hencode hy
    rcases hform with hform | hform
    · rw [hform] at hstored hoperand
      obtain ⟨m, rfl⟩ := Numeral.toBson_int32 hstored
      obtain ⟨n, rfl⟩ := Numeral.toBson_int32 hoperand
      rw [Bson.sortKey, Bson.sortKey, SortKey.number.injEq] at hseen
      have hmlow := m.le_toInt
      have hmhigh := m.toInt_lt
      have hnlow := n.le_toInt
      have hnhigh := n.toInt_lt
      rw [Int32.toInt_inj.1 ((Binary64.ofInt_inj (by omega) (by omega)).1 hseen)]
    · rw [hform] at hstored hoperand
      obtain ⟨m, rfl⟩ := Numeral.toBson_double hstored
      obtain ⟨n, rfl⟩ := Numeral.toBson_double hoperand
      rw [Bson.sortKey, Bson.sortKey, SortKey.number.injEq] at hseen
      rw [hseen]
  rw [hsame] at hx
  cases hx.eq hy hkind (.int64 a) (.int64 b) (by simp)
  rfl

/-- Whole decimals of the scale zero that are told apart keep their order in every numeric form. -/
theorem IsOrderly.keepsOrder_decimal {a b : Decimal} (h : p.IsOrderly (.decimal a))
    (h' : p.IsOrderly (.decimal b)) : p.KeepsOrder (.decimal a) (.decimal b) := by
  by_cases hnarrow : p.representation = .int32
  · rw [KeepsOrder, hnarrow]
    trivial
  · obtain ⟨hzero, hsmall⟩ := h.2 hnarrow
    obtain ⟨hzero', hsmall'⟩ := h'.2 hnarrow
    have hscale : a.scale = 0 := Fin.ext hzero
    have hscale' : b.scale = 0 := Fin.ext hzero'
    have hapart := Binary64.tellsApart_of_le hsmall hsmall'
    have hwhole := Decimal.isWhole_of_scale hscale
    have hwhole' := Decimal.isWhole_of_scale hscale'
    dsimp only [KeepsOrder]
    rw [hwhole.order hwhole', hwhole.truncate, hwhole'.truncate,
      Decimal.toBinary_of_scale hscale, Decimal.toBinary_of_scale hscale',
      Decimal.approximation_of_scale hscale, Decimal.approximation_of_scale hscale']
    split
    · next htext => exact absurd htext h.1
    · trivial
    · exact hapart
    · exact (Binary64.compare_rank_ofInt _ _).2 hapart
    · exact (Binary64.compare_rank_ofInt _ _).2 hapart

theorem IsOrderly.keepsOrder {kind : ScalarKind} {x y : Value} (h : p.IsOrderly x)
    (h' : p.IsOrderly y) (hx : p.Lossless x stored) (hy : p.Lossless y operand)
    (hkind : p.kind = .scalar kind) (hvalue : HasOrder kind x) (hvalue' : HasOrder kind y) :
    p.KeepsOrder x y := by
  cases hvalue with
  | int32 a =>
    cases hvalue' with
    | int32 b => exact fun htext ↦ absurd htext h
  | int64 a =>
    cases hvalue' with
    | int64 b =>
      dsimp only [KeepsOrder]
      split
      · next htext => exact absurd htext h.1
      · by_cases hform : p.representation = .int32 ∨ p.representation = .double
        · exact hx.tellsApart_int64 hy hkind hform
        · rw [not_or] at hform
          exact Binary64.tellsApart_of_le (h.2 hform.1 hform.2) (h'.2 hform.1 hform.2)
  | decimal a =>
    cases hvalue' with
    | decimal b => exact h.keepsOrder_decimal h'
  | enum type a =>
    cases hvalue' with
    | enum _ b =>
      dsimp only [KeepsOrder]
      split
      · next htext => exact absurd htext h.1
      · next hwide => exact Binary64.tellsApart_of_le (h.2 hwide) (h'.2 hwide)
      · trivial
  | date a =>
    cases hvalue' with
    | date b => exact fun htext ↦ Date.compare_text (h htext) (h' htext)
  | dateTime a =>
    cases hvalue' with
    | dateTime b =>
      obtain ⟨u, -, ha⟩ := hx.exists_storedAs hkind
      obtain ⟨v, -, hb⟩ := hy.exists_storedAs hkind
      have hsame := (DateTime.ofUniversal_ok ha.back).1
      intro w x hw hx
      cases ha.universal?.symm.trans hw
      cases hb.universal?.symm.trans hx
      exact ha.order hb fun hlocal ↦ h (hsame.trans hlocal)
  | time =>
    cases hvalue'
    trivial

end Property

end DocMapping
