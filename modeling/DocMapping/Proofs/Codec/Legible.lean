import DocMapping.Proofs.Calendar.Reading
import DocMapping.Proofs.Codec.Moments
import DocMapping.Proofs.Codec.Natural
import DocMapping.Proofs.Codec.Numbers
import DocMapping.Proofs.Codec.Property
import DocMapping.Proofs.Text.Hexadecimal

/-!
# Stored Values that Can Be Read

Most kinds of values are read from every form they can be stored in.  The others are numbers, which
must fit their kind when they are read, date-times, of which texts need a year of four digits and
milliseconds a day of the calendar, and times of day, where the last leap second of a day has no ticks.
Null is written for every property and read only for some.
-/

namespace DocMapping

/-! ## Dates and times -/

namespace Date

theorem ofMilliseconds?_milliseconds (d : Date) :
    Moment.ofMilliseconds? d.milliseconds = some ⟨d, Time.midnight⟩ := by
  have hmidnight : (⟨d, Time.midnight⟩ : Moment).milliseconds = d.milliseconds := by
    change (d.day * 86400 + (Time.midnight.second.val : Int)) * 1000 +
      (Time.midnight.nanosecond.val / 1000000 : Nat) = d.day * 86400000
    rw [show Time.midnight.second.val = 0 from rfl, show Time.midnight.nanosecond.val = 0 from rfl]
    omega
  have hleap : Time.midnight.nanosecond.val < 10 ^ 9 := by decide
  rw [← hmidnight, Moment.ofMilliseconds?_milliseconds rfl hleap]

theorem toInt_milliseconds (d : Date) : (Int64.ofInt d.milliseconds).toInt = d.milliseconds := by
  have hlow := d.day_ge
  have hhigh := d.day_le
  unfold milliseconds
  exact Int64.toInt_ofInt_of_le (by omega) (by omega)

end Date

namespace Time

theorem toInt_of_toTicks {truncation : Bool} {t : Time} {ticks : Int64}
    (h : t.toTicks truncation = .ok ticks) :
    ticks.toInt = (t.second.val * 10000000 + t.nanosecond.val / 100 : Nat) := by
  have hsecond := t.second.isLt
  have hnanosecond := t.nanosecond.isLt
  unfold toTicks ticksPerSecond at h
  split at h <;> cases h
  exact Int64.toInt_ofNat_of_lt (by omega)

/-- The ticks of a time of day are one, unless it is the leap second that ends the day. -/
theorem exists_ofTicks_iff {truncation : Bool} {t : Time} {ticks : Int64}
    (h : t.toTicks truncation = .ok ticks) : (∃ back, ofTicks ticks.toInt = .ok back) ↔
      (t.second.val = 86399 → t.nanosecond.val < 10 ^ 9) := by
  have hsecond := t.second.isLt
  have hnanosecond := t.nanosecond.isLt
  have hleap := t.leap
  have hticks := toInt_of_toTicks h
  constructor
  · rintro ⟨back, hback⟩ hlast
    have hrange := (ofTicks_ok hback).2.1
    omega
  · intro hrange
    have hinside : (0 : Int) ≤ ticks.toInt ∧ ticks.toInt < 86400 * (ticksPerSecond : Nat) := by
      unfold ticksPerSecond
      omega
    have hparts : ticks.toInt.toNat / ticksPerSecond < 86400 ∧
        ticks.toInt.toNat % ticksPerSecond * 100 < 2 * 10 ^ 9 ∧
        (10 ^ 9 ≤ ticks.toInt.toNat % ticksPerSecond * 100 →
          ticks.toInt.toNat / ticksPerSecond % 60 = 59) := by
      unfold ticksPerSecond at hinside ⊢
      omega
    unfold ofTicks ofSeconds?
    rw [if_pos hinside, dif_pos hparts]
    exact ⟨_, rfl⟩

end Time

namespace Property

variable {p : Property} {value : Value} {stored : Bson}

/-! ## Scalars -/

/-- The date-times of a property can show a moment of universal time. -/
def Shows (p : Property) (m : Moment) : Prop :=
  p.dateTimeKind = .local → (p.zone.toLocal? m).isSome = true

/-- A moment of universal time can be read once it is stored. -/
def LegibleMoment (p : Property) (m : Moment) : Prop :=
  if p.representation = .string then m.date.IsShort ∧ p.Shows m
  else ∃ back, Moment.ofMilliseconds? m.milliseconds = some back ∧ p.Shows back

/-- A time of day can be read once it is stored: as a text, or if its ticks end within the day. -/
def LegibleTime (p : Property) (t : Time) : Prop :=
  p.representation ≠ .string → t.second.val = 86399 → t.nanosecond.val < 10 ^ 9

/-- A scalar can be read once it is stored, or is null. -/
def LegibleScalar (p : Property) (value : Value) : Prop :=
  match p.scalarKind, value with
  | .int32, value | .int64, value | .double, value | .decimal, value =>
    ∀ number, Numeral.ofValue? value = some number → p.LegibleNumber number
  | .dateTime, .dateTime d =>
    ∀ m, d.toUniversal p.zone p.allowTruncation = .ok m → p.LegibleMoment m
  | .time, .time t => p.LegibleTime t
  | _, _ => True

theorem exists_ofUniversal_iff {m : Moment} :
    (∃ d, DateTime.ofUniversal p.zone p.dateTimeKind m = .ok d) ↔ p.Shows m := by
  unfold DateTime.ofUniversal Shows
  cases p.dateTimeKind with
  | utc | unspecified => exact iff_of_true ⟨_, rfl⟩ fun h ↦ by cases h
  | _ =>
    dsimp only
    cases p.zone.toLocal? m <;> simp

theorem exists_ofMilliseconds_iff {m : Moment} :
    (∃ d, DateTime.ofMilliseconds p.zone p.dateTimeKind (Int64.ofInt m.milliseconds) = .ok d) ↔
      ∃ back, Moment.ofMilliseconds? m.milliseconds = some back ∧ p.Shows back := by
  have hbounds := m.milliseconds_bounds
  unfold DateTime.ofMilliseconds
  rw [Int64.toInt_ofInt_of_le (by omega) (by omega)]
  cases Moment.ofMilliseconds? m.milliseconds with
  | none => simp
  | some back => simp [exists_ofUniversal_iff]

theorem decodeDateTime_iff (hkind : p.scalarKind = .dateTime) {d : DateTime}
    (h : p.encodeDateTime d = .ok stored) : (∃ back, p.decodeScalar stored = .ok back) ↔
      ∀ m, d.toUniversal p.zone p.allowTruncation = .ok m → p.LegibleMoment m := by
  obtain ⟨m, hm, rfl⟩ := Outcome.map_eq_ok.1 h
  obtain ⟨w, -, rfl, -⟩ := DateTime.toUniversal_ok hm
  have hunique : (∀ u, d.toUniversal p.zone p.allowTruncation = .ok u → p.LegibleMoment u) ↔
      p.LegibleMoment w.truncate :=
    ⟨fun h ↦ h _ hm, fun h u hu ↦ Except.ok.inj (hm.symm.trans hu) ▸ h⟩
  rw [hunique]
  unfold LegibleMoment decodeScalar
  rw [hkind]
  cases hrepresentation : p.representation with
  | string =>
    have hwhole := w.subMilliseconds_truncate
    rw [if_pos rfl, ← exists_ofUniversal_iff]
    dsimp only
    constructor
    · rintro ⟨back, hback⟩
      obtain ⟨read, hread, hback⟩ := Outcome.bind_eq_ok.1 hback
      obtain ⟨rfl, hshort⟩ := (readText_internetText_iff hwhole read).1 hread
      exact ⟨hshort, Outcome.exists_map_iff.1 ⟨back, hback⟩⟩
    · rintro ⟨hshort, back, hback⟩
      have hread := (readText_internetText_iff hwhole _).2 ⟨rfl, hshort⟩
      exact ⟨_, Outcome.bind_eq_ok.2 ⟨_, hread, Outcome.map_eq_ok.2 ⟨back, hback, rfl⟩⟩⟩
  | int64 => exact Outcome.exists_map_iff.trans exists_ofMilliseconds_iff
  | _ => exact Outcome.exists_map_iff.trans exists_ofMilliseconds_iff

theorem decodeTime_iff (hkind : p.scalarKind = .time) {t : Time}
    (h : p.encodeTime t = .ok stored) :
    (∃ back, p.decodeScalar stored = .ok back) ↔ p.LegibleTime t := by
  unfold encodeTime at h
  unfold LegibleTime decodeScalar
  rw [hkind]
  split at h
  · next htext =>
    cases h
    refine iff_of_true ⟨.time t, ?_⟩ fun hother ↦ absurd htext hother
    dsimp only
    rw [Reading.time?_text]
    rfl
  · next htext =>
    obtain ⟨ticks, hticks, rfl⟩ := Outcome.map_eq_ok.1 h
    dsimp only
    rw [Outcome.exists_map_iff, Time.exists_ofTicks_iff hticks]
    exact ⟨fun hlast _ ↦ hlast, fun hlast ↦ hlast htext⟩

theorem decodeScalar_encodeBool (hkind : p.scalarKind = .bool) (flag : Bool) :
    p.decodeScalar (encodeBool p.representation flag) = .ok (.bool flag) := by
  unfold decodeScalar
  rw [hkind]
  cases p.representation <;> cases flag <;> rfl

theorem decodeEnum_int64 (p : Property) (type : EnumType) (member : Int64) :
    p.decodeEnum type (.int64 member) = .ok (.enum member) := by
  have hlow := member.le_toInt
  have hhigh := member.toInt_lt
  change (((Numeral.integer member).toInteger p.permissions _ _).map Int64.ofInt).map Value.enum = _
  rw [Numeral.toInteger_integer hlow (by omega)]
  exact congrArg (Except.ok <| Value.enum ·) (Int64.ofInt_toInt member)

theorem exists_decodeEnum {type : EnumType} {member : Int64}
    (h : p.encodeEnum type member = .ok stored) : ∃ back, p.decodeEnum type stored = .ok back := by
  unfold encodeEnum at h
  split at h
  · split at h
    · next name hname =>
      cases h
      obtain ⟨entry, hentry, rfl⟩ := Option.map_eq_some_iff.1 hname
      have hmember : (type.valueOf? entry.1).isSome = true :=
        List.lookup_isSome_iff.2 ⟨entry, List.mem_of_find?_eq_some hentry, beq_self_eq_true _⟩
      obtain ⟨number, hnumber⟩ := Option.isSome_iff_exists.1 hmember
      refine ⟨.enum number, ?_⟩
      unfold decodeEnum
      dsimp only
      rw [hnumber]
    · cases h
  · cases h
    exact ⟨_, decodeEnum_int64 p type member⟩
  · obtain ⟨narrow, rfl⟩ := Numeral.toBson_int32 h
    refine ⟨.enum (Int64.ofInt narrow.toInt), ?_⟩
    change ((Numeral.integer (Int64.ofInt narrow.toInt)).toInt64 p.permissions).map Value.enum = _
    rw [Numeral.toInt64_int32]
    rfl

theorem exists_decodeString (hkind : p.scalarKind = .string) {text : String}
    (h : encodeString p.representation text = .ok stored) :
    ∃ back, p.decodeScalar stored = .ok back := by
  unfold decodeScalar
  rw [hkind]
  unfold encodeString at h
  split at h
  · split at h <;> cases h
    exact ⟨_, rfl⟩
  · cases h
    exact ⟨_, rfl⟩

theorem decodeScalar_guidText (hkind : p.scalarKind = .guid) (id : Guid) :
    p.decodeScalar (.string id.text) = .ok (.guid id) := by
  unfold decodeScalar
  rw [hkind]
  exact Outcome.map_eq_ok.2 ⟨id, readText_eq_ok.2 id.ofText?_text, rfl⟩

theorem decodeScalar_guidBytes (hkind : p.scalarKind = .guid) (id : Guid) :
    p.decodeScalar (.binary 4 id.bytes) = .ok (.guid id) := by
  have hlength : id.bytes.length = 16 := Text.length_bytesOfNat 16 _
  unfold decodeScalar
  rw [hkind]
  dsimp only
  rw [if_pos hlength, Guid.ofBytes_bytes]

theorem exists_decodeGuid (hkind : p.scalarKind = .guid) {id : Guid}
    (h : (if p.representation = .string then .ok (.string id.text)
      else .ok (.binary 4 id.bytes) : Except ConversionFault Bson) = .ok stored) :
    ∃ back, p.decodeScalar stored = .ok back := by
  split at h <;> cases h
  · exact ⟨_, decodeScalar_guidText hkind id⟩
  · exact ⟨_, decodeScalar_guidBytes hkind id⟩

theorem decodeScalar_objectIdText (hkind : p.scalarKind = .objectId) (id : ObjectId) :
    p.decodeScalar (.string id.text) = .ok (.objectId id) := by
  unfold decodeScalar
  rw [hkind]
  exact Outcome.map_eq_ok.2 ⟨id, readText_eq_ok.2 id.ofText?_text, rfl⟩

theorem decodeScalar_objectId (hkind : p.scalarKind = .objectId) (id : ObjectId) :
    p.decodeScalar (.objectId id) = .ok (.objectId id) := by
  unfold decodeScalar
  rw [hkind]

theorem exists_decodeObjectId (hkind : p.scalarKind = .objectId) {id : ObjectId}
    (h : (if p.representation = .string then .ok (.string id.text)
      else .ok (.objectId id) : Except ConversionFault Bson) = .ok stored) :
    ∃ back, p.decodeScalar stored = .ok back := by
  split at h <;> cases h
  · exact ⟨_, decodeScalar_objectIdText hkind id⟩
  · exact ⟨_, decodeScalar_objectId hkind id⟩

theorem decodeScalar_dateText (hkind : p.scalarKind = .date) (d : Date) :
    p.decodeScalar (.string d.text) = .ok (.date d) := by
  unfold decodeScalar
  rw [hkind]
  exact Outcome.map_eq_ok.2 ⟨d, readText_eq_ok.2 (Reading.date?_text d), rfl⟩

theorem decodeScalar_dateMilliseconds (hkind : p.scalarKind = .date) (d : Date) :
    p.decodeScalar (.dateTime (Int64.ofInt d.milliseconds)) = .ok (.date d) := by
  unfold decodeScalar
  rw [hkind]
  dsimp only
  rw [d.toInt_milliseconds, d.ofMilliseconds?_milliseconds]

theorem exists_decodeDate (hkind : p.scalarKind = .date) {d : Date}
    (h : (if p.representation = .string then .ok (.string d.text)
      else .ok (.dateTime (Int64.ofInt d.milliseconds)) : Except ConversionFault Bson) =
        .ok stored) : ∃ back, p.decodeScalar stored = .ok back := by
  split at h <;> cases h
  · exact ⟨_, decodeScalar_dateText hkind d⟩
  · exact ⟨_, decodeScalar_dateMilliseconds hkind d⟩

/-- The stored form of a scalar is read exactly if the scalar is legible. -/
theorem decodeScalar_iff (hvalue : value ≠ .null) (h : p.encodeScalar value = .ok stored) :
    (∃ back, p.decodeScalar stored = .ok back) ↔ p.LegibleScalar value := by
  unfold encodeScalar at h
  dsimp only at h
  unfold LegibleScalar
  split at h
  case h_1 => exact absurd rfl hvalue
  case h_2 flag hkind =>
    cases h
    rw [hkind]
    exact iff_of_true ⟨_, decodeScalar_encodeBool hkind flag⟩ trivial
  case h_3 hkind _ | h_4 hkind _ | h_5 hkind _ | h_6 hkind _ =>
    split at h
    · next number hnumber =>
      unfold decodeScalar
      rw [hkind]
      dsimp only
      rw [decodeNumber_iff h, hnumber]
      exact ⟨fun hlegible _ hsame ↦ Option.some.inj hsame ▸ hlegible, fun hlegible ↦ hlegible _ rfl⟩
    · cases h
  case h_7 hkind | h_8 hkind | h_9 hkind =>
    unfold decodeScalar
    rw [hkind]
    exact iff_of_true (exists_decodeEnum h) trivial
  case h_10 hkind =>
    rw [hkind]
    exact iff_of_true (exists_decodeString hkind h) trivial
  case h_11 id hkind =>
    rw [hkind]
    exact iff_of_true (exists_decodeGuid hkind h) trivial
  case h_12 id hkind =>
    rw [hkind]
    exact iff_of_true (exists_decodeObjectId hkind h) trivial
  case h_13 hkind =>
    cases h
    unfold decodeScalar
    rw [hkind]
    exact iff_of_true ⟨_, rfl⟩ trivial
  case h_14 hkind =>
    rw [hkind]
    exact decodeDateTime_iff hkind h
  case h_15 d hkind =>
    rw [hkind]
    exact iff_of_true (exists_decodeDate hkind h) trivial
  case h_16 hkind =>
    rw [hkind]
    exact decodeTime_iff hkind h
  case h_17 => cases h

/-! ## Properties -/

/-- A value can be read once it is stored: a scalar or null, or every item of a collection. -/
def Legible (p : Property) (value : Value) : Prop :=
  match p.kind with
  | .scalar _ => (value = .null → p.acceptsNull = true) ∧ p.LegibleScalar value
  | .collection _ _ _ =>
    ∀ form items, value = .collection form items → ∀ item ∈ items, p.LegibleScalar item

/-- Only null is stored as null. -/
theorem ne_null_of_encodeScalar (hvalue : value ≠ .null) (h : p.encodeScalar value = .ok stored) :
    stored ≠ .null := by
  rintro rfl
  cases form?_encodeScalar hvalue h

theorem encodeItem_of_ne_null (nullable : Bool) (h : value ≠ .null) :
    p.encodeItem nullable value = p.encodeScalar value := by
  cases value with
  | null => exact absurd rfl h
  | _ => rfl

theorem decodeValue_of_ne_null {kind : ScalarKind} (hkind : p.kind = .scalar kind)
    (h : stored ≠ .null) : p.decodeValue stored = p.decodeScalar stored := by
  unfold decodeValue
  rw [hkind]
  cases stored with
  | null => exact absurd rfl h
  | _ => rfl

theorem decode_of_ne_null {kind : ScalarKind} (hkind : p.kind = .scalar kind) (h : stored ≠ .null) :
    p.decode stored = p.reporting (p.decodeScalar stored) := by
  unfold decode
  rw [decodeValue_of_ne_null hkind h]

theorem decodeItem_of_ne_null (nullable : Bool) (h : stored ≠ .null) :
    p.decodeItem nullable stored = p.decodeScalar stored := by
  cases stored with
  | null => exact absurd rfl h
  | _ => rfl

theorem legibleScalar_null (p : Property) : p.LegibleScalar .null := by
  unfold LegibleScalar
  split
  · exact fun _ hnumber ↦ by cases hnumber
  · exact fun _ hnumber ↦ by cases hnumber
  · exact fun _ hnumber ↦ by cases hnumber
  · exact fun _ hnumber ↦ by cases hnumber
  · next h => cases h
  · next h => cases h
  · trivial

theorem decodeItem_iff {nullable : Bool} (h : p.encodeItem nullable value = .ok stored) :
    (∃ back, p.decodeItem nullable stored = .ok back) ↔ p.LegibleScalar value := by
  by_cases hvalue : value = .null
  · subst hvalue
    refine iff_of_true ?_ p.legibleScalar_null
    unfold encodeItem at h
    dsimp only at h
    split at h <;> cases h
    next haccepted => exact ⟨.null, if_pos haccepted⟩
  · rw [encodeItem_of_ne_null nullable hvalue] at h
    rw [← decodeScalar_iff hvalue h,
      decodeItem_of_ne_null nullable (ne_null_of_encodeScalar hvalue h)]

theorem decodeValue_iff (h : p.encodeValue value = .ok stored) :
    (∃ back, p.decodeValue stored = .ok back) ↔ p.Legible value := by
  unfold encodeValue at h
  unfold Legible
  cases hkind : p.kind with
  | scalar kind =>
    rw [hkind] at h
    dsimp only at h ⊢
    by_cases hvalue : value = .null
    · subst hvalue
      unfold encodeScalar at h
      cases h
      unfold decodeValue
      rw [hkind, and_iff_left p.legibleScalar_null]
      cases p.acceptsNull <;> simp
    · rw [and_iff_right (fun h ↦ absurd h hvalue), ← decodeScalar_iff hvalue h,
        decodeValue_of_ne_null hkind (ne_null_of_encodeScalar hvalue h)]
  | collection container element nullable =>
    unfold decodeValue
    rw [hkind] at h ⊢
    dsimp only at h ⊢
    split at h
    · cases h
      exact iff_of_true ⟨.null, rfl⟩ fun _ _ hnull ↦ by cases hnull
    · next form items =>
      obtain ⟨results, hresults, rfl⟩ := Outcome.map_eq_ok.1 h
      have hitems := Outcome.mapM_eq_ok.1 hresults
      dsimp only
      rw [Outcome.exists_map_iff, Outcome.exists_mapM_iff]
      constructor
      · rintro hread _ _ ⟨⟩ item hitem
        obtain ⟨stored, hmem, hencode⟩ := Outcome.exists_right hitems hitem
        exact (decodeItem_iff hencode).1 (hread stored hmem)
      · intro hlegible stored hmem
        obtain ⟨item, hitem, hencode⟩ := Outcome.exists_left hitems hmem
        exact (decodeItem_iff hencode).2 (hlegible _ _ rfl item hitem)
    · cases h

/-- The stored value of a property is read exactly if the value is legible. -/
theorem decode_iff (h : p.encode value = .ok stored) :
    (∃ back, p.decode stored = .ok back) ↔ p.Legible value := by
  rw [← decodeValue_iff (Outcome.mapError_eq_ok.1 h)]
  exact exists_congr fun _ ↦ Outcome.mapError_eq_ok

/-- Numbers of 32 bits can be read in whichever form they are stored. -/
theorem legible_int32 (hkind : p.kind = .scalar .int32) (number : Int32) :
    p.Legible (.int32 number) := by
  have hscalar : p.scalarKind = .int32 := congrArg PropertyKind.scalarKind hkind
  unfold Legible LegibleScalar
  rw [hkind, hscalar]
  refine ⟨fun hnull ↦ (by cases hnull), fun _ hnumber ↦ ?_⟩
  cases hnumber
  exact legibleNumber_int32 hscalar number

end Property

end DocMapping
