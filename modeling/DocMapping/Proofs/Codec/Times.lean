import DocMapping.Proofs.Codec.Legible

/-!
# Times Are Read Back

Times of day and date-times that are stored without permission to drop digits come back as they were,
with three exceptions.  Ticks and milliseconds move a leap second into the second after it, the texts
of date-times are read for years of four digits only, and a zone may give a moment to a local time that
its clock never shows.
-/

namespace DocMapping

/-! ## Ticks -/

namespace Time

variable {t : Time} {ticks : Int64}

/-- A time of day outside of leap seconds is found again by its ticks. -/
theorem ofTicks_of_toTicks (h : t.toTicks false = .ok ticks) (hleap : t.nanosecond.val < 10 ^ 9) :
    ofTicks ticks.toInt = .ok t := by
  obtain ⟨back, hback⟩ := (exists_ofTicks_iff h).2 fun _ ↦ hleap
  have hticks := toInt_of_toTicks h
  have hwhole : t.nanosecond.val % 100 = 0 := by
    unfold toTicks at h
    by_contra hpart
    rw [if_pos ⟨hpart, rfl⟩] at h
    cases h
  obtain ⟨-, -, hparts, hsecond⟩ := ofTicks_ok hback
  rw [hback, eq_of_parts (Fin.ext (by omega)) (Fin.ext (by omega) : back.nanosecond = t.nanosecond)]

/-- Ticks that are a time of day are the ticks of this time. -/
theorem toTicks_of_ofTicks (h : ofTicks ticks.toInt = .ok t) (truncation : Bool) :
    t.toTicks truncation = .ok ticks := by
  obtain ⟨hlow, hhigh, hparts, -⟩ := ofTicks_ok h
  have hnumber : Int64.ofNat (t.second.val * ticksPerSecond + t.nanosecond.val / 100) = ticks := by
    unfold ticksPerSecond
    rw [← Int64.toInt_inj, Int64.toInt_ofNat_of_lt (by omega)]
    omega
  unfold toTicks
  rw [if_neg (by omega), hnumber]

end Time

/-! ## Universal time -/

namespace DateTime

variable {zone : Zone} {d : DateTime} {u : Moment}

/-- What is stored without permission is the moment itself. -/
theorem universal?_of_toUniversal (h : d.toUniversal zone false = .ok u) :
    d.universal? zone = some u ∧ u.subMilliseconds = 0 := by
  obtain ⟨w, hw, rfl, hwhole⟩ := toUniversal_ok h
  rw [Moment.truncate_of_subMilliseconds (hwhole rfl)]
  exact ⟨hw, hwhole rfl⟩

/-- A date-time is found again by its moment exactly if a clock shows it. -/
theorem ofUniversal_universal?_iff (hzone : d.kind = .local → zone.ReadsShown)
    (h : d.universal? zone = some u) : ofUniversal zone d.kind u = .ok d ↔ d.IsShown zone := by
  constructor
  · intro hread hlocal
    exact ⟨u, (ofUniversal_ok hread).2.1 hlocal⟩
  · intro hshown
    obtain ⟨moment, kind⟩ := d
    unfold universal? at h
    unfold ofUniversal
    cases kind with
    | utc | unspecified =>
      cases h
      rfl
    | _ =>
      dsimp only at h ⊢
      rw [(hzone rfl).toLocal? (hshown rfl) h]

/-- Milliseconds find a date-time again that is no leap second either. -/
theorem ofMilliseconds_universal?_iff (hzone : d.kind = .local → zone.ReadsShown)
    (h : d.universal? zone = some u) (hwhole : u.subMilliseconds = 0) :
    ofMilliseconds zone d.kind (Int64.ofInt u.milliseconds) = .ok d ↔
      d.IsShown zone ∧ d.moment.time.nanosecond.val < 10 ^ 9 := by
  have hfound (hleap : d.moment.time.nanosecond.val < 10 ^ 9) :
      ofMilliseconds zone d.kind (Int64.ofInt u.milliseconds) = .ok d ↔ d.IsShown zone := by
    rw [← nanosecond_universal? h] at hleap
    rw [ofMilliseconds_milliseconds zone d.kind hwhole hleap]
    exact ofUniversal_universal?_iff hzone h
  constructor
  · intro hread
    have hleap := nanosecond_ofMilliseconds hread
    exact ⟨(hfound hleap).1 hread, hleap⟩
  · rintro ⟨hshown, hleap⟩
    exact (hfound hleap).2 hshown

end DateTime

namespace Property

variable {p : Property} {stored : Bson}

/-- The stored form of a time of day tells which one it is. -/
def KeepsTime (p : Property) (t : Time) : Prop :=
  p.representation = .string ∨ t.nanosecond.val < 10 ^ 9

/-- The stored form of a date-time tells which one it is. -/
def KeepsDateTime (p : Property) (d : DateTime) : Prop :=
  d.IsShown p.zone ∧
    if p.representation = .string then ∀ u, d.universal? p.zone = some u → u.date.IsShort
    else d.moment.time.nanosecond.val < 10 ^ 9

/-! ## Times of day -/

theorem decodeScalar_ticks (hkind : p.scalarKind = .time) (ticks : Int64) :
    p.decodeScalar (.int64 ticks) = (Time.ofTicks ticks.toInt).map Value.time := by
  unfold decodeScalar
  rw [hkind]

theorem decodeScalar_shortTicks (hkind : p.scalarKind = .time) (ticks : Int32) :
    p.decodeScalar (.int32 ticks) = p.decodeScalar (.int64 (Int64.ofInt ticks.toInt)) := by
  have hlow := ticks.le_toInt
  have hhigh := ticks.toInt_lt
  rw [decodeScalar_ticks hkind, Int64.toInt_ofInt_of_le (by omega) (by omega)]
  unfold decodeScalar
  rw [hkind]

theorem decodeScalar_time_iff (hkind : p.scalarKind = .time) (htruncation : p.allowTruncation = false)
    {t : Time} (h : p.encodeTime t = .ok stored) :
    p.decodeScalar stored = .ok (.time t) ↔ p.KeepsTime t := by
  unfold encodeTime at h
  unfold KeepsTime
  split at h
  · next htext =>
    cases h
    refine iff_of_true ?_ (.inl htext)
    unfold decodeScalar
    rw [hkind]
    exact Outcome.map_eq_ok.2 ⟨t, readText_eq_ok.2 (Reading.time?_text t), rfl⟩
  · next htext =>
    obtain ⟨ticks, hticks, rfl⟩ := Outcome.map_eq_ok.1 h
    rw [htruncation] at hticks
    rw [decodeScalar_ticks hkind, or_iff_right htext]
    constructor
    · intro hread
      obtain ⟨back, hback, hsame⟩ := Outcome.map_eq_ok.1 hread
      cases hsame
      exact (Time.ofTicks_ok hback).2.2.2
    · intro hleap
      rw [Time.ofTicks_of_toTicks hticks hleap]
      rfl

/-- Ticks that are read are stored again as they were. -/
theorem encodeTime_of_decode (hkind : p.scalarKind = .time) (hform : p.representation ≠ .string)
    {ticks : Int64} {t : Time} (h : p.decodeScalar (.int64 ticks) = .ok (.time t)) :
    p.encodeTime t = .ok (.int64 ticks) := by
  rw [decodeScalar_ticks hkind] at h
  obtain ⟨back, hback, hsame⟩ := Outcome.map_eq_ok.1 h
  cases hsame
  unfold encodeTime
  rw [if_neg hform, Time.toTicks_of_ofTicks hback]
  rfl

/-! ## Date-times -/

theorem decodeScalar_dateTime_iff (hkind : p.scalarKind = .dateTime)
    (htruncation : p.allowTruncation = false)
    (hzone : p.dateTimeKind = .local → p.zone.ReadsShown) {d : DateTime}
    (hsame : d.kind = p.dateTimeKind) (h : p.encodeDateTime d = .ok stored) :
    p.decodeScalar stored = .ok (.dateTime d) ↔ p.KeepsDateTime d := by
  obtain ⟨u, hu, rfl⟩ := Outcome.map_eq_ok.1 h
  rw [htruncation] at hu
  obtain ⟨huniversal, hwhole⟩ := DateTime.universal?_of_toUniversal hu
  rw [← hsame] at hzone
  have hback := DateTime.ofUniversal_universal?_iff hzone huniversal
  have hmilliseconds := DateTime.ofMilliseconds_universal?_iff hzone huniversal hwhole
  rw [hsame] at hback hmilliseconds
  unfold KeepsDateTime
  rw [huniversal]
  cases hform : p.representation with
  | string =>
    rw [if_pos rfl, ← hback]
    simpa using decodeScalar_internetText_iff hkind hwhole d
  | _ =>
    rw [if_neg (by decide), ← hmilliseconds]
    simp [decodeScalar_milliseconds hkind, Outcome.map_eq_ok]

/-! ## Properties -/

/-- Without permission to drop digits, exactly the times and date-times that their stored form keeps
are read back as they were, and ticks that are read are stored again.  The zone of local date-times
may be any one in which times that the clock shows are read as moments at which it shows them. -/
theorem decode_times (htruncation : p.allowTruncation = false)
    (hzone : p.dateTimeKind = .local → p.zone.ReadsShown) :
    (p.kind = .scalar .time →
      (∀ t stored, p.encode (.time t) = .ok stored →
        (p.decode stored = .ok (.time t) ↔ p.KeepsTime t)) ∧
      (p.representation ≠ .string → ∀ t,
        (∀ ticks : Int64, p.decode (.int64 ticks) = .ok (.time t) →
          p.encode (.time t) = .ok (.int64 ticks)) ∧
        ∀ ticks : Int32, p.decode (.int32 ticks) = .ok (.time t) →
          p.encode (.time t) = .ok (.int64 (Int64.ofInt ticks.toInt)))) ∧
    (p.kind = .scalar .dateTime → ∀ d stored, d.kind = p.dateTimeKind →
      p.encode (.dateTime d) = .ok stored →
      (p.decode stored = .ok (.dateTime d) ↔ p.KeepsDateTime d)) := by
  have hdecode {kind : ScalarKind} (hkind : p.kind = .scalar kind) {stored : Bson} {value : Value}
      (hstored : stored ≠ .null) :
      p.decode stored = .ok value ↔ p.decodeScalar stored = .ok value := by
    rw [decode_of_ne_null hkind hstored]
    exact Outcome.mapError_eq_ok
  have hencode {t : Time} {stored : Bson} (hkind : p.kind = .scalar .time)
      (h : p.encodeTime t = .ok stored) : p.encode (.time t) = .ok stored := by
    refine Outcome.mapError_eq_ok.2 ?_
    unfold encodeValue
    rw [hkind]
    dsimp only
    rw [encodeScalar_time (congrArg PropertyKind.scalarKind hkind), h]
  refine ⟨fun hkind ↦ ⟨fun t stored h ↦ ?_, fun hform t ↦ ⟨fun ticks h ↦ ?_, fun ticks h ↦ ?_⟩⟩,
    fun hkind d stored hsame h ↦ ?_⟩
  all_goals have hscalar := congrArg PropertyKind.scalarKind hkind
  · have hstored := encodeScalar_of_encode hkind h
    rw [hdecode hkind (ne_null_of_encodeScalar (by simp) hstored)]
    rw [encodeScalar_time hscalar] at hstored
    exact decodeScalar_time_iff hscalar htruncation hstored
  · rw [hdecode hkind (by simp)] at h
    exact hencode hkind (encodeTime_of_decode hscalar hform h)
  · rw [hdecode hkind (by simp), decodeScalar_shortTicks hscalar] at h
    exact hencode hkind (encodeTime_of_decode hscalar hform h)
  · have hstored := encodeScalar_of_encode hkind h
    rw [hdecode hkind (ne_null_of_encodeScalar (by simp) hstored)]
    rw [encodeScalar_dateTime hscalar] at hstored
    exact decodeScalar_dateTime_iff hscalar htruncation hzone hsame hstored

def departure : Property :=
  { plain "Departure" (.scalar .dateTime) with dateTimeKind := .local, zone := .eastern }

/-- Half past one on the night that summer ends, which the clock shows twice. -/
def nightOfAutumn : DateTime :=
  ⟨⟨⟨20030, by decide, by decide⟩, ⟨⟨5400, by decide⟩, ⟨0, by decide⟩, by decide⟩⟩, .local⟩

theorem decode_times_departure :
    departure.zone.ReadsShown ∧
      departure.encode (.dateTime nightOfAutumn) = .ok (.dateTime 1730615400000) ∧
      departure.decode (.dateTime 1730615400000) = .ok (.dateTime nightOfAutumn) := by
  have hencode : departure.encode (.dateTime nightOfAutumn) = .ok (.dateTime 1730615400000) := rfl
  have hshown : Zone.eastern.toLocal?
      ⟨⟨20030, by decide, by decide⟩, ⟨⟨23400, by decide⟩, ⟨0, by decide⟩, by decide⟩⟩ =
        some nightOfAutumn.moment := by decide +kernel
  have hkeeps : departure.KeepsDateTime nightOfAutumn := by
    refine ⟨fun _ ↦ ⟨_, hshown⟩, ?_⟩
    rw [if_neg (by decide)]
    decide
  have hzone : departure.zone.ReadsShown := Zone.Eastern.readsShown
  obtain ⟨-, hdateTimes⟩ := decode_times (p := departure) rfl fun _ ↦ hzone
  exact ⟨hzone, hencode, (hdateTimes rfl nightOfAutumn _ rfl hencode).2 hkeeps⟩

def alarm : Property := plain "Alarm" (.scalar .time)

/-- A leap second, half of which is over. -/
def leapSecond : Time := ⟨⟨45299, by decide⟩, ⟨1500000000, by decide⟩, by decide⟩

/-- In ticks, a leap second is stored without an error and read as the second after it. -/
theorem decode_leapSecond : ∃ stored, alarm.encode (.time leapSecond) = .ok stored ∧
    alarm.decode stored =
      .ok (.time ⟨⟨45300, by decide⟩, ⟨500000000, by decide⟩, by decide⟩) ∧
    alarm.decode stored ≠ .ok (.time leapSecond) := by
  have hdecode : alarm.decode (.int64 453005000000) =
      .ok (.time ⟨⟨45300, by decide⟩, ⟨500000000, by decide⟩, by decide⟩) := rfl
  refine ⟨.int64 453005000000, rfl, hdecode, ?_⟩
  rw [hdecode]
  simp [leapSecond]

end Property

end DocMapping
