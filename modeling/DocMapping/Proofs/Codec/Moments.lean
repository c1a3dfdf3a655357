import DocMapping.Proofs.Calendar.Reading
import DocMapping.Proofs.Calendar.Zone
import DocMapping.Proofs.Codec.Lossless

/-!
# Stored Dates and Times

Dates with times are stored as moments of universal time, whole to the millisecond, in milliseconds or
as texts; times of day as ticks or as texts.  All these stored forms stand in the order of what they
store, if it is stored without loss.  Dates have texts that do so only for years of four digits.
-/

namespace DocMapping

theorem Time.eq_of_parts {s t : Time} (hsecond : s.second = t.second)
    (hnanosecond : s.nanosecond = t.nanosecond) : s = t := by
  cases s
  cases t
  cases hsecond
  cases hnanosecond
  rfl

/-- Ticks from midnight are whole, within a day and outside of leap seconds. -/
theorem Time.ofTicks_ok {ticks : Int} {t : Time} (h : ofTicks ticks = .ok t) :
    0 ≤ ticks ∧ ticks < 86400 * 10 ^ 7 ∧
      t.second.val * 10 ^ 9 + t.nanosecond.val = ticks * 100 ∧ t.nanosecond.val < 10 ^ 9 := by
  unfold ofTicks at h
  by_cases hrange : 0 ≤ ticks ∧ ticks < 86400 * ticksPerSecond
  · rw [if_pos hrange] at h
    unfold ofSeconds? at h
    split at h
    · cases h
      unfold ticksPerSecond at hrange ⊢
      dsimp only
      omega
    · cases h
  · rw [if_neg hrange] at h
    cases h

/-! ## Moments of universal time -/

namespace Moment

variable {a b m : Moment}

theorem truncate_of_subMilliseconds (h : m.subMilliseconds = 0) : m.truncate = m := by
  have hnanosecond : m.truncate.time.nanosecond = m.time.nanosecond :=
    Fin.ext (congrArg (m.time.nanosecond.val - ·) h)
  exact congrArg (Moment.mk m.date) (Time.eq_of_parts rfl hnanosecond)

theorem subMilliseconds_truncate (m : Moment) : m.truncate.subMilliseconds = 0 := by
  change (m.time.nanosecond.val - m.time.nanosecond.val % 1000000) % 1000000 = 0
  omega

end Moment

namespace DateTime

variable {zone : Zone} {d : DateTime} {u m : Moment}

/-- The moment in universal time, with all its digits. -/
def universal? (zone : Zone) (d : DateTime) : Option Moment :=
  match d.kind with
  | .local => zone.toUniversal? d.moment
  | _ => some d.moment

/-- A local time is one that the clock shows. -/
def IsShown (zone : Zone) (d : DateTime) : Prop := d.kind = .local → zone.IsShown d.moment

theorem toUniversal_ok {truncation : Bool} (h : d.toUniversal zone truncation = .ok u) :
    ∃ w, d.universal? zone = some w ∧ u = w.truncate ∧
      (truncation = false → w.subMilliseconds = 0) := by
  have hsettle {w : Moment} {fault : ConversionFault}
      (h : (if w.subMilliseconds = 0 then .ok w
        else if truncation then .ok w.truncate else .error fault) = Except.ok u) :
      u = w.truncate ∧ (truncation = false → w.subMilliseconds = 0) := by
    split at h
    · next hzero =>
      cases h
      exact ⟨(Moment.truncate_of_subMilliseconds hzero).symm, fun _ ↦ hzero⟩
    · split at h <;> cases h
      next hpermitted => exact ⟨rfl, fun hstrict ↦ absurd (hpermitted.symm.trans hstrict) (by decide)⟩
  unfold toUniversal at h
  unfold universal?
  cases hkind : d.kind with
  | utc | unspecified =>
    rw [hkind] at h
    exact ⟨d.moment, rfl, hsettle h⟩
  | _ =>
    rw [hkind] at h
    dsimp only at h ⊢
    cases hzone : zone.toUniversal? d.moment with
    | none =>
      rw [hzone] at h
      cases h
    | some w =>
      rw [hzone] at h
      exact ⟨w, rfl, hsettle h⟩

theorem nanosecond_universal? (h : d.universal? zone = some u) :
    u.time.nanosecond.val = d.moment.time.nanosecond.val := by
  unfold universal? at h
  split at h
  · exact Zone.nanosecond_toUniversal? h
  · cases h
    rfl

theorem ofUniversal_ok {kind : DateTimeKind} (h : ofUniversal zone kind m = .ok d) :
    d.kind = kind ∧ (kind = .local → zone.toLocal? m = some d.moment) ∧
      (kind ≠ .local → d.moment = m) ∧ d.moment.time.nanosecond.val = m.time.nanosecond.val := by
  unfold ofUniversal at h
  cases kind with
  | utc | unspecified =>
    cases h
    exact ⟨rfl, nofun, fun _ ↦ rfl, rfl⟩
  | _ =>
    dsimp only at h
    split at h <;> cases h
    next moment hmoment =>
      exact ⟨rfl, fun _ ↦ hmoment, fun h ↦ absurd rfl h, (Moment.shift?_eq hmoment).2⟩

/-- Milliseconds count no leap seconds. -/
theorem nanosecond_ofMilliseconds {kind : DateTimeKind} {milliseconds : Int64}
    (h : ofMilliseconds zone kind milliseconds = .ok d) :
    d.moment.time.nanosecond.val < 10 ^ 9 := by
  unfold ofMilliseconds at h
  split at h
  · next m hm =>
    have hrest : milliseconds.toInt.fmod 1000 = milliseconds.toInt % 1000 :=
      Int.fmod_eq_emod_of_nonneg _ (by decide)
    rw [(ofUniversal_ok h).2.2.2, (Moment.ofSeconds?_eq hm).2, hrest]
    omega
  · cases h

/-- A moment that is whole to the millisecond and not in a leap second is found by its milliseconds. -/
theorem ofMilliseconds_milliseconds (zone : Zone) (kind : DateTimeKind)
    (hwhole : m.subMilliseconds = 0) (hleap : m.time.nanosecond.val < 10 ^ 9) :
    ofMilliseconds zone kind (Int64.ofInt m.milliseconds) = ofUniversal zone kind m := by
  have hbounds := m.milliseconds_bounds
  unfold ofMilliseconds
  rw [Int64.toInt_ofInt_of_le (by omega) (by omega),
    Moment.ofMilliseconds?_milliseconds hwhole hleap]

end DateTime

/-! ## Years with signs -/

/-- A year of more than four digits begins with a sign, and one before the year zero. -/
theorem Date.exists_sign {d : Date} (h : ¬d.IsShort) :
    ∃ sign rest, d.text.toList = sign :: rest ∧ sign.isDigit = false := by
  have hyear : ∃ sign rest, (yearText d.year).toList = sign :: rest ∧ sign.isDigit = false := by
    unfold IsShort at h
    unfold yearText
    dsimp only
    rcases lt_or_ge d.year 0 with hneg | hpos
    · rw [if_pos hneg, String.toList_append]
      exact ⟨'-', _, rfl, rfl⟩
    · rw [if_neg (by omega), if_pos (by omega), String.toList_append]
      exact ⟨'+', _, rfl, rfl⟩
  obtain ⟨sign, rest, htext, hsign⟩ := hyear
  rw [text_eq]
  simp only [String.toList_append, htext, List.cons_append]
  exact ⟨sign, _, rfl, hsign⟩

/-- A universal date-time is only read if its year has four digits and no sign. -/
theorem Reading.isShort_of_universal? {m read : Moment}
    (h : universal? m.internetText = some read) : m.date.IsShort := by
  by_contra hshort
  obtain ⟨sign, rest, htext, hsign⟩ := Date.exists_sign hshort
  unfold universal? at h
  obtain ⟨_, hyear, -⟩ := Option.bind_eq_some_iff.1 h
  unfold Moment.internetText at hyear
  simp only [String.toList_append, htext, List.cons_append] at hyear
  unfold number? at hyear
  rw [List.take_succ_cons, List.takeWhile_cons, hsign] at hyear
  cases hyear

/-! ## Stored moments -/

namespace Property

variable {p : Property}

/-- A moment is read from its text exactly if its year has four digits. -/
theorem readText_internetText_iff {u : Moment} (hwhole : u.subMilliseconds = 0) (m : Moment) :
    readText (Reading.universal? u.internetText) = .ok m ↔ m = u ∧ u.date.IsShort := by
  rw [readText_eq_ok]
  constructor
  · intro h
    have hshort := Reading.isShort_of_universal? h
    rw [Reading.universal?_internetText hshort, Moment.truncate_of_subMilliseconds hwhole] at h
    cases h
    exact ⟨rfl, hshort⟩
  · rintro ⟨rfl, hshort⟩
    rw [Reading.universal?_internetText hshort, Moment.truncate_of_subMilliseconds hwhole]

theorem decodeScalar_milliseconds (hkind : p.scalarKind = .dateTime) (milliseconds : Int64) :
    p.decodeScalar (.dateTime milliseconds) =
        (DateTime.ofMilliseconds p.zone p.dateTimeKind milliseconds).map Value.dateTime ∧
      p.decodeScalar (.int64 milliseconds) = p.decodeScalar (.dateTime milliseconds) := by
  unfold decodeScalar
  rw [hkind]
  exact ⟨rfl, rfl⟩

theorem decodeScalar_internetText_iff (hkind : p.scalarKind = .dateTime) {u : Moment}
    (hwhole : u.subMilliseconds = 0) (d : DateTime) :
    p.decodeScalar (.string u.internetText) = .ok (.dateTime d) ↔
      DateTime.ofUniversal p.zone p.dateTimeKind u = .ok d ∧ u.date.IsShort := by
  unfold decodeScalar
  rw [hkind]
  constructor
  · intro h
    obtain ⟨m, hm, hread⟩ := Outcome.bind_eq_ok.1 h
    obtain ⟨rfl, hshort⟩ := (readText_internetText_iff hwhole m).1 hm
    obtain ⟨back, hback, hsame⟩ := Outcome.map_eq_ok.1 hread
    cases hsame
    exact ⟨hback, hshort⟩
  · rintro ⟨hback, hshort⟩
    have hmoment := (readText_internetText_iff hwhole u).2 ⟨rfl, hshort⟩
    exact Outcome.bind_eq_ok.2 ⟨u, hmoment, Outcome.map_eq_ok.2 ⟨d, hback, rfl⟩⟩

end Property

end DocMapping
