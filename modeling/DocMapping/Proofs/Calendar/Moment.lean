import DocMapping.Calendar.DateTime

/-!
# Counted Moments

A moment is found again by its seconds and nanoseconds, and by its milliseconds if these tell all of
it: the count of milliseconds has no digits past them and moves leap seconds into the next minute.
-/

namespace DocMapping.Moment

variable {m result : Moment} {seconds : Int} {nanosecond : Nat}

theorem ofSeconds?_eq (h : ofSeconds? seconds nanosecond = some result) :
    result.seconds = seconds ∧ result.time.nanosecond.val = nanosecond := by
  obtain ⟨date, hdate, htime⟩ := Option.bind_eq_some_iff.1 h
  obtain ⟨time, htime, rfl⟩ := Option.map_eq_some_iff.1 htime
  unfold Date.ofDay? at hdate
  unfold Time.ofSeconds? at htime
  split at hdate <;> cases hdate
  split at htime <;> cases htime
  have hday : seconds.fdiv 86400 = seconds / 86400 := Int.fdiv_eq_ediv_of_nonneg _ (by decide)
  have hsecond : seconds.fmod 86400 = seconds % 86400 := Int.fmod_eq_emod_of_nonneg _ (by decide)
  refine ⟨?_, rfl⟩
  change seconds.fdiv 86400 * 86400 + ((seconds.fmod 86400).toNat : Int) = seconds
  rw [hday, hsecond]
  omega

theorem ofSeconds?_seconds (m : Moment) :
    ofSeconds? m.seconds m.time.nanosecond.val = some m := by
  have hsecond := m.time.second.isLt
  have hday : m.seconds.fdiv 86400 = m.date.day := by
    rw [Int.fdiv_eq_ediv_of_nonneg _ (by decide)]
    unfold seconds
    omega
  have hrest : (m.seconds.fmod 86400).toNat = m.time.second.val := by
    rw [Int.fmod_eq_emod_of_nonneg _ (by decide)]
    unfold seconds
    omega
  have hdate : Date.ofDay? m.date.day = some m.date := dif_pos ⟨m.date.day_ge, m.date.day_le⟩
  have htime : Time.ofSeconds? m.time.second.val m.time.nanosecond.val = some m.time :=
    dif_pos ⟨hsecond, m.time.nanosecond.isLt, m.time.leap⟩
  rw [ofSeconds?, hday, hrest, hdate, Option.bind_some, htime]
  rfl

theorem shift?_eq (h : m.shift? seconds = some result) :
    result.seconds = m.seconds + seconds ∧
      result.time.nanosecond.val = m.time.nanosecond.val :=
  ofSeconds?_eq h

/-- A moment that is moved by nothing stays where it is. -/
theorem shift?_zero (m : Moment) : m.shift? 0 = some m := by
  rw [shift?, Int.add_zero, ofSeconds?_seconds]

theorem milliseconds_bounds (m : Moment) :
    -2 ^ 53 ≤ m.milliseconds ∧ m.milliseconds ≤ 2 ^ 53 := by
  have hlow := m.date.day_ge
  have hhigh := m.date.day_le
  have hsecond := m.time.second.isLt
  have hnanosecond := m.time.nanosecond.isLt
  unfold milliseconds seconds
  omega

/-- Milliseconds count a moment that is whole to them and not in a leap second. -/
theorem ofMilliseconds?_milliseconds (hwhole : m.subMilliseconds = 0)
    (hleap : m.time.nanosecond.val < 10 ^ 9) : ofMilliseconds? m.milliseconds = some m := by
  unfold subMilliseconds at hwhole
  have hseconds : m.milliseconds.fdiv 1000 = m.seconds := by
    rw [Int.fdiv_eq_ediv_of_nonneg _ (by decide)]
    unfold milliseconds
    omega
  have hrest : (m.milliseconds.fmod 1000).toNat * 1000000 = m.time.nanosecond.val := by
    rw [Int.fmod_eq_emod_of_nonneg _ (by decide)]
    unfold milliseconds
    omega
  rw [ofMilliseconds?, hseconds, hrest, ofSeconds?_seconds]

end DocMapping.Moment
