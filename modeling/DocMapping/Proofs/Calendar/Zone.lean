import DocMapping.Calendar.Zone
import DocMapping.Proofs.Calendar.Moment
import DocMapping.Proofs.Calendar.Texts

/-!
# Laws of Zones

What rules of a local clock may be relied on.  A local time that the clock shows is read as a moment
at which the clock shows it.  Reading keeps the order of local times if all of those that the clock
repeats are read as the first of their moments, or all as the last, and the clock does not go back to
times that it had left out.

A zone with summer time has these laws, although the first second that spring leaves out is read as a
moment, and what autumn repeats as the later one.
-/

namespace DocMapping

namespace Zone

/-! ## Laws -/

/-- The local clock shows the time at some moment. -/
def IsShown (z : Zone) (m : Moment) : Prop := ∃ universal, z.toLocal? universal = some m

/-- A local time that the clock shows at some moment is read with an offset that the clock has at the
moment that this makes of it. -/
def ReadsShown (z : Zone) : Prop :=
  ∀ (m u : Moment) (offset : Int), z.IsShown m → z.offsetOfLocal? m = some offset →
    m.shift? (-offset) = some u → z.offsetOfUniversal u = offset

/-- Before the moment that a time is read as, the clock shows only earlier times. -/
def ReadsFirst (z : Zone) : Prop :=
  ∀ m u v t : Moment, z.toUniversal? m = some u → z.toLocal? u = some m → z.toLocal? v = some t →
    v.order u = .lt → t.order m = .lt

/-- After the moment that a time is read as, the clock shows only later times. -/
def ReadsLast (z : Zone) : Prop :=
  ∀ m u v t : Moment, z.toUniversal? m = some u → z.toLocal? u = some m → z.toLocal? v = some t →
    u.order v = .lt → m.order t = .lt

variable {z : Zone} {a b m u v : Moment} {offset : Int}

/-- A shift is undone by an equal offset. -/
theorem toLocal?_of_shift? (h : m.shift? (-offset) = some u)
    (hoffset : z.offsetOfUniversal u = offset) : z.toLocal? u = some m := by
  obtain ⟨hseconds, hnanosecond⟩ := Moment.shift?_eq h
  have hback : u.seconds + offset = m.seconds := by omega
  rw [toLocal?, Moment.shift?, hoffset, hback, hnanosecond, Moment.ofSeconds?_seconds]

/-- A time that is shown is found again by the moment that it is read as. -/
theorem ReadsShown.toLocal? (h : z.ReadsShown) (hm : z.IsShown m)
    (hu : z.toUniversal? m = some u) : z.toLocal? u = some m := by
  obtain ⟨offset, hoffset, hshift⟩ := Option.bind_eq_some_iff.1 hu
  exact toLocal?_of_shift? hshift (h m u offset hm hoffset hshift)

theorem nanosecond_toUniversal? (h : z.toUniversal? m = some u) :
    u.time.nanosecond.val = m.time.nanosecond.val := by
  obtain ⟨_, -, hshift⟩ := Option.bind_eq_some_iff.1 h
  exact (Moment.shift?_eq hshift).2

/-- Times that are found again are read in their order. -/
theorem order_of_toLocal? (h : z.ReadsFirst ∨ z.ReadsLast) (hu : z.toUniversal? a = some u)
    (hv : z.toUniversal? b = some v) (ha : z.toLocal? u = some a) (hb : z.toLocal? v = some b) :
    u.order v = a.order b := by
  have hlt {a b u v : Moment} (hu : z.toUniversal? a = some u) (hv : z.toUniversal? b = some v)
      (ha : z.toLocal? u = some a) (hb : z.toLocal? v = some b) (huv : u.order v = .lt) :
      a.order b = .lt := by
    rcases h with hfirst | hlast
    · exact hfirst b v u a hv hb ha huv
    · exact hlast a u v b hu ha hb huv
  cases horder : u.order v with
  | lt => exact (hlt hu hv ha hb horder).symm
  | gt =>
    rw [← Moment.order_swap, hlt hv hu hb ha (by rw [← Moment.order_swap, horder]; rfl)]
    rfl
  | eq =>
    rw [Moment.order_eq_eq_iff.1 horder] at ha
    cases ha.symm.trans hb
    exact (Moment.order_eq_eq_iff.2 rfl).symm

end Zone

/-! ## A zone with summer time -/

namespace Zone.Eastern

theorem summerStart_bounds (year : Int) :
    (Date.dayNumber year 3 1 + 7) * 86400 + 7200 ≤ summerStart year ∧
      summerStart year ≤ (Date.dayNumber year 3 1 + 13) * 86400 + 7200 := by
  unfold summerStart sunday
  dsimp only
  omega

theorem summerEnd_bounds (year : Int) :
    (Date.dayNumber year 3 1 + 245) * 86400 + 7200 ≤ summerEnd year ∧
      summerEnd year ≤ (Date.dayNumber year 3 1 + 251) * 86400 + 7200 := by
  have hnovember : Date.dayNumber year 11 1 = Date.dayNumber year 3 1 + 245 := by
    unfold Date.dayNumber
    rw [if_neg (by decide), if_neg (by decide)]
    dsimp only
    omega
  unfold summerEnd sunday
  dsimp only
  omega

/-- In summer the clock is four hours behind, before and after it is five. -/
theorem offsetOfUniversal_cases (m : Moment) :
    (offsetOfUniversal m = -14400 ∧ summerStart m.date.year + 18000 ≤ m.seconds ∧
        m.seconds < summerEnd m.date.year + 14400) ∨
      (offsetOfUniversal m = -18000 ∧ (m.seconds < summerStart m.date.year + 18000 ∨
        summerEnd m.date.year + 14400 ≤ m.seconds)) := by
  unfold offsetOfUniversal summerOffset standardOffset
  dsimp only
  split <;> omega

theorem offsetOfLocal?_cases {m : Moment} {offset : Int} (h : offsetOfLocal? m = some offset) :
    (offset = -14400 ∧ summerStart m.date.year + 3600 ≤ m.seconds ∧
        m.seconds < summerEnd m.date.year - 3600) ∨
      (offset = -18000 ∧ (m.seconds ≤ summerStart m.date.year ∨
        summerEnd m.date.year - 3600 ≤ m.seconds)) := by
  unfold offsetOfLocal? summerOffset standardOffset at h
  dsimp only at h
  split at h
  · cases h
    omega
  · split at h
    · cases h
    · split at h <;> cases h <;> omega

theorem day_bounds (m : Moment) :
    m.date.day * 86400 ≤ m.seconds ∧ m.seconds < (m.date.day + 1) * 86400 := by
  have hsecond := m.time.second.isLt
  unfold Moment.seconds
  omega

/-- The hour that spring leaves out is not shown. -/
theorem seconds_of_isShown {m : Moment} (h : eastern.IsShown m) :
    m.seconds < summerStart m.date.year ∨ summerStart m.date.year + 3600 ≤ m.seconds := by
  obtain ⟨universal, h⟩ := h
  obtain ⟨hseconds, -⟩ := Moment.shift?_eq h
  have hoffset := offsetOfUniversal_cases universal
  have hday := day_bounds universal
  have hstart := summerStart_bounds m.date.year
  change m.seconds = universal.seconds + offsetOfUniversal universal at hseconds
  rcases lt_trichotomy universal.date.year m.date.year with hyear | hyear | hyear
  · have hmarch := Date.lt_march hyear
    omega
  · -- Within one year, summer has begun exactly if the clock was put forward.
    have hend := summerEnd_bounds m.date.year
    rw [hyear] at hoffset
    omega
  · have hmarch := Date.march_lt_of_year_lt hyear
    omega

theorem readsShown : eastern.ReadsShown := by
  intro m u offset hshown hoffset hshift
  change offsetOfUniversal u = offset
  obtain ⟨hseconds, -⟩ := Moment.shift?_eq hshift
  have hgap := seconds_of_isShown hshown
  have hlocal := offsetOfLocal?_cases hoffset
  have huniversal := offsetOfUniversal_cases u
  have hmday := day_bounds m
  have huday := day_bounds u
  have hstart := summerStart_bounds u.date.year
  have hend := summerEnd_bounds m.date.year
  have hyears : m.date.year ≤ u.date.year := Date.civil_year_mono (by omega)
  rcases hyears.lt_or_eq with hyear | hyear
  · -- The year has turned: summer was over and is not yet back.
    have hmarch := Date.lt_march hyear
    have hdecember := Date.march_lt_of_year_lt hyear
    omega
  · rw [← hyear] at huniversal
    omega

/-- Later seconds are shown later than a time and the second that it is read as. -/
theorem seconds_lt {m u v t : Moment} (hu : eastern.toUniversal? m = some u)
    (ht : eastern.toLocal? v = some t) (h : u.seconds < v.seconds) : m.seconds < t.seconds := by
  obtain ⟨offset, hoffset, hshift⟩ := Option.bind_eq_some_iff.1 hu
  obtain ⟨hread, -⟩ := Moment.shift?_eq hshift
  obtain ⟨hshow, -⟩ := Moment.shift?_eq ht
  change t.seconds = v.seconds + offsetOfUniversal v at hshow
  have huniversal := offsetOfUniversal_cases v
  have hmday := day_bounds m
  have hvday := day_bounds v
  rcases offsetOfLocal?_cases hoffset with ⟨rfl, hbegun, hended⟩ | ⟨rfl, -⟩
  · -- The clock is next put back at the end of the summer, to a time that is still later.
    have hend := summerEnd_bounds m.date.year
    have hyears : m.date.year ≤ v.date.year := Date.civil_year_mono (by omega)
    rcases hyears.lt_or_eq with hyear | hyear
    · have hdecember := Date.march_lt_of_year_lt hyear
      omega
    · rw [← hyear] at huniversal
      omega
  · omega

theorem readsLast : eastern.ReadsLast := by
  intro m u v t hu hm ht horder
  have hmnanosecond := (Moment.shift?_eq hm).2
  have htnanosecond := (Moment.shift?_eq ht).2
  rw [Moment.order_eq, Std.compare_eq_lt] at horder ⊢
  have hunano := u.time.nanosecond.isLt
  have hvnano := v.time.nanosecond.isLt
  rcases (by omega : u.seconds < v.seconds ∨ u.seconds = v.seconds) with hlater | hsame
  · have hlt := seconds_lt hu ht hlater
    omega
  · -- Within one second the clock has one offset.
    have huday := day_bounds u
    have hvday := day_bounds v
    have hdays : u.date.day = v.date.day := by omega
    have hoffsets : offsetOfUniversal u = offsetOfUniversal v := by
      unfold offsetOfUniversal Date.year
      rw [hdays, hsame]
    have hmseconds : m.seconds = u.seconds + offsetOfUniversal u := (Moment.shift?_eq hm).1
    have htseconds : t.seconds = v.seconds + offsetOfUniversal v := (Moment.shift?_eq ht).1
    omega

end Zone.Eastern

end DocMapping
