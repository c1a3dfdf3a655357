import DocMapping.Proofs.Outcome
import DocMapping.Filter

/-!
# Operands of Filters

Converting a filter converts its operands: it succeeds where every operand can be converted, and two
conversions one after the other are a single one.
-/

namespace DocMapping

namespace Filter

variable {α β γ ε : Type} {convert : α → Except ε β}

mutual

/-- The operands of all tests, in order. -/
def operands : Filter α → List α
  | all conditions => operandsEach conditions
  | any conditions => operandsEach conditions
  | not condition => operands condition
  | present _ _ => []
  | test _ _ operand => [operand]

def operandsEach : List (Filter α) → List α
  | [] => []
  | condition :: rest => operands condition ++ operandsEach rest

end

mutual

/-- A filter is converted if every operand is. -/
theorem exists_mapM : (f : Filter α) →
    ((∃ f', f.mapM convert = .ok f') ↔ ∀ a ∈ f.operands, ∃ b, convert a = .ok b)
  | all conditions => by
    rw [operands, ← exists_mapEach conditions, mapM]
    simp only [Outcome.map_eq_ok]
    exact ⟨fun ⟨_, found, h, _⟩ ↦ ⟨found, h⟩, fun ⟨found, h⟩ ↦ ⟨all found, found, h, rfl⟩⟩
  | any conditions => by
    rw [operands, ← exists_mapEach conditions, mapM]
    simp only [Outcome.map_eq_ok]
    exact ⟨fun ⟨_, found, h, _⟩ ↦ ⟨found, h⟩, fun ⟨found, h⟩ ↦ ⟨any found, found, h, rfl⟩⟩
  | not condition => by
    rw [operands, ← exists_mapM condition, mapM]
    simp only [Outcome.map_eq_ok]
    exact ⟨fun ⟨_, found, h, _⟩ ↦ ⟨found, h⟩, fun ⟨found, h⟩ ↦ ⟨not found, found, h, rfl⟩⟩
  | present field expected => by
    rw [operands, mapM]
    exact ⟨by simp, fun _ ↦ ⟨_, rfl⟩⟩
  | test field operator operand => by
    rw [operands, mapM, List.forall_mem_singleton]
    simp only [Outcome.map_eq_ok]
    exact ⟨fun ⟨_, b, h, _⟩ ↦ ⟨b, h⟩, fun ⟨b, h⟩ ↦ ⟨test field operator b, b, h, rfl⟩⟩

theorem exists_mapEach : (conditions : List (Filter α)) →
    ((∃ converted, mapEach convert conditions = .ok converted) ↔
      ∀ a ∈ operandsEach conditions, ∃ b, convert a = .ok b)
  | [] => by
    rw [operandsEach, mapEach]
    exact ⟨by simp, fun _ ↦ ⟨_, rfl⟩⟩
  | condition :: rest => by
    rw [operandsEach, List.forall_mem_append, ← exists_mapM condition, ← exists_mapEach rest,
      mapEach]
    simp only [Outcome.bind_eq_ok]
    exact ⟨fun ⟨_, first, hfirst, others, hothers, _⟩ ↦ ⟨⟨first, hfirst⟩, others, hothers⟩,
      fun ⟨⟨first, hfirst⟩, others, hothers⟩ ↦ ⟨_, first, hfirst, others, hothers, rfl⟩⟩

end

mutual

/-- A filter that is converted twice is converted by both conversions one after the other. -/
theorem mapM_mapM {first : α → Except ε β} {second : β → Except ε γ} {both : α → Except ε γ}
    (h : ∀ a b c, first a = .ok b → both a = .ok c → second b = .ok c) : (f : Filter α) →
    {g : Filter β} → {k : Filter γ} → f.mapM first = .ok g → f.mapM both = .ok k →
    g.mapM second = .ok k
  | all conditions, g, k, hg, hk => by
    rw [mapM] at hg hk
    obtain ⟨converted, hconverted, rfl⟩ := Outcome.map_eq_ok.1 hg
    obtain ⟨last, hlast, rfl⟩ := Outcome.map_eq_ok.1 hk
    rw [mapM, mapEach_mapEach h conditions hconverted hlast]
    rfl
  | any conditions, g, k, hg, hk => by
    rw [mapM] at hg hk
    obtain ⟨converted, hconverted, rfl⟩ := Outcome.map_eq_ok.1 hg
    obtain ⟨last, hlast, rfl⟩ := Outcome.map_eq_ok.1 hk
    rw [mapM, mapEach_mapEach h conditions hconverted hlast]
    rfl
  | not condition, g, k, hg, hk => by
    rw [mapM] at hg hk
    obtain ⟨converted, hconverted, rfl⟩ := Outcome.map_eq_ok.1 hg
    obtain ⟨last, hlast, rfl⟩ := Outcome.map_eq_ok.1 hk
    rw [mapM, mapM_mapM h condition hconverted hlast]
    rfl
  | present field expected, g, k, hg, hk => by
    cases hg
    cases hk
    rw [mapM]
  | test field operator operand, g, k, hg, hk => by
    rw [mapM] at hg hk
    obtain ⟨b, hb, rfl⟩ := Outcome.map_eq_ok.1 hg
    obtain ⟨c, hc, rfl⟩ := Outcome.map_eq_ok.1 hk
    rw [mapM, h operand b c hb hc]
    rfl

theorem mapEach_mapEach {first : α → Except ε β} {second : β → Except ε γ}
    {both : α → Except ε γ} (h : ∀ a b c, first a = .ok b → both a = .ok c → second b = .ok c) :
    (conditions : List (Filter α)) → {converted : List (Filter β)} → {last : List (Filter γ)} →
    mapEach first conditions = .ok converted → mapEach both conditions = .ok last →
    mapEach second converted = .ok last
  | [], converted, last, hconverted, hlast => by
    cases hconverted
    cases hlast
    rw [mapEach]
  | condition :: rest, converted, last, hconverted, hlast => by
    rw [mapEach] at hconverted hlast
    obtain ⟨g, hg, hconverted⟩ := Outcome.bind_eq_ok.1 hconverted
    obtain ⟨gs, hgs, hconverted⟩ := Outcome.bind_eq_ok.1 hconverted
    obtain ⟨k, hk, hlast⟩ := Outcome.bind_eq_ok.1 hlast
    obtain ⟨ks, hks, hlast⟩ := Outcome.bind_eq_ok.1 hlast
    cases hconverted
    cases hlast
    rw [mapEach, mapM_mapM h condition hg hk, mapEach_mapEach h rest hgs hks]
    rfl

end

end Filter

end DocMapping
