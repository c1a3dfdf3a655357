import DocMapping.Proofs.Codec.NaturalReading
import DocMapping.Proofs.Number.Decimal128

/-!
# Decimals in Documents

A property of decimals stores each of them exactly, with its scale, and reads it back so.  Of the
other patterns that a document may hold it reads those that denote a decimal number, as just that
number, and refuses the rest unless it permits a loss.
-/

namespace DocMapping

theorem Decimal128.number_ofDecimal (n : Decimal) : (ofDecimal n).number = n.number := by
  obtain ⟨-, -, hnegative, hcoefficient, hexponent⟩ := fields_ofDecimal n
  have hsigned : (ofDecimal n).signedCoefficient = n.signedCoefficient := by
    have habsolute := n.natAbs_signedCoefficient
    unfold signedCoefficient
    rw [hnegative, hcoefficient]
    simp only [decide_eq_true_eq]
    split <;> omega
  unfold number Decimal.number
  rw [hsigned, hexponent]

namespace Property

variable {p : Property}

theorem encode_decimal (hkind : p.kind = .scalar .decimal)
    (hform : p.representation = .natural ∨ p.representation = .decimal128) (number : Decimal) :
    p.encode (.decimal number) = .ok (.decimal128 (.ofDecimal number)) := by
  have hscalar : p.scalarKind = .decimal := congrArg PropertyKind.scalarKind hkind
  have hnumber : p.encodeNumber (.decimal number) = .ok (.decimal128 (.ofDecimal number)) := by
    unfold encodeNumber
    rcases hform with hform | hform
    all_goals
      rw [hform, hscalar]
      rfl
  refine Outcome.mapError_eq_ok.2 ?_
  unfold encodeValue
  rw [hkind]
  dsimp only
  rw [encodeScalar_decimal hscalar, hnumber]

theorem decode_decimal (hkind : p.kind = .scalar .decimal) {d : Decimal128} {read : Value} :
    p.decode (.decimal128 d) = .ok read ↔ ∃ number,
      d.toDecimal p.allowOverflow p.allowTruncation = .ok number ∧ read = .decimal number := by
  have hscalar : p.scalarKind = .decimal := congrArg PropertyKind.scalarKind hkind
  have hread : p.decodeScalar (.decimal128 d) =
      (d.toDecimal p.allowOverflow p.allowTruncation).map Value.decimal := by
    rw [decodeScalar_decimal hscalar, decodeNumber, readNumber, Numeral.ofBson?, hscalar]
    unfold permissions
    dsimp only
    cases d.toDecimal p.allowOverflow p.allowTruncation <;> rfl
  rw [decode_of_ne_null hkind (by simp), hread]
  unfold reporting
  rw [Outcome.mapError_eq_ok, Outcome.map_eq_ok]
  simp only [eq_comm]

/-- Decimals are stored exactly and come back with their scale, zero without its sign.  Without
permissions a finite pattern is read exactly if some decimal number equals it, and as that number. -/
theorem decode_decimal_exact (hkind : p.kind = .scalar .decimal) :
    (∀ number : Decimal,
      (p.representation = .natural ∨ p.representation = .decimal128 →
        p.encode (.decimal number) = .ok (.decimal128 (.ofDecimal number))) ∧
      (Decimal128.ofDecimal number).number = number.number ∧
      p.decode (.decimal128 (.ofDecimal number)) = .ok (.decimal number.unsignZero)) ∧
    (p.allowOverflow = false → p.allowTruncation = false → ∀ d : Decimal128, d.isNaN = false →
      d.isInfinite = false →
      ((∃ read, p.decode (.decimal128 d) = .ok read) ↔
        ∃ number : Decimal, number.number = d.number) ∧
      ∀ read, p.decode (.decimal128 d) = .ok read →
        ∃ number : Decimal, read = .decimal number ∧ number.number = d.number) := by
  refine ⟨fun number ↦ ⟨fun hform ↦ encode_decimal hkind hform number,
    Decimal128.number_ofDecimal number, ?_⟩, fun hoverflow htruncation d hnan hfinite ↦ ?_⟩
  · exact (decode_decimal hkind).2 ⟨_, Decimal128.toDecimal_ofDecimal _ _ number, rfl⟩
  · have hexact : ∀ read, p.decode (.decimal128 d) = .ok read →
        ∃ number : Decimal, read = .decimal number ∧ number.number = d.number := by
      intro read h
      obtain ⟨number, hnumber, rfl⟩ := (decode_decimal hkind).1 h
      rw [hoverflow, htruncation] at hnumber
      exact ⟨number, rfl, Decimal128.number_of_toDecimal hnan hfinite hnumber⟩
    refine ⟨⟨?_, ?_⟩, hexact⟩
    · rintro ⟨read, h⟩
      obtain ⟨number, -, hnumber⟩ := hexact read h
      exact ⟨number, hnumber⟩
    · rintro ⟨number, hnumber⟩
      obtain ⟨read, hread⟩ := Decimal128.exists_toDecimal hnan hfinite hnumber
      refine ⟨.decimal read, (decode_decimal hkind).2 ⟨read, ?_, rfl⟩⟩
      rw [hoverflow, htruncation, hread]

/-- One, written with thirty zeros after the point. -/
def oneOfThirtyZeros : Decimal128 := ⟨⟨(6176 - 30) * 2 ^ 113 + 10 ^ 30, by decide⟩⟩

/-- Zeros beyond the 28 digits are no loss. -/
theorem decode_decimal_exact_price :
    let price := plain "Price" (.scalar .decimal)
    ∃ number : Decimal, price.decode (.decimal128 oneOfThirtyZeros) = .ok (.decimal number) ∧
      number.number = oneOfThirtyZeros.number := by
  intro price
  have hone : (⟨false, 1, 0⟩ : Decimal).number = oneOfThirtyZeros.number :=
    Decimal128.number_eq_iff.2 (by decide +kernel)
  obtain ⟨hreads, hexact⟩ := (decode_decimal_exact (p := price) rfl).2 rfl rfl oneOfThirtyZeros
    (by decide +kernel) (by decide +kernel)
  obtain ⟨read, hread⟩ := hreads.2 ⟨_, hone⟩
  obtain ⟨number, rfl, hnumber⟩ := hexact read hread
  exact ⟨number, hread, hnumber⟩

end Property

end DocMapping
