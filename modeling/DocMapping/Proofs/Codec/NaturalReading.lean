import DocMapping.Comparer
import DocMapping.Proofs.Codec.Legible
import DocMapping.Proofs.Codec.Natural

/-!
# Natural Forms Are Read Back

What a property has stored in the natural form of its kind is read again, as a value that its comparer
finds equal to the one that was stored, in the container that is declared.  All values come back as
they were except for decimals, of which zero has lost its sign.
-/

namespace DocMapping

/-- The value is one of the kind, for the kinds with values that do not depend on a time zone. -/
inductive ScalarKind.Holds : ScalarKind → Value → Prop
  | bool (flag : Bool) : Holds .bool (.bool flag)
  | int32 (number : Int32) : Holds .int32 (.int32 number)
  | int64 (number : Int64) : Holds .int64 (.int64 number)
  | double (number : Binary64) : Holds .double (.double number)
  | decimal (number : Decimal) : Holds .decimal (.decimal number)
  | string (text : String) : Holds .string (.string text)
  | guid (id : Guid) : Holds .guid (.guid id)
  | objectId (id : ObjectId) : Holds .objectId (.objectId id)
  | bytes (bytes : List UInt8) : Holds .bytes (.bytes bytes)
  | date (date : Date) : Holds .date (.date date)
  | enum (type : EnumType) (member : Int64) : Holds (.enum type) (.enum member)

theorem ScalarKind.Holds.ne_null {kind : ScalarKind} {value : Value} (h : kind.Holds value) :
    value ≠ .null := by
  cases h <;> simp

theorem ScalarKind.Holds.isNull {kind : ScalarKind} {value : Value} (h : kind.Holds value) :
    value.isNull = false := by
  cases h <;> rfl

namespace Property

variable {p : Property} {value : Value} {stored : Bson}

/-! ## Scalars -/

/-- A number is stored in the form of its kind. -/
theorem encodeNumber_natural (hnatural : p.representation = .natural) (n : Numeral) :
    p.encodeNumber n = n.toBson p.permissions p.scalarKind.numberForm := by
  unfold encodeNumber
  rw [hnatural]
  rfl

theorem decodeEnum_encodeEnum {type : EnumType} {member : Int64}
    (hnatural : p.representation = .natural) (hoverflow : p.allowOverflow = false)
    (h : p.encodeEnum type member = .ok stored) : p.decodeEnum type stored = .ok (.enum member) := by
  unfold encodeEnum at h
  rw [hnatural] at h
  obtain ⟨hlow, hhigh⟩ := Numeral.range_of_toBson hoverflow h
  have hstored := Numeral.toBson_integer h fun _ ↦ ⟨hlow, hhigh⟩
  have hmember : Int64.ofInt (Int32.ofInt member.toInt).toInt = member := by
    rw [Int32.toInt_ofInt_of_le hlow hhigh, Int64.ofInt_toInt]
  rw [hstored]
  change ((Numeral.integer (Int64.ofInt (Int32.ofInt member.toInt).toInt)).toInt64
    p.permissions).map Value.enum = _
  rw [Numeral.toInt64_int32, hmember]
  rfl

/-- A scalar in its natural form is read as it was, unless it is a decimal. -/
theorem decodeScalar_exact (hnatural : p.representation = .natural)
    (hoverflow : p.allowOverflow = false) (hvalue : p.scalarKind.Holds value)
    (hexact : p.scalarKind ≠ .decimal) (h : p.encodeScalar value = .ok stored) :
    p.decodeScalar stored = .ok value := by
  generalize hkind : p.scalarKind = kind at hvalue
  cases hvalue with
  | decimal number => exact absurd hkind hexact
  | int32 number =>
    have hcarries := carries_int32 hkind number
    rw [hcarries.encode] at h
    rw [hcarries.decode]
    refine hcarries.decodeNumber h (fun _ ↦ Numeral.range_int32 number) fun hform ↦ ?_
    rw [numberForm, hnatural, hkind] at hform
    cases hform
  | int64 number =>
    have hcarries := carries_int64 hkind number
    rw [hcarries.encode] at h
    rw [hcarries.decode]
    refine hcarries.decodeNumber h (fun hform ↦ ?_) fun hform ↦ ?_
    all_goals
      rw [numberForm, hnatural, hkind] at hform
      cases hform
  | enum type member =>
    rw [encodeScalar_enum hkind] at h
    rw [decodeScalar_enum hkind]
    exact decodeEnum_encodeEnum hnatural hoverflow h
  | bool flag =>
    unfold encodeScalar at h
    rw [hkind] at h
    cases h
    exact decodeScalar_encodeBool hkind flag
  | double number =>
    rw [encodeScalar_double hkind, encodeNumber_natural hnatural, hkind] at h
    cases h
    rw [decodeScalar_double hkind]
    change (Numeral.double number).toValue p.permissions p.scalarKind.numberForm = _
    rw [hkind]
    rfl
  | string text =>
    unfold encodeScalar at h
    rw [hkind, hnatural] at h
    cases h
    unfold decodeScalar
    rw [hkind]
  | objectId id =>
    unfold encodeScalar at h
    rw [hkind, hnatural] at h
    cases h
    exact decodeScalar_objectId hkind id
  | guid id =>
    unfold encodeScalar at h
    rw [hkind, hnatural] at h
    cases h
    exact decodeScalar_guidBytes hkind id
  | bytes bytes =>
    unfold encodeScalar at h
    rw [hkind] at h
    cases h
    unfold decodeScalar
    rw [hkind]
  | date date =>
    rw [encodeScalar_date hkind, hnatural, if_neg (by decide)] at h
    cases h
    exact decodeScalar_dateMilliseconds hkind date

/-- A decimal in its natural form is read without the sign of zero. -/
theorem decodeScalar_unsignZero (hnatural : p.representation = .natural)
    (hkind : p.scalarKind = .decimal) {number : Decimal}
    (h : p.encodeScalar (.decimal number) = .ok stored) :
    p.decodeScalar stored = .ok (.decimal number.unsignZero) := by
  rw [encodeScalar_decimal hkind, encodeNumber_natural hnatural, hkind] at h
  cases h
  rw [decodeScalar_decimal hkind, decodeNumber, readNumber, Numeral.ofBson?,
    Decimal128.toDecimal_ofDecimal, hkind]
  rfl

/-- A scalar in its natural form is read as an equal one. -/
theorem decodeScalar_natural (hnatural : p.representation = .natural)
    (hoverflow : p.allowOverflow = false) (hvalue : p.scalarKind.Holds value)
    (h : p.encodeScalar value = .ok stored) :
    ∃ read, p.decodeScalar stored = .ok read ∧ value.structuralEq read = true ∧
      read.isNull = false := by
  by_cases hkind : p.scalarKind = .decimal
  · rw [hkind] at hvalue
    cases hvalue with
    | decimal number =>
      refine ⟨_, decodeScalar_unsignZero hnatural hkind h, ?_, rfl⟩
      simpa [Value.structuralEq, Value.strictEq] using number.numericEq_unsignZero
  · exact ⟨value, decodeScalar_exact hnatural hoverflow hvalue hkind h, structuralEq_self h,
      hvalue.isNull⟩

/-! ## Collections -/

variable {nullable : Bool}

theorem decodeItem_natural (hnatural : p.representation = .natural)
    (hoverflow : p.allowOverflow = false) (elements : ElementComparison)
    (hvalue : value = .null ∨ p.scalarKind.Holds value)
    (h : p.encodeItem nullable value = .ok stored) :
    ∃ read, p.decodeItem nullable stored = .ok read ∧
      Comparer.itemsEq elements value read = true := by
  rcases hvalue with rfl | hvalue
  · unfold encodeItem at h
    dsimp only at h
    split at h <;> cases h
    next haccepted =>
      refine ⟨.null, if_pos haccepted, ?_⟩
      cases elements with
      | value => simp [Comparer.itemsEq, Value.structuralEq, Value.strictEq]
      | nullableValue | reference => rfl
  · rw [encodeItem_of_ne_null nullable hvalue.ne_null] at h
    obtain ⟨read, hread, hequal, hnull⟩ := decodeScalar_natural hnatural hoverflow hvalue h
    have hstored := ne_null_of_encodeScalar hvalue.ne_null h
    refine ⟨read, (decodeItem_of_ne_null nullable hstored).trans hread, ?_⟩
    cases elements with
    | value => exact hequal
    | nullableValue | reference =>
      simp only [Comparer.itemsEq]
      rw [hvalue.isNull, hnull]
      exact hequal

theorem decodeItems_natural (hnatural : p.representation = .natural)
    (hoverflow : p.allowOverflow = false) (elements : ElementComparison) {items : List Value}
    {results : List Bson} (hitems : ∀ item ∈ items, item = .null ∨ p.scalarKind.Holds item)
    (h : items.mapM (p.encodeItem nullable) = .ok results) :
    ∃ reads, results.mapM (p.decodeItem nullable) = .ok reads ∧
      Comparer.sequencesEq elements items reads = true := by
  rw [Outcome.mapM_eq_ok] at h
  induction h with
  | nil => exact ⟨[], rfl, rfl⟩
  | cons hfirst _ ih =>
    obtain ⟨hitem, hrest⟩ := List.forall_mem_cons.1 hitems
    obtain ⟨read, hread, hequal⟩ := decodeItem_natural hnatural hoverflow elements hitem hfirst
    obtain ⟨reads, hreads, hequals⟩ := ih hrest
    refine ⟨read :: reads, ?_, ?_⟩
    · rw [List.mapM_cons, hread, hreads]
      rfl
    · rw [Comparer.sequencesEq, hequal, hequals]
      rfl

/-! ## Properties -/

theorem decodeValue_scalar (hnatural : p.representation = .natural)
    (hoverflow : p.allowOverflow = false) {kind : ScalarKind} (hkind : p.kind = .scalar kind)
    (hvalue : value = .null ∧ p.acceptsNull = true ∨ kind.Holds value)
    (h : p.encodeScalar value = .ok stored) :
    ∃ read, p.decodeValue stored = .ok read ∧ value.structuralEq read = true := by
  rcases hvalue with ⟨rfl, hnull⟩ | hvalue
  · unfold encodeScalar at h
    cases h
    refine ⟨.null, ?_, by simp [Value.structuralEq, Value.strictEq]⟩
    unfold decodeValue
    rw [hkind]
    exact if_pos hnull
  · have hscalar : p.scalarKind = kind := congrArg PropertyKind.scalarKind hkind
    obtain ⟨read, hread, hequal, -⟩ :=
      decodeScalar_natural hnatural hoverflow (hscalar.symm ▸ hvalue) h
    rw [decodeValue_of_ne_null hkind (ne_null_of_encodeScalar hvalue.ne_null h)]
    exact ⟨read, hread, hequal⟩

theorem decodeValue_collection (hnatural : p.representation = .natural)
    (hoverflow : p.allowOverflow = false) {container : Container} {kind : ScalarKind}
    (hkind : p.kind = .collection container kind nullable) (elements : ElementComparison)
    {items : List Value} {results : List Bson}
    (hitems : ∀ item ∈ items, item = .null ∨ kind.Holds item)
    (h : items.mapM (p.encodeItem nullable) = .ok results) :
    ∃ reads, p.decodeValue (.array results) = .ok (.collection container reads) ∧
      Comparer.sequencesEq elements items reads = true := by
  have hscalar : p.scalarKind = kind := congrArg PropertyKind.scalarKind hkind
  obtain ⟨reads, hreads, hequal⟩ :=
    decodeItems_natural hnatural hoverflow elements (hscalar.symm ▸ hitems) h
  refine ⟨reads, ?_, hequal⟩
  unfold decodeValue
  rw [hkind]
  dsimp only
  rw [hreads]
  rfl

/-- The value is one that the property may have: a scalar of its kind, or a collection of them in
either container.  Null is one where it may be read. -/
def Admits (p : Property) (value : Value) : Prop :=
  match p.kind with
  | .scalar kind => value = .null ∧ p.acceptsNull = true ∨ kind.Holds value
  | .collection _ kind _ => value = .null ∨ ∃ container items, value = .collection container items ∧
      ∀ item ∈ items, item = .null ∨ kind.Holds item

/-- The value is in the container of the property, if it has one. -/
def Contains (p : Property) (value : Value) : Prop :=
  match p.kind with
  | .scalar _ => True
  | .collection container _ _ => value = .null ∨ ∃ items, value = .collection container items

/-- What a property stores in natural form is read as a value that its comparer finds equal, in the
declared container. -/
theorem decode_natural (hnatural : p.representation = .natural)
    (hoverflow : p.allowOverflow = false) (hvalue : p.Admits value)
    (h : p.encode value = .ok stored) :
    ∃ read, p.decode stored = .ok read ∧ p.comparer.equals value read = true ∧
      p.Contains read := by
  suffices hread : ∃ read, p.decodeValue stored = .ok read ∧
      p.comparer.equals value read = true ∧ p.Contains read by
    obtain ⟨read, hread, hequal⟩ := hread
    exact ⟨read, Outcome.mapError_eq_ok.2 hread, hequal⟩
  replace h := Outcome.mapError_eq_ok.1 h
  unfold encodeValue at h
  unfold Admits at hvalue
  unfold Contains comparer
  cases hkind : p.kind with
  | scalar kind =>
    rw [hkind] at h hvalue
    obtain ⟨read, hread, hequal⟩ := decodeValue_scalar hnatural hoverflow hkind hvalue h
    exact ⟨read, hread, hequal, trivial⟩
  | collection container kind nullable =>
    rw [hkind] at h hvalue
    dsimp only at h hvalue ⊢
    rcases hvalue with rfl | ⟨form, items, rfl, hitems⟩
    · cases h
      refine ⟨.null, ?_, rfl, .inl rfl⟩
      unfold decodeValue
      rw [hkind]
    · obtain ⟨results, hresults, rfl⟩ := Outcome.map_eq_ok.1 h
      obtain ⟨reads, hreads, hequal⟩ := decodeValue_collection hnatural hoverflow hkind
        (if !kind.isValueType then .reference else if nullable then .nullableValue else .value)
        hitems hresults
      exact ⟨_, hreads, hequal, .inr ⟨reads, rfl⟩⟩

/-- A list of decimals, some of which are missing. -/
def readings : Property := plain "Readings" (.collection .list .decimal true)

/-- Given as an array, with a zero that has a sign. -/
theorem decode_natural_readings :
    let given : Value := .collection .array [.null, .decimal ⟨true, 0, 1⟩]
    let stored : Bson := .array [.null, .decimal128 (.ofDecimal ⟨true, 0, 1⟩)]
    readings.encode given = .ok stored ∧
      ∃ read, readings.decode stored = .ok read ∧ readings.comparer.equals given read = true ∧
        readings.Contains read := by
  intro given stored
  have hitems : ∀ item ∈ [Value.null, .decimal ⟨true, 0, 1⟩],
      item = .null ∨ ScalarKind.decimal.Holds item := by
    simp [ScalarKind.Holds.decimal]
  have hencode : readings.encode given = .ok stored := rfl
  exact ⟨hencode, decode_natural rfl rfl (.inr ⟨.array, _, rfl, hitems⟩) hencode⟩

end Property

end DocMapping
