import DocMapping.Proofs.Association
import DocMapping.Proofs.Codec.NaturalReading

/-!
# Alternate Forms Are Read Back

Truth values, identifiers, dates and members of enumerations may be stored as texts or numbers, and
texts as identifiers.  What is stored so is read as it was.  Only a text that is stored as an
identifier may change: an identifier does not keep the case of the digits it was read from, and its
own digits are in lower case.
-/

namespace DocMapping

/-- A form of a kind other than its natural one, for kinds that are neither numbers nor times.  The
names of an enumeration must tell its members apart. -/
inductive ScalarKind.HasAlternate : ScalarKind → Representation → Prop
  | boolText : HasAlternate .bool .string
  | boolInt32 : HasAlternate .bool .int32
  | boolInt64 : HasAlternate .bool .int64
  | guidText : HasAlternate .guid .string
  | objectIdText : HasAlternate .objectId .string
  | textObjectId : HasAlternate .string .objectId
  | enumName (type : EnumType) (names : (type.members.map Prod.fst).Nodup) :
    HasAlternate (.enum type) .string
  | enumNumber (type : EnumType) (names : (type.members.map Prod.fst).Nodup) :
    HasAlternate (.enum type) .int64
  | dateText : HasAlternate .date .string

theorem Text.toLower_eq_iff {c : Char} : c.toLower = c ↔ c.isUpper = false := by
  unfold Char.toLower Char.isUpper
  split
  · next hupper =>
    refine iff_of_false (fun hsame ↦ ?_) (by simpa using hupper)
    have hmoved : c.val + 32 = c.val := congrArg Char.val hsame
    simp at hmoved
  · next hother => exact iff_of_true rfl (decide_eq_false hother)

namespace Value

/-- A text in lower case; other values stay as they are. -/
def lowered : Value → Value
  | string text => string (String.ofList (text.toList.map Char.toLower))
  | value => value

/-- A text without capital letters, or any other value. -/
def IsLower : Value → Prop
  | string text => ∀ c ∈ text.toList, c.isUpper = false
  | _ => True

theorem lowered_eq_iff {value : Value} : value.lowered = value ↔ value.IsLower := by
  cases value with
  | string text =>
    have hchars := List.map_inj_left (f := Char.toLower) (g := id) (l := text.toList)
    rw [List.map_id] at hchars
    unfold lowered IsLower
    rw [string.injEq, ← String.toList_inj, String.toList_ofList, hchars]
    exact forall₂_congr fun _ _ ↦ Text.toLower_eq_iff
  | _ => exact iff_of_true rfl trivial

end Value

namespace Property

variable {p : Property} {kind : ScalarKind} {value : Value} {stored : Bson}

/-- The first member of a number is the member of its name. -/
theorem decodeEnum_name {type : EnumType} {member : Int64} {name : String}
    (hnames : (type.members.map Prod.fst).Nodup) (h : type.nameOf? member = some name) :
    p.decodeEnum type (.string name) = .ok (.enum member) := by
  obtain ⟨⟨_, number⟩, hentry, rfl⟩ := Option.map_eq_some_iff.1 h
  have hnumber : number = member := by simpa using List.find?_some hentry
  have hvalue := Association.lookup_of_mem hnames (List.mem_of_find?_eq_some hentry)
  unfold decodeEnum EnumType.valueOf?
  dsimp only at hvalue ⊢
  rw [hvalue, hnumber]

theorem decodeEnum_encodeEnum_alternate {type : EnumType} {member : Int64}
    (halternate : (ScalarKind.enum type).HasAlternate p.representation)
    (h : p.encodeEnum type member = .ok stored) :
    p.decodeEnum type stored = .ok (.enum member) := by
  unfold encodeEnum at h
  generalize p.representation = form at halternate h
  cases halternate with
  | enumName _ hnames =>
    dsimp only at h
    split at h
    · next name hname =>
      cases h
      exact decodeEnum_name hnames hname
    · cases h
  | enumNumber _ _ =>
    cases h
    exact decodeEnum_int64 p type member

/-- A text that is stored as an identifier is read in lower case. -/
theorem decodeScalar_encodeString (hkind : p.scalarKind = .string) {text : String}
    (h : encodeString .objectId text = .ok stored) :
    p.decodeScalar stored = .ok (Value.string text).lowered := by
  unfold encodeString at h
  rw [if_pos rfl] at h
  split at h
  · next id hid =>
    cases h
    unfold decodeScalar
    rw [hkind]
    exact congrArg (Except.ok <| Value.string ·) (ObjectId.text_of_ofText? hid)
  · cases h

/-- A scalar in an alternate form is read as it was, except that a text is in lower case. -/
theorem decodeScalar_alternate (halternate : p.scalarKind.HasAlternate p.representation)
    (hvalue : p.scalarKind.Holds value) (h : p.encodeScalar value = .ok stored) :
    p.decodeScalar stored = .ok value.lowered := by
  generalize hkind : p.scalarKind = kind at halternate hvalue
  cases hvalue with
  | int32 | int64 | double | decimal | bytes => cases halternate
  | enum type member =>
    rw [encodeScalar_enum hkind] at h
    unfold decodeScalar
    rw [hkind]
    exact decodeEnum_encodeEnum_alternate halternate h
  | bool flag =>
    unfold encodeScalar at h
    rw [hkind] at h
    cases h
    exact decodeScalar_encodeBool hkind flag
  | guid id =>
    generalize hform : p.representation = form at halternate
    cases halternate
    unfold encodeScalar at h
    rw [hkind, hform] at h
    cases h
    exact decodeScalar_guidText hkind id
  | objectId id =>
    generalize hform : p.representation = form at halternate
    cases halternate
    unfold encodeScalar at h
    rw [hkind, hform] at h
    cases h
    exact decodeScalar_objectIdText hkind id
  | date date =>
    generalize hform : p.representation = form at halternate
    cases halternate
    rw [encodeScalar_date hkind, hform, if_pos rfl] at h
    cases h
    exact decodeScalar_dateText hkind date
  | string text =>
    generalize hform : p.representation = form at halternate
    cases halternate
    unfold encodeScalar at h
    rw [hkind, hform] at h
    exact decodeScalar_encodeString hkind h

/-- What a property stores in an alternate form is read with texts in lower case, so as it was
unless it is a text with capital letters. -/
theorem decode_alternate (hkind : p.kind = .scalar kind)
    (halternate : kind.HasAlternate p.representation) (hvalue : kind.Holds value)
    (h : p.encode value = .ok stored) :
    p.decode stored = .ok value.lowered ∧ (p.decode stored = .ok value ↔ value.IsLower) := by
  have hscalar : p.scalarKind = kind := congrArg PropertyKind.scalarKind hkind
  have hencode := encodeScalar_of_encode hkind h
  have hread : p.decode stored = .ok value.lowered := by
    rw [decode_of_ne_null hkind (ne_null_of_encodeScalar hvalue.ne_null hencode)]
    exact Outcome.mapError_eq_ok.2 (decodeScalar_alternate (hscalar.symm ▸ halternate)
      (hscalar.symm ▸ hvalue) hencode)
  refine ⟨hread, ?_⟩
  rw [hread, Except.ok.injEq, Value.lowered_eq_iff]

/-- Two of the members have one number. -/
def phases : EnumType := ⟨"Phase", [("New", 0), ("Dark", 0), ("Full", 1)]⟩

def phase : Property := { plain "Phase" (.scalar (.enum phases)) with representation := .string }

/-- The number of two members is stored under the first name and read again. -/
theorem decode_alternate_phase : phase.encode (.enum 0) = .ok (.string "New") ∧
    phase.decode (.string "New") = .ok (.enum 0) := by
  have hencode : phase.encode (.enum 0) = .ok (.string "New") := rfl
  have hnames : (phases.members.map Prod.fst).Nodup := by decide
  exact ⟨hencode, (decode_alternate rfl (.enumName phases hnames) (.enum phases 0) hencode).1⟩

/-- Texts that are stored as identifiers. -/
def code : Property := { plain "Code" (.scalar .string) with representation := .objectId }

/-- The identifier of a text with capital letters. -/
def capitalId : ObjectId := ⟨⟨0x65f1a0b2c3d4e5f607182930, by decide⟩⟩

/-- A text with capital letters is stored, but not read as it was. -/
theorem decode_code_capitals : ScalarKind.string.HasAlternate code.representation ∧
    ScalarKind.string.Holds (.string "65F1A0B2C3D4E5F607182930") ∧
    code.encode (.string "65F1A0B2C3D4E5F607182930") = .ok (.objectId capitalId) ∧
    code.decode (.objectId capitalId) = .ok (.string "65f1a0b2c3d4e5f607182930") ∧
    code.decode (.objectId capitalId) ≠ .ok (.string "65F1A0B2C3D4E5F607182930") := by
  have hread : ObjectId.ofText? "65F1A0B2C3D4E5F607182930" = some capitalId := by decide +kernel
  have htext : capitalId.text = "65f1a0b2c3d4e5f607182930" := by decide +kernel
  have hencode : encodeString .objectId "65F1A0B2C3D4E5F607182930" = .ok (.objectId capitalId) := by
    unfold encodeString
    rw [if_pos rfl, hread]
  have hdecode : code.decode (.objectId capitalId) = .ok (.string "65f1a0b2c3d4e5f607182930") :=
    congrArg (Except.ok <| Value.string ·) htext
  refine ⟨.textObjectId, .string _, congrArg code.reporting hencode, hdecode, ?_⟩
  rw [hdecode]
  simp

end Property

end DocMapping
