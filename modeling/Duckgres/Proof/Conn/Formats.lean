import Duckgres.Proof.Conn.Binary

namespace Duckgres.Conn
open Base Duckgres.Execution Codec List

variable {codec : GoCodec} {oid announced : Oid} {v : Value}

/-! ## Columns announced under another type -/

def Textual (codec : Codec) (oid : Oid) (v : Value) : Prop :=
  oid = .text ∨ oid = .varchar ∨ oid = .timetz ∨ oid = .bytea ∨ (oid = .uuid ∧ ∃ b, v = .bytes b) ∨
    (oid = .numeric ∧ ∃ n, v = .int .uint64 n) ∨ (oid = .json ∧ codec.marshal v = some (codec.formatValue v))

def Agreeable (codec : Codec) (announced oid : Oid) (v : Value) : Prop :=
  if announced = oid then Encodable oid v
  else if announced = .int2 then False
  else if announced = .char then (oid = .varchar ∨ oid = .text) ∧ ∃ s, v = .string s ∧ (utf8 s).length = 1
  else Textual codec oid v

theorem length_utf8 (s : Text) : (utf8 s).length = Text.size s := by
  simp [utf8, Text.size]

theorem ne_of_decodeUUIDText {text b} (decoded : decodeUUIDText text = some b)
    (length : b.length = 16) : utf8 text ≠ b := by
  intro hs
  have long : Text.size (text.filter (· ≠ '-')) = 32 := by
    by_contra other
    simp only [decodeUUIDText, if_neg other] at decoded
    cases decoded
  have le : Text.size (text.filter (· ≠ '-')) ≤ Text.size text := (filter_sublist.map _).sum_le_sum (by simp)
  rw [long, ← length_utf8, hs] at le
  omega

theorem encodeScalar_eq_text_iff (made : ProducedScalar codec.toCodec oid v) :
    codec.encodeScalar oid v = some (codec.formatValue v) ↔ Textual codec.toCodec oid v := by
  have plain (rendered : isRendered v)
      (own : oid ∉ [Oid.text, .varchar, .name, .timetz, .bytea, .uuid, .numeric, .json])
      (other : oid ∉ [Oid.timetz, .numeric, .date, .timestamp, .timestamptz]) :
      codec.encodeScalar oid v = some (codec.formatValue v) ↔ Textual codec.toCodec oid v := by
    simp only [mem_cons, not_mem_nil, or_false, not_or] at own
    obtain ⟨bytes, sent, binary⟩ := (sentScalar_iff made).mpr (encodableScalar_of_ne other)
    refine iff_of_false (fun hs => ?_) ?_
    · rw [sent, Option.some.injEq] at hs
      exact formatValue_ne rendered (by simp [isText, own]) own.2.2.2.2.2.2.2 binary hs.symm
    · simp [Textual, own]
  have timed {t : Time} {width : Nat} {n : Int} (isTime : v = .time t) (eight : width = 4 ∨ width = 8)
      (encoded : codec.encodeScalar oid v = some (bigEndian width n))
      (own : oid ∉ [Oid.text, .varchar, .timetz, .bytea, .uuid, .numeric, .json]) :
      codec.encodeScalar oid v = some (codec.formatValue v) ↔ Textual codec.toCodec oid v := by
    simp only [mem_cons, not_or] at own
    refine iff_of_false (fun hs => ?_) (by simp [Textual, own])
    rw [encoded, Option.some.injEq] at hs
    subst isTime
    have length := congrArg List.length hs
    rw [length_bigEndian] at length
    have times := @formatValue_time codec t
    omega
  have numbered {w : Value} {value : Int} {scale : Nat} (number : Codec.number w = some (value, (scale : Int)))
      (numberOf : NumberOf w value scale) :
      codec.encodeScalar .numeric w = some (codec.formatValue w) ↔ Textual codec.toCodec .numeric w := by
    have notInt : ∀ n, w ≠ .int .uint64 n := by
      rintro n rfl
      cases number
    refine iff_of_false (fun hs => ?_) (by simp +decide [Textual, notInt])
    rw [encodeScalar_number number, Option.some.injEq] at hs
    exact formatValue_ne_numeric numberOf (encodeNumber_numericBinary value scale) hs.symm
  cases made with
  | bool | tinyint | smallint | utinyint | usmallint | integer
  | uinteger | bigint => exact plain rfl (by decide) (by decide)
  | ubigint => exact iff_of_true rfl (by simp [Textual])
  | hugeint n => exact numbered rfl (.bigInt n)
  | decimal value scale => exact numbered (number_decimal (by omega)) (.decimal value scale)
  | flightDecimal value scale _ small => exact numbered (number_decimalToBigInt (by omega)) (.flight value scale small)
  | float | double => exact plain rfl (by decide) (by decide)
  | varchar | text | blob => exact iff_of_true rfl (by simp [Textual])
  | date => exact timed rfl (.inl rfl) rfl (by decide)
  | timestamp | timestamptz | time => exact timed rfl (.inr rfl) rfl (by decide)
  | timetz => exact iff_of_true rfl (by simp [Textual])
  | interval => exact plain rfl (by decide) (by decide)
  | uuid _ length => exact iff_of_true (if_pos length) (by simp [Textual])
  | uuidText s b decoded length =>
    refine iff_of_false (fun hs => ?_) (by simp +decide [Textual])
    have sent : codec.encodeScalar .uuid (.stringer s) = some b := decoded
    rw [sent, Option.some.injEq] at hs
    exact ne_of_decodeUUIDText decoded length hs.symm
  | json _ _ _ marshal =>
    rw [encodeScalar_json marshal]
    simp +decide [Textual, marshal]

theorem sentScalar_text_iff (text : isText announced) (made : ProducedScalar codec.toCodec oid v) :
    SentScalar codec.toCodec announced v (codec.encodeScalar oid v) ↔ Textual codec.toCodec oid v := by
  rw [← encodeScalar_eq_text_iff made]
  simp [SentScalar, ScalarBinary, text]

theorem sentScalar_char_iff (made : ProducedScalar codec.toCodec oid v) :
    SentScalar codec.toCodec .char v (codec.encodeScalar oid v) ↔
      (oid = .varchar ∨ oid = .text) ∧ ∃ s, v = .string s ∧ (utf8 s).length = 1 := by
  constructor
  · rintro ⟨bytes, sent, s, isString, rfl, single⟩
    refine ⟨?_, s, isString, single⟩
    cases made with
    | varchar => exact .inl rfl
    | text => exact .inr rfl
    | flightDecimal value scale =>
      rw [encodeScalar_number (number_decimalToBigInt (by omega)), Option.some.injEq] at sent
      have long := length_encodeNumber value scale
      rw [sent] at long
      omega
    | json _ _ _ marshal =>
      rw [encodeScalar_json marshal, Option.some.injEq] at sent
      subst isString
      have long := codec.two_le_marshal marshal
      rw [sent] at long
      omega
    | _ => cases isString
  · rintro ⟨own, s, rfl, single⟩
    have binary : ScalarBinary codec.toCodec .char (.string s) (utf8 s) := ⟨s, rfl, rfl, single⟩
    rcases own with rfl | rfl <;> exact ⟨_, rfl, binary⟩

theorem not_sentScalar_int2 (made : ProducedScalar codec.toCodec oid v) (other : oid ≠ .int2) :
    ¬ SentScalar codec.toCodec .int2 v (codec.encodeScalar oid v) := by
  rintro ⟨bytes, sent, kind, n, isInt, low, high, rfl⟩
  have wide {width : Nat} (encoded : codec.encodeScalar oid v = some (bigEndian width n)) (wider : 2 < width) :
      False := by
    rw [sent, Option.some.injEq] at encoded
    have length := congrArg List.length encoded
    simp only [length_bigEndian] at length
    omega
  have text (encoded : codec.encodeScalar oid v = some (codec.formatValue v)) : False := by
    subst isInt
    rw [encoded, Option.some.injEq] at sent
    have binary : ScalarBinary codec.toCodec .int2 (.int kind n) (bigEndian 2 n) := ⟨kind, n, rfl, low, high, rfl⟩
    exact formatValue_ne rfl (by decide) (by decide) binary sent
  cases made with
  | tinyint | smallint => exact other rfl
  | utinyint | usmallint | integer | uinteger | bigint =>
    cases isInt
    exact wide rfl (by decide)
  | ubigint | text => exact text rfl
  | flightDecimal value scale =>
    have number := @number_decimalToBigInt value scale (by omega)
    rw [isInt] at number
    cases number
  | json _ _ isJSON =>
    subst isInt
    cases isJSON
  | _ => cases isInt

theorem catalogColumnOid_mem {column} (hf : catalogColumnOid column = some announced) :
    announced ∈ [Oid.int2, .char, .text, .name] := by
  unfold catalogColumnOid at hf
  dsimp only at hf
  split at hf
  · cases hf
    decide
  split at hf
  · cases hf
    decide
  split at hf
  · cases hf
    decide
  · split at hf
    · cases hf
      decide
    · cases hf

theorem sent_announced_iff (announcement : announced = oid ∨ announced ∈ [Oid.int2, .char, .text, .name])
    (made : Produced codec.toCodec oid v) :
    Sent codec.toCodec announced v (codec.encodeBinary v oid) ↔ Agreeable codec.toCodec announced oid v := by
  unfold Agreeable
  by_cases own : announced = oid
  · rw [if_pos own, own]
    exact sent_iff made
  rw [if_neg own]
  replace announcement := announcement.resolve_left own
  unfold Produced at made
  cases array : Oid.element? oid with
  | none =>
    simp only [array] at made
    rw [encodeBinary_scalar array made.ne_null]
    simp only [mem_cons, not_mem_nil, or_false] at announcement
    rcases announcement with rfl | rfl | rfl | rfl
    · exact iff_of_false (not_sentScalar_int2 made (Ne.symm own)) (by simp)
    · exact sentScalar_char_iff made
    · exact sentScalar_text_iff (by decide) made
    · exact sentScalar_text_iff (by decide) made
  | some element =>
    simp only [array] at made
    obtain ⟨elements, rfl, -⟩ := made
    have notArray {scalar : Oid} (none : Oid.element? scalar = none) : oid ≠ scalar := by
      rintro rfl
      rw [none] at array
      cases array
    have notTextual : ¬ Textual codec.toCodec oid (.list elements) := by
      simp [Textual, notArray (show Oid.element? .text = none by decide),
        notArray (show Oid.element? .varchar = none by decide), notArray (show Oid.element? .timetz = none by decide),
        notArray (show Oid.element? .bytea = none by decide), notArray (show Oid.element? .json = none by decide)]
    have encoded : codec.encodeBinary (.list elements) oid =
        some (arrayHeader element elements ++ elements.flatMap (codec.encodeElement element)) := by
      simp [encodeBinary, array, encodeArray]
    have header (rest : Bytes) : (arrayHeader element elements ++ rest).head? = some 0 := rfl
    have notText (sent : codec.encodeBinary (.list elements) oid =
      some (codec.formatValue (.list elements))) : False := by
      rw [encoded, Option.some.injEq] at sent
      have first := header (elements.flatMap (codec.encodeElement element))
      rw [sent] at first
      cases first
    simp only [mem_cons, not_mem_nil, or_false] at announcement
    rcases announcement with rfl | rfl | rfl | rfl
    · refine iff_of_false ?_ (by simp)
      rintro ⟨bytes, -, kind, n, isInt, -⟩
      cases isInt
    · refine iff_of_false ?_ (by simp [Oid.int2])
      rintro ⟨bytes, -, s, isString, -⟩
      cases isString
    all_goals
      refine iff_of_false ?_ notTextual
      rintro ⟨bytes, sent, text⟩
      exact notText (sent.trans (congrArg some text))

def IsTextOf (codec : Codec) (v : Value) (bytes : Bytes) : Prop :=
  bytes = codec.formatValue v ∨ (∃ t, v = .time t ∧ bytes = codec.formatDate t) ∨ codec.marshal v = some bytes

def Announced (codec : Codec) (field : Field) (v : Value) (sent : Option Bytes) : Prop :=
  ∃ bytes, sent = some bytes ∧
    (field.format = 1 ∧ Binary codec field.oid v bytes ∨ field.format = 0 ∧ IsTextOf codec v bytes)

def RowAnnounced (codec : Codec) (fields : List Field) (values : List Value) (sent : List (Option Bytes)) : Prop :=
  ∀ (i : Nat) field v, fields[i]? = some field → values[i]? = some v → v ≠ .null →
    ∃ bytes, sent[i]? = some bytes ∧ Announced codec field v bytes

theorem isTextOf_encodeField {typeOID} : IsTextOf codec.toCodec v (codec.encodeField v typeOID) := by
  have json : IsTextOf codec.toCodec v (codec.encodeJSON v) := by
    unfold encodeJSON
    cases marshal : codec.marshal v with
    | none => exact .inl rfl
    | some bytes => exact .inr (.inr marshal)
  unfold encodeField
  split
  · split
    · exact json
    · split
      · split
        · split
          · exact .inl rfl
          · exact .inr (.inl ⟨_, rfl, rfl⟩)
        · exact .inl rfl
      · exact .inl rfl
  · exact .inl rfl

theorem dataRowField_of_ne {formats typeOIDs i} (nonnull : v ≠ .null)
    (typed : typeOIDs[i]? = some oid) : codec.dataRowField formats typeOIDs i v =
      if formatAt formats i = 1 then codec.encodeBinary v oid else some (codec.encodeField v oid) := by
  cases v with
  | null => exact absurd rfl nonnull
  | _ => simp [dataRowField, typed]

theorem announced_iff {formats typeOIDs i column typeName} (nonnull : v ≠ .null)
    (typed : typeOIDs[i]? = some (mapDuckDBType typeName).oid)
    (made : Produced codec.toCodec (mapDuckDBType typeName).oid v) :
    Announced codec.toCodec (fieldOf formats i column typeName) v (codec.dataRowField formats typeOIDs i v) ↔
      formatAt formats i = 0 ∨ formatAt formats i = 1 ∧
        Agreeable codec.toCodec (mapTypeOIDWithColumnName (displayName column) typeName)
          (mapDuckDBType typeName).oid v := by
  have announcement : mapTypeOIDWithColumnName (displayName column) typeName = (mapDuckDBType typeName).oid ∨
      mapTypeOIDWithColumnName (displayName column) typeName ∈ [Oid.int2, .char, .text, .name] := by
    unfold mapTypeOIDWithColumnName
    cases hf : catalogColumnOid (displayName column) with
    | none => exact .inl rfl
    | some announced => exact .inr (catalogColumnOid_mem hf)
  rw [← sent_announced_iff announcement made, dataRowField_of_ne nonnull typed]
  by_cases binary : formatAt formats i = 1
  · simp only [Announced, fieldOf, binary, Sent]
    simp
  simp only [Announced, fieldOf, binary]
  constructor
  · rintro ⟨bytes, -, ⟨isBinary, -⟩ | ⟨text, -⟩⟩
    · exact isBinary.elim
    · exact .inl text
  · rintro (text | ⟨isBinary, -⟩)
    · exact ⟨_, rfl, .inr ⟨text, isTextOf_encodeField⟩⟩
    · exact isBinary.elim

theorem row_announced_iff (codec : GoCodec) {columns columnTypes : List Text} {formats : List Int} {values : List Value}
    (produced : ∀ (i : Nat) typeName v, columnTypes[i]? = some typeName → values[i]? = some v → v ≠ .null →
      Produced codec.toCodec (mapDuckDBType typeName).oid v) :
    RowAnnounced codec.toCodec (rowDescriptionFields columns columnTypes formats) values
        (codec.dataRowFields values formats (typeOIDs columnTypes)) ↔
      ∀ (i : Nat) column typeName v, columns[i]? = some column → columnTypes[i]? = some typeName → values[i]? = some v →
        v ≠ .null → formatAt formats i = 0 ∨ formatAt formats i = 1 ∧
          Agreeable codec.toCodec (mapTypeOIDWithColumnName (displayName column) typeName)
            (mapDuckDBType typeName).oid v := by
  have sent {i : Nat} {v : Value} (value : values[i]? = some v) :
      (codec.dataRowFields values formats (typeOIDs columnTypes))[i]? =
        some (codec.dataRowField formats (typeOIDs columnTypes) i v) := by
    simp [Codec.dataRowFields, value]
  have typed {i : Nat} {typeName : Text} (isType : columnTypes[i]? = some typeName) :
      (typeOIDs columnTypes)[i]? = some (mapDuckDBType typeName).oid := by
    simp [typeOIDs, isType]
  constructor
  · intro announced i column typeName v isColumn isType value nonnull
    have described : (rowDescriptionFields columns columnTypes formats)[i]? =
      some (fieldOf formats i column typeName) := by
      simp [rowDescriptionFields, List.getElem?_zip_eq_some, isColumn, isType]
    obtain ⟨bytes, isSent, agrees⟩ := announced i _ v described value nonnull
    rw [sent value, Option.some.injEq] at isSent
    rw [← isSent] at agrees
    exact (announced_iff nonnull (typed isType) (produced i typeName v isType value nonnull)).mp agrees
  · intro agreeable i field v described value nonnull
    simp only [rowDescriptionFields, List.getElem?_mapIdx, Option.map_eq_some_iff] at described
    obtain ⟨⟨column, typeName⟩, pair, rfl⟩ := described
    obtain ⟨isColumn, isType⟩ := List.getElem?_zip_eq_some.mp pair
    exact ⟨_, sent value, (announced_iff nonnull (typed isType) (produced i typeName v isType value nonnull)).mpr
      (agreeable i column typeName v isColumn isType value nonnull)⟩

def plainCodec : Codec where
  format _ _ := List.replicate 19 63
  formatFloat32 _ := []
  formatFloat64 _ := []
  runes _ := []
  marshal _ := some [34, 34]
  parseDate _ := none
  parseTimestamp _ := none
  parseTime _ := none
  truncate32 _ _ := 0
  truncate64 _ _ := 0
  toFloat32 _ := 0
  toFloat64 _ := 0
  narrow _ := 0
  widen _ := 0

def plainGo : GoCodec where
  toCodec := plainCodec
  formatFloat32_ne := nofun
  formatFloat64_ne := nofun
  length_format _ := (by decide : 19 ≤ (List.replicate 19 63).length ∧ (List.replicate 19 63).length < 2 ^ 31)
  two_le_marshal marshal := by
    cases marshal
    decide

theorem row_announced_integer :
    (∀ (i : Nat) typeName v, ["INTEGER".toList][i]? = some typeName → [Value.int .int32 4][i]? = some v → v ≠ .null →
      Produced plainGo.toCodec (mapDuckDBType typeName).oid v) ∧
    RowAnnounced plainGo.toCodec (rowDescriptionFields ["id".toList] ["INTEGER".toList] [1]) [.int .int32 4]
      (plainGo.dataRowFields [.int .int32 4] [1] (typeOIDs ["INTEGER".toList])) := by
  have produced : ∀ (i : Nat) typeName v, ["INTEGER".toList][i]? = some typeName → [Value.int .int32 4][i]? = some v →
      v ≠ .null → Produced plainGo.toCodec (mapDuckDBType typeName).oid v := by
    rintro (_ | i) typeName v isType value -
    · cases isType
      cases value
      exact ProducedScalar.integer 4 (by decide) (by decide)
    · cases isType
  refine ⟨produced, (row_announced_iff plainGo produced).mpr ?_⟩
  rintro (_ | i) column typeName v isColumn isType value -
  · cases isColumn
    cases isType
    cases value
    exact .inr ⟨rfl, encodableScalar_of_ne (by decide)⟩
  · cases isType

theorem attlen_not_announced : ProducedScalar plainGo.toCodec (mapDuckDBType "INTEGER".toList).oid (.int .int32 4) ∧
    ¬ RowAnnounced plainGo.toCodec (rowDescriptionFields ["attlen".toList] ["INTEGER".toList] [1]) [.int .int32 4]
      (plainGo.dataRowFields [.int .int32 4] [1] (typeOIDs ["INTEGER".toList])) := by
  have isInt4 : (mapDuckDBType "INTEGER".toList).oid = .int4 := by decide
  refine ⟨isInt4 ▸ ProducedScalar.integer 4 (by decide) (by decide), fun announced => ?_⟩
  obtain ⟨sent, isSent, bytes, isBytes, agrees⟩ :=
    announced 0 (fieldOf [1] 0 "attlen".toList "INTEGER".toList) (.int .int32 4) rfl rfl (by simp)
  have fourBytes : sent = some (bigEndian 4 4) := by
    have field : (plainGo.dataRowFields [.int .int32 4] [1] (typeOIDs ["INTEGER".toList]))[0]? =
        some (plainGo.encodeBinary (.int .int32 4) (mapDuckDBType "INTEGER".toList).oid) := rfl
    rw [isSent, Option.some.injEq] at field
    exact field
  rw [fourBytes, Option.some.injEq] at isBytes
  rcases agrees with ⟨-, binary⟩ | ⟨text, -⟩
  · change Binary plainGo.toCodec
      (mapTypeOIDWithColumnName (displayName "attlen".toList) "INTEGER".toList) _ _ at binary
    rw [← isBytes] at binary
    obtain ⟨kind, n, -, -, -, hs⟩ := binary
    exact absurd (congrArg List.length hs) (by simp)
  · cases text

end Duckgres.Conn
