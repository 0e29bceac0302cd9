import Duckgres.Proof.Conn.Numeric

namespace Duckgres.Conn
open Base Duckgres.Execution Codec List

inductive NumberOf : Value → Int → Nat → Prop where
  | int (kind : IntKind) (n : Int) : NumberOf (.int kind n) n 0
  | bigInt (n : Int) : NumberOf (.bigInt n) n 0
  | decimal (value : Int) (scale : Nat) : NumberOf (.decimal value scale) value scale
  | flight (value : Int) (scale : Nat) : scale ≤ 38 → NumberOf (decimalToBigInt value scale) value scale

def IntegerBinary (width : Nat) (low high : Int) (v : Value) (bytes : Bytes) : Prop :=
  ∃ kind n, v = .int kind n ∧ low ≤ n ∧ n < high ∧ bytes = bigEndian width n

def isText (oid : Oid) : Prop := oid = .text ∨ oid = .varchar ∨ oid = .name

instance (oid : Oid) : Decidable (isText oid) := inferInstanceAs (Decidable (_ ∨ _))

def ScalarBinary (codec : Codec) (oid : Oid) (v : Value) (bytes : Bytes) : Prop :=
  if isText oid then bytes = codec.formatValue v
  else if oid = .char then ∃ s, v = .string s ∧ bytes = utf8 s ∧ bytes.length = 1
  else if oid = .bool then ∃ b, v = .bool b ∧ bytes = [if b then 1 else 0]
  else if oid = .int2 then IntegerBinary 2 (-2 ^ 15) (2 ^ 15) v bytes
  else if oid = .int4 then IntegerBinary 4 (-2 ^ 31) (2 ^ 31) v bytes
  else if oid = .oid then IntegerBinary 4 0 (2 ^ 32) v bytes
  else if oid = .int8 then IntegerBinary 8 (-2 ^ 63) (2 ^ 63) v bytes
  else if oid = .float4 then ∃ bits, v = .float32 bits ∧ bytes = bigEndian 4 bits.toNat
  else if oid = .float8 then ∃ bits, v = .float64 bits ∧ bytes = bigEndian 8 bits.toNat
  else if oid = .numeric then ∃ value scale, NumberOf v value scale ∧ NumericBinary value scale bytes
  else if oid = .date then ∃ t days, v = .time t ∧ t.unix = 86400 * (days + 10957) ∧ -2 ^ 31 ≤ days ∧ days < 2 ^ 31 ∧
    bytes = bigEndian 4 days
  else if oid = .timestamp ∨ oid = .timestamptz then ∃ t micros, v = .time t ∧
    t.unixMicro = micros + 946684800000000 ∧ -2 ^ 63 ≤ micros ∧ micros < 2 ^ 63 ∧ bytes = bigEndian 8 micros
  else if oid = .time then ∃ t, v = .time t ∧ bytes = bigEndian 8 t.clock
  else if oid = .timetz then ∃ t, v = .time t ∧ bytes = bigEndian 8 t.clock ++ bigEndian 4 (-t.offset)
  else if oid = .interval then ∃ months days micros, v = .interval months days micros ∧
    bytes = bigEndian 8 micros ++ bigEndian 4 days ++ bigEndian 4 months
  else if oid = .uuid then bytes.length = 16 ∧ (v = .bytes bytes ∨ ∃ s, v = .stringer s ∧ decodeUUIDText s = some bytes)
  else if oid = .bytea then v = .bytes bytes
  else if oid = .json then codec.marshal v = some bytes
  else False

def ElementBinary (codec : Codec) (oid : Oid) (v : Value) (field : Bytes) : Prop :=
  v = .null ∧ field = unframed ∨
    v ≠ .null ∧ ∃ data, ScalarBinary codec oid v data ∧ data.length < 2 ^ 31 ∧ field = framed data

def Binary (codec : Codec) (oid : Oid) (v : Value) (bytes : Bytes) : Prop :=
  match Oid.element? oid with
  | some element => ∃ elements fields, v = .list elements ∧
      List.Forall₂ (ElementBinary codec element) elements fields ∧
      bytes = arrayHeader element elements ++ fields.flatten
  | none => ScalarBinary codec oid v bytes

def isRendered : Value → Bool
  | .null | .bytes _ | .string _ | .stringer _ | .other _ => false
  | _ => true

/-- What holds of the texts that Go's library writes. -/
structure GoCodec extends Codec where
  formatFloat32_ne : ∀ bits, utf8 (formatFloat32 bits) ≠ bigEndian 4 bits.toNat
  formatFloat64_ne : ∀ bits, utf8 (formatFloat64 bits) ≠ bigEndian 8 bits.toNat
  length_format : ∀ t, 19 ≤ (format (timestampLayout t) t).length ∧ (format (timestampLayout t) t).length < 2 ^ 31
  two_le_marshal : ∀ {s bytes}, marshal (.string s) = some bytes → 2 ≤ bytes.length

def isJSON : Value → Bool
  | .bool _ | .float64 _ | .string _ | .list _ | .other _ => true
  | _ => false

/-- The value has a Go type that DuckDB produces, through its driver or through Flight, for the columns of a type that
is announced with this number. -/
inductive ProducedScalar (codec : Codec) : Oid → Value → Prop where
  | bool (b : Bool) : ProducedScalar codec .bool (.bool b)
  | tinyint (n : Int) : -2 ^ 7 ≤ n → n < 2 ^ 7 → ProducedScalar codec .int2 (.int .int8 n)
  | smallint (n : Int) : -2 ^ 15 ≤ n → n < 2 ^ 15 → ProducedScalar codec .int2 (.int .int16 n)
  | utinyint (n : Int) : 0 ≤ n → n < 2 ^ 8 → ProducedScalar codec .int4 (.int .uint8 n)
  | usmallint (n : Int) : 0 ≤ n → n < 2 ^ 16 → ProducedScalar codec .int4 (.int .uint16 n)
  | integer (n : Int) : -2 ^ 31 ≤ n → n < 2 ^ 31 → ProducedScalar codec .int4 (.int .int32 n)
  | uinteger (n : Int) : 0 ≤ n → n < 2 ^ 32 → ProducedScalar codec .oid (.int .uint32 n)
  | bigint (n : Int) : -2 ^ 63 ≤ n → n < 2 ^ 63 → ProducedScalar codec .int8 (.int .int64 n)
  | ubigint (n : Int) : 0 ≤ n → n < 2 ^ 64 → ProducedScalar codec .numeric (.int .uint64 n)
  | hugeint (n : Int) : -2 ^ 127 ≤ n → n < 2 ^ 127 → ProducedScalar codec .numeric (.bigInt n)
  | decimal (value : Int) (scale : Nat) : value.natAbs < 10 ^ 38 → scale ≤ 38 →
      ProducedScalar codec .numeric (.decimal value scale)
  | flightDecimal (value : Int) (scale : Nat) : value.natAbs < 10 ^ 38 → scale ≤ 38 →
      ProducedScalar codec .numeric (decimalToBigInt value scale)
  | float (bits : BitVec 32) : ProducedScalar codec .float4 (.float32 bits)
  | double (bits : BitVec 64) : ProducedScalar codec .float8 (.float64 bits)
  | varchar (s : Text) : (utf8 s).length < 2 ^ 31 → ProducedScalar codec .varchar (.string s)
  -- enumerations, structs, maps, unions, bit strings, the other timestamps and every other type that has no number
  | text (v : Value) : v ≠ .null → (codec.formatValue v).length < 2 ^ 31 → ProducedScalar codec .text v
  | blob (b : Bytes) : b.length < 2 ^ 31 → ProducedScalar codec .bytea (.bytes b)
  | date (t : Time) (day : Int) : t.unix = 86400 * day → -2 ^ 31 ≤ day → day < 2 ^ 31 →
      ProducedScalar codec .date (.time t)
  | timestamp (t : Time) : -2 ^ 63 ≤ t.unixMicro → t.unixMicro < 2 ^ 63 → ProducedScalar codec .timestamp (.time t)
  | timestamptz (t : Time) : -2 ^ 63 ≤ t.unixMicro → t.unixMicro < 2 ^ 63 → ProducedScalar codec .timestamptz (.time t)
  | time (t : Time) : ProducedScalar codec .time (.time t)
  | timetz (t : Time) : ProducedScalar codec .timetz (.time t)
  | interval (months days micros : Int) : ProducedScalar codec .interval (.interval months days micros)
  | uuid (b : Bytes) : b.length = 16 → ProducedScalar codec .uuid (.bytes b)
  | uuidText (s : Text) (b : Bytes) : decodeUUIDText s = some b → b.length = 16 →
      ProducedScalar codec .uuid (.stringer s)
  | json (v : Value) (bytes : Bytes) : isJSON v → codec.marshal v = some bytes → bytes.length < 2 ^ 31 →
      ProducedScalar codec .json v

def Produced (codec : Codec) (oid : Oid) (v : Value) : Prop :=
  match Oid.element? oid with
  | some element => ∃ elements, v = .list elements ∧ ∀ e ∈ elements, e = .null ∨ ProducedScalar codec element e
  | none => ProducedScalar codec oid v

section Texts

variable {low : Nat} {s : Text}

def Within (low : Nat) (s : Text) : Prop := ∀ c ∈ s, low ≤ c.toNat ∧ c.toNat < 128

instance : DecidablePred (Within low) := fun s => decidableBAll _ s

theorem Within.utf8_eq (within : Within low s) : utf8 s = s.map fun c => UInt8.ofNat c.toNat := by
  induction s with
  | nil => rfl
  | cons c s ih =>
    obtain ⟨first, rest⟩ := forall_mem_cons.mp within
    have encoded : String.utf8EncodeChar c = [UInt8.ofNat c.toNat] := by
      simp [String.utf8EncodeChar, Char.toNat_val, Nat.le_of_lt_succ first.2]
    rw [utf8, flatMap_cons, encoded]
    exact congrArg _ (ih rest)

theorem Within.byte (within : Within low s) {b} (hm : b ∈ utf8 s) : low ≤ b.toNat ∧ b.toNat < 128 := by
  rw [within.utf8_eq] at hm
  obtain ⟨c, hc, rfl⟩ := mem_map.mp hm
  have bounds := within c hc
  rw [UInt8.toNat_ofNat']
  omega

theorem within_of_isDigit (digits : ∀ c ∈ s, c.isDigit = true) (small : low ≤ 48) : Within low s := by
  intro c hm
  have bounds : '0'.val ≤ c.val ∧ c.val ≤ '9'.val := by simpa [Char.isDigit] using digits c hm
  have least : 48 ≤ c.val.toNat := UInt32.le_iff_toNat_le.mp bounds.1
  have greatest : c.val.toNat ≤ 57 := UInt32.le_iff_toNat_le.mp bounds.2
  change low ≤ c.val.toNat ∧ c.val.toNat < 128
  omega

theorem within_sign {negative : Prop} [Decidable negative] (small : low ≤ 45) :
    Within low (if negative then ['-'] else []) := by
  split
  · exact forall_mem_singleton.mpr ⟨small, by decide⟩
  · exact forall_mem_nil _

theorem within_bigIntString (small : low ≤ 45) (n : Int) : Within low (bigIntString n) :=
  forall_mem_append.mpr ⟨within_sign small, within_of_isDigit (fun _ => isDigit_toDigits) (by omega)⟩

theorem within_decimalText (v : Int) (scale : Nat) : Within 45 (decimalText v scale) := by
  rw [decimalText_eq]
  have digits {s} (part : s ⊆ padZeros scale (Nat.toDigits 10 v.natAbs)) : Within 45 s :=
    within_of_isDigit (fun c hm => isDigit_padZeros c (part hm)) (by decide)
  refine forall_mem_append.mpr ⟨within_sign (by decide), forall_mem_append.mpr ⟨forall_mem_append.mpr ⟨?_, ?_⟩, ?_⟩⟩
  · exact digits (take_subset _ _)
  · exact forall_mem_singleton.mpr (by decide)
  · exact digits (drop_subset _ _)

theorem NumberOf.text {v value scale} (numberOf : NumberOf v value scale) (codec : Codec) :
    ∃ s, codec.formatValue v = utf8 s ∧ Within 45 s := by
  cases numberOf with
  | int | bigInt => exact ⟨_, rfl, within_bigIntString (by decide) value⟩
  | decimal =>
    refine ⟨_, rfl, ?_⟩
    rcases Nat.eq_zero_or_pos scale with rfl | positive
    · exact within_bigIntString (by decide) value
    · exact decimalString_eq positive value ▸ within_decimalText value scale
  | flight =>
    unfold decimalToBigInt
    split
    · exact ⟨_, rfl, within_bigIntString (by decide) value⟩
    · exact ⟨_, rfl, within_decimalText value scale⟩

theorem NumericBinary.exists_small {value scale bytes} (binary : NumericBinary value scale bytes) :
    ∃ b ∈ bytes, b.toNat < 45 := by
  obtain ⟨digits, weight, small, -, -, -, -, rfl⟩ := binary
  cases digits with
  | nil => exact ⟨0, by simp [bigEndian], by decide⟩
  | cons digit digits =>
    have bound := small digit mem_cons_self
    refine ⟨UInt8.ofNat ((digit : Int) / 256 ^ 1 % 256).toNat, by simp [bigEndian], ?_⟩
    rw [UInt8.toNat_ofNat']
    omega

theorem formatValue_ne_numeric {codec : Codec} {v value scale bytes} (numberOf : NumberOf v value scale)
    (binary : NumericBinary value scale bytes) : codec.formatValue v ≠ bytes := by
  obtain ⟨s, text, within⟩ := numberOf.text codec
  obtain ⟨b, hm, small⟩ := binary.exists_small
  rintro rfl
  rw [text] at hm
  have large := (within.byte hm).1
  omega

-- as many digits as bytes are few enough for the first byte to be the sign alone
theorem bigIntString_ne {width : Nat} (n : Int) (few : 10 ^ (width + 1) ≤ 256 ^ width) :
    utf8 (bigIntString n) ≠ bigEndian (width + 1) n := by
  have within := within_bigIntString (Nat.le_refl 45) n
  intro hs
  have length := congrArg List.length hs
  rw [within.utf8_eq, length_map, length_bigEndian, bigIntString, length_append] at length
  have small : n.natAbs < 10 ^ (width + 1) := (Nat.length_toDigits_le_iff (by decide) (by omega)).mp (by omega)
  have first := within.byte (hs.symm ▸ mem_cons_self : UInt8.ofNat (n / 256 ^ width % 256).toNat ∈ _)
  have sign : n / 256 ^ width = 0 ∨ n / 256 ^ width = -1 := by
    have power : (256 : Int) ^ width = ((256 ^ width : Nat) : Int) := by push_cast; rfl
    rcases Int.lt_or_le n 0 with negative | nonneg
    · right
      rw [power]
      exact Int.ediv_eq_neg_one_of_neg_of_le negative (by omega)
    · left
      exact Int.ediv_eq_zero_of_lt nonneg (by omega)
  rcases sign with sign | sign
  · rw [sign] at first
    exact absurd first (by decide)
  · rw [sign] at first
    exact absurd first (by decide)

theorem length_zeroPadded {width : Nat} {n : Int} : width ≤ (zeroPadded width n).length := by
  simp only [zeroPadded, length_append, length_replicate]
  omega

theorem within_zeroPadded {width : Nat} {n : Int} : Within 1 (zeroPadded width n) := by
  have digits : Within 1 (Nat.toDigits 10 n.natAbs) := within_of_isDigit (fun _ => isDigit_toDigits) (by decide)
  refine forall_mem_append.mpr ⟨forall_mem_append.mpr ⟨within_sign (by decide), fun c hm => ?_⟩, digits⟩
  rw [(mem_replicate.mp hm).2]
  decide

theorem timePart_spec (micros : Int) : 8 ≤ (timePart micros).length ∧ Within 1 (timePart micros) := by
  unfold timePart
  extract_lets all inHour inMinute rem clock
  have colon {s : Text} (within : Within 1 s) : Within 1 (':' :: s) := forall_mem_cons.mpr ⟨by decide, within⟩
  have spec : 8 ≤ clock.length ∧ Within 1 clock := by
    constructor
    · have hour := @length_zeroPadded 2 (all.tdiv 3600000000)
      have minute := @length_zeroPadded 2 (inHour.tdiv 60000000)
      have second := @length_zeroPadded 2 (inMinute.tdiv 1000000)
      simp only [clock, length_append, length_cons]
      omega
    · refine forall_mem_append.mpr ⟨forall_mem_append.mpr ⟨forall_mem_append.mpr ⟨?_, ?_⟩, ?_⟩, ?_⟩
      · exact within_zeroPadded
      · exact colon within_zeroPadded
      · exact colon within_zeroPadded
      · split
        · exact forall_mem_cons.mpr ⟨by decide, within_zeroPadded⟩
        · exact forall_mem_nil _
  split
  · exact ⟨Nat.le_succ_of_le spec.1, forall_mem_cons.mpr ⟨by decide, spec.2⟩⟩
  · exact spec

theorem counted_spec (n : Int) {unit} (word : Within 1 unit ∧ 3 ≤ unit.length) :
    5 ≤ (counted n unit).length ∧ Within 1 (counted n unit) := by
  constructor
  · have digits := @Nat.length_toDigits_pos 10 n.natAbs
    simp only [counted, bigIntString, length_append, length_cons]
    omega
  · refine forall_mem_append.mpr ⟨forall_mem_append.mpr ⟨within_bigIntString (by decide) n, ?_⟩, ?_⟩
    · exact forall_mem_cons.mpr ⟨by decide, word.1⟩
    · split
      · exact forall_mem_nil _
      · exact forall_mem_singleton.mpr (by decide)

theorem intercalate_spec {sep} {parts} (space : Within low sep) (words : ∀ s ∈ parts, Within low s) :
    (parts.map List.length).sum ≤ (sep.intercalate parts).length ∧ Within low (sep.intercalate parts) := by
  induction parts with
  | nil => exact ⟨Nat.le_refl _, forall_mem_nil _⟩
  | cons part parts ih =>
    obtain ⟨first, rest⟩ := forall_mem_cons.mp words
    cases parts with
    | nil => simpa using first
    | cons next parts =>
      obtain ⟨length, within⟩ := ih rest
      rw [intercalate_cons_cons, map_cons, sum_cons, length_append, length_append]
      exact ⟨by omega, forall_mem_append.mpr ⟨forall_mem_append.mpr ⟨first, space⟩, within⟩⟩

theorem formatInterval_ne (months days micros : Int) :
    utf8 (formatInterval months days micros) ≠ bigEndian 8 micros ++ bigEndian 4 days ++ bigEndian 4 months := by
  unfold formatInterval
  extract_lets years remMonths parts
  have year := @counted_spec years "year".toList (by decide)
  have month := @counted_spec remMonths "mon".toList (by decide)
  have day := @counted_spec days "day".toList (by decide)
  have time := timePart_spec micros
  have optional {s : Text} (within : Within 1 s) (given : Prop) [Decidable given] :
      ∀ part ∈ if given then [s] else [], Within 1 part := by
    split
    · exact forall_mem_singleton.mpr within
    · exact forall_mem_nil _
  have words : ∀ part ∈ if micros ≠ 0 ∨ parts = [] then parts ++ [timePart micros] else parts, Within 1 part := by
    have dated : ∀ part ∈ parts, Within 1 part := forall_mem_append.mpr
      ⟨forall_mem_append.mpr ⟨optional year.2 _, optional month.2 _⟩, optional day.2 _⟩
    split
    · exact forall_mem_append.mpr ⟨dated, forall_mem_singleton.mpr time.2⟩
    · exact dated
  obtain ⟨words_le, within⟩ := intercalate_spec (by decide : Within 1 " ".toList) words
  intro hs
  have nonzero (hm : 0 ∈ bigEndian 8 micros ++ bigEndian 4 days ++ bigEndian 4 months) : False := by
    rw [← hs] at hm
    exact absurd (within.byte hm).1 (by decide)
  have length := congrArg List.length hs
  rw [within.utf8_eq] at length
  simp only [length_map, length_append, length_bigEndian] at length
  -- none of the three is 0, for a text has no such byte; but then it is longer
  have someMicros : micros ≠ 0 := fun zero => nonzero (by simp [zero, bigEndian])
  have someDays : days ≠ 0 := fun zero => nonzero (by simp [zero, bigEndian])
  have someMonths : months ≠ 0 := fun zero => nonzero (by simp [zero, bigEndian])
  have long : 18 ≤ ((parts ++ [timePart micros]).map List.length).sum := by
    simp only [parts, map_append, sum_append, if_pos someDays, map_singleton, sum_singleton]
    by_cases noYears : years = 0
    · have inMonths := Int.mul_tdiv_add_tmod months 12
      rw [if_pos (by omega : remMonths ≠ 0), map_singleton, sum_singleton]
      omega
    · rw [if_pos noYears, map_singleton, sum_singleton]
      omega
  rw [if_pos (.inl someMicros)] at words_le length
  omega

end Texts

structure EncodableScalar (oid : Oid) (v : Value) : Prop where
  notTimetz : oid ≠ .timetz
  notUbigint : oid = .numeric → ∀ n, v ≠ .int .uint64 n
  dateFits : oid = .date → ∀ t, v = .time t → -2 ^ 31 + 10957 ≤ t.unix / 86400
  timestampFits : oid = .timestamp ∨ oid = .timestamptz → ∀ t, v = .time t → -2 ^ 63 + 946684800000000 ≤ t.unixMicro

theorem encodableScalar_of_ne {oid v}
    (plain : oid ∉ [Oid.timetz, .numeric, .date, .timestamp, .timestamptz]) : EncodableScalar oid v := by
  simp only [mem_cons, not_mem_nil, or_false, not_or] at plain
  exact ⟨plain.1, fun h => absurd h plain.2.1, fun h => absurd h plain.2.2.1,
    fun h => absurd h (not_or.mpr ⟨plain.2.2.2.1, plain.2.2.2.2⟩)⟩

variable {codec : GoCodec} {oid : Oid} {v : Value}

def Sent (codec : Codec) (oid : Oid) (v : Value) (field : Option Bytes) : Prop :=
  ∃ bytes, field = some bytes ∧ Binary codec oid v bytes

def SentScalar (codec : Codec) (oid : Oid) (v : Value) (field : Option Bytes) : Prop :=
  ∃ bytes, field = some bytes ∧ ScalarBinary codec oid v bytes

theorem encodeScalar_json {bytes} (marshal : codec.marshal v = some bytes) :
    codec.encodeScalar .json v = some bytes := by
  change some (codec.encodeJSON v) = _
  rw [encodeJSON, marshal]
  rfl

theorem encodeScalar_number {value scale} (number : Codec.number v = some (value, scale)) :
    codec.encodeScalar .numeric v = some (encodeNumber value scale) := by
  change some (codec.encodeNumeric v) = _
  rw [encodeNumeric, number]

theorem sentScalar_number {value : Int} {scale : Nat} (number : Codec.number v = some (value, (scale : Int)))
    (numberOf : NumberOf v value scale) :
    SentScalar codec.toCodec .numeric v (codec.encodeScalar .numeric v) := by
  exact ⟨_, encodeScalar_number number, value, scale, numberOf, encodeNumber_numericBinary value scale⟩

theorem encodable_number (other : ∀ n, v ≠ .int .uint64 n) : EncodableScalar .numeric v :=
  ⟨by decide, fun _ => other, fun h => absurd h (by decide), fun h => absurd h (by decide)⟩

theorem formatValue_time (t : Time) : (codec.formatValue (.time t)).length = 0 ∨
    19 ≤ (codec.formatValue (.time t)).length ∧ (codec.formatValue (.time t)).length < 2 ^ 31 := by
  rw [formatValue]
  split
  · exact .inl rfl
  · exact .inr (codec.length_format t)

theorem formatValue_ne {bytes} (rendered : isRendered v) (notText : ¬ isText oid) (notJSON : oid ≠ .json)
    (binary : ScalarBinary codec.toCodec oid v bytes) : codec.formatValue v ≠ bytes := by
  have integer {width : Nat} {low high : Int} (few : 10 ^ (width + 1) ≤ 256 ^ width)
      (binary : IntegerBinary (width + 1) low high v bytes) : codec.formatValue v ≠ bytes := by
    obtain ⟨kind, n, rfl, -, -, rfl⟩ := binary
    exact bigIntString_ne n few
  have timed {t : Time} (isTime : v = .time t) (short : bytes.length = 4 ∨ bytes.length = 8 ∨ bytes.length = 12) :
      codec.formatValue v ≠ bytes := by
    rintro rfl
    subst isTime
    have length := @formatValue_time codec t
    omega
  rw [ScalarBinary, if_neg notText] at binary
  rcases ite_prop_iff_or.mp binary with ⟨-, s, rfl, -⟩ | ⟨-, binary⟩
  · cases rendered
  rcases ite_prop_iff_or.mp binary with ⟨-, b, rfl, rfl⟩ | ⟨-, binary⟩
  · cases b with
    | false => exact (by decide : utf8 ['f'] ≠ [0])
    | true => exact (by decide : utf8 ['t'] ≠ [1])
  iterate 4
    rcases ite_prop_iff_or.mp binary with ⟨-, binary⟩ | ⟨-, binary⟩
    · exact integer (by decide) binary
  rcases ite_prop_iff_or.mp binary with ⟨-, bits, rfl, rfl⟩ | ⟨-, binary⟩
  · exact codec.formatFloat32_ne bits
  rcases ite_prop_iff_or.mp binary with ⟨-, bits, rfl, rfl⟩ | ⟨-, binary⟩
  · exact codec.formatFloat64_ne bits
  rcases ite_prop_iff_or.mp binary with ⟨-, value, scale, numberOf, numeric⟩ | ⟨-, binary⟩
  · exact formatValue_ne_numeric numberOf numeric
  rcases ite_prop_iff_or.mp binary with ⟨-, t, days, isTime, -, -, -, rfl⟩ | ⟨-, binary⟩
  · exact timed isTime (by simp)
  rcases ite_prop_iff_or.mp binary with ⟨-, t, micros, isTime, -, -, -, rfl⟩ | ⟨-, binary⟩
  · exact timed isTime (by simp)
  iterate 2
    rcases ite_prop_iff_or.mp binary with ⟨-, t, isTime, rfl⟩ | ⟨-, binary⟩
    · exact timed isTime (by simp)
  rcases ite_prop_iff_or.mp binary with ⟨-, months, days, micros, rfl, rfl⟩ | ⟨-, binary⟩
  · exact formatInterval_ne months days micros
  rcases ite_prop_iff_or.mp binary with ⟨-, -, rfl | ⟨s, rfl, -⟩⟩ | ⟨-, binary⟩
  · cases rendered
  · cases rendered
  rcases ite_prop_iff_or.mp binary with ⟨-, rfl⟩ | ⟨-, binary⟩
  · cases rendered
  rw [if_neg notJSON] at binary
  exact binary.elim

theorem not_sentScalar_text (rendered : isRendered v) (notText : ¬ isText oid) (notJSON : oid ≠ .json)
    (field : codec.encodeScalar oid v = some (codec.formatValue v)) :
    ¬ SentScalar codec.toCodec oid v (codec.encodeScalar oid v) := by
  rintro ⟨bytes, sent, binary⟩
  rw [field, Option.some.injEq] at sent
  exact formatValue_ne rendered notText notJSON binary sent

theorem sentScalar_timestamp {t} (oid_eq : oid = .timestamp ∨ oid = .timestamptz) (high : t.unixMicro < 2 ^ 63) :
    SentScalar codec.toCodec oid (.time t) (codec.encodeScalar oid (.time t)) ↔ EncodableScalar oid (.time t) := by
  have spec (bytes : Bytes) : ScalarBinary codec.toCodec oid (.time t) bytes ↔ ∃ t' micros, Value.time t = .time t' ∧
      t'.unixMicro = micros + 946684800000000 ∧ -2 ^ 63 ≤ micros ∧ micros < 2 ^ 63 ∧ bytes = bigEndian 8 micros := by
    rcases oid_eq with rfl | rfl <;> exact Iff.rfl
  have encoded : codec.encodeScalar oid (.time t) = some (bigEndian 8 (t.unixMicro - pgEpochMicros)) := by
    rcases oid_eq with rfl | rfl <;> rfl
  have epoch : pgEpochMicros = 946684800000000 := by decide
  rw [encoded]
  constructor
  · rintro ⟨bytes, -, binary⟩
    obtain ⟨t', micros, hs, isMicros, low, -⟩ := (spec bytes).mp binary
    cases hs
    refine ⟨?_, ?_, ?_, fun _ s isTime => ?_⟩
    · rcases oid_eq with rfl | rfl <;> decide
    · rcases oid_eq with rfl | rfl <;> exact fun h => absurd h (by decide)
    · rcases oid_eq with rfl | rfl <;> exact fun h => absurd h (by decide)
    · cases isTime
      omega
  · intro encodable
    have fits := encodable.timestampFits oid_eq t rfl
    exact ⟨_, rfl, (spec _).mpr ⟨t, _, rfl, by omega, by omega, by omega, rfl⟩⟩

theorem sentScalar_date {t day} (midnight : t.unix = 86400 * day) (high : day < 2 ^ 31) :
    SentScalar codec.toCodec .date (.time t) (codec.encodeScalar .date (.time t)) ↔
      EncodableScalar .date (.time t) := by
  have encoded : codec.encodeScalar .date (.time t) = some (bigEndian 4 (day - 10957)) := by
    change some (bigEndian 4 (t.unix.tdiv 86400 - pgEpochDays)) = _
    rw [midnight, Int.mul_tdiv_cancel_left _ (by decide)]
    rfl
  rw [encoded]
  constructor
  · rintro ⟨bytes, -, t', days, hs, isDays, low, -⟩
    cases hs
    refine ⟨by decide, fun h => absurd h (by decide), fun _ s isTime => ?_, fun h => absurd h (by decide)⟩
    cases isTime
    omega
  · intro encodable
    have fits := encodable.dateFits rfl t rfl
    have binary : ScalarBinary codec.toCodec .date (.time t) (bigEndian 4 (day - 10957)) :=
      ⟨t, day - 10957, rfl, by omega, by omega, by omega, rfl⟩
    exact ⟨_, rfl, binary⟩

theorem sentScalar_iff (made : ProducedScalar codec.toCodec oid v) :
    SentScalar codec.toCodec oid v (codec.encodeScalar oid v) ↔ EncodableScalar oid v := by
  have plain {bytes : Bytes} (sent : codec.encodeScalar oid v = some bytes)
      (binary : ScalarBinary codec.toCodec oid v bytes)
      (other : oid ∉ [Oid.timetz, .numeric, .date, .timestamp, .timestamptz]) :
      SentScalar codec.toCodec oid v (codec.encodeScalar oid v) ↔ EncodableScalar oid v :=
    iff_of_true ⟨bytes, sent, binary⟩ (encodableScalar_of_ne other)
  cases made with
  | bool b => exact plain rfl ⟨b, rfl, rfl⟩ (by decide)
  | tinyint n => exact plain rfl ⟨_, n, rfl, by omega, by omega, rfl⟩ (by decide)
  | smallint n low high => exact plain rfl ⟨_, n, rfl, low, high, rfl⟩ (by decide)
  | utinyint n | usmallint n => exact plain rfl ⟨_, n, rfl, by omega, by omega, rfl⟩ (by decide)
  | integer n low high | uinteger n low high
  | bigint n low high => exact plain rfl ⟨_, n, rfl, low, high, rfl⟩ (by decide)
  | ubigint n =>
    refine iff_of_false (not_sentScalar_text rfl (by decide) (by decide) rfl) fun encodable => ?_
    exact encodable.notUbigint rfl n rfl
  | hugeint n => exact iff_of_true (sentScalar_number rfl (.bigInt n)) (encodable_number (by simp))
  | decimal value scale =>
    exact iff_of_true (sentScalar_number (number_decimal (by omega)) (.decimal value scale))
      (encodable_number (by simp))
  | flightDecimal value scale _ small =>
    have number := @number_decimalToBigInt value scale (by omega)
    refine iff_of_true (sentScalar_number number (.flight value scale small)) (encodable_number fun n hs => ?_)
    rw [hs] at number
    cases number
  | float bits | double bits => exact plain rfl ⟨bits, rfl, rfl⟩ (by decide)
  | varchar | text | blob => exact plain rfl rfl (by decide)
  | date _ _ midnight _ high => exact sentScalar_date midnight high
  | timestamp _ _ high => exact sentScalar_timestamp (.inl rfl) high
  | timestamptz _ _ high => exact sentScalar_timestamp (.inr rfl) high
  | time t => exact plain rfl ⟨t, rfl, rfl⟩ (by decide)
  | timetz =>
    refine iff_of_false (not_sentScalar_text rfl (by decide) (by decide) rfl) fun encodable => ?_
    exact encodable.notTimetz rfl
  | interval months days micros => exact plain rfl ⟨months, days, micros, rfl, rfl⟩ (by decide)
  | uuid b length =>
    have encoded : codec.encodeScalar .uuid (.bytes b) = some b := if_pos length
    exact plain encoded ⟨length, .inl rfl⟩ (by decide)
  | uuidText s _ decoded length => exact plain decoded ⟨length, .inr ⟨s, rfl, decoded⟩⟩ (by decide)
  | json _ _ _ marshal => exact plain (encodeScalar_json marshal) marshal (by decide)

theorem ProducedScalar.ne_null (made : ProducedScalar codec.toCodec oid v) : v ≠ .null := by
  cases made with
  | text _ nonnull => exact nonnull
  | json _ _ json =>
    rintro rfl
    cases json
  | flightDecimal =>
    unfold decimalToBigInt
    split <;> simp
  | _ => simp

theorem short_encodeNumber {value : Int} {scale : Nat} (bound : value.natAbs < 10 ^ 39) (small : scale ≤ 38) :
    (encodeNumber value scale).length < 2 ^ 31 := by
  have length := length_encodeNumber value scale
  have few := @length_groups_le value.natAbs scale 40 (by omega) (by omega)
  omega

theorem short_encodeScalar (made : ProducedScalar codec.toCodec oid v) {data}
    (encoded : codec.encodeScalar oid v = some data) : data.length < 2 ^ 31 := by
  have fixed {bytes : Bytes} (sent : codec.encodeScalar oid v = some bytes) (short : bytes.length < 2 ^ 31) :
      data.length < 2 ^ 31 := by
    rw [sent, Option.some.injEq] at encoded
    rwa [← encoded]
  have wide {width : Nat} {n : Int} (small : width ≤ 8) : (bigEndian width n).length < 2 ^ 31 := by
    rw [length_bigEndian]
    omega
  cases made with
  | bool =>
    refine fixed rfl ?_
    change 1 < 2 ^ 31
    decide
  | tinyint | smallint | utinyint | usmallint | integer | uinteger | bigint => exact fixed rfl (wide (by decide))
  | ubigint n low high =>
    refine fixed rfl (?_ : (utf8 (bigIntString n)).length < 2 ^ 31)
    have digits : (Nat.toDigits 10 n.natAbs).length ≤ 20 :=
      (Nat.length_toDigits_le_iff (by decide) (by decide)).mpr (by omega)
    rw [(within_bigIntString (by decide : 0 ≤ 45) n).utf8_eq, length_map, bigIntString, if_neg (by omega), nil_append]
    omega
  | hugeint n => exact fixed (encodeScalar_number rfl) (@short_encodeNumber n 0 (by omega) (by omega))
  | decimal _ _ _ small =>
    exact fixed (encodeScalar_number (number_decimal (by omega))) (short_encodeNumber (by omega) small)
  | flightDecimal _ _ _ small =>
    exact fixed (encodeScalar_number (number_decimalToBigInt (by omega))) (short_encodeNumber (by omega) small)
  | float | double => exact fixed rfl (wide (by decide))
  | varchar _ short | text _ _ short | blob _ short => exact fixed rfl short
  | date | timestamp | timestamptz | time => exact fixed rfl (wide (by decide))
  | timetz t =>
    have length := @formatValue_time codec t
    exact fixed rfl (by omega : (codec.formatValue (.time t)).length < 2 ^ 31)
  | interval =>
    refine fixed rfl ?_
    simp only [length_append, length_bigEndian]
    decide
  | uuid _ length => exact fixed (if_pos length) (by omega)
  | uuidText _ _ decoded => exact fixed decoded (by omega)
  | json _ _ _ marshal short => exact fixed (encodeScalar_json marshal) short

def Encodable (oid : Oid) (v : Value) : Prop :=
  match Oid.element? oid with
  | some element => ∀ elements, v = .list elements → ∀ e ∈ elements, e ≠ .null → EncodableScalar element e
  | none => EncodableScalar oid v

variable {element : Oid}

theorem encodeElement_of_ne {e} (nonnull : e ≠ .null) :
    codec.encodeElement element e = match codec.encodeScalar element e with
      | some data => framed data
      | none => unframed := by
  cases e with
  | null => exact absurd rfl nonnull
  | _ => rfl

theorem isFrame_encodeElement {e}
    (made : e = .null ∨ ProducedScalar codec.toCodec element e) : IsFrame (codec.encodeElement element e) := by
  rcases made with rfl | made
  · exact .inl rfl
  · rw [encodeElement_of_ne made.ne_null]
    cases encoded : codec.encodeScalar element e with
    | none => exact .inl rfl
    | some data => exact .inr ⟨data, short_encodeScalar made encoded, rfl⟩

theorem isFrame_of_forall₂ {elements fields}
    (binary : List.Forall₂ (ElementBinary codec.toCodec element) elements fields) :
    ∀ field ∈ fields, IsFrame field := by
  induction binary with
  | nil => simp
  | cons first rest ih =>
    intro field mem
    rcases mem_cons.mp mem with rfl | later
    · rcases first with ⟨-, rfl⟩ | ⟨-, data, -, short, rfl⟩
      · exact .inl rfl
      · exact .inr ⟨data, short, rfl⟩
    · exact ih field later

theorem elementBinary_iff {e} (made : e = .null ∨ ProducedScalar codec.toCodec element e) :
    ElementBinary codec.toCodec element e (codec.encodeElement element e) ↔
      (e ≠ .null → EncodableScalar element e) := by
  rcases made with rfl | made
  · exact iff_of_true (.inl ⟨rfl, rfl⟩) fun nonnull => absurd rfl nonnull
  have nonnull := made.ne_null
  rw [← sentScalar_iff made, encodeElement_of_ne nonnull]
  constructor
  · rintro (⟨isNull, -⟩ | ⟨-, data, binary, short, hs⟩) _
    · exact absurd isNull nonnull
    · cases encoded : codec.encodeScalar element e with
      | none =>
        rw [encoded] at hs
        exact absurd hs.symm (framed_ne_unframed short)
      | some sent =>
        rw [encoded] at hs
        rw [framed_injective hs]
        exact ⟨data, rfl, binary⟩
  · intro sent
    obtain ⟨data, encoded, binary⟩ := sent nonnull
    rw [encoded]
    exact .inr ⟨nonnull, data, binary, short_encodeScalar made encoded, rfl⟩

theorem encodeBinary_scalar (scalar : Oid.element? oid = none) (nonnull : v ≠ .null) :
    codec.encodeBinary v oid = codec.encodeScalar oid v := by
  cases v with
  | null => exact absurd rfl nonnull
  | _ => simp [encodeBinary, scalar]

theorem sent_iff (made : Produced codec.toCodec oid v) :
    Sent codec.toCodec oid v (codec.encodeBinary v oid) ↔ Encodable oid v := by
  unfold Produced at made
  unfold Sent Binary Encodable
  cases array : Oid.element? oid with
  | none =>
    simp only [array] at made ⊢
    rw [encodeBinary_scalar array made.ne_null]
    exact sentScalar_iff made
  | some element =>
    simp only [array] at made ⊢
    obtain ⟨elements, rfl, made⟩ := made
    have encoded : codec.encodeBinary (.list elements) oid =
        some (arrayHeader element elements ++ (elements.map (codec.encodeElement element)).flatten) := by
      simp [encodeBinary, array, encodeArray, flatMap_def]
    rw [encoded]
    constructor
    · rintro ⟨bytes, sent, elements', fields, hs, binary, isBytes⟩ others isList e mem
      cases hs
      cases isList
      rw [isBytes, Option.some.injEq] at sent
      have frames : ∀ field ∈ elements.map (codec.encodeElement element), IsFrame field := by
        intro field isField
        obtain ⟨e, isElement, rfl⟩ := mem_map.mp isField
        exact isFrame_encodeElement (made e isElement)
      have fields_eq := frames_eq frames (isFrame_of_forall₂ binary) (by rw [length_map, binary.length_eq])
        (append_cancel_left sent)
      rw [← fields_eq, forall₂_map_right_iff, forall₂_same] at binary
      exact (elementBinary_iff (made e mem)).mp (binary e mem)
    · intro encodable
      refine ⟨_, rfl, elements, _, rfl, ?_, rfl⟩
      rw [forall₂_map_right_iff, forall₂_same]
      intro e mem
      exact (elementBinary_iff (made e mem)).mpr (encodable elements rfl e mem)

end Duckgres.Conn
