import Mathlib.Data.Nat.Digits.Defs
import Duckgres.Base.BigEndian
import Duckgres.Conn.Types

/-!
# Encoders and decoders

The fields of a DataRow, in the text and the binary format, and binary parameters, of which a short one is an error,
here `none` (server/types.go, server/conn.go).
-/

namespace Duckgres.Conn
open Base Execution

structure Codec where
  format : (layout : Text) → Time → Bytes
  -- the text of `%g`
  formatFloat32 : BitVec 32 → Text
  formatFloat64 : BitVec 64 → Text
  -- what a range over the string gives
  runes : Bytes → Text
  marshal : Value → Option Bytes
  parseDate : Text → Option Time
  parseTimestamp : Text → Option Time
  parseTime : Text → Option Time
  -- Go's conversions between its integers, of so many bytes, and its floats
  truncate32 : Nat → BitVec 32 → Int
  truncate64 : Nat → BitVec 64 → Int
  toFloat32 : Int → BitVec 32
  toFloat64 : Int → BitVec 64
  narrow : BitVec 64 → BitVec 32
  widen : BitVec 32 → BitVec 64

namespace Time

def isZero (t : Time) : Bool := t.unix = -62135596800 ∧ t.nanosecond = 0

def unixMicro (t : Time) : Int := t.unix * 1000000 + (t.nanosecond / 1000 : Nat)

def clock (t : Time) : Int := (t.unix + t.offset) % 86400 * 1000000 + (t.nanosecond / 1000 : Nat)

end Time

namespace Codec

variable (codec : Codec)

def bigIntString (n : Int) : Text := (if n < 0 then ['-'] else []) ++ Nat.toDigits 10 n.natAbs

def pointed (str : Text) (scale : Nat) : Text :=
  str.take (str.length - scale) ++ ".".toList ++ str.drop (str.length - scale)

/-- `DecimalValue.String` (duckdbservice/arrowmap/arrowmap.go). -/
def decimalString (value : Option Int) (scale : Int) : Text := match value with
  | none => ['0']
  | some value =>
    if scale ≤ 0 then bigIntString value
    else
      let abs := bigIntString value.natAbs
      let abs := List.replicate (scale + 1 - abs.length).toNat '0' ++ abs
      (if value < 0 then ['-'] else []) ++ pointed abs scale.toNat

/-- The text of `%0d` with a width. -/
def zeroPadded (width : Nat) (n : Int) : Text :=
  let sign := if n < 0 then ['-'] else []
  let digits := Nat.toDigits 10 n.natAbs
  sign ++ List.replicate (width - sign.length - digits.length) '0' ++ digits

def counted (n : Int) (unit : Text) : Text :=
  bigIntString n ++ ' ' :: unit ++ if n = 1 ∨ n = -1 then [] else ['s']

def timePart (micros : Int) : Text :=
  -- the least number stays as it is
  let all := if micros < 0 ∧ micros ≠ -2 ^ 63 then -micros else micros
  let inHour := all.tmod 3600000000
  let inMinute := inHour.tmod 60000000
  let rem := inMinute.tmod 1000000
  let clock := zeroPadded 2 (all.tdiv 3600000000) ++ ':' :: zeroPadded 2 (inHour.tdiv 60000000) ++
    ':' :: zeroPadded 2 (inMinute.tdiv 1000000) ++ if 0 < rem then '.' :: zeroPadded 6 rem else []
  if micros < 0 then '-' :: clock else clock

def formatInterval (months days micros : Int) : Text :=
  let years := months.tdiv 12
  let remMonths := months.tmod 12
  let parts := (if years ≠ 0 then [counted years "year".toList] else []) ++
    (if remMonths ≠ 0 then [counted remMonths "mon".toList] else []) ++
    if days ≠ 0 then [counted days "day".toList] else []
  " ".toList.intercalate (if micros ≠ 0 ∨ parts = [] then parts ++ [timePart micros] else parts)

def isNull : Value → Bool
  | .null => true
  | _ => false

def needsArrayQuoting (s : Bytes) : Bool :=
  s.isEmpty || (codec.runes s).any (· ∈ [',', '\x7b', '\x7d', '"', '\\', ' '])

def arrayElement (s : Bytes) : Bytes :=
  if codec.needsArrayQuoting s then
    let escaped := (codec.runes s).flatMap fun c => if c = '"' ∨ c = '\\' then ['\\', c] else [c]
    utf8 ('"' :: escaped ++ ['"'])
  else s

def timestampLayout (t : Time) : Text :=
  if t.nanosecond ≠ 0 then "2006-01-02 15:04:05.999999".toList else "2006-01-02 15:04:05".toList

def formatDate (t : Time) : Bytes := codec.format "2006-01-02".toList t

mutual

def formatValue : Value → Bytes
  | .null => []
  | .bytes b => b
  | .string s | .stringer s | .other s => utf8 s
  | .int _ n | .bigInt n => utf8 (bigIntString n)
  | .float32 bits => utf8 (codec.formatFloat32 bits)
  | .float64 bits => utf8 (codec.formatFloat64 bits)
  | .bool b => utf8 [if b then 't' else 'f']
  | .time t => if t.isZero then [] else codec.format (timestampLayout t) t
  | .list elements => utf8 ['\x7b'] ++ (utf8 [',']).intercalate (formatElements elements) ++ utf8 ['\x7d']
  | .interval months days micros => utf8 (formatInterval months days micros)
  | .decimal value scale => utf8 (decimalString value scale)

def formatElements : List Value → List Bytes
  | [] => []
  | elem :: elements =>
    (if isNull elem then utf8 "NULL".toList else codec.arrayElement (formatValue elem)) :: formatElements elements

end

def encodeText (v : Value) : Bytes := codec.formatValue v

/-- Integers other than `int` are compared with an `int`, so that each of them counts as true. -/
def encodeBool : Value → Bytes
  | .bool b => [if b then 1 else 0]
  | .int .int n => [if n = 0 then 0 else 1]
  | .int .int8 _ | .int .int16 _ | .int .int32 _ | .int .int64 _ => [1]
  | _ => [0]

/-- `encodeInt2`, `encodeInt4` and `encodeInt8`, by their width and the integers that they know. -/
def encodeInt (width : Nat) (known : IntKind → Bool) : Value → Option Bytes
  | .int kind n => if known kind then some (bigEndian width n) else none
  | .float32 bits => some (bigEndian width (codec.truncate32 width bits))
  | .float64 bits => some (bigEndian width (codec.truncate64 width bits))
  | _ => none

def encodeInt2 : Value → Option Bytes := codec.encodeInt 2 fun kind => kind ≠ .uint32 ∧ kind ≠ .uint64

def encodeInt4 : Value → Option Bytes := codec.encodeInt 4 fun kind => kind ≠ .uint64

def encodeInt8 : Value → Option Bytes := codec.encodeInt 8 fun _ => true

def floatable : IntKind → Bool
  | .int | .int32 | .int64 => true
  | _ => false

def encodeFloat4 : Value → Option Bytes
  | .float32 bits => some (bigEndian 4 bits.toNat)
  | .float64 bits => some (bigEndian 4 (codec.narrow bits).toNat)
  | .int kind n => if floatable kind then some (bigEndian 4 (codec.toFloat32 n).toNat) else none
  | _ => none

def encodeFloat8 : Value → Option Bytes
  | .float64 bits => some (bigEndian 8 bits.toNat)
  | .float32 bits => some (bigEndian 8 (codec.widen bits).toNat)
  | .int kind n => if floatable kind then some (bigEndian 8 (codec.toFloat64 n).toNat) else none
  | _ => none

def pgEpochDays : Int := 10957

def pgEpochMicros : Int := pgEpochDays * 24 * 60 * 60 * 1000000

def encodeDate : Value → Option Bytes
  | .time t => some (bigEndian 4 (t.unix.tdiv 86400 - pgEpochDays))
  | .string s => (codec.parseDate s).map fun t => bigEndian 4 (t.unix.tdiv 86400 - pgEpochDays)
  | _ => none

def encodeTimestamp : Value → Option Bytes
  | .time t => some (bigEndian 8 (t.unixMicro - pgEpochMicros))
  | .string s => (codec.parseTimestamp s).map fun t => bigEndian 8 (t.unixMicro - pgEpochMicros)
  | _ => none

def encodeTime : Value → Option Bytes
  | .time t => some (bigEndian 8 t.clock)
  | .string s => (codec.parseTime s).map fun t => bigEndian 8 t.clock
  | _ => none

def encodeInterval : Value → Option Bytes
  | .interval months days micros => some (bigEndian 8 micros ++ bigEndian 4 days ++ bigEndian 4 months)
  | _ => none

def encodeBytea : Value → Option Bytes
  | .bytes b => some b
  | .string s => some (utf8 s)
  | _ => none

def hexDigit (c : Char) : Option Nat :=
  if c.isDigit then some (c.toNat - '0'.toNat)
  else if 'a' ≤ c ∧ c ≤ 'f' then some (c.toNat - 'a'.toNat + 10)
  else if 'A' ≤ c ∧ c ≤ 'F' then some (c.toNat - 'A'.toNat + 10)
  else none

def hexDecode : Text → Option Bytes
  | [] => some []
  | [_] => none
  | high :: low :: s => do
    let h ← hexDigit high
    let l ← hexDigit low
    let rest ← hexDecode s
    return UInt8.ofNat (h * 16 + l) :: rest

def decodeUUIDText (s : Text) : Option Bytes :=
  let s := s.filter (· ≠ '-')
  if Text.size s = 32 then hexDecode s else none

/-- The default case takes every `fmt.Stringer`; the text of a time, which is one too, has a colon. -/
def encodeUUID : Value → Option Bytes
  | .bytes b => if b.length = 16 then some b else none
  | .string s | .stringer s => decodeUUIDText s
  | .bigInt n => decodeUUIDText (bigIntString n)
  | .decimal value scale => decodeUUIDText (decimalString value scale)
  | _ => none

def parseBig (s : Text) : Option Int :=
  let (negative, digits) := match s with
    | '-' :: s => (true, s)
    | '+' :: s => (false, s)
    | s => (false, s)
  if digits.isEmpty ∨ ¬ digits.all Char.isDigit then none
  else
    let n := Nat.ofDigitChars 10 digits 0
    some (if negative then -n else n)

def wrap16 (n : Int) : Int := (n + 2 ^ 15) % 2 ^ 16 - 2 ^ 15

def parseUnsigned (s : Text) : Option (Int × Int) :=
  match Text.cut ".".toList s with
  | some (whole, fraction) => (parseBig (whole ++ fraction)).map fun n => (n, wrap16 (Text.size fraction))
  | none => (parseBig s).map fun n => (n, 0)

def parseDecimal : Text → Option (Int × Int)
  | '-' :: s => (parseUnsigned s).map fun (n, scale) => (-n, scale)
  | s => parseUnsigned s

def number : Value → Option (Int × Int)
  | .decimal value scale => some (value, wrap16 scale)
  | .bigInt n => some (n, 0)
  | .string s => parseDecimal s
  | _ => none

def groups (value : Nat) (dscale : Int) : List Nat × Int :=
  let fracGroups := (dscale + 3).tdiv 4
  let padding := fracGroups * 4 - dscale
  let value := if 0 < padding then value * 10 ^ padding.toNat else value
  let allDigits := (Nat.digits 10000 value).reverse
  let intGroups := allDigits.length - fracGroups
  let allDigits := List.replicate (-intGroups).toNat 0 ++ allDigits
  let weight := max intGroups 0 - 1
  let allDigits := allDigits.rdropWhile (· = 0)
  (allDigits.dropWhile (· = 0), weight - (allDigits.takeWhile (· = 0)).length)

def encodeNumber (value dscale : Int) : Bytes :=
  let sign : Int := if value < 0 then 0x4000 else 0
  if value = 0 then bigEndian 2 0 ++ bigEndian 2 0 ++ bigEndian 2 0 ++ bigEndian 2 dscale
  else
    let (digits, weight) := groups value.natAbs dscale
    bigEndian 2 digits.length ++ bigEndian 2 weight ++ bigEndian 2 sign ++ bigEndian 2 dscale ++
      digits.flatMap fun digit : Nat => bigEndian 2 digit

def encodeNumeric (v : Value) : Bytes :=
  match number v with
  | some (value, dscale) => encodeNumber value dscale
  | none => codec.encodeText v

def padZeros (scale : Nat) (str : Text) : Text := if str.length ≤ scale then padZeros scale ('0' :: str) else str
  termination_by scale + 1 - str.length

def decimalText (bi : Int) (scale : Nat) : Text :=
  let str := bigIntString bi
  let neg := str.head? = some '-'
  let result := pointed (padZeros scale (if neg then str.drop 1 else str)) scale
  if neg then '-' :: result else result

/-- A decimal as the Flight client gives it (server/flightclient/flight_executor.go). -/
def decimalToBigInt (bi : Int) (scale : Nat) : Value :=
  if scale = 0 then .bigInt bi else .string (decimalText bi scale)

def encodeJSON (v : Value) : Bytes := (codec.marshal v).getD (codec.encodeText v)

def encodeScalar (oid : Oid) (v : Value) : Option Bytes :=
  if oid = .bool then some (encodeBool v)
  else if oid = .int2 then codec.encodeInt2 v
  else if oid = .int4 ∨ oid = .oid then codec.encodeInt4 v
  else if oid = .int8 then codec.encodeInt8 v
  else if oid = .float4 then codec.encodeFloat4 v
  else if oid = .float8 then codec.encodeFloat8 v
  else if oid = .numeric then some (codec.encodeNumeric v)
  else if oid = .date then codec.encodeDate v
  else if oid = .timestamp ∨ oid = .timestamptz then codec.encodeTimestamp v
  else if oid = .time then codec.encodeTime v
  else if oid = .interval then encodeInterval v
  else if oid = .uuid then encodeUUID v
  else if oid = .bytea then encodeBytea v
  else if oid = .json ∨ oid = .jsonb then some (codec.encodeJSON v)
  else some (codec.encodeText v)

def encodeElement (elementOID : Oid) : Value → Bytes
  | .null => unframed
  | v => match codec.encodeScalar elementOID v with
    | some data => framed data
    | none => unframed

def arrayHeader (elementOID : Oid) (elements : List Value) : Bytes :=
  bigEndian 4 1 ++ bigEndian 4 (if elements.any isNull then 1 else 0) ++ bigEndian 4 elementOID ++
    bigEndian 4 elements.length ++ bigEndian 4 1

def encodeArray (elementOID : Oid) : Value → Option Bytes
  | .list elements => some (arrayHeader elementOID elements ++ elements.flatMap (codec.encodeElement elementOID))
  | _ => none

def encodeBinary (v : Value) (oid : Oid) : Option Bytes :=
  match v with
  | .null => none
  | v => match Oid.element? oid with
    | some elementOID => codec.encodeArray elementOID v
    | none => codec.encodeScalar oid v

def encodeField (v : Value) (oid : Option Oid) : Bytes :=
  match oid, v with
  | some oid, v =>
    if oid = .json ∨ oid = .jsonb then codec.encodeJSON v
    else if oid = .date then match v with
      | .time t => if t.isZero then codec.formatValue v else codec.formatDate t
      | v => codec.formatValue v
    else codec.formatValue v
  | none, v => codec.formatValue v

def dataRowField (formats : List Int) (typeOIDs : List Oid) (i : Nat) (v : Value) : Option Bytes :=
  match v with
  | .null => none
  | v => match typeOIDs[i]? with
    | some oid => if formatAt formats i = 1 then codec.encodeBinary v oid else some (codec.encodeField v oid)
    | none => some (codec.encodeField v none)

def dataRowFields (values : List Value) (formats : List Int) (typeOIDs : List Oid) : List (Option Bytes) :=
  values.mapIdx fun i v => codec.dataRowField formats typeOIDs i v

def decodeDate (data : Bytes) : Option Time :=
  (readInt 4 data).map fun (days, _) => ⟨(pgEpochDays + days) * 86400, 0, 0⟩

def pgEpochUnix : Int := 946684800

def decodeTimestamp (data : Bytes) : Option Time :=
  (readInt 8 data).map fun (micros, _) =>
    let secs := micros.tdiv 1000000
    let remainMicros := micros.tmod 1000000
    if remainMicros < 0 then ⟨pgEpochUnix + (secs - 1), (remainMicros + 1000000).toNat * 1000, 0⟩
    else ⟨pgEpochUnix + secs, remainMicros.toNat * 1000, 0⟩

end Codec
end Duckgres.Conn
