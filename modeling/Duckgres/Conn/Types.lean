import Duckgres.Execution.Inference

/-!
# Values

The Go values that a row of a result holds, by their dynamic type.

# Types

The PostgreSQL types that the connection announces for DuckDB's columns (server/types.go).
-/

namespace Duckgres.Conn
open Base

abbrev Bytes := List UInt8

inductive IntKind where
  | int | int8 | int16 | int32 | int64
  | uint8 | uint16 | uint32 | uint64
  deriving DecidableEq

/-- A `time.Time`: its second since 1970, the nanoseconds within it, and how far its location is ahead of UTC. -/
structure Time where
  unix : Int
  nanosecond : Nat
  offset : Int
  deriving DecidableEq

inductive Value where
  | null
  | bool (b : Bool)
  | int (kind : IntKind) (n : Int)
  | float32 (bits : BitVec 32)
  | float64 (bits : BitVec 64)
  | string (s : Text)
  | bytes (b : Bytes)
  | time (t : Time)
  | bigInt (n : Int)
  | decimal (value : Int) (scale : Nat)
  | interval (months days micros : Int)
  -- a value that is written as the text of its `String` method, such as a UUID of the driver
  | stringer (s : Text)
  | list (elements : List Value)
  -- a struct, map or union, with its text
  | other (s : Text)

abbrev Oid := Int

namespace Oid

def bool : Oid := 16
def bytea : Oid := 17
def char : Oid := 18
def name : Oid := 19
def int8 : Oid := 20
def int2 : Oid := 21
def int4 : Oid := 23
def text : Oid := 25
def oid : Oid := 26
def json : Oid := 114
def float4 : Oid := 700
def float8 : Oid := 701
def bpchar : Oid := 1042
def varchar : Oid := 1043
def date : Oid := 1082
def time : Oid := 1083
def timestamp : Oid := 1114
def timestamptz : Oid := 1184
def interval : Oid := 1186
def timetz : Oid := 1266
def numeric : Oid := 1700
def uuid : Oid := 2950
def jsonb : Oid := 3802

def arrays : List (Oid × Oid) :=
  [(bool, 1000), (int2, 1005), (int4, 1007), (int8, 1016), (float4, 1021), (float8, 1022), (text, 1009),
    (varchar, 1015), (date, 1182), (time, 1183), (timetz, 1270), (timestamp, 1115), (timestamptz, 1185),
    (interval, 1187), (numeric, 1231), (uuid, 2951)]

/-- `elementToArrayOID`. -/
def ofElement (element : Oid) : Option Oid := arrays.lookup element

/-- `arrayElementOIDs`. -/
def element? (array : Oid) : Option Oid := (arrays.map Prod.swap).lookup array

end Oid

structure TypeInfo where
  oid : Oid
  size : Int
  typmod : Int

def scanInt (s : Text) : Option Int :=
  let (negative, s) := match s with
    | '-' :: s => (true, s)
    | '+' :: s => (false, s)
    | s => (false, s)
  let digits := s.takeWhile Char.isDigit
  let n : Int := digits.foldl (fun n c => n * 10 + (c.toNat - '0'.toNat)) 0
  let n := if negative then -n else n
  if digits.isEmpty ∨ n < -2 ^ 63 ∨ 2 ^ 63 ≤ n then none else some n

def wrap32 (n : Int) : Int := (n + 2 ^ 31) % 2 ^ 32 - 2 ^ 31

def parseNumericTypmod (typeName : Text) : Int :=
  match Text.cut "(".toList typeName, Text.cut ")".toList typeName with
  | some (before, _), some (upTo, _) =>
    if upTo.length ≤ before.length then -1
    else match Text.cut ",".toList (upTo.drop (before.length + 1)) with
      | none => -1
      | some (precision, scale) => match scanInt precision.trimSpace, scanInt scale.trimSpace with
        | some p, some s => if p ≤ 0 ∨ s < 0 ∨ 38 < p then -1 else wrap32 (wrap32 ((p.toNat <<< 16) ||| s.toNat) + 4)
        | _, _ => -1
  | _, _ => -1

def namedTypes : List (List String × TypeInfo) :=
  [(["BOOLEAN", "BOOL"], ⟨.bool, 1, -1⟩), (["TINYINT", "INT1"], ⟨.int2, 2, -1⟩), (["SMALLINT", "INT2"], ⟨.int2, 2, -1⟩),
    (["INTEGER", "INT4", "INT"], ⟨.int4, 4, -1⟩), (["BIGINT", "INT8"], ⟨.int8, 8, -1⟩),
    (["HUGEINT", "INT128"], ⟨.numeric, -1, 2490372⟩), (["UTINYINT", "USMALLINT"], ⟨.int4, 4, -1⟩),
    (["UINTEGER"], ⟨.oid, 4, -1⟩), (["UBIGINT"], ⟨.numeric, -1, 1310724⟩),
    (["REAL", "FLOAT4", "FLOAT"], ⟨.float4, 4, -1⟩), (["DOUBLE", "FLOAT8"], ⟨.float8, 8, -1⟩),
    (["VARCHAR"], ⟨.varchar, -1, -1⟩), (["TEXT", "STRING"], ⟨.text, -1, -1⟩), (["BLOB", "BYTEA"], ⟨.bytea, -1, -1⟩),
    (["DATE"], ⟨.date, 4, -1⟩), (["TIME"], ⟨.time, 8, -1⟩), (["TIME WITH TIME ZONE", "TIMETZ"], ⟨.timetz, 12, -1⟩),
    (["TIMESTAMP"], ⟨.timestamp, 8, -1⟩), (["TIMESTAMP WITH TIME ZONE", "TIMESTAMPTZ"], ⟨.timestamptz, 8, -1⟩),
    (["INTERVAL"], ⟨.interval, 16, -1⟩), (["UUID"], ⟨.uuid, 16, -1⟩), (["JSON"], ⟨.json, -1, -1⟩)]

def mapScalarType (typeName : Text) : TypeInfo :=
  let upper := typeName.toUpper
  match namedTypes.find? fun entry => entry.1.any fun name => upper = name.toList with
  | some (_, info) => info
  | none =>
    if upper.hasPrefix "DECIMAL".toList || upper.hasPrefix "NUMERIC".toList then
      ⟨.numeric, -1, parseNumericTypmod typeName⟩
    else if upper.hasPrefix "VARCHAR(".toList then ⟨.varchar, -1, -1⟩
    else ⟨.text, -1, -1⟩

def mapListType : Nat → Text → TypeInfo
  | 0, typeName => mapScalarType typeName
  | n + 1, typeName =>
    if typeName.toUpper.hasSuffix "[]".toList then
      let elemInfo := mapListType n (typeName.take (typeName.length - 2))
      match Oid.ofElement elemInfo.oid with
      | some array => ⟨array, -1, elemInfo.typmod⟩
      | none => ⟨.text, -1, -1⟩
    else mapScalarType typeName

def mapDuckDBType (typeName : Text) : TypeInfo := mapListType typeName.length typeName

def catalogNames : List String :=
  ["nspname", "relname", "attname", "typname", "datname", "rolname", "collname", "conname", "proname", "usename",
    "current_database()", "current_database", "TABLE_SCHEM", "TABLE_CATALOG", "table_schem", "table_name"]

def catalogChars : List String :=
  ["typtype", "typcategory", "typalign", "typstorage", "relkind", "relpersistence", "attidentity", "attgenerated"]

def catalogTexts : List String := ["table_type", "adsrc", "description"]

/-- `pgCatalogColumnOIDs`. -/
def catalogColumnOid (column : Text) : Option Oid :=
  let isOneOf (names : List String) : Bool := names.any fun name => column = name.toList
  if isOneOf catalogNames then some .name
  else if isOneOf catalogChars then some .char
  else if isOneOf catalogTexts then some .text
  else if isOneOf ["attlen"] then some .int2
  else none

structure Field where
  name : Text
  oid : Oid
  size : Int
  typmod : Int
  format : Int

def formatAt (formats : List Int) (i : Nat) : Int := if formats.length = 1 then formats.headD 0 else formats.getD i 0

def mapTypeOIDWithColumnName (column typeName : Text) : Oid :=
  (catalogColumnOid column).getD (mapDuckDBType typeName).oid

def mapTypeSizeWithColumnName (column typeName : Text) : Int :=
  match catalogColumnOid column with
  | some oid =>
    if oid = .name then 64 else if oid = .char then 1 else if oid = .text then -1 else if oid = .int2 then 2
    else (mapDuckDBType typeName).size
  | none => (mapDuckDBType typeName).size

/-- `strings.TrimPrefix` of the catalog that the transpiler qualifies macros with. -/
def displayName (column : Text) : Text := if column.hasPrefix "memory.main.".toList then column.drop 12 else column

def fieldOf (formats : List Int) (i : Nat) (column typeName : Text) : Field where
  name := displayName column
  oid := mapTypeOIDWithColumnName (displayName column) typeName
  size := mapTypeSizeWithColumnName (displayName column) typeName
  typmod := (mapDuckDBType typeName).typmod
  format := formatAt formats i

def rowDescriptionFields (columns columnTypes : List Text) (formats : List Int) : List Field :=
  (columns.zip columnTypes).mapIdx fun i (column, typeName) => fieldOf formats i column typeName

def typeOIDs (columnTypes : List Text) : List Oid := columnTypes.map fun typeName => (mapDuckDBType typeName).oid

end Duckgres.Conn
