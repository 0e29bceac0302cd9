import Duckgres.Conn.Classify
import Mathlib.Logic.Function.Basic
import Duckgres.Conn.Types
import Duckgres.Execution.Recovery

/-!
# Errors

How the connection reads an error of DuckDB, given by its message (server/conn.go).

# Messages

The messages of the PostgreSQL protocol after startup (server/wire, server/conn.go). A `DataRow` is
given by the arguments of `sendDataRowWithFormats`.

# Connections

`clientConn` (server/conn.go) after startup, and what its handlers call on. The connection is
writable, and reads the messages of `input`.
-/

namespace Duckgres.Conn
open Base Execution

def has (s : Text) (part : String) : Bool := s.contains part.toList

def isQueryCancelled (err : Text) : Bool := has err "context canceled"

def catalogErrorCode (msg : Text) : String :=
  let lower := msg.toLower
  if has lower "schema" && has lower "does not exist" then "3F000"
  else if has lower "table with name" && has lower "does not exist" then "42P01"
  else if has lower "view with name" && has lower "does not exist" then "42P01"
  else if has lower "function" && (has lower "does not exist" || has lower "with these arguments") then "42883"
  else if has lower "no function matches" then "42883"
  else if has lower "type" && has lower "does not exist" then "42704"
  else if has lower "does not exist" then "42704"
  else if has lower "already exists" then
    if has lower "function" then "42723" else if has lower "schema" then "42P06" else "42P07"
  else "42000"

def binderErrorCode (msg : Text) : String :=
  let lower := msg.toLower
  if has lower "referenced column" && has lower "not found" then "42703"
  else if has lower "column" && has lower "does not exist" then "42703"
  else if has lower "ambiguous" then "42702"
  else if has lower "referenced table" && has lower "not found" then "42P01"
  else if has lower "no function matches" then "42883"
  else "42601"

def conversionErrorCode (msg : Text) : String :=
  let lower := msg.toLower
  if has lower "out of range" || has lower "overflow" then "22003" else "22P02"

def constraintErrorCode (msg : Text) : String :=
  let lower := msg.toLower
  if has lower "duplicate key" || has lower "unique" then "23505"
  else if has lower "not null" || has lower "null value" then "23502"
  else if has lower "foreign key" then "23503"
  else if has lower "check constraint" then "23514"
  else "23000"

def classifyErrorCode (err : Text) : String :=
  let starts (part : String) : Bool := err.hasPrefix part.toList
  if isQueryCancelled err then "57014"
  else if isDuckLakeTransactionConflict err then "40001"
  else if starts "Catalog Error:" then catalogErrorCode err
  else if starts "Binder Error:" then binderErrorCode err
  else if starts "Parser Error:" then "42601"
  else if starts "Conversion Error:" then conversionErrorCode err
  else if starts "Out of Range Error:" then "22003"
  else if starts "Constraint Error:" then constraintErrorCode err
  else if starts "Permission Error:" then "42501"
  else if starts "Transaction Error:" || starts "TransactionContext Error:" then "25000"
  else if starts "Dependency Error:" then "2BP01"
  else "XX000"

def isAlterTableNotTableError (err : Text) : Bool :=
  let msg := err.toLower
  has msg "cannot use alter table" && has msg "not a table" || has msg "can only modify view with alter view statement"

def isDropTableOnViewError (err : Text) : Bool := has err "is of type View" && has err "trying to drop type Table"

def replaceFirst (s : Text) (old new : String) : Text :=
  match Text.cut old.toList s with
  | some (before, after) => before ++ new.toList ++ after
  | none => s

inductive TxStatus where
  | idle | transaction | error
  deriving DecidableEq

inductive Backend where
  | readyForQuery (status : TxStatus)
  -- the severity is ERROR, that of a notice WARNING
  | errorResponse (code : String) (message : Text)
  | noticeResponse (code : String) (message : Text)
  | commandComplete (tag : Text)
  | emptyQueryResponse
  | parseComplete
  | bindComplete
  | closeComplete
  | noData
  | parameterDescription (types : List Oid)
  | rowDescription (fields : List Field)
  | dataRow (values : List Value) (formats : List Int) (typeOIDs : List Oid)
  | copyInResponse (columns : Nat) (text : Bool)
  | copyOutResponse (columns : Nat) (text : Bool)
  | copyData (data : Bytes)
  | copyDone

inductive Body (α : Type) where
  | read (a : α)
  | short
  -- a count is negative: `make` panics
  | negative

structure ParseBody where
  stmtName : Text
  query : Text
  paramTypes : List Oid

structure BindBody where
  paramFormats : List Int
  paramValues : List (Option Bytes)
  resultFormats : List Int

inductive Frontend where
  -- the body without the zeros at its end
  | query (text : Text)
  | parse (body : Body ParseBody)
  | bind (names : Option (Text × Text)) (body : Body BindBody)
  | describe (body : Option (Char × Text))
  | execute (body : Option (Text × Int))
  | close (body : Option (Char × Text))
  | sync
  | flush
  | terminate
  | copyData (data : Bytes)
  | copyDone
  | copyFail (message : Text)
  | other (msgType : Char)

def Frontend.msgType : Frontend → Char
  | .query _ => 'Q'
  | .parse _ => 'P'
  | .bind .. => 'B'
  | .describe _ => 'D'
  | .execute _ => 'E'
  | .close _ => 'C'
  | .sync => 'S'
  | .flush => 'H'
  | .terminate => 'X'
  | .copyData _ => 'd'
  | .copyDone => 'c'
  | .copyFail _ => 'f'
  | .other msgType => msgType

inductive FetchDirection where
  | undefined | forward | backward | absolute | relative
  deriving DecidableEq

inductive Node where
  -- the inner query deparsed, empty if that fails
  | declareCursor (portalname innerSQL : Text)
  | fetch (portalname : Text) (direction : FetchDirection) (howMany : Int) (isMove : Bool)
  -- an empty name is CLOSE ALL
  | closePortal (portalname : Text)
  | other

structure ParsedStmt where
  node : Node
  deparsed : Except Text Text

structure Transpiled where
  sql : Text
  paramCount : Nat := 0
  isIgnoredSet : Bool := false
  isNoOp : Bool := false
  noOpTag : Text := []
  error : Option Text := none
  fallbackToNative : Bool := false
  statements : List Text := []
  cleanupStatements : List Text := []

structure CopyPatterns where
  toStdout : Text → Option Text
  fromStdin : Text → Option (Text × Text)
  binary : Text → Bool
  csv : Text → Bool
  header : Text → Bool
  delimiter : Text → Option Text
  null : Text → Option Text
  quote : Text → Option Text
  escape : Text → Option Text

/-- What is fixed for a connection: how its session is set up, and the functions it takes from pg_query, the
transpiler, Go's libraries and the codecs. -/
structure Setting where
  passthrough : Bool
  logicalCatalogMapping : Bool
  database : Text
  -- the executor is a `CopyFromStdinExecutor`
  streamsCopy : Bool
  parse : Text → Option (List ParsedStmt)
  transpile : Bool → Text → Except Text Transpiled
  convertAlterTableToAlterView : Text → Option Text
  convertDropTableToDropView : Text → Option Text
  -- the name in the literal, or `none` for a parameter
  pgCursorsQuery : Text → Option (Option Text)
  pgStatActivityQuery : Text → Bool
  copy : CopyPatterns
  -- what the calls of `csvReader.Read` return, up to the end of the data
  csvReads : Text → Bytes → List (Except Text (List Text))
  copyLine : List Value → List Oid → Text → Bytes
  copyTuple : List Value → List Oid → Bytes
  decodeBinary : Bytes → Oid → Except Text Value
  decodeText : Bytes → Text
  encodeText : Text → Bytes
  -- `%q`
  quoted : Text → Text

abbrev Row := List Value

structure RowSet where
  columns : Except Text (List Text)
  columnTypes : Except Text (List Text)
  -- for each call of `Next` that returns true, what `Scan` gives
  rows : List (Except Text Row)
  -- what `Err` returns after so many calls of `Next`
  err : Nat → Option Text

inductive Call where
  | exec (text : Text) (args : List Value)
  | query (text : Text) (args : List Value)
  | copyFromStdin (copySQL : Text)
  | appender (table : Text) (rows : List Row)
  | createTemp
  | writeTemp (data : Bytes)
  | listConns
  | ctxErr

structure Answered (α : Type) where
  result : Except Text α
  inTxn : Bool

/-- What `CopyFromStdin` returns, and after how many messages it stops if it does not read to the end. -/
structure Streamed extends Answered Int where
  stopsAfter : Option Nat

structure Activity where
  pid : Int
  values : Row

def Answer : Call → Type
  | .exec .. => Answered Int
  | .query .. => Answered RowSet
  | .copyFromStdin _ => Streamed
  | .appender .. => Answered Int
  | .createTemp => Except Text Text
  | .writeTemp _ => Except Text Unit
  | .listConns => List Activity
  | .ctxErr => Bool

inductive CursorOp where
  | declare (name query : Text)
  | fetch (name : Text) (count : Int)
  | close (name : Text)
  -- an empty name: it is the parameter
  | pgCursorsQuery (name : Text)
  | pgStatActivity

structure PreparedStmt where
  -- `described` is the only field that changes; it is kept by this number
  ref : Nat
  query : Text
  convertedQuery : Text
  paramTypes : List Oid := []
  numParams : Nat := 0
  isIgnoredSet : Bool := false
  isNoOp : Bool := false
  noOpTag : Text := []
  statements : List Text := []
  cleanupStatements : List Text := []
  cursorOp : Option CursorOp := none

structure Portal where
  stmt : PreparedStmt
  paramValues : List (Option Bytes)
  paramFormats : List Int
  resultFormats : List Int
  described : Bool

structure OpenRows where
  columns : List Text
  columnTypes : List Text
  rest : List (Except Text Row)
  nextCalls : Nat
  err : Nat → Option Text

structure Cursor where
  query : Text
  rows : Option OpenRows

structure Occurrence where
  call : Call
  answer : Answer call

structure ClientConn where
  txStatus : TxStatus
  stmts : Text → Option PreparedStmt
  -- the statements on which `described` is set
  described : Nat → Bool
  nextRef : Nat
  portals : Text → Option Portal
  cursors : Text → Option Cursor
  input : List Frontend
  sent : List Backend
  isOpen : Bool
  inTxn : Bool
  log : List Occurrence

def inTxnAfter (inTxn : Bool) : (call : Call) → Answer call → Bool
  | .exec .., answer => Answered.inTxn answer
  | .query .., answer => Answered.inTxn answer
  | .copyFromStdin _, answer => Streamed.toAnswered answer |>.inTxn
  | .appender .., answer => Answered.inTxn answer
  | _, _ => inTxn

def ClientConn.note (call : Call) (answer : Answer call) (c : ClientConn) : ClientConn :=
  { c with inTxn := inTxnAfter c.inTxn call answer, log := c.log ++ [⟨call, answer⟩] }

abbrev Handler := Stateful Call Answer ClientConn

def perform (call : Call) : Handler (Answer call) := Stateful.call ClientConn.note call

end Duckgres.Conn
