import Duckgres.Base.Table
import Duckgres.Execution.Inference
import Duckgres.Execution.Recovery

/-!
# Statements of a worker session

The handlers of duckdbservice/flight_handler.go that run a client's statements on its session, one
request after another. What DuckDB answers, and whether it leaves a transaction of the client open,
is not the worker's to choose; the worker sees the errors only.
-/

namespace Duckgres.Worker
open Base Execution

inductive StatementHandle where
  | query (n : Nat)
  | prep (n : Nat)
  deriving DecidableEq

structure QueryHandle where
  id : StatementHandle
  query : Text
  -- `TxnID`, a transaction's key by its number
  txn : Option Nat

structure Session where
  sqlTxActive : Bool
  txns : List Nat
  queries : Table QueryHandle.id
  handleCounter : Nat
  -- a transaction that the client began is open on `Conn`
  inTxn : Bool

inductive StatementCall where
  -- on `Conn` or on a `Tx` of it
  | statement (text : Text)
  | rollback
  | beginTx
  | endTx (commit : Bool)

structure StatementAnswer where
  result : Except Text Unit
  inTxn : Bool

structure Execution where
  call : StatementCall
  inTxn : Bool
  answer : StatementAnswer

inductive EndAction where
  | commit | rollback | unspecified
  deriving DecidableEq

inductive StatementRequest where
  | getFlightInfoStatement (query : Text) (txn : Option Nat)
  | doGetStatement (handle : StatementHandle)
  | doPutCommandStatementUpdate (query : Text) (txn : Option Nat)
  | beginTransaction
  | endTransaction (txn : Option Nat) (action : EndAction)
  | createPreparedStatement (query : Text) (txn : Option Nat)
  | closePreparedStatement (handle : StatementHandle)
  | doGetPreparedStatement (handle : StatementHandle)
  -- `reapLoop` finds the transaction idle for more than `txnIdleTimeout`
  | reapIdle (txn : Nat)

structure Served where
  before : Session
  request : StatementRequest
  log : List Execution

structure SessionState where
  session : Session
  -- of the request that is being served
  log : List Execution
  history : List Served

abbrev SessionHandler := Stateful StatementCall (fun _ => StatementAnswer) SessionState

def transactionControl (upper : Text) : Bool :=
  upper.hasPrefix "COMMIT".toList || upper.hasPrefix "ROLLBACK".toList || upper.hasPrefix "END".toList

variable (query : Text)

def isTransactionControlStmt : Bool := transactionControl query.trimSpace.toUpper

def beginsTransaction (upper : Text) : Bool := upper.hasPrefix "BEGIN".toList || upper.hasPrefix "START".toList

def trackSQLTransactionState (result : Except Text Unit) (sqlTxActive : Bool) : Bool :=
  let upper := query.trimSpace.toUpper
  if beginsTransaction upper then
    match result with
    | .ok _ => true
    | .error _ => sqlTxActive
  else if isTransactionControlStmt upper then false
  else sqlTxActive

namespace Session
variable (s : Session)

def getOpenTxn : Option Nat → Option (Option Nat)
  | none => some none
  | some txn => if txn ∈ s.txns then some (some txn) else none

def deleteTxn (txn : Nat) : Session := { s with txns := s.txns.filter (· ≠ txn) }

def addHandle (handle : StatementHandle) (query : Text) (txn : Option Nat) : Session :=
  { s with queries := s.queries.upsert ⟨handle, query, txn⟩, handleCounter := s.handleCounter + 1 }

def deleteHandle (handle : StatementHandle) : Session := { s with queries := s.queries.filter fun q => q.id ≠ handle }

end Session

def onSession (f : Session → Session) : SessionHandler Unit := modify fun s => { s with session := f s.session }

def execute (call : StatementCall) : SessionHandler (Except Text Unit) := do
  let answer ← Stateful.call (fun call (answer : StatementAnswer) (s : SessionState) =>
    { s with session := { s.session with inTxn := answer.inTxn },
             log := s.log ++ [⟨call, s.session.inTxn, answer⟩] }) call
  pure answer.result

def runFirst (once : Bool) (run : SessionHandler (Except Text Unit)) : SessionHandler (Except Text Unit) :=
  if once then run else retryOnTransient run

/-- The body that `GetFlightInfoStatement`, `DoGetStatement` and `DoPutCommandStatementUpdate` share:
`once` turns the first retries off, and `track` is what is done after them. -/
def executeStatement (text : Text) (tx : Option Nat) (once : Bool) (track : Except Text Unit → Bool → Bool) :
    SessionHandler (Except Text Unit) := do
  let s ← get
  let inTransaction := tx.isSome || s.session.sqlTxActive
  let run := execute (.statement text)
  let result ← runFirst (inTransaction || once) run
  onSession fun session => { session with sqlTxActive := track result session.sqlTxActive }
  let result ← retryingConflict result tx.isNone run
  recovering result (!inTransaction) (execute .rollback) run

def getFlightInfoStatement (txn : Option Nat) : SessionHandler Unit := do
  let s ← get
  let addHandle (tx : Option Nat) :=
    onSession fun session => session.addHandle (.query (session.handleCounter + 1)) query tx
  if isEmptyQuery query then addHandle none
  else match s.session.getOpenTxn txn with
    | none => pure ()
    | some tx => do match ← executeStatement (withLimit query) tx false (fun _ => id) with
      | .ok _ => addHandle tx
      | .error _ => pure ()

def doGetStatement (handle : StatementHandle) : SessionHandler Unit := do
  let s ← get
  match s.session.queries.find? handle with
  | none => pure ()
  | some q => match s.session.getOpenTxn q.txn with
    | none => pure ()
    | some tx =>
      if isEmptyQuery q.query then pure ()
      else do
        let _ ← executeStatement q.query tx false (fun _ => id)
        onSession fun session => session.deleteHandle handle

def doPutCommandStatementUpdate (txn : Option Nat) : SessionHandler Unit := do
  let s ← get
  match s.session.getOpenTxn txn with
  | none => pure ()
  | some tx =>
    if isEmptyQuery query then pure ()
    else do
      let _ ← executeStatement query tx (isTransactionControlStmt query) (trackSQLTransactionState query)
      pure ()

def beginTransaction : SessionHandler Unit := do
  match ← execute .beginTx with
  | .error _ => pure ()
  | .ok _ => onSession fun session =>
    { session with txns := (session.handleCounter + 1) :: session.txns, handleCounter := session.handleCounter + 1 }

def endTransaction (txn : Option Nat) (action : EndAction) : SessionHandler Unit := do
  let s ← get
  match txn with
  | none => pure ()
  | some txn =>
    if txn ∈ s.session.txns then do
      onSession fun session => session.deleteTxn txn
      let _ ← execute (.endTx (action = .commit))
      pure ()
    else pure ()

def createPreparedStatement (txn : Option Nat) : SessionHandler Unit := do
  let s ← get
  let addHandle (tx : Option Nat) :=
    onSession fun session => session.addHandle (.prep (session.handleCounter + 1)) query tx
  match s.session.getOpenTxn txn with
  | none => pure ()
  | some tx =>
    if isEmptyQuery query then addHandle tx
    else do match ← execute (.statement (withLimit query)) with
      | .ok _ => addHandle tx
      | .error _ => pure ()

def doGetPreparedStatement (handle : StatementHandle) : SessionHandler Unit := do
  let s ← get
  match s.session.queries.find? handle with
  | none => pure ()
  | some q => match s.session.getOpenTxn q.txn with
    | none => pure ()
    | some _ =>
      if isEmptyQuery q.query then pure ()
      else do
        let _ ← execute (.statement q.query)
        pure ()

def reapIdle (txn : Nat) : SessionHandler Unit := do
  let s ← get
  if txn ∈ s.session.txns then do
    let _ ← execute .rollback
    onSession fun session => session.deleteTxn txn
  else pure ()

def handle : StatementRequest → SessionHandler Unit
  | .getFlightInfoStatement query txn => getFlightInfoStatement query txn
  | .doGetStatement handle => doGetStatement handle
  | .doPutCommandStatementUpdate query txn => doPutCommandStatementUpdate query txn
  | .beginTransaction => beginTransaction
  | .endTransaction txn action => endTransaction txn action
  | .createPreparedStatement query txn => createPreparedStatement query txn
  | .closePreparedStatement handle => onSession fun session => session.deleteHandle handle
  | .doGetPreparedStatement handle => doGetPreparedStatement handle
  | .reapIdle txn => reapIdle txn

def serve (request : StatementRequest) : SessionHandler Unit := do
  let before ← get
  handle request
  modify fun s => { s with log := [], history := s.history ++ [⟨before.session, request, s.log⟩] }

def newSession : SessionState := ⟨⟨false, [], .empty, 0, false⟩, [], []⟩

end Duckgres.Worker
