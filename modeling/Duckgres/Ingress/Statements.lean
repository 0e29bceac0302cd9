import Duckgres.Execution.Inference
import Duckgres.Execution.Recovery
import Duckgres.Ingress.Sessions

/-!
# Statements of an ingress session

The requests of one Flight client on its session (server/flightsqlingress/ingress.go), one after
another, with the texts of their statements. The worker answers each call of the executor; whether a
transaction of the client is open on the worker, and which call began it, the ingress does not see.
-/

namespace Duckgres.Ingress
open Base Execution

structure StatementHandle where
  id : HandleID
  query : Text
  txn : Option Nat

structure StatementSession where
  activeTxn : Bool
  txns : List Nat
  queries : Table StatementHandle.id
  counter : Nat

inductive ExecutorCall where
  | query (text : Text)
  | exec (text : Text)
  -- `BEGIN TRANSACTION`, and `COMMIT` or `ROLLBACK`
  | begin
  | finish (action : EndTransactionAction)
  | rollback
  deriving DecidableEq

structure WorkerAnswer where
  result : Except Text Unit
  -- a transaction is open, and this call began it
  inTxn : Bool
  began : Bool

structure WorkerExecution where
  call : ExecutorCall
  inTxn : Bool
  -- the open transaction was begun by `BeginTransaction`
  flightTxn : Bool
  answer : WorkerAnswer

inductive StatementRpc where
  | getFlightInfoStatement (query : Text) (txn : Option Nat)
  | doGetStatement (handle : HandleID)
  | doPutCommandStatementUpdate (query : Text) (txn : Option Nat)
  | beginTransaction
  | endTransaction (txn : Option Nat) (action : EndTransactionAction)
  | createPreparedStatement (query : Text) (txn : Option Nat)
  | closePreparedStatement (handle : HandleID)
  | doGetPreparedStatement (handle : HandleID)

structure ServedRpc where
  before : StatementSession
  rpc : StatementRpc
  log : List WorkerExecution

structure IngressState where
  session : StatementSession
  inTxn : Bool
  flightTxn : Bool
  -- of the request that is being served
  log : List WorkerExecution
  history : List ServedRpc

abbrev IngressHandler := Stateful ExecutorCall (fun _ => WorkerAnswer) IngressState

namespace StatementSession
variable (s : StatementSession)

def hasTxn (txn : Nat) : Bool := txn ∈ s.txns

def getOpenTxn : Option Nat → Option (Option Nat)
  | none => some none
  | some txn => if s.hasTxn txn then some (some txn) else none

def addTxn : StatementSession :=
  { s with activeTxn := true, txns := (s.counter + 1) :: s.txns, counter := s.counter + 1 }

def deleteTxn (txn : Nat) : StatementSession := { s with activeTxn := false, txns := s.txns.filter (· ≠ txn) }

def addQuery (prepared : Bool) (query : Text) (txn : Option Nat) : StatementSession :=
  { s with
    counter := s.counter + 1
    queries := s.queries.upsert ⟨newHandle prepared (s.counter + 1), query, txn⟩ }

def deleteQuery (handle : HandleID) : StatementSession := { s with queries := s.queries.filter fun q => q.id ≠ handle }

end StatementSession

def IngressState.note (call : ExecutorCall) (answer : WorkerAnswer) (s : IngressState) : IngressState :=
  { s with
    inTxn := answer.inTxn
    flightTxn := answer.inTxn && if answer.began then call = .begin else s.flightTxn
    log := s.log ++ [⟨call, s.inTxn, s.flightTxn, answer⟩] }

def onSession (f : StatementSession → StatementSession) : IngressHandler Unit :=
  modify fun s => { s with session := f s.session }

def callExecutor (call : ExecutorCall) : IngressHandler (Except Text Unit) := do
  let answer ← Stateful.call IngressState.note call
  pure answer.result

def withRecoveryLocked (call : ExecutorCall) : IngressHandler (Except Text Unit) := do
  let result ← callExecutor call
  let s ← get
  recovering result (!s.session.activeTxn) (callExecutor .rollback) (callExecutor call)

-- the executor sends no empty text to the worker
def query (text : Text) : IngressHandler (Except Text Unit) :=
  if isEmptyQuery text then pure (.ok ()) else withRecoveryLocked (.query text)

def exec (text : Text) : IngressHandler (Except Text Unit) :=
  if isEmptyQuery text then pure (.ok ()) else withRecoveryLocked (.exec text)

def getQuerySchema (text : Text) : IngressHandler (Except Text Unit) :=
  if supportsLimit (trimSemicolons text).toUpper then query (withLimit text)
  else pure (.error "schema inference only supports read-only query statements".toList)

def prepare (prepared : Bool) (text : Text) (txn : Option Nat) : IngressHandler Unit := do
  let s ← get
  match s.session.getOpenTxn txn with
  | none => pure ()
  | some txn =>
    let addQuery := onSession fun session => session.addQuery prepared text txn
    if isEmptyQuery text then addQuery
    else do match ← getQuerySchema text with
      | .ok _ => addQuery
      | .error _ => pure ()

def doGetStatement (handle : HandleID) : IngressHandler Unit := do
  let s ← get
  match s.session.queries.find? handle with
  | none => pure ()
  | some q => match s.session.getOpenTxn q.txn with
    | none => pure ()
    | some _ => do match ← query q.query with
      | .ok _ => onSession fun session => session.deleteQuery handle
      | .error _ => pure ()

def doPutCommandStatementUpdate (text : Text) (txn : Option Nat) : IngressHandler Unit := do
  let s ← get
  match s.session.getOpenTxn txn with
  | none => pure ()
  | some _ => do
    let _ ← exec text
    pure ()

def beginTransaction : IngressHandler Unit := do
  let s ← get
  if s.session.activeTxn then pure ()
  else match ← withRecoveryLocked .begin with
    | .error _ => pure ()
    | .ok _ => onSession StatementSession.addTxn

def endTransaction (txn : Option Nat) (action : EndTransactionAction) : IngressHandler Unit := do
  let s ← get
  match txn with
  | none => pure ()
  | some txn =>
    if !s.session.activeTxn || !s.session.hasTxn txn then pure ()
    else match action with
      | .unspecified => do
        let _ ← callExecutor (.finish .unspecified)
        onSession fun session => session.deleteTxn txn
      | _ => do match ← withRecoveryLocked (.finish action) with
        | .error _ => pure ()
        | .ok _ => onSession fun session => session.deleteTxn txn

def doGetPreparedStatement (handle : HandleID) : IngressHandler Unit := do
  let s ← get
  match s.session.queries.find? handle with
  | none => pure ()
  | some q => match s.session.getOpenTxn q.txn with
    | none => pure ()
    | some _ => do
      let _ ← query q.query
      pure ()

def handleRpc : StatementRpc → IngressHandler Unit
  | .getFlightInfoStatement text txn => prepare false text txn
  | .doGetStatement handle => doGetStatement handle
  | .doPutCommandStatementUpdate text txn => doPutCommandStatementUpdate text txn
  | .beginTransaction => beginTransaction
  | .endTransaction txn action => endTransaction txn action
  | .createPreparedStatement text txn => prepare true text txn
  | .closePreparedStatement handle => onSession fun session => session.deleteQuery handle
  | .doGetPreparedStatement handle => doGetPreparedStatement handle

def serveRpc (rpc : StatementRpc) : IngressHandler Unit := do
  let before ← get
  handleRpc rpc
  modify fun s => { s with log := [], history := s.history ++ [⟨before.session, rpc, s.log⟩] }

def newFlightClientSession : IngressState := ⟨⟨false, [], .empty, 0⟩, false, false, [], []⟩

end Duckgres.Ingress
