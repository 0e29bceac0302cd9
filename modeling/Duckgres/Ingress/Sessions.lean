import Duckgres.Base.Calls
import Duckgres.Base.Table

/-!
# Sessions of the Flight ingress

The requests of the Flight SQL handler, as far as they use a session, beside the idle reaper
(server/flightsqlingress/ingress.go). A step is one critical section of the store's or the session's
`mu`, one access to an atomic, or the end of a statement. A session stays in the table when it has
left the map `sessions`: requests keep the pointer.
-/

namespace Duckgres.Ingress
open Base

inductive HandleID where
  | query (n : Nat)
  | prep (n : Nat)
  deriving DecidableEq

structure FlightQueryHandle where
  id : HandleID
  -- `TxnID`, a transaction's key by its number
  txn : Option Nat
  lastUsed : Int

inductive SessionPlace where
  | registered
  -- taken out of the map by the reaper, before and after `destroySessionFn`
  | reaped
  | destroyed
  -- closed, expired or replaced
  | dropped
  deriving DecidableEq

structure FlightClientSession where
  ref : Nat
  token : String
  place : SessionPlace
  lastUsed : Int
  tokenIssuedAt : Int
  expiresAt : Int
  counter : Nat
  streams : Nat
  opMu : Bool
  activeTxn : Bool
  txns : List Nat
  queries : Table FlightQueryHandle.id

inductive QueryKind where
  | empty
  | readOnly
  | other
  deriving DecidableEq

inductive EndTransactionAction where
  | commit | rollback | unspecified
  deriving DecidableEq

inductive Rpc where
  | getFlightInfoStatement (txn : Option Nat) (query : QueryKind)
  | doGetStatement (handle : HandleID)
  | doPutCommandStatementUpdate (txn : Option Nat) (query : QueryKind)
  | beginTransaction
  | endTransaction (txn : Option Nat) (action : EndTransactionAction)
  | closeSession
  | createPreparedStatement (txn : Option Nat) (query : QueryKind)
  | closePreparedStatement (handle : HandleID)
  | getFlightInfoPreparedStatement (handle : HandleID)
  | doGetPreparedStatement (handle : HandleID)
  | getFlightInfoSchemas
  | doGetDBSchemas
  | getFlightInfoTables
  | doGetTables (includeSchema : Bool)

inductive Probe where
  -- `getQuerySchema` for a new handle
  | handle (prepared : Bool) (txn : Option Nat)
  -- `loadTableSchemas` and `getQuerySchema` in the stream of `DoGetTables`
  | tables

inductive Rows where
  -- `handle` is deleted after the stream
  | query (handle : Option HandleID)
  | tables (includeSchema : Bool)

inductive Operation where
  | probe (probe : Probe)
  | update
  | beginTxn
  | endTxn (txn : Nat) (action : EndTransactionAction)
  | rows (rows : Rows)

inductive Stage where
  -- before the `touch` of `sessionFromContext`
  | found (rpc : Rpc)
  | entered (rpc : Rpc)
  | checking (rows : Option Rows) (txn : Option Nat)
  -- `query`, `exec`, `beginTransaction` or `endTransaction`, up to the end of the statement
  | touching (op : Operation)
  | locking (op : Operation)
  | running (op : Operation)
  | reading (probe : Probe)
  | adding (prepared : Bool) (txn : Option Nat)
  -- before `beginStream`
  | opened (rows : Rows)
  | streaming (rows : Rows)
  -- `DoGetTables` has closed its rows
  | listed (more : Bool)
  -- after `endStream`
  | closing (handle : Option HandleID)
  | deleting (handle : HandleID)
  | closingSession

inductive FlightStep where
  | go
  | reject
  | cancel
  | result (ok : Bool)
  | again
  | create (ok : Bool)
  | token (generated : Option String)
  -- `reconnectByToken` up to the new session
  | reconnect (expiresAt : Option Int)
  -- the map's sessions in the order of its iteration
  | order (refs : List Nat)
  | tick (duration : Nat)

def newHandle (prepared : Bool) (n : Nat) : HandleID := if prepared then .prep n else .query n

namespace FlightClientSession
variable (s : FlightClientSession)

def touch (now : Int) : FlightClientSession := { s with lastUsed := now }

def unlock : FlightClientSession := { s with opMu := false }

def hasTxn (txn : Nat) : Bool := txn ∈ s.txns

def getOpenTxn (txn : Option Nat) : Bool := txn.all s.hasTxn

def addTxn (txn : Nat) : FlightClientSession := { s with txns := txn :: s.txns }

def deleteTxn (txn : Nat) : FlightClientSession := { s with txns := s.txns.filter (· ≠ txn) }

def addQuery (prepared : Bool) (txn : Option Nat) (now : Int) : FlightClientSession :=
  { s with
    counter := s.counter + 1
    queries := s.queries.upsert ⟨newHandle prepared (s.counter + 1), txn, now⟩ }

def getQuery (handle : HandleID) (now : Int) : FlightClientSession × Option FlightQueryHandle :=
  ({ s with queries := s.queries.modify handle
              (.guarded (fun _ => true) (fun q => { q with lastUsed := now }) fun _ => rfl) },
    s.queries.find? handle)

def deleteQuery (handle : HandleID) : FlightClientSession :=
  { s with queries := s.queries.filter fun q => q.id ≠ handle }

def reapStaleHandles (now ttl : Int) : FlightClientSession :=
  if ttl ≤ 0 then s
  else { s with queries := s.queries.filter fun q => now - q.lastUsed < ttl || q.txn.any s.hasTxn }

def prepare (prepared : Bool) (txn : Option Nat) (query : QueryKind) : Option Stage :=
  if s.getOpenTxn txn then match query with
    | .empty => some (.adding prepared txn)
    | .readOnly => some (.touching (.probe (.handle prepared txn)))
    | .other => none
  else none

def lookUp (handle : HandleID) (now : Int) (rows : Option Rows) : FlightClientSession × Option Stage :=
  let (s, found) := s.getQuery handle now
  (s, found.map fun q => .checking rows q.txn)

def enter (now : Int) : Rpc → FlightClientSession × Option Stage
  | .getFlightInfoStatement txn query => (s, s.prepare false txn query)
  | .doGetStatement handle => s.lookUp handle now (some (.query (some handle)))
  | .doPutCommandStatementUpdate txn query =>
    (s, if s.getOpenTxn txn && query ≠ .empty then some (.touching .update) else none)
  | .beginTransaction => (s, some (.touching .beginTxn))
  | .endTransaction txn action => (s, txn.map fun txn => .touching (.endTxn txn action))
  | .closeSession => (s, some .closingSession)
  | .createPreparedStatement txn query => (s, s.prepare true txn query)
  | .closePreparedStatement handle => (s.deleteQuery handle, none)
  | .getFlightInfoPreparedStatement handle => s.lookUp handle now none
  | .doGetPreparedStatement handle => s.lookUp handle now (some (.query none))
  | .getFlightInfoSchemas | .getFlightInfoTables => (s, none)
  | .doGetDBSchemas => (s, some (.touching (.rows (.query none))))
  | .doGetTables includeSchema => (s, some (.touching (.rows (.tables includeSchema))))

def admits : Operation → Bool
  | .beginTxn => !s.activeTxn
  | .endTxn txn _ => s.activeTxn && s.hasTxn txn
  | _ => true

def finish (ok : Bool) : Operation → FlightClientSession × Option Stage
  | .probe probe => if ok then (s, some (.reading probe)) else (s.unlock, match probe with
    | .handle .. => none
    | .tables => some (.listed false))
  | .update => (s.unlock, none)
  | .beginTxn =>
    if ok then ({ s with counter := s.counter + 1, activeTxn := true }.addTxn (s.counter + 1) |>.unlock, none)
    else (s.unlock, none)
  | .endTxn txn action =>
    if ok || action = .unspecified then ({ s with activeTxn := false }.deleteTxn txn |>.unlock, none)
    else (s.unlock, none)
  | .rows rows => if ok then (s, some (.opened rows)) else (s.unlock, none)

def step (now : Int) : Stage → FlightStep → Option (FlightClientSession × Option Stage)
  | .found rpc, .go => some (s.touch now, some (.entered rpc))
  | .found _, .reject => some (s, none)
  | .entered rpc, .go => some (s.enter now rpc)
  | .checking rows txn, .go => some (s, if s.getOpenTxn txn then rows.map fun rows => .touching (.rows rows) else none)
  | .touching op, .go => some (s.touch now, some (.locking op))
  | .locking op, .go =>
    if s.opMu then none
    else some (if s.admits op then ({ s with opMu := true }, some (.running op)) else (s, none))
  | .running op, .result ok => some (s.finish ok op)
  | .reading (.handle prepared txn), .result ok => some (s.unlock, if ok then some (.adding prepared txn) else none)
  | .reading .tables, .result ok => some (s.unlock, some (.listed ok))
  | .adding prepared txn, .go => some (s.addQuery prepared txn now, none)
  | .opened rows, .go => some ({ s with streams := s.streams + 1 }, some (.streaming rows))
  | .streaming (.query handle), .go => some ({ s with streams := s.streams - 1 }, some (.closing handle))
  | .streaming (.tables includeSchema), .go => some (s.unlock, some (.listed includeSchema))
  | .listed true, .again => some (s, some (.touching (.probe .tables)))
  | .listed _, .go => some ({ s with streams := s.streams - 1 }, none)
  | .closing handle, .go => some (s.unlock, handle.map .deleting)
  | .deleting handle, .go => some (s.deleteQuery handle, none)
  | _, _ => none

end FlightClientSession

inductive ReapCheck where
  | handles | lastUsed | txns | streams | queries | delete

inductive FlightRequest where
  | withToken (token : String) (rpc : Rpc)
  -- without a token: `Create`
  | bootstrap (rpc : Rpc)
  | reapIdle
  | setDraining
  | close
  | clock

inductive FlightPhase where
  -- `GetByTokenContext`
  | lookup (token : String) (rpc : Rpc)
  | reconnecting (token : String) (rpc : Rpc)
  | reconnected (token : String) (lastUsed expiresAt : Int) (rpc : Rpc)
  -- `Create`, with the first or the second `GetOrCreate`
  | bootstrap (rpc : Rpc)
  | creating (rpc : Rpc) (again : Bool)
  | created (lastUsed : Int) (rpc : Rpc) (again : Bool)
  | serving (ref : Nat) (stage : Stage)
  -- `reapIdle`, on its own or in a `Create`
  | reapIdle (create : Option Rpc)
  | reaping (now : Int) (create : Option Rpc)
  | scanning (now : Int) (check : ReapCheck) (order stale : List Nat) (create : Option Rpc)
  | destroying (stale : List Nat) (create : Option Rpc)
  | setDraining
  | closing
  | ticking
  | returned

structure FlightAuthSessionStore where
  clock : Int
  mu : Bool
  sessions : Table FlightClientSession.ref
  nextRef : Nat
  idleTTL : Int
  handleIdleTTL : Int
  tokenTTL : Int
  draining : Bool

namespace FlightAuthSessionStore
variable (s : FlightAuthSessionStore)

def new (idleTTL handleIdleTTL tokenTTL now : Int) : FlightAuthSessionStore :=
  ⟨now, false, .empty, 0, idleTTL, handleIdleTTL, tokenTTL, false⟩

def locking (next : FlightAuthSessionStore × FlightPhase) : Option (FlightAuthSessionStore × FlightPhase) :=
  if s.mu then none else some next

def put (session : FlightClientSession) : FlightAuthSessionStore := { s with sessions := s.sessions.upsert session }

def registered (token : String) : Option FlightClientSession :=
  s.sessions.rows.find? fun session => session.place = .registered ∧ session.token = token

def registeredRefs : List Nat :=
  (s.sessions.rows.filter fun session => session.place = .registered).map FlightClientSession.ref

def dropping (which : FlightClientSession → Bool) : Update FlightClientSession.ref :=
  .guarded (fun session => session.place = .registered && which session)
    (fun session => { session with place := .dropped }) fun _ => rfl

def drop (token : String) : FlightAuthSessionStore :=
  { s with sessions := s.sessions.updateAll (dropping fun session => session.token = token) }

def dropAll : FlightAuthSessionStore := { s with sessions := s.sessions.updateAll (dropping fun _ => true) }

def expired (session : FlightClientSession) : Bool :=
  0 < session.expiresAt && session.expiresAt < s.clock ||
    0 < s.tokenTTL && 0 < session.tokenIssuedAt && s.tokenTTL ≤ s.clock - session.tokenIssuedAt

def register (token : String) (lastUsed tokenIssuedAt expiresAt : Int) (rpc : Rpc) :
    FlightAuthSessionStore × FlightPhase :=
  ({ s with
      sessions := s.sessions.upsert
        ⟨s.nextRef, token, .registered, lastUsed, tokenIssuedAt, expiresAt, 0, 0, false, false, [], .empty⟩
      nextRef := s.nextRef + 1 },
    .serving s.nextRef (.found rpc))

def getByToken (token : String) (rpc : Rpc) : FlightAuthSessionStore × FlightPhase :=
  match s.registered token with
  | none => (s, .reconnecting token rpc)
  | some session => if s.expired session then (s.drop token, .returned) else (s, .serving session.ref (.found rpc))

def failed (rpc : Rpc) (again : Bool) : FlightPhase := if again then .returned else .reapIdle (some rpc)

def scan (now : Int) (check : ReapCheck) (order stale : List Nat) (create : Option Rpc) :
    FlightAuthSessionStore × FlightPhase :=
  match order with
  | [] => ({ s with mu := false }, .destroying stale create)
  | ref :: rest => match s.sessions.find? ref with
    | none => (s, .scanning now .handles rest stale create)
    | some session =>
      let skip := FlightPhase.scanning now .handles rest stale create
      let go check := FlightPhase.scanning now check order stale create
      match check with
      | .handles => (s.put (session.reapStaleHandles now s.handleIdleTTL), go .lastUsed)
      | .lastUsed => (s, if now - session.lastUsed < s.idleTTL then skip else go .txns)
      | .txns => (s, if 0 < session.txns.length then skip else go .streams)
      | .streams => (s, if 0 < session.streams then skip else go .queries)
      | .queries => (s, if 0 < session.queries.rows.length then skip else go .delete)
      | .delete => (s.put { session with place := .reaped }, .scanning now .handles rest (stale ++ [ref]) create)

def destroying : Update FlightClientSession.ref :=
  .guarded (fun _ => true) (fun session => { session with place := .destroyed }) fun _ => rfl

def step : FlightPhase → FlightStep → Option (FlightAuthSessionStore × FlightPhase)
  | .lookup token rpc, .go => s.locking (s.getByToken token rpc)
  | .reconnecting token rpc, .reconnect expiresAt =>
    some (s, (expiresAt.map fun expiresAt => .reconnected token s.clock expiresAt rpc).getD .returned)
  | .reconnected token lastUsed expiresAt rpc, .go =>
    s.locking ((s.drop token).register token lastUsed lastUsed expiresAt rpc)
  | .bootstrap rpc, .go => some (s, if s.draining then .returned else .creating rpc false)
  | .creating rpc again, .create ok => some (s, if ok then .created s.clock rpc again else failed rpc again)
  | .created _ rpc again, .token none => some (s, failed rpc again)
  | .created lastUsed rpc _, .token (some token) =>
    if (s.registered token).isSome then none
    else s.locking (s.register token lastUsed s.clock (if 0 < s.tokenTTL then s.clock + s.tokenTTL else 0) rpc)
  | .serving ref .closingSession, .go =>
    (s.sessions.find? ref).bind fun session => s.locking (s.drop session.token, .returned)
  | .serving ref stage, a => (s.sessions.find? ref).bind fun session =>
    (session.step s.clock stage a).map fun (session, stage) =>
      (s.put session, (stage.map (FlightPhase.serving ref)).getD .returned)
  | .reapIdle create, .go => some (s, .reaping s.clock create)
  | .reapIdle (some rpc), .cancel => some (s, .creating rpc true)
  | .reaping now create, .order refs =>
    if refs.Perm s.registeredRefs then s.locking ({ s with mu := true }, .scanning now .handles refs [] create)
    else none
  | .scanning now check order stale create, .go => some (s.scan now check order stale create)
  | .destroying (ref :: stale) create, .go =>
    some ({ s with sessions := s.sessions.modify ref destroying }, .destroying stale create)
  | .destroying [] create, .go => some (s, (create.map fun rpc => .creating rpc true).getD .returned)
  | .setDraining, .go => some ({ s with draining := true }, .returned)
  | .closing, .go => s.locking (s.dropAll, .returned)
  | .ticking, .tick duration => some ({ s with clock := s.clock + duration }, .ticking)
  | _, _ => none

end FlightAuthSessionStore

def FlightRequest.first : FlightRequest → FlightPhase
  | .withToken token rpc => .lookup token rpc
  | .bootstrap rpc => .bootstrap rpc
  | .reapIdle => .reapIdle none
  | .setDraining => .setDraining
  | .close => .closing
  | .clock => .ticking

def ingressProgram : Program FlightAuthSessionStore FlightPhase FlightStep FlightRequest where
  start := FlightRequest.first
  step := FlightAuthSessionStore.step

abbrev IngressWorld := World FlightAuthSessionStore FlightPhase

abbrev IngressWorldStep := CallStep FlightStep FlightRequest

end Duckgres.Ingress
