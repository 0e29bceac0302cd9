import Duckgres.Base.Calls
import Duckgres.Lifecycle.Service
import Duckgres.Store.FlightSessions

/-!
# Durable Flight sessions

The session records of the Flight ingress (server/flightsqlingress/ingress.go, with its provider in
controlplane/flight_ingress.go): `persistSession` and `reconnectByToken` on any number of control
planes, beside the janitor's orphan sweep (controlplane/janitor.go) and what else the control planes
do to the worker rows. Every statement of the store is a step.
-/

namespace Duckgres.Flight
open Base Store Lifecycle

/-- A `flightClientSession`, with the organisation and the worker that its provider has for it.
There is no expiry where the session has no token TTL. -/
structure ClientSession where
  token : String
  username : String
  orgID : String
  workerID : Int
  expiresAt : Option Nat
  deriving DecidableEq

/-- `time.Unix(0, 0)` in nanoseconds after Go's zero time. -/
def unixEpoch : Nat := 62135596800000000000

structure DurableState where
  rows : Workers
  sessions : FlightSessions
  instances : ControlPlanes
  held : String → Int → Option Int

inductive DurablePhase where
  -- the end of `GetOrCreate` and of `reconnectByToken`
  | creating (session : ClientSession)
  | upserting (record : FlightSessionRecord)
  | loading (token : String)
  | connecting (record : FlightSessionRecord)
  | closing (token : String)
  | returned (ok : Bool)
  | listing (before : Nat)
  | retiring (pending : List WorkerSnapshot)
  -- whatever else happens to the tables
  | environment
  deriving DecidableEq

inductive DurableStep where
  | create (ok : Bool) (now : Nat)
  | upsert (reached : Bool)
  | load (now : Nat) (reached : Bool)
  | connect (image : String) (now : Nat) (reached : Bool)
  | close (now : Nat) (reached : Bool)
  | list (reached : Bool)
  | retire (now : Nat) (reached : Bool)
  | store (cp : String) (op : StoreOp)
  | refresh (cp : String) (id : Int) (now : Nat)
  | touch (token : String) (now : Nat)
  | closeSession (token : String) (now : Nat)
  | expireSessions (before : Nat)
  | heartbeat (cp : ControlPlaneInstance)
  | expireInstances (cutoff now : Nat)
  | expireDraining (before now : Nat)

structure DurableCall where
  cp : String
  phase : DurablePhase

inductive DurableRequest where
  | getOrCreate (cp : String) (session : ClientSession)
  | reconnectByToken (cp token : String)
  | sweep (cp : String) (before : Nat)
  | environment

def janitorLifecycle : Option WorkerLifecycle := some ⟨true⟩

def janitorRetireReasonOrphaned : String := "orphaned"

namespace DurableState
variable (s : DurableState) (cp : String)

def grant (id epoch : Int) : DurableState :=
  { s with held := Function.update s.held cp (Function.update (s.held cp) id (some epoch)) }

def durableRecord (session : ClientSession) (epoch : Int) (now : Nat) : FlightSessionRecord where
  sessionToken := session.token
  username := session.username
  orgID := session.orgID
  workerID := session.workerID
  ownerEpoch := epoch
  cpInstanceID := cp
  state := .active
  expiresAt := session.expiresAt.getD unixEpoch
  lastSeenAt := now

/-- `persistSession` as far as `DurableSessionMetadata`. `ok` says that the session has been
created. -/
def create (session : ClientSession) (ok : Bool) (now : Nat) : DurablePhase :=
  if !ok then .returned false
  else match s.held cp session.workerID with
    | some epoch => .upserting (durableRecord cp session epoch now)
    | none => .returned true

def load (token : String) (now : Nat) (reached : Bool) : DurablePhase :=
  if !reached then .returned false
  else match s.sessions.getFlightSessionRecord token with
    | none => .returned false
    | some record =>
      if record.state ≠ .active then .returned false
      else if record.expiresAt ≠ 0 ∧ record.expiresAt < now then .closing token
      else .connecting record

def reconnected (record : FlightSessionRecord) : ClientSession where
  token := record.sessionToken
  username := record.username
  orgID := record.orgID
  workerID := record.workerID
  expiresAt := if record.expiresAt ≠ 0 then some record.expiresAt else none

/-- `ReconnectSession` as far as `claimSpecificWorker` has the row; `image` is the image that the
organisation's pool asks for. -/
def connect (record : FlightSessionRecord) (image : String) (now : Nat) (reached : Bool) :
    DurableState × DurablePhase :=
  if !reached then (s, .returned false)
  else match s.rows.takeOverWorker record.workerID cp record.orgID record.ownerEpoch now with
    | (rows, .claimed row) =>
      if image ≠ "" ∧ row.image ≠ image then ({ s with rows := rows }, .returned false)
      else
        ({ s with rows := rows }.grant cp row.workerID row.ownerEpoch, .creating (reconnected record))
    -- `MarkDurableReconnectTerminal`
    | (_, .error .ownerEpochMismatch) => (s, .closing record.sessionToken)
    | _ => (s, .returned false)

def list (before : Nat) (reached : Bool) : DurablePhase :=
  if reached then .retiring ((listOrphanedWorkers s.rows s.instances s.sessions before).map .mk)
  else .returned false

def retire (snap : WorkerSnapshot) (now : Nat) (reached : Bool) : DurableState :=
  if reached then
    { s with
      rows := (retireOrphanFromSnapshot janitorLifecycle s.rows snap janitorRetireReasonOrphaned
        s.instances.listLiveControlPlaneInstanceIDs now).rows }
  else s

/-- The operations of a control plane that are not steps of their own. Its upserts carry an epoch
that its worker has, or has had, in memory. -/
def allows : StoreOp → Bool
  | .upsertWorkerRecord record _ => record.owner = cp &&
      ((s.rows.find? record.workerID).isNone || (s.held cp record.workerID).any (record.ownerEpoch ≤ ·))
  | .claimIdleWorker owner .. | .claimHotIdleWorker owner .. | .createSpawningWorkerSlot owner ..
  | .createNeutralWarmWorkerSlot owner .. | .createNeutralWarmWorkerSlotForImage owner .. => owner = cp
  | .takeOverWorker .. | .bumpWorkerEpoch .. | .retireOrphanWorker .. => false
  | _ => true

def granted (op : StoreOp) (answer : OpResult) : Option (Int × Int) := match op, answer with
  | _, .claimed row | _, .created row => some (row.workerID, row.ownerEpoch)
  | .upsertWorkerRecord record _, .done =>
    if (s.rows.find? record.workerID).isNone then some (record.workerID, record.ownerEpoch)
    else none
  | _, _ => none

def perform (op : StoreOp) : DurableState :=
  let next := { s with rows := (op.apply s.rows).1 }
  match s.granted op (op.apply s.rows).2 with
  | some (id, epoch) => next.grant cp id epoch
  | none => next

/-- `RefreshCredentials` as far as the epoch: `RefreshOwnerEpochAtomic` around `RefreshLease`. -/
def refresh (id : Int) (now : Nat) : DurableState :=
  match s.held cp id with
  | none => s
  | some held => match s.rows.bumpWorkerEpoch id cp held now with
    | (rows, .newEpoch epoch) => { s with rows := rows }.grant cp id epoch
    | _ => s

def next : DurablePhase → DurableStep → Option (DurableState × DurablePhase)
  | .creating session, .create ok now => some (s, s.create cp session ok now)
  | .upserting record, .upsert reached =>
    some (if reached then
      { s with sessions := s.sessions.upsertFlightSessionRecord record } else s, .returned true)
  | .loading token, .load now reached => some (s, s.load token now reached)
  | .connecting record, .connect image now reached => some (s.connect cp record image now reached)
  | .closing token, .close now reached =>
    some (if reached then
      { s with sessions := s.sessions.closeFlightSessionRecord token now } else s, .returned false)
  | .listing before, .list reached => some (s, s.list before reached)
  | .retiring (snap :: pending), .retire now reached => some (s.retire snap now reached, .retiring pending)
  | .environment, .store owner op => if s.allows owner op then some (s.perform owner op, .environment) else none
  | .environment, .refresh owner id now => some (s.refresh owner id now, .environment)
  | .environment, .touch token now =>
    some ({ s with sessions := s.sessions.touchFlightSessionRecord token now }, .environment)
  | .environment, .closeSession token now =>
    some ({ s with sessions := s.sessions.closeFlightSessionRecord token now }, .environment)
  | .environment, .expireSessions before =>
    some ({ s with sessions := s.sessions.expireFlightSessionRecords before }, .environment)
  | .environment, .heartbeat plane =>
    some ({ s with instances := s.instances.upsertControlPlaneInstance plane }, .environment)
  | .environment, .expireInstances cutoff now =>
    some ({ s with instances := s.instances.expireControlPlaneInstances cutoff now }, .environment)
  | .environment, .expireDraining before now =>
    some ({ s with instances := s.instances.expireDrainingControlPlaneInstances before now }, .environment)
  | _, _ => none

end DurableState

def durableProgram : Program DurableState DurableCall DurableStep DurableRequest where
  start
    | .getOrCreate cp session => ⟨cp, .creating session⟩
    | .reconnectByToken cp token => ⟨cp, .loading token⟩
    | .sweep cp before => ⟨cp, .listing before⟩
    | .environment => ⟨"", .environment⟩
  step s c a := (s.next c.cp c.phase a).map fun (state, phase) => (state, ⟨c.cp, phase⟩)

abbrev DurableWorld := World DurableState DurableCall

def DurableState.EpochsKnown (s : DurableState) : Prop :=
  ∀ cp id epoch, s.held cp id = some epoch → ∃ row, s.rows.find? id = some row ∧ epoch ≤ row.ownerEpoch

def DurableState.ServesFor (s : DurableState) (cp : String) (id : Int) : Prop :=
  ∃ row, s.rows.find? id = some row ∧ row.state = .hot ∧ row.ownerCPInstanceID = some cp

def RecordsSession (token : String) (w : DurableWorld) : CallStep DurableStep DurableRequest → Prop
  | .advance call (.upsert true) => ∃ cp record, w.calls call = some ⟨cp, .upserting record⟩ ∧
      record.sessionToken = token
  | _ => False

/-- Since a session was recorded: its worker is hot and not owned by another control plane, and the
step does not record the session again. -/
def StillServing (cp : String) (record : FlightSessionRecord) (w : DurableWorld)
    (step : CallStep DurableStep DurableRequest) : Prop :=
  w.shared.ServesFor cp record.workerID ∧ ¬ RecordsSession record.sessionToken w step

def DurableState.Renews (s : DurableState) (id : Int) (step : DurableStep) : Prop :=
  ∃ cp now epoch, step = .refresh cp id now ∧ s.held cp id = some epoch ∧
    s.rows.affects id (bumpUpdate cp epoch now) = true

def RefreshesWorker (id : Int) (w : DurableWorld) : CallStep DurableStep DurableRequest → Prop
  | .advance call step => ∃ c, w.calls call = some c ∧ c.phase = .environment ∧ w.shared.Renews id step
  | _ => False

/-- A session record is not written for a worker that a sweep has listed, at the epoch that its row
still has, and has not come to. -/
def NotListed (w : DurableWorld) : CallStep DurableStep DurableRequest → Prop
  | .advance call (.upsert true) => ∀ c record, w.calls call = some c →
      c.phase = .upserting record → ∀ sweep d pending snap row, w.calls sweep = some d →
        d.phase = .retiring pending → snap ∈ pending → snap.record.workerID = record.workerID →
        w.shared.rows.find? record.workerID = some row → row.ownerEpoch ≠ snap.record.ownerEpoch
  | _ => True

end Duckgres.Flight
