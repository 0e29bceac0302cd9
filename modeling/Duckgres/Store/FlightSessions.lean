import Duckgres.Store.Operations
import Mathlib.Data.List.Sort

/-!
# Flight session records and control-plane instances

The tables `flight_session_records` and `cp_instances` (controlplane/configstore), and the list of
orphaned workers that is read from them and from the worker rows.
-/

namespace Duckgres.Store
open Base

inductive FlightSessionState where
  | active | reconnecting | expired | closed
  deriving DecidableEq

structure FlightSessionRecord where
  sessionToken : String
  username : String
  orgID : String
  workerID : Int
  ownerEpoch : Int
  cpInstanceID : String
  state : FlightSessionState
  expiresAt : Nat
  lastSeenAt : Nat
  deriving DecidableEq

abbrev FlightSessions := Table FlightSessionRecord.sessionToken

def reclaimableSessionStates : List FlightSessionState := [.active, .reconnecting]

namespace FlightSessions
variable (t : FlightSessions)

def upsertFlightSessionRecord (record : FlightSessionRecord) : FlightSessions := t.upsert record

variable (sessionToken : String)

def getFlightSessionRecord : Option FlightSessionRecord := t.find? sessionToken

def touchFlightSessionRecord (lastSeenAt : Nat) : FlightSessions :=
  t.modify sessionToken (.guarded (fun _ => true) (fun row => { row with lastSeenAt := lastSeenAt }) fun _ => rfl)

def closeFlightSessionRecord (closedAt : Nat) : FlightSessions :=
  t.modify sessionToken
    (.guarded (fun _ => true) (fun row => { row with state := .closed, lastSeenAt := closedAt }) fun _ => rfl)

def expireFlightSessionRecords (before : Nat) : FlightSessions :=
  t.updateAll
    (.guarded (fun row => row.state ≠ .expired ∧ row.state ≠ .closed ∧ row.expiresAt ≤ before)
      (fun row => { row with state := .expired }) fun _ => rfl)

def reclaimable (workerID : Int) : Bool :=
  t.rows.any fun row => row.workerID = workerID && row.state ∈ reclaimableSessionStates

end FlightSessions

inductive ControlPlaneInstanceState where
  | active | draining | expired
  deriving DecidableEq

structure ControlPlaneInstance where
  id : String
  state : ControlPlaneInstanceState
  lastHeartbeatAt : Nat
  drainingAt : Option Nat
  expiredAt : Option Nat

abbrev ControlPlanes := Table ControlPlaneInstance.id

namespace ControlPlanes
variable (t : ControlPlanes)

def upsertControlPlaneInstance (cp : ControlPlaneInstance) : ControlPlanes := t.upsert cp

def listLiveControlPlaneInstanceIDs : List String :=
  (t.rows.filter fun cp => cp.state ≠ .expired).map ControlPlaneInstance.id

def expireControlPlaneInstances (cutoff now : Nat) : ControlPlanes :=
  t.updateAll
    (.guarded (fun cp => cp.state ≠ .expired ∧ cp.lastHeartbeatAt < cutoff)
      (fun cp => { cp with state := .expired, expiredAt := some now }) fun _ => rfl)

def expireDrainingControlPlaneInstances (before now : Nat) : ControlPlanes :=
  t.updateAll
    (.guarded (fun cp => cp.state = .draining && cp.drainingAt.any (· ≤ before))
      (fun cp => { cp with state := .expired, expiredAt := some now }) fun _ => rfl)

end ControlPlanes

/-- The join with `cp_instances`: the owner has been expired, or there is none and the row's
heartbeat is stale. -/
def ownerGone (cps : ControlPlanes) (before : Nat) (row : WorkerRecord) : Bool :=
  match row.ownerCPInstanceID.bind cps.find? with
  | some cp => cp.state = .expired && cp.expiredAt.any (· ≤ before) || row.owner = "" && row.lastHeartbeatAt ≤ before
  | none => row.lastHeartbeatAt ≤ before

def listOrphanedWorkers (t : Workers) (cps : ControlPlanes) (sessions : FlightSessions)
    (before : Nat) : List WorkerRecord :=
  (t.rows.filter fun row => row.state ∈ workerActiveStates && ownerGone cps before row &&
    !sessions.reclaimable row.workerID).insertionSort fun row other => row.workerID ≤ other.workerID

theorem mem_listOrphanedWorkers {t : Workers} {cps sessions before row}
    (listed : row ∈ listOrphanedWorkers t cps sessions before) :
    row ∈ t.rows ∧ sessions.reclaimable row.workerID = false := by
  obtain ⟨member, passed⟩ := List.mem_filter.mp ((List.mem_insertionSort _).mp listed)
  rw [Bool.and_eq_true, Bool.not_eq_true'] at passed
  exact ⟨member, passed.2⟩

end Duckgres.Store
