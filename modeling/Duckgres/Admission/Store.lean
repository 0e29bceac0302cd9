import Duckgres.Base.Transactions
import Duckgres.Store.FlightSessions
import Mathlib.Data.Prod.Lex
import Mathlib.Data.String.Basic

/-!
# Connection admission

The tables `org_connection_queue` and `org_connection_leases` and the transactions over them
(controlplane/configstore/org_connections.go), statement by statement. A request waits in the queue
of its organisation until it is at the head and the organisation has fewer leases than its limit.
-/

namespace Duckgres.Admission
open Base Store

structure OrgConnectionQueueEntry where
  requestID : String
  orgID : String
  cpInstanceID : String
  pid : Int32
  protocol : String
  enqueuedAt : Nat
  expiresAt : Nat
  grantedAt : Option Nat
  canceledAt : Option Nat

structure OrgConnectionLease where
  requestID : String
  orgID : String
  cpInstanceID : String
  pid : Int32
  protocol : String
  acquiredAt : Nat

def OrgConnectionLease.leaseID (lease : OrgConnectionLease) : String := lease.requestID

abbrev ConnectionQueue := Table OrgConnectionQueueEntry.requestID

abbrev ConnectionLeases := Table OrgConnectionLease.leaseID

structure ConnectionTables where
  queue : ConnectionQueue
  leases : ConnectionLeases
  cps : ControlPlanes
  -- by request id, how often the request has been granted since it was enqueued
  grants : String → Nat

namespace OrgConnectionQueueEntry
variable (entry : OrgConnectionQueueEntry)

def waiting : Bool := entry.grantedAt = none && entry.canceledAt = none

def pendingAt (orgID : String) (now : Nat) : Bool := entry.orgID = orgID && entry.waiting && now < entry.expiresAt

def expiredAt (orgID : String) (now : Nat) : Bool := entry.orgID = orgID && entry.waiting && entry.expiresAt ≤ now

def order : Nat ×ₗ String := toLex (entry.enqueuedAt, entry.requestID)

def lease (now : Nat) : OrgConnectionLease :=
  ⟨entry.requestID, entry.orgID, entry.cpInstanceID, entry.pid, entry.protocol, now⟩

end OrgConnectionQueueEntry

-- 5 min in ns
def missingOwnerOrgConnectionLeaseGrace : Nat := 300000000000

namespace ConnectionTables
variable (s : ConnectionTables)

def ownerExpired (lease : OrgConnectionLease) : Bool :=
  (s.cps.find? lease.cpInstanceID).any fun cp => cp.state = .expired

def ownerMissing (now : Nat) (lease : OrgConnectionLease) : Bool :=
  (s.cps.find? lease.cpInstanceID).isNone && lease.acquiredAt + missingOwnerOrgConnectionLeaseGrace ≤ now

variable (orgID : String)

def expiredRequests (now : Nat) : List String :=
  (s.queue.rows.filter (·.expiredAt orgID now)).map OrgConnectionQueueEntry.requestID

def leasesOfExpiredOwners : List String :=
  (s.leases.rows.filter fun lease => lease.orgID = orgID && s.ownerExpired lease).map OrgConnectionLease.leaseID

def leasesOfMissingOwners (now : Nat) : List String :=
  (s.leases.rows.filter fun lease => lease.orgID = orgID && s.ownerMissing now lease).map OrgConnectionLease.leaseID

def existingOrgConnectionLease (requestID : String) : Option OrgConnectionLease := s.leases.find? requestID

def orgConnectionQueueHead (now : Nat) : Option OrgConnectionQueueEntry :=
  (s.queue.rows.filter (·.pendingAt orgID now)).argmin OrgConnectionQueueEntry.order

def isOrgConnectionQueueHead (request : OrgConnectionQueueEntry) (now : Nat) : Bool :=
  (s.orgConnectionQueueHead request.orgID now).any (·.requestID = request.requestID)

def countActiveOrgConnectionLeases : Nat := s.leases.count fun lease => lease.orgID = orgID && !s.ownerExpired lease

end ConnectionTables

inductive LockKey where
  | advisory (key : Int)
  | request (requestID : String)
  | lease (leaseID : String)
  deriving DecidableEq

def orgConnectionsLock (orgID : String) : String := "duckgres:org-connections:" ++ orgID

inductive ConnectionError where
  | requestIDRequired | orgIDRequired | expiryRequired | expiryNotAfterEnqueue
  | failed

inductive ConnectionCall where
  -- `clock` is the caller's, for an entry without an enqueue time
  | enqueue (entry : OrgConnectionQueueEntry) (clock : Nat)
  | tryAcquire (requestID : String) (maxConnections : Int)
  | release (leaseID : String)

inductive ConnectionResult where
  | done
  | lease (lease : Option OrgConnectionLease)
  | error (e : ConnectionError)

inductive ConnectionPhase where
  | begun
  | found (orgID : String)
  | locked (orgID : String)
  | timed (orgID : String) (now : Nat)
  | requestsSwept (orgID : String) (now : Nat)
  | ownersSwept (orgID : String) (now : Nat)
  | cleaned (orgID : String) (now : Nat)
  | selected (request : OrgConnectionQueueEntry) (now : Nat)
  | unleased (request : OrgConnectionQueueEntry) (now : Nat)
  -- `seen`: the committed queue when its head was read
  | atHead (request : OrgConnectionQueueEntry) (now : Nat) (seen : ConnectionQueue)
  | admitted (request : OrgConnectionQueueEntry) (now : Nat) (seen : ConnectionQueue)
  | created (request : OrgConnectionQueueEntry) (now : Nat) (seen : ConnectionQueue)
  | granted (request : OrgConnectionQueueEntry) (now : Nat) (seen : ConnectionQueue)
  | ending (lease : Option OrgConnectionLease)
  -- the request has another organisation than when the lock was taken
  | retrying
  | stamped (entry : OrgConnectionQueueEntry)
  | enqueued (entry : OrgConnectionQueueEntry)
  | released
  | dequeued
  | returned (result : ConnectionResult)

structure ConnectionTx where
  call : ConnectionCall
  phase : ConnectionPhase
  queue : Pending OrgConnectionQueueEntry.requestID
  leases : Pending OrgConnectionLease.leaseID
  held : List LockKey

namespace ConnectionTx
variable (t : ConnectionTx)

def goTo (phase : ConnectionPhase) : ConnectionTx := { t with phase := phase }

def lock (key : LockKey) : ConnectionTx := { t with held := key :: t.held }

def dropRequests (requestIDs : List String) : ConnectionTx :=
  { t with queue := t.queue.drop requestIDs, held := requestIDs.map .request ++ t.held }

def dropLeases (leaseIDs : List String) : ConnectionTx :=
  { t with leases := t.leases.drop leaseIDs, held := leaseIDs.map .lease ++ t.held }

def putRequest (entry : OrgConnectionQueueEntry) : ConnectionTx :=
  { t with queue := t.queue.set entry, held := .request entry.requestID :: t.held }

def putLease (lease : OrgConnectionLease) : ConnectionTx :=
  { t with leases := t.leases.set lease, held := .lease lease.leaseID :: t.held }

def ended (phase : ConnectionPhase) : ConnectionTx := ⟨t.call, phase, .none, .none, []⟩

end ConnectionTx

def ConnectionPhase.grants (phase : ConnectionPhase) (grants : String → Nat) : String → Nat :=
  match phase with
  | .granted request _ _ => Function.update grants request.requestID (grants request.requestID + 1)
  | .enqueued entry => Function.update grants entry.requestID 0
  | _ => grants

namespace ConnectionTables
variable (s : ConnectionTables)

def view (t : ConnectionTx) : ConnectionTables :=
  ⟨t.queue.apply s.queue, t.leases.apply s.leases, s.cps, t.phase.grants s.grants⟩

def tryAcquireStatement (lockKey : String → Int) (requestID : String) (maxConnections : Int)
    (clock : Nat) (t : ConnectionTx) : Option ConnectionTx :=
  let v := s.view t
  match t.phase with
  | .begun => match v.queue.find? requestID with
    | none => some (t.goTo (.ending none))
    | some row => some (t.goTo (.found row.orgID))
  | .found orgID => some ((t.lock (.advisory (lockKey (orgConnectionsLock orgID)))).goTo (.locked orgID))
  | .locked orgID => some (t.goTo (.timed orgID clock))
  | .timed orgID now => some ((t.dropRequests (v.expiredRequests orgID now)).goTo (.requestsSwept orgID now))
  | .requestsSwept orgID now => some ((t.dropLeases (v.leasesOfExpiredOwners orgID)).goTo (.ownersSwept orgID now))
  | .ownersSwept orgID now => some ((t.dropLeases (v.leasesOfMissingOwners orgID now)).goTo (.cleaned orgID now))
  | .cleaned orgID now => match v.queue.find? requestID with
    | none => some (t.goTo (.ending none))
    | some request =>
      let t := t.lock (.request requestID)
      some (t.goTo (if request.orgID = orgID then .selected request now else .retrying))
  | .selected request now => match v.existingOrgConnectionLease requestID with
    | some lease => some (t.goTo (.ending (some lease)))
    | none =>
      if request.expiresAt ≤ now ∨ request.canceledAt ≠ none ∨ request.grantedAt ≠ none then
        some (t.goTo (.ending none))
      else some (t.goTo (.unleased request now))
  | .unleased request now =>
    some (t.goTo (if v.isOrgConnectionQueueHead request now then .atHead request now s.queue else .ending none))
  | .atHead request now seen =>
    some (t.goTo (if 0 < maxConnections ∧
        maxConnections ≤ v.countActiveOrgConnectionLeases request.orgID then .ending none
      else .admitted request now seen))
  | .admitted request now seen =>
    if v.leases.find? request.requestID = none then
      some ((t.putLease (request.lease now)).goTo (.created request now seen))
    else none
  | .created request now seen => match v.queue.find? request.requestID with
    | none => some (t.goTo (.granted request now seen))
    | some row => some ((t.putRequest { row with grantedAt := some now }).goTo (.granted request now seen))
  | _ => none

def entryTTL (entry : OrgConnectionQueueEntry) (clock : Nat) : Except ConnectionError Nat :=
  let enqueuedAt := if entry.enqueuedAt = 0 then clock else entry.enqueuedAt
  if isBlank entry.requestID then .error .requestIDRequired
  else if isBlank entry.orgID then .error .orgIDRequired
  else if entry.expiresAt = 0 then .error .expiryRequired
  else if entry.expiresAt ≤ enqueuedAt then .error .expiryNotAfterEnqueue
  else .ok (entry.expiresAt - enqueuedAt)

def enqueueStatement (entry : OrgConnectionQueueEntry) (clientClock clock : Nat) (t : ConnectionTx) :
    Option ConnectionTx :=
  match t.phase, entryTTL entry clientClock with
  | .begun, .ok ttl => some (t.goTo (.stamped { entry with enqueuedAt := clock, expiresAt := clock + ttl }))
  | .stamped entry, _ =>
    if (s.view t).queue.find? entry.requestID = none then
      some ((t.putRequest entry).goTo (.enqueued entry))
    else none
  | _, _ => none

def releaseStatement (leaseID : String) (t : ConnectionTx) : Option ConnectionTx :=
  match t.phase with
  | .begun => some ((t.dropLeases
      (((s.view t).leases.find? leaseID).toList.map OrgConnectionLease.leaseID)).goTo .released)
  | .released => some ((t.dropRequests
      (((s.view t).queue.find? leaseID).toList.map OrgConnectionQueueEntry.requestID)).goTo .dequeued)
  | _ => none

def statement (lockKey : String → Int) (t : ConnectionTx) (clock : Nat) : Option ConnectionTx :=
  match t.call with
  | .enqueue entry clientClock => s.enqueueStatement entry clientClock clock t
  | .tryAcquire requestID maxConnections => s.tryAcquireStatement lockKey requestID maxConnections clock t
  | .release leaseID => s.releaseStatement leaseID t

end ConnectionTables

def ConnectionCall.first : ConnectionCall → ConnectionPhase
  | .enqueue entry clock => match ConnectionTables.entryTTL entry clock with
    | .error e => .returned (.error e)
    | .ok _ => .begun
  | .tryAcquire requestID _ => if isBlank requestID then .returned (.error .requestIDRequired) else .begun
  | .release leaseID => if isBlank leaseID then .returned .done else .begun

def ConnectionTx.start (call : ConnectionCall) : ConnectionTx := ⟨call, call.first, .none, .none, []⟩

def ConnectionTx.finish (t : ConnectionTx) : Option ConnectionTx := match t.phase with
  | .granted request now _ => some (t.ended (.returned (.lease (some (request.lease now)))))
  | .ending lease => some (t.ended (.returned (.lease lease)))
  | .retrying => some (t.ended .begun)
  | .enqueued _ | .dequeued => some (t.ended (.returned .done))
  | _ => none

def ConnectionTx.abort (t : ConnectionTx) : Option ConnectionTx := match t.phase with
  | .returned _ => none
  | _ => some (t.ended (.returned (.error .failed)))

inductive ConnectionOp where
  | cancel (requestID : String)
  | heartbeat (cp : ControlPlaneInstance)
  | expire (cutoff now : Nat)
  | expireDraining (before now : Nat)

namespace ConnectionTables
variable (s : ConnectionTables)

def cancelOrgConnectionRequest (requestID : String) : ConnectionTables × List LockKey :=
  match s.queue.find? requestID with
  | some entry =>
    if entry.waiting ∧ ¬ isBlank requestID then
      ({ s with queue := s.queue.filter fun row => row.requestID ≠ requestID }, [.request requestID])
    else (s, [])
  | none => (s, [])

def single : ConnectionOp → ConnectionTables × List LockKey
  | .cancel requestID => s.cancelOrgConnectionRequest requestID
  | .heartbeat cp => ({ s with cps := s.cps.upsertControlPlaneInstance cp }, [])
  | .expire cutoff now => ({ s with cps := s.cps.expireControlPlaneInstances cutoff now }, [])
  | .expireDraining before now => ({ s with cps := s.cps.expireDrainingControlPlaneInstances before now }, [])

end ConnectionTables

theorem ConnectionTx.held_finish (t next : ConnectionTx) (done : t.finish = some next) : next.held = [] := by
  unfold finish at done
  split at done <;> cases done <;> rfl

theorem ConnectionTx.held_abort (t next : ConnectionTx) (done : t.abort = some next) : next.held = [] := by
  unfold abort at done
  split at done <;> cases done
  rfl

def admissions (lockKey : String → Int) :
    Transactions ConnectionTables ConnectionTx LockKey Nat ConnectionCall ConnectionOp where
  start := .start
  statement s t clock := s.statement lockKey t clock
  view := ConnectionTables.view
  finish := ConnectionTx.finish
  abort := ConnectionTx.abort
  locks := ConnectionTx.held
  single s op := some (s.single op)
  locks_start _ := rfl
  locks_finish := ConnectionTx.held_finish
  locks_abort := ConnectionTx.held_abort

abbrev ConnectionDb := Db ConnectionTables ConnectionTx LockKey

abbrev ConnectionStep := DbStep Nat ConnectionCall ConnectionOp

end Duckgres.Admission
