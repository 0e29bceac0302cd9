import Duckgres.Admission.Store

/-!
# The connection limiter

`runtimeOrgConnectionLimiter.Acquire` (controlplane/connection_limiter.go) over the calls of the
store, each of them a transaction that nobody interrupts. A call of the store may fail before or
after it has taken effect. Between the calls other limiters use the store.
-/

namespace Duckgres.Admission
open Base Store

namespace ConnectionTables
variable (s : ConnectionTables)

def cleanupOrgConnectionRowsLocked (orgID : String) (now : Nat) : ConnectionTables :=
  { s with
    queue := s.queue.filter fun row => !row.expiredAt orgID now
    leases := (s.leases.filter fun lease => !(lease.orgID = orgID && s.ownerExpired lease)).filter
      fun lease => !(lease.orgID = orgID && s.ownerMissing now lease) }

def createOrgConnectionLease (request : OrgConnectionQueueEntry) (now : Nat) : ConnectionTables :=
  { s with
    queue := s.queue.upsert { request with grantedAt := some now }
    leases := s.leases.upsert (request.lease now)
    grants := Function.update s.grants request.requestID (s.grants request.requestID + 1) }

def tryAcquireOrgConnectionLeaseOnce (requestID : String) (maxConnections : Int) (now : Nat) :
    ConnectionTables × Option OrgConnectionLease :=
  match s.queue.find? requestID with
  | none => (s, none)
  | some row =>
    let s := s.cleanupOrgConnectionRowsLocked row.orgID now
    match s.queue.find? requestID with
    | none => (s, none)
    | some request => match s.existingOrgConnectionLease requestID with
      | some lease => (s, some lease)
      | none =>
        if request.expiresAt ≤ now ∨ request.canceledAt ≠ none ∨ request.grantedAt ≠ none then
          (s, none)
        else if ¬ s.isOrgConnectionQueueHead request now then (s, none)
        else if 0 < maxConnections ∧ maxConnections ≤ s.countActiveOrgConnectionLeases row.orgID then (s, none)
        else (s.createOrgConnectionLease request now, some (request.lease now))

def tryAcquireOrgConnectionLease (requestID : String) (maxConnections : Int) (now : Nat) :
    Except ConnectionError (ConnectionTables × Option OrgConnectionLease) :=
  if isBlank requestID then .error .requestIDRequired
  else .ok (s.tryAcquireOrgConnectionLeaseOnce requestID maxConnections now)

def enqueueOrgConnectionRequest (entry : OrgConnectionQueueEntry) (clientClock clock : Nat) :
    Except ConnectionError ConnectionTables :=
  match entryTTL entry clientClock with
  | .error e => .error e
  | .ok ttl =>
    let entry := { entry with enqueuedAt := clock, expiresAt := clock + ttl }
    if s.queue.find? entry.requestID = none then
      .ok { s with
        queue := s.queue.upsert entry
        grants := Function.update s.grants entry.requestID 0 }
    else .error .failed

def releaseOrgConnectionLease (leaseID : String) : ConnectionTables :=
  if isBlank leaseID then s
  else { s with
    queue := s.queue.filter fun row => row.requestID ≠ leaseID
    leases := s.leases.filter fun lease => lease.leaseID ≠ leaseID }

end ConnectionTables

structure Limiter where
  orgID : String
  cpInstanceID : String
  queueTTL : Nat

inductive StoreOutcome where
  | succeeds | failsBefore | failsAfter
  deriving DecidableEq

inductive AcquireError where
  | newID | enqueue | tryAcquire | tooManyConnections | cancelled
  deriving DecidableEq

inductive AcquirePhase where
  | begun
  | polling (expiresAt : Nat)
  | waiting (expiresAt : Nat)
  | leased (leaseID : String)
  | failed (e : AcquireError)
  deriving DecidableEq

structure Acquire where
  tables : ConnectionTables
  phase : AcquirePhase

inductive OtherCall where
  | enqueue (entry : OrgConnectionQueueEntry) (clientClock clock : Nat)
  | tryAcquire (requestID : String) (maxConnections : Int) (clock : Nat)
  | release (leaseID : String)
  | single (op : ConnectionOp)

inductive AcquireStep where
  | newIDFails
  -- `now` is the time of the control plane, `clock` that of the database
  | enqueue (pid : Int32) (protocol : String) (now clock : Nat) (outcome : StoreOutcome)
  | poll (now : Nat) (maxConnections : Int) (clock : Nat) (outcome : StoreOutcome)
  | timer
  | done (deadlineExceeded : Bool) (outcome : StoreOutcome)
  | other (call : OtherCall)

def ConnectionTables.perform (s : ConnectionTables) : OtherCall → ConnectionTables
  | .enqueue entry clientClock clock =>
    match s.enqueueOrgConnectionRequest entry clientClock clock with
    | .ok next => next
    | .error _ => s
  | .tryAcquire requestID maxConnections clock =>
    match s.tryAcquireOrgConnectionLease requestID maxConnections clock with
    | .ok (next, _) => next
    | .error _ => s
  | .release leaseID => s.releaseOrgConnectionLease leaseID
  | .single op => (s.single op).1

namespace Limiter
variable (l : Limiter) (requestID : String)

def entry (pid : Int32) (protocol : String) (now : Nat) : OrgConnectionQueueEntry :=
  ⟨requestID, l.orgID, l.cpInstanceID, pid, protocol, now, now + l.queueTTL, none, none⟩

variable (tables : ConnectionTables)

def cancel (outcome : StoreOutcome) : ConnectionTables :=
  if outcome = .failsBefore then tables else (tables.cancelOrgConnectionRequest requestID).1

def enqueue (pid : Int32) (protocol : String) (now clock : Nat)
    (outcome : StoreOutcome) : Acquire :=
  match tables.enqueueOrgConnectionRequest (l.entry requestID pid protocol now) now clock, outcome with
  | .error _, _ | _, .failsBefore => ⟨tables, .failed .enqueue⟩
  | .ok next, .failsAfter => ⟨next, .failed .enqueue⟩
  | .ok next, .succeeds => ⟨next, .polling (now + l.queueTTL)⟩

def poll (expiresAt now : Nat) (maxConnections : Int) (clock : Nat)
    (outcome : StoreOutcome) : Acquire :=
  if expiresAt ≤ now then ⟨cancel requestID tables outcome, .failed .tooManyConnections⟩
  else
    match tables.tryAcquireOrgConnectionLease requestID maxConnections clock, outcome with
    | .error _, _ | _, .failsBefore => ⟨tables, .failed .tryAcquire⟩
    | .ok (next, _), .failsAfter => ⟨next, .failed .tryAcquire⟩
    | .ok (next, some lease), .succeeds => ⟨next, .leased lease.leaseID⟩
    | .ok (next, none), .succeeds => ⟨next, .waiting expiresAt⟩

/-- `requestID` is the id that `newID` returns. -/
def machine : Machine Acquire AcquireStep where
  step s
    | .newIDFails => if s.phase = .begun then some ⟨s.tables, .failed .newID⟩ else none
    | .enqueue pid protocol now clock outcome =>
      if s.phase = .begun then some (l.enqueue requestID s.tables pid protocol now clock outcome)
      else none
    | .poll now maxConnections clock outcome => match s.phase with
      | .polling expiresAt => some (poll requestID s.tables expiresAt now maxConnections clock outcome)
      | _ => none
    | .timer => match s.phase with
      | .waiting expiresAt => some ⟨s.tables, .polling expiresAt⟩
      | _ => none
    | .done deadlineExceeded outcome => match s.phase with
      | .waiting _ => some ⟨cancel requestID s.tables outcome,
          .failed (if deadlineExceeded then .tooManyConnections else .cancelled)⟩
      | _ => none
    | .other call => some ⟨s.tables.perform call, s.phase⟩

end Limiter
end Duckgres.Admission
