import Duckgres.Base.Calls
import Duckgres.Base.Table

/-!
# The session manager

`SessionManager` (controlplane/session_mgr.go) with its `sessionLifecycle`
(controlplane/session_lifecycle.go). A critical section of `mu` that looks at the lifecycle is two
steps, the first of which leaves `mu` held: the lifecycle has a lock of its own, so that another call
may close it in between.
-/

namespace Duckgres.Sessions
open Base

structure ManagedSession where
  pid : Int32
  workerID : Int
  -- the session has a lease of the cluster-wide limiter
  lease : Bool

inductive WaiterOutcome where
  | granted | failed
  deriving DecidableEq

structure SessionManager where
  mu : Bool
  sessions : Table ManagedSession.pid
  byWorker : Int → List Int32
  nextPID : Int32
  limiter : Bool
  maxConnections : Int
  activeSlots : Nat
  -- waiters are numbered in the order in which they arrive
  waiters : List Nat
  nextWaiter : Nat
  -- what has been written to a waiter before its `ready` was closed
  outcomes : Nat → Option WaiterOutcome
  -- the waiters that have been granted, in this order
  grants : List Nat
  closed : Bool
  active : Nat

namespace SessionManager
variable (s : SessionManager)

def new (maxConnections : Int) (limiter : Bool) : SessionManager :=
  ⟨false, .empty, fun _ => [], 1000, limiter, maxConnections, 0, [], 0, fun _ => none, [], false, 0⟩

def hasSlot : Bool := s.maxConnections ≤ 0 || s.activeSlots < s.maxConnections

def grantWaiters : List Nat → SessionManager → SessionManager
  | [], s => s
  | waiter :: rest, s =>
    if s.hasSlot then grantWaiters rest { s with
      waiters := rest
      activeSlots := s.activeSlots + 1
      outcomes := Function.update s.outcomes waiter (some .granted)
      grants := s.grants ++ [waiter] }
    else s

/-- `closed` is what `grantWaitersLocked` has read of the lifecycle. -/
def grantWaitersLocked (closed : Bool) : SessionManager := if closed then s else grantWaiters s.waiters s

def failWaitersLocked : SessionManager :=
  { s with
    waiters := []
    outcomes := fun waiter => if waiter ∈ s.waiters then some .failed else s.outcomes waiter }

def removeWaiterLocked (waiter : Nat) : SessionManager := { s with waiters := s.waiters.erase waiter }

def removeSessionFromWorkerLocked (workerID : Int) (pid : Int32) : SessionManager :=
  { s with byWorker := Function.update s.byWorker workerID ((s.byWorker workerID).erase pid) }

def detachSessionLocked (session : ManagedSession) : SessionManager :=
  let s := { s with sessions := s.sessions.filter fun other => other.pid ≠ session.pid }
  let s := s.removeSessionFromWorkerLocked session.workerID session.pid
  { s with activeSlots := if session.lease then s.activeSlots else s.activeSlots - 1 }

def register (session : ManagedSession) : SessionManager :=
  { s with
    sessions := s.sessions.upsert session
    byWorker := Function.update s.byWorker session.workerID (s.byWorker session.workerID ++ [session.pid]) }

def sessionPIDsLocked : List Int32 := s.sessions.rows.map ManagedSession.pid

end SessionManager

inductive SessionRequest where
  -- `ReservePID` and `CreateSession` of a client connection
  | postgres
  -- `CreateSessionWithProtocol` with pid 0, or `ReconnectFlightSession`
  | flight
  | destroySession (pid : Int32)
  | onWorkerCrash (workerID : Int)
  | destroyAllSessions
  | setMaxConnections (n : Int)

inductive SessionAfter where
  | returned
  | crash (workerID : Int) (pids : List Int32)
  | drain (pids : List Int32)

inductive SessionPhase where
  | reserving
  | begun (pid : Int32)
  | checking (pid : Int32)
  | acquiring (pid : Int32)
  | leased (pid : Int32) (lease : Bool)
  | entering (pid : Int32)
  | checked (pid : Int32)
  | waiting (pid : Int32) (waiter : Nat)
  | holding (pid : Int32) (lease : Bool)
  | assigned (pid : Int32) (workerID : Int) (lease : Bool)
  | created (pid : Int32) (workerID : Int) (lease : Bool)
  | registering (pid : Int32) (workerID : Int) (lease : Bool)
  | releasing (lease : Bool)
  | ending
  | setting (n : Int)
  -- `grantWaitersLocked`, for a creation that has failed or for `SetMaxConnections`
  | granting (closed creating : Bool)
  | detaching (pid : Int32) (after : SessionAfter)
  | detached (closed : Bool) (after : SessionAfter)
  -- between `beginCleanup` and `finishCleanup`
  | cleaning (after : SessionAfter)
  | crashing (workerID : Int)
  | clearing (workerID : Int)
  | closing
  | listing
  | awaiting
  | returned

structure SessionCall where
  request : SessionRequest
  phase : SessionPhase

def SessionRequest.first : SessionRequest → SessionPhase
  | .postgres => .reserving
  | .flight => .begun 0
  | .destroySession pid => .detaching pid .returned
  | .onWorkerCrash workerID => .crashing workerID
  | .destroyAllSessions => .closing
  | .setMaxConnections n => .setting n

def SessionAfter.phase : SessionAfter → SessionPhase
  | .returned => .returned
  | .crash workerID [] => .clearing workerID
  | .crash workerID (pid :: pids) => .detaching pid (.crash workerID pids)
  | .drain [] => .closing
  | .drain (pid :: pids) => .detaching pid (.drain pids)

inductive SessionStep where
  | go
  -- the limiter's `Acquire` fails, or returns a lease, or nil
  | lease (granted : Option Bool)
  -- what `AcquireWorker` or `ReconnectFlightWorker` returns
  | worker (workerID : Option Int)
  -- whether `CreateSession` succeeds on the worker
  | session (ok : Bool)
  -- the `select` takes `ctx.Done`
  | done
  -- the map's pids in the order of its iteration
  | order (pids : List Int32)

namespace SessionManager

variable (s : SessionManager)

def locking (next : SessionManager × SessionPhase) :
    Option (SessionManager × SessionPhase) := if s.mu then none else some next

def createStep : SessionPhase → SessionStep → Option (SessionManager × SessionPhase)
  | .reserving, .go => some ({ s with nextPID := s.nextPID + 1 }, .begun (s.nextPID + 1))
  | .begun pid, .go => some (if s.closed then (s, .returned) else ({ s with active := s.active + 1 }, .checking pid))
  | .checking pid, .go =>
    s.locking (s, if s.closed then .ending else if s.limiter then .acquiring pid else .entering pid)
  | .acquiring pid, .lease (some lease) => some (s, .leased pid lease)
  | .acquiring _, .lease none => some (s, .ending)
  | .leased pid lease, .go => some (s, if s.closed then .releasing lease else .holding pid lease)
  | .entering pid, .go => s.locking (if s.closed then (s, .ending) else ({ s with mu := true }, .checked pid))
  | .checked pid, .go =>
    some (if s.hasSlot then ({ s with mu := false, activeSlots := s.activeSlots + 1 }, .holding pid false)
      else ({ s with mu := false, waiters := s.waiters ++ [s.nextWaiter], nextWaiter := s.nextWaiter + 1 },
        .waiting pid s.nextWaiter))
  | .waiting pid waiter, .go => (s.outcomes waiter).map fun
      | .granted => (s, .holding pid false)
      | .failed => (s, .ending)
  | .waiting pid waiter, .done =>
    s.locking (if s.outcomes waiter = some .granted then (s, .holding pid false)
      else (s.removeWaiterLocked waiter, .ending))
  | .holding pid lease, .worker (some workerID) => some (s, .assigned pid workerID lease)
  | .holding _ lease, .worker none => some (s, .releasing lease)
  | .assigned pid workerID lease, .session true =>
    some (if pid = 0 then ({ s with nextPID := s.nextPID + 1 }, .created (s.nextPID + 1) workerID lease)
      else (s, .created pid workerID lease))
  | .assigned _ _ lease, .session false => some (s, .releasing lease)
  | .created pid workerID lease, .go =>
    s.locking (if s.closed then (s, .releasing lease) else ({ s with mu := true }, .registering pid workerID lease))
  | .registering pid workerID lease, .go => some ({ s.register ⟨pid, workerID, lease⟩ with mu := false }, .ending)
  | .releasing true, .go => some (s, .ending)
  | .releasing false, .go =>
    s.locking ({ s with mu := true, activeSlots := s.activeSlots - 1 }, .granting s.closed true)
  | .ending, .go => some ({ s with active := s.active - 1 }, .returned)
  | _, _ => none

def removeStep : SessionPhase → SessionStep → Option (SessionManager × SessionPhase)
  | .setting n, .go => s.locking ({ s with mu := true, maxConnections := n }, .granting s.closed false)
  | .granting closed creating, .go =>
    some ({ s.grantWaitersLocked closed with mu := false }, if creating then .ending else .returned)
  | .detaching pid after, .go =>
    s.locking (match s.sessions.find? pid with
      | none => (s, after.phase)
      | some session => ({ s.detachSessionLocked session with mu := true }, .detached s.closed after))
  | .detached closed after, .go =>
    let s := s.grantWaitersLocked closed
    some ({ s with mu := false, active := s.active + 1 }, .cleaning after)
  | .cleaning after, .go => some ({ s with active := s.active - 1 }, after.phase)
  | .crashing workerID, .go => s.locking (s, (SessionAfter.crash workerID (s.byWorker workerID)).phase)
  | .clearing workerID, .go => s.locking ({ s with byWorker := Function.update s.byWorker workerID [] }, .returned)
  | .closing, .go => some ({ s with closed := true }, .listing)
  | .listing, .order pids =>
    if pids.Perm s.sessionPIDsLocked then
      s.locking (s.failWaitersLocked, if pids = [] then .awaiting else (SessionAfter.drain pids).phase)
    else none
  | .awaiting, .go => if s.active = 0 then some ({ s with closed := true }, .returned) else none
  | _, _ => none

def step (c : SessionCall) (a : SessionStep) : Option (SessionManager × SessionCall) :=
  ((s.createStep c.phase a).or (s.removeStep c.phase a)).map fun (next, phase) => (next, { c with phase := phase })

end SessionManager

def sessionProgram : Program SessionManager SessionCall SessionStep SessionRequest where
  start request := ⟨request, request.first⟩
  step := SessionManager.step

abbrev SessionWorld := World SessionManager SessionCall

abbrev SessionWorldStep := CallStep SessionStep SessionRequest

end Duckgres.Sessions
