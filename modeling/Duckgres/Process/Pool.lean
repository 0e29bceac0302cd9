import Duckgres.Base.Calls
import Duckgres.Base.Table

/-!
# The process worker pool

`FlightWorkerPool` (controlplane/worker_mgr.go) after its pre-warming. A worker stays in the table
when it has left the map `workers`: callers keep the pointer, and its process may still run.
-/

namespace Duckgres.Process
open Base

inductive Place where
  | starting
  | pooled
  -- deleted from the map, or given up by `SpawnWorker`
  | removed
  deriving DecidableEq

structure ManagedWorker where
  id : Nat
  place : Place
  -- `done` is closed
  exited : Bool
  activeSessions : Nat
  -- `none` is the zero time
  lastUsed : Option Int

namespace ManagedWorker
variable (w : ManagedWorker)

def live : Bool := w.place = .pooled && !w.exited

def idle : Bool := w.live && w.activeSessions = 0

def running : Bool := !w.exited

abbrev Change := Update ManagedWorker.id

def claim : Change := .guarded (fun _ => true) (fun w => { w with activeSessions := w.activeSessions + 1 }) fun _ => rfl

def publish : Change := .guarded (fun _ => true) (fun w => { w with place := .pooled }) fun _ => rfl

def abandon : Change := .guarded (fun _ => true) (fun w => { w with place := .removed }) fun _ => rfl

def exit : Change := .guarded (fun _ => true) (fun w => { w with exited := true }) fun _ => rfl

def remove : Change := .guarded (fun w => w.place = .pooled) (fun w => { w with place := .removed }) fun _ => rfl

def cleanDead : Change :=
  .guarded (fun w => w.place = .pooled && w.exited) (fun w => { w with place := .removed }) fun _ => rfl

def release (now : Int) (retireOnSessionEnd : Bool) : Change :=
  .guarded (fun w => w.place = .pooled)
    (fun w => if retireOnSessionEnd && w.activeSessions - 1 = 0
      then { w with activeSessions := w.activeSessions - 1, place := .removed }
      else { w with activeSessions := w.activeSessions - 1, lastUsed := some now })
    fun w => by split <;> rfl

def retireIfNoSessions : Change :=
  .guarded (fun w => w.place = .pooled)
    (fun w => if w.activeSessions - 1 = 0 then { w with activeSessions := w.activeSessions - 1, place := .removed }
      else { w with activeSessions := w.activeSessions - 1 })
    fun w => by split <;> rfl

end ManagedWorker

structure FlightWorkerPool where
  workers : Table ManagedWorker.id
  nextWorkerID : Nat
  spawning : Nat
  -- 0: no limit
  maxWorkers : Int
  minWorkers : Int
  idleTimeout : Int
  retireOnSessionEnd : Bool
  shuttingDown : Bool

inductive PoolPhase where
  | acquiring
  -- `SpawnWorker`, up to `cmd.Start`, up to the health check, after a failed one
  | starting (id : Nat)
  | started (id : Nat)
  | killing (id : Nat)
  | spawned (id : Nat)
  | failing
  | looking (id : Nat)
  | claiming (id : Nat)
  | holding (id : Nat)
  | reaping
  | retiring (id : Nat)
  | checking (id : Nat)
  | exiting (id : Nat)
  | returned

namespace FlightWorkerPool
variable (p : FlightWorkerPool)

def change (id : Nat) (u : ManagedWorker.Change) : FlightWorkerPool := { p with workers := p.workers.modify id u }

def pooled (id : Nat) : Bool := (p.workers.find? id).any fun w => w.place = .pooled

def liveWorkerCountLocked : Nat := p.spawning + p.workers.count ManagedWorker.live

def cleanDeadWorkersLocked : FlightWorkerPool := { p with workers := p.workers.updateAll ManagedWorker.cleanDead }

def isIdle (id : Nat) : Bool := (p.workers.find? id).any ManagedWorker.idle

def isLeastLoaded (id : Nat) : Bool := (p.workers.find? id).any fun w => w.live &&
  p.workers.rows.all fun other => !other.live || w.activeSessions ≤ other.activeSessions

def beginSpawn : FlightWorkerPool × PoolPhase :=
  ({ p with nextWorkerID := p.nextWorkerID + 1, spawning := p.spawning + 1 }, .starting p.nextWorkerID)

def acquireWorker (choice : Nat) : Option (FlightWorkerPool × PoolPhase) :=
  if p.shuttingDown then some (p, .returned)
  else
    let p := p.cleanDeadWorkersLocked
    if p.workers.rows.any ManagedWorker.idle then
      if p.isIdle choice then some (p.change choice ManagedWorker.claim, .holding choice) else none
    else if p.maxWorkers = 0 ∨ p.liveWorkerCountLocked < p.maxWorkers then some p.beginSpawn
    else if p.workers.rows.any ManagedWorker.live then
      if p.isLeastLoaded choice then some (p.change choice ManagedWorker.claim, .holding choice) else none
    else if 0 < p.maxWorkers ∧ p.maxWorkers ≤ p.liveWorkerCountLocked then some (p, .acquiring)
    else some p.beginSpawn

def reapFrom (now : Int) : List Nat → Int → FlightWorkerPool → FlightWorkerPool
  | [], _, p => p
  | id :: ids, idleCount, p =>
    if idleCount ≤ p.minWorkers then p
    else if (p.workers.find? id).any fun w =>
        w.activeSessions = 0 && w.lastUsed.any fun lastUsed => p.idleTimeout < now - lastUsed then
      reapFrom now ids (idleCount - 1) (p.change id ManagedWorker.remove)
    else reapFrom now ids idleCount p

def reapIdleWorkers (now : Int) (order : List Nat) : FlightWorkerPool :=
  reapFrom now order (p.workers.count ManagedWorker.idle) p

end FlightWorkerPool

inductive PoolRequest where
  -- `AcquireWorker`, and the release of the worker when the session ends
  | session
  | reapIdleWorkers
  | retireWorker (id : Nat)
  -- `HealthCheckLoop` finds the worker's process exited or unresponsive
  | healthCheck (id : Nat)
  | exit (id : Nat)

def PoolRequest.first : PoolRequest → PoolPhase
  | .session => .acquiring
  | .reapIdleWorkers => .reaping
  | .retireWorker id => .retiring id
  | .healthCheck id => .checking id
  | .exit id => .exiting id

inductive PoolStep where
  | go
  -- the worker that the loop over the map comes to
  | choose (id : Nat)
  -- whether `cmd.Start` or `waitForWorker` succeeds
  | result (ok : Bool)
  | releaseWorker (now : Int)
  | retireWorkerIfNoSessions
  -- `OnWorkerCrash` ends the session
  | crash
  | reap (now : Int) (order : List Nat)

namespace FlightWorkerPool

def step (p : FlightWorkerPool) : PoolPhase → PoolStep → Option (FlightWorkerPool × PoolPhase)
  | .acquiring, .choose id => p.acquireWorker id
  | .starting id, .result true => (p.workers.insert? ⟨id, .starting, false, 0, none⟩).map fun workers =>
    ({ p with workers := workers }, .started id)
  | .starting _, .result false => some (p, .failing)
  | .started id, .result true => some (p.change id ManagedWorker.publish, .spawned id)
  | .started id, .result false => some (p, .killing id)
  | .killing id, .go =>
    if (p.workers.find? id).any ManagedWorker.exited then some (p.change id ManagedWorker.abandon, .failing) else none
  | .spawned id, .go => some ({ p with spawning := p.spawning - 1 }, .looking id)
  | .failing, .go => some ({ p with spawning := p.spawning - 1 }, .returned)
  | .looking id, .go => some (p, if p.pooled id then .claiming id else .returned)
  | .claiming id, .go => some (p.change id ManagedWorker.claim, .holding id)
  | .holding id, .releaseWorker now => some (p.change id (ManagedWorker.release now p.retireOnSessionEnd), .returned)
  | .holding id, .retireWorkerIfNoSessions => some (p.change id ManagedWorker.retireIfNoSessions, .returned)
  | .holding id, .crash => if p.pooled id then none else some (p, .returned)
  | .reaping, .reap now order =>
    if order.Perm ((p.workers.rows.filter fun w => w.place = .pooled).map ManagedWorker.id) then
      some (p.reapIdleWorkers now order, .returned)
    else none
  | .retiring id, .go => some (p.change id ManagedWorker.remove, .returned)
  | .checking id, .go => some (p.change id ManagedWorker.remove, .returned)
  | .exiting id, .go => some (p.change id ManagedWorker.exit, .returned)
  | _, _ => none

end FlightWorkerPool

def poolProgram : Program FlightWorkerPool PoolPhase PoolStep PoolRequest where
  start := PoolRequest.first
  step := FlightWorkerPool.step

abbrev PoolWorld := World FlightWorkerPool PoolPhase

abbrev PoolWorldStep := CallStep PoolStep PoolRequest

def warmWorkers : Nat → Table ManagedWorker.id
  | 0 => .empty
  | count + 1 => (warmWorkers count).upsert ⟨count, .pooled, false, 0, none⟩

/-- `NewFlightWorkerPool` and `SpawnMinWorkers`, with the limits as the control plane passes them. -/
def prewarmed (minWorkers maxWorkers idleTimeout : Int) (retireOnSessionEnd : Bool) : FlightWorkerPool :=
  let minWorkers := if minWorkers > maxWorkers then maxWorkers else minWorkers
  ⟨warmWorkers minWorkers.toNat, minWorkers.toNat, 0, maxWorkers, minWorkers, idleTimeout, retireOnSessionEnd, false⟩

end Duckgres.Process
