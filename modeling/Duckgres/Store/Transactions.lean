import Duckgres.Base.Transactions
import Duckgres.Store.Operations

/-!
# Transactions under advisory locks

Slot creation and the claims of idle workers at the level of their statements. A transaction takes
its locks, makes its checks one statement after the other, each on the rows committed by then, and
writes in the step that commits it and gives its locks back. The row that a claim selects stays
locked until then, so that the choice can be made in that step; `locked` are the rows it skips. All
other operations take no advisory lock and are single steps.
-/

namespace Duckgres.Store
open Base

inductive TxCall where
  | slot (r : SlotRequest)
  | claimIdle (owner orgID image : String) (maxOrgWorkers maxGlobalWorkers : Int)
  | claimHotIdle (owner orgID : String) (maxOrgWorkers : Int)

def orgLock (orgID : String) : String := "duckgres:org:" ++ orgID

def warmTargetLock : String := "duckgres:shared-warm-target"

def globalLock : String := "duckgres:global-worker-capacity"

namespace TxCall

def orgLock? (orgID : String) : Option String := if orgID = "" then none else some (orgLock orgID)

def firstLock : TxCall → Option String
  | .slot r => match r.kind with
    | .spawning orgID _ _ => orgLock? orgID
    | _ => some warmTargetLock
  | .claimIdle _ orgID _ _ _ | .claimHotIdle _ orgID _ => orgLock? orgID

def secondLock : TxCall → Option String
  | .slot _ => some globalLock
  | _ => none

def targetReached (t : Workers) : TxCall → Bool
  | .slot r => r.targetReached t
  | .claimIdle _ orgID _ maxOrgWorkers _ =>
    Workers.orgCapReached orgID maxOrgWorkers (countActiveWorkers t fun row => row.orgID = orgID)
  | .claimHotIdle _ orgID maxOrgWorkers =>
    Workers.orgCapReached orgID maxOrgWorkers
      (countActiveWorkers t fun row => row.orgID = orgID && row.state ≠ .hotIdle)

end TxCall

inductive TxPhase where
  | begun | firstLocked | locked | targetPassed | globalPassed | numbered (workerID : Int)

structure Tx where
  call : TxCall
  phase : TxPhase

namespace Tx

def lock? (t : Tx) : Option (Option String × TxPhase) := match t.phase with
  | .begun => some (t.call.firstLock, .firstLocked)
  | .firstLocked => some (t.call.secondLock, .locked)
  | _ => none

/-- The phase after the next statement, if it reads; `some none` ends the transaction. -/
def read? (rows : Workers) (t : Tx) : Option (Option TxPhase) := match t.phase, t.call with
  | .locked, call => some (if call.targetReached rows then none else some .targetPassed)
  | .targetPassed, .slot r => some (if r.globalReached rows then none else some .globalPassed)
  | .globalPassed, .slot _ => some (some (.numbered (nextWorkerID rows)))
  | _, _ => none

def claimCandidate (rows : Workers) (u : WorkerUpdate) : Option WorkerRecord → Workers
  | none => rows
  | some row => (rows.claimRow row.workerID u).1

def write? (rows : Workers) (locked : List Int) (now : Nat) (t : Tx) :
    Option (Workers × Option Int) := match t.phase, t.call with
  | .numbered workerID, .slot r =>
    match rows.insertRow (r.record workerID now) .done with
    | (created, .done) => some (created, some workerID)
    | _ => some (rows, none)
  | .targetPassed, .claimIdle owner orgID image _ _ =>
    some (claimCandidate rows (claimIdleUpdate owner orgID now) (rows.idleCandidate image locked), none)
  | .targetPassed, .claimHotIdle owner orgID _ =>
    some (claimCandidate rows (claimHotIdleUpdate owner orgID now) (rows.hotIdleCandidate orgID locked), none)
  | _, _ => none

end Tx

structure Database where
  rows : Workers
  txs : Nat → Option Tx
  locks : Locks Int Nat
  created : List Int
  -- by worker and epoch, the organisation that the row named
  orgs : Int → Int → Option String

namespace Database
variable (s : Database)

def recordOrgs (rows : Workers) (orgs : Int → Int → Option String) (workerID epoch : Int) : Option String :=
  match rows.find? workerID with
  | some row => if row.ownerEpoch = epoch then some row.orgID else orgs workerID epoch
  | none => orgs workerID epoch

def setRows (rows : Workers) : Database := { s with rows := rows, orgs := recordOrgs rows s.orgs }

def setPhase (tx : Nat) (t : Tx) (phase : TxPhase) : Database :=
  { s with txs := Function.update s.txs tx (some { t with phase := phase }) }

def finish (tx : Nat) : Database := { s with txs := Function.update s.txs tx none, locks := s.locks.release tx }

def init (rows : Workers) : Database := ⟨rows, fun _ => none, fun _ => none, [], recordOrgs rows fun _ _ => none⟩

end Database

def StoreOp.lockFree : StoreOp → Bool
  | .claimIdleWorker .. | .claimHotIdleWorker .. | .createSpawningWorkerSlot ..
  | .createNeutralWarmWorkerSlot .. | .createNeutralWarmWorkerSlotForImage .. => false
  | _ => true

def TxCall.valid : TxCall → Bool
  | .slot r => r.invalid.isNone
  | _ => true

inductive DatabaseStep where
  | start (tx : Nat) (call : TxCall)
  | lock (tx : Nat)
  | read (tx : Nat)
  | commit (tx : Nat) (locked : List Int) (now : Nat)
  | abort (tx : Nat)
  | other (op : StoreOp)

/-- `lockKey` is the hash `advisoryLockKey`; two names may share a key. -/
def databaseMachine (lockKey : String → Int) : Machine Database DatabaseStep where
  step s
    | .start tx call => if s.txs tx = none ∧ call.valid then some (s.setPhase tx ⟨call, .begun⟩ .begun) else none
    | .lock tx => (s.txs tx).bind fun t => t.lock?.bind fun (name, phase) =>
      match name with
      | none => some (s.setPhase tx t phase)
      | some name => (s.locks.acquire tx (lockKey name)).map fun locks => { s.setPhase tx t phase with locks := locks }
    | .read tx => (s.txs tx).bind fun t => (t.read? s.rows).map fun
        | none => s.finish tx
        | some phase => s.setPhase tx t phase
    | .commit tx locked now => (s.txs tx).bind fun t => (t.write? s.rows locked now).map
        fun (rows, workerID) => { (s.setRows rows).finish tx with created := workerID.toList ++ s.created }
    | .abort tx => (s.txs tx).map fun _ => s.finish tx
    | .other op => if op.lockFree then some (s.setRows (op.apply s.rows).1) else none

end Duckgres.Store
