import Duckgres.Store.Operations

/-!
# The worker lifecycle service

`WorkerLifecycle` (controlplane/worker_lifecycle.go): transitions fenced by an observed row or by a
lease. A method makes one store call; the physical cleanup it asks for is part of its result, and
reaches `DeleteWorkerArtifacts` in a later step.
-/

namespace Duckgres.Lifecycle
open Base Store

structure WorkerSnapshot where
  record : WorkerRecord
  deriving DecidableEq

structure WorkerLease where
  workerID : Int
  ownerCPInstanceID : String
  ownerEpoch : Int
  deriving DecidableEq

inductive TransitionOutcomeReason where
  | transitioned | fenceMissState | fenceMissOwner | storeError

structure TransitionOutcome where
  transitioned : Bool
  physicalCleanupScheduled : Bool
  reason : TransitionOutcomeReason

inductive LifecycleError where
  | notConfigured
  | unsupportedTerminalState (workerID : Int) (target : WorkerState)
  | store (e : StoreError)

structure CleanupRequest where
  workerID : Int
  podName : String
  reason : String
  deriving DecidableEq

structure Transition where
  rows : Workers
  outcome : TransitionOutcome
  error : Option LifecycleError
  cleanup : Option CleanupRequest

structure WorkerLifecycle where
  cleanup : Bool

def scheduleCleanup (l : WorkerLifecycle) (workerID : Int) (podName reason : String) : Option CleanupRequest :=
  if l.cleanup then some ⟨workerID, podName, reason⟩ else none

def failed (rows : Workers) (e : LifecycleError) : Transition := ⟨rows, ⟨false, false, .storeError⟩, some e, none⟩

def missed (rows : Workers) (reason : TransitionOutcomeReason) : Transition :=
  ⟨rows, ⟨false, false, reason⟩, none, none⟩

def classifySnapshotMiss (_ : WorkerSnapshot) : TransitionOutcomeReason := .fenceMissOwner

def snapshotTransition (l : WorkerLifecycle) (snap : WorkerSnapshot) (reason : String)
    (miss : TransitionOutcomeReason) (answer : Workers × OpResult) : Transition :=
  match answer.2 with
  | .error e => failed answer.1 (.store e)
  | .changed true =>
    ⟨answer.1, ⟨true, l.cleanup, .transitioned⟩, none,
      scheduleCleanup l snap.record.workerID snap.record.podName reason⟩
  | _ => missed answer.1 miss

variable (l : Option WorkerLifecycle) (t : Workers) (snap : WorkerSnapshot)

def retireFromSnapshot (target : WorkerState) (reason : String) (now : Nat) : Transition :=
  match l with
  | none => failed t .notConfigured
  | some l =>
    if target ≠ .retired ∧ target ≠ .lost then
      failed t (.unsupportedTerminalState snap.record.workerID target)
    else snapshotTransition l snap reason (classifySnapshotMiss snap)
      (t.markWorkerTerminalIfCurrent snap.record target reason now)

def retireOrphanFromSnapshot (reason : String) (liveCPs : List String) (now : Nat) : Transition :=
  match l with
  | none => failed t .notConfigured
  | some l => snapshotTransition l snap reason (classifySnapshotMiss snap)
      (t.retireOrphanWorker snap.record reason liveCPs now)

def retireIdleVariantFromSnapshot (reason : String) (now : Nat) : Transition :=
  match l with
  | none => failed t .notConfigured
  | some l => snapshotTransition l snap reason
      (if snap.record.state ≠ .idle ∧ snap.record.state ≠ .hotIdle then .fenceMissState else classifySnapshotMiss snap)
      (t.retireIdleOrHotIdleWorker snap.record reason now)

def leaseTransition (answer : Workers × OpResult) : Transition :=
  match answer.2 with
  | .error e => failed answer.1 (.store e)
  | .changed true => ⟨answer.1, ⟨true, false, .transitioned⟩, none, none⟩
  | _ => missed answer.1 .fenceMissOwner

variable (lease : WorkerLease)

def markLostFromLease (reason : String) (now : Nat) : Transition :=
  if l.isNone then failed t .notConfigured
  else leaseTransition (t.markWorkerLostIfCurrentLease lease.workerID lease.ownerCPInstanceID
    lease.ownerEpoch reason now)

def drain (now : Nat) : Transition :=
  if l.isNone then failed t .notConfigured
  else leaseTransition (t.markWorkerDraining lease.workerID lease.ownerCPInstanceID lease.ownerEpoch now)

def retireDrained (reason : String) (now : Nat) : Transition :=
  if l.isNone then failed t .notConfigured
  else leaseTransition (t.retireDrainingWorker lease.workerID lease.ownerCPInstanceID lease.ownerEpoch reason now)

inductive LifecycleCall where
  | retireFromSnapshot (snap : WorkerSnapshot) (target : WorkerState) (reason : String) (now : Nat)
  | retireOrphanFromSnapshot (snap : WorkerSnapshot) (reason : String) (liveCPs : List String) (now : Nat)
  | retireIdleVariantFromSnapshot (snap : WorkerSnapshot) (reason : String) (now : Nat)
  | markLostFromLease (lease : WorkerLease) (reason : String) (now : Nat)
  | drain (lease : WorkerLease) (now : Nat)
  | retireDrained (lease : WorkerLease) (reason : String) (now : Nat)

def LifecycleCall.apply : LifecycleCall → Transition
  | .retireFromSnapshot snap target reason now => Lifecycle.retireFromSnapshot l t snap target reason now
  | .retireOrphanFromSnapshot snap reason liveCPs now => Lifecycle.retireOrphanFromSnapshot l t snap reason liveCPs now
  | .retireIdleVariantFromSnapshot snap reason now => Lifecycle.retireIdleVariantFromSnapshot l t snap reason now
  | .markLostFromLease lease reason now => Lifecycle.markLostFromLease l t lease reason now
  | .drain lease now => Lifecycle.drain l t lease now
  | .retireDrained lease reason now => Lifecycle.retireDrained l t lease reason now

structure ServiceState where
  rows : Workers
  requested : List CleanupRequest
  scheduled : List CleanupRequest

inductive ServiceStep where
  | store (op : StoreOp)
  | call (l : Option WorkerLifecycle) (c : LifecycleCall)
  | schedule (request : CleanupRequest)

def serviceMachine : Machine ServiceState ServiceStep where
  step s
    | .store op => some { s with rows := (op.apply s.rows).1 }
    | .call l c =>
      let transition := c.apply l s.rows
      some { s with rows := transition.rows
                    requested := transition.cleanup.toList ++ s.requested }
    | .schedule request =>
      if request ∈ s.requested then
        some { s with requested := s.requested.erase request
                      scheduled := request :: s.scheduled }
      else none

end Duckgres.Lifecycle
