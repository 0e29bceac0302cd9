import Duckgres.Lifecycle.Service
import Mathlib.Algebra.Group.Nat.Defs

/-!
# In-memory retirement

The worker map of one control plane (`K8sWorkerPool`, controlplane/k8s_pool.go) and the paths that
retire a worker from it. A path hands back the pool without the worker, the record it persists and
the pod it deletes: `markWorkerRetiredLocked` ignores the outcome of the upsert, so the deletion
follows whatever the store answers.
-/

namespace Duckgres.Pool
open Base Store Lifecycle

inductive WorkerLifecycleState where
  | idle | reserved | activating | hot | hotIdle | draining | retired
  deriving DecidableEq

/-- `Validate`: an idle worker has no organisation, a working one has one. -/
def validAssignment : WorkerLifecycleState → Option String → Bool
  | .idle, orgID => orgID.isNone
  | .retired, orgID => orgID ≠ some ""
  | _, orgID => orgID.any (· ≠ "")

structure SharedWorkerState where
  lifecycle : WorkerLifecycleState
  assignment : Option String
  valid : validAssignment lifecycle assignment = true
  deriving DecidableEq

namespace SharedWorkerState

theorem valid_retired (s : SharedWorkerState) : validAssignment .retired s.assignment = true := by
  obtain ⟨lifecycle, assignment, valid⟩ := s
  cases assignment with
  | none => rfl
  | some orgID =>
    cases lifecycle with
    | idle => cases valid
    | _ => simpa [validAssignment] using valid

/-- `Transition(WorkerLifecycleRetired, nil)`; it fails on a retired state, which then stays. -/
def retire (s : SharedWorkerState) : SharedWorkerState := ⟨.retired, s.assignment, s.valid_retired⟩

end SharedWorkerState

structure ManagedWorker where
  id : Int
  podName : String
  image : String
  done : Bool
  activeSessions : Nat
  lastUsed : Nat
  reservedAt : Nat
  sharedState : SharedWorkerState
  ownerEpoch : Int
  ownerCPInstanceID : String
  deriving DecidableEq

abbrev LocalWorkers := Table ManagedWorker.id

structure K8sWorkerPool where
  cpInstanceID : String
  workerPodNamePrefix : String
  workerImage : String
  idleTimeout : Nat
  minWorkers : Nat
  activatingTimeout : Nat
  workers : LocalWorkers

structure Retirement where
  record : WorkerRecord
  podName : String

def retireReasonCrash : String := "crash"
def retireReasonNormal : String := "normal"
def retireReasonShutdown : String := "shutdown"
def retireReasonIdleTimeout : String := "idle_timeout"
def retireReasonStuckActivating : String := "stuck_activating"
def retireReasonMismatchedVersion : String := "mismatched_version"

def defaultActivatingTimeout : Nat := 120 * 10 ^ 9

namespace K8sWorkerPool
variable (p : K8sWorkerPool)

def podNameForWorker (id : Int) : String := p.workerPodNamePrefix ++ "-" ++ toString id

variable (w : ManagedWorker)

def workerPodName : String := if w.podName ≠ "" then w.podName else p.podNameForWorker w.id

def workerOwner : String := if w.ownerCPInstanceID ≠ "" then w.ownerCPInstanceID else p.cpInstanceID

def workerRecordFor (state : WorkerState) (retireReason : String)
    (activationStartedAt : Option Nat) (now : Nat) : WorkerRecord where
  workerID := w.id
  podName := p.workerPodName w
  image := if w.image ≠ "" then w.image else p.workerImage
  state := state
  orgID := if state = .idle then "" else w.sharedState.assignment.getD ""
  ownerCPInstanceID := some (p.workerOwner w)
  ownerEpoch := w.ownerEpoch
  activationStartedAt := activationStartedAt
  lastHeartbeatAt := now
  retireReason := retireReason
  s3CredentialsExpiresAt := none
  updatedAt := 0

def markWorkerRetiredInMemory : ManagedWorker := { w with sharedState := w.sharedState.retire }

variable (id : Int)

def without : K8sWorkerPool := { p with workers := p.workers.filter fun w => w.id ≠ id }

/-- `markWorkerRetiredLocked`, the removal from the map and the arguments of `retireWorkerPod`. -/
def markWorkerRetired (reason : String) (now : Nat) : K8sWorkerPool × Option Retirement :=
  (p.without w.id, some
    { record := p.workerRecordFor (markWorkerRetiredInMemory w)
        (if reason = retireReasonCrash then .lost else .retired) reason none now
      podName := p.workerPodName w })

def retireWorkerWithReason (reason : String) (now : Nat) : K8sWorkerPool × Option Retirement :=
  match p.workers.find? id with
  | none => (p, none)
  | some w => p.markWorkerRetired w reason now

def setSessions (count : Nat) : K8sWorkerPool :=
  { p with
    workers := p.workers.modify id ⟨fun w => some { w with activeSessions := count },
      fun _ _ applied => by cases applied; rfl⟩ }

def retireWorkerIfNoSessionsWithReason (reason : String) (now : Nat) : K8sWorkerPool × Option Retirement :=
  match p.workers.find? id with
  | none => (p, none)
  | some w =>
    -- truncated subtraction is the decrement of a positive count
    let released := { w with activeSessions := w.activeSessions - 1 }
    if released.activeSessions = 0 then p.markWorkerRetired released reason now
    else (p.setSessions id released.activeSessions, none)

def retireIfDrainingAndEmpty (now : Nat) : K8sWorkerPool × Option Retirement :=
  match p.workers.find? id with
  | none => (p, none)
  | some w =>
    if 0 < w.activeSessions ∨ w.sharedState.lifecycle ≠ .draining then (p, none)
    else p.markWorkerRetired w retireReasonNormal now

def isWarmIdleWorker : Bool := w.activeSessions = 0 ∧ w.sharedState.lifecycle = .idle

/-- One round of the loop in `reapIdleWorkers`; which candidate comes first is left open. -/
def reapIdleWorker (now : Nat) : K8sWorkerPool × Option Retirement :=
  match p.workers.find? id with
  | none => (p, none)
  | some w =>
    if 0 < p.idleTimeout ∧ isWarmIdleWorker w ∧ w.lastUsed ≠ 0 ∧ w.lastUsed + p.idleTimeout < now ∧
        p.minWorkers < p.workers.count isWarmIdleWorker then
      p.markWorkerRetired w retireReasonIdleTimeout now
    else (p, none)

def stuckTimeout : Nat := if p.activatingTimeout = 0 then defaultActivatingTimeout else p.activatingTimeout

def reapStuckActivatingWorker (now : Nat) : K8sWorkerPool × Option Retirement :=
  match p.workers.find? id with
  | none => (p, none)
  | some w =>
    if w.done = false ∧
        (w.sharedState.lifecycle = .reserved ∨ w.sharedState.lifecycle = .activating) ∧
        w.reservedAt ≠ 0 ∧ w.reservedAt + p.stuckTimeout < now then
      p.markWorkerRetired w retireReasonStuckActivating now
    else (p, none)

def workerBelongsToOrg (orgID : String) (w : ManagedWorker) : Bool :=
  w.sharedState.assignment = some orgID ∧ w.sharedState.lifecycle ≠ .retired

def orgWorkers (orgID : String) : List Int := (p.workers.rows.filter (workerBelongsToOrg orgID)).map ManagedWorker.id

def workerLeaseSnapshot : WorkerLease := ⟨w.id, p.workerOwner w, w.ownerEpoch⟩

def workerUnderLease (lease : WorkerLease) : Option ManagedWorker :=
  (p.workers.find? lease.workerID).filter fun w => p.workerLeaseSnapshot w = lease

end K8sWorkerPool
end Duckgres.Pool
