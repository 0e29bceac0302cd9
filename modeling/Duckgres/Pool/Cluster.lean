import Duckgres.Pool.Retire

/-!
# Control planes deleting pods

Control planes with their worker maps on one store. Whatever a control plane does after a store call
or in a goroutine of its own is a task, run in a step of its own, so that operations of other
control planes fall in between. Every deletion is recorded with the worker's row of that moment.
-/

namespace Duckgres.Pool
open Base Store Lifecycle

inductive Task where
  -- `OrgReservedPool.ShutdownAll` after it has listed the workers
  | orgShutdown (ids : List Int)
  -- `K8sWorkerPool.ShutdownAll` at the head of its loop
  | shutdown (workers : List ManagedWorker) (preserved : List Int)
  -- ... after a successful `Drain` of the worker
  | drained (w : ManagedWorker) (workers : List ManagedWorker) (preserved : List Int)
  -- ... after the deletion of its pod
  | retireDrained (w : ManagedWorker) (workers : List ManagedWorker) (preserved : List Int)
  -- `HealthCheckLoop` on a terminated or unresponsive worker
  | unhealthy (lease : WorkerLease)
  -- ... after the lease missed the row, which is read next
  | leaseMissed (lease : WorkerLease)
  -- ... after the row was found or made lost
  | leaseLost (lease : WorkerLease)
  -- `DeleteWorkerArtifacts`
  | cleanup (request : CleanupRequest)
  -- the call of the cluster API, in `retireWorkerPod` and elsewhere
  | deletePod (workerID : Int) (podName : String)
  deriving DecidableEq

structure Deletion where
  cp : String
  workerID : Int
  podName : String
  row : Option WorkerRecord

structure Cluster where
  rows : Workers
  pools : String → K8sWorkerPool
  tasks : List (String × Task)
  deletions : List Deletion

structure Env where
  now : Nat
  reached : Bool

inductive RetireOp where
  | retireWorkerWithReason (id : Int) (reason : String)
  | retireWorkerIfNoSessionsWithReason (id : Int) (reason : String)
  | retireIfDrainingAndEmpty (id : Int)
  | reapIdleWorker (id : Int)
  | reapStuckActivatingWorker (id : Int)

def RetireOp.apply (p : K8sWorkerPool) (now : Nat) : RetireOp → K8sWorkerPool × Option Retirement
  | .retireWorkerWithReason id reason => p.retireWorkerWithReason id reason now
  | .retireWorkerIfNoSessionsWithReason id reason => p.retireWorkerIfNoSessionsWithReason id reason now
  | .retireIfDrainingAndEmpty id => p.retireIfDrainingAndEmpty id now
  | .reapIdleWorker id => p.reapIdleWorker id now
  | .reapStuckActivatingWorker id => p.reapStuckActivatingWorker id now

def poolLifecycle : Option WorkerLifecycle := some ⟨true⟩

namespace Cluster
variable (s : Cluster) (cp : String)

def setPool (p : K8sWorkerPool) : Cluster := { s with pools := Function.update s.pools cp p }

def addTask (task : Task) : Cluster := { s with tasks := (cp, task) :: s.tasks }

def delete (workerID : Int) (podName : String) : Cluster :=
  { s with deletions := ⟨cp, workerID, podName, s.rows.find? workerID⟩ :: s.deletions }

/-- `persistWorkerRecord`: fence misses and failures are logged. -/
def persistWorkerRecord (record : WorkerRecord) (env : Env) : Cluster :=
  if env.reached then { s with rows := (s.rows.upsertWorkerRecord record env.now).1 } else s

def finishRetirement (env : Env) : K8sWorkerPool × Option Retirement → Cluster
  | (p, none) => s.setPool cp p
  | (p, some r) =>
    ((s.persistWorkerRecord r.record env).setPool cp p).addTask cp (.deletePod r.record.workerID r.podName)

def lifecycleCall (c : LifecycleCall) : Cluster :=
  let transition := c.apply poolLifecycle s.rows
  { s with rows := transition.rows
           tasks := transition.cleanup.toList.map (fun request => (cp, .cleanup request)) ++ s.tasks }

def currentWorker (w : ManagedWorker) : ManagedWorker := ((s.pools cp).workers.find? w.id).getD w

def runShutdown (workers : List ManagedWorker) (preserved : List Int) (env : Env) : Cluster :=
  match workers with
  | [] =>
    let p := s.pools cp
    s.setPool cp { p with workers := p.workers.filter fun w => w.id ∈ preserved }
  | w :: rest =>
    let w := s.currentWorker cp w
    if 0 < w.activeSessions then s.addTask cp (.shutdown rest (w.id :: preserved))
    else if env.reached then
      let transition := drain poolLifecycle s.rows ⟨w.id, cp, w.ownerEpoch⟩ env.now
      if transition.outcome.transitioned then
        { s with rows := transition.rows }.addTask cp (.drained w rest preserved)
      else s.addTask cp (.shutdown rest preserved)
    else s.addTask cp (.shutdown rest preserved)

def runRetireDrained (w : ManagedWorker) (rest : List ManagedWorker) (preserved : List Int) (env : Env) : Cluster :=
  let w := s.currentWorker cp w
  if env.reached then
    let transition := retireDrained poolLifecycle s.rows ⟨w.id, cp, w.ownerEpoch⟩ retireReasonShutdown env.now
    { s with rows := transition.rows }.addTask cp (.shutdown rest preserved)
  else s.addTask cp (.shutdown rest preserved)

variable (lease : WorkerLease)

def dropLocalWorkerIfSameLease : Cluster :=
  match (s.pools cp).workerUnderLease lease with
  | none => s
  | some w => s.setPool cp ((s.pools cp).without w.id)

/-- `markWorkerLostForHealthLease` as far as its first store call. -/
def runUnhealthy (env : Env) : Cluster :=
  if lease.ownerCPInstanceID ≠ cp then s.dropLocalWorkerIfSameLease cp lease
  else if env.reached then
    let transition := markLostFromLease poolLifecycle s.rows lease retireReasonCrash env.now
    if transition.outcome.transitioned then
      { s with rows := transition.rows }.addTask cp (.leaseLost lease)
    else s.addTask cp (.leaseMissed lease)
  else s

/-- Its second part: the row says whether the lease is stale, to be retried or already lost. -/
def runLeaseMissed (env : Env) : Cluster :=
  if env.reached then
    match s.rows.find? lease.workerID with
    | none => s.dropLocalWorkerIfSameLease cp lease
    | some row =>
      if row.owner ≠ cp then s.dropLocalWorkerIfSameLease cp lease
      else if row.ownerEpoch ≠ lease.ownerEpoch then s
      else if row.state = .lost ∧ row.retireReason = retireReasonCrash then
        s.addTask cp (.leaseLost lease)
      else s.dropLocalWorkerIfSameLease cp lease
  else s

def runLeaseLost : Cluster :=
  match (s.pools cp).workerUnderLease lease with
  | none => s
  | some w => (s.setPool cp ((s.pools cp).without w.id)).addTask cp (.deletePod w.id ((s.pools cp).workerPodName w))

def runCleanup (request : CleanupRequest) : Cluster :=
  let p := s.pools cp
  let podName := match p.workers.find? request.workerID with
    | some w => p.workerPodName w
    | none => if request.podName ≠ "" then request.podName else p.podNameForWorker request.workerID
  (s.setPool cp (p.without request.workerID)).addTask cp (.deletePod request.workerID podName)

def runTask (env : Env) : Task → Cluster
  | .orgShutdown [] => s
  | .orgShutdown (id :: ids) =>
    (s.finishRetirement cp env
      ((s.pools cp).retireWorkerWithReason id retireReasonShutdown env.now)).addTask cp (.orgShutdown ids)
  | .shutdown workers preserved => s.runShutdown cp workers preserved env
  | .drained w rest preserved =>
    (s.delete cp w.id ((s.pools cp).workerPodName w)).addTask cp
      (if env.reached then .retireDrained w rest preserved else .shutdown rest preserved)
  | .retireDrained w rest preserved => s.runRetireDrained cp w rest preserved env
  | .unhealthy lease => s.runUnhealthy cp lease env
  | .leaseMissed lease => s.runLeaseMissed cp lease env
  | .leaseLost lease => s.runLeaseLost cp lease
  | .cleanup request => s.runCleanup cp request
  | .deletePod workerID podName => s.delete cp workerID podName

end Cluster

inductive ClusterStep where
  | store (op : StoreOp)
  -- any other change of a pool: spawns, claims, sessions, configuration
  | poolChange (cp : String) (p : K8sWorkerPool)
  | retire (cp : String) (op : RetireOp) (env : Env)
  | lifecycle (cp : String) (c : LifecycleCall)
  | orgShutdownAll (cp orgID : String)
  | shutdownAll (cp : String)
  | healthCheck (cp : String) (id : Int)
  -- `RetireOneMismatchedVersionWorker` once it has chosen a pod
  | retireMismatchedVersion (cp : String) (snap : WorkerSnapshot) (podName : String) (now : Nat)
  -- `cleanupOrphanedWorkerPods` on one pod, after it has read the row
  | cleanupOrphanedPod (cp : String) (workerID : Int) (podName : String)
  | task (cp : String) (task : Task) (env : Env)

def Cluster.retireMismatchedVersion (s : Cluster) (cp : String) (snap : WorkerSnapshot)
    (podName : String) (now : Nat) : Cluster :=
  let call := LifecycleCall.retireIdleVariantFromSnapshot snap retireReasonMismatchedVersion now
  if (call.apply poolLifecycle s.rows).outcome.transitioned then
    (s.lifecycleCall cp call).addTask cp (.deletePod snap.record.workerID podName)
  else s.lifecycleCall cp call

def Cluster.cleanupOrphanedPod (s : Cluster) (cp : String) (workerID : Int) (podName : String) : Cluster :=
  match s.rows.find? workerID with
  | some row =>
    if row.state = .retired ∨ row.state = .lost then s.addTask cp (.deletePod workerID podName)
    else s
  | none => s.addTask cp (.deletePod workerID podName)

def clusterMachine : Machine Cluster ClusterStep where
  step s
    | .store op => some { s with rows := (op.apply s.rows).1 }
    | .poolChange cp p => some (s.setPool cp p)
    | .retire cp op env => some (s.finishRetirement cp env (op.apply (s.pools cp) env.now))
    | .lifecycle cp c => some (s.lifecycleCall cp c)
    | .orgShutdownAll cp orgID => some (s.addTask cp (.orgShutdown ((s.pools cp).orgWorkers orgID)))
    | .shutdownAll cp => some (s.addTask cp (.shutdown (s.pools cp).workers.rows []))
    | .healthCheck cp id =>
      ((s.pools cp).workers.find? id).map fun w => s.addTask cp (.unhealthy ((s.pools cp).workerLeaseSnapshot w))
    | .retireMismatchedVersion cp snap podName now => some (s.retireMismatchedVersion cp snap podName now)
    | .cleanupOrphanedPod cp workerID podName => some (s.cleanupOrphanedPod cp workerID podName)
    | .task cp task env =>
      if (cp, task) ∈ s.tasks then
        some (Cluster.runTask { s with tasks := s.tasks.erase (cp, task) } cp env task)
      else none

end Duckgres.Pool
