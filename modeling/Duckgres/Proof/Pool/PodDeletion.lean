import Duckgres.Pool.Cluster
import Duckgres.Proof.Lifecycle.Snapshot

namespace Duckgres.Proof.Pool
open Base Duckgres.Store Duckgres.Lifecycle Duckgres.Pool Option List
open Duckgres.Proof.Store Duckgres.Proof.Lifecycle

variable {s next : Cluster} {t later : Workers} {cp : String} {env : Env}

def Condemned (rows : Workers) (workerID : Int) : Prop :=
  ∃ row, rows.find? workerID = some row ∧ row.state ∈ protectedStates

def Deletion.Fenced (d : Deletion) : Prop := ∃ row, d.row = some row ∧ row.state ∈ protectedStates

def retirement? (s : Cluster) : ClusterStep → Option (Retirement × Env)
  | .retire cp op env => (op.apply (s.pools cp) env.now).2.map (·, env)
  | .task cp (.orgShutdown (id :: _)) env =>
    ((s.pools cp).retireWorkerWithReason id retireReasonShutdown env.now).2.map (·, env)
  | _ => none

def Lands (rows : Workers) (r : Retirement) (env : Env) : Prop :=
  Condemned rows r.record.workerID ∨ env.reached = true ∧ (rows.upsertWorkerRecord r.record env.now).2 = .done

def RetirementsLand (s : Cluster) (a : ClusterStep) : Prop :=
  (∀ r env, retirement? s a = some (r, env) → Lands s.rows r env) ∧
  (∀ cp workerID podName, a = .cleanupOrphanedPod cp workerID podName → (s.rows.find? workerID).isSome)

variable {workerID : Int} {p : K8sWorkerPool} {now : Nat} {r : Retirement}

theorem Condemned.settle (condemned : Condemned t workerID)
    (settle : RowsSettle t later) : Condemned later workerID := by
  obtain ⟨row, hf, hl⟩ := condemned
  obtain ⟨last, lastFound, settles⟩ := settle workerID row hf
  exact ⟨last, lastFound, settles.held hl⟩

theorem condemned_of_transitioned {l c} (done : (c.apply l t).outcome.transitioned = true) :
    Condemned (c.apply l t).rows (callWorker c) := by
  obtain ⟨-, row, -, -, hf, hre, hl⟩ := transitioned_row done
  exact ⟨row, hf, by rw [hre]; exact hl⟩

theorem upsert_cases (record : WorkerRecord) (now : Nat) : ((t.upsertWorkerRecord record now).2 = .done ∧
        ∃ row, (t.upsertWorkerRecord record now).1.find? record.workerID = some row ∧ row.state = record.state) ∨
      (t.upsertWorkerRecord record now).2 ≠ .done ∧ (t.upsertWorkerRecord record now).1 = t := by
  rcases upsertWorkerRecord_cases record now with ⟨next, hi, result⟩ | ⟨old, next, hf, hap, result⟩ | ⟨error, result⟩
  · rw [result]
    exact .inl ⟨rfl, Workers.stamped record now, Table.find?_insert hi, rfl⟩
  · rw [result]
    refine .inl ⟨rfl, next, Table.find?_modify_of_apply hf hap, ?_⟩
    obtain ⟨-, rfl⟩ := Update.guarded_apply.mp hap
    rfl
  · rw [result]
    exact .inr ⟨by simp, rfl⟩

theorem markWorkerRetired_state {w reason} (retired : (p.markWorkerRetired w reason now).2 = some r) :
    r.record.state ∈ protectedStates := by
  cases retired
  simp only [K8sWorkerPool.workerRecordFor]
  split <;> decide

theorem retireWorkerWithReason_state {id reason} (retired : (p.retireWorkerWithReason id reason now).2 = some r) :
    r.record.state ∈ protectedStates := by
  unfold K8sWorkerPool.retireWorkerWithReason at retired
  split at retired
  · cases retired
  · exact markWorkerRetired_state retired

theorem retireOp_state {op : RetireOp} (retired : (op.apply p now).2 = some r) : r.record.state ∈ protectedStates := by
  cases op with
  | retireWorkerWithReason => exact retireWorkerWithReason_state retired
  | retireIfDrainingAndEmpty =>
    simp only [RetireOp.apply, K8sWorkerPool.retireIfDrainingAndEmpty] at retired
    split at retired
    · cases retired
    · split at retired
      · cases retired
      · exact markWorkerRetired_state retired
  | retireWorkerIfNoSessionsWithReason | reapIdleWorker | reapStuckActivatingWorker =>
    simp only [RetireOp.apply, K8sWorkerPool.retireWorkerIfNoSessionsWithReason,
      K8sWorkerPool.reapIdleWorker, K8sWorkerPool.reapStuckActivatingWorker] at retired
    split at retired
    · cases retired
    · split at retired
      · exact markWorkerRetired_state retired
      · cases retired

theorem rowsSettle_persist (record : WorkerRecord) (env : Env) :
    RowsSettle s.rows (s.persistWorkerRecord record env).rows := by
  unfold Cluster.persistWorkerRecord
  split
  · exact .apply (.upsertWorkerRecord record env.now)
  · exact RowsSettle.refl _

theorem Lands.condemned (lands : Lands s.rows r env) (terminal : r.record.state ∈ protectedStates) :
    Condemned (s.persistWorkerRecord r.record env).rows r.record.workerID := by
  -- a condemned row stays condemned whether or not the upsert passes its fence
  rcases lands with already | ⟨hre, done⟩
  · exact already.settle (rowsSettle_persist r.record env)
  unfold Cluster.persistWorkerRecord
  rw [if_pos hre]
  rcases upsert_cases r.record env.now with ⟨-, row, hf, hs⟩ | ⟨hfa, -⟩
  · exact ⟨row, hf, by rwa [hs]⟩
  · exact absurd done hfa

theorem not_condemned_of_not_lands (missed : ¬ Lands s.rows r env) :
    ¬ Condemned (s.persistWorkerRecord r.record env).rows r.record.workerID := by
  obtain ⟨notCondemned, notDone⟩ := not_or.mp missed
  unfold Cluster.persistWorkerRecord
  split
  · rename_i hre
    rcases upsert_cases r.record env.now with ⟨done, -⟩ | ⟨-, unchanged⟩
    · exact absurd ⟨hre, done⟩ notDone
    · rwa [unchanged]
  · exact notCondemned

def Task.Safe (rows : Workers) : Task → Prop
  | .drained w _ _ => Condemned rows w.id
  | .leaseLost lease => Condemned rows lease.workerID
  | .cleanup request => Condemned rows request.workerID
  | .deletePod workerID _ => Condemned rows workerID
  | _ => True

structure PodsFenced (s : Cluster) : Prop where
  tasks : ∀ entry ∈ s.tasks, Task.Safe s.rows entry.2
  deletions : ∀ d ∈ s.deletions, Deletion.Fenced d

variable {task : Task}

theorem Task.Safe.settle (safe : Task.Safe t task) (settle : RowsSettle t later) : Task.Safe later task := by
  cases task with
  | drained | leaseLost | cleanup | deletePod => exact Condemned.settle safe settle
  | _ => trivial

section
variable (cp) (fenced : PodsFenced s)
include fenced

theorem PodsFenced.rows (settle : RowsSettle s.rows later) : PodsFenced { s with rows := later } :=
  ⟨fun entry hm => (fenced.tasks entry hm).settle settle, fenced.deletions⟩

theorem PodsFenced.setPool (p : K8sWorkerPool) : PodsFenced (s.setPool cp p) := ⟨fenced.tasks, fenced.deletions⟩

theorem PodsFenced.addTask (safe : Task.Safe s.rows task) : PodsFenced (s.addTask cp task) := by
  refine ⟨fun entry hm => ?_, fenced.deletions⟩
  rcases mem_cons.mp hm with rfl | old
  · exact safe
  · exact fenced.tasks entry old

theorem PodsFenced.erase (entry : String × Task) : PodsFenced { s with tasks := s.tasks.erase entry } :=
  ⟨fun other hm => fenced.tasks other (mem_of_mem_erase hm), fenced.deletions⟩

theorem PodsFenced.delete (podName : String)
    (condemned : Condemned s.rows workerID) : PodsFenced (s.delete cp workerID podName) := by
  refine ⟨fenced.tasks, fun d hm => ?_⟩
  rcases mem_cons.mp hm with rfl | old
  · exact condemned
  · exact fenced.deletions d old

variable {result : K8sWorkerPool × Option Retirement}

theorem PodsFenced.finishRetirement (env : Env) (terminal : ∀ r, result.2 = some r → r.record.state ∈ protectedStates)
    (lands : ∀ r, result.2 = some r → Lands s.rows r env) :
    PodsFenced (s.finishRetirement cp env result) := by
  obtain ⟨p, _ | r⟩ := result
  · exact fenced.setPool cp p
  have persisted : PodsFenced (s.persistWorkerRecord r.record env) := by
    unfold Cluster.persistWorkerRecord
    split
    · exact fenced.rows (.apply (.upsertWorkerRecord r.record env.now))
    · exact fenced
  exact (persisted.setPool cp p).addTask cp ((lands r rfl).condemned (terminal r rfl))

theorem PodsFenced.lifecycleCall (c : LifecycleCall) : PodsFenced (s.lifecycleCall cp c) := by
  have hd := fenced.rows (rowsSettle_call poolLifecycle c)
  refine ⟨fun entry hm => ?_, fenced.deletions⟩
  rcases mem_append.mp hm with new | old
  · obtain ⟨request, asked, rfl⟩ := mem_map.mp new
    obtain ⟨done, hs, -⟩ := call_cleanup (mem_toList.mp asked)
    have condemned := condemned_of_transitioned done
    rwa [← hs] at condemned
  · exact hd.tasks entry old

theorem PodsFenced.dropLocalWorker (lease : WorkerLease) : PodsFenced (s.dropLocalWorkerIfSameLease cp lease) := by
  unfold Cluster.dropLocalWorkerIfSameLease
  split
  · exact fenced
  · exact fenced.setPool cp _

theorem PodsFenced.runShutdown (workers : List ManagedWorker)
    (preserved : List Int) (env : Env) : PodsFenced (s.runShutdown cp workers preserved env) := by
  cases workers with
  | nil => exact fenced.setPool cp _
  | cons w rest =>
    simp only [Cluster.runShutdown]
    generalize s.currentWorker cp w = current
    split
    · exact fenced.addTask cp trivial
    split
    · split
      · rename_i done
        have hd := fenced.rows (rowsSettle_call poolLifecycle (.drain ⟨current.id, cp, current.ownerEpoch⟩ env.now))
        exact hd.addTask cp (condemned_of_transitioned done)
      · exact fenced.addTask cp trivial
    · exact fenced.addTask cp trivial

theorem PodsFenced.runRetireDrained (w : ManagedWorker) (rest : List ManagedWorker) (preserved : List Int) (env : Env) :
    PodsFenced (s.runRetireDrained cp w rest preserved env) := by
  simp only [Cluster.runRetireDrained]
  generalize s.currentWorker cp w = current
  split
  · have hd := fenced.rows (rowsSettle_call poolLifecycle
      (.retireDrained ⟨current.id, cp, current.ownerEpoch⟩ retireReasonShutdown env.now))
    exact hd.addTask cp trivial
  · exact fenced.addTask cp trivial

theorem PodsFenced.runUnhealthy (lease : WorkerLease) (env : Env) : PodsFenced (s.runUnhealthy cp lease env) := by
  simp only [Cluster.runUnhealthy]
  split
  · exact fenced.dropLocalWorker cp lease
  split
  · split
    · rename_i done
      have hd := fenced.rows (rowsSettle_call poolLifecycle (.markLostFromLease lease retireReasonCrash env.now))
      exact hd.addTask cp (condemned_of_transitioned done)
    · exact fenced.addTask cp trivial
  · exact fenced

theorem PodsFenced.runLeaseMissed (lease : WorkerLease) (env : Env) : PodsFenced (s.runLeaseMissed cp lease env) := by
  unfold Cluster.runLeaseMissed
  split
  · split
    · exact fenced.dropLocalWorker cp lease
    · rename_i row hf
      split
      · exact fenced.dropLocalWorker cp lease
      split
      · exact fenced
      · split
        · rename_i lost
          exact fenced.addTask cp ⟨row, hf, by rw [lost.1]; decide⟩
        · exact fenced.dropLocalWorker cp lease
  · exact fenced

theorem PodsFenced.runLeaseLost {lease}
    (condemned : Condemned s.rows lease.workerID) : PodsFenced (s.runLeaseLost cp lease) := by
  unfold Cluster.runLeaseLost
  split
  · exact fenced
  rename_i w hf
  have hs : w.id = lease.workerID := by
    obtain ⟨inMap, -⟩ := filter_eq_some_iff.mp hf
    exact Table.key_of_find? inMap
  refine (fenced.setPool cp _).addTask cp ?_
  rwa [hs]

theorem PodsFenced.runTask (env : Env) (safe : Task.Safe s.rows task)
    (lands : ∀ id ids, task = .orgShutdown (id :: ids) → ∀ r,
      ((s.pools cp).retireWorkerWithReason id retireReasonShutdown env.now).2 = some r → Lands s.rows r env) :
    PodsFenced (s.runTask cp env task) := by
  cases task with
  | orgShutdown ids =>
    cases ids with
    | nil => exact fenced
    | cons id ids =>
      exact (fenced.finishRetirement cp env (fun _ => retireWorkerWithReason_state)
        (lands id ids rfl)).addTask cp trivial
  | shutdown workers preserved => exact fenced.runShutdown cp workers preserved env
  | drained =>
    refine (fenced.delete cp _ safe).addTask cp ?_
    split <;> trivial
  | retireDrained w rest preserved => exact fenced.runRetireDrained cp w rest preserved env
  | unhealthy lease => exact fenced.runUnhealthy cp lease env
  | leaseMissed lease => exact fenced.runLeaseMissed cp lease env
  | leaseLost => exact fenced.runLeaseLost cp safe
  | cleanup => exact (fenced.setPool cp _).addTask cp safe
  | deletePod _ podName => exact fenced.delete cp podName safe

end

theorem podsFenced_step (a : ClusterStep) (fenced : PodsFenced s) (land : RetirementsLand s a)
    (ha : clusterMachine.step s a = some next) : PodsFenced next := by
  cases a with
  | store op =>
    cases ha
    exact fenced.rows (.apply op)
  | poolChange cp p =>
    cases ha
    exact fenced.setPool cp p
  | retire cp _ env =>
    cases ha
    refine fenced.finishRetirement cp env (fun _ => retireOp_state) fun r retired => ?_
    exact land.1 r env (by simp [retirement?, retired])
  | lifecycle cp c =>
    cases ha
    exact fenced.lifecycleCall cp c
  | orgShutdownAll cp | shutdownAll cp =>
    cases ha
    exact fenced.addTask cp trivial
  | healthCheck cp =>
    obtain ⟨w, -, rfl⟩ := map_eq_some_iff.mp ha
    exact fenced.addTask cp trivial
  | retireMismatchedVersion cp =>
    cases ha
    simp only [Cluster.retireMismatchedVersion]
    split
    · rename_i done
      exact (fenced.lifecycleCall cp _).addTask cp (condemned_of_transitioned done)
    · exact fenced.lifecycleCall cp _
  | cleanupOrphanedPod cp workerID podName =>
    cases ha
    unfold Cluster.cleanupOrphanedPod
    split
    · rename_i row hf
      split
      · rename_i terminal
        refine fenced.addTask cp ⟨row, hf, ?_⟩
        rcases terminal with retired | lost
        · rw [retired]
          decide
        · rw [lost]
          decide
      · exact fenced
    · rename_i gone
      have present := land.2 cp workerID podName rfl
      rw [gone] at present
      cases present
  | task cp task env =>
    obtain ⟨hm, ⟨⟩⟩ := ite_none_right_eq_some.mp ha
    refine (fenced.erase (cp, task)).runTask cp env (fenced.tasks _ hm) ?_
    rintro id ids rfl r retired
    exact land.1 r env (by simp [retirement?, retired, map_some])

theorem not_condemned_of_finish (cp : String) (retired : result.2 = some r) (missed : ¬ Lands s.rows r env) :
    (cp, .deletePod r.record.workerID r.podName) ∈ (s.finishRetirement cp env result).tasks ∧
      ¬ Condemned (s.finishRetirement cp env result).rows r.record.workerID := by
  obtain ⟨p, retirement⟩ := result
  cases retired
  exact ⟨mem_cons_self, not_condemned_of_not_lands missed⟩

theorem deletes_unfenced {podName}
    (waiting : (cp, .deletePod workerID podName) ∈ s.tasks) (unfenced : ¬ Condemned s.rows workerID)
    (env : Env) :
    ∃ worse, clusterMachine.step s (.task cp (.deletePod workerID podName) env) = some worse ∧
      ∃ d ∈ worse.deletions, ¬ Deletion.Fenced d :=
  ⟨_, if_pos waiting, _, mem_cons_self, unfenced⟩

theorem unfenced_of_not_lands {a} (ha : clusterMachine.step s a = some next) (retires : retirement? s a = some (r, env))
    (missed : ¬ Lands s.rows r env) :
    ∃ cp worse, clusterMachine.step next (.task cp (.deletePod r.record.workerID r.podName) env) =
      some worse ∧ ∃ d ∈ worse.deletions, ¬ Deletion.Fenced d := by
  cases a with
  | retire cp =>
    obtain ⟨_, retired, ⟨⟩⟩ := map_eq_some_iff.mp retires
    cases ha
    obtain ⟨waiting, unfenced⟩ := not_condemned_of_finish cp retired missed
    exact ⟨cp, deletes_unfenced waiting unfenced env⟩
  | task cp task =>
    cases task with
    | orgShutdown ids =>
      cases ids with
      | nil => cases retires
      | cons id ids =>
        obtain ⟨_, retired, ⟨⟩⟩ := map_eq_some_iff.mp retires
        obtain ⟨-, ⟨⟩⟩ := ite_none_right_eq_some.mp ha
        obtain ⟨waiting, unfenced⟩ := not_condemned_of_finish
          (s := { s with tasks := s.tasks.erase (cp, .orgShutdown (id :: ids)) }) cp
          retired missed
        exact ⟨cp, deletes_unfenced (s := Cluster.runTask _ cp env (.orgShutdown (id :: ids)))
          (mem_cons_of_mem _ waiting) unfenced env⟩
    | _ => cases retires
  | _ => cases retires

theorem pods_deleted_after_rows (s : Cluster) (idle : s.tasks = [] ∧ s.deletions = [])
    (steps : List ClusterStep) {final : Cluster} (land : clusterMachine.Obeys RetirementsLand s steps)
    (run : clusterMachine.run s steps = some final) :
    (∀ d ∈ final.deletions, ∃ row, d.row = some row ∧ row.state ∈ protectedStates) ∧
    (∀ a next r env, clusterMachine.step final a = some next → retirement? final a = some (r, env) →
      ¬ Lands final.rows r env →
      ∃ cp worse, clusterMachine.step next (.task cp (.deletePod r.record.workerID r.podName) env) =
        some worse ∧ ∃ d ∈ worse.deletions, ¬ ∃ row, d.row = some row ∧ row.state ∈ protectedStates) := by
  have start : PodsFenced s := by
    obtain ⟨noTasks, noDeletions⟩ := idle
    constructor
    · rw [noTasks]
      exact List.forall_mem_nil _
    · rw [noDeletions]
      exact List.forall_mem_nil _
  have fenced : PodsFenced final := clusterMachine.invariant_of_obeys PodsFenced
    (fun _ a _ => podsFenced_step a) start land run
  exact ⟨fenced.deletions, fun a next r env => unfenced_of_not_lands⟩

theorem RetirementsLand.of_none {a} (none : retirement? s a = none)
    (other : ∀ cp workerID podName, a ≠ .cleanupOrphanedPod cp workerID podName) :
    RetirementsLand s a := by
  refine ⟨fun r env hf => ?_, fun cp workerID podName hs => absurd hs (other _ _ _)⟩
  cases none.symm.trans hf

def hotIdleWorker : ManagedWorker where
  id := 1
  podName := "duckgres-worker-1"
  image := "duckgres:1"
  done := false
  activeSessions := 0
  lastUsed := 15
  reservedAt := 12
  sharedState := ⟨.hotIdle, some "acme", rfl⟩
  ownerEpoch := 1
  ownerCPInstanceID := "a"

def emptyPool (cp : String) : K8sWorkerPool where
  cpInstanceID := cp
  workerPodNamePrefix := "duckgres-worker"
  workerImage := "duckgres:1"
  idleTimeout := 300
  minWorkers := 0
  activatingTimeout := 0
  workers := .empty

def poolOfA : K8sWorkerPool := { emptyPool "a" with workers := ⟨[hotIdleWorker], List.nodup_singleton _⟩ }

def newCluster : Cluster := ⟨.empty, emptyPool, [], []⟩

def hotIdleSteps : List ClusterStep :=
  [.store (.createSpawningWorkerSlot "a" "acme" "duckgres:1" 1 "duckgres-worker" 0 0 10),
   .poolChange "a" poolOfA,
   .store (.upsertWorkerRecord (poolOfA.workerRecordFor hotIdleWorker .hotIdle "" none 20) 20)]

def shutdownSteps : List ClusterStep :=
  [.orgShutdownAll "a" "acme", .task "a" (.orgShutdown [1]) ⟨40, true⟩,
   .task "a" (.deletePod 1 "duckgres-worker-1") ⟨50, true⟩]

theorem pods_deleted_after_rows_shutdown :
    ∃ final, clusterMachine.run newCluster (hotIdleSteps ++ shutdownSteps) = some final ∧
      ∃ d ∈ final.deletions, ∃ row, d.row = some row ∧ row.state ∈ protectedStates := by
  refine ⟨_, rfl, _, List.mem_singleton_self _, ?_⟩
  refine (pods_deleted_after_rows newCluster ⟨rfl, rfl⟩ (hotIdleSteps ++ shutdownSteps) ?_ rfl).1 _
    (List.mem_singleton_self _)
  refine .cons rfl (.of_none rfl nofun) (.cons rfl (.of_none rfl nofun)
    (.cons rfl (.of_none rfl nofun) (.cons rfl (.of_none rfl nofun) (.cons rfl ⟨?_, nofun⟩
      (.cons rfl (.of_none rfl nofun) trivial)))))
  rintro r env ⟨⟩
  exact .inr ⟨rfl, rfl⟩

theorem pod_deleted_under_claim : ∃ final row, clusterMachine.run newCluster (hotIdleSteps ++
        .store (.claimHotIdleWorker "b" "acme" 0 [] 30) :: shutdownSteps) = some final ∧
      final.deletions = [⟨"a", 1, "duckgres-worker-1", some row⟩] ∧
      row.state = .reserved ∧ row.ownerCPInstanceID = some "b" :=
  ⟨_, _, rfl, rfl, rfl, rfl⟩

end Duckgres.Proof.Pool
