import Duckgres.Proof.Worker.Moves

namespace Duckgres.Proof.Worker
open Base Duckgres.Worker Duckgres.Store SessionPool

variable {p q : SessionPool} {payload current : ActivationPayload} {phase : ActivationPhase}
  {env : ActivationEnv} {fuel db : Nat}

theorem finish_run (fuel : Nat) (p : SessionPool) (phase : ActivationPhase) :
    ∃ steps, activationProgram.runAlone p ⟨payload, phase⟩ steps =
      some ((finish env payload fuel p phase).1,
        ⟨payload, (finish env payload fuel p phase).2⟩) := by
  induction fuel generalizing p phase with
  | zero => exact ⟨[], rfl⟩
  | succ fuel ih =>
    unfold finish
    split
    · rename_i q after hf
      obtain ⟨a, -, hd⟩ := Option.bind_eq_some_iff.mp hf
      obtain ⟨steps, run⟩ := ih q after
      refine ⟨a :: steps, ?_⟩
      rw [Program.runAlone]
      simp only [activationProgram, hd]
      exact run
    · exact ⟨[], rfl⟩

theorem activateTenant_run (p : SessionPool) (payload : ActivationPayload) (env : ActivationEnv) :
    ∃ steps, activationProgram.runAlone p (activationProgram.start payload) steps =
      some ((p.activateTenant payload env).1, ⟨payload, (p.activateTenant payload env).2⟩) :=
  finish_run 6 p .received

theorem finish_returned (error : Option ActivationError) :
    finish env payload fuel p (.returned error) = (p, .returned error) := by
  cases fuel <;> rfl

/-! ## A worker that serves a tenant -/

structure Serves (p : SessionPool) (current : ActivationPayload) : Prop where
  mode : p.sharedWarmMode = true
  active : ∃ db, p.activation = some ⟨current, db⟩
  epoch : p.ownerEpoch = current.ownerEpoch
  worker : p.workerID = current.workerID
  valid : Valid current

theorem Serves.sameOwner (serves : Serves p current) (hs : SameOwner p q) : Serves q current where
  mode := hs.mode.trans serves.mode
  active := hs.activation ▸ serves.active
  epoch := hs.ownerEpoch.trans serves.epoch
  worker := hs.workerID.trans serves.worker
  valid := serves.valid

structure Renews (current payload : ActivationPayload) : Prop where
  org : payload.orgID = current.orgID
  worker : payload.workerID = current.workerID
  newer : current.ownerEpoch < payload.ownerEpoch

theorem Renews.valid (renews : Renews current payload) (valid : Valid current) : Valid payload :=
  ⟨renews.org ▸ valid.org, valid.epoch.trans renews.newer.le⟩

theorem Serves.receive (serves : Serves p current) (renews : Renews current payload) :
    p.receive payload = .admitted := by
  obtain ⟨db, active⟩ := serves.active
  have named : isBlank payload.orgID = false := (renews.valid serves.valid).org
  simp [SessionPool.receive, active, named, renews.org.symm]

theorem Serves.check (serves : Serves p current) (renews : Renews current payload) :
    p.check payload = if sameTenantActivationRuntime current payload then .reusing
      else .returned (some (.alreadyActivated current.orgID)) := by
  obtain ⟨db, active⟩ := serves.active
  have valid := renews.valid serves.valid
  have other : current ≠ payload := by
    rintro rfl
    exact lt_irrefl _ renews.newer
  have fresh : p.staleWorker payload = false := by
    simp [staleWorker, serves.worker, renews.worker]
  have newer : ¬ payload.ownerEpoch ≤ p.ownerEpoch := by
    rw [serves.epoch]
    exact Int.not_le.mpr renews.newer
  simp only [SessionPool.check, serves.mode, valid.org, fresh, active, other, newer,
    Int.not_lt.mpr valid.epoch, Bool.not_true, Bool.false_eq_true, if_false, decide_false,
    Bool.false_and]
  by_cases hs : sameTenantActivationRuntime current payload <;> simp [hs]

theorem Renews.allowed (renews : Renews current payload)
    (hs : sameTenantActivationRuntime current payload) : reuseAllowed current payload :=
  reuseAllowed_iff.mpr ⟨hs, .inr (.inl renews.newer)⟩

section
variable (active : p.activation = some ⟨current, db⟩) (allowed : reuseAllowed current payload)
include active allowed

theorem finish_committingReuse :
    (finish env payload (fuel + 1) p .committingReuse).2 = .returned none := by
  have hco : p.commitReuse payload = (installed p payload db, .returned none) := by
    simp [commitReuse, active, allowed, installed]
  change (finish env payload fuel (p.commitReuse payload).1 (p.commitReuse payload).2).2 = _
  rw [hco, finish_returned]

theorem finish_refreshingIceberg {needed} :
    (finish env payload (fuel + 2) p (.refreshingIceberg needed)).2 = .returned none ↔
      (needed → payload.iceberg.enabled → env.icebergRefreshed) := by
  change (finish env payload (fuel + 1) p (p.refreshIceberg payload needed env.icebergRefreshed)).2 = _ ↔ _
  unfold refreshIceberg
  split
  · rename_i hfa
    simp only [Bool.and_eq_true, Bool.not_eq_true'] at hfa
    simp [notReused, finish_returned, hfa]
  · rename_i passed
    simp only [Bool.and_eq_true, Bool.not_eq_true', not_and, Bool.not_eq_false] at passed
    exact iff_of_true (finish_committingReuse active allowed) fun needed enabled => passed ⟨needed, enabled⟩

theorem finish_refreshingS3 {needed} :
    (finish env payload (fuel + 3) p (.refreshingS3 needed)).2 = .returned none ↔
      (needed → (payload.duckLake.objectStore ≠ "" → env.s3Refreshed) ∧
        (payload.iceberg.enabled → env.icebergRefreshed)) := by
  change (finish env payload (fuel + 2)
    (p.refreshS3 payload needed env.s3Refreshed).1
    (p.refreshS3 payload needed env.s3Refreshed).2).2 = _ ↔ _
  unfold refreshS3
  split
  · rename_i used
    simp only [Bool.and_eq_true, bne_iff_ne] at used
    split
    · rename_i replaced
      have kept : { p with s3Secret := some payload.duckLake.credentials }.activation =
          some ⟨current, db⟩ := active
      refine (finish_refreshingIceberg kept allowed).trans ?_
      simp [replaced]
    · rename_i hfa
      simp [notReused, finish_returned, used, hfa]
  · rename_i hun
    simp only [Bool.and_eq_true, bne_iff_ne, not_and] at hun
    refine (finish_refreshingIceberg active allowed).trans (forall_congr' fun isNeeded => ?_)
    simp [hun isNeeded]

end

theorem Serves.accepts_iff (serves : Serves p current) (renews : Renews current payload) :
    (p.activateTenant payload env).2 = .returned none ↔
      sameTenantActivationRuntime current payload ∧ RefreshWorks current payload env := by
  obtain ⟨db, active⟩ := serves.active
  change (finish env payload 5 p (p.receive payload)).2 = _ ↔ _
  rw [serves.receive renews]
  change (finish env payload 4 p (p.check payload)).2 = _ ↔ _
  rw [serves.check renews]
  by_cases hs : sameTenantActivationRuntime current payload
  · have prepared : p.prepareReuse payload = .refreshingS3 (needsRefresh current payload) := by
      simp [prepareReuse, active, renews.allowed hs]
    rw [if_pos hs]
    change (finish env payload 3 p (p.prepareReuse payload)).2 = _ ↔ _
    rw [prepared, finish_refreshingS3 active (renews.allowed hs)]
    exact (and_iff_right hs).symm
  · rw [if_neg hs, finish_returned]
    simp [hs]

end Duckgres.Proof.Worker
