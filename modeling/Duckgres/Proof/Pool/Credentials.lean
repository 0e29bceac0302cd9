import Duckgres.Proof.Pool.ServingRows
import Mathlib.Logic.Relation

namespace Duckgres.Proof.Pool
open Base Duckgres.Store Duckgres.Pool Duckgres.Proof.Store

variable {rows : Workers} {s t : PoolState} {id : Int} {row record next : WorkerRecord} {w after final : PoolWorld}
  {phase later : PoolPhase} {a : PoolStep} {orgID : String} {now : Nat}

def KeptOrStamped (row next : WorkerRecord) : Prop := next.s3CredentialsExpiresAt = row.s3CredentialsExpiresAt ∨
  ∃ owner epoch expiresAt now, (credentialsUpdate owner epoch expiresAt now).apply row = some next

theorem KeptOrStamped.recorded (kept : KeptOrStamped row next) (recorded : row.s3CredentialsExpiresAt ≠ none) :
    next.s3CredentialsExpiresAt ≠ none := by
  rcases kept with hs | ⟨owner, epoch, expiresAt, now, hap⟩
  · rwa [hs]
  · obtain ⟨-, rfl⟩ := Update.guarded_apply.mp hap
    simp

theorem keptOrStamped_of_makes {op u} (makes : Makes op u) (other : ∀ record now, op ≠ .upsertWorkerRecord record now)
    (hap : u.apply row = some next) : KeptOrStamped row next := by
  cases makes with
  | upsert => exact absurd rfl (other _ _)
  | credentials => exact .inr ⟨_, _, _, _, hap⟩
  | claimIdle | claimHotIdle | takeOver | bump =>
    obtain ⟨-, rfl⟩ := guardedBump_apply hap
    exact .inl rfl
  | terminal | hotIdle | idleOrHotIdle | orphan | lost | draining | retireDraining =>
    obtain ⟨-, rfl⟩ := Update.guarded_apply.mp hap
    exact .inl rfl

def Owned (cp : String) (rows : Workers) (id : Int) : Prop :=
  ∃ row, rows.find? id = some row ∧ row.owner = cp ∧ row.state ∈ workerActiveStates

/-- The worker stays this control plane's, and no record overwrites its row. -/
def LeavesRow (id : Int) (w : PoolWorld) (step : CallStep PoolStep PoolRequest) : Prop :=
  (∀ after, poolProgram.machine.step w step = some after →
      Owned w.shared.pool.cpInstanceID after.shared.rows id) ∧
    ∀ call now c record, step = .advance call (.persist now true) → w.calls call = some c →
      pending? c.phase = some record → ¬ Overwrites w.shared.rows id record now

theorem rows_of_pending (pending : pending? phase = some record) (ha : s.next orgID phase a = some (t, later)) :
    t.rows = s.rows ∨ ∃ now, a = .persist now true ∧ t.rows = (s.rows.upsertWorkerRecord record now).1 := by
  cases phase with
  | persistingReserved | persistingActivating | persistingHot | persistingHotIdle =>
    cases pending
    cases a with
    | persist now hre =>
      cases ha
      cases hre with
      | false => exact .inl rfl
      | true => exact .inr ⟨now, rfl, rfl⟩
    | _ => cases ha
  | _ => cases pending

theorem foreign_upsert (foreign : s.isForeign (.upsertWorkerRecord record now) = true)
    (owned : Owned s.pool.cpInstanceID (s.rows.upsertWorkerRecord record now).1 id)
    (hf : s.rows.find? id = some row) : (s.rows.upsertWorkerRecord record now).1.find? id = some row := by
  obtain ⟨row', hf', owner, active⟩ := owned
  rcases upsert_row record now hf with hs | ⟨-, next, puts, sameState, sameOwner, -⟩
  · exact hs
  · cases hf'.symm.trans puts
    rw [sameOwner] at owner
    rw [sameState, active_iff] at active
    simp [PoolState.isForeign, owner, active] at foreign

theorem keptOrStamped_step {step} (leaves : LeavesRow id w step)
    (ha : poolProgram.machine.step w step = some after) (hf : w.shared.rows.find? id = some row) :
    ∃ next, after.shared.rows.find? id = some next ∧ KeptOrStamped row next := by
  have owned := leaves.1 after ha
  cases Program.takes_of_step ha with
  | start => exact ⟨row, hf, .inl rfl⟩
  | @advance call _ c next shared foundCall hd =>
    change ∃ next, shared.rows.find? id = some next ∧ KeptOrStamped row next
    replace owned : Owned w.shared.pool.cpInstanceID shared.rows id := owned
    cases pending : pending? c.phase with
    | some record =>
      obtain ⟨_, performed, ⟨⟩⟩ := Option.map_eq_some_iff.mp hd
      rcases rows_of_pending pending performed with hs | ⟨now, rfl, hs⟩
      all_goals refine ⟨row, hs ▸ ?_, .inl rfl⟩
      · exact hf
      · exact (upsert_row record now hf).resolve_right fun overwritten =>
          leaves.2 call now c record rfl foundCall pending overwritten.1
    | none =>
      cases rowMoves_of_moves (moves_of_step hd).1 with
      | same hs => exact ⟨row, hs ▸ hf, .inl rfl⟩
      | persists _ _ pending' => cases pending.symm.trans pending'
      | foreign op foreign hs =>
        rw [hs] at owned ⊢
        cases op with
        | upsertWorkerRecord => exact ⟨row, foreign_upsert foreign owned hf, .inl rfl⟩
        | _ =>
          exact apply_related _ (fun _ => .inl rfl)
            (fun makes => keptOrStamped_of_makes makes (by rintro _ _ ⟨⟩)) id row hf

theorem credentials_kept (w : PoolWorld) (id : Int) (steps : List (CallStep PoolStep PoolRequest))
    (leaves : poolProgram.machine.Obeys (LeavesRow id) w steps)
    (run : poolProgram.machine.run w steps = some final) (found : w.shared.rows.find? id = some row) :
    ∃ last, final.shared.rows.find? id = some last ∧ Relation.ReflTransGen KeptOrStamped row last ∧
      (row.s3CredentialsExpiresAt ≠ none → last.s3CredentialsExpiresAt ≠ none) := by
  obtain ⟨last, foundLast, chain⟩ := poolProgram.machine.invariant_of_obeys
    (fun w => ∃ last, w.shared.rows.find? id = some last ∧ Relation.ReflTransGen KeptOrStamped row last)
    (fun _ _ _ ⟨last, foundLast, chain⟩ leaves ha =>
      have ⟨next, foundNext, kept⟩ := keptOrStamped_step leaves ha foundLast
      ⟨next, foundNext, chain.tail kept⟩)
    ⟨row, found, .refl⟩ leaves run
  refine ⟨last, foundLast, chain, fun recorded => ?_⟩
  clear foundLast
  induction chain with
  | refl => exact recorded
  | tail _ kept ih => exact kept.recorded ih

def stampedRow : WorkerRecord :=
  { hotRow with ownerCPInstanceID := some "b", ownerEpoch := 1, s3CredentialsExpiresAt := some 50 }

def stalePool : PoolState :=
  poolOfB stampedRow ⟨[{ hotWorker with ownerCPInstanceID := "b", ownerEpoch := 0 }], List.nodup_singleton _⟩

def staleRelease : List (CallStep PoolStep PoolRequest) :=
  poolCall 0 .environment [.store (.markCredentialsRefreshed 1 "b" 1 90 60)] ++
    poolCall 1 (.acquireWorker "acme") [.look (some 1) acmeConfig, .release 61, .persist 62 true]

theorem credentials_kept_fenced : ∃ w last, poolProgram.machine.run (.init stalePool) staleRelease = some w ∧
    w.shared.rows.find? 1 = some last ∧ last.s3CredentialsExpiresAt ≠ none := by
  have leaves : poolProgram.machine.Obeys (LeavesRow 1) (.init stalePool) staleRelease := by
    iterate 6
      refine .cons rfl ⟨?_, by rintro _ _ _ _ ⟨⟩ ⟨⟩ ⟨⟩ ⟨-, ⟨⟩, -⟩⟩ ?_
      · rintro _ ⟨⟩
        exact ⟨_, rfl, rfl, by decide⟩
    trivial
  have run : poolProgram.machine.run (.init stalePool) staleRelease = some _ := rfl
  obtain ⟨last, hf, -, recorded⟩ := credentials_kept _ 1 _ leaves run rfl
  exact ⟨_, last, run, hf, recorded (by decide)⟩

theorem credentials_wiped : ∃ w last, poolProgram.machine.run
      (.init (poolOfB stampedRow ⟨[{ hotWorker with ownerCPInstanceID := "b" }], List.nodup_singleton _⟩))
      (poolCall 0 (.acquireWorker "acme") [.look (some 1) acmeConfig, .release 60, .persist 60 true]) = some w ∧
    w.shared.rows.find? 1 = some last ∧ last.owner = "b" ∧ last.ownerEpoch = 1 ∧
    last.state ∈ workerActiveStates ∧ last.s3CredentialsExpiresAt = none :=
  ⟨_, _, rfl, rfl, rfl, rfl, by decide, rfl⟩

end Duckgres.Proof.Pool
