import Duckgres.Proof.Store.Update

namespace Duckgres.Proof.Store
open Base Duckgres.Store Table

variable {t final : Workers}

def Succeeds (row later : WorkerRecord) : Prop :=
  row.ownerEpoch ≤ later.ownerEpoch ∧
    (later.ownerCPInstanceID ≠ row.ownerCPInstanceID → row.ownerEpoch < later.ownerEpoch)

theorem Succeeds.refl (row : WorkerRecord) : Succeeds row row := ⟨Int.le_refl _, fun changed => absurd rfl changed⟩

theorem Succeeds.trans {first second third} (left : Succeeds first second)
    (right : Succeeds second third) : Succeeds first third := by
  refine ⟨Int.le_trans left.1 right.1, fun changed => ?_⟩
  by_cases hs : second.ownerCPInstanceID = first.ownerCPInstanceID
  · exact Int.lt_of_le_of_lt left.1 (right.2 fun equal => changed (equal.trans hs))
  · exact Int.lt_of_lt_of_le (left.2 hs) right.1

def RowsSucceed (t later : Workers) : Prop :=
  ∀ workerID row, t.find? workerID = some row → ∃ next, later.find? workerID = some next ∧ Succeeds row next

theorem Change.rowsSucceed {later} (change : Change t later) : RowsSucceed t later :=
  change.related Succeeds.refl StoreUpdate.epoch

theorem RowsSucceed.apply (op : StoreOp) : RowsSucceed t (op.apply t).1 := (apply_change op).rowsSucceed

theorem rowsSucceed_run {ops} (run : storeMachine.run t ops = some final) : RowsSucceed t final := by
  refine storeMachine.related_of_run RowsSucceed ?_ ?_ ?_ run
  · exact Table.Related.refl Succeeds.refl
  · exact fun _ _ _ => Table.Related.trans (R := Succeeds) Succeeds.trans
  · rintro t op next ⟨⟩
    exact .apply op

variable {workerID epoch : Int} {row : WorkerRecord}

theorem modify_of_missed {u} (hf : t.find? workerID = some row) (missed : u.apply row = none) :
    t.affects workerID u = false ∧ t.modify workerID u = t := by
  have notAffected : t.affects workerID u = false := by
    simp [Table.affects, hf, missed]
  exact ⟨notAffected, modify_of_not_affects notAffected⟩

variable {set : WorkerRecord → WorkerRecord} {keepsID : ∀ row, (set row).workerID = row.workerID}

theorem guarded_missed {guard : WorkerRecord → Bool}
    (hfa : ¬ guard row = true) : (Update.guarded guard set keepsID).apply row = none := by
  simp [Update.guarded, hfa]

theorem leaseCurrent_stale {owner} (stale : epoch < row.ownerEpoch) : ¬ leaseCurrent owner epoch row = true := by
  intro passed
  have current := (of_decide_eq_true passed).2
  omega

theorem terminal_stale {record target reason now} (hf : t.find? workerID = some row)
    (stale : record.ownerEpoch < row.ownerEpoch) :
    t.modify workerID (terminalUpdate record target reason now) = t := by
  refine (modify_of_missed hf (guarded_missed fun passed => ?_)).2
  have current := (of_decide_eq_true (of_decide_eq_true passed).1).2.1
  omega

theorem lease_stale {owner} {p : WorkerRecord → Prop} [DecidablePred p] (hf : t.find? workerID = some row)
    (stale : epoch < row.ownerEpoch) :
    t.modify workerID (Update.guarded (fun row => leaseCurrent owner epoch row ∧ p row) set keepsID) = t := by
  refine (modify_of_missed hf (guarded_missed fun passed => ?_)).2
  exact leaseCurrent_stale stale (of_decide_eq_true passed).1

theorem markTerminal_stale {record target reason now} (hf : t.find? record.workerID = some row)
    (stale : record.ownerEpoch < row.ownerEpoch) :
    (t.markWorkerTerminalIfCurrent record target reason now).1 = t := by
  unfold Workers.markWorkerTerminalIfCurrent
  split
  · rfl
  · exact terminal_stale hf stale

theorem apply_stale (op : StoreOp) (fence : op.fence? = some (workerID, epoch)) (hf : t.find? workerID = some row)
    (stale : epoch < row.ownerEpoch) : (op.apply t).1 = t := by
  cases op with
  | upsertWorkerRecord record now =>
    cases fence
    have missed : t.affects record.workerID (upsertUpdate (Workers.stamped record now)) = false := by
      refine (modify_of_missed hf (guarded_missed fun passed => ?_)).1
      have fence := (of_decide_eq_true passed).2
      simp only [Workers.stamped] at fence
      omega
    simp [StoreOp.apply, Workers.upsertWorkerRecord, hf, missed]
  | takeOverWorker =>
    cases fence
    have mismatch : row.ownerEpoch ≠ epoch := by omega
    simp [StoreOp.apply, Workers.takeOverWorker, hf, mismatch]
  | markWorkerTerminalIfCurrent =>
    cases fence
    exact markTerminal_stale hf stale
  | retireHotIdleWorker =>
    cases fence
    simp only [StoreOp.apply, Workers.retireHotIdleWorker]
    split
    · rfl
    · exact markTerminal_stale hf stale
  | retireIdleOrHotIdleWorker =>
    cases fence
    simp only [StoreOp.apply, Workers.retireIdleOrHotIdleWorker]
    split
    · rfl
    · exact markTerminal_stale hf stale
  | retireOrphanWorker =>
    cases fence
    simp only [StoreOp.apply, Workers.retireOrphanWorker]
    split
    · rfl
    · exact terminal_stale hf stale
  | bumpWorkerEpoch _ owner _ now =>
    cases fence
    have missed : t.affects workerID (bumpUpdate owner epoch now) = false := by
      refine (modify_of_missed hf ?_).1
      simp [bumpUpdate, guardedBump, leaseCurrent_stale stale]
    simp only [StoreOp.apply, Workers.bumpWorkerEpoch, missed]
    split
    · rename_i affected
      cases affected
    · split <;> rfl
  | markCredentialsRefreshed =>
    cases fence
    exact (modify_of_missed hf (guarded_missed (leaseCurrent_stale stale))).2
  | markWorkerLostIfCurrentLease | markWorkerDraining | retireDrainingWorker =>
    cases fence
    exact lease_stale hf stale
  | _ => cases fence

theorem epoch_fences_ownership (t : Workers) (ops : List StoreOp) {final : Workers}
    (run : storeMachine.run t ops = some final) :
    (∀ (op : StoreOp) workerID row, final.find? workerID = some row →
      ∃ next, (op.apply final).1.find? workerID = some next ∧ row.ownerEpoch ≤ next.ownerEpoch ∧
        (next.ownerCPInstanceID ≠ row.ownerCPInstanceID → row.ownerEpoch < next.ownerEpoch)) ∧
    (∀ workerID row later, t.find? workerID = some row → final.find? workerID = some later →
      row.ownerEpoch ≤ later.ownerEpoch ∧
        (later.ownerEpoch = row.ownerEpoch → later.ownerCPInstanceID = row.ownerCPInstanceID)) ∧
    (∀ (op : StoreOp) workerID epoch row, op.fence? = some (workerID, epoch) →
      final.find? workerID = some row → epoch < row.ownerEpoch → (op.apply final).1 = final) := by
  refine ⟨RowsSucceed.apply, ?_, fun op _ _ _ => apply_stale op⟩
  intro workerID row later hf laterFound
  obtain ⟨next, nextFound, le, raised⟩ := rowsSucceed_run run workerID row hf
  cases laterFound.symm.trans nextFound
  refine ⟨le, fun hs => ?_⟩
  by_contra changed
  exact absurd (raised changed) (by omega)

theorem epoch_fences_ownership_claimed : ∃ final, storeMachine.run (oneRow idleRow)
        [.claimIdleWorker "b" "acme" "" 0 0 [] 7] = some final ∧
      (StoreOp.apply final (.bumpWorkerEpoch 1 "a" 3 8)).1 = final := by
  refine ⟨_, rfl, ?_⟩
  exact (epoch_fences_ownership (oneRow idleRow) [.claimIdleWorker "b" "acme" "" 0 0 [] 7] rfl).2.2
    (.bumpWorkerEpoch 1 "a" 3 8) 1 3
    { idleRow with state := .reserved, orgID := "acme", ownerCPInstanceID := some "b",
                   ownerEpoch := 4, updatedAt := 7 } rfl (by decide) (by decide)

variable {later : Workers} {cp : String} {id : Int} {next : WorkerRecord}

def isIdleState (state : WorkerState) : Bool := state = .idle || state = .hotIdle

def StateKept (row next : WorkerRecord) : Prop := next.state = row.state ∨ isIdleState next.state = false

abbrev RowsKept (t later : Workers) : Prop := Table.Related StateKept t later

theorem rowsKept_apply (op : StoreOp) (other : ∀ record now, op ≠ .upsertWorkerRecord record now) :
    RowsKept t (op.apply t).1 := by
  refine apply_related op (fun _ => .inl rfl) fun makes hap => ?_
  cases makes with
  | upsert => exact absurd rfl (other _ _)
  | claimIdle | claimHotIdle | takeOver =>
    obtain ⟨-, rfl⟩ := guardedBump_apply hap
    exact .inr rfl
  | bump =>
    obtain ⟨-, rfl⟩ := guardedBump_apply hap
    exact .inl rfl
  | credentials =>
    obtain ⟨-, rfl⟩ := Update.guarded_apply.mp hap
    exact .inl rfl
  | terminal hk =>
    obtain ⟨-, rfl⟩ := Update.guarded_apply.mp hap
    rcases hk with rfl | rfl <;> exact .inr rfl
  | hotIdle | idleOrHotIdle | orphan | lost | draining | retireDraining =>
    obtain ⟨-, rfl⟩ := Update.guarded_apply.mp hap
    exact .inr rfl

def Overwrites (t : Workers) (id : Int) (record : WorkerRecord) (now : Nat) : Prop :=
  id = record.workerID ∧ t.affects id (upsertUpdate (Workers.stamped record now)) = true ∧ t.podNameFree record = true

theorem upsert_row (record : WorkerRecord) (now : Nat) (hf : t.find? id = some row) :
    (t.upsertWorkerRecord record now).1.find? id = some row ∨
      Overwrites t id record now ∧ ∃ next, (t.upsertWorkerRecord record now).1.find? id = some next ∧
        next.state = record.state ∧ next.owner = record.owner ∧
        next.ownerEpoch = record.ownerEpoch := by
  rcases upsertWorkerRecord_cases record now with ⟨next, hi, result⟩ |
    ⟨old, next, oldFound, hap, result⟩ | ⟨error, result⟩
  · rw [result]
    exact .inl (find?_insert_of_some hi hf)
  · rw [result]
    by_cases hs : id = record.workerID
    · subst hs
      have affected := affects_iff.mpr ⟨old, next, oldFound, hap⟩
      have free : t.podNameFree record = true := by
        by_contra ht
        simp [Workers.upsertWorkerRecord, oldFound, affected, ht] at result
      refine .inr ⟨⟨rfl, affected, free⟩, next, find?_modify_of_apply oldFound hap, ?_⟩
      obtain ⟨-, rfl⟩ := Update.guarded_apply.mp hap
      exact ⟨rfl, rfl, rfl⟩
    · exact .inl ((find?_modify_of_ne t _ hs).trans hf)
  · rw [result]
    exact .inl hf

def Behind (rows : Workers) (id epoch : Int) : Prop := ∃ row, rows.find? id = some row ∧ epoch ≤ row.ownerEpoch

def Busy (cp : String) (rows : Workers) (id epoch : Int) : Prop :=
  ∀ row, rows.find? id = some row → row.ownerEpoch = epoch → row.owner = cp → isIdleState row.state = false

theorem Behind.succeed (behind : Behind t id epoch) (succeed : RowsSucceed t later) : Behind later id epoch := by
  obtain ⟨row, hf, le⟩ := behind
  obtain ⟨next, hfn, succeeds⟩ := succeed id row hf
  exact ⟨next, hfn, le.trans succeeds.1⟩

theorem owner_of_succeeds (succeeds : Succeeds row next) (hs : next.ownerEpoch = row.ownerEpoch) :
    next.owner = row.owner := by
  by_contra changed
  have raised := succeeds.2 fun owner => changed (congrArg (·.getD "") owner)
  omega

theorem Busy.kept (busy : Busy cp t id epoch) (behind : Behind t id epoch)
    (succeed : RowsSucceed t later) (kept : RowsKept t later) : Busy cp later id epoch := by
  intro next hfn hse owned
  obtain ⟨row, hf, le⟩ := behind
  obtain ⟨next', hfn', succeeds⟩ := succeed id row hf
  obtain ⟨next'', hfn'', state⟩ := kept id row hf
  rw [hfn] at hfn' hfn''
  cases hfn'
  cases hfn''
  have hs : next.ownerEpoch = row.ownerEpoch := by
    have := succeeds.1
    omega
  rcases state with hs' | busyState
  · rw [hs']
    exact busy row hf (hs.symm.trans hse) ((owner_of_succeeds succeeds hs).symm.trans owned)
  · exact busyState

theorem Busy.upsert (busy : Busy cp t id epoch) (behind : Behind t id epoch) {record}
    (now : Nat) (other : id = record.workerID → record.ownerEpoch = epoch → record.owner = cp →
      isIdleState record.state = false) :
    Busy cp (t.upsertWorkerRecord record now).1 id epoch := by
  intro next hfn hse owned
  obtain ⟨row, hf, -⟩ := behind
  rcases upsert_row record now hf with hs | ⟨⟨isRecord, -⟩, next', hfn', state, owner, recordEpoch⟩
  · rw [hfn] at hs
    cases hs
    exact busy next hf hse owned
  · rw [hfn] at hfn'
    cases hfn'
    rw [state]
    exact other isRecord (recordEpoch.symm.trans hse) (owner.symm.trans owned)

end Duckgres.Proof.Store
