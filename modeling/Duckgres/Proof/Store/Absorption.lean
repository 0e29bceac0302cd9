import Duckgres.Proof.Store.Update

namespace Duckgres.Proof.Store
open Base Duckgres.Store Table

variable {t later : Workers} {record : WorkerRecord}

inductive ClaimUpdate : WorkerUpdate → Prop
  | idle (owner orgID : String) (now : Nat) : ClaimUpdate (claimIdleUpdate owner orgID now)
  | hotIdle (owner orgID : String) (now : Nat) : ClaimUpdate (claimHotIdleUpdate owner orgID now)
  | takeOver (owner orgID : String) (epoch : Int) (now : Nat) : ClaimUpdate (takeOverUpdate owner orgID epoch now)

def Explains (t later : Workers) : OpResult → Prop
  | .claimed record => ∃ u row, ClaimUpdate u ∧ t.find? record.workerID = some row ∧
      u.apply row = some record ∧ later.find? record.workerID = some record
  | .created record => later.find? record.workerID = some record
  | _ => True

theorem explained_claimRow (workerID : Int) {u} (claim : ClaimUpdate u) :
    Explains t (t.claimRow workerID u).1 (t.claimRow workerID u).2 := by
  unfold Workers.claimRow
  split
  · rename_i affected
    obtain ⟨row, next, hf, hap⟩ := affects_iff.mp affected
    have hu := find?_modify_of_apply hf hap
    simp only [hu]
    obtain rfl : next.workerID = workerID := key_of_find? hu
    exact ⟨u, row, claim, hf, hap, hu⟩
  · trivial

theorem explained_insertRow {result} (explains : ∀ next, t.insert? record = some next → Explains t next result) :
    Explains t (t.insertRow record result).1 (t.insertRow record result).2 := by
  rcases insertRow_cases record result with ⟨next, hi, hs⟩ | hs
  · rw [hs]
    exact explains next hi
  · rw [hs]
    trivial

theorem explained_createSlot (r : SlotRequest) (now : Nat) :
    Explains t (t.createSlot r now).1 (t.createSlot r now).2 := by
  unfold Workers.createSlot
  split
  · trivial
  · split
    · trivial
    · exact explained_insertRow fun next => find?_insert

theorem explained_markTerminal (record : WorkerRecord) (target : WorkerState) (reason : String)
    (now : Nat) : Explains t (t.markWorkerTerminalIfCurrent record target reason now).1
      (t.markWorkerTerminalIfCurrent record target reason now).2 := by
  unfold Workers.markWorkerTerminalIfCurrent
  split <;> trivial

theorem apply_explained (op : StoreOp) : Explains t (op.apply t).1 (op.apply t).2 := by
  cases op with
  | upsertWorkerRecord =>
    simp only [StoreOp.apply, Workers.upsertWorkerRecord]
    split
    · exact explained_insertRow fun _ _ => trivial
    · split
      · split <;> trivial
      · trivial
  | claimIdleWorker owner orgID _ _ _ _ now =>
    simp only [StoreOp.apply, Workers.claimIdleWorker]
    split
    · trivial
    · split
      · split <;> trivial
      · exact explained_claimRow _ (.idle owner orgID now)
  | claimHotIdleWorker owner orgID _ _ now =>
    simp only [StoreOp.apply, Workers.claimHotIdleWorker]
    split
    · trivial
    · split
      · trivial
      · exact explained_claimRow _ (.hotIdle owner orgID now)
  | takeOverWorker _ owner orgID epoch now =>
    simp only [StoreOp.apply, Workers.takeOverWorker]
    split
    · trivial
    split
    · trivial
    · split
      · trivial
      · exact explained_claimRow _ (.takeOver owner orgID epoch now)
  | markWorkerTerminalIfCurrent record target reason now => exact explained_markTerminal record target reason now
  | retireHotIdleWorker record now =>
    simp only [StoreOp.apply, Workers.retireHotIdleWorker]
    split
    · trivial
    · exact explained_markTerminal record _ _ now
  | retireIdleOrHotIdleWorker record reason now =>
    simp only [StoreOp.apply, Workers.retireIdleOrHotIdleWorker]
    split
    · trivial
    · exact explained_markTerminal record _ reason now
  | retireOrphanWorker =>
    simp only [StoreOp.apply, Workers.retireOrphanWorker]
    split <;> trivial
  | bumpWorkerEpoch =>
    simp only [StoreOp.apply, Workers.bumpWorkerEpoch]
    split
    · trivial
    · split <;> trivial
  | markCredentialsRefreshed | markWorkerLostIfCurrentLease | markWorkerDraining
  | retireDrainingWorker => trivial
  | createSpawningWorkerSlot | createNeutralWarmWorkerSlot | createNeutralWarmWorkerSlotForImage =>
    exact explained_createSlot _ _

theorem claimed_row {op : StoreOp} (hcl : (op.apply t).2 = .claimed record) :
    ∃ u row, ClaimUpdate u ∧ t.find? record.workerID = some row ∧ u.apply row = some record ∧
      (op.apply t).1.find? record.workerID = some record := by
  have explained := apply_explained (t := t) op
  rwa [hcl] at explained

theorem takeOver_id {workerID epoch owner orgID now}
    (ht : t.takeOverWorker workerID owner orgID epoch now = (later, .claimed record)) :
    record.workerID = workerID := by
  unfold Workers.takeOverWorker Workers.claimRow at ht
  split at ht
  · cases ht
  split at ht
  · cases ht
  split at ht
  · cases ht
  split at ht
  · split at ht
    · rename_i hf
      cases ht
      exact key_of_find? hf
    · cases ht
  · cases ht

theorem created_row {op : StoreOp} (created : (op.apply t).2 = .created record) :
    (op.apply t).1.find? record.workerID = some record := by
  have explained := apply_explained (t := t) op
  rwa [created] at explained

theorem bump_newEpoch {workerID epoch newEpoch owner now}
    (bumped : t.bumpWorkerEpoch workerID owner epoch now = (later, .newEpoch newEpoch)) :
    ∃ row next, t.find? workerID = some row ∧ later.find? workerID = some next ∧
      epoch = row.ownerEpoch ∧ newEpoch = row.ownerEpoch + 1 ∧
      next.ownerEpoch = row.ownerEpoch + 1 ∧ next.owner = row.owner ∧ next.state = row.state := by
  unfold Workers.bumpWorkerEpoch at bumped
  split at bumped
  · rename_i affected
    cases bumped
    obtain ⟨row, next, hf, hap⟩ := affects_iff.mp affected
    refine ⟨row, next, hf, find?_modify_of_apply hf hap, ?_⟩
    obtain ⟨current, rfl⟩ := guardedBump_apply hap
    have hse := (of_decide_eq_true current).2
    exact ⟨hse.symm, by rw [hse], rfl, rfl, rfl⟩
  · split at bumped <;> cases bumped

variable {t final : Workers}

theorem active_iff {state} : state ∈ workerActiveStates ↔ state ≠ .retired ∧ state ≠ .lost := by
  cases state <;> decide

def Settles (row later : WorkerRecord) : Prop :=
  row.state ∈ protectedStates → later.state = row.state ∨ row.state = .draining ∧ later.state = .retired

theorem Settles.refl (row : WorkerRecord) : Settles row row := fun _ => .inl rfl

theorem Settles.trans {first second third} (left : Settles first second)
    (right : Settles second third) : Settles first third := by
  intro held
  rcases left held with hs | ⟨draining, retired⟩
  · have hd := right (by rw [hs]; exact held)
    rwa [hs] at hd
  · rcases right (by rw [retired]; decide) with hs | ⟨draining, -⟩
    · exact .inr ⟨draining, hs.trans retired⟩
    · rw [retired] at draining
      cases draining

theorem Settles.held {row later} (settles : Settles row later)
    (held : row.state ∈ protectedStates) : later.state ∈ protectedStates := by
  rcases settles held with hs | ⟨-, retired⟩
  · rwa [hs]
  · rw [retired]
    decide

theorem Settles.terminal {row later} (settles : Settles row later)
    (terminal : row.state = .retired ∨ row.state = .lost) : later.state = row.state := by
  have held : row.state ∈ protectedStates := by
    rcases terminal with retired | lost
    · rw [retired]
      decide
    · rw [lost]
      decide
  rcases settles held with hs | ⟨draining, -⟩
  · exact hs
  · rw [draining] at terminal
    rcases terminal with ⟨⟨⟩⟩ | ⟨⟨⟩⟩

def RowsSettle (t later : Workers) : Prop :=
  ∀ workerID row, t.find? workerID = some row → ∃ next, later.find? workerID = some next ∧ Settles row next

theorem RowsSettle.refl (t : Workers) : RowsSettle t t := Table.Related.refl Settles.refl t

theorem RowsSettle.apply (op : StoreOp) : RowsSettle t (op.apply t).1 :=
  (apply_change op).related Settles.refl StoreUpdate.protected

theorem rowsSettle_run {ops} (run : storeMachine.run t ops = some final) : RowsSettle t final := by
  refine storeMachine.related_of_run RowsSettle ?_ ?_ ?_ run
  · exact RowsSettle.refl
  · exact fun _ _ _ => Table.Related.trans (R := Settles) Settles.trans
  · rintro t op next ⟨⟩
    exact .apply op

theorem claimed_not_protected {op : StoreOp} {record : WorkerRecord} (hcl : (op.apply t).2 = .claimed record) :
    ∃ row, t.find? record.workerID = some row ∧ row.state ∉ protectedStates := by
  obtain ⟨u, row, claim, hf, hap, -⟩ := claimed_row hcl
  refine ⟨row, hf, ?_⟩
  cases claim with
  | idle =>
    obtain ⟨passed, -⟩ := guardedBump_apply hap
    rw [of_decide_eq_true passed]
    decide
  | hotIdle =>
    obtain ⟨passed, -⟩ := guardedBump_apply hap
    rw [(of_decide_eq_true passed).1]
    decide
  | takeOver =>
    obtain ⟨passed, -⟩ := guardedBump_apply hap
    rw [(of_decide_eq_true passed).2]
    decide

theorem protected_states_absorb (t : Workers) (ops : List StoreOp) {final : Workers}
    (run : storeMachine.run t ops = some final) (workerID : Int) (row : WorkerRecord)
    (found : t.find? workerID = some row) (held : row.state ∈ protectedStates) :
    ∃ later, final.find? workerID = some later ∧
      (row.state = .retired ∨ row.state = .lost → later.state = row.state) ∧
      (row.state = .draining → later.state = .draining ∨ later.state = .retired) ∧
      later.state ≠ .idle ∧
      ∀ (op : StoreOp) record, (op.apply final).2 = .claimed record → record.workerID ≠ workerID := by
  obtain ⟨later, laterFound, settles⟩ := rowsSettle_run run workerID row found
  have laterHeld := settles.held held
  refine ⟨later, laterFound, settles.terminal, ?_, ?_, ?_⟩
  · intro draining
    rcases settles held with hs | ⟨-, retired⟩
    · exact .inl (hs.trans draining)
    · exact .inr retired
  · intro idle
    rw [idle] at laterHeld
    exact absurd laterHeld (by decide)
  · rintro op record claimed rfl
    obtain ⟨current, currentFound, free⟩ := claimed_not_protected claimed
    cases laterFound.symm.trans currentFound
    exact free laterHeld

theorem protected_states_absorb_draining : ∃ final, storeMachine.run (oneRow { idleRow with state := .draining })
        [.claimIdleWorker "b" "acme" "" 0 0 [] 7,
          .retireOrphanWorker { idleRow with state := .draining } "orphan" [] 8] = some final ∧
      ∃ later, final.find? 1 = some later ∧ (later.state = .draining ∨ later.state = .retired) := by
  refine ⟨_, rfl, ?_⟩
  obtain ⟨later, hf, -, settled, -⟩ :=
    protected_states_absorb (oneRow { idleRow with state := .draining })
      [.claimIdleWorker "b" "acme" "" 0 0 [] 7,
        .retireOrphanWorker { idleRow with state := .draining } "orphan" [] 8] rfl
      1 { idleRow with state := .draining } rfl (by decide)
  exact ⟨later, hf, settled rfl⟩

end Duckgres.Proof.Store
