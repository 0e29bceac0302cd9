import Duckgres.Store.Operations

namespace Duckgres.Proof.Store
open Base Duckgres.Store Workers Option Table

inductive StoreUpdate : WorkerUpdate → Prop
  | upsert (record : WorkerRecord) : StoreUpdate (upsertUpdate record)
  | claimIdle (owner orgID : String) (now : Nat) : StoreUpdate (claimIdleUpdate owner orgID now)
  | claimHotIdle (owner orgID : String) (now : Nat) : StoreUpdate (claimHotIdleUpdate owner orgID now)
  | takeOver (owner orgID : String) (epoch : Int) (now : Nat) : StoreUpdate (takeOverUpdate owner orgID epoch now)
  | bump (owner : String) (epoch : Int) (now : Nat) : StoreUpdate (bumpUpdate owner epoch now)
  | credentials (owner : String) (epoch : Int) (expiresAt now : Nat) :
      StoreUpdate (credentialsUpdate owner epoch expiresAt now)
  | lost (owner : String) (epoch : Int) (reason : String) (now : Nat) : StoreUpdate (lostUpdate owner epoch reason now)
  | draining (owner : String) (epoch : Int) (now : Nat) : StoreUpdate (drainingUpdate owner epoch now)
  | retireDraining (owner : String) (epoch : Int) (reason : String) (now : Nat) :
      StoreUpdate (retireDrainingUpdate owner epoch reason now)
  | terminal (record : WorkerRecord) (target : WorkerState) (reason : String) (now : Nat)
      (terminal : target = .retired ∨ target = .lost) :
      StoreUpdate (terminalUpdate record target reason now)

inductive Rewrite (t : Workers) : Workers → Prop
  | same : Rewrite t t
  | update (workerID : Int) {u} (known : StoreUpdate u) : Rewrite t (t.modify workerID u)

inductive Change (t : Workers) : Workers → Prop
  | rewrite {next} (rewritten : Rewrite t next) : Change t next
  | insert {record next} (inserted : t.insert? record = some next) : Change t next

inductive Makes : StoreOp → WorkerUpdate → Prop
  | upsert {record now} : Makes (.upsertWorkerRecord record now) (upsertUpdate (stamped record now))
  | claimIdle {owner orgID image maxOrg maxGlobal locked now} :
      Makes (.claimIdleWorker owner orgID image maxOrg maxGlobal locked now) (claimIdleUpdate owner orgID now)
  | claimHotIdle {owner orgID maxOrg locked now} :
      Makes (.claimHotIdleWorker owner orgID maxOrg locked now) (claimHotIdleUpdate owner orgID now)
  | takeOver {workerID epoch owner orgID now} :
      Makes (.takeOverWorker workerID owner orgID epoch now) (takeOverUpdate owner orgID epoch now)
  | terminal {record target reason now}
      (terminal : target = .retired ∨ target = .lost) :
      Makes (.markWorkerTerminalIfCurrent record target reason now) (terminalUpdate record target reason now)
  | hotIdle {record now} :
      Makes (.retireHotIdleWorker record now) (terminalUpdate record .retired "hot_idle_ttl_expired" now)
  | idleOrHotIdle {record reason now} :
      Makes (.retireIdleOrHotIdleWorker record reason now) (terminalUpdate record .retired reason now)
  | orphan {record reason liveCPs now} :
      Makes (.retireOrphanWorker record reason liveCPs now) (terminalUpdate record .retired reason now)
  | bump {workerID epoch owner now} : Makes (.bumpWorkerEpoch workerID owner epoch now) (bumpUpdate owner epoch now)
  | credentials {workerID epoch owner expiresAt now} :
      Makes (.markCredentialsRefreshed workerID owner epoch expiresAt now) (credentialsUpdate owner epoch expiresAt now)
  | lost {workerID epoch owner reason now} :
      Makes (.markWorkerLostIfCurrentLease workerID owner epoch reason now) (lostUpdate owner epoch reason now)
  | draining {workerID epoch owner now} :
      Makes (.markWorkerDraining workerID owner epoch now) (drainingUpdate owner epoch now)
  | retireDraining {workerID epoch owner reason now} :
      Makes (.retireDrainingWorker workerID owner epoch reason now) (retireDrainingUpdate owner epoch reason now)

variable {op : StoreOp} {u : WorkerUpdate} {workerID : Int} {t' : Workers} {R : WorkerRecord → WorkerRecord → Prop}

theorem Makes.storeUpdate (makes : Makes op u) : StoreUpdate u := by
  cases makes with
  | terminal hk => exact .terminal _ _ _ _ hk
  | hotIdle | idleOrHotIdle | orphan => exact .terminal _ _ _ _ (.inl rfl)
  | _ => constructor

inductive Made (op : StoreOp) (t : Workers) : Workers → Prop
  | same : Made op t t
  | update (workerID : Int) {u : WorkerUpdate} (makes : Makes op u) : Made op t (t.modify workerID u)

def inserts (t : Workers) : StoreOp → Bool
  | .upsertWorkerRecord record _ => (t.find? record.workerID).isNone
  | .createSpawningWorkerSlot .. | .createNeutralWarmWorkerSlot ..
  | .createNeutralWarmWorkerSlotForImage .. => true
  | _ => false

variable {t : Workers} {row next : WorkerRecord}
  {guard : WorkerRecord → Bool} {set : WorkerRecord → WorkerRecord} {keepsID : ∀ row, (set row).workerID = row.workerID}

theorem guardedBump_apply (hap : (guardedBump guard set keepsID).apply row = some next) :
    guard row = true ∧ next = { set row with ownerEpoch := row.ownerEpoch + 1 } := by
  obtain ⟨passed, hap⟩ := ite_none_right_eq_some.mp hap
  obtain ⟨epoch, hf, rfl⟩ := map_eq_some_iff.mp hap
  obtain ⟨-, ⟨⟩⟩ := ite_none_right_eq_some.mp hf
  exact ⟨passed, rfl⟩

theorem terminal_of_supported {target : WorkerState}
    (supported : ¬ (target ≠ .retired ∧ target ≠ .lost)) : target = .retired ∨ target = .lost := by
  by_contra neither
  exact supported (not_or.mp neither)

theorem claimRow_table (workerID : Int) (u : WorkerUpdate) :
    (t.claimRow workerID u).1 = t ∨ (t.claimRow workerID u).1 = t.modify workerID u := by
  unfold claimRow
  split
  · split
    · exact .inr rfl
    · exact .inl rfl
  · exact .inl rfl

theorem insertRow_cases (record : WorkerRecord) (result : OpResult) :
    (∃ next, t.insert? record = some next ∧ t.insertRow record result = (next, result)) ∨
      t.insertRow record result = (t, .error .constraint) := by
  unfold insertRow
  split
  · split
    · rename_i next hi
      exact .inl ⟨next, hi, rfl⟩
    · exact .inr rfl
  · exact .inr rfl

theorem insertRow_table (record : WorkerRecord) (result : OpResult) :
    t.insert? record = some (t.insertRow record result).1 ∨ (t.insertRow record result).1 = t := by
  rcases insertRow_cases record result with ⟨next, hi, hs⟩ | hs
  · rw [hs]
    exact .inl hi
  · rw [hs]
    exact .inr rfl

theorem upsertWorkerRecord_cases (record : WorkerRecord) (now : Nat) :
    (∃ next, t.insert? (stamped record now) = some next ∧
        t.upsertWorkerRecord record now = (next, .done)) ∨
      (∃ row next, t.find? record.workerID = some row ∧
        (upsertUpdate (stamped record now)).apply row = some next ∧
        t.upsertWorkerRecord record now = (t.modify record.workerID (upsertUpdate (stamped record now)), .done)) ∨
      ∃ error, t.upsertWorkerRecord record now = (t, .error error) := by
  unfold upsertWorkerRecord
  split
  · exact (insertRow_cases _ _).imp_right fun refused => .inr ⟨_, refused⟩
  split
  · rename_i affected
    obtain ⟨row, next, hf, hap⟩ := affects_iff.mp affected
    split
    · exact .inr (.inl ⟨row, next, hf, hap, rfl⟩)
    · exact .inr (.inr ⟨_, rfl⟩)
  · exact .inr (.inr ⟨_, rfl⟩)

theorem createSlot_table (r : SlotRequest) (now : Nat) :
    (∃ record, t.insert? record = some (t.createSlot r now).1) ∨ (t.createSlot r now).1 = t := by
  unfold createSlot
  split
  · exact .inr rfl
  · split
    · exact .inr rfl
    · exact (insertRow_table _ _).imp_left fun hi => ⟨_, hi⟩

theorem made_claimRow (makes : Makes op u) : Made op t (t.claimRow workerID u).1 := by
  rcases claimRow_table workerID u with hs | modified
  · rw [hs]
    exact .same
  · rw [modified]
    exact .update workerID makes

theorem made_terminal {record : WorkerRecord} {target : WorkerState} {reason : String} {now : Nat}
    (makes : target = .retired ∨ target = .lost → Makes op (terminalUpdate record target reason now)) :
    Made op t (t.markWorkerTerminalIfCurrent record target reason now).1 := by
  unfold markWorkerTerminalIfCurrent
  split
  · exact .same
  · rename_i supported
    exact .update _ (makes (terminal_of_supported supported))

theorem apply_made (op : StoreOp) (keeps : inserts t op = false) : Made op t (op.apply t).1 := by
  cases op with
  | upsertWorkerRecord =>
    simp only [StoreOp.apply, Workers.upsertWorkerRecord]
    split
    · rename_i gone
      simp [inserts, gone] at keeps
    split
    · split
      · exact .update _ .upsert
      · exact .same
    · exact .same
  | claimIdleWorker =>
    simp only [StoreOp.apply, Workers.claimIdleWorker]
    split
    · exact .same
    · split
      · split <;> exact .same
      · exact made_claimRow .claimIdle
  | claimHotIdleWorker =>
    simp only [StoreOp.apply, Workers.claimHotIdleWorker]
    split
    · exact .same
    · split
      · exact .same
      · exact made_claimRow .claimHotIdle
  | takeOverWorker =>
    simp only [StoreOp.apply, Workers.takeOverWorker]
    split
    · exact .same
    split
    · exact .same
    · split
      · exact .same
      · exact made_claimRow .takeOver
  | markWorkerTerminalIfCurrent => exact made_terminal .terminal
  | retireHotIdleWorker =>
    simp only [StoreOp.apply, Workers.retireHotIdleWorker]
    split
    · exact .same
    · exact made_terminal fun _ => .hotIdle
  | retireIdleOrHotIdleWorker =>
    simp only [StoreOp.apply, Workers.retireIdleOrHotIdleWorker]
    split
    · exact .same
    · exact made_terminal fun _ => .idleOrHotIdle
  | retireOrphanWorker =>
    simp only [StoreOp.apply, Workers.retireOrphanWorker]
    split
    · exact .same
    · exact .update _ .orphan
  | bumpWorkerEpoch =>
    simp only [StoreOp.apply, Workers.bumpWorkerEpoch]
    split
    · exact .update _ .bump
    · split <;> exact .same
  | markCredentialsRefreshed => exact .update _ .credentials
  | markWorkerLostIfCurrentLease => exact .update _ .lost
  | markWorkerDraining => exact .update _ .draining
  | retireDrainingWorker => exact .update _ .retireDraining
  | _ => cases keeps

theorem apply_cases (op : StoreOp) : (∃ record, t.insert? record = some (op.apply t).1) ∨ Made op t (op.apply t).1 := by
  have slot {r : SlotRequest} {now : Nat} (hs : (op.apply t).1 = (t.createSlot r now).1) :
      (∃ record, t.insert? record = some (op.apply t).1) ∨ Made op t (op.apply t).1 := by
    rw [hs]
    refine (createSlot_table r now).imp_right fun unchanged => ?_
    rw [unchanged]
    exact .same
  cases adds : inserts t op with
  | false => exact .inr (apply_made op adds)
  | true =>
    cases op with
    | upsertWorkerRecord record now =>
      have gone : t.find? record.workerID = none := isNone_iff_eq_none.mp adds
      simp only [StoreOp.apply, Workers.upsertWorkerRecord, gone]
      rcases insertRow_table (stamped record now) .done with hi | hs
      · exact .inl ⟨_, hi⟩
      · rw [hs]
        exact .inr .same
    | createSpawningWorkerSlot | createNeutralWarmWorkerSlot | createNeutralWarmWorkerSlotForImage => exact slot rfl
    | _ => cases adds

theorem Made.rewrite (made : Made op t t') : Rewrite t t' := by
  cases made with
  | same => exact .same
  | update workerID makes => exact .update workerID makes.storeUpdate

theorem apply_rewrite (op : StoreOp) (keeps : inserts t op = false) : Rewrite t (op.apply t).1 :=
  (apply_made op keeps).rewrite

theorem apply_change (op : StoreOp) : Change t (op.apply t).1 := by
  rcases apply_cases op with ⟨record, hi⟩ | made
  · exact .insert hi
  · exact .rewrite made.rewrite

theorem Rewrite.kept (rewritten : Rewrite t t') (hf : t.find? workerID = some row) : t'.find? workerID = some row ∨
      ∃ u next, StoreUpdate u ∧ u.apply row = some next ∧ t'.find? workerID = some next := by
  cases rewritten with
  | same => exact .inl hf
  | update target hk =>
    refine (find?_modify_cases target hf).imp_right ?_
    rintro ⟨next, hap, later⟩
    exact ⟨_, next, hk, hap, later⟩

theorem Change.kept (change : Change t t') (hf : t.find? workerID = some row) : t'.find? workerID = some row ∨
      ∃ u next, StoreUpdate u ∧ u.apply row = some next ∧ t'.find? workerID = some next := by
  cases change with
  | rewrite rewritten => exact rewritten.kept hf
  | insert hi => exact .inl (find?_insert_of_some hi hf)

theorem Change.related (change : Change t t') (refl : ∀ row, R row row)
    (hu : ∀ {u row next}, StoreUpdate u → u.apply row = some next → R row next) :
    Table.Related R t t' := by
  intro workerID row hf
  rcases change.kept hf with hs | ⟨u, next, hk, hap, later⟩
  · exact ⟨row, hs, refl row⟩
  · exact ⟨next, later, hu hk hap⟩

theorem Made.related (made : Made op t t') (refl : ∀ row, R row row)
    (hu : ∀ {u row next}, Makes op u → u.apply row = some next → R row next) :
    Table.Related R t t' := by
  intro id row hf
  cases made with
  | same => exact ⟨row, hf, refl row⟩
  | update workerID makes =>
    rcases find?_modify_cases workerID hf with hs | ⟨next, hap, later⟩
    · exact ⟨row, hs, refl row⟩
    · exact ⟨next, later, hu makes hap⟩

theorem apply_related (op : StoreOp) (refl : ∀ row, R row row)
    (hu : ∀ {u row next}, Makes op u → u.apply row = some next → R row next) :
    Table.Related R t (op.apply t).1 := by
  rcases apply_cases op with ⟨record, hi⟩ | made
  · exact fun id row hf => ⟨row, find?_insert_of_some hi hf, refl row⟩
  · exact made.related refl hu

theorem StoreUpdate.epoch (hk : StoreUpdate u) (hap : u.apply row = some next) : row.ownerEpoch ≤ next.ownerEpoch ∧
      (next.ownerCPInstanceID ≠ row.ownerCPInstanceID → row.ownerEpoch < next.ownerEpoch) := by
  cases hk with
  | upsert =>
    obtain ⟨passed, rfl⟩ := Update.guarded_apply.mp hap
    rcases (of_decide_eq_true passed).2 with newer | ⟨hs, owner⟩
    · exact ⟨Int.le_of_lt newer, fun _ => newer⟩
    · exact ⟨Int.le_of_eq hs, fun changed => absurd owner.symm changed⟩
  | claimIdle | claimHotIdle | takeOver | bump =>
    obtain ⟨-, rfl⟩ := guardedBump_apply hap
    exact ⟨Int.le_of_lt (Int.lt_succ _), fun _ => Int.lt_succ _⟩
  | credentials | lost | draining | retireDraining | terminal =>
    obtain ⟨-, rfl⟩ := Update.guarded_apply.mp hap
    exact ⟨Int.le_refl _, fun changed => absurd rfl changed⟩

theorem not_protected_of_lostEligible {state}
    (eligible : state ∈ workerLostEligibleStates) : state ∉ protectedStates := by
  revert eligible
  cases state <;> decide

theorem StoreUpdate.protected (hk : StoreUpdate u) (hap : u.apply row = some next) (hl : row.state ∈ protectedStates) :
    next.state = row.state ∨ row.state = .draining ∧ next.state = .retired := by
  cases hk with
  | upsert =>
    obtain ⟨passed, -⟩ := Update.guarded_apply.mp hap
    exact absurd hl (of_decide_eq_true passed).1
  | claimIdle =>
    obtain ⟨passed, -⟩ := guardedBump_apply hap
    rw [of_decide_eq_true passed] at hl
    exact absurd hl (by decide)
  | claimHotIdle =>
    obtain ⟨passed, -⟩ := guardedBump_apply hap
    rw [(of_decide_eq_true passed).1] at hl
    exact absurd hl (by decide)
  | takeOver =>
    obtain ⟨passed, -⟩ := guardedBump_apply hap
    rw [(of_decide_eq_true passed).2] at hl
    exact absurd hl (by decide)
  | bump =>
    obtain ⟨-, rfl⟩ := guardedBump_apply hap
    exact .inl rfl
  | credentials =>
    obtain ⟨-, rfl⟩ := Update.guarded_apply.mp hap
    exact .inl rfl
  | lost | draining =>
    obtain ⟨passed, -⟩ := Update.guarded_apply.mp hap
    exact absurd hl (not_protected_of_lostEligible (of_decide_eq_true passed).2)
  | retireDraining =>
    obtain ⟨passed, rfl⟩ := Update.guarded_apply.mp hap
    exact .inr ⟨(of_decide_eq_true passed).2, rfl⟩
  | terminal _ _ _ _ terminal =>
    obtain ⟨passed, rfl⟩ := Update.guarded_apply.mp hap
    have eligible := (of_decide_eq_true passed).2
    rcases terminal with rfl | rfl
    · refine .inr ⟨?_, rfl⟩
      have active : row.state ∈ workerActiveStates := eligible
      revert hl active
      cases row.state <;> decide
    · exact absurd hl (not_protected_of_lostEligible eligible)

def idleRow : WorkerRecord where
  workerID := 1
  podName := "duckgres-worker-1"
  image := "duckgres:1"
  state := .idle
  orgID := ""
  ownerCPInstanceID := some "a"
  ownerEpoch := 3
  activationStartedAt := none
  lastHeartbeatAt := 5
  retireReason := ""
  s3CredentialsExpiresAt := none
  updatedAt := 5

def oneRow (row : WorkerRecord) : Workers := ⟨[row], List.nodup_singleton _⟩

end Duckgres.Proof.Store
