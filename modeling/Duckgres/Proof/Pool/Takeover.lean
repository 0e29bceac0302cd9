import Duckgres.Proof.Pool.ServingRows

namespace Duckgres.Proof.Pool
open Base Duckgres.Store Duckgres.Pool Duckgres.Proof.Store PoolState

variable {s t : PoolState} {rows later : Workers} {record row : WorkerRecord}
  {phase after : PoolPhase} {a : PoolStep} {orgID : String} {ref : WorkerRef}

def taken? : PoolPhase → Option WorkerRecord
  | .reserving claim | .adopting claim | .claiming claim _ | .checking claim _
  | .persistingReserved _ claim _ => claim.taken
  | .entering taken _ | .preparing taken _ | .persistingActivating _ taken _ _
  | .activating taken _ _ | .finishing taken _ | .persistingHot _ taken _ | .concluding taken _
  | .failed taken => taken
  | .retiring _ _ resume | .retiringClaimed _ _ resume | .dropping _ resume => resume.taken
  | _ => none

def RetiresTaken (s : PoolState) (id : Int) (record : WorkerRecord) (reached : Bool) : Prop :=
  Condemned s.rows id ∨ reached = true ∧ ∃ w, s.pool.workers.find? id = some w ∧
    w.ownerEpoch = record.ownerEpoch ∧ s.pool.workerOwner w = record.owner ∧
    ∀ row ∈ s.rows.rows, row.workerID = id ∨ row.podName ≠ s.pool.workerPodName w

def Claimable (orgID : String) (record : WorkerRecord) (w : ManagedWorker) : Prop :=
  ¬ (0 < w.ownerEpoch ∧ record.ownerEpoch < w.ownerEpoch) ∧
    isDuplicateRuntimeWorkerClaim w record orgID = false ∧
    (w.sharedState.transition .reserved (some orgID)).isSome

def CleanStep (s : PoolState) (orgID : String) : PoolPhase → PoolStep → Prop
  | .takingOver id _, .takeOver image _ _ => ∀ row, s.rows.find? id = some row → image = "" ∨ row.image = image
  | .reserving claim, .reserve => claim.source = .takeOver → s.shuttingDown = false
  | .adopting claim, .adopt ok => claim.source = .takeOver → ok = true
  | .claiming claim birth, .claim stray _ => claim.source = .takeOver → s.shuttingDown = false ∧
      Claimable orgID claim.record ((s.worker? (claim.ref birth)).getD stray)
  | .retiring id _ resume, .retire _ reached => ∀ record, resume.taken = some record → RetiresTaken s id record reached
  | _, _ => True

def Clean (w : PoolWorld) : CallStep PoolStep PoolRequest → Prop
  | .advance call a => ∀ c, w.calls call = some c → CleanStep w.shared c.orgID c.phase a
  | _ => True

structure Tracked (rows : Workers) (record : WorkerRecord) : Prop where
  owner : record.ownerCPInstanceID = some record.owner
  row : ∃ row, rows.find? record.workerID = some row ∧ Succeeds record row

def Settled (rows : Workers) (record : WorkerRecord) : Prop :=
  ∃ row, rows.find? record.workerID = some row ∧ (record.ownerEpoch < row.ownerEpoch ∨ row.state ∈ protectedStates)

structure Grows (rows later : Workers) : Prop where
  succeed : RowsSucceed rows later
  settle : RowsSettle rows later

theorem grows_apply (op : StoreOp) : Grows rows (op.apply rows).1 := ⟨.apply op, .apply op⟩

theorem RowMoves.grows (hv : RowMoves s t phase) : Grows s.rows t.rows := by
  cases hv with
  | same hs =>
    rw [hs]
    exact ⟨Table.Related.refl Succeeds.refl _, RowsSettle.refl _⟩
  | foreign op _ rows =>
    rw [rows]
    exact grows_apply op
  | persists record now _ rows =>
    rw [rows]
    exact grows_apply (.upsertWorkerRecord record now)

theorem Tracked.grows (tracked : Tracked rows record) (grows : Grows rows later) : Tracked later record := by
  obtain ⟨owner, row, hf, succeeds⟩ := tracked
  obtain ⟨next, hfn, next'⟩ := grows.succeed _ row hf
  exact ⟨owner, next, hfn, succeeds.trans next'⟩

theorem Settled.grows (hse : Settled rows record) (grows : Grows rows later) : Settled later record := by
  obtain ⟨row, hf, hd⟩ := hse
  obtain ⟨next, hfn, succeeds⟩ := grows.succeed _ row hf
  obtain ⟨next', hfn', settles⟩ := grows.settle _ row hf
  rw [hfn] at hfn'
  cases hfn'
  refine ⟨next, hfn, hd.imp (fun newer => ?_) settles.held⟩
  exact newer.trans_le succeeds.1

theorem upsert_done (now : Nat) (hf : rows.find? record.workerID = some row)
    (unprotected : row.state ∉ protectedStates) (epoch : row.ownerEpoch = record.ownerEpoch)
    (owner : row.ownerCPInstanceID = some record.owner) (free : rows.podNameFree record = true) :
    (rows.upsertWorkerRecord record now).2 = .done := by
  have affected : rows.affects record.workerID (upsertUpdate (Workers.stamped record now)) = true := by
    have sameOwner : row.ownerCPInstanceID = some (Workers.stamped record now).owner := owner
    simp [Table.affects, hf, upsertUpdate, Update.guarded, unprotected, sameOwner, Workers.stamped, epoch]
  simp [Workers.upsertWorkerRecord, hf, affected, free]

variable {w : ManagedWorker} {id : Int} {reached ok : Bool} {claim : Claim} {taken : Option WorkerRecord} {now : Nat}
  {cfg : OrgPoolConfig}

theorem condemned_of_mark (reason : String) (now : Nat)
    (hf : s.rows.find? w.id = some row) (unprotected : row.state ∉ protectedStates)
    (epoch : row.ownerEpoch = w.ownerEpoch)
    (owner : row.ownerCPInstanceID = some (s.pool.workerOwner w))
    (free : ∀ row ∈ s.rows.rows, row.workerID = w.id ∨ row.podName ≠ s.pool.workerPodName w) :
    Condemned (s.finishRetirement now true (s.pool.markWorkerRetired w reason now)).rows w.id := by
  obtain ⟨p, r, marked, hsi, hse, sameOwner, samePod, terminal⟩ :
      ∃ p r, s.pool.markWorkerRetired w reason now = (p, some r) ∧ r.record.workerID = w.id ∧
        r.record.ownerEpoch = w.ownerEpoch ∧ r.record.owner = s.pool.workerOwner w ∧
        r.record.podName = s.pool.workerPodName w ∧ r.record.state ∈ protectedStates :=
    ⟨_, _, rfl, rfl, rfl, rfl, rfl, markWorkerRetired_state rfl⟩
  have podFree : s.rows.podNameFree r.record = true := by
    simpa [Workers.podNameFree, hsi, samePod] using free
  rw [← hsi] at hf
  have done := upsert_done now hf unprotected (epoch.trans hse.symm)
    (owner.trans (congrArg some sameOwner.symm)) podFree
  rw [marked, ← hsi]
  rcases upsert_cases r.record now with ⟨-, row', hf', hs⟩ | ⟨hfa, -⟩
  · exact ⟨row', hf', hs ▸ terminal⟩
  · exact absurd done hfa

theorem grows_retire (id : Int) (reason : String) (now : Nat) (reached : Bool) : Grows s.rows
      (s.finishRetirement now reached (s.pool.retireWorkerWithReason id reason now)).rows := by
  have hv : PoolMoves s (.retiring id reason (.fail none)) (.retire now reached) _ _ := moves_retire
  exact (rowMoves_of_moves hv).grows

theorem settled_of_retires (reason : String) (now : Nat)
    (tracked : Tracked s.rows record) (aimed : id = record.workerID)
    (retires : RetiresTaken s id record reached) :
    Settled (s.finishRetirement now reached (s.pool.retireWorkerWithReason id reason now)).rows
      record := by
  subst aimed
  have grows : Grows s.rows (s.finishRetirement now reached
    (s.pool.retireWorkerWithReason record.workerID reason now)).rows := grows_retire _ _ _ _
  rcases retires with ⟨row, hf, hl⟩ | ⟨rfl, w, foundWorker, epoch, owner, free⟩
  · exact Settled.grows ⟨row, hf, .inr hl⟩ grows
  obtain ⟨hasOwner, row, hf, succeeds⟩ := tracked
  by_cases newer : record.ownerEpoch < row.ownerEpoch
  · exact Settled.grows ⟨row, hf, .inl newer⟩ grows
  by_cases hl : row.state ∈ protectedStates
  · exact Settled.grows ⟨row, hf, .inr hl⟩ grows
  have hse : row.ownerEpoch = record.ownerEpoch := by
    have := succeeds.1
    omega
  have sameOwner : row.ownerCPInstanceID = record.ownerCPInstanceID := by
    by_contra changed
    exact newer (succeeds.2 changed)
  have isRetired : s.pool.retireWorkerWithReason record.workerID reason now =
      s.pool.markWorkerRetired w reason now := by
    simp [K8sWorkerPool.retireWorkerWithReason, foundWorker]
  have hsi : w.id = record.workerID := Table.key_of_find? foundWorker
  rw [← hsi] at hf free
  obtain ⟨row', hf', hl'⟩ := condemned_of_mark reason now hf hl
    (hse.trans epoch.symm) (by rw [sameOwner, hasOwner, owner]) free
  rw [isRetired]
  exact ⟨row', hsi ▸ hf', .inr hl'⟩

def Aimed (id : Int) : Resume → Prop
  | .fail _ => True
  | .retire other _ resume => other = id ∧ Aimed id resume
  | _ => False

def Shape : PoolPhase → Prop
  | .retiringClaimed _ _ resume | .dropping _ resume => resume.taken = none
  | .retiring id _ resume => ∀ record, resume.taken = some record → id = record.workerID ∧ Aimed record.workerID resume
  | phase => ∀ record ref, taken? phase = some record → phase.pointer = some ref → ref.id = record.workerID

structure Own (rows : Workers) (phase : PoolPhase) : Prop where
  tracked : ∀ record, taken? phase = some record → Tracked rows record
  settled : ∀ record, phase = .failed (some record) → Settled rows record
  shape : Shape phase

theorem Own.grows (own : Own rows phase) (grows : Grows rows later) : Own later phase :=
  ⟨fun record taken => (own.tracked record taken).grows grows,
    fun record hfa => (own.settled record hfa).grows grows, own.shape⟩

theorem shape_of_none (none : taken? phase = none) : Shape phase := by
  have vacuous (record : WorkerRecord) (taken : taken? phase = some record) : False := by
    rw [none] at taken
    cases taken
  cases phase with
  | retiringClaimed | dropping => exact none
  | retiring => exact fun record taken => (vacuous record taken).elim
  | _ => exact fun record ref taken => (vacuous record taken).elim

theorem Own.of_none (none : taken? phase = none) : Own rows phase where
  tracked record taken := by
    rw [none] at taken
    cases taken
  settled record hfa := by
    rw [hfa] at none
    cases none
  shape := shape_of_none none

structure Passes (phase after : PoolPhase) : Prop where
  taken : ∀ record, taken? after = some record → taken? phase = some record
  shape : Shape phase → Shape after
  unfailed : ∀ record, after ≠ .failed (some record)

theorem Own.passes (own : Own rows phase) (passes : Passes phase after) : Own rows after :=
  ⟨fun record taken => own.tracked record (passes.taken record taken),
    fun record hfa => absurd hfa (passes.unfailed record), passes.shape own.shape⟩

theorem taken_resume (resume : Resume) : taken? resume.phase = resume.taken := by
  cases resume <;> rfl

theorem taken_failed (claim : Claim) (stale : Bool) : (claim.failed stale).taken = claim.taken := by
  obtain ⟨record, source⟩ := claim
  cases source with
  | takeOver => rfl
  | hotIdle | idle => cases stale <;> rfl

theorem aimed_failed (taken : claim.taken = some record) (id : Int) (stale : Bool) : Aimed id (claim.failed stale) := by
  obtain ⟨hcl, source⟩ := claim
  cases source with
  | takeOver => trivial
  | hotIdle | idle => cases taken

theorem taken_of_source (other : claim.source ≠ .takeOver) : claim.taken = none := by
  unfold Claim.taken
  split
  · rename_i isTakeOver
    exact absurd isTakeOver other
  · rfl

theorem own_failed {stale} (other : claim.source ≠ .takeOver) : Own rows (claim.failed stale).phase := by
  refine .of_none ?_
  rw [taken_resume, taken_failed, taken_of_source other]

theorem record_of_taken (taken : claim.taken = some record) : claim.record = record := by
  unfold Claim.taken at taken
  split at taken
  · exact Option.some.inj taken
  · cases taken

theorem passes_activationFailed (hs : taken? phase = taken) (pointer : phase.pointer = some ref)
    (shape : Shape phase → ∀ record ref, taken? phase = some record → phase.pointer = some ref →
      ref.id = record.workerID) : Passes phase (activationFailed taken ref) where
  taken record hf := hs.trans hf
  shape own record hf := ⟨shape own record ref (hs.trans hf) pointer, trivial⟩
  unfailed record := by simp [activationFailed]

theorem passes_enter : Passes (.entering taken ref) (enterActivation taken ref w).2 := by
  unfold enterActivation
  split
  · split
    · exact ⟨fun _ hf => hf, (·), by simp⟩
    · exact passes_activationFailed rfl rfl id
  · exact ⟨fun _ hf => hf, (·), by simp⟩

theorem passes_prepare : Passes (.preparing taken ref) (s.prepareActivation taken ref ok now w).2 := by
  unfold prepareActivation
  split
  · exact passes_activationFailed rfl rfl id
  split
  · split
    · exact ⟨fun _ hf => hf, (·), by simp⟩
    · exact passes_activationFailed rfl rfl id
  split
  · exact ⟨fun _ hf => hf, (·), by simp⟩
  · exact passes_activationFailed rfl rfl id

theorem passes_answer {previous} :
    Passes (.activating taken ref previous) (answerActivation taken ref previous ok w).2 := by
  unfold answerActivation
  split
  · exact ⟨fun _ hf => hf, (·), by simp⟩
  · refine ⟨fun _ hf => hf, fun shape record hf => ?_, by simp⟩
    have aimed := shape record ref hf rfl
    exact ⟨aimed, aimed, trivial⟩

theorem passes_finish : Passes (.finishing taken ref) (s.finishActivation taken ref now w).2 := by
  unfold finishActivation
  split
  · exact ⟨fun _ hf => hf, (·), by simp⟩
  split
  · exact ⟨fun _ hf => hf, (·), by simp⟩
  · exact passes_activationFailed rfl rfl id

theorem passes_activated : Passes (.concluding taken ref) (activated taken ref) := by
  have none : taken? (activated taken ref) = none := by
    cases taken <;> rfl
  refine ⟨fun record hf => ?_, fun _ => shape_of_none none, fun record hfa => ?_⟩
  · rw [none] at hf
    cases hf
  · rw [hfa] at none
    cases none

theorem passes_conclude : Passes (.concluding taken ref) (concludeActivation taken ref w).2 := by
  unfold concludeActivation
  split
  · split
    · exact passes_activated
    · exact passes_activationFailed rfl rfl id
  · exact passes_activated
  · exact passes_activationFailed rfl rfl id

theorem passes_checkLiveness : Passes (.checking claim ref) (claim.checkLiveness ref ok) := by
  unfold Claim.checkLiveness
  split
  · exact ⟨fun _ hf => hf, (·), by simp⟩
  · refine ⟨fun record hf => (taken_failed claim false).symm.trans hf, fun shape record hf => ?_, by simp⟩
    have taken : claim.taken = some record := (taken_failed claim false).symm.trans hf
    exact ⟨shape record ref taken rfl, aimed_failed taken _ _⟩

theorem passes_claiming {birth} (hs : taken? phase = claim.taken) : Passes phase (.claiming claim birth) where
  taken record hf := hs.trans hf
  shape _ record ref hf pointer := by
    cases pointer
    exact congrArg WorkerRecord.workerID (record_of_taken hf)
  unfailed record := by simp

theorem own_reserve (own : Own s.rows (.reserving claim))
    (hcl : claim.source = .takeOver → s.shuttingDown = false) : Own s.rows (s.reserve claim) := by
  unfold reserve
  split
  · rename_i shuttingDown
    refine own_failed fun takeOver => ?_
    rw [hcl takeOver] at shuttingDown
    cases shuttingDown
  split
  · exact own.passes (passes_claiming rfl)
  · exact own.passes ⟨fun _ hf => hf, fun _ _ _ _ pointer => (by cases pointer), by simp⟩

theorem own_adopt (own : Own s.rows (.adopting claim)) (hcl : claim.source = .takeOver → ok = true) :
    Own (s.adopt claim ok).1.rows (s.adopt claim ok).2 := by
  unfold adopt
  split
  · rename_i hfa
    refine own_failed fun takeOver => ?_
    rw [hcl takeOver] at hfa
    cases hfa
  split <;> exact own.passes (passes_claiming rfl)

theorem own_claimWorker {birth} (own : Own s.rows (.claiming claim birth))
    (hcl : claim.source = .takeOver → s.shuttingDown = false ∧ Claimable orgID claim.record w) :
    Own s.rows (s.claimWorker orgID claim (claim.ref birth) now w).2 := by
  unfold claimWorker
  split
  · rename_i shuttingDown
    refine own_failed fun takeOver => ?_
    rw [(hcl takeOver).1] at shuttingDown
    cases shuttingDown
  obtain ⟨podName, named⟩ := named_worker claim.record w
  dsimp only
  rw [named]
  split
  · rename_i stale
    exact own_failed fun takeOver => (hcl takeOver).2.1 stale
  split
  · rename_i duplicate
    refine own_failed fun takeOver => ?_
    have other : isDuplicateRuntimeWorkerClaim { w with podName := podName } claim.record orgID =
        false := (hcl takeOver).2.2.1
    rw [other] at duplicate
    cases duplicate
  split
  · rename_i refused
    refine own_failed fun takeOver => ?_
    have legal := (hcl takeOver).2.2.2
    have none : w.sharedState.transition .reserved (some orgID) = none := refused
    rw [none] at legal
    cases legal
  · have aimed (record : WorkerRecord) (ref : WorkerRef) (hf : claim.taken = some record)
        (pointer : some (claim.ref birth) = some ref) : ref.id = record.workerID := by
      cases pointer
      exact congrArg WorkerRecord.workerID (record_of_taken hf)
    split <;> exact own.passes ⟨fun _ hf => hf, fun _ => aimed, by simp⟩

theorem own_takeOver {epoch image} (clean : ∀ row, s.rows.find? id = some row → image = "" ∨ row.image = image) :
    Own (s.takeOver orgID id epoch image now reached).1.rows
      (s.takeOver orgID id epoch image now reached).2 := by
  unfold takeOver
  split
  · exact .of_none rfl
  split
  · rename_i later record performed
    have hcl := claimed_apply (.takeOverWorker ..) performed
    have tracked : Tracked later record := ⟨hcl.owner, record, hcl.found, Succeeds.refl record⟩
    split
    · rename_i mismatch
      obtain ⟨row, hf, -, sameImage⟩ := hcl.row
      rw [takeOver_id performed] at hf
      rcases clean row hf with blank | hs
      · exact absurd blank mismatch.1
      · exact absurd (sameImage.trans hs) mismatch.2
    · refine ⟨fun record' taken => ?_, by simp, fun _ _ _ pointer => by cases pointer⟩
      cases taken
      exact tracked
  · exact .of_none rfl

theorem own_retire {reason resume} (own : Own s.rows (.retiring id reason resume))
    (hcl : ∀ record, resume.taken = some record → RetiresTaken s id record reached) :
    Own (s.finishRetirement now reached (s.pool.retireWorkerWithReason id reason now)).rows
      resume.phase := by
  cases taken : resume.taken with
  | none => exact .of_none ((taken_resume resume).trans taken)
  | some record =>
    obtain ⟨hsi, aimed⟩ := own.shape record taken
    have hse := settled_of_retires reason now (own.tracked record taken) hsi (hcl record taken)
    have tracked (record' : WorkerRecord) (hf : taken? resume.phase = some record') :=
      (own.tracked record' ((taken_resume resume).symm.trans hf)).grows (grows_retire id reason now reached)
    cases resume with
    | fail =>
      cases taken
      refine ⟨tracked, fun record' hfa => ?_, fun _ _ _ pointer => by cases pointer⟩
      cases hfa
      exact hse
    | retire =>
      refine ⟨tracked, by simp [Resume.phase], fun record' hf => ?_⟩
      have hs : some record = some record' := taken.symm.trans hf
      cases hs
      exact aimed
    | _ => exact aimed.elim

theorem taken_look {idle} (ha : s.look orgID idle cfg = some (t, after)) : taken? after = none := by
  cases idle with
  | some id =>
    obtain ⟨w, -, -, -, -, rfl⟩ := look_idle ha
    rfl
  | none =>
    dsimp only [look] at ha
    split at ha
    · cases ha
      rfl
    split at ha
    · cases ha
    split at ha <;> cases ha <;> rfl

theorem taken_claimHotIdle {locked} : taken? (s.claimHotIdle orgID cfg locked now reached).2 = none := by
  unfold claimHotIdle
  split
  · rfl
  split
  · dsimp only
    split <;> rfl
  · rfl
  · rfl

theorem taken_claimIdle {maxGlobal locked} : taken? (s.claimIdle orgID cfg maxGlobal locked now reached).2 = none := by
  unfold claimIdle
  split
  · rfl
  split <;> rfl

theorem taken_release : taken? (s.release id now).2 = none := by
  unfold release
  split
  · rfl
  dsimp only
  split
  · rfl
  · split <;> rfl

theorem taken_retireClaimed {reason resume} (free : resume.taken = none) :
    taken? (s.retireClaimed record reason resume now reached).2 = none := by
  have resumed := (taken_resume resume).trans free
  have untaken (scheduled : Bool) : taken? (if scheduled = true then
      .dropping record.workerID resume else resume.phase) = none := by
    split
    · exact free
    · exact resumed
  unfold retireClaimed
  split
  · exact untaken _
  · exact resumed

theorem own_atWorker {stray} {f : ManagedWorker → ManagedWorker × PoolPhase}
    (own : ∀ w, s.worker? ref = some w ∨ s.worker? ref = none ∧ w = { stray with id := ref.id } → Own s.rows (f w).2) :
    Own (s.atWorker ref stray f).1.rows (s.atWorker ref stray f).2 := by
  unfold atWorker
  split
  · rename_i w hf
    exact own w (.inl hf)
  · rename_i detached
    exact own _ (.inr ⟨detached, rfl⟩)

theorem Own.of_result {result} (own : Own result.1.rows result.2)
    (ha : some result = some (t, after)) : Own t.rows after := by
  cases ha
  exact own

theorem own_next (own : Own s.rows phase) (hcl : CleanStep s orgID phase a)
    (ha : s.next orgID phase a = some (t, after)) : Own t.rows after := by
  have grown := own.grows (rowMoves_of_moves (moves_of_next ha)).grows
  unfold next at ha
  split at ha
  · exact .of_none (taken_look ha)
  · exact .of_result (.of_none rfl) ha
  · exact .of_result (.of_none rfl) ha
  · exact .of_result (.of_none taken_claimHotIdle) ha
  · exact .of_result (.of_none taken_claimIdle) ha
  · exact .of_result (own_takeOver hcl) ha
  · exact .of_result (.of_none (taken_retireClaimed own.shape)) ha
  · exact .of_result (.of_none ((taken_resume _).trans own.shape)) ha
  · exact .of_result (own_reserve own hcl) ha
  · exact .of_result (own_adopt own hcl) ha
  · refine .of_result (own_atWorker fun w isWorker => own_claimWorker own fun takeOver => ?_) ha
    obtain ⟨running, claimable⟩ := hcl takeOver
    rcases isWorker with hf | ⟨detached, rfl⟩
    · rw [hf] at claimable
      exact ⟨running, claimable⟩
    · rw [detached] at claimable
      exact ⟨running, claimable⟩
  · exact .of_result (own.passes passes_checkLiveness) ha
  · exact .of_result (own_atWorker fun _ _ => own.passes passes_enter) ha
  · exact .of_result (own_atWorker fun _ _ => own.passes passes_prepare) ha
  · exact .of_result (own_atWorker fun _ _ => own.passes passes_answer) ha
  · exact .of_result (own_atWorker fun _ _ => own.passes passes_finish) ha
  · exact .of_result (own_atWorker fun _ _ => own.passes passes_conclude) ha
  · exact .of_result (own_atWorker fun _ _ => .of_none (by unfold countSession; split <;> rfl)) ha
  · exact .of_result (.of_none taken_release) ha
  · cases ha
    exact grown.passes ⟨fun _ hf => hf, (·), by simp⟩
  · cases ha
    exact grown.passes ⟨fun _ hf => hf, (·), by simp⟩
  · cases ha
    exact grown.passes ⟨fun _ hf => hf, (·), by simp⟩
  · exact .of_result (.of_none rfl) ha
  · exact .of_result (own_retire own hcl) ha
  · exact .of_result (.of_none rfl) ha
  · obtain ⟨-, ha⟩ := Option.ite_none_right_eq_some.mp ha
    exact .of_result (.of_none rfl) ha
  all_goals first | exact .of_result (.of_none rfl) ha | cases ha

theorem takeOver_failed {epoch image} (hfa : (s.takeOver orgID id epoch image now reached).2 = .failed none) :
    (s.takeOver orgID id epoch image now reached).1 = s := by
  unfold takeOver at hfa ⊢
  split at hfa
  · rw [if_pos (by assumption)]
  · rw [if_neg (by assumption)]
    split at hfa
    · split at hfa <;> cases hfa
    · rfl

theorem failed_reconnect_settled (s : PoolState) (steps : List (CallStep PoolStep PoolRequest))
    (final : PoolWorld) (obeys : poolProgram.machine.Obeys Clean (.init s) steps)
    (run : poolProgram.machine.run (.init s) steps = some final) :
    (∀ call c record, final.calls call = some c → c.phase = .failed (some record) →
      ∃ row, final.shared.rows.find? record.workerID = some row ∧
        (record.ownerEpoch < row.ownerEpoch ∨ row.state ∈ protectedStates)) ∧
    ∀ call c id epoch a shared next, final.calls call = some c → c.phase = .takingOver id epoch →
      poolProgram.step final.shared c a = some (shared, next) → next.phase = .failed none →
      shared.rows = final.shared.rows := by
  constructor
  · have hh : final.Holds (fun _ => True) fun s c => Own s.rows c.phase := by
      refine Program.holds_of_obeys _ _ ?_ ?_ ?_ (World.holds_init trivial) obeys run
      · exact fun w call request _ _ => by cases request <;> exact .of_none rfl
      · intro w call a c shared next hh clean hf hd
        obtain ⟨⟨state, phase⟩, ha, ⟨⟩⟩ := Option.map_eq_some_iff.mp hd
        exact ⟨trivial, own_next (hh.own call c hf) (clean c hf) ha⟩
      · intro w call a c shared next other d hh clean hf hd _ hfo
        exact (hh.own other d hfo).grows (rowMoves_of_moves (moves_of_step hd).1).grows
    intro call c record hf hfa
    exact (hh.own call c hf).settled record hfa
  · intro call c id epoch a shared next _ takingOver hd hfa
    obtain ⟨⟨state, phase⟩, ha, ⟨⟩⟩ := Option.map_eq_some_iff.mp hd
    rw [takingOver] at ha
    cases a with
    | takeOver =>
      have taken := Option.some.inj ha
      have hs := takeOver_failed (congrArg Prod.snd taken |>.trans hfa)
      rw [taken] at hs
      exact congrArg PoolState.rows hs
    | _ => cases ha

def unresponsiveSteps : List (CallStep PoolStep PoolRequest) :=
  poolCall 0 (.reconnectFlightWorker "acme" 1 3)
    [.takeOver "duckgres:1" 10 true, .reserve, .adopt true, .claim hotIdleWorker 10,
      .checkLiveness false, .retire 11 true]

theorem obeys_unresponsive :
    poolProgram.machine.Obeys Clean (.init (poolOfB hotRow .empty)) unresponsiveSteps := by
  refine .cons rfl trivial (.cons rfl ?_ (.cons rfl ?_ (.cons rfl ?_ (.cons rfl ?_ (.cons rfl ?_
    (.cons rfl ?_ trivial))))))
  · rintro _ ⟨⟩ row hf
    cases List.mem_singleton.mp (Table.find?_eq_some.mp hf).1
    exact .inr rfl
  · rintro _ ⟨⟩ _
    rfl
  · rintro _ ⟨⟩ _
    rfl
  · rintro _ ⟨⟩ _
    refine ⟨rfl, ?_, rfl, rfl⟩
    decide
  · rintro _ ⟨⟩
    trivial
  · rintro _ ⟨⟩ record ⟨⟩
    refine .inr ⟨rfl, _, rfl, rfl, rfl, fun row hm => .inl ?_⟩
    cases List.mem_singleton.mp hm
    rfl

theorem failed_reconnect_settled_unresponsive :
    ∃ w record row, poolProgram.machine.run (.init (poolOfB hotRow .empty))
        unresponsiveSteps = some w ∧
      w.calls 0 = some ⟨"acme", .failed (some record)⟩ ∧ record.workerID = 1 ∧
      w.shared.rows.find? 1 = some row ∧
      (record.ownerEpoch < row.ownerEpoch ∨ row.state ∈ protectedStates) := by
  obtain ⟨row, recorded, settled⟩ :=
    (failed_reconnect_settled (poolOfB hotRow .empty) unresponsiveSteps _ obeys_unresponsive rfl).1 0 _ _ rfl rfl
  exact ⟨_, _, row, rfl, rfl, rfl, recorded, settled⟩

theorem reconnect_leaves_reserved : ∃ w record row, poolProgram.machine.run (.init (poolOfB hotRow .empty))
        (poolCall 0 (.reconnectFlightWorker "acme" 1 3) [.takeOver "duckgres:2" 10 true]) = some w ∧
      w.calls 0 = some ⟨"acme", .failed (some record)⟩ ∧ w.shared.rows.find? 1 = some row ∧
      row.state = .reserved ∧ row.owner = "b" ∧ row.ownerEpoch = record.ownerEpoch :=
  ⟨_, _, _, rfl, rfl, rfl, rfl, rfl, rfl⟩

end Duckgres.Proof.Pool
