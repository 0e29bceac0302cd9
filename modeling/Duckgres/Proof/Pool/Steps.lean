import Duckgres.Pool.Sessions
import Duckgres.Proof.Lifecycle.Snapshot
import Duckgres.Proof.Store.Fencing

namespace Duckgres.Proof.Pool
open Base Duckgres.Store Duckgres.Pool Duckgres.Proof.Store Duckgres.Proof.Lifecycle Table PoolState Option

structure Rewrites (s t : PoolState) (id : Int) (old new : ManagedWorker) : Prop where
  found : s.pool.workers.find? id = some old
  rewritten : t.pool.workers.find? id = some new
  others : ∀ other, other ≠ id → t.pool.workers.find? other = s.pool.workers.find? other
  births : t.births = s.births
  cp : t.pool.cpInstanceID = s.pool.cpInstanceID

structure Removes (s t : PoolState) (id : Int) : Prop where
  removed : t.pool.workers.find? id = none
  others : ∀ other, other ≠ id → t.pool.workers.find? other = s.pool.workers.find? other
  births : t.births = s.births
  cp : t.pool.cpInstanceID = s.pool.cpInstanceID

structure Adopts (s t : PoolState) (id : Int) (new : ManagedWorker) : Prop where
  absent : s.pool.workers.find? id = none
  adopted : t.pool.workers.find? id = some new
  others : ∀ other, other ≠ id → t.pool.workers.find? other = s.pool.workers.find? other
  births : t.births = Function.update s.births id (s.births id + 1)
  cp : t.pool.cpInstanceID = s.pool.cpInstanceID

def uses : PoolPhase → Option WorkerRef
  | .claiming .. => none
  | phase => phase.pointer

def session? : PoolPhase → Option WorkerRef
  | .holding ref => some ref
  | _ => none

def Live (w : ManagedWorker) : Prop := w.sharedState.lifecycle ≠ .idle ∧ w.sharedState.lifecycle ≠ .hotIdle

def claim? : PoolPhase → Option Claim
  | .reserving claim | .adopting claim | .claiming claim _ => some claim
  | _ => none

def pending? : PoolPhase → Option WorkerRecord
  | .persistingReserved record .. | .persistingActivating record .. | .persistingHot record ..
  | .persistingHotIdle record => some record
  | _ => none

structure Free (phase : PoolPhase) : Prop where
  session : session? phase = none
  pointer : phase.pointer = none
  claim : claim? phase = none
  pending : pending? phase = none

structure GoesOn (ref : WorkerRef) (epoch : Int) (after : PoolPhase) : Prop where
  uses : uses after = some ref
  session : session? after = none
  claim : claim? after = none
  pending : ∀ record, pending? after = some record →
    record.workerID = ref.id ∧ record.ownerEpoch = epoch ∧ isIdleState record.state = false

structure Claimed (rows later : Workers) (record : WorkerRecord) : Prop where
  row : ∃ row, rows.find? record.workerID = some row ∧ record.ownerEpoch = row.ownerEpoch + 1 ∧ record.image = row.image
  found : later.find? record.workerID = some record
  state : record.state = .reserved
  owner : record.ownerCPInstanceID = some record.owner

inductive PoolMoves (s : PoolState) : PoolPhase → PoolStep → PoolState → PoolPhase → Prop
  | frees {phase a after} (before : session? phase = none) (free : Free after) : PoolMoves s phase a s after
  | shutsDown : PoolMoves s .environment .shutDown { s with shuttingDown := true } .environment
  | claims {phase a op record after} (before : session? phase = none) (foreign : s.isForeign op = true)
      (claimed : Claimed s.rows (op.apply s.rows).1 record) (session : session? after = none)
      (pointer : after.pointer = none) (pending : pending? after = none)
      (claim : ∀ claim, claim? after = some claim → claim.record = record) :
      PoolMoves s phase a { s with rows := (op.apply s.rows).1 } after
  | seeks {claim} : PoolMoves s (.reserving claim) .reserve s (.adopting claim)
  | points {phase a claim w}
      (claimed : claim? phase = some claim)
      (found : s.pool.workers.find? claim.record.workerID = some w) :
      PoolMoves s phase a s (.claiming claim (s.births claim.record.workerID))
  | adopts {claim ok t}
      (adopts : Adopts s t claim.record.workerID claim.adopted) (rows : t.rows = s.rows) :
      PoolMoves s (.adopting claim) (.adopt ok) t (.claiming claim (t.births claim.record.workerID))
  | checks {claim ref ok} : PoolMoves s (.checking claim ref) (.checkLiveness ok) s (.entering claim.taken ref)
  | astray {phase a ref after}
      (pointer : phase.pointer = some ref) (detached : s.worker? ref = none) :
      PoolMoves s phase a s after
  | overwrites {claim birth a t old new after} (found : s.worker? (claim.ref birth) = some old)
      (rewrites : Rewrites s t (claim.ref birth).id old new) (rows : t.rows = s.rows)
      (sessions : new.activeSessions = old.activeSessions)
      (state : new.sharedState = old.sharedState)
      (epoch : new.ownerEpoch = old.ownerEpoch ∨ new.ownerEpoch = claim.record.ownerEpoch)
      (free : Free after) : PoolMoves s (.claiming claim birth) a t after
  | reserves {claim birth a t old new after} (found : s.worker? (claim.ref birth) = some old)
      (rewrites : Rewrites s t (claim.ref birth).id old new) (rows : t.rows = s.rows)
      (sessions : new.activeSessions = old.activeSessions) (unused : ¬ Live old) (live : Live new)
      (epoch : new.ownerEpoch = claim.record.ownerEpoch)
      (goesOn : GoesOn (claim.ref birth) new.ownerEpoch after) :
      PoolMoves s (.claiming claim birth) a t after
  | touches {phase a ref t old new after} (used : uses phase = some ref)
      (before : session? phase = none) (found : s.worker? ref = some old)
      (rewrites : Rewrites s t ref.id old new) (rows : t.rows = s.rows)
      (sessions : new.activeSessions = old.activeSessions) (live : Live old → Live new)
      (epoch : new.ownerEpoch = old.ownerEpoch) (goesOn : Free after ∨ GoesOn ref new.ownerEpoch after) :
      PoolMoves s phase a t after
  | reconnects {record ref stray t old new} (found : s.worker? ref = some old)
      (ready : old.sharedState.lifecycle = .activating ∨ old.sharedState.lifecycle = .hot)
      (rewrites : Rewrites s t ref.id old new) (rows : t.rows = s.rows)
      (sessions : new.activeSessions = old.activeSessions) (live : Live new)
      (epoch : new.ownerEpoch = old.ownerEpoch) :
      PoolMoves s (.concluding (some record) ref) (.conclude stray) t (.holding ref)
  | counts {ref a t old new}
      (found : s.worker? ref = some old) (rewrites : Rewrites s t ref.id old new)
      (rows : t.rows = s.rows) (sessions : new.activeSessions = old.activeSessions + 1)
      (state : new.sharedState = old.sharedState) (epoch : new.ownerEpoch = old.ownerEpoch) :
      PoolMoves s (.counting ref) a t (.holding ref)
  | takes {id cfg t old new}
      (rewrites : Rewrites s t id old new) (rows : t.rows = s.rows) (live : Live old)
      (idle : old.activeSessions = 0) (sessions : new.activeSessions = 1)
      (state : new.sharedState = old.sharedState) (epoch : new.ownerEpoch = old.ownerEpoch) :
      PoolMoves s .looking (.look (some id) cfg) t (.holding (s.ref id))
  | releases {ref now t old new after} (rewrites : Rewrites s t ref.id old new) (rows : t.rows = s.rows)
      (sessions : new.activeSessions = old.activeSessions - 1)
      (epoch : new.ownerEpoch = old.ownerEpoch)
      (goesOn : Free after ∧ new.sharedState = old.sharedState ∨
        ∃ record, after = .persistingHotIdle record ∧ record.workerID = ref.id ∧
          record.ownerEpoch = old.ownerEpoch ∧ Live old ∧ ¬ Live new) :
      PoolMoves s (.holding ref) (.release now) t after
  | terminates {id t old new} (rewrites : Rewrites s t id old new)
      (rows : t.rows = s.rows) (sessions : new.activeSessions = old.activeSessions)
      (state : new.sharedState = old.sharedState) (epoch : new.ownerEpoch = old.ownerEpoch) :
      PoolMoves s .environment (.terminate id) t .environment
  | refreshes {id op now reached t old new row next} (rewrites : Rewrites s t id old new)
      (foreign : s.isForeign op = true) (rows : t.rows = (op.apply s.rows).1)
      (sessions : new.activeSessions = old.activeSessions)
      (state : new.sharedState = old.sharedState) (found : s.rows.find? id = some row)
      (later : t.rows.find? id = some next) (epoch : old.ownerEpoch = row.ownerEpoch)
      (newEpoch : new.ownerEpoch = row.ownerEpoch + 1)
      (bumped : next.ownerEpoch = row.ownerEpoch + 1) (owner : next.owner = row.owner)
      (rowState : next.state = row.state) :
      PoolMoves s .environment (.refresh id now reached) t .environment
  | persists {phase record now reached after} (pending : pending? phase = some record)
      (before : session? phase = none) (session : session? after = none)
      (uses : uses after = uses phase) (pointer : after.pointer = phase.pointer)
      (claim : claim? after = none) (persisted : pending? after = none) :
      PoolMoves s phase (.persist now reached) (s.persist record now reached) after
  | retires {phase a id record now reached t after} (before : session? phase = none)
      (disturbs : phase.disturbs a = some id)
      (terminal : record.state = .retired ∨ record.state = .lost)
      (rows : t.rows = (s.persist record now reached).rows) (removes : Removes s t id)
      (free : Free after) : PoolMoves s phase a t after
  | removes {phase a id t after}
      (before : session? phase = none) (disturbs : phase.disturbs a = some id)
      (rows : t.rows = s.rows) (removes : Removes s t id)
      (free : Free after) : PoolMoves s phase a t after
  | retiresClaimed {phase a record target reason now after} (before : session? phase = none)
      (free : Free after) :
      PoolMoves s phase a { s with rows := (s.rows.markWorkerTerminalIfCurrent record target reason now).1 } after
  | stores {op} (foreign : s.isForeign op = true) :
      PoolMoves s .environment (.store op) { s with rows := (op.apply s.rows).1 } .environment

variable {s t : PoolState} {id : Int} {ref : WorkerRef} {w old new : ManagedWorker}
  {phase after : PoolPhase} {orgID : String} {a : PoolStep}
  {state next : SharedWorkerState} {record : WorkerRecord} {cfg : OrgPoolConfig} {now : Nat}
  {reached ok : Bool} {stray : ManagedWorker} {claim : Claim} {taken : Option WorkerRecord} {reason : String}

abbrev Results (s : PoolState) (phase : PoolPhase) (a : PoolStep) (result : PoolState × PoolPhase) : Prop :=
  PoolMoves s phase a result.1 result.2

theorem rewrites_put (hf : s.pool.workers.find? id = some old) (w : ManagedWorker) :
    Rewrites s (s.put id w) id old { w with id := id } where
  found := hf
  rewritten := by
    have hsi : old.id = id := key_of_find? hf
    simp [put, find?_modify, hf, hsi]
  others other ne := find?_modify_of_ne _ _ ne
  births := rfl
  cp := rfl

theorem removes_without (s : PoolState) (id : Int) : Removes s (s.setPool (s.pool.without id)) id where
  removed := find?_filter_self _ id
  others _ ne := find?_filter_of_ne _ ne
  births := rfl
  cp := rfl

theorem births_persist (s : PoolState) (record : WorkerRecord) (now : Nat) (reached : Bool) :
    (s.persist record now reached).births = s.births := by
  unfold persist
  split <;> rfl

theorem pool_persist (s : PoolState) (record : WorkerRecord) (now : Nat) (reached : Bool) :
    (s.persist record now reached).pool = s.pool := by
  unfold persist
  split <;> rfl

theorem worker?_eq_some :
    s.worker? ref = some w ↔ s.births ref.id = ref.birth ∧ s.pool.workers.find? ref.id = some w := by
  unfold worker?
  split <;> simp_all

theorem worker?_ref (hf : s.pool.workers.find? id = some w) : s.worker? (s.ref id) = some w :=
  worker?_eq_some.mpr ⟨rfl, hf⟩

theorem pointer_of_uses (used : uses phase = some ref) : phase.pointer = some ref := by
  cases phase with
  | claiming => cases used
  | _ => exact used

theorem free_resume (after : Resume) : Free after.phase := by
  cases after <;> exact ⟨rfl, rfl, rfl, rfl⟩

theorem transition_lifecycle {target assignment} (hd : state.transition target assignment = some next) :
    next.lifecycle = target ∧ isAllowedWorkerLifecycleTransition state.lifecycle target = true := by
  obtain ⟨legal, hd⟩ := ite_none_right_eq_some.mp hd
  obtain ⟨resolved, -, hd⟩ := bind_eq_some_iff.mp hd
  obtain ⟨valid, ⟨⟩⟩ := dite_none_right_eq_some.mp hd
  exact ⟨rfl, legal⟩

theorem claimed_apply (op : StoreOp) {rows later}
    (performed : op.apply rows = (later, .claimed record)) : Claimed rows later record := by
  obtain ⟨u, row, claim, hf, hap, kept⟩ := claimed_row (congrArg Prod.snd performed)
  rw [performed] at kept
  cases claim with
  | idle | hotIdle | takeOver =>
    obtain ⟨-, rfl⟩ := guardedBump_apply hap
    exact ⟨⟨row, hf, rfl, rfl⟩, kept, rfl, rfl⟩

theorem moves_claims (op : StoreOp) {rows} (before : session? phase = none) (foreign : s.isForeign op = true)
    (performed : op.apply s.rows = (rows, .claimed record))
    (session : session? after = none) (pointer : after.pointer = none)
    (pending : pending? after = none)
    (claim : ∀ claim, claim? after = some claim → claim.record = record) :
    PoolMoves s phase a { s with rows := rows } after := by
  have hcl := claimed_apply op performed
  obtain rfl : (op.apply s.rows).1 = rows := by rw [performed]
  exact .claims before foreign hcl session pointer pending claim

theorem moves_claimHotIdle {locked} :
    Results s (.claimingHotIdle cfg) a (s.claimHotIdle orgID cfg locked now reached) := by
  unfold claimHotIdle
  split
  · exact .frees rfl ⟨rfl, rfl, rfl, rfl⟩
  split
  · rename_i hcl
    refine moves_claims (.claimHotIdleWorker ..) rfl rfl hcl ?_ ?_ ?_ ?_
    all_goals split
    all_goals try rfl
    · exact fun _ hf => by cases hf
    · exact fun claim hf => by cases hf; rfl
  · exact .frees rfl ⟨rfl, rfl, rfl, rfl⟩
  · exact .frees rfl ⟨rfl, rfl, rfl, rfl⟩

theorem moves_claimIdle {maxGlobal locked} :
    Results s (.claimingIdle cfg) a (s.claimIdle orgID cfg maxGlobal locked now reached) := by
  unfold claimIdle
  split
  · exact .frees rfl ⟨rfl, rfl, rfl, rfl⟩
  split
  · rename_i hcl
    exact moves_claims (.claimIdleWorker ..) rfl rfl hcl rfl rfl rfl fun claim hf => by cases hf; rfl
  · exact .frees rfl ⟨rfl, rfl, rfl, rfl⟩

theorem moves_takeOver {workerID ownerEpoch image} :
    Results s (.takingOver workerID ownerEpoch) a (s.takeOver orgID workerID ownerEpoch image now reached) := by
  unfold takeOver
  split
  · exact .frees rfl ⟨rfl, rfl, rfl, rfl⟩
  split
  · rename_i hcl
    refine moves_claims (.takeOverWorker ..) rfl rfl hcl ?_ ?_ ?_ ?_
    all_goals split
    all_goals try rfl
    · exact fun _ hf => by cases hf
    · exact fun claim hf => by cases hf; rfl
  · exact .frees rfl ⟨rfl, rfl, rfl, rfl⟩

/-! ## Steps on the worker of a pointer -/

theorem moves_atWorker {f : ManagedWorker → ManagedWorker × PoolPhase} (pointer : phase.pointer = some ref)
    (hat : ∀ old, s.worker? ref = some old → Rewrites s (s.put ref.id (f old).1) ref.id old
      { (f old).1 with id := ref.id } → PoolMoves s phase a (s.put ref.id (f old).1) (f old).2) :
    Results s phase a (s.atWorker ref stray f) := by
  unfold atWorker
  split
  · rename_i old hf
    exact hat old hf (rewrites_put (worker?_eq_some.mp hf).2 _)
  · rename_i detached
    exact .astray pointer detached

theorem recordFor_pending {w} {state} {startedAt}
    (hsi : w.id = ref.id) (busy : isIdleState state = false) (record : WorkerRecord)
    (hs : some (s.pool.workerRecordFor w state "" startedAt now) = some record) :
    record.workerID = ref.id ∧ record.ownerEpoch = w.ownerEpoch ∧
      isIdleState record.state = false := by
  cases hs
  exact ⟨hsi, rfl, busy⟩

theorem id_of_worker? (hf : s.worker? ref = some w) : w.id = ref.id := key_of_find? (worker?_eq_some.mp hf).2

theorem reserved_live {assignment} (hd : state.transition .reserved assignment = some next) :
    (state.lifecycle = .idle ∨ state.lifecycle = .hotIdle) ∧ next.lifecycle = .reserved := by
  obtain ⟨isReserved, legal⟩ := transition_lifecycle hd
  refine ⟨?_, isReserved⟩
  revert legal
  cases state.lifecycle <;> decide

theorem GoesOn.of_none {epoch} (used : Pool.uses after = some ref) (session : session? after = none)
    (claim : claim? after = none) (none : pending? after = none) : GoesOn ref epoch after :=
  ⟨used, session, claim, fun _ pending => by cases none.symm.trans pending⟩

theorem named_worker (record : WorkerRecord) (w : ManagedWorker) : ∃ podName,
    (if record.podName ≠ "" then { w with podName := record.podName } else w) =
      { w with podName := podName } := by
  split <;> exact ⟨_, rfl⟩

theorem moves_claim {birth} : Results s (.claiming claim birth) a
    (s.atWorker (claim.ref birth) stray (s.claimWorker orgID claim (claim.ref birth) now)) := by
  refine moves_atWorker rfl fun old hf hw => ?_
  have hsi := id_of_worker? hf
  revert hw
  unfold claimWorker
  split
  · exact fun hw => .overwrites hf hw rfl rfl rfl (.inl rfl) (free_resume _)
  obtain ⟨podName, named⟩ := named_worker claim.record old
  dsimp only
  rw [named]
  split
  · exact fun hw => .overwrites hf hw rfl rfl rfl (.inl rfl) (free_resume _)
  split
  · exact fun hw => .overwrites hf hw rfl rfl rfl (.inl rfl) (free_resume _)
  split
  · exact fun hw => .overwrites hf hw rfl rfl rfl (.inr rfl) (free_resume _)
  rename_i state hd
  obtain ⟨hun, reserved⟩ := reserved_live hd
  intro hw
  refine .reserves hf hw rfl rfl ?_ ?_ rfl ?_
  · rintro ⟨notIdle, notHotIdle⟩
    exact hun.elim notIdle notHotIdle
  · exact ⟨by simp [reserved], by simp [reserved]⟩
  · split
    · exact ⟨rfl, rfl, rfl, recordFor_pending hsi rfl⟩
    · exact .of_none rfl rfl rfl rfl

theorem live_of_transition {target} (hd : state.transition target none = some next) (notIdle : target ≠ .idle)
    (notHotIdle : target ≠ .hotIdle) : next.lifecycle ≠ .idle ∧ next.lifecycle ≠ .hotIdle := by
  rw [(transition_lifecycle hd).1]
  exact ⟨notIdle, notHotIdle⟩

theorem free_activationFailed (taken : Option WorkerRecord) (ref : WorkerRef) : Free (activationFailed taken ref) :=
  ⟨rfl, rfl, rfl, rfl⟩

theorem PoolMoves.kept (used : uses phase = some ref) (before : session? phase = none) (hf : s.worker? ref = some old)
    (goesOn : Free after ∨ GoesOn ref old.ownerEpoch after)
    (hw : Rewrites s (s.put ref.id old) ref.id old { old with id := ref.id }) :
    PoolMoves s phase a (s.put ref.id old) after := .touches used before hf hw rfl rfl id rfl goesOn

theorem moves_enter : Results s (.entering taken ref) a (s.atWorker ref stray (enterActivation taken ref)) := by
  refine moves_atWorker rfl fun old hf hw => ?_
  revert hw
  unfold enterActivation
  split
  · split
    · rename_i state hd
      intro hw
      refine .touches rfl rfl hf hw rfl rfl (fun _ => ?_) rfl (.inr (.of_none rfl rfl rfl rfl))
      exact live_of_transition hd (by decide) (by decide)
    · exact .kept rfl rfl hf (.inl (free_activationFailed _ _))
  · exact .kept rfl rfl hf (.inr (.of_none rfl rfl rfl rfl))

theorem moves_prepare :
    Results s (.preparing taken ref) a (s.atWorker ref stray (s.prepareActivation taken ref ok now)) := by
  refine moves_atWorker rfl fun old hf hw => ?_
  have hsi := id_of_worker? hf
  revert hw
  unfold prepareActivation
  split
  · exact .kept rfl rfl hf (.inl (free_activationFailed _ _))
  split
  · split
    · rename_i state hd
      intro hw
      refine .touches rfl rfl hf hw rfl rfl (fun _ => ?_) rfl (.inr ⟨rfl, rfl, rfl, recordFor_pending hsi rfl⟩)
      exact live_of_transition hd (by decide) (by decide)
    · exact .kept rfl rfl hf (.inl (free_activationFailed _ _))
  split
  · exact .kept rfl rfl hf (.inr ⟨rfl, rfl, rfl, recordFor_pending hsi rfl⟩)
  · exact PoolMoves.kept rfl rfl hf (.inl (free_activationFailed _ _))

theorem moves_answer {previous} :
    Results s (.activating taken ref previous) a (s.atWorker ref stray (answerActivation taken ref previous ok)) := by
  refine moves_atWorker rfl fun old hf hw => ?_
  revert hw
  unfold answerActivation
  split
  · exact .kept rfl rfl hf (.inr (.of_none rfl rfl rfl rfl))
  intro hw
  refine .touches rfl rfl hf hw rfl rfl (fun live => ?_) rfl (.inl ⟨rfl, rfl, rfl, rfl⟩)
  cases previous with
  | none => exact live
  | some previous => exact ⟨by simp [previous.2], by simp [previous.2]⟩

theorem moves_finish :
    Results s (.finishing taken ref) a (s.atWorker ref stray (s.finishActivation taken ref now)) := by
  refine moves_atWorker rfl fun old hf hw => ?_
  have hsi := id_of_worker? hf
  revert hw
  unfold finishActivation
  split
  · exact .kept rfl rfl hf (.inr (.of_none rfl rfl rfl rfl))
  split
  · rename_i state hd
    intro hw
    refine .touches rfl rfl hf hw rfl rfl (fun _ => ?_) rfl (.inr ⟨rfl, rfl, rfl, recordFor_pending hsi rfl⟩)
    exact live_of_transition hd (by decide) (by decide)
  · exact PoolMoves.kept rfl rfl hf (.inl (free_activationFailed _ _))

theorem moves_activated {t} (hf : s.worker? ref = some old)
    (ready : old.sharedState.lifecycle = .activating ∨ old.sharedState.lifecycle = .hot)
    (hw : Rewrites s t ref.id old new) (rows : t.rows = s.rows)
    (sessions : new.activeSessions = old.activeSessions) (live : Live new)
    (epoch : new.ownerEpoch = old.ownerEpoch) :
    PoolMoves s (.concluding taken ref) (.conclude stray) t (activated taken ref) := by
  cases taken with
  | none => exact .touches rfl rfl hf hw rows sessions (fun _ => live) epoch (.inr (.of_none rfl rfl rfl rfl))
  | some record => exact .reconnects hf ready hw rows sessions live epoch

theorem moves_conclude :
    Results s (.concluding taken ref) (.conclude stray) (s.atWorker ref stray (concludeActivation taken ref)) := by
  refine moves_atWorker rfl fun old hf hw => ?_
  revert hw
  unfold concludeActivation
  split
  · rename_i activating
    split
    · rename_i state hd
      exact fun hw => moves_activated hf (.inl activating) hw rfl rfl
        (live_of_transition hd (by decide) (by decide)) rfl
    · exact .kept rfl rfl hf (.inl (free_activationFailed _ _))
  · rename_i hot
    exact fun hw => moves_activated hf (.inr hot) hw rfl rfl ⟨by simp [hot], by simp [hot]⟩ rfl
  · exact .kept rfl rfl hf (.inl (free_activationFailed _ _))

theorem moves_count : Results s (.counting ref) a (s.atWorker ref stray (countSession orgID ref)) := by
  refine moves_atWorker rfl fun old hf hw => ?_
  revert hw
  unfold countSession
  split
  · exact fun hw => .counts hf hw rfl rfl rfl rfl
  · exact .kept rfl rfl hf (.inl ⟨rfl, rfl, rfl, rfl⟩)

theorem look_idle (ha : s.look orgID (some id) cfg = some (t, after)) :
    ∃ w, s.pool.workers.find? id = some w ∧ Live w ∧ w.activeSessions = 0 ∧
      t = s.put id { w with activeSessions := w.activeSessions + 1 } ∧ after = .holding (s.ref id) := by
  obtain ⟨w, hf, ha⟩ := bind_eq_some_iff.mp ha
  obtain ⟨⟨-, isIdle⟩, ⟨⟩⟩ := ite_none_right_eq_some.mp ha
  simp only [isIdleAssignedWorker, workerReadyForScheduling, Bool.and_eq_true, decide_eq_true_eq] at isIdle
  obtain ⟨⟨-, hun⟩, -, hot⟩ := isIdle
  exact ⟨w, hf, ⟨by simp [hot], by simp [hot]⟩, hun, rfl, rfl⟩

theorem moves_look {idle} (ha : s.look orgID idle cfg = some (t, after)) :
    PoolMoves s .looking (.look idle cfg) t after := by
  cases idle with
  | some id =>
    obtain ⟨w, hf, live, hun, rfl, rfl⟩ := look_idle ha
    exact .takes (rewrites_put hf _) rfl live hun (congrArg (· + 1) hun) rfl rfl
  | none =>
    dsimp only [look] at ha
    split at ha
    · cases ha
      exact .frees rfl ⟨rfl, rfl, rfl, rfl⟩
    split at ha
    · cases ha
    split at ha
    · cases ha
      exact .frees rfl ⟨rfl, rfl, rfl, rfl⟩
    · cases ha
      exact .frees rfl ⟨rfl, rfl, rfl, rfl⟩

theorem moves_reserve : PoolMoves s (.reserving claim) .reserve s (s.reserve claim) := by
  unfold reserve
  split
  · exact .frees rfl (free_resume _)
  split
  · rename_i hk
    obtain ⟨w, hf⟩ := isSome_iff_exists.mp hk
    exact .points rfl hf
  · exact .seeks

theorem moves_adopt : Results s (.adopting claim) (.adopt ok) (s.adopt claim ok) := by
  unfold adopt
  split
  · exact .frees rfl (free_resume _)
  split
  · rename_i workers hi
    refine .adopts ⟨?_, ?_, ?_, rfl, rfl⟩ rfl
    · exact (insert?_eq_some hi).1
    · exact find?_insert hi
    · exact fun other => find?_insert_of_ne hi
  · rename_i taken
    obtain ⟨w, hf⟩ := find?_of_insert?_eq_none taken
    exact .points rfl hf

theorem moves_release : Results s (.holding ref) (.release now) (s.release ref.id now) := by
  unfold release
  split
  · rename_i absent
    refine .astray rfl ?_
    simp [worker?, absent]
  rename_i old hf
  have hsi : old.id = ref.id := key_of_find? hf
  dsimp only
  split
  · exact .releases (rewrites_put hf _) rfl rfl rfl (.inl ⟨⟨rfl, rfl, rfl, rfl⟩, rfl⟩)
  rename_i last
  obtain ⟨-, hot⟩ := not_or.mp last
  replace hot : old.sharedState.lifecycle = .hot := not_not.mp hot
  split
  · exact .releases (rewrites_put hf _) rfl rfl rfl (.inl ⟨⟨rfl, rfl, rfl, rfl⟩, rfl⟩)
  · rename_i state hd
    refine .releases (rewrites_put hf _) rfl rfl rfl (.inr ⟨_, rfl, hsi, rfl, ?_, ?_⟩)
    · exact ⟨by simp [hot], by simp [hot]⟩
    · exact fun live => live.2 (transition_lifecycle hd).1

theorem moves_retired {w} (before : session? phase = none) (disturbs : phase.disturbs a = some id)
    (hf : s.pool.workers.find? id = some w) (free : Free after) :
    PoolMoves s phase a (s.finishRetirement now reached (s.pool.markWorkerRetired w reason now))
      after := by
  have hsi : w.id = id := key_of_find? hf
  subst hsi
  refine .retires before disturbs ?_ rfl ?_ free
  · simp only [K8sWorkerPool.workerRecordFor]
    split
    · exact .inr rfl
    · exact .inl rfl
  · exact ⟨(removes_without s w.id).removed, (removes_without s w.id).others, births_persist .., rfl⟩

theorem moves_retire {resume} : PoolMoves s (.retiring id reason resume) (.retire now reached)
      (s.finishRetirement now reached (s.pool.retireWorkerWithReason id reason now))
      resume.phase := by
  unfold K8sWorkerPool.retireWorkerWithReason
  split
  · exact .frees rfl (free_resume _)
  · rename_i w hf
    exact moves_retired rfl rfl hf (free_resume _)

theorem moves_close : PoolMoves s (.closing id) (.close now reached)
      (s.finishRetirement now reached (s.pool.retireIfDrainingAndEmpty id now)) .closed := by
  unfold K8sWorkerPool.retireIfDrainingAndEmpty
  split
  · exact .frees rfl ⟨rfl, rfl, rfl, rfl⟩
  split
  · exact .frees rfl ⟨rfl, rfl, rfl, rfl⟩
  · rename_i w hf _
    exact moves_retired rfl rfl hf ⟨rfl, rfl, rfl, rfl⟩

theorem moves_retireClaimed {resume} :
    Results s (.retiringClaimed record reason resume) a (s.retireClaimed record reason resume now reached) := by
  unfold retireClaimed
  split
  · dsimp only
    have free : ∀ scheduled : Bool,
        Free (if scheduled = true then .dropping record.workerID resume else resume.phase) := by
      intro scheduled
      split
      · exact ⟨rfl, rfl, rfl, rfl⟩
      · exact free_resume _
    rcases call_rows
      (.retireFromSnapshot ⟨record⟩ (if reason = retireReasonCrash then .lost else .retired) reason now) with hs | hs
    all_goals
      simp only [Duckgres.Lifecycle.LifecycleCall.apply] at hs
      rw [hs]
    · exact .frees rfl (free _)
    · exact .retiresClaimed rfl (free _)
  · exact .frees rfl (free_resume _)

theorem moves_checkLiveness : PoolMoves s (.checking claim ref) (.checkLiveness ok) s (claim.checkLiveness ref ok) := by
  unfold Claim.checkLiveness
  split
  · exact .checks
  · exact .frees rfl ⟨rfl, rfl, rfl, rfl⟩

theorem moves_terminate : PoolMoves s .environment (.terminate id) (s.terminate id) .environment := by
  unfold terminate
  split
  · rename_i w hf
    exact .terminates (rewrites_put hf _) rfl rfl rfl rfl
  · exact .frees rfl ⟨rfl, rfl, rfl, rfl⟩

theorem moves_refresh : PoolMoves s .environment (.refresh id now reached) (s.refresh id now reached) .environment := by
  unfold refresh
  split
  · exact .frees rfl ⟨rfl, rfl, rfl, rfl⟩
  rename_i w hf
  split
  · rename_i rows refreshed bumped
    split
    · obtain ⟨row, next, fresh, later, epoch, newEpoch, rest⟩ := bump_newEpoch bumped
      obtain ⟨bumpedEpoch, owner, state⟩ := rest
      have foreign : s.isForeign (.bumpWorkerEpoch id w.ownerCPInstanceID w.ownerEpoch now) = true := rfl
      have put := rewrites_put hf { w with ownerEpoch := refreshed }
      exact .refreshes ⟨put.found, put.rewritten, put.others, put.births, put.cp⟩ foreign
        (congrArg Prod.fst bumped).symm rfl rfl fresh later epoch newEpoch bumpedEpoch owner state
    · exact .frees rfl ⟨rfl, rfl, rfl, rfl⟩
  · exact .frees rfl ⟨rfl, rfl, rfl, rfl⟩

theorem PoolMoves.of_result {result}
    (hv : Results s phase a result) (ha : some result = some (t, after)) :
    PoolMoves s phase a t after := by
  cases ha
  exact hv

theorem moves_of_next (ha : s.next orgID phase a = some (t, after)) : PoolMoves s phase a t after := by
  unfold next at ha
  split at ha
  · exact moves_look ha
  · exact .of_result (.frees rfl ⟨rfl, rfl, rfl, rfl⟩) ha
  · exact .of_result (.frees rfl ⟨rfl, rfl, rfl, rfl⟩) ha
  · exact .of_result moves_claimHotIdle ha
  · exact .of_result moves_claimIdle ha
  · exact .of_result moves_takeOver ha
  · exact .of_result moves_retireClaimed ha
  · exact .of_result (.removes rfl rfl rfl (removes_without _ _) (free_resume _)) ha
  · exact .of_result moves_reserve ha
  · exact .of_result moves_adopt ha
  · exact .of_result moves_claim ha
  · exact .of_result moves_checkLiveness ha
  · exact .of_result moves_enter ha
  · exact .of_result moves_prepare ha
  · exact .of_result moves_answer ha
  · exact .of_result moves_finish ha
  · exact .of_result moves_conclude ha
  · exact .of_result moves_count ha
  · exact .of_result moves_release ha
  · cases ha
    exact .persists rfl rfl rfl rfl rfl rfl rfl
  · cases ha
    exact .persists rfl rfl rfl rfl rfl rfl rfl
  · cases ha
    exact .persists rfl rfl rfl rfl rfl rfl rfl
  · cases ha
    exact .persists rfl rfl rfl rfl rfl rfl rfl
  · exact .of_result moves_retire ha
  · exact .of_result moves_close ha
  · obtain ⟨foreign, ha⟩ := ite_none_right_eq_some.mp ha
    exact .of_result (.stores foreign) ha
  · exact .of_result (.removes rfl rfl rfl (removes_without _ _) ⟨rfl, rfl, rfl, rfl⟩) ha
  · exact .of_result moves_terminate ha
  · exact .of_result moves_refresh ha
  · exact .of_result .shutsDown ha
  · cases ha

theorem moves_of_step {c next} (ha : poolProgram.step s c a = some (t, next)) :
    PoolMoves s c.phase a t next.phase ∧ next.orgID = c.orgID := by
  obtain ⟨⟨state, phase⟩, hd, ⟨⟩⟩ := map_eq_some_iff.mp ha
  exact ⟨moves_of_next hd, rfl⟩

end Duckgres.Proof.Pool
