import Duckgres.Base.Calls
import Duckgres.Pool.Cluster

/-!
# Workers for sessions

`AcquireWorker`, `ReconnectFlightWorker` and `ReleaseWorker` of `OrgReservedPool`
(controlplane/org_reserved_pool.go) on one control plane, with what they call in `K8sWorkerPool`. A
call is cut where the code takes and drops `p.mu` and at its calls of the store, of the worker and
of the cluster; what those answer is in the label. A worker that a call or a session has in its hands
may leave the map and come back as another object: `births` tells the objects of one id apart, and a
label says what a pointer to an object outside of the map reads (`stray`).
-/

namespace Duckgres.Pool
open Base Store Lifecycle

def isAllowedWorkerLifecycleTransition : WorkerLifecycleState → WorkerLifecycleState → Bool
  | .idle, .reserved | .idle, .retired
  | .reserved, .activating | .reserved, .retired
  | .activating, .hot | .activating, .retired
  | .hot, .draining | .hot, .retired | .hot, .hotIdle
  | .hotIdle, .reserved | .hotIdle, .retired
  | .draining, .retired => true
  | _, _ => false

/-- `none`: the organisation cannot change. -/
def resolveWorkerAssignment : Option String → Option String → Option (Option String)
  | none, proposed => some proposed
  | current, none => some current
  | some current, some proposed => if current = proposed then some (some proposed) else none

def SharedWorkerState.transition (s : SharedWorkerState) (next : WorkerLifecycleState)
    (assignment : Option String) : Option SharedWorkerState :=
  if isAllowedWorkerLifecycleTransition s.lifecycle next then
    (resolveWorkerAssignment s.assignment assignment).bind fun resolved =>
      if valid : validAssignment next resolved = true then some ⟨next, resolved, valid⟩ else none
  else none

def SharedWorkerState.neutral : SharedWorkerState := ⟨.idle, none, rfl⟩

def retireReasonActivationFailure : String := "activation_failure"

structure WorkerRef where
  id : Int
  birth : Nat

structure PoolState where
  rows : Workers
  pool : K8sWorkerPool
  shuttingDown : Bool
  births : Int → Nat

namespace PoolState
variable (s : PoolState)

def ref (id : Int) : WorkerRef := ⟨id, s.births id⟩

def worker? (ref : WorkerRef) : Option ManagedWorker :=
  if s.births ref.id = ref.birth then s.pool.workers.find? ref.id else none

def put (id : Int) (w : ManagedWorker) : PoolState :=
  { s with
    pool := { s.pool with
      workers := s.pool.workers.modify id ⟨fun old => some { w with id := old.id },
        fun _ _ applied => by cases applied; rfl⟩ } }

def setPool (p : K8sWorkerPool) : PoolState := { s with pool := p }

def persist (record : WorkerRecord) (now : Nat) (reached : Bool) : PoolState :=
  if reached then { s with rows := (s.rows.upsertWorkerRecord record now).1 } else s

end PoolState

structure OrgPoolConfig where
  maxWorkers : Int
  image : String

inductive ClaimSource where
  | hotIdle (cfg : OrgPoolConfig)
  | idle (cfg : OrgPoolConfig)
  | takeOver

structure Claim where
  record : WorkerRecord
  source : ClaimSource

def Claim.ref (claim : Claim) (birth : Nat) : WorkerRef := ⟨claim.record.workerID, birth⟩

def Claim.taken (claim : Claim) : Option WorkerRecord := match claim.source with
  | .takeOver => some claim.record
  | _ => none

inductive Resume where
  | claimHotIdle (cfg : OrgPoolConfig)
  | claimIdle (cfg : OrgPoolConfig)
  | retireClaimed (record : WorkerRecord) (reason : String) (after : Resume)
  | retire (id : Int) (reason : String) (after : Resume)
  | fail (taken : Option WorkerRecord)

def Resume.taken : Resume → Option WorkerRecord
  | .fail taken => taken
  | .retire _ _ after | .retireClaimed _ _ after => after.taken
  | _ => none

abbrev ReservedState := { state : SharedWorkerState // state.lifecycle = .reserved }

/-- What a call does next. The activation phases carry the row that was taken over, for a
reconnect. -/
inductive PoolPhase where
  | looking
  | claimingHotIdle (cfg : OrgPoolConfig)
  | claimingIdle (cfg : OrgPoolConfig)
  | takingOver (workerID ownerEpoch : Int)
  -- `retireClaimedWorker`, and its cleanup
  | retiringClaimed (record : WorkerRecord) (reason : String) (after : Resume)
  | dropping (id : Int) (after : Resume)
  | reserving (claim : Claim)
  | adopting (claim : Claim)
  | claiming (claim : Claim) (birth : Nat)
  | checking (claim : Claim) (ref : WorkerRef)
  -- `activateWorkerForOrg` around `K8sWorkerPool.ActivateReservedWorker`
  | entering (taken : Option WorkerRecord) (ref : WorkerRef)
  | preparing (taken : Option WorkerRecord) (ref : WorkerRef)
  | activating (taken : Option WorkerRecord) (ref : WorkerRef) (previous : Option ReservedState)
  | finishing (taken : Option WorkerRecord) (ref : WorkerRef)
  | concluding (taken : Option WorkerRecord) (ref : WorkerRef)
  | counting (ref : WorkerRef)
  -- the worker has been returned, and its session is not released
  | holding (ref : WorkerRef)
  -- `persistWorkerRecord`, after the lock has been dropped
  | persistingReserved (record : WorkerRecord) (claim : Claim) (ref : WorkerRef)
  | persistingActivating (record : WorkerRecord) (taken : Option WorkerRecord) (ref : WorkerRef)
      (previous : Option ReservedState)
  | persistingHot (record : WorkerRecord) (taken : Option WorkerRecord) (ref : WorkerRef)
  | persistingHotIdle (record : WorkerRecord)
  | retiring (id : Int) (reason : String) (after : Resume)
  | closing (id : Int)
  | closed
  | failed (taken : Option WorkerRecord)
  -- whatever else happens to the rows and to the map
  | environment

def Resume.phase : Resume → PoolPhase
  | .claimHotIdle cfg => .claimingHotIdle cfg
  | .claimIdle cfg => .claimingIdle cfg
  | .retireClaimed record reason after => .retiringClaimed record reason after
  | .retire id reason after => .retiring id reason after
  | .fail taken => .failed taken

inductive PoolStep where
  | look (idle : Option Int) (cfg : OrgPoolConfig)
  | cancel
  | claimHotIdle (locked : List Int) (now : Nat) (reached : Bool)
  | claimIdle (maxGlobalWorkers : Int) (locked : List Int) (now : Nat) (reached : Bool)
  | takeOver (image : String) (now : Nat) (reached : Bool)
  | retireClaimed (now : Nat) (reached : Bool)
  | drop
  | reserve
  | adopt (ok : Bool)
  | claim (stray : ManagedWorker) (now : Nat)
  | checkLiveness (ok : Bool)
  | enter (stray : ManagedWorker)
  | prepare (ok : Bool) (stray : ManagedWorker) (now : Nat)
  | activate (ok : Bool) (stray : ManagedWorker)
  | finish (stray : ManagedWorker) (now : Nat)
  | conclude (stray : ManagedWorker)
  | count (stray : ManagedWorker)
  | release (now : Nat)
  | persist (now : Nat) (reached : Bool)
  | retire (now : Nat) (reached : Bool)
  | close (now : Nat) (reached : Bool)
  | store (op : StoreOp)
  | remove (id : Int)
  | terminate (id : Int)
  | refresh (id : Int) (now : Nat) (reached : Bool)
  | shutDown

structure PoolCall where
  orgID : String
  phase : PoolPhase

inductive PoolRequest where
  | acquireWorker (orgID : String)
  | reconnectFlightWorker (orgID : String) (workerID ownerEpoch : Int)
  | environment

def workerReadyForScheduling (orgID : String) (w : ManagedWorker) : Bool :=
  K8sWorkerPool.workerBelongsToOrg orgID w && w.sharedState.lifecycle = .hot

def isIdleAssignedWorker (orgID : String) (w : ManagedWorker) : Bool :=
  !w.done && w.activeSessions = 0 && workerReadyForScheduling orgID w

def K8sWorkerPool.assignedWorkerCount (p : K8sWorkerPool) (orgID : String) : Nat :=
  p.workers.count fun w => !w.done && w.sharedState.lifecycle ≠ .hotIdle && K8sWorkerPool.workerBelongsToOrg orgID w

namespace PoolState
variable (s : PoolState) (orgID : String)

/-- `idle` is the worker that `findIdleAssignedWorkerLocked` meets first. -/
def look (idle : Option Int) (cfg : OrgPoolConfig) : Option (PoolState × PoolPhase) :=
  match idle with
  | some id => (s.pool.workers.find? id).bind fun w =>
    if !s.shuttingDown ∧ isIdleAssignedWorker orgID w then
      some (s.put id { w with activeSessions := w.activeSessions + 1 }, .holding (s.ref id))
    else none
  | none =>
    if s.shuttingDown then some (s, .failed none)
    else if s.pool.workers.rows.any (isIdleAssignedWorker orgID) then none
    else if cfg.maxWorkers = 0 ∨ s.pool.assignedWorkerCount orgID < cfg.maxWorkers then
      some (s, .claimingHotIdle cfg)
    else some (s, .looking)

def claimHotIdle (cfg : OrgPoolConfig) (locked : List Int) (now : Nat) (reached : Bool) : PoolState × PoolPhase :=
  if orgID = "" ∨ !reached then (s, .failed none)
  else match s.rows.claimHotIdleWorker s.pool.cpInstanceID orgID cfg.maxWorkers locked now with
    | (rows, .claimed record) =>
      ({ s with rows := rows },
        if cfg.image ≠ "" ∧ record.image ≠ cfg.image then
          .retiringClaimed record retireReasonMismatchedVersion (.claimIdle cfg)
        else .reserving ⟨record, .hotIdle cfg⟩)
    | (_, .missed .noIdle) => (s, .claimingIdle cfg)
    | _ => (s, .failed none)

def claimIdle (cfg : OrgPoolConfig) (maxGlobalWorkers : Int) (locked : List Int) (now : Nat)
    (reached : Bool) : PoolState × PoolPhase :=
  if !reached then (s, .failed none)
  else match s.rows.claimIdleWorker s.pool.cpInstanceID orgID cfg.image cfg.maxWorkers
      maxGlobalWorkers locked now with
    | (rows, .claimed record) => ({ s with rows := rows }, .reserving ⟨record, .idle cfg⟩)
    | _ => (s, .failed none)

/-- `claimSpecificWorker` as far as `reserveClaimedWorker`. -/
def takeOver (workerID ownerEpoch : Int) (image : String) (now : Nat) (reached : Bool) : PoolState × PoolPhase :=
  if orgID = "" ∨ !reached then (s, .failed none)
  else match s.rows.takeOverWorker workerID s.pool.cpInstanceID orgID ownerEpoch now with
    | (rows, .claimed record) =>
      ({ s with rows := rows },
        if image ≠ "" ∧ record.image ≠ image then .failed (some record)
        else .reserving ⟨record, .takeOver⟩)
    | _ => (s, .failed none)

end PoolState

/-- How the caller goes on after an error; `stale` is `errStaleRuntimeWorkerClaim`. -/
def Claim.failed (claim : Claim) (stale : Bool) : Resume := match claim.source with
  | .takeOver => .fail (some claim.record)
  | .hotIdle cfg =>
    if stale then .claimHotIdle cfg
    else .retireClaimed claim.record retireReasonCrash (.claimIdle cfg)
  | .idle cfg =>
    if stale then .claimHotIdle cfg
    else .retireClaimed claim.record retireReasonCrash (.claimHotIdle cfg)

def Claim.adopted (claim : Claim) : ManagedWorker where
  id := claim.record.workerID
  podName := claim.record.podName
  image := claim.record.image
  done := false
  activeSessions := 0
  lastUsed := 0
  reservedAt := 0
  sharedState := .neutral
  ownerEpoch := claim.record.ownerEpoch
  ownerCPInstanceID := claim.record.owner

def isDuplicateRuntimeWorkerClaim (w : ManagedWorker) (record : WorkerRecord) (orgID : String) : Bool :=
  w.ownerCPInstanceID = record.owner && w.ownerEpoch = record.ownerEpoch &&
    (w.sharedState.lifecycle = .reserved || w.sharedState.lifecycle = .activating) &&
    w.sharedState.assignment = some orgID

namespace PoolState
variable (s : PoolState) (orgID : String)

def atWorker (ref : WorkerRef) (stray : ManagedWorker)
    (f : ManagedWorker → ManagedWorker × PoolPhase) : PoolState × PoolPhase :=
  match s.worker? ref with
  | some w => (s.put ref.id (f w).1, (f w).2)
  | none => (s, (f { stray with id := ref.id }).2)

def reserve (claim : Claim) : PoolPhase :=
  if s.shuttingDown then (claim.failed false).phase
  else if (s.pool.workers.find? claim.record.workerID).isSome then
    .claiming claim (s.births claim.record.workerID)
  else .adopting claim

/-- `adoptClaimedWorker`, and its result put into the map unless another object is there. -/
def adopt (claim : Claim) (ok : Bool) : PoolState × PoolPhase :=
  if !ok then (s, (claim.failed false).phase)
  else match s.pool.workers.insert? claim.adopted with
    | some workers =>
      let id := claim.record.workerID
      let births := Function.update s.births id (s.births id + 1)
      ({ s with pool := { s.pool with workers := workers }, births := births }, .claiming claim (births id))
    | none => (s, .claiming claim (s.births claim.record.workerID))

/-- The second lock of `reserveClaimedWorker`. The owner and the epoch are set before the transition
is found to be allowed. -/
def claimWorker (claim : Claim) (ref : WorkerRef) (now : Nat) (w : ManagedWorker) : ManagedWorker × PoolPhase :=
  if s.shuttingDown then (w, (claim.failed false).phase)
  else
    let record := claim.record
    let w := if record.podName ≠ "" then { w with podName := record.podName } else w
    if 0 < w.ownerEpoch ∧ record.ownerEpoch < w.ownerEpoch then (w, (claim.failed true).phase)
    else if isDuplicateRuntimeWorkerClaim w record orgID then (w, (claim.failed true).phase)
    else
      let w := { w with ownerCPInstanceID := record.owner, ownerEpoch := record.ownerEpoch }
      match w.sharedState.transition .reserved (some orgID) with
      | none => (w, (claim.failed false).phase)
      | some state =>
        let w := { w with sharedState := state, reservedAt := now }
        (w, if record.state ≠ .reserved then
            .persistingReserved (s.pool.workerRecordFor w .reserved "" none now) claim ref
          else .checking claim ref)

end PoolState

def Claim.checkLiveness (claim : Claim) (ref : WorkerRef) (ok : Bool) : PoolPhase :=
  if ok then .entering claim.taken ref
  else .retiring ref.id retireReasonCrash (claim.failed false)

variable (taken : Option WorkerRecord) (ref : WorkerRef)

def activationFailed : PoolPhase := .retiring ref.id retireReasonActivationFailure (.fail taken)

/-- The worker has been activated: `AcquireWorker` counts its session, `ReconnectFlightWorker`
returns. -/
def activated : PoolPhase := match taken with
  | none => .counting ref
  | some _ => .holding ref

def enterActivation (w : ManagedWorker) : ManagedWorker × PoolPhase :=
  if w.sharedState.lifecycle = .reserved then
    match w.sharedState.transition .activating none with
    | some state => ({ w with sharedState := state }, .preparing taken ref)
    | none => (w, activationFailed taken ref)
  else (w, .preparing taken ref)

namespace PoolState
variable (s : PoolState) (orgID : String)

/-- The first lock of `ActivateReservedWorker`; `ok` says that the activator has built its
request. -/
def prepareActivation (taken : Option WorkerRecord) (ref : WorkerRef) (ok : Bool) (now : Nat)
    (w : ManagedWorker) : ManagedWorker × PoolPhase :=
  let activating (w : ManagedWorker) (previous : Option ReservedState) : PoolPhase :=
    .persistingActivating (s.pool.workerRecordFor w .activating "" (some now) now) taken ref previous
  if !ok then (w, activationFailed taken ref)
  else if reserved : w.sharedState.lifecycle = .reserved then
    match w.sharedState.transition .activating none with
    | some state =>
      let previous := ⟨w.sharedState, reserved⟩
      let w := { w with sharedState := state }
      (w, activating w (some previous))
    | none => (w, activationFailed taken ref)
  else if w.sharedState.lifecycle = .activating then (w, activating w none)
  else (w, activationFailed taken ref)

def finishActivation (taken : Option WorkerRecord) (ref : WorkerRef) (now : Nat)
    (w : ManagedWorker) : ManagedWorker × PoolPhase :=
  if w.sharedState.lifecycle = .hot then (w, .concluding taken ref)
  else match w.sharedState.transition .hot none with
    | some state =>
      let w := { w with sharedState := state }
      (w, .persistingHot (s.pool.workerRecordFor w .hot "" none now) taken ref)
    | none => (w, activationFailed taken ref)

end PoolState

/-- The answer of `ActivateTenant`. A failed activation is retired here and again by the caller. -/
def answerActivation (previous : Option ReservedState) (ok : Bool) (w : ManagedWorker) : ManagedWorker × PoolPhase :=
  if ok then (w, .finishing taken ref)
  else ({ w with sharedState := previous.elim w.sharedState Subtype.val },
    .retiring ref.id retireReasonActivationFailure (.retire ref.id retireReasonActivationFailure (.fail taken)))

def concludeActivation (w : ManagedWorker) : ManagedWorker × PoolPhase :=
  match w.sharedState.lifecycle with
  | .activating => match w.sharedState.transition .hot none with
    | some state => ({ w with sharedState := state }, activated taken ref)
    | none => (w, activationFailed taken ref)
  | .hot => (w, activated taken ref)
  | _ => (w, activationFailed taken ref)

def countSession (orgID : String) (ref : WorkerRef) (w : ManagedWorker) : ManagedWorker × PoolPhase :=
  if K8sWorkerPool.workerBelongsToOrg orgID w then
    ({ w with activeSessions := w.activeSessions + 1 }, .holding ref)
  else (w, .looking)

namespace PoolState
variable (s : PoolState)

/-- `TransitionToHotIdleIfNoSessions` under the lock. It looks the worker up by its id. -/
def release (id : Int) (now : Nat) : PoolState × PoolPhase :=
  match s.pool.workers.find? id with
  | none => (s, .closing id)
  | some w =>
    let w := { w with activeSessions := w.activeSessions - 1 }
    if w.activeSessions ≠ 0 ∨ w.sharedState.lifecycle ≠ .hot then (s.put id w, .closing id)
    else match w.sharedState.transition .hotIdle none with
      | none => (s.put id w, .closing id)
      | some state =>
        let w := { w with sharedState := state, lastUsed := now }
        (s.put id w, .persistingHotIdle (s.pool.workerRecordFor w .hotIdle "" none now))

def finishRetirement (now : Nat) (reached : Bool) : K8sWorkerPool × Option Retirement → PoolState
  | (p, none) => s.setPool p
  | (p, some r) => (s.persist r.record now reached).setPool p

def retireClaimed (record : WorkerRecord) (reason : String) (after : Resume) (now : Nat)
    (reached : Bool) : PoolState × PoolPhase :=
  if reached then
    let target := if reason = retireReasonCrash then WorkerState.lost else .retired
    let transition := retireFromSnapshot poolLifecycle s.rows ⟨record⟩ target reason now
    ({ s with rows := transition.rows },
      if transition.cleanup.isSome then .dropping record.workerID after else after.phase)
  else (s, after.phase)

/-- Not an upsert of this control plane, unless it retires the worker: those are steps of the calls. -/
def isForeign (op : StoreOp) : Bool := match op with
  | .upsertWorkerRecord record _ =>
    record.owner ≠ s.pool.cpInstanceID || record.state = .retired || record.state = .lost
  | _ => true

def terminate (id : Int) : PoolState :=
  match s.pool.workers.find? id with
  | some w => s.put id { w with done := true }
  | none => s

/-- `RefreshOwnerEpochAtomic` around `RefreshLease`. -/
def refresh (id : Int) (now : Nat) (reached : Bool) : PoolState :=
  match s.pool.workers.find? id with
  | none => s
  | some w => match s.rows.bumpWorkerEpoch id w.ownerCPInstanceID w.ownerEpoch now with
    | (rows, .newEpoch epoch) => if reached then { s with rows := rows }.put id { w with ownerEpoch := epoch } else s
    | _ => s

def next (orgID : String) : PoolPhase → PoolStep → Option (PoolState × PoolPhase)
  | .looking, .look idle cfg => s.look orgID idle cfg
  | .looking, .cancel | .claimingHotIdle _, .cancel => some (s, .failed none)
  | .claimingHotIdle cfg, .claimHotIdle locked now reached => some (s.claimHotIdle orgID cfg locked now reached)
  | .claimingIdle cfg, .claimIdle maxGlobalWorkers locked now reached =>
    some (s.claimIdle orgID cfg maxGlobalWorkers locked now reached)
  | .takingOver workerID ownerEpoch, .takeOver image now reached =>
    some (s.takeOver orgID workerID ownerEpoch image now reached)
  | .retiringClaimed record reason after, .retireClaimed now reached =>
    some (s.retireClaimed record reason after now reached)
  | .dropping id after, .drop => some (s.setPool (s.pool.without id), after.phase)
  | .reserving claim, .reserve => some (s, s.reserve claim)
  | .adopting claim, .adopt ok => some (s.adopt claim ok)
  | .claiming claim birth, .claim stray now =>
    some (s.atWorker (claim.ref birth) stray (s.claimWorker orgID claim (claim.ref birth) now))
  | .checking claim ref, .checkLiveness ok => some (s, claim.checkLiveness ref ok)
  | .entering taken ref, .enter stray => some (s.atWorker ref stray (enterActivation taken ref))
  | .preparing taken ref, .prepare ok stray now => some (s.atWorker ref stray (s.prepareActivation taken ref ok now))
  | .activating taken ref previous, .activate ok stray =>
    some (s.atWorker ref stray (answerActivation taken ref previous ok))
  | .finishing taken ref, .finish stray now => some (s.atWorker ref stray (s.finishActivation taken ref now))
  | .concluding taken ref, .conclude stray => some (s.atWorker ref stray (concludeActivation taken ref))
  | .counting ref, .count stray => some (s.atWorker ref stray (countSession orgID ref))
  | .holding ref, .release now => some (s.release ref.id now)
  | .persistingReserved record claim ref, .persist now reached =>
    some (s.persist record now reached, .checking claim ref)
  | .persistingActivating record taken ref previous, .persist now reached =>
    some (s.persist record now reached, .activating taken ref previous)
  | .persistingHot record taken ref, .persist now reached => some (s.persist record now reached, .concluding taken ref)
  | .persistingHotIdle record, .persist now reached => some (s.persist record now reached, .closed)
  | .retiring id reason after, .retire now reached =>
    some (s.finishRetirement now reached (s.pool.retireWorkerWithReason id reason now), after.phase)
  | .closing id, .close now reached =>
    some (s.finishRetirement now reached (s.pool.retireIfDrainingAndEmpty id now), .closed)
  | .environment, .store op =>
    if s.isForeign op then some ({ s with rows := (op.apply s.rows).1 }, .environment) else none
  | .environment, .remove id => some (s.setPool (s.pool.without id), .environment)
  | .environment, .terminate id => some (s.terminate id, .environment)
  | .environment, .refresh id now reached => some (s.refresh id now reached, .environment)
  | .environment, .shutDown => some ({ s with shuttingDown := true }, .environment)
  | _, _ => none

end PoolState

def poolProgram : Program PoolState PoolCall PoolStep PoolRequest where
  start
    | .acquireWorker orgID => ⟨orgID, .looking⟩
    | .reconnectFlightWorker orgID workerID ownerEpoch => ⟨orgID, .takingOver workerID ownerEpoch⟩
    | .environment => ⟨"", .environment⟩
  step s c a := (s.next c.orgID c.phase a).map fun (state, phase) => (state, ⟨c.orgID, phase⟩)

abbrev PoolWorld := World PoolState PoolCall

def PoolPhase.pointer : PoolPhase → Option WorkerRef
  | .claiming claim birth => some (claim.ref birth)
  | .persistingReserved _ _ ref | .checking _ ref | .entering _ ref
  | .preparing _ ref | .persistingActivating _ _ ref _ | .activating _ ref _ | .finishing _ ref
  | .persistingHot _ _ ref | .concluding _ ref | .counting ref | .holding ref => some ref
  | _ => none

def PoolPhase.disturbs : PoolPhase → PoolStep → Option Int
  | .looking, .look idle _ => idle
  | .dropping id _, .drop | .retiring id _ _, .retire .. | .closing id, .close ..
  | .environment, .remove id => some id
  | _, _ => none

variable (w : PoolWorld)

/-- A worker is taken, or leaves the map, only while no other call has a pointer to it. -/
def Undisturbed : CallStep PoolStep PoolRequest → Prop
  | .advance call a => ∀ c id, w.calls call = some c → c.phase.disturbs a = some id →
      ∀ other d ref, other ≠ call → w.calls other = some d → d.phase.pointer = some ref → ref.id ≠ id
  | _ => True

def Waits : CallStep PoolStep PoolRequest → Prop
  | .advance call a => ∀ c id, w.calls call = some c → c.phase.disturbs a = some id →
      ∀ other d ref, other ≠ call → w.calls other = some d → d.phase.pointer = some ref →
        ref.id ≠ id ∨ c.phase = .looking ∧ d.phase = .holding ref
  | _ => True

def NoReconnect : CallStep PoolStep PoolRequest → Prop
  | .advance call (.conclude _) => ∀ c record ref worker, w.calls call = some c →
      c.phase = .concluding (some record) ref → w.shared.worker? ref = some worker →
      worker.sharedState.lifecycle ≠ .activating ∧ worker.sharedState.lifecycle ≠ .hot
  | _ => True

def HoldsWorker (call : Nat) (id : Int) : Prop :=
  ∃ c ref, w.calls call = some c ∧ c.phase = .holding ref ∧ ref.id = id

structure PoolState.Fresh (s : PoolState) : Prop where
  sessions : ∀ id w, s.pool.workers.find? id = some w → w.activeSessions = 0
  lifecycle : ∀ id w, s.pool.workers.find? id = some w →
    w.sharedState.lifecycle = .idle ∨ w.sharedState.lifecycle = .hotIdle
  epoch : ∀ id w, s.pool.workers.find? id = some w → ∃ row, s.rows.find? id = some row ∧ w.ownerEpoch ≤ row.ownerEpoch

end Duckgres.Pool
