import Duckgres.Base.Machine
import Duckgres.Store.Worker

/-!
# Store operations

The operations of `ConfigStore` that write worker rows, each one step at its SQL transaction. The
labels carry what the environment decides: the clock, the rows other transactions hold locked, and
the control planes that are not expired.
-/

namespace Duckgres.Store
open Base

inductive StoreError where
  | upsertFenceMiss | ownerEpochMismatch | unsupportedTerminalState
  | podNamePrefixRequired | imageRequired
  -- a unique index or the range of a column
  | constraint

inductive WorkerClaimMissReason where
  | noIdle | orgCap | globalCap

inductive OpResult where
  | done
  | changed (affected : Bool)
  | claimed (record : WorkerRecord)
  | missed (reason : WorkerClaimMissReason)
  | notTaken
  | newEpoch (epoch : Int)
  | created (record : WorkerRecord)
  | blocked
  | error (e : StoreError)

namespace Workers

variable (t : Workers)

def fenced (workerID : Int) (u : WorkerUpdate) : Workers × OpResult :=
  (t.modify workerID u, .changed (t.affects workerID u))

def claimRow (workerID : Int) (u : WorkerUpdate) : Workers × OpResult :=
  if t.affects workerID u then
    match (t.modify workerID u).find? workerID with
    | some row => (t.modify workerID u, .claimed row)
    | none => (t, .error .constraint)
  else (t, .error .constraint)

variable (record : WorkerRecord)

def podNameFree : Bool :=
  t.rows.all fun row => row.workerID = record.workerID || row.podName ≠ record.podName

def insertRow (result : OpResult) : Workers × OpResult :=
  if t.podNameFree record then
    match t.insert? record with
    | some next => (next, result)
    | none => (t, .error .constraint)
  else (t, .error .constraint)

/-- gorm stamps `updated_at` where the record leaves it zero. -/
def stamped (now : Nat) : WorkerRecord :=
  { record with
    ownerCPInstanceID := some record.owner
    updatedAt := if record.updatedAt = 0 then now else record.updatedAt }

def upsertWorkerRecord (now : Nat) : Workers × OpResult :=
  match t.find? record.workerID with
  | none => t.insertRow (stamped record now) .done
  | some _ =>
    if t.affects record.workerID (upsertUpdate (stamped record now)) then
      if t.podNameFree record then
        (t.modify record.workerID (upsertUpdate (stamped record now)), .done)
      else (t, .error .constraint)
    else (t, .error .upsertFenceMiss)

def idleCandidate (image : String) (locked : List Int) : Option WorkerRecord :=
  t.least? fun row => row.state = .idle && (image = "" || row.image = image) && row.workerID ∉ locked

def hotIdleCandidate (orgID : String) (locked : List Int) : Option WorkerRecord :=
  t.least? fun row => row.state = .hotIdle && row.orgID = orgID && row.workerID ∉ locked

def orgCapReached (orgID : String) (maxOrgWorkers : Int) (count : Nat) : Bool :=
  orgID ≠ "" ∧ capReached maxOrgWorkers count

def claimIdleWorker (owner orgID image : String)
    (maxOrgWorkers maxGlobalWorkers : Int) (locked : List Int) (now : Nat) : Workers × OpResult :=
  if orgCapReached orgID maxOrgWorkers (countActiveWorkers t fun row => row.orgID = orgID) then
    (t, .missed .orgCap)
  else match t.idleCandidate image locked with
    | none =>
      if capReached maxGlobalWorkers (countActiveWorkers t fun _ => true) then
        (t, .missed .globalCap)
      else (t, .missed .noIdle)
    | some row => t.claimRow row.workerID (claimIdleUpdate owner orgID now)

def claimHotIdleWorker (owner orgID : String) (maxOrgWorkers : Int)
    (locked : List Int) (now : Nat) : Workers × OpResult :=
  if orgCapReached orgID maxOrgWorkers
      (countActiveWorkers t fun row => row.orgID = orgID && row.state ≠ .hotIdle) then
    (t, .missed .orgCap)
  else match t.hotIdleCandidate orgID locked with
    | none => (t, .missed .noIdle)
    | some row => t.claimRow row.workerID (claimHotIdleUpdate owner orgID now)

def takeOverWorker (workerID : Int) (owner orgID : String) (expectedOwnerEpoch : Int)
    (now : Nat) : Workers × OpResult :=
  match t.find? workerID with
  | none => (t, .notTaken)
  | some row =>
    if row.ownerEpoch ≠ expectedOwnerEpoch then (t, .error .ownerEpochMismatch)
    else if row.state ≠ .hot then (t, .notTaken)
    else t.claimRow workerID (takeOverUpdate owner orgID expectedOwnerEpoch now)

def markWorkerTerminalIfCurrent (target : WorkerState) (reason : String) (now : Nat) : Workers × OpResult :=
  if target ≠ .retired ∧ target ≠ .lost then (t, .error .unsupportedTerminalState)
  else t.fenced record.workerID (terminalUpdate record target reason now)

def retireHotIdleWorker (now : Nat) : Workers × OpResult :=
  if record.state ≠ .hotIdle then (t, .changed false)
  else t.markWorkerTerminalIfCurrent record .retired "hot_idle_ttl_expired" now

def retireIdleOrHotIdleWorker (reason : String) (now : Nat) : Workers × OpResult :=
  if record.state ≠ .idle ∧ record.state ≠ .hotIdle then (t, .changed false)
  else t.markWorkerTerminalIfCurrent record .retired reason now

def retireOrphanWorker (reason : String) (liveCPs : List String) (now : Nat) : Workers × OpResult :=
  if record.owner ≠ "" ∧ record.owner ∈ liveCPs then (t, .changed false)
  else t.fenced record.workerID (terminalUpdate record .retired reason now)

variable (workerID : Int) (owner : String) (expectedOwnerEpoch : Int)

def bumpWorkerEpoch (now : Nat) : Workers × OpResult :=
  if t.affects workerID (bumpUpdate owner expectedOwnerEpoch now) then
    (t.modify workerID (bumpUpdate owner expectedOwnerEpoch now), .newEpoch (expectedOwnerEpoch + 1))
  else if (t.find? workerID).any (leaseCurrent owner expectedOwnerEpoch) then (t, .error .constraint)
  else (t, .error .ownerEpochMismatch)

def markCredentialsRefreshed (expiresAt now : Nat) : Workers × OpResult :=
  t.fenced workerID (credentialsUpdate owner expectedOwnerEpoch expiresAt now)

def markWorkerLostIfCurrentLease (reason : String) (now : Nat) : Workers × OpResult :=
  t.fenced workerID (lostUpdate owner expectedOwnerEpoch reason now)

def markWorkerDraining (now : Nat) : Workers × OpResult :=
  t.fenced workerID (drainingUpdate owner expectedOwnerEpoch now)

def retireDrainingWorker (reason : String) (now : Nat) : Workers × OpResult :=
  t.fenced workerID (retireDrainingUpdate owner expectedOwnerEpoch reason now)

end Workers

inductive SlotKind where
  | spawning (orgID : String) (ownerEpoch maxOrgWorkers : Int)
  | neutral (targetWarmWorkers : Int)
  | neutralForImage (perImageTarget : Int)

structure SlotRequest where
  kind : SlotKind
  ownerCPInstanceID : String
  podNamePrefix : String
  image : String
  maxGlobalWorkers : Int

def isTrimmed (c : Char) : Bool :=
  let n := c.toNat
  9 ≤ n && n ≤ 13 || n == 32 || n == 0x85 || n == 0xA0 || n == 0x1680 ||
    0x2000 ≤ n && n ≤ 0x200A || n == 0x2028 || n == 0x2029 || n == 0x202F || n == 0x205F || n == 0x3000

def isBlank (text : String) : Bool := text.toList.all isTrimmed

namespace SlotRequest
variable (r : SlotRequest)

def invalid : Option StoreError :=
  if isBlank r.podNamePrefix then some .podNamePrefixRequired
  else match r.kind with
    | .neutralForImage _ => if isBlank r.image then some .imageRequired else none
    | _ => none

def orgID : String := match r.kind with
  | .spawning orgID _ _ => orgID
  | _ => ""

def ownerEpoch : Int := match r.kind with
  | .spawning _ ownerEpoch _ => ownerEpoch
  | _ => 0

def targetReached (t : Workers) : Bool := match r.kind with
  | .spawning orgID _ maxOrgWorkers =>
    Workers.orgCapReached orgID maxOrgWorkers (countActiveWorkers t fun row => row.orgID = orgID)
  | .neutral target => capReached target (countNeutralWarmWorkers t)
  | .neutralForImage target => capReached target (countNeutralWarmWorkersForImage t r.image)

def globalReached (t : Workers) : Bool := capReached r.maxGlobalWorkers (countActiveWorkers t fun _ => true)

def record (workerID : Int) (now : Nat) : WorkerRecord where
  workerID := workerID
  podName := r.podNamePrefix ++ "-" ++ toString workerID
  image := r.image
  state := .spawning
  orgID := r.orgID
  ownerCPInstanceID := some r.ownerCPInstanceID
  ownerEpoch := r.ownerEpoch
  activationStartedAt := none
  lastHeartbeatAt := now
  retireReason := ""
  s3CredentialsExpiresAt := none
  updatedAt := now

end SlotRequest

variable (t : Workers)

def nextWorkerID : Int := t.maxKey 0 + 1

def Workers.createSlot (r : SlotRequest) (now : Nat) : Workers × OpResult :=
  match r.invalid with
  | some e => (t, .error e)
  | none =>
    if r.targetReached t || r.globalReached t then (t, .blocked)
    else t.insertRow (r.record (nextWorkerID t) now) (.created (r.record (nextWorkerID t) now))

def createSpawningWorkerSlot (owner orgID image : String) (ownerEpoch : Int)
    (podNamePrefix : String) (maxOrgWorkers maxGlobalWorkers : Int) (now : Nat) : Workers × OpResult :=
  t.createSlot ⟨.spawning orgID ownerEpoch maxOrgWorkers, owner, podNamePrefix, image, maxGlobalWorkers⟩ now

def createNeutralWarmWorkerSlot (owner podNamePrefix image : String)
    (targetWarmWorkers maxGlobalWorkers : Int) (now : Nat) : Workers × OpResult :=
  t.createSlot ⟨.neutral targetWarmWorkers, owner, podNamePrefix, image, maxGlobalWorkers⟩ now

def createNeutralWarmWorkerSlotForImage (owner podNamePrefix image : String)
    (perImageTarget maxGlobalWorkers : Int) (now : Nat) : Workers × OpResult :=
  t.createSlot ⟨.neutralForImage perImageTarget, owner, podNamePrefix, image, maxGlobalWorkers⟩ now

inductive StoreOp where
  | upsertWorkerRecord (record : WorkerRecord) (now : Nat)
  | claimIdleWorker (owner orgID image : String) (maxOrgWorkers maxGlobalWorkers : Int) (locked : List Int) (now : Nat)
  | claimHotIdleWorker (owner orgID : String) (maxOrgWorkers : Int) (locked : List Int) (now : Nat)
  | takeOverWorker (workerID : Int) (owner orgID : String) (expectedOwnerEpoch : Int) (now : Nat)
  | markWorkerTerminalIfCurrent (record : WorkerRecord) (target : WorkerState) (reason : String) (now : Nat)
  | retireHotIdleWorker (record : WorkerRecord) (now : Nat)
  | retireIdleOrHotIdleWorker (record : WorkerRecord) (reason : String) (now : Nat)
  | retireOrphanWorker (record : WorkerRecord) (reason : String) (liveCPs : List String) (now : Nat)
  | bumpWorkerEpoch (workerID : Int) (owner : String) (expectedOwnerEpoch : Int) (now : Nat)
  | markCredentialsRefreshed (workerID : Int) (owner : String) (expectedOwnerEpoch : Int) (expiresAt now : Nat)
  | markWorkerLostIfCurrentLease (workerID : Int) (owner : String) (expectedOwnerEpoch : Int)
      (reason : String) (now : Nat)
  | markWorkerDraining (workerID : Int) (owner : String) (expectedOwnerEpoch : Int) (now : Nat)
  | retireDrainingWorker (workerID : Int) (owner : String) (expectedOwnerEpoch : Int) (reason : String) (now : Nat)
  | createSpawningWorkerSlot (owner orgID image : String) (ownerEpoch : Int) (podNamePrefix : String)
      (maxOrgWorkers maxGlobalWorkers : Int) (now : Nat)
  | createNeutralWarmWorkerSlot (owner podNamePrefix image : String)
      (targetWarmWorkers maxGlobalWorkers : Int) (now : Nat)
  | createNeutralWarmWorkerSlotForImage (owner podNamePrefix image : String)
      (perImageTarget maxGlobalWorkers : Int) (now : Nat)

def StoreOp.apply (t : Workers) : StoreOp → Workers × OpResult
  | .upsertWorkerRecord record now => t.upsertWorkerRecord record now
  | .claimIdleWorker owner orgID image maxOrg maxGlobal locked now =>
    t.claimIdleWorker owner orgID image maxOrg maxGlobal locked now
  | .claimHotIdleWorker owner orgID maxOrg locked now => t.claimHotIdleWorker owner orgID maxOrg locked now
  | .takeOverWorker workerID owner orgID epoch now => t.takeOverWorker workerID owner orgID epoch now
  | .markWorkerTerminalIfCurrent record target reason now => t.markWorkerTerminalIfCurrent record target reason now
  | .retireHotIdleWorker record now => t.retireHotIdleWorker record now
  | .retireIdleOrHotIdleWorker record reason now => t.retireIdleOrHotIdleWorker record reason now
  | .retireOrphanWorker record reason liveCPs now => t.retireOrphanWorker record reason liveCPs now
  | .bumpWorkerEpoch workerID owner epoch now => t.bumpWorkerEpoch workerID owner epoch now
  | .markCredentialsRefreshed workerID owner epoch expiresAt now =>
    t.markCredentialsRefreshed workerID owner epoch expiresAt now
  | .markWorkerLostIfCurrentLease workerID owner epoch reason now =>
    t.markWorkerLostIfCurrentLease workerID owner epoch reason now
  | .markWorkerDraining workerID owner epoch now => t.markWorkerDraining workerID owner epoch now
  | .retireDrainingWorker workerID owner epoch reason now => t.retireDrainingWorker workerID owner epoch reason now
  | .createSpawningWorkerSlot owner orgID image epoch podNamePrefix maxOrg maxGlobal now =>
    Store.createSpawningWorkerSlot t owner orgID image epoch podNamePrefix maxOrg maxGlobal now
  | .createNeutralWarmWorkerSlot owner podNamePrefix image target maxGlobal now =>
    Store.createNeutralWarmWorkerSlot t owner podNamePrefix image target maxGlobal now
  | .createNeutralWarmWorkerSlotForImage owner podNamePrefix image target maxGlobal now =>
    Store.createNeutralWarmWorkerSlotForImage t owner podNamePrefix image target maxGlobal now

def storeMachine : Machine Workers StoreOp := ⟨fun t op => some (op.apply t).1⟩

def StoreOp.fence? : StoreOp → Option (Int × Int)
  | .upsertWorkerRecord record _ | .markWorkerTerminalIfCurrent record _ _ _
  | .retireHotIdleWorker record _ | .retireIdleOrHotIdleWorker record _ _
  | .retireOrphanWorker record _ _ _ => some (record.workerID, record.ownerEpoch)
  | .takeOverWorker workerID _ _ epoch _ | .bumpWorkerEpoch workerID _ epoch _
  | .markCredentialsRefreshed workerID _ epoch _ _
  | .markWorkerLostIfCurrentLease workerID _ epoch _ _ | .markWorkerDraining workerID _ epoch _
  | .retireDrainingWorker workerID _ epoch _ _ => some (workerID, epoch)
  | _ => none

end Duckgres.Store
