import Duckgres.Base.Table
import Mathlib.Algebra.Group.Int.Defs

/-!
# Worker rows

The table `worker_records` (controlplane/configstore) and the guarded updates that the store's
statements make. Times are natural numbers, 0 being Go's zero time.
-/

namespace Duckgres.Store
open Base

inductive WorkerState where
  | spawning | idle | reserved | activating | hot | hotIdle | draining | retired | lost
  deriving DecidableEq

def workerActiveStates : List WorkerState := [.spawning, .idle, .reserved, .activating, .hot, .hotIdle, .draining]

def workerLostEligibleStates : List WorkerState := [.spawning, .idle, .reserved, .activating, .hot, .hotIdle]

def workerTerminalEligibleStates (target : WorkerState) : List WorkerState :=
  if target = .lost then workerLostEligibleStates else workerActiveStates

def protectedStates : List WorkerState := [.draining, .retired, .lost]

/-- A row. The owner is `none` where the column is NULL, which Go reads as the empty string. -/
structure WorkerRecord where
  workerID : Int
  podName : String
  image : String
  state : WorkerState
  orgID : String
  ownerCPInstanceID : Option String
  ownerEpoch : Int
  activationStartedAt : Option Nat
  lastHeartbeatAt : Nat
  retireReason : String
  s3CredentialsExpiresAt : Option Nat
  updatedAt : Nat
  deriving DecidableEq

def WorkerRecord.owner (record : WorkerRecord) : String := record.ownerCPInstanceID.getD ""

abbrev Workers := Table WorkerRecord.workerID

abbrev WorkerUpdate := Update WorkerRecord.workerID

/-- `owner_epoch + 1`; the statement fails beyond the column's range. -/
def nextEpoch (epoch : Int) : Option Int := if epoch < 2 ^ 63 - 1 then some (epoch + 1) else none

def guardedBump (guard : WorkerRecord → Bool) (set : WorkerRecord → WorkerRecord)
    (keepsID : ∀ row, (set row).workerID = row.workerID) : WorkerUpdate where
  apply row :=
    if guard row then (nextEpoch row.ownerEpoch).map fun epoch => { set row with ownerEpoch := epoch }
    else none
  key_apply row next applied := by
    obtain ⟨-, applied⟩ := Option.ite_none_right_eq_some.mp applied
    obtain ⟨epoch, -, rfl⟩ := Option.map_eq_some_iff.mp applied
    exact keepsID row

def upsertUpdate (record : WorkerRecord) : WorkerUpdate :=
  .guarded
    (fun row => row.state ∉ protectedStates ∧ (row.ownerEpoch < record.ownerEpoch ∨
      row.ownerEpoch = record.ownerEpoch ∧ row.ownerCPInstanceID = some record.owner))
    (fun row => { record with workerID := row.workerID, ownerCPInstanceID := some record.owner })
    (fun _ => rfl)

variable (owner orgID : String)

def claimIdleUpdate (now : Nat) : WorkerUpdate :=
  guardedBump (fun row => row.state = .idle)
    (fun row => { row with state := .reserved, orgID := orgID, ownerCPInstanceID := some owner,
                           updatedAt := now })
    (fun _ => rfl)

def claimHotIdleUpdate (now : Nat) : WorkerUpdate :=
  guardedBump (fun row => row.state = .hotIdle ∧ row.orgID = orgID)
    (fun row => { row with state := .reserved, ownerCPInstanceID := some owner, updatedAt := now })
    (fun _ => rfl)

def takeOverUpdate (expectedOwnerEpoch : Int) (now : Nat) : WorkerUpdate :=
  guardedBump (fun row => row.ownerEpoch = expectedOwnerEpoch ∧ row.state = .hot)
    (fun row => { row with state := .reserved, orgID := orgID, ownerCPInstanceID := some owner,
                           updatedAt := now })
    (fun _ => rfl)

variable (expectedOwnerEpoch : Int)

def leaseCurrent (row : WorkerRecord) : Bool :=
  row.ownerCPInstanceID = some owner ∧ row.ownerEpoch = expectedOwnerEpoch

def bumpUpdate (now : Nat) : WorkerUpdate :=
  guardedBump (leaseCurrent owner expectedOwnerEpoch) (fun row => { row with updatedAt := now }) (fun _ => rfl)

def credentialsUpdate (expiresAt now : Nat) : WorkerUpdate :=
  .guarded (leaseCurrent owner expectedOwnerEpoch)
    (fun row => { row with s3CredentialsExpiresAt := some expiresAt, updatedAt := now })
    (fun _ => rfl)

def lostUpdate (reason : String) (now : Nat) : WorkerUpdate :=
  .guarded (fun row => leaseCurrent owner expectedOwnerEpoch row ∧ row.state ∈ workerLostEligibleStates)
    (fun row => { row with state := .lost, retireReason := reason, updatedAt := now })
    (fun _ => rfl)

def drainingUpdate (now : Nat) : WorkerUpdate :=
  .guarded (fun row => leaseCurrent owner expectedOwnerEpoch row ∧ row.state ∈ workerLostEligibleStates)
    (fun row => { row with state := .draining, updatedAt := now })
    (fun _ => rfl)

def retireDrainingUpdate (reason : String) (now : Nat) : WorkerUpdate :=
  .guarded (fun row => leaseCurrent owner expectedOwnerEpoch row ∧ row.state = .draining)
    (fun row => { row with state := .retired, retireReason := reason, updatedAt := now })
    (fun _ => rfl)

def snapshotCurrent (record : WorkerRecord) (row : WorkerRecord) : Bool :=
  row.state = record.state ∧ row.ownerEpoch = record.ownerEpoch ∧
    (row.ownerCPInstanceID = some record.owner ∨ record.owner = "" ∧ row.ownerCPInstanceID = none) ∧
    (record.updatedAt = 0 ∨ row.updatedAt ≤ record.updatedAt)

def terminalUpdate (record : WorkerRecord) (target : WorkerState) (reason : String) (now : Nat) : WorkerUpdate :=
  .guarded (fun row => snapshotCurrent record row ∧ row.state ∈ workerTerminalEligibleStates target)
    (fun row => { row with state := target, retireReason := reason, updatedAt := now })
    (fun _ => rfl)

def countActiveWorkers (t : Workers) (p : WorkerRecord → Bool) : Nat :=
  t.count fun row => row.state ∈ workerActiveStates && p row

def countNeutralWarmWorkers (t : Workers) : Nat :=
  t.count fun row => row.orgID = "" && (row.state = .idle || row.state = .spawning)

def countNeutralWarmWorkersForImage (t : Workers) (image : String) : Nat :=
  t.count fun row => row.orgID = "" && row.image = image && (row.state = .idle || row.state = .spawning)

def capReached (max : Int) (count : Nat) : Bool := 0 < max ∧ max ≤ count

end Duckgres.Store
