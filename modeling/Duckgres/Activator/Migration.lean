import Duckgres.Activator.Request

/-!
# The migration flag of an organisation

`SharedWorkerActivator.ActivateReservedWorker` around its activation RPC, with `SetMigrating`,
`ClearMigrating` and `IsMigrating` of the router (controlplane/org_router.go). Both maps are
`sync.Map`s, so that each access is a step; no lock spans two of them.
-/

namespace Duckgres.Activator
open Base

structure MigrationMaps where
  migrationChecked : String → Option Bool
  migrating : String → Bool

variable (m : MigrationMaps) (orgID : String)

def MigrationMaps.setMigrating : MigrationMaps :=
  { m with migrating := Function.update m.migrating orgID true }

def MigrationMaps.clearMigrating : MigrationMaps :=
  { m with migrating := Function.update m.migrating orgID false }

def MigrationMaps.isMigrating : Bool := m.migrating orgID

def MigrationMaps.storeChecked (needed : Bool) : MigrationMaps :=
  { m with migrationChecked := Function.update m.migrationChecked orgID (some needed) }

inductive MigrationPhase where
  | building
  | loading (request : TenantActivationPayload)
  | checking (request : TenantActivationPayload)
  | blocking (request : TenantActivationPayload)
  | activating (request : TenantActivationPayload)
  | unblocking (request : TenantActivationPayload) (ok : Bool)
  | recording (request : TenantActivationPayload) (ok : Bool)
  | returned (ok : Bool)

/-- `needed` is what `CheckAndBackupMigration` returns, `none` for an error. -/
inductive MigrationStep where
  | build (source : OrgSource) (sts : StsAnswers)
  | load
  | check (needed : Option Bool)
  | block
  | activate (ok : Bool)
  | unblock
  | record

structure MigrationCall where
  orgID : String
  phase : MigrationPhase

namespace MigrationMaps
variable (m : MigrationMaps) (request : TenantActivationPayload)

def load : MigrationPhase :=
  match m.migrationChecked request.orgID with
  | some cached => .blocking (request.withMigration (some cached) none)
  | none => .checking request

def check (needed : Option Bool) : MigrationMaps :=
  match needed with
  | some needed => m.storeChecked request.orgID needed
  | none => m

def block : MigrationMaps := if request.duckLake.migrate then m.setMigrating request.orgID else m

def unblock : MigrationMaps := if request.duckLake.migrate then m.clearMigrating request.orgID else m

def record (ok : Bool) : MigrationMaps :=
  if request.duckLake.migrate && ok then m.storeChecked request.orgID false else m

def next (orgID : String) : MigrationPhase → MigrationStep → Option (MigrationMaps × MigrationPhase)
  | .building, .build source sts => match source.buildActivationRequest orgID sts with
    | .ok request => some (m, .loading request)
    | .error _ => some (m, .returned false)
  | .loading request, .load => some (m, m.load request)
  | .checking request, .check needed => some (m.check request needed, .blocking (request.withMigration none needed))
  | .blocking request, .block => some (m.block request, .activating request)
  | .activating request, .activate ok => some (m, .unblocking request ok)
  | .unblocking request ok, .unblock => some (m.unblock request, .recording request ok)
  | .recording request ok, .record => some (m.record request ok, .returned ok)
  | _, _ => none

end MigrationMaps

def migrationProgram : Program MigrationMaps MigrationCall MigrationStep String where
  start orgID := ⟨orgID, .building⟩
  step m c a := (m.next c.orgID c.phase a).map fun (maps, phase) => (maps, ⟨c.orgID, phase⟩)

abbrev MigrationWorld := World MigrationMaps MigrationCall

/-- A call clears the flag only while no other call is in an activation that migrates for the
organisation. -/
def UnblocksLast (w : MigrationWorld) : CallStep MigrationStep String → Prop
  | .advance call .unblock => ∀ c request ok, w.calls call = some c →
      c.phase = .unblocking request ok → request.duckLake.migrate →
      ∀ other d running, other ≠ call → w.calls other = some d → d.phase = .activating running →
        running.duckLake.migrate → running.orgID ≠ request.orgID
  | _ => True

end Duckgres.Activator
