import Duckgres.Base.Machine
import Mathlib.Logic.Function.Basic

/-!
# Flight sessions and process ids

`orgRoutedSessionProvider` (controlplane/flight_ingress.go) over the `SessionManager`s of the
organisations (controlplane/session_mgr.go). Every manager counts its process ids from 1000, and the
provider keeps one map from process id to manager for all of them.
-/

namespace Duckgres.Flight
open Base

/-- A session in a manager's map. `call` is the provider call that created a Flight session; the
sessions of the Postgres listener have none. -/
structure SessionRef where
  manager : Nat
  call : Option Nat

structure SessionManager where
  orgID : String
  nextPID : Int32
  sessions : Int32 → Option SessionRef

def newSessionManager (orgID : String) : SessionManager := ⟨orgID, 1000, fun _ => none⟩

namespace SessionManager
variable (m : SessionManager)

def reservePID : SessionManager := { m with nextPID := m.nextPID + 1 }

def register (pid : Int32) (session : SessionRef) : SessionManager :=
  { m with sessions := Function.update m.sessions pid (some session) }

def detach (pid : Int32) : SessionManager := { m with sessions := Function.update m.sessions pid none }

end SessionManager

structure OwnedSession where
  manager : Nat
  call : Nat

inductive Call where
  | idle
  | routed (manager : Nat)
  | allocated (manager : Nat) (pid : Int32)
  | registered (manager : Nat) (pid : Int32)
  | live (manager : Nat) (pid : Int32)
  -- `DestroySession` has read the entry, which names `target`
  | owned (manager : Nat) (pid : Int32) (target : Nat)
  -- `target.DestroySession(pid)` has returned
  | detached (manager : Nat) (pid : Int32)
  | done

inductive EffectKind where
  | destroyed | unregistered

structure DestroyEffect where
  kind : EffectKind
  call : Nat
  manager : Nat
  victim : SessionRef

structure ProviderState where
  managers : Nat → Option SessionManager
  orgStacks : String → Option Nat
  pidSession : Int32 → Option OwnedSession
  calls : Nat → Call
  effects : List DestroyEffect

inductive ProviderStep where
  | createOrgStack (orgID : String) (manager : Nat)
  | destroyOrgStack (orgID : String)
  | createSession (call : Nat) (orgID : String)
  | reconnectSession (call : Nat) (orgID : String)
  | allocate (call : Nat)
  | register (call : Nat)
  | publish (call : Nat)
  | abort (call : Nat)
  | destroyRead (call : Nat)
  | destroyManaged (call : Nat)
  | destroyDelete (call : Nat)
  | reservePostgres (manager : Nat)
  | registerPostgres (manager : Nat) (pid : Int32)
  | detach (manager : Nat) (pid : Int32)

namespace ProviderState
variable (s : ProviderState)

def init : ProviderState := ⟨fun _ => none, fun _ => none, fun _ => none, fun _ => .idle, []⟩

def setCall (call : Nat) (phase : Call) : ProviderState := { s with calls := Function.update s.calls call phase }

def setManager (manager : Nat) (m : SessionManager) : ProviderState :=
  { s with managers := Function.update s.managers manager (some m) }

def routeCall (call : Nat) (orgID : String) : Option ProviderState :=
  match s.calls call with
  | .idle =>
    match s.orgStacks orgID with
    | some manager => some (s.setCall call (.routed manager))
    | none => some (s.setCall call .done)
  | _ => none

def step : ProviderStep → Option ProviderState
  | .createOrgStack orgID manager =>
    match s.managers manager with
    | none =>
      some { s.setManager manager (newSessionManager orgID) with
        orgStacks := Function.update s.orgStacks orgID (some manager) }
    | some _ => none
  | .destroyOrgStack orgID => some { s with orgStacks := Function.update s.orgStacks orgID none }
  | .createSession call orgID => s.routeCall call orgID
  | .reconnectSession call orgID => s.routeCall call orgID
  | .allocate call =>
    match s.calls call with
    | .routed manager =>
      (s.managers manager).map fun m =>
        (s.setManager manager m.reservePID).setCall call (.allocated manager m.reservePID.nextPID)
    | _ => none
  | .register call =>
    match s.calls call with
    | .allocated manager pid =>
      (s.managers manager).map fun m =>
        (s.setManager manager (m.register pid ⟨manager, some call⟩)).setCall call (.registered manager pid)
    | _ => none
  | .publish call =>
    match s.calls call with
    | .registered manager pid =>
      some { s.setCall call (.live manager pid) with
        pidSession := Function.update s.pidSession pid (some ⟨manager, call⟩) }
    | _ => none
  | .abort call =>
    match s.calls call with
    | .routed _ | .allocated _ _ => some (s.setCall call .done)
    | _ => none
  | .destroyRead call =>
    match s.calls call with
    | .live manager pid =>
      match s.pidSession pid with
      | some owned => some (s.setCall call (.owned manager pid owned.manager))
      | none => some (s.setCall call .done)
    | _ => none
  | .destroyManaged call =>
    match s.calls call with
    | .owned manager pid target =>
      (s.managers target).map fun m =>
        { (s.setManager target (m.detach pid)).setCall call (.detached manager pid) with
          effects := s.effects ++ (m.sessions pid).toList.map (⟨.destroyed, call, manager, ·⟩) }
    | _ => none
  | .destroyDelete call =>
    match s.calls call with
    | .detached manager pid =>
      some { s.setCall call .done with
        pidSession := Function.update s.pidSession pid none
        effects := s.effects ++ (s.pidSession pid).toList.map fun owned =>
          ⟨.unregistered, call, manager, ⟨owned.manager, some owned.call⟩⟩ }
    | _ => none
  | .reservePostgres manager => (s.managers manager).map fun m => s.setManager manager m.reservePID
  | .registerPostgres manager pid =>
    (s.managers manager).map fun m => s.setManager manager (m.register pid ⟨manager, none⟩)
  | .detach manager pid => (s.managers manager).map fun m => s.setManager manager (m.detach pid)

end ProviderState

def providerMachine : Machine ProviderState ProviderStep := ⟨ProviderState.step⟩

def Call.pid? : Call → Option Int32
  | .allocated _ pid | .registered _ pid | .live _ pid | .owned _ pid _ | .detached _ pid => some pid
  | _ => none

def FreshPid (s : ProviderState) : ProviderStep → Prop
  | .allocate call =>
    ∀ manager m, s.calls call = .routed manager → s.managers manager = some m →
      ∀ other, (s.calls other).pid? ≠ some m.reservePID.nextPID
  | _ => True

structure RoutedByPid (s : ProviderState) : Prop where
  entry : ∀ call manager pid, s.calls call = .live manager pid → s.pidSession pid = some ⟨manager, call⟩
  effects : ∀ effect ∈ s.effects, effect.victim.manager = effect.manager

end Duckgres.Flight
