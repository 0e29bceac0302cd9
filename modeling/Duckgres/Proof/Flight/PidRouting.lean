import Duckgres.Flight.Provider

namespace Duckgres.Proof.Flight
open Base Duckgres.Flight Option Function List

variable {s : ProviderState}

def Call.published : Call → Option (Nat × Int32)
  | .live manager pid | .owned manager pid _ | .detached manager pid => some (manager, pid)
  | _ => none

structure PidOwner (s : ProviderState) : Prop where
  distinct : ∀ call other pid, (s.calls call).pid? = some pid → (s.calls other).pid? = some pid → call = other
  entry : ∀ call manager pid, Call.published (s.calls call) = some (manager, pid) →
    s.pidSession pid = some ⟨manager, call⟩
  target : ∀ call manager pid target, s.calls call = .owned manager pid target → target = manager
  registry : ∀ manager m, s.managers manager = some m →
    ∀ pid session, m.sessions pid = some session → session.manager = manager
  effects : ∀ effect ∈ s.effects, effect.victim.manager = effect.manager

theorem pidOwner_init : PidOwner .init where
  distinct _ _ _ hf := by cases hf
  entry _ _ _ hf := by cases hf
  target _ _ _ _ hf := by cases hf
  registry _ _ hf := by cases hf
  effects _ hm := by cases hm

variable {call manager : Nat} {pid : Int32} {m : SessionManager}

theorem pid_of_published {call} (hf : Call.published call = some (manager, pid)) : call.pid? = some pid := by
  cases call <;> cases hf <;> rfl

/-! ## Steps of one call -/

theorem calls_setCall (call other : Nat) (phase : Call) :
    (s.setCall call phase).calls other = if other = call then phase else s.calls other := by
  simp [ProviderState.setCall, update_apply]

theorem PidOwner.setCall (owner : PidOwner s) (call : Nat) {phase}
    (fresh : ∀ pid, phase.pid? = some pid → ∀ other, (s.calls other).pid? = some pid → other = call)
    (entry : ∀ manager pid, Call.published phase = some (manager, pid) → s.pidSession pid = some ⟨manager, call⟩)
    (target : ∀ manager pid target, phase = .owned manager pid target → target = manager) :
    PidOwner (s.setCall call phase) where
  distinct first second pid left right := by
    rw [calls_setCall] at left right
    split at left <;> split at right
    · rename_i firstSame secondSame
      rw [firstSame, secondSame]
    · rename_i firstSame _
      rw [firstSame]
      exact (fresh pid left second right).symm
    · rename_i _ secondSame
      rw [secondSame]
      exact fresh pid right first left
    · exact owner.distinct first second pid left right
  entry other manager pid hf := by
    rw [calls_setCall] at hf
    split at hf
    · rename_i hs
      rw [hs]
      exact entry manager pid hf
    · exact owner.entry other manager pid hf
  target other manager pid named hf := by
    rw [calls_setCall] at hf
    split at hf
    · exact target manager pid named hf
    · exact owner.target other manager pid named hf
  registry := owner.registry
  effects := owner.effects

theorem PidOwner.finish (owner : PidOwner s) (call : Nat) : PidOwner (s.setCall call .done) :=
  owner.setCall call nofun nofun nofun

theorem PidOwner.only (owner : PidOwner s) (hl : (s.calls call).pid? = some pid) :
    ∀ other, (s.calls other).pid? = some pid → other = call :=
  fun other hf => owner.distinct other call pid hf hl

section
variable (registry : ∀ pid session, m.sessions pid = some session → session.manager = manager)
include registry

theorem PidOwner.setManager (owner : PidOwner s) : PidOwner (s.setManager manager m) where
  distinct := owner.distinct
  entry := owner.entry
  target := owner.target
  registry other hf hk := by
    by_cases hs : other = manager
    · subst hs
      obtain rfl : m = hf := by simpa [ProviderState.setManager] using hk
      exact registry
    · refine owner.registry other hf ?_
      simpa [ProviderState.setManager, update_of_ne hs] using hk
  effects := owner.effects

theorem registry_register {ref} (own : ref.manager = manager) :
    ∀ other session, (m.register pid ref).sessions other = some session →
      session.manager = manager := by
  intro other session hf
  simp only [SessionManager.register, update_apply] at hf
  split at hf
  · cases hf
    exact own
  · exact registry other session hf

theorem registry_detach (pid : Int32) :
    ∀ other session, (m.detach pid).sessions other = some session → session.manager = manager := by
  intro other session hf
  simp only [SessionManager.detach, update_apply] at hf
  split at hf
  · cases hf
  · exact registry other session hf

end

theorem PidOwner.routeCall (owner : PidOwner s) {orgID next} (ha : s.routeCall call orgID = some next) :
    PidOwner next := by
  simp only [ProviderState.routeCall] at ha
  split at ha
  · split at ha
    · cases ha
      exact owner.setCall call nofun nofun nofun
    · cases ha
      exact owner.finish call
  · cases ha

theorem PidOwner.publish (owner : PidOwner s) (registered : s.calls call = .registered manager pid) :
    PidOwner { s.setCall call (.live manager pid) with
      pidSession := Function.update s.pidSession pid (some ⟨manager, call⟩) } := by
  have only : ∀ other, (s.calls other).pid? = some pid → other = call := owner.only (by rw [registered]; rfl)
  have puts : PidOwner { s with
      pidSession := Function.update s.pidSession pid (some ⟨manager, call⟩) } := by
    refine ⟨owner.distinct, ?_, owner.target, owner.registry, owner.effects⟩
    intro other otherManager otherPid hf
    -- the entry that is overwritten is that of no published session
    have ne : otherPid ≠ pid := by
      rintro rfl
      have hs := only other (pid_of_published hf)
      subst hs
      rw [registered] at hf
      cases hf
    exact (update_of_ne ne _ _).trans (owner.entry other otherManager otherPid hf)
  refine puts.setCall call ?_ ?_ nofun
  · rintro _ ⟨⟩
    exact only
  · rintro _ _ ⟨⟩
    simp

theorem PidOwner.delete (owner : PidOwner s) (detached : s.calls call = .detached manager pid) :
    PidOwner { s.setCall call .done with
      pidSession := Function.update s.pidSession pid none
      effects := s.effects ++ (s.pidSession pid).toList.map fun owned =>
        ⟨.unregistered, call, manager, ⟨owned.manager, some owned.call⟩⟩ } := by
  have only : ∀ other, (s.calls other).pid? = some pid → other = call := owner.only (by rw [detached]; rfl)
  have own := owner.entry call manager pid (by rw [detached]; rfl)
  have done := owner.finish call
  refine ⟨done.distinct, ?_, done.target, done.registry, ?_⟩
  · intro other otherManager otherPid hf
    have ne : otherPid ≠ pid := by
      rintro rfl
      rw [calls_setCall] at hf
      split at hf
      · cases hf
      · rename_i different
        exact different (only other (pid_of_published hf))
    exact (update_of_ne ne _ _).trans (done.entry other otherManager otherPid hf)
  · intro effect hm
    rcases mem_append.mp hm with hm | hm
    · exact owner.effects effect hm
    · rw [own] at hm
      rw [mem_singleton.mp hm]

theorem PidOwner.destroyManaged (owner : PidOwner s) {target} (owned : s.calls call = .owned manager pid target)
    (hk : s.managers target = some m) :
    PidOwner { (s.setManager target (m.detach pid)).setCall call (.detached manager pid) with
      effects := s.effects ++ (m.sessions pid).toList.map (⟨.destroyed, call, manager, ·⟩) } := by
  have only : ∀ other, (s.calls other).pid? = some pid → other = call := owner.only (by rw [owned]; rfl)
  have own := owner.target call manager pid target owned
  have registry := owner.registry target m hk
  have hd : PidOwner ((s.setManager target (m.detach pid)).setCall call (.detached manager pid)) := by
    refine (owner.setManager (registry_detach registry pid)).setCall call ?_ ?_ nofun
    · rintro _ ⟨⟩
      exact only
    · rintro _ _ ⟨⟩
      exact owner.entry call manager pid (by rw [owned]; rfl)
  refine ⟨hd.distinct, hd.entry, hd.target, hd.registry, ?_⟩
  intro effect hm
  rcases mem_append.mp hm with hm | hm
  · exact owner.effects effect hm
  · obtain ⟨session, hf, rfl⟩ := mem_map.mp hm
    exact (registry pid session (mem_toList.mp hf)).trans own

theorem pidOwner_step (step : ProviderStep) (next : ProviderState) (owner : PidOwner s)
    (fresh : FreshPid s step) (ha : providerMachine.step s step = some next) :
    PidOwner next := by
  change s.step step = some next at ha
  cases step with
  | createOrgStack orgID manager =>
    simp only [ProviderState.step] at ha
    split at ha
    · cases ha
      have made : PidOwner (s.setManager manager (newSessionManager orgID)) := owner.setManager nofun
      exact ⟨made.distinct, made.entry, made.target, made.registry, made.effects⟩
    · cases ha
  | destroyOrgStack =>
    cases ha
    exact ⟨owner.distinct, owner.entry, owner.target, owner.registry, owner.effects⟩
  | createSession | reconnectSession => exact owner.routeCall ha
  | allocate call =>
    simp only [ProviderState.step] at ha
    split at ha
    · rename_i manager routed
      obtain ⟨m, hk, rfl⟩ := map_eq_some_iff.mp ha
      have unheld := fresh manager m routed hk
      have registry := owner.registry manager m hk
      refine (owner.setManager (m := m.reservePID) registry).setCall call ?_ nofun nofun
      rintro _ ⟨⟩ other hl
      exact absurd hl (unheld other)
    · cases ha
  | register call =>
    simp only [ProviderState.step] at ha
    split at ha
    · rename_i manager pid allocated
      obtain ⟨m, hk, rfl⟩ := map_eq_some_iff.mp ha
      have registered : PidOwner (s.setManager manager (m.register pid ⟨manager, some call⟩)) :=
        owner.setManager (registry_register (owner.registry manager m hk) rfl)
      refine registered.setCall call ?_ nofun nofun
      rintro _ ⟨⟩
      exact owner.only (by rw [allocated]; rfl)
    · cases ha
  | publish =>
    simp only [ProviderState.step] at ha
    split at ha
    · rename_i manager pid registered
      cases ha
      exact owner.publish registered
    · cases ha
  | abort call =>
    simp only [ProviderState.step] at ha
    split at ha
    · cases ha
      exact owner.finish call
    · cases ha
      exact owner.finish call
    · cases ha
  | destroyRead call =>
    simp only [ProviderState.step] at ha
    split at ha
    · rename_i manager pid live
      have own := owner.entry call manager pid (by rw [live]; rfl)
      rw [own] at ha
      cases ha
      refine owner.setCall call ?_ ?_ ?_
      · rintro _ ⟨⟩
        exact owner.only (by rw [live]; rfl)
      · rintro _ _ ⟨⟩
        exact own
      · rintro _ _ _ ⟨⟩
        rfl
    · cases ha
  | destroyManaged =>
    simp only [ProviderState.step] at ha
    split at ha
    · rename_i manager pid target owned
      obtain ⟨m, hk, rfl⟩ := map_eq_some_iff.mp ha
      exact owner.destroyManaged owned hk
    · cases ha
  | destroyDelete =>
    simp only [ProviderState.step] at ha
    split at ha
    · rename_i manager pid detached
      cases ha
      exact owner.delete detached
    · cases ha
  | reservePostgres manager =>
    obtain ⟨m, hk, rfl⟩ := map_eq_some_iff.mp ha
    exact owner.setManager (owner.registry manager m hk)
  | registerPostgres manager =>
    obtain ⟨m, hk, rfl⟩ := map_eq_some_iff.mp ha
    exact owner.setManager (registry_register (owner.registry manager m hk) rfl)
  | detach manager pid =>
    obtain ⟨m, hk, rfl⟩ := map_eq_some_iff.mp ha
    exact owner.setManager (registry_detach (owner.registry manager m hk) pid)

theorem routedByPid_of_freshPid (steps : List ProviderStep) {final : ProviderState}
    (fresh : providerMachine.Obeys FreshPid .init steps)
    (run : providerMachine.run .init steps = some final) : RoutedByPid final := by
  have owner := providerMachine.invariant_of_obeys PidOwner
    (fun s => pidOwner_step)
    pidOwner_init fresh run
  refine ⟨fun call manager pid live => owner.entry call manager pid ?_, owner.effects⟩
  rw [live]
  rfl

def createFlight (call : Nat) (orgID : String) : List ProviderStep :=
  [.createSession call orgID, .allocate call, .register call, .publish call]

def destroyFlight (call : Nat) : List ProviderStep := [.destroyRead call, .destroyManaged call, .destroyDelete call]

theorem routedByPid_of_freshPid_two : ∃ final,
      providerMachine.run .init ([.createOrgStack "acme" 0, .createOrgStack "beta" 1, .reservePostgres 1] ++
        createFlight 1 "acme" ++ createFlight 2 "beta" ++ destroyFlight 1) = some final ∧
      final.effects = [⟨.destroyed, 1, 0, ⟨0, some 1⟩⟩, ⟨.unregistered, 1, 0, ⟨0, some 1⟩⟩] ∧
      final.calls 2 = .live 1 1002 ∧ RoutedByPid final := by
  refine ⟨?final, ?run, ?effects, ?live, routedByPid_of_freshPid _ ?fresh ?run⟩
  case run => rfl
  case effects | live => rfl
  refine .cons rfl trivial (.cons rfl trivial (.cons rfl trivial (.cons rfl trivial (.cons rfl ?_
    (.cons rfl trivial (.cons rfl trivial (.cons rfl trivial (.cons rfl ?_
      (Machine.obeys_of_forall _ (by simp [FreshPid, destroyFlight]) _)))))))))
  all_goals rintro manager m ⟨⟩ ⟨⟩ (_ | _ | _ | other) <;> nofun

theorem pidSession_shared_by_orgs : ∃ shared final,
      providerMachine.run .init ([.createOrgStack "acme" 0, .createOrgStack "beta" 1] ++
        createFlight 1 "acme" ++ createFlight 2 "beta") = some shared ∧
      shared.calls 1 = .live 0 1001 ∧ shared.pidSession 1001 = some ⟨1, 2⟩ ∧
      ¬ RoutedByPid shared ∧
      providerMachine.run shared (destroyFlight 1) = some final ∧
      final.effects =
        [⟨.destroyed, 1, 0, ⟨1, some 2⟩⟩, ⟨.unregistered, 1, 0, ⟨1, some 2⟩⟩] := by
  refine ⟨_, _, rfl, rfl, rfl, ?_, rfl, rfl⟩
  intro routed
  have own := routed.entry 1 0 1001 rfl
  cases own

end Duckgres.Proof.Flight
