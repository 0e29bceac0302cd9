import Duckgres.Flight.Auth

namespace Duckgres.Proof.Flight
open Base Duckgres.Flight List Option

variable {v : Validator} {s : IngressState}

theorem lookup_of_mem {entries : List (OrgUserKey × String)} (nodup : (entries.map Prod.fst).Nodup)
    {key storedHash} (hm : (key, storedHash) ∈ entries) :
    entries.lookup key = some storedHash := by
  induction entries with
  | nil => cases hm
  | cons entry entries ih =>
    rw [map_cons, nodup_cons] at nodup
    rcases mem_cons.mp hm with rfl | hm
    · rw [lookup_cons_self]
    have ne : key ≠ entry.1 := by
      rintro rfl
      exact nodup.1 (mem_map.mpr ⟨_, hm, rfl⟩)
    rw [lookup_cons, beq_eq_false_iff_ne.mpr ne]
    exact ih nodup.2 hm

variable {order : List (OrgUserKey × String)} {username password orgID : String}

theorem validateOrgUser_of_scan (isOrder : v.IsRangeOrder order)
    (accepted : v.findAndValidateUser order username password = some orgID) :
    v.validateOrgUser orgID username password = true := by
  unfold Validator.findAndValidateUser at accepted
  unfold Validator.validateOrgUser
  cases hk : v.snapshot with
  | none => simp [hk] at accepted
  | some snapshot =>
    simp only [hk] at accepted
    split at accepted
    · cases accepted
    rename_i key storedHash hf
    obtain ⟨passed, ⟨⟩⟩ := ite_none_right_eq_some.mp accepted
    have hm : (key, storedHash) ∈ snapshot.orgUserPassword := by
      rw [Validator.IsRangeOrder, hk] at isOrder
      exact isOrder.mem_iff.mp (mem_of_find?_eq_some hf)
    have named : key.username = username := by simpa using find?_some hf
    have stored := lookup_of_mem snapshot.keys_nodup hm
    rw [← named]
    simp only [stored]
    exact passed

theorem validateOrgUser_of_prefix {label} (accepted : v.authForSNIPrefix label username password = some orgID) :
    v.validateOrgUser orgID username password = true := by
  simp only [Validator.authForSNIPrefix] at accepted
  split at accepted
  · cases accepted
  · obtain ⟨passed, ⟨⟩⟩ := ite_none_right_eq_some.mp accepted
    exact passed

theorem validateOrgUser_of_accepted {sni} (isOrder : v.IsRangeOrder order)
    (accepted : v.validateCredentialsForSNI order sni username password = some orgID) :
    v.validateOrgUser orgID username password = true := by
  unfold Validator.validateCredentialsForSNI at accepted
  split at accepted
  · cases accepted
  · exact validateOrgUser_of_prefix accepted
  · exact validateOrgUser_of_prefix accepted
  · exact validateOrgUser_of_scan isOrder accepted
  · exact validateOrgUser_of_scan isOrder accepted

def Login.Accepted (v : Validator) (login : Login) : Prop :=
  v.validateOrgUser login.orgID login.username login.password = true

def Phase.login : Phase → Option Login
  | .validated login _ | .recorded login _ | .routed login _ _ => some login
  | _ => none

structure Tenant (v : Validator) (s : IngressState) : Prop where
  accepted : ∀ request login, Phase.login (s.phase request) = some login → Login.Accepted v login
  current : ∀ request login, (s.phase request).waiting = some login → s.userOrg login.username = some login.orgID
  routed : ∀ request login orgID attempts, s.phase request = .routed login orgID attempts → orgID = login.orgID
  sessions : ∀ session ∈ s.sessions, session.orgID = session.login.orgID ∧ Login.Accepted v session.login

theorem tenant_init (v : Validator) (orgStacks : List String) : Tenant v (.init orgStacks) where
  accepted _ _ hf := by cases hf
  current _ _ hf := by cases hf
  routed _ _ _ _ hf := by cases hf
  sessions _ hm := by cases hm

theorem phase_setPhase (request other : Nat) (phase : Phase) :
    (s.setPhase request phase).phase other = if other = request then phase else s.phase other := by
  simp [IngressState.setPhase, Function.update_apply]

theorem Tenant.setPhase (tenant : Tenant v s) (request : Nat) {phase}
    (valid : ∀ login, Phase.login phase = some login → Login.Accepted v login)
    (current : ∀ login, phase.waiting = some login → s.userOrg login.username = some login.orgID)
    (routed : ∀ login orgID attempts, phase = .routed login orgID attempts → orgID = login.orgID) :
    Tenant v (s.setPhase request phase) where
  accepted other login hf := by
    rw [phase_setPhase] at hf
    split at hf
    · exact valid login hf
    · exact tenant.accepted other login hf
  current other login hf := by
    rw [phase_setPhase] at hf
    split at hf
    · exact current login hf
    · exact tenant.current other login hf
  routed other login orgID attempts hf := by
    rw [phase_setPhase] at hf
    split at hf
    · exact routed login orgID attempts hf
    · exact tenant.routed other login orgID attempts hf
  sessions := tenant.sessions

theorem Tenant.finish (tenant : Tenant v s) (request : Nat) : Tenant v (s.setPhase request .done) :=
  tenant.setPhase request nofun nofun nofun

theorem Tenant.retry (tenant : Tenant v s) (request : Nat) {login attempts} (accepted : Login.Accepted v login)
    (current : attempts ≠ 0 → s.userOrg login.username = some login.orgID) :
    Tenant v (s.retry request login attempts) := by
  unfold IngressState.retry
  split
  · exact tenant.finish request
  rename_i left
  refine tenant.setPhase request ?_ ?_ nofun
  · rintro _ ⟨⟩
    exact accepted
  · rintro _ ⟨⟩
    exact current left

theorem Tenant.record (tenant : Tenant v s) {request login bootstrap}
    (validated : s.phase request = .validated login bootstrap)
    (hne : RecordsApart s (.record request)) :
    Tenant v { s.setPhase request (if bootstrap then .recorded login 2 else .done) with
      userOrg := Function.update s.userOrg login.username (some login.orgID) } := by
  have own : Login.Accepted v login := tenant.accepted request login (by rw [validated]; rfl)
  have hd : Tenant v { s with
      userOrg := Function.update s.userOrg login.username (some login.orgID) } := by
    refine ⟨tenant.accepted, ?_, tenant.routed, tenant.sessions⟩
    intro other waiting hf
    by_cases hs : waiting.username = login.username
    · -- requests that are still to read this entry expect the value written
      have agree := hne login bootstrap validated other waiting hf hs
      simp [hs, agree]
    · simpa [Function.update_of_ne hs] using tenant.current other waiting hf
  refine hd.setPhase request ?_ ?_ ?_
  · cases bootstrap
    · rintro _ ⟨⟩
    · rintro _ ⟨⟩
      exact own
  · cases bootstrap
    · rintro _ ⟨⟩
    · rintro _ ⟨⟩
      simp
  · cases bootstrap <;> rintro _ _ _ ⟨⟩

theorem tenant_step (step : IngressStep) (next : IngressState) (tenant : Tenant v s)
    (hne : RecordsApart s step) (ha : (ingressMachine v).step s step = some next) :
    Tenant v next := by
  change s.step v step = some next at ha
  cases step with
  | validate request =>
    simp only [IngressState.step] at ha
    split at ha
    · obtain ⟨isOrder, ha⟩ := ite_none_right_eq_some.mp ha
      split at ha
      · cases ha
        exact tenant.finish request
      rename_i orgID legal
      cases ha
      refine tenant.setPhase request ?_ nofun nofun
      rintro _ ⟨⟩
      exact validateOrgUser_of_accepted isOrder legal
    · cases ha
  | record =>
    simp only [IngressState.step] at ha
    split at ha
    · rename_i login bootstrap validated
      cases ha
      exact tenant.record validated hne
    · cases ha
  | route request =>
    simp only [IngressState.step] at ha
    split at ha
    · rename_i login attempts recorded
      have legal := tenant.accepted request login (by rw [recorded]; rfl)
      have current := tenant.current request login (by rw [recorded]; rfl)
      split at ha
      · cases ha
        refine tenant.setPhase request ?_ ?_ ?_
        · rintro _ ⟨⟩
          exact legal
        · intro waiting hf
          obtain ⟨-, ⟨⟩⟩ := ite_none_left_eq_some.mp hf
          exact current
        · rintro _ _ _ ⟨⟩
          rw [current]
          rfl
      · cases ha
        exact tenant.retry request legal fun _ => current
    · cases ha
  | create request =>
    simp only [IngressState.step] at ha
    split at ha
    · rename_i login orgID attempts routed
      cases ha
      have hd := tenant.finish request
      refine ⟨hd.accepted, hd.current, hd.routed, ?_⟩
      intro session hm
      rcases mem_append.mp hm with hm | hm
      · exact tenant.sessions session hm
      · rw [mem_singleton.mp hm]
        exact ⟨tenant.routed request login orgID attempts routed, tenant.accepted request login (by rw [routed]; rfl)⟩
    · cases ha
  | fail request =>
    simp only [IngressState.step] at ha
    split at ha
    · rename_i login orgID attempts routed
      cases ha
      refine tenant.retry request (tenant.accepted request login (by rw [routed]; rfl)) ?_
      intro left
      refine tenant.current request login ?_
      rw [routed]
      exact if_neg left
    · cases ha
  | setStacks =>
    cases ha
    exact ⟨tenant.accepted, tenant.current, tenant.routed, tenant.sessions⟩

theorem session_in_accepting_org (v : Validator) (orgStacks : List String) (steps : List IngressStep)
    {final : IngressState}
    (apart : (ingressMachine v).Obeys RecordsApart (.init orgStacks) steps)
    (run : (ingressMachine v).run (.init orgStacks) steps = some final) :
    ∀ session ∈ final.sessions, session.orgID = session.login.orgID ∧
      v.validateOrgUser session.orgID session.login.username session.login.password = true := by
  have tenant := (ingressMachine v).invariant_of_obeys (Tenant v)
    (fun s => tenant_step)
    (tenant_init v orgStacks) apart run
  intro session hm
  obtain ⟨hs, legal⟩ := tenant.sessions session hm
  refine ⟨hs, ?_⟩
  rw [hs]
  exact legal

def twoOrgSnapshot : Snapshot where
  databaseName _ := none
  hostnameAliasOrg _ := none
  databaseOrg database := if database = ['a'] then some "acme" else if database = ['b'] then some "beta" else none
  orgUserPassword := [(⟨"acme", "ana"⟩, "first"), (⟨"beta", "ana"⟩, "second")]
  keys_nodup := by decide

def twoOrgValidator : Validator where
  mode := .enforce
  managedHostnameSuffixes := [['.', 'd', 'w']]
  snapshot := some twoOrgSnapshot
  compareHash storedHash password := storedHash == password

def bootstrapLogin (request : Nat) (host : Char) (password : String) : IngressStep :=
  .validate request true twoOrgSnapshot.orgUserPassword [host, '.', 'd', 'w'] "ana" password

theorem session_in_accepting_org_retried : ∃ final, (ingressMachine twoOrgValidator).run (.init ["acme", "beta"])
        [bootstrapLogin 1 'a' "first", bootstrapLogin 2 'b' "second", .record 1, .route 1, .create 1,
          .record 2, .route 2, .fail 2, .route 2, .create 2] = some final ∧
      final.sessions = [⟨1, ⟨"ana", "first", "acme"⟩, "acme"⟩, ⟨2, ⟨"ana", "second", "beta"⟩, "beta"⟩] ∧
      ∀ session ∈ final.sessions, session.orgID = session.login.orgID ∧
        twoOrgValidator.validateOrgUser session.orgID session.login.username
          session.login.password = true := by
  refine ⟨?final, ?run, ?sessions, session_in_accepting_org _ _ _ ?apart ?run⟩
  case run => rfl
  case sessions => rfl
  refine .cons rfl trivial (.cons rfl trivial (.cons rfl ?_ (.cons rfl trivial (.cons rfl trivial
    (.cons rfl ?_ (Machine.obeys_of_forall _ (by simp [RecordsApart]) _))))))
  all_goals
    intro login bootstrap validated other waiting hf
    rcases other with _ | _ | _ | other <;> cases hf

theorem session_in_other_org : ∃ final, (ingressMachine twoOrgValidator).run (.init ["acme", "beta"])
        [bootstrapLogin 1 'a' "first", bootstrapLogin 2 'b' "second", .record 1, .record 2,
          .route 1, .create 1] = some final ∧
      final.sessions = [⟨1, ⟨"ana", "first", "acme"⟩, "beta"⟩] ∧
      twoOrgValidator.validateOrgUser "acme" "ana" "first" = true ∧
      twoOrgValidator.validateOrgUser "beta" "ana" "first" = false :=
  ⟨_, rfl, rfl, rfl, rfl⟩

end Duckgres.Proof.Flight
