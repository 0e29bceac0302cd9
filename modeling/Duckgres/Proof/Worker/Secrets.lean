import Duckgres.Proof.Worker.Moves

namespace Duckgres.Proof.Worker
open Base Duckgres.Worker World

variable {p q : SessionPool} {payload current : ActivationPayload} {phase after : ActivationPhase}
  {a : ActivationStep} {w v : ActivationWorld}

theorem secretMatches_none (hse : SecretMatches p payload)
    (hun : payload.duckLake.objectStore = "") : p.s3Secret = none := by
  cases hf : p.s3Secret with
  | none => rfl
  | some secret => exact absurd hun (hse secret hf).1

theorem objectStore_of_reuseAllowed (legal : reuseAllowed current payload) :
    payload.duckLake.objectStore = current.duckLake.objectStore := by
  have hs := (reuseAllowed_iff.mp legal).1
  simp only [sameTenantActivationRuntime, sameDuckLakeRuntime, Bool.and_eq_true, beq_iff_eq] at hs
  tauto

theorem credentials_of_not_needsRefresh (used : payload.duckLake.objectStore ≠ "")
    (unneeded : needsRefresh current payload = false) :
    payload.duckLake.credentials = current.duckLake.credentials := by
  simp only [needsRefresh, s3CredentialsChanged, Bool.and_eq_false_iff, Bool.or_eq_false_iff,
    bne_eq_false_iff_eq] at unneeded
  obtain (⟨hun, -⟩ | hs) | ⟨⟨⟨⟨access, secret⟩, token⟩, -⟩, -⟩ := unneeded
  · exact absurd hun used
  · rw [hs]
  · simp [DuckLakeConfig.credentials, access, secret, token]

theorem secretMatches_of_kept (hse : SecretMatches p current) (legal : reuseAllowed current payload)
    (hun : needsRefresh current payload = true → payload.duckLake.objectStore = "") :
    SecretMatches p payload := by
  intro secret hf
  obtain ⟨used, rfl⟩ := hse secret hf
  rw [← objectStore_of_reuseAllowed legal] at used
  have unneeded : needsRefresh current payload = false := Bool.eq_false_iff.mpr fun needed => used (hun needed)
  exact ⟨used, (credentials_of_not_needsRefresh used unneeded).symm⟩

inductive Refreshing (p : SessionPool) (current payload : ActivationPayload) :
    ActivationPhase → Prop
  | before (settled : SecretMatches p current) :
      Refreshing p current payload (.refreshingS3 (needsRefresh current payload))
  | replaced {needed} (settled : SecretMatches p payload) : Refreshing p current payload (.refreshingIceberg needed)
  | commits (settled : SecretMatches p payload) : Refreshing p current payload .committingReuse

structure Aside (phase : ActivationPhase) : Prop where
  refreshing : phase.refreshing = false
  binding : binding phase = false

variable {runtime : ActivatedTenantRuntime} {busy : Option Nat} {call : Nat} {c : ActivationCall}

theorem aside_of_moves (aside : Aside phase)
    (active : p.activation = some runtime) (hv : Moves p payload phase a q after) :
    q = p ∧ (Aside after ∨ a = .prepareReuse ∧ reuseAllowed runtime.payload payload ∧
      after = .refreshingS3 (needsRefresh runtime.payload payload)) := by
  cases hv with
  | prepares hf legal =>
    cases active.symm.trans hf
    exact ⟨rfl, .inr ⟨rfl, legal, rfl⟩⟩
  | connects _ hin => cases active.symm.trans hin
  | keepsSecret | replacesSecret | refreshed | icebergFails | takesOver | losesOut => cases aside.refreshing
  | opens | attaches | binds => cases aside.binding
  | fails | admits | repeats | reuses => exact ⟨rfl, .inl ⟨rfl, rfl⟩⟩

theorem refreshing_of_moves (active : p.activation = some runtime) (legal : reuseAllowed runtime.payload payload)
    (refreshing : Refreshing p runtime.payload payload phase)
    (complete : a = .refreshIceberg false → phase = .refreshingIceberg true →
      payload.duckLake.objectStore ≠ "" → payload.iceberg.enabled → False)
    (hv : Moves p payload phase a q after) :
    q.activation = some runtime ∧ Refreshing q runtime.payload payload after ∨
      Aside after ∧ ∃ latest, Activated q latest := by
  cases hv with
  | repeats hf hs =>
    cases active.symm.trans hf
    refine .inr ⟨⟨rfl, rfl⟩, runtime, active, ?_⟩
    cases refreshing with
    | before hse => exact hse
    | replaced | commits => rwa [hs]
  | fails early =>
    cases refreshing with
    | before hse => exact .inr ⟨⟨rfl, rfl⟩, runtime, active, hse⟩
    | replaced | commits => cases early
  | keepsSecret hun =>
    cases refreshing with
    | before hse => exact .inl ⟨active, .replaced (secretMatches_of_kept hse legal hun)⟩
  | replacesSecret used =>
    refine .inl ⟨active, .replaced fun secret hf => ?_⟩
    cases hf
    exact ⟨used, rfl⟩
  | refreshed =>
    cases refreshing with
    | replaced hse => exact .inl ⟨active, .commits hse⟩
  | icebergFails enabled =>
    cases refreshing with
    | replaced hse =>
      have hun : payload.duckLake.objectStore = "" := not_not.mp fun used => complete rfl rfl used enabled
      exact .inr ⟨⟨rfl, rfl⟩, runtime, active, fun _ => by simp [secretMatches_none hse hun]⟩
  | takesOver =>
    cases refreshing with
    | commits hse => exact .inr ⟨⟨rfl, rfl⟩, _, rfl, hse⟩
  | losesOut refused => exact absurd legal (refused runtime active)
  | _ => cases refreshing

structure SecretFollows (busy : Option Nat) (w : ActivationWorld) : Prop where
  aside : ∀ call c, w.calls call = some c → busy ≠ some call → Aside c.phase
  settled : busy = none → ∃ runtime, Activated w.shared runtime
  refreshing : ∀ call, busy = some call → ∃ c runtime, w.calls call = some c ∧
    w.shared.activation = some runtime ∧ reuseAllowed runtime.payload c.payload ∧
    Refreshing w.shared runtime.payload c.payload c.phase

theorem SecretFollows.active (hfw : SecretFollows busy w) : ∃ runtime, w.shared.activation = some runtime := by
  cases busy with
  | none =>
    obtain ⟨runtime, activated⟩ := hfw.settled rfl
    exact ⟨runtime, activated.active⟩
  | some call =>
    obtain ⟨-, runtime, -, active, -⟩ := hfw.refreshing call rfl
    exact ⟨runtime, active⟩

theorem refreshing_true (refreshing : Refreshing p current payload phase) : phase.refreshing = true := by
  cases refreshing <;> rfl

section
variable (hfw : SecretFollows busy w)
include hfw

theorem SecretFollows.set_aside (hne : busy ≠ some call) (aside : Aside c.phase) :
    SecretFollows busy (w.set w.shared call c) where
  aside := forall_calls_set (fun _ => aside) fun other d _ => hfw.aside other d
  settled := hfw.settled
  refreshing other hs := by
    obtain ⟨d, runtime, hf, rest⟩ := hfw.refreshing other hs
    have distinct : other ≠ call := fun equal => hne (equal ▸ hs)
    exact ⟨d, runtime, (calls_set_of_ne _ _ _ distinct).trans hf, rest⟩

theorem SecretFollows.others
    (only : ∀ other, busy = some other → other = call) {shared later} (own : later ≠ some call → Aside c.phase) :
    ∀ other d, (w.set shared call c).calls other = some d → later ≠ some other → Aside d.phase :=
  forall_calls_set own fun other d hne hf _ => hfw.aside other d hf fun hs => hne (only other hs)

theorem SecretFollows.begin (hne : busy ≠ some call)
    (alone : ∀ other d, other ≠ call → w.calls other = some d → d.phase.refreshing = false)
    (active : w.shared.activation = some runtime)
    (legal : reuseAllowed runtime.payload c.payload)
    (phase : c.phase = .refreshingS3 (needsRefresh runtime.payload c.payload)) :
    SecretFollows (some call) (w.set w.shared call c) := by
  have idle : busy = none := by
    refine Option.eq_none_iff_forall_ne_some.mpr fun other hs => ?_
    obtain ⟨d, _, hf, _, _, refreshing⟩ := hfw.refreshing other hs
    have quiet := alone other d (fun equal => hne (equal ▸ hs)) hf
    exact absurd (refreshing_true refreshing) (Bool.eq_false_iff.mp quiet)
  refine ⟨hfw.others (fun other hs => ?_) fun absurd => (absurd rfl).elim, nofun, ?_⟩
  · cases idle.symm.trans hs
  intro other hs
  cases hs
  obtain ⟨latest, activated⟩ := hfw.settled idle
  cases active.symm.trans activated.active
  exact ⟨c, runtime, calls_set_self .., active, legal, phase ▸ .before activated.secret⟩

theorem secretFollows_step {step} (alone : RefreshesAlone w step)
    (ha : activationProgram.machine.step w step = some v) :
    ∃ later, SecretFollows later v := by
  cases Program.takes_of_step ha with
  | @start call _ fresh =>
    refine ⟨busy, hfw.set_aside (fun hs => ?_) ⟨rfl, rfl⟩⟩
    obtain ⟨c, -, hf, -⟩ := hfw.refreshing call hs
    cases fresh.symm.trans hf
  | @advance call a c next _ hf hd =>
    obtain ⟨samePayload, hv⟩ := moves_of_step hd
    by_cases mine : busy = some call
    · obtain ⟨d, runtime, foundBusy, active, legal, refreshing⟩ := hfw.refreshing call mine
      cases hf.symm.trans foundBusy
      have only : ∀ other, busy = some other → other = call := fun other hs => Option.some.inj (hs.symm.trans mine)
      have complete : a = .refreshIceberg false → c.phase = .refreshingIceberg true →
          c.payload.duckLake.objectStore ≠ "" → c.payload.iceberg.enabled → False := by
        rintro rfl atIceberg used enabled
        have hs : c = ⟨c.payload, .refreshingIceberg true⟩ := by rw [← atIceberg]
        exact Bool.false_ne_true (alone c.payload (hs ▸ hf) used enabled)
      obtain ⟨kept, goes⟩ | ⟨aside, activated⟩ := refreshing_of_moves active legal refreshing complete hv
      · refine ⟨some call, hfw.others only fun absurd => (absurd rfl).elim, nofun, ?_⟩
        intro other hs
        cases hs
        exact ⟨next, runtime, calls_set_self .., kept, samePayload ▸ legal, samePayload ▸ goes⟩
      · exact ⟨none, hfw.others only fun _ => aside, fun _ => activated, nofun⟩
    · obtain ⟨runtime, active⟩ := hfw.active
      obtain ⟨rfl, aside | ⟨rfl, legal, phase⟩⟩ := aside_of_moves (hfw.aside call c hf mine) active hv
      · exact ⟨busy, hfw.set_aside mine aside⟩
      · rw [← samePayload] at legal phase
        exact ⟨some call, hfw.begin mine alone active legal phase⟩

end

theorem activated_acmeWorker : Activated acmeWorker ⟨payloadA, 0⟩ := by
  refine ⟨rfl, fun secret hf => ?_⟩
  cases hf
  exact ⟨by decide, rfl⟩

theorem secret_follows_activation (steps : List (CallStep ActivationStep ActivationPayload))
    {runtime : ActivatedTenantRuntime} (activated : Activated p runtime)
    (alone : activationProgram.machine.Obeys RefreshesAlone (.init p) steps)
    (run : activationProgram.machine.run (.init p) steps = some w) (returned : AllReturned w) :
    ∃ latest, w.shared.activation = some latest ∧
      ∀ secret, w.shared.s3Secret = some secret →
        secret = latest.payload.duckLake.credentials := by
  have start : ∃ busy, SecretFollows busy (.init p) := by
    refine ⟨none, ?_, fun _ => ⟨runtime, activated⟩, nofun⟩
    intro call c hf
    cases hf
  obtain ⟨busy, hfw⟩ := activationProgram.machine.invariant_of_obeys
    (fun w => ∃ busy, SecretFollows busy w)
    (fun _ _ _ ⟨_, hfw⟩ alone ha => secretFollows_step hfw alone ha) start alone run
  have idle : busy = none := by
    refine Option.eq_none_iff_forall_ne_some.mpr fun call hs => ?_
    obtain ⟨c, _, hf, _, _, refreshing⟩ := hfw.refreshing call hs
    obtain ⟨error, done⟩ := returned call c hf
    rw [done] at refreshing
    cases refreshing
  obtain ⟨latest, last⟩ := hfw.settled idle
  exact ⟨latest, last.active, fun secret hf => (last.secret secret hf).2⟩

theorem secret_follows_activation_refused : ∃ w, activationProgram.machine.run (.init acmeWorker)
        (callSteps 1 payloadB [.receive, .check] ++ callSteps 2 payloadC (takeoverSteps ++ [.commitReuse]) ++
          [.advance 1 .prepareReuse]) = some w ∧
      w.calls 1 = some ⟨payloadB, .returned (some (.alreadyActivated "acme"))⟩ ∧
      ∃ latest, w.shared.activation = some latest ∧
        ∀ secret, w.shared.s3Secret = some secret →
          secret = latest.payload.duckLake.credentials := by
  refine ⟨?w, ?run, ?refused, secret_follows_activation _ activated_acmeWorker ?alone ?run ?returned⟩
  case run => rfl
  case refused => rfl
  case returned => rintro (_ | _ | _ | call) c ⟨⟩ <;> exact ⟨_, rfl⟩
  refine .cons rfl trivial (.cons rfl trivial (.cons rfl trivial (.cons rfl trivial (.cons rfl trivial
    (.cons rfl trivial (.cons rfl ?_ (.cons rfl trivial (.cons rfl (fun _ _ _ _ => rfl) (.cons rfl trivial
      (.cons rfl ?_ trivial))))))))))
  all_goals rintro (_ | _ | _ | other) c ne ⟨⟩ <;> rfl

def overlappingTakeovers : List (CallStep ActivationStep ActivationPayload) :=
  callSteps 1 payloadB [.receive, .check, .prepareReuse] ++
    callSteps 2 payloadC (takeoverSteps ++ [.commitReuse]) ++
    [.refreshS3 true, .refreshIceberg true, .commitReuse].map (.advance 1)

theorem secret_of_refused_call : Activated acmeWorker ⟨payloadA, 0⟩ ∧
    ∃ w, activationProgram.machine.run (.init acmeWorker) overlappingTakeovers = some w ∧
      AllReturned w ∧
      w.shared.activation = some ⟨payloadC, 0⟩ ∧
      w.shared.s3Secret = some payloadB.duckLake.credentials ∧
      w.shared.s3Secret ≠ some payloadC.duckLake.credentials := by
  refine ⟨activated_acmeWorker, _, rfl, ?_, rfl, rfl, by decide⟩
  rintro (_ | _ | _ | call) c ⟨⟩ <;> exact ⟨_, rfl⟩

end Duckgres.Proof.Worker
