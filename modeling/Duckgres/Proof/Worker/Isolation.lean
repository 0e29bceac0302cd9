import Duckgres.Proof.Worker.Moves

namespace Duckgres.Proof.Worker
open Base Duckgres.Worker World

variable {p q : SessionPool} {payload : ActivationPayload} {phase after : ActivationPhase} {a : ActivationStep}
  {current : ActivationPayload}

theorem reuseAllowed_epoch (legal : reuseAllowed current payload) : current.ownerEpoch ≤ payload.ownerEpoch := by
  obtain rfl | newer | hs := (reuseAllowed_iff.mp legal).2
  · exact le_refl _
  · exact newer.le
  · simp only [sameOwnerActivationAttempt, Bool.and_eq_true, beq_iff_eq] at hs
    exact hs.2.le

theorem reuseAllowed_newer (legal : reuseAllowed current payload)
    (other : payload.cpInstanceID ≠ current.cpInstanceID) :
    current.ownerEpoch < payload.ownerEpoch := by
  obtain rfl | newer | hs := (reuseAllowed_iff.mp legal).2
  · exact absurd rfl other
  · exact newer
  · simp only [sameOwnerActivationAttempt, Bool.and_eq_true, beq_iff_eq] at hs
    exact absurd hs.1.2.symm other

def EpochRecorded (p : SessionPool) : Prop :=
  ∀ current, p.activation = some current → p.ownerEpoch = current.payload.ownerEpoch

structure Advances (p q : SessionPool) : Prop where
  org : ∀ current, p.activation = some current →
    ∃ later, q.activation = some later ∧ later.payload.orgID = current.payload.orgID
  epoch : p.ownerEpoch ≤ q.ownerEpoch

theorem Advances.refl (p : SessionPool) : Advances p p := ⟨fun current active => ⟨current, active, rfl⟩, le_refl _⟩

theorem Advances.trans {r} (first : Advances p q) (second : Advances q r) : Advances p r where
  org current active := by
    obtain ⟨middle, activeMiddle, sameMiddle⟩ := first.org current active
    obtain ⟨later, activeLater, hs⟩ := second.org middle activeMiddle
    exact ⟨later, activeLater, hs.trans sameMiddle⟩
  epoch := first.epoch.trans second.epoch

theorem epochRecorded_of_moves (hv : Moves p payload phase a q after)
    (recorded : EpochRecorded p) : EpochRecorded q := by
  obtain ⟨kept, keptEpoch, -, -⟩ | ⟨live, _, _, rfl⟩ | ⟨db, _, _, rfl⟩ := hv.activation
  · intro current active
    rw [keptEpoch]
    exact recorded current (kept ▸ active)
  all_goals
    intro current active
    cases active
    rfl

theorem advances_of_moves (hv : Moves p payload phase a q after) (recorded : EpochRecorded p) : Advances p q := by
  obtain ⟨kept, keptEpoch, -, -⟩ | ⟨live, active, legal, rfl⟩ | ⟨db, hin, newer, rfl⟩ := hv.activation
  · exact ⟨fun current active => ⟨current, kept ▸ active, rfl⟩, keptEpoch.ge⟩
  · refine ⟨fun current hf => ⟨_, rfl, ?_⟩, ?_⟩
    · cases active.symm.trans hf
      exact (reuseAllowed_org legal).symm
    · exact (recorded live active).trans_le (reuseAllowed_epoch legal)
  · refine ⟨fun current hf => ?_, newer.le⟩
    cases hin.symm.trans hf

def Bound (p : SessionPool) (c : ActivationCall) : Prop :=
  c.phase = .returned none → ∃ current, p.activation = some current ∧ current.payload.orgID = c.payload.orgID

theorem bound_of_moves (hv : Moves p payload phase a q after) : Bound q ⟨payload, after⟩ := by
  intro done
  obtain ⟨current, active, hs, rfl⟩ | ⟨live, -, -, rfl⟩ | ⟨db, -, rfl⟩ := hv.success done
  · exact ⟨current, active, congrArg _ hs⟩
  all_goals exact ⟨_, rfl, rfl⟩

theorem Bound.advances {c} (bound : Bound p c) (advances : Advances p q) : Bound q c := by
  intro done
  obtain ⟨current, active, hs⟩ := bound done
  obtain ⟨later, activeLater, sameLater⟩ := advances.org current active
  exact ⟨later, activeLater, sameLater.trans hs⟩

theorem newer_of_moves (hv : Moves p payload phase a q (.returned none))
    {committed} (active : p.activation = some committed)
    (other : payload.cpInstanceID ≠ committed.payload.cpInstanceID) :
    committed.payload.ownerEpoch < payload.ownerEpoch := by
  obtain ⟨current, hf, hs, -⟩ | ⟨live, hf, legal, -⟩ | ⟨db, hin, -⟩ := hv.success rfl
  · cases active.symm.trans hf
    exact absurd (congrArg _ hs.symm) other
  · cases active.symm.trans hf
    exact reuseAllowed_newer legal other
  · cases active.symm.trans hin

theorem bound_warm (warmupDB fallbackDB : Option Nat) (cacheProxyS3Addr : String) :
    (World.init (.warm warmupDB fallbackDB cacheProxyS3Addr)).Holds EpochRecorded Bound := by
  refine holds_init fun current active => ?_
  cases active

variable {w v : ActivationWorld}

theorem bound_of_run {steps}
    (start : w.Holds EpochRecorded Bound) (run : activationProgram.machine.run w steps = some v) :
    v.Holds EpochRecorded Bound := by
  refine Program.holds_of_run EpochRecorded Bound ?_ ?_ ?_ start run
  · intro s arg _ done
    cases done
  · intro s c a shared next recorded bound hd
    obtain ⟨samePayload, hv⟩ := moves_of_step hd
    refine ⟨epochRecorded_of_moves hv recorded, ?_⟩
    have := bound_of_moves hv
    rwa [← samePayload] at this
  · intro s c a shared next d recorded _ hd bound
    exact bound.advances (advances_of_moves (moves_of_step hd).2 recorded)

theorem advances_of_step {step} (hh : w.Holds EpochRecorded Bound)
    (ha : activationProgram.machine.step w step = some v) : Advances w.shared v.shared := by
  cases Program.takes_of_step ha with
  | start => exact .refl _
  | advance _ hd => exact advances_of_moves (moves_of_step hd).2 hh.shared

theorem activation_arbitrated (warmupDB fallbackDB : Option Nat) (cacheProxyS3Addr : String)
    (first rest : List (CallStep ActivationStep ActivationPayload))
    (before : activationProgram.machine.run (.init (.warm warmupDB fallbackDB cacheProxyS3Addr)) first = some w)
    (later : activationProgram.machine.run w rest = some v) :
    (∀ call payload, Succeeded w call payload →
      ∃ current, v.shared.activation = some current ∧ current.payload.orgID = payload.orgID) ∧
    w.shared.ownerEpoch ≤ v.shared.ownerEpoch ∧
    ∀ step u call payload committed, activationProgram.machine.step v step = some u →
      ¬ Succeeded v call payload → Succeeded u call payload →
      v.shared.activation = some committed →
      payload.cpInstanceID ≠ committed.payload.cpInstanceID →
      committed.payload.ownerEpoch < payload.ownerEpoch := by
  have atFirst := bound_of_run (bound_warm ..) before
  have advances : Advances w.shared v.shared :=
    activationProgram.machine.related_of_invariant (World.Holds EpochRecorded Bound)
      (fun w v => Advances w.shared v.shared) (fun w => .refl _) (fun _ _ _ => .trans)
      (fun _ _ _ hh ha => bound_of_run hh ((Machine.run_singleton ..).trans ha))
      (fun _ _ _ => advances_of_step) atFirst later
  refine ⟨fun call payload succeeded => ?_, advances.epoch, ?_⟩
  · exact (atFirst.own call _ succeeded).advances advances rfl
  intro step u call payload committed ha fresh succeeded active other
  obtain ⟨arg, -, hs⟩ | ⟨a, c, -, -, hd⟩ := (Program.takes_of_step ha).changed succeeded fresh
  · cases hs
  · obtain ⟨samePayload, hv⟩ := moves_of_step hd
    cases samePayload
    exact newer_of_moves hv active other

theorem activation_arbitrated_takeover : ∃ w v, activationProgram.machine.run (.init (.warm (some 0) none ""))
        (callSteps 0 payloadA bindSteps) = some w ∧
      activationProgram.machine.run w (callSteps 1 payloadB takeoverSteps) = some v ∧
      (∃ current, v.shared.activation = some current ∧ current.payload.orgID = "acme") ∧
      w.shared.ownerEpoch ≤ v.shared.ownerEpoch ∧
      ∃ u, activationProgram.machine.step v (.advance 1 .commitReuse) = some u ∧
        Succeeded u 1 payloadB ∧ (1 : Int) < 2 := by
  have arbitrated {w v} := @activation_arbitrated w v (some 0) none ""
    (callSteps 0 payloadA bindSteps) (callSteps 1 payloadB takeoverSteps)
  refine ⟨?w, ?v, ?before, ?later, (arbitrated ?before ?later).1 0 payloadA ?bound,
    (arbitrated ?before ?later).2.1, ?u, ?commits, ?succeeded,
    (arbitrated ?before ?later).2.2 _ _ 1 payloadB ⟨payloadA, 0⟩ ?commits
      ?fresh ?succeeded ?active (by decide)⟩
  case before => rfl
  case later => rfl
  case commits => rfl
  case fresh => exact of_decide_eq_false rfl
  all_goals rfl

variable {org : String}

theorem attachments_attach {db ok secret x} (hat : x ∈ (p.attach payload db ok secret).1.attachments) :
    x.payload = payload ∨ x ∈ p.attachments := by
  unfold SessionPool.attach at hat
  split at hat
  · exact .inr hat
  · obtain rfl | earlier := List.mem_cons.mp hat
    · exact .inl rfl
    · exact .inr earlier

section
variable (hv : Moves p payload phase a q after)
include hv

theorem attachments_of_moves {x} (hat : x ∈ q.attachments) :
    x ∈ p.attachments ∨ x.payload = payload ∧ binding phase = true := by
  cases hv with
  | attaches =>
    obtain hs | earlier := attachments_attach hat
    · exact .inr ⟨hs, rfl⟩
    · exact .inl earlier
  | _ => exact .inl hat

theorem binding_of_moves (binds : binding after = true) :
    p.activation = none ∨ binding phase = true := by
  cases hv with
  | connects _ hin => exact .inl hin
  | opens | attaches => exact .inr rfl
  | _ => cases binds

theorem inactive_of_moves (hin : q.activation = none) : p.activation = none := by
  obtain ⟨kept, -⟩ | ⟨live, -, -, rfl⟩ | ⟨db, unbound, -⟩ := hv.activation
  · exact kept ▸ hin
  · cases hin
  · exact unbound

end

structure OneOrg (org : String) (p : SessionPool) : Prop where
  attached : ∀ x ∈ p.attachments, x.payload.orgID = org
  bound : ∀ current, p.activation = some current → current.payload.orgID = org

def BindsFor (org : String) (p : SessionPool) (c : ActivationCall) : Prop :=
  p.activation = none ∨ binding c.phase = true → c.payload.orgID = org

theorem oneOrg_of_moves (one : OneOrg org p) (own : BindsFor org p ⟨payload, phase⟩)
    (hv : Moves p payload phase a q after) : OneOrg org q where
  attached x hat := by
    obtain earlier | ⟨hs, binds⟩ := attachments_of_moves hv hat
    · exact one.attached x earlier
    · rw [hs]
      exact own (.inr binds)
  bound current active := by
    obtain ⟨kept, -⟩ | ⟨live, hf, legal, rfl⟩ | ⟨db, hin, -, rfl⟩ := hv.activation
    · exact one.bound current (kept ▸ active)
    · cases active
      exact (reuseAllowed_org legal).symm.trans (one.bound live hf)
    · cases active
      exact own (.inl hin)

theorem bindsFor_of_moves (own : BindsFor org p ⟨payload, phase⟩)
    (hv : Moves p payload phase a q after) : BindsFor org q ⟨payload, after⟩ := by
  rintro (hin | binds)
  · exact own (.inl (inactive_of_moves hv hin))
  · exact own (binding_of_moves hv binds)

theorem oneOrg_started {call} (hh : w.Holds (OneOrg org) (BindsFor org))
    (hs : w.shared.activation = none → payload.orgID = org) :
    (w.set w.shared call (activationProgram.start payload)).Holds (OneOrg org) (BindsFor org) := by
  refine ⟨hh.shared, forall_calls_set ?_ fun other d _ => hh.own other d⟩
  rintro (hin | binds)
  · exact hs hin
  · cases binds

theorem oneOrg_advanced {call c next shared} (hh : w.Holds (OneOrg org) (BindsFor org)) (hf : w.calls call = some c)
    (hd : activationProgram.step w.shared c a = some (shared, next)) :
    (w.set shared call next).Holds (OneOrg org) (BindsFor org) := by
  obtain ⟨samePayload, hv⟩ := moves_of_step hd
  have own := hh.own call c hf
  refine ⟨oneOrg_of_moves hh.shared own hv, forall_calls_set ?_ ?_⟩
  · rw [show next = ⟨c.payload, next.phase⟩ by rw [← samePayload]]
    exact bindsFor_of_moves own hv
  · intro other d _ hfo binds
    exact hh.own other d hfo (binds.imp_left (inactive_of_moves hv))

def NoForeign (w : ActivationWorld) : Prop :=
  (∀ org, w.Holds (OneOrg org) (BindsFor org)) ∨
    ∃ org call c, w.Holds (OneOrg org) (BindsFor org) ∧ w.calls call = some c

theorem noForeign_step {step} (inv : NoForeign w) (legal : OneOrgUntilBound w step)
    (ha : activationProgram.machine.step w step = some v) : NoForeign v := by
  cases Program.takes_of_step ha with
  | @start call payload =>
    obtain anyOrg | ⟨org, other, c, hh, hf⟩ := inv
    · exact .inr ⟨payload.orgID, call, _, oneOrg_started (anyOrg _) fun _ => rfl, calls_set_self ..⟩
    · refine .inr ⟨org, call, _, oneOrg_started hh fun hin => ?_, calls_set_self ..⟩
      exact (legal hin other c hf).symm.trans (hh.own other c hf (.inl hin))
  | @advance call _ c next _ hf hd =>
    obtain anyOrg | ⟨org, other, d, hh, -⟩ := inv
    · exact .inr ⟨c.payload.orgID, call, next, oneOrg_advanced (anyOrg _) hf hd, calls_set_self ..⟩
    · exact .inr ⟨org, call, next, oneOrg_advanced hh hf hd, calls_set_self ..⟩

theorem noForeign_warm (warmupDB fallbackDB : Option Nat) (cacheProxyS3Addr : String) :
    NoForeign (.init (.warm warmupDB fallbackDB cacheProxyS3Addr)) := by
  refine .inl fun org => holds_init ⟨?_, ?_⟩
  · intro x hat
    cases hat
  · intro current active
    cases active

theorem attached_by_one_org (warmupDB fallbackDB : Option Nat) (cacheProxyS3Addr : String)
    (steps : List (CallStep ActivationStep ActivationPayload))
    (allowed : activationProgram.machine.Obeys OneOrgUntilBound
      (.init (.warm warmupDB fallbackDB cacheProxyS3Addr)) steps)
    (run : activationProgram.machine.run (.init (.warm warmupDB fallbackDB cacheProxyS3Addr)) steps = some w)
    (call : Nat) (payload : ActivationPayload) (succeeded : Succeeded w call payload) :
    ∀ x ∈ w.shared.attachments, x.payload.orgID = payload.orgID := by
  have inv : NoForeign w := activationProgram.machine.invariant_of_obeys NoForeign
    (fun _ _ _ => noForeign_step) (noForeign_warm ..)
    allowed run
  have hh : ∃ org, w.Holds (OneOrg org) (BindsFor org) := by
    obtain anyOrg | ⟨org, _, _, hh, _⟩ := inv
    · exact ⟨payload.orgID, anyOrg _⟩
    · exact ⟨org, hh⟩
  obtain ⟨org, hh⟩ := hh
  obtain ⟨current, active, hs⟩ := (bound_of_run (bound_warm ..) run).own call _ succeeded rfl
  intro x hat
  calc x.payload.orgID = org := hh.shared.attached x hat
    _ = current.payload.orgID := (hh.shared.bound current active).symm
    _ = payload.orgID := hs

def retriedBinding : List (CallStep ActivationStep ActivationPayload) :=
  callSteps 0 payloadA [.receive, .check, .connect none] ++
    callSteps 1 payloadB bindSteps

theorem attached_by_one_org_retried :
    ∃ w, activationProgram.machine.run (.init (.warm (some 0) none "")) retriedBinding = some w ∧
      w.shared.attachments.length = 1 ∧
      ∀ x ∈ w.shared.attachments, x.payload.orgID = "acme" := by
  refine ⟨_, rfl, rfl, attached_by_one_org (some 0) none "" retriedBinding ?_ rfl 1 payloadB rfl⟩
  refine .cons rfl ?_ (.cons rfl trivial (.cons rfl trivial (.cons rfl trivial (.cons rfl ?_
    (.cons rfl trivial (.cons rfl trivial (.cons rfl trivial (.cons rfl trivial (.cons rfl trivial trivial)))))))))
  all_goals rintro _ (_ | call) c ⟨⟩ <;> rfl

def globexPayload : ActivationPayload := ⟨7, 2, "cp-b", "globex", { metadataStore := "postgres:host=globex" }, {}⟩

theorem attached_by_refused_org : ∃ w, activationProgram.machine.run (.init (.warm (some 0) none ""))
        (callSteps 0 payloadA [.receive, .check, .connect none] ++
          callSteps 1 globexPayload [.receive, .check, .connect none, .attach true true] ++
          [.advance 0 (.attach true true), .advance 0 .commit, .advance 1 .commit]) = some w ∧
      Succeeded w 0 payloadA ∧
      w.calls 1 = some ⟨globexPayload, .returned (some (.alreadyActivated "acme"))⟩ ∧
      ∃ x ∈ w.shared.attachments, x.payload = globexPayload ∧ x.db = 0 ∧
        w.shared.activation = some ⟨payloadA, 0⟩ :=
  ⟨_, rfl, rfl, rfl, _, .tail _ (.head _), rfl, rfl, rfl⟩

end Duckgres.Proof.Worker
