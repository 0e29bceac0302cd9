import Duckgres.Worker.Activation

namespace Duckgres.Proof.Worker
open Base Duckgres.Worker SessionPool

variable {p q : SessionPool} {payload : ActivationPayload} {phase after : ActivationPhase} {a : ActivationStep}

def installed (p : SessionPool) (payload : ActivationPayload) (db : Nat) : SessionPool :=
  { p with activation := some ⟨payload, db⟩
           ownerEpoch := payload.ownerEpoch
           ownerCPInstanceID := payload.cpInstanceID
           workerID := payload.workerID }

def written : ActivationPhase → Bool
  | .refreshingIceberg _ | .committingReuse => true
  | _ => false

structure Valid (payload : ActivationPayload) : Prop where
  org : Store.isBlank payload.orgID = false
  epoch : 0 ≤ payload.ownerEpoch

inductive Moves (p : SessionPool) (payload : ActivationPayload) :
    ActivationPhase → ActivationStep → SessionPool → ActivationPhase → Prop
  | fails {phase : ActivationPhase} {a : ActivationStep} {error}
      (early : written phase = false) :
      Moves p payload phase a p (.returned (some error))
  | admits : Moves p payload .received .receive p .admitted
  | repeats {phase : ActivationPhase} {a : ActivationStep} {current}
      (active : p.activation = some current) (same : current.payload = payload) :
      Moves p payload phase a p (.returned none)
  | reuses {current} (valid : Valid payload)
      (active : p.activation = some current) : Moves p payload .admitted .check p .reusing
  | connects (valid : Valid payload) (inactive : p.activation = none) : Moves p payload .admitted .check p .connecting
  | prepares {current} (active : p.activation = some current)
      (allowed : reuseAllowed current.payload payload) :
      Moves p payload .reusing .prepareReuse p (.refreshingS3 (needsRefresh current.payload payload))
  | keepsSecret {needed ok} (unused : needed = true → payload.duckLake.objectStore = "") :
      Moves p payload (.refreshingS3 needed) (.refreshS3 ok) p (.refreshingIceberg needed)
  | replacesSecret (used : payload.duckLake.objectStore ≠ "") :
      Moves p payload (.refreshingS3 true) (.refreshS3 true)
        { p with s3Secret := some payload.duckLake.credentials } (.refreshingIceberg true)
  | refreshed {needed ok} : Moves p payload (.refreshingIceberg needed) (.refreshIceberg ok) p .committingReuse
  | icebergFails {error} (enabled : payload.iceberg.enabled) :
      Moves p payload (.refreshingIceberg true) (.refreshIceberg false) p (.returned (some error))
  | takesOver {live} (active : p.activation = some live)
      (allowed : reuseAllowed live.payload payload) :
      Moves p payload .committingReuse .commitReuse (installed p payload live.db) (.returned none)
  | losesOut {error}
      (refused : ∀ live, p.activation = some live → ¬ reuseAllowed live.payload payload) :
      Moves p payload .committingReuse .commitReuse p (.returned (some error))
  | opens {created db warmupDB fallbackDB} :
      Moves p payload .connecting (.connect created)
        { p with warmupDB := warmupDB, fallbackDB := fallbackDB } (.attaching db)
  | attaches {db ok secret} :
      Moves p payload (.attaching db) (.attach ok secret) (p.attach payload db ok secret).1
        (p.attach payload db ok secret).2
  | binds {db} (inactive : p.activation = none) (newer : p.ownerEpoch < payload.ownerEpoch) :
      Moves p payload (.committing db) .commit (installed p payload db) (.returned none)

theorem moves_receive : Moves p payload .received .receive p (p.receive payload) := by
  unfold receive
  split
  · exact .fails rfl
  split
  · split
    · exact .fails rfl
    · exact .admits
  · exact .admits

theorem moves_check : Moves p payload .admitted .check p (p.check payload) := by
  have fails {error : ActivationError} : Moves p payload .admitted .check p (.returned (some error)) := .fails rfl
  unfold check
  split
  · exact fails
  split
  · exact fails
  rename_i org
  split
  · exact fails
  rename_i epoch
  have valid : Valid payload := ⟨Bool.eq_false_iff.mpr org, Int.not_lt.mp epoch⟩
  split
  · exact fails
  split
  · rename_i current active
    split
    · exact fails
    split
    · exact .repeats active ‹_›
    split
    · exact fails
    · exact .reuses valid active
  · rename_i hin
    split
    · exact fails
    · exact .connects valid hin

theorem moves_prepareReuse : Moves p payload .reusing .prepareReuse p (p.prepareReuse payload) := by
  unfold prepareReuse
  split
  · rename_i current active
    split
    · exact .prepares active ‹_›
    · exact .fails rfl
  · exact .fails rfl

theorem moves_refreshS3 {needed ok} :
    Moves p payload (.refreshingS3 needed) (.refreshS3 ok) (p.refreshS3 payload needed ok).1
      (p.refreshS3 payload needed ok).2 := by
  unfold refreshS3
  split
  · rename_i used
    obtain ⟨rfl, used⟩ := Bool.and_eq_true_iff.mp used
    cases ok with
    | true => exact .replacesSecret (by simpa using used)
    | false => exact .fails rfl
  · rename_i hun
    exact .keepsSecret fun needed => by simpa [needed] using hun

theorem moves_refreshIceberg {needed ok} : Moves p payload (.refreshingIceberg needed) (.refreshIceberg ok) p
      (p.refreshIceberg payload needed ok) := by
  unfold refreshIceberg
  split
  · rename_i hfa
    simp only [Bool.and_eq_true, Bool.not_eq_true'] at hfa
    obtain ⟨⟨rfl, enabled⟩, rfl⟩ := hfa
    exact .icebergFails enabled
  · exact .refreshed

theorem moves_commitReuse : Moves p payload .committingReuse .commitReuse (p.commitReuse payload).1
      (p.commitReuse payload).2 := by
  unfold commitReuse
  split
  · rename_i live active
    split
    · exact .takesOver active ‹_›
    · rename_i refused
      refine .losesOut fun other hf => ?_
      cases active.symm.trans hf
      exact refused
  · rename_i hin
    refine .losesOut fun other hf => ?_
    cases hin.symm.trans hf

theorem moves_connect {created} :
    Moves p payload .connecting (.connect created) (p.connect created).1 (p.connect created).2 := by
  unfold connect
  split
  · exact .opens
  split
  · exact .opens
  split
  · exact .opens
  · exact .fails rfl

theorem moves_commit {db} :
    Moves p payload (.committing db) .commit (p.commit payload db).1 (p.commit payload db).2 := by
  unfold commit
  split
  · exact .fails rfl
  split
  · rename_i hs
    obtain ⟨current, active, hs⟩ := (Option.any_eq_true _ _).mp hs
    exact .repeats active (by simpa using (Bool.and_eq_true_iff.mp hs).2)
  split
  · exact .fails rfl
  · rename_i newer
    split
    · exact .fails rfl
    · exact .binds ‹_› (Int.not_le.mp newer)

structure SameOwner (p q : SessionPool) : Prop where
  activation : q.activation = p.activation
  ownerEpoch : q.ownerEpoch = p.ownerEpoch
  workerID : q.workerID = p.workerID
  mode : q.sharedWarmMode = p.sharedWarmMode

theorem sameOwner_attach {db ok secret} : SameOwner p (p.attach payload db ok secret).1 := by
  unfold attach
  split <;> exact ⟨rfl, rfl, rfl, rfl⟩

theorem attach_phase (p : SessionPool) (payload : ActivationPayload) (db : Nat) (ok secret : Bool) :
    (p.attach payload db ok secret).2 = .committing db ∨
      ∃ error, (p.attach payload db ok secret).2 = .returned (some error) := by
  unfold attach
  split
  · exact .inr ⟨_, rfl⟩
  · cases ok with
    | true => exact .inl rfl
    | false => exact .inr ⟨_, rfl⟩

theorem Moves.of_eq {result}
    (hv : Moves p payload phase a result.1 result.2) (ha : some result = some (q, after)) :
    Moves p payload phase a q after := by
  cases ha
  exact hv

theorem moves_of_next (ha : p.next payload phase a = some (q, after)) : Moves p payload phase a q after := by
  unfold next at ha
  split at ha
  · exact moves_receive.of_eq ha
  · exact moves_check.of_eq ha
  · exact moves_prepareReuse.of_eq ha
  · exact moves_refreshS3.of_eq ha
  · exact moves_refreshIceberg.of_eq ha
  · exact moves_commitReuse.of_eq ha
  · exact moves_connect.of_eq ha
  · exact Moves.attaches.of_eq ha
  · exact moves_commit.of_eq ha
  · cases ha

theorem moves_of_step {c next} (hd : activationProgram.step p c a = some (q, next)) :
    next.payload = c.payload ∧ Moves p c.payload c.phase a q next.phase := by
  obtain ⟨⟨pool, phase⟩, ha, ⟨⟩⟩ := Option.map_eq_some_iff.mp hd
  exact ⟨rfl, moves_of_next ha⟩

def binding : ActivationPhase → Bool
  | .connecting | .attaching _ | .committing _ => true
  | _ => false

theorem Moves.activation (hv : Moves p payload phase a q after) : SameOwner p q ∨
      (∃ live, p.activation = some live ∧ reuseAllowed live.payload payload ∧ q = installed p payload live.db) ∨
      (∃ db, p.activation = none ∧ p.ownerEpoch < payload.ownerEpoch ∧
        q = installed p payload db) := by
  cases hv with
  | takesOver active legal => exact .inr (.inl ⟨_, active, legal, rfl⟩)
  | binds hin newer => exact .inr (.inr ⟨_, hin, newer, rfl⟩)
  | attaches => exact .inl sameOwner_attach
  | _ => exact .inl ⟨rfl, rfl, rfl, rfl⟩

theorem Moves.success (hv : Moves p payload phase a q after) (done : after = .returned none) :
    (∃ current, p.activation = some current ∧ current.payload = payload ∧ q = p) ∨
      (∃ live, p.activation = some live ∧ reuseAllowed live.payload payload ∧ q = installed p payload live.db) ∨
      (∃ db, p.activation = none ∧ q = installed p payload db) := by
  cases hv with
  | repeats active hs => exact .inl ⟨_, active, hs, rfl⟩
  | takesOver active legal => exact .inr (.inl ⟨_, active, legal, rfl⟩)
  | binds hin => exact .inr (.inr ⟨_, hin, rfl⟩)
  | attaches =>
    obtain committing | ⟨error, hfa⟩ := attach_phase p payload _ _ _
    · cases committing.symm.trans done
    · cases hfa.symm.trans done
  | _ => cases done

theorem reuseAllowed_iff {current} : reuseAllowed current payload ↔ sameTenantActivationRuntime current payload ∧
      (current = payload ∨ current.ownerEpoch < payload.ownerEpoch ∨
        sameOwnerActivationAttempt current payload) := by
  simp [reuseAllowed, Bool.and_eq_true, bne_eq_false_iff_eq, decide_eq_false_iff_not, or_assoc]

theorem reuseAllowed_org {current} (legal : reuseAllowed current payload) : current.orgID = payload.orgID := by
  have hs := (reuseAllowed_iff.mp legal).1
  simp only [sameTenantActivationRuntime, Bool.and_eq_true, beq_iff_eq] at hs
  exact hs.1.1

def acmePayload (cpInstanceID : String) (ownerEpoch : Int) (accessKey : String) : ActivationPayload :=
  ⟨7, ownerEpoch, cpInstanceID, "acme",
    { metadataStore := "postgres:host=meta", objectStore := "s3://acme/"
      s3AccessKey := accessKey }, {}⟩

def payloadA : ActivationPayload := acmePayload "cp-a" 1 "key-1"

def payloadB : ActivationPayload := acmePayload "cp-b" 2 "key-2"

def payloadC : ActivationPayload := acmePayload "cp-c" 3 "key-3"

def callSteps (call : Nat) (payload : ActivationPayload) (steps : List ActivationStep) :
    List (CallStep ActivationStep ActivationPayload) :=
  .start call payload :: steps.map (.advance call)

def bindSteps : List ActivationStep := [.receive, .check, .connect none, .attach true true, .commit]

def takeoverSteps : List ActivationStep := [.receive, .check, .prepareReuse, .refreshS3 true, .refreshIceberg true]

def acmeWorker : SessionPool :=
  installed ((warm (some 0) none "").attach payloadA 0 true true).1
    payloadA 0

end Duckgres.Proof.Worker
