import Duckgres.Admission.Limiter
import Duckgres.Proof.Admission.Statements

namespace Duckgres.Proof.Admission
open Base Duckgres.Store Duckgres.Admission Table ConnectionTables Limiter Option

variable {s : ConnectionTables} {requestID : String} {now : Nat} {max : Int}

/-! ## What the calls of the store do to one request -/

theorem find?_cleanup_queue (s : ConnectionTables) (orgID id : String) (now : Nat) :
    (s.cleanupOrgConnectionRowsLocked orgID now).queue.find? id =
      (s.queue.find? id).filter fun row => !row.expiredAt orgID now := find?_filter ..

theorem cleanup_unleased (unleased : s.leases.find? requestID = none) (orgID : String) (now : Nat) :
    (s.cleanupOrgConnectionRowsLocked orgID now).leases.find? requestID = none := by
  simp [cleanupOrgConnectionRowsLocked, find?_filter, unleased]

variable {id : String} {row : OrgConnectionQueueEntry} {clock : Nat} {e : AcquireError} {outcome : StoreOutcome}

theorem find?_of_cleanup {orgID} (hf : (s.cleanupOrgConnectionRowsLocked orgID now).queue.find? id = some row) :
    s.queue.find? id = some row := by
  rw [find?_cleanup_queue] at hf
  exact (filter_eq_some_iff.mp hf).1

inductive Tried (s : ConnectionTables) (requestID : String) (now : Nat) :
    ConnectionTables × Option OrgConnectionLease → Prop
  | unknown (missing : s.queue.find? requestID = none) : Tried s requestID now (s, none)
  | expired {row : OrgConnectionQueueEntry} (found : s.queue.find? requestID = some row)
      (missing : (s.cleanupOrgConnectionRowsLocked row.orgID now).queue.find? requestID = none) :
      Tried s requestID now (s.cleanupOrgConnectionRowsLocked row.orgID now, none)
  | existing {row : OrgConnectionQueueEntry} {lease}
      (found : s.queue.find? requestID = some row)
      (leased : (s.cleanupOrgConnectionRowsLocked row.orgID now).leases.find? requestID = some lease) :
      Tried s requestID now (s.cleanupOrgConnectionRowsLocked row.orgID now, some lease)
  | waits {row : OrgConnectionQueueEntry} (found : s.queue.find? requestID = some row)
      (left : (s.cleanupOrgConnectionRowsLocked row.orgID now).queue.find? requestID = some row)
      (unleased : (s.cleanupOrgConnectionRowsLocked row.orgID now).leases.find? requestID = none) :
      Tried s requestID now (s.cleanupOrgConnectionRowsLocked row.orgID now, none)
  | granted {row : OrgConnectionQueueEntry} (found : s.queue.find? requestID = some row)
      (left : (s.cleanupOrgConnectionRowsLocked row.orgID now).queue.find? requestID = some row) :
      Tried s requestID now
        ((s.cleanupOrgConnectionRowsLocked row.orgID now).createOrgConnectionLease row now, some (row.lease now))

theorem tried (s : ConnectionTables) (requestID : String) (max : Int) (now : Nat) :
    Tried s requestID now (s.tryAcquireOrgConnectionLeaseOnce requestID max now) := by
  unfold tryAcquireOrgConnectionLeaseOnce
  cases hf : s.queue.find? requestID with
  | none => exact .unknown hf
  | some row =>
    dsimp only
    cases left : (s.cleanupOrgConnectionRowsLocked row.orgID now).queue.find? requestID with
    | none => exact .expired hf left
    | some request =>
      cases hf.symm.trans (find?_of_cleanup left)
      dsimp [existingOrgConnectionLease]
      cases leased : (s.cleanupOrgConnectionRowsLocked row.orgID now).leases.find? requestID with
      | some lease => exact .existing hf leased
      | none =>
        dsimp only
        split
        · exact .waits hf left leased
        split
        · exact .waits hf left leased
        · split
          · exact .waits hf left leased
          · exact .granted hf left

variable {result : ConnectionTables × Option OrgConnectionLease}

theorem Tried.others (tried : Tried s requestID now result) (other : id ≠ requestID) :
    (∀ row, result.1.queue.find? id = some row → s.queue.find? id = some row) ∧
      (s.leases.find? id = none → result.1.leases.find? id = none) := by
  cases tried with
  | unknown => exact ⟨fun _ hf => hf, fun none => none⟩
  | expired | existing | waits => exact ⟨fun _ => find?_of_cleanup, fun none => cleanup_unleased none _ _⟩
  | @granted row hf =>
    obtain rfl : row.requestID = requestID := key_of_find? hf
    constructor
    · intro entry kept
      refine find?_of_cleanup ((find?_upsert_of_ne _ ?_).symm.trans kept)
      exact other
    · intro none
      refine (find?_upsert_of_ne _ ?_).trans (cleanup_unleased none row.orgID now)
      exact other

structure Waits (requestID : String) (s : ConnectionTables) : Prop where
  unleased : s.leases.find? requestID = none
  waiting : ∀ row, s.queue.find? requestID = some row → row.waiting = true

structure Clean (requestID : String) (s : ConnectionTables) : Prop where
  unleased : s.leases.find? requestID = none
  notPending : ∀ row, s.queue.find? requestID = some row → row.waiting = false

theorem find?_cleanup_own (hf : s.queue.find? requestID = some row)
    (waits : row.waiting = true) : (s.cleanupOrgConnectionRowsLocked row.orgID now).queue.find? requestID =
      if row.expiresAt ≤ now then none else some row := by
  rw [find?_cleanup_queue, hf]
  by_cases late : row.expiresAt ≤ now
  · simp [OrgConnectionQueueEntry.expiredAt, waits, late]
  · simp [OrgConnectionQueueEntry.expiredAt, late]

theorem early_of_left (hf : s.queue.find? requestID = some row) (waits : row.waiting = true)
    (left : (s.cleanupOrgConnectionRowsLocked row.orgID now).queue.find? requestID = some row) :
    ¬ row.expiresAt ≤ now := by
  intro late
  rw [find?_cleanup_own hf waits, if_pos late] at left
  cases left

theorem Waits.clean_iff (waits : Waits requestID s) : Clean requestID s ↔ s.queue.find? requestID = none := by
  constructor
  · intro hcl
    cases hf : s.queue.find? requestID with
    | none => rfl
    | some row => cases (waits.waiting row hf).symm.trans (hcl.notPending row hf)
  · intro gone
    refine ⟨waits.unleased, fun row hf => ?_⟩
    cases gone.symm.trans hf

theorem Tried.clean_iff (tried : Tried s requestID now result) (waits : Waits requestID s) : Clean requestID result.1 ↔
      ∀ row, s.queue.find? requestID = some row → row.expiresAt ≤ now := by
  cases tried with
  | unknown gone => simp [waits.clean_iff, gone]
  | @expired row hf gone =>
    have late : row.expiresAt ≤ now := by
      rw [find?_cleanup_own hf (waits.waiting row hf)] at gone
      by_contra early
      rw [if_neg early] at gone
      cases gone
    constructor
    · intro _ other otherFound
      cases hf.symm.trans otherFound
      exact late
    · intro _
      refine ⟨cleanup_unleased waits.unleased _ _, fun other left => ?_⟩
      cases gone.symm.trans left
  | @existing _ _ _ leased =>
    rw [cleanup_unleased waits.unleased] at leased
    cases leased
  | @waits row hf left =>
    have early := early_of_left hf (waits.waiting row hf) left
    constructor
    · intro hcl
      cases (waits.waiting row hf).symm.trans (hcl.notPending row left)
    · intro late
      exact absurd (late row hf) early
  | @granted row hf left =>
    have early := early_of_left hf (waits.waiting row hf) left
    constructor
    · intro hcl
      obtain rfl : row.requestID = requestID := key_of_find? hf
      cases (find?_upsert _ _).symm.trans hcl.unleased
    · intro late
      exact absurd (late row hf) early

theorem Tried.waits_of_none {after} (tried : Tried s requestID now (after, none))
    (waits : Waits requestID s) : Waits requestID after := by
  cases tried with
  | unknown => exact waits
  | expired | waits =>
    exact ⟨cleanup_unleased waits.unleased _ _, fun other left => waits.waiting other (find?_of_cleanup left)⟩

theorem cancel_clean (waits : Waits requestID s) (named : isBlank requestID = false) :
    Clean requestID (s.cancelOrgConnectionRequest requestID).1 := by
  unfold cancelOrgConnectionRequest
  cases hf : s.queue.find? requestID with
  | none => exact waits.clean_iff.mpr hf
  | some row =>
    simp only [waits.waiting row hf, named]
    refine ⟨waits.unleased, fun other left => ?_⟩
    cases (find?_filter_self _ _).symm.trans left

def Apart (requestID : String) (_ : Acquire) : AcquireStep → Prop
  | .other (.enqueue entry _ _) => entry.requestID ≠ requestID
  | .other (.tryAcquire id _ _) => id ≠ requestID
  | _ => True

variable {entry : OrgConnectionQueueEntry}

theorem enqueue_eq_ok {clientClock next} (done : s.enqueueOrgConnectionRequest entry clientClock clock = .ok next) :
    ∃ ttl, entryTTL entry clientClock = .ok ttl ∧ s.queue.find? entry.requestID = none ∧
      next = { s with
        queue := s.queue.upsert { entry with enqueuedAt := clock, expiresAt := clock + ttl }
        grants := Function.update s.grants entry.requestID 0 } := by
  unfold enqueueOrgConnectionRequest at done
  split at done
  · cases done
  rename_i ttl valid
  dsimp only at done
  split at done
  · rename_i fresh
    exact ⟨ttl, valid, fresh, (Except.ok.inj done).symm⟩
  · cases done

theorem enqueue_eq_error {clientClock} {e} (fresh : s.queue.find? entry.requestID = none)
    (hfa : s.enqueueOrgConnectionRequest entry clientClock clock = .error e) :
    entryTTL entry clientClock = .error e := by
  unfold enqueueOrgConnectionRequest at hfa
  split at hfa
  · rename_i refused
    cases hfa
    exact refused
  · dsimp only at hfa
    rw [if_pos fresh] at hfa
    cases hfa

theorem perform_kept {call p} (hne : Apart requestID p (.other call)) :
    (∀ row, (s.perform call).queue.find? requestID = some row → s.queue.find? requestID = some row) ∧
      (s.leases.find? requestID = none → (s.perform call).leases.find? requestID = none) := by
  cases call with
  | enqueue entry =>
    simp only [perform]
    split
    · rename_i next done
      obtain ⟨ttl, -, -, rfl⟩ := enqueue_eq_ok done
      have other : requestID ≠ entry.requestID := Ne.symm hne
      refine ⟨fun row hf => ?_, fun none => none⟩
      exact (find?_upsert_of_ne _ (by exact other)).symm.trans hf
    · exact ⟨fun _ hf => hf, fun none => none⟩
  | tryAcquire id max clock =>
    simp only [perform, tryAcquireOrgConnectionLease]
    split
    · rename_i next lease done
      split at done
      · cases done
      · have kept := (tried s id max clock).others (Ne.symm hne)
        rw [Except.ok.inj done] at kept
        exact kept
    · exact ⟨fun _ hf => hf, fun none => none⟩
  | release =>
    simp only [perform, releaseOrgConnectionLease]
    split
    · exact ⟨fun _ hf => hf, fun none => none⟩
    refine ⟨fun row hf => ?_, fun none => ?_⟩
    · rw [find?_filter] at hf
      exact (filter_eq_some_iff.mp hf).1
    · rw [find?_filter, none]
      rfl
  | single op =>
    refine ⟨fun row => find?_of_single op, fun unleased => ?_⟩
    change (s.single op).1.leases.find? requestID = none
    rw [(single_leases op).1]
    exact unleased

variable {l : Limiter} {p next : Acquire}

def Going (requestID : String) (p : Acquire) : Prop := match p.phase with
  | .begun => p.tables.queue.find? requestID = none ∧ p.tables.leases.find? requestID = none
  | .polling _ | .waiting _ => Waits requestID p.tables ∧ isBlank requestID = false
  | .leased _ | .failed _ => True

theorem going_other {call} (going : Going requestID p)
    (hne : Apart requestID p (.other call)) : Going requestID ⟨p.tables.perform call, p.phase⟩ := by
  obtain ⟨queue, leases⟩ := perform_kept hne
  unfold Going at going ⊢
  split
  · rename_i hp
    rw [hp] at going
    refine ⟨?_, leases going.2⟩
    cases hf : (p.tables.perform call).queue.find? requestID with
    | none => rfl
    | some row => cases going.1.symm.trans (queue row hf)
  · rename_i hp
    rw [hp] at going
    exact ⟨⟨leases going.1.unleased, fun row hf => going.1.waiting row (queue row hf)⟩, going.2⟩
  · rename_i hp
    rw [hp] at going
    exact ⟨⟨leases going.1.unleased, fun row hf => going.1.waiting row (queue row hf)⟩, going.2⟩
  · trivial
  · trivial

theorem waits_of_enqueue {pid protocol} {now : Nat} {after} (unleased : s.leases.find? requestID = none)
    (done : s.enqueueOrgConnectionRequest (l.entry requestID pid protocol now) now clock = .ok after) :
    Waits requestID after ∧ isBlank requestID = false ∧ after.queue.find? requestID ≠ none := by
  obtain ⟨ttl, valid, -, rfl⟩ := enqueue_eq_ok done
  have hf := find?_upsert s.queue
    { l.entry requestID pid protocol now with enqueuedAt := clock, expiresAt := clock + ttl }
  refine ⟨⟨unleased, fun row rowFound => ?_⟩, ?_, fun none => ?_⟩
  · cases hf.symm.trans rowFound
    rfl
  · unfold entryTTL at valid
    dsimp only at valid
    split at valid
    · cases valid
    · rename_i named
      simpa [entry] using named
  · cases hf.symm.trans none

theorem poll_of_early {expiresAt} (named : isBlank requestID = false)
    (early : ¬ expiresAt ≤ now) : poll requestID s expiresAt now max clock outcome =
      match outcome, s.tryAcquireOrgConnectionLeaseOnce requestID max clock with
      | .failsBefore, _ => ⟨s, .failed .tryAcquire⟩
      | .failsAfter, (after, _) => ⟨after, .failed .tryAcquire⟩
      | .succeeds, (after, some lease) => ⟨after, .leased lease.leaseID⟩
      | .succeeds, (after, none) => ⟨after, .waiting expiresAt⟩ := by
  unfold poll tryAcquireOrgConnectionLease
  rw [if_neg early, named]
  rcases s.tryAcquireOrgConnectionLeaseOnce requestID max clock with ⟨after, _ | lease⟩ <;> cases outcome <;> rfl

variable {step : AcquireStep}

theorem going_step (going : Going requestID p) (hne : Apart requestID p step)
    (ha : (l.machine requestID).step p step = some next) : Going requestID next := by
  cases step with
  | newIDFails =>
    obtain ⟨-, ⟨⟩⟩ := ite_none_right_eq_some.mp ha
    trivial
  | enqueue =>
    obtain ⟨hp, ⟨⟩⟩ := ite_none_right_eq_some.mp ha
    unfold Going at going
    rw [hp] at going
    unfold Limiter.enqueue
    split
    · trivial
    · trivial
    · trivial
    · rename_i after done
      obtain ⟨waits, named, -⟩ := waits_of_enqueue going.2 done
      exact ⟨waits, named⟩
  | poll now max clock =>
    simp only [machine] at ha
    split at ha
    · rename_i expiresAt hp
      cases ha
      unfold Going at going
      rw [hp] at going
      by_cases late : expiresAt ≤ now
      · unfold Limiter.poll
        rw [if_pos late]
        trivial
      rw [poll_of_early going.2 late]
      have tried := tried p.tables requestID max clock
      split
      · trivial
      · trivial
      · trivial
      · rename_i after result
        rw [result] at tried
        exact ⟨tried.waits_of_none going.1, going.2⟩
    · cases ha
  | timer =>
    simp only [machine] at ha
    split at ha
    · rename_i expiresAt hp
      cases ha
      unfold Going at going
      rw [hp] at going
      exact going
    · cases ha
  | done =>
    simp only [machine] at ha
    split at ha
    · cases ha
      trivial
    · cases ha
  | other =>
    cases ha
    exact going_other going hne

def CancelSucceeds (p : Acquire) : AcquireStep → Prop
  | .poll now _ _ outcome => ∀ expiresAt, p.phase = .polling expiresAt → expiresAt ≤ now → outcome = .succeeds
  | .done _ outcome => outcome = .succeeds
  | _ => True

/-- An enqueue that reports an error has not taken effect. When a try-acquire reports an error the
request had left the queue before, or the try-acquire has taken effect after the request's expiry. -/
def ErrorsClean (l : Limiter) (requestID : String) (p : Acquire) : AcquireStep → Prop
  | .enqueue pid protocol now _ outcome => outcome = .failsAfter →
      ∃ e, entryTTL (l.entry requestID pid protocol now) now = .error e
  | .poll now _ clock outcome => ∀ expiresAt, p.phase = .polling expiresAt → now < expiresAt →
      ∀ row, p.tables.queue.find? requestID = some row → outcome = .failsAfter ∧ row.expiresAt ≤ clock
  | _ => True

theorem clean_of_enqueue {pid protocol}
    (queue : s.queue.find? requestID = none) (leases : s.leases.find? requestID = none)
    (hfa : (l.enqueue requestID s pid protocol now clock outcome).phase = .failed e) :
    Clean requestID (l.enqueue requestID s pid protocol now clock outcome).tables ↔
      (outcome = .failsAfter →
        ∃ e, entryTTL (l.entry requestID pid protocol now) now = .error e) := by
  have hcl : Clean requestID s := ⟨leases, fun row hf => by cases queue.symm.trans hf⟩
  unfold enqueue at hfa ⊢
  split
  · rename_i e refused
    exact iff_of_true hcl fun _ => ⟨e, enqueue_eq_error queue refused⟩
  · exact iff_of_true hcl nofun
  · rename_i after done
    obtain ⟨waits, -, queued⟩ := waits_of_enqueue leases done
    refine iff_of_false (fun hcl => queued (waits.clean_iff.mp hcl)) fun refused => ?_
    obtain ⟨e, refused⟩ := refused rfl
    obtain ⟨ttl, valid, -⟩ := enqueue_eq_ok done
    cases refused.symm.trans valid
  · rename_i after done
    rw [done] at hfa
    cases hfa

theorem clean_of_poll {expiresAt} (waits : Waits requestID s) (named : isBlank requestID = false)
    (cancels : expiresAt ≤ now → outcome = .succeeds)
    (hfa : (poll requestID s expiresAt now max clock outcome).phase = .failed e) :
    Clean requestID (poll requestID s expiresAt now max clock outcome).tables ↔
      (now < expiresAt → ∀ row, s.queue.find? requestID = some row →
        outcome = .failsAfter ∧ row.expiresAt ≤ clock) := by
  by_cases late : expiresAt ≤ now
  · unfold poll
    rw [if_pos late, cancels late]
    refine iff_of_true (cancel_clean waits named) fun early => ?_
    omega
  · have early : now < expiresAt := by omega
    have tried := tried s requestID max clock
    rw [poll_of_early named late] at hfa ⊢
    simp only [early, true_imp_iff]
    split at hfa
    · rw [waits.clean_iff]
      constructor
      · intro gone row hf
        cases gone.symm.trans hf
      · intro impossible
        cases hf : s.queue.find? requestID with
        | none => rfl
        | some row => cases (impossible row hf).1
    · rename_i after lease result
      rw [result] at tried
      simpa using tried.clean_iff waits
    · cases hfa
    · cases hfa

theorem clean_of_failed (going : Going requestID p)
    (running : ∀ e, p.phase ≠ .failed e) (cancels : CancelSucceeds p step)
    (ha : (l.machine requestID).step p step = some next) (hfa : next.phase = .failed e) :
    Clean requestID next.tables ↔ ErrorsClean l requestID p step := by
  unfold Going at going
  cases step with
  | newIDFails =>
    obtain ⟨hp, ⟨⟩⟩ := ite_none_right_eq_some.mp ha
    rw [hp] at going
    exact iff_of_true ⟨going.2, fun row hf => by cases going.1.symm.trans hf⟩ trivial
  | enqueue =>
    obtain ⟨hp, ⟨⟩⟩ := ite_none_right_eq_some.mp ha
    rw [hp] at going
    exact clean_of_enqueue going.1 going.2 hfa
  | poll =>
    simp only [machine] at ha
    split at ha
    · rename_i expiresAt hp
      cases ha
      rw [hp] at going
      simpa [ErrorsClean, hp] using clean_of_poll going.1 going.2 (cancels expiresAt hp) hfa
    · cases ha
  | timer =>
    simp only [machine] at ha
    split at ha
    · cases ha
      cases hfa
    · cases ha
  | done _ outcome =>
    simp only [machine] at ha
    split at ha
    · rename_i hp
      cases ha
      rw [hp] at going
      obtain rfl : outcome = .succeeds := cancels
      exact iff_of_true (cancel_clean going.1 going.2) trivial
    · cases ha
  | other =>
    cases ha
    exact absurd hfa (running e)

theorem acquire_error_clean_iff {rows : ConnectionTables} {steps : List AcquireStep}
    {e : AcquireError} (unknown : rows.queue.find? requestID = none ∧ rows.leases.find? requestID = none)
    (apart : (l.machine requestID).Obeys (Apart requestID) ⟨rows, .begun⟩ steps)
    (run : (l.machine requestID).run ⟨rows, .begun⟩ steps = some p) (running : ∀ e, p.phase ≠ .failed e)
    (cancels : CancelSucceeds p step) (action : (l.machine requestID).step p step = some next)
    (failed : next.phase = .failed e) :
    Clean requestID next.tables ↔ ErrorsClean l requestID p step := by
  have start : Going requestID ⟨rows, .begun⟩ := unknown
  have going : Going requestID p := Machine.invariant_of_obeys _ (Going requestID)
    (fun _ _ _ => going_step) start apart run
  exact clean_of_failed going running cancels action failed

def sampleLimiter : Limiter := ⟨"org", "a", 9⟩

theorem acquire_error_clean_expired : ∃ p next,
    (sampleLimiter.machine "r").run ⟨noConnections, .begun⟩ [.enqueue 1 "pg" 1 5 .succeeds] = some p ∧
    (sampleLimiter.machine "r").step p (.poll 10 1 14 .succeeds) = some next ∧
    next.phase = .failed .tooManyConnections ∧ Clean "r" next.tables := by
  refine ⟨?p, ?next, ?run, ?polls, ?failed, (acquire_error_clean_iff ⟨rfl, rfl⟩ ?_ ?run ?_ ?_ ?polls ?failed).mpr ?_⟩
  case run => rfl
  case polls => rfl
  case failed => rfl
  · exact ⟨trivial, fun _ _ => trivial⟩
  · nofun
  · exact fun _ _ _ => rfl
  · intro expiresAt polling early
    cases polling
    exact absurd early (by decide)

theorem acquire_error_leaves_request :
    (∃ next, (sampleLimiter.machine "r").step ⟨noConnections, .begun⟩ (.enqueue 1 "pg" 1 5 .failsAfter) =
      some next ∧ next.phase = .failed .enqueue ∧ ¬ Clean "r" next.tables) ∧
    (∃ next, (sampleLimiter.machine "r").run ⟨noConnections, .begun⟩
      [.enqueue 1 "pg" 1 5 .succeeds, .poll 2 1 6 .failsBefore] = some next ∧
      next.phase = .failed .tryAcquire ∧ ¬ Clean "r" next.tables) ∧
    ∃ next, (sampleLimiter.machine "r").run ⟨noConnections, .begun⟩
      [.enqueue 1 "pg" 1 5 .succeeds, .poll 2 1 6 .failsAfter] = some next ∧
      next.phase = .failed .tryAcquire ∧ ¬ Clean "r" next.tables := by
  refine ⟨⟨_, rfl, rfl, fun clean => ?_⟩, ⟨_, rfl, rfl, fun clean => ?_⟩, ⟨_, rfl, rfl, fun clean => ?_⟩⟩
  · cases clean.notPending _ rfl
  · cases clean.notPending _ rfl
  · cases clean.unleased

end Duckgres.Proof.Admission
