import Duckgres.Proof.Admission.Limiter

namespace Duckgres.Proof.Admission
open Base Duckgres.Store Duckgres.Admission ConnectionTables

variable {lockKey : String → Int} {s : ConnectionTables} {requestID : String} {now : Nat} {max : Int}
  {t next : ConnectionTx}

/-! ## The calls as transactions -/

def Alone (lockKey : String → Int) (s : ConnectionTables) (now : Nat) : ConnectionTx → ConnectionTx → Prop :=
  Relation.ReflTransGen fun t next => s.statement lockKey t now = some next

theorem view_unwritten (queue : t.queue.put = none) (leases : t.leases.put = none)
    (grants : t.phase.grants s.grants = s.grants) : s.view t =
      { s with queue := t.queue.rest s.queue, leases := t.leases.rest s.leases } := by
  unfold view
  rw [Pending.apply_of_put_none queue, Pending.apply_of_put_none leases, grants]

theorem view_begun (call : ConnectionCall) (held : List LockKey) : s.view ⟨call, .begun, .none, .none, held⟩ = s := by
  rw [view_unwritten rfl rfl rfl]
  simp [Pending.rest_none]

theorem start_tryAcquire (named : isBlank requestID = false) :
    ConnectionTx.start (.tryAcquire requestID max) = ⟨.tryAcquire requestID max, .begun, .none, .none, []⟩ := by
  simp [ConnectionTx.start, ConnectionCall.first, named]

def Ends (lockKey : String → Int) (s : ConnectionTables) (now : Nat) (t : ConnectionTx)
    (result : ConnectionTables × Option OrgConnectionLease) : Prop :=
  ∃ u next, Alone lockKey s now t u ∧ u.finish = some next ∧
    next.phase = .returned (.lease result.2) ∧ s.view u = result.1

structure Sees (s : ConnectionTables) (requestID : String) (max : Int) (c : ConnectionTables)
    (t : ConnectionTx) : Prop where
  call : t.call = .tryAcquire requestID max
  queue : t.queue.put = none
  leases : t.leases.put = none
  view : s.view t = c

theorem cleaned_alone {row} (named : isBlank requestID = false) (hf : s.queue.find? requestID = some row) :
    ∃ t, Alone lockKey s now (.start (.tryAcquire requestID max)) t ∧
      Sees s requestID max (s.cleanupOrgConnectionRowsLocked row.orgID now) t ∧
      t.phase = .cleaned row.orgID now := by
  let t : ConnectionTx := ⟨.tryAcquire requestID max, .begun, .none, .none, []⟩
  let timed := (((t.goTo (.found row.orgID)).lock (.advisory (lockKey (orgConnectionsLock row.orgID)))).goTo
    (.locked row.orgID)).goTo (.timed row.orgID now)
  let swept := (timed.dropRequests ((s.view timed).expiredRequests row.orgID now)).goTo (.requestsSwept row.orgID now)
  let owners := (swept.dropLeases ((s.view swept).leasesOfExpiredOwners row.orgID)).goTo (.ownersSwept row.orgID now)
  let cleaned := (owners.dropLeases ((s.view owners).leasesOfMissingOwners row.orgID now)).goTo (.cleaned row.orgID now)
  have begins : s.statement lockKey t now = some (t.goTo (.found row.orgID)) := by
    simp [statement, tryAcquireStatement, t, view_begun, hf]
  refine ⟨cleaned, ?_, ⟨rfl, rfl, rfl, ?_⟩, rfl⟩
  · rw [start_tryAcquire named]
    refine .head begins (.head rfl (.head rfl (.head rfl (.head rfl (.head rfl .refl)))))
  have queue : cleaned.queue.rest s.queue = s.queue.filter fun entry => !entry.expiredAt row.orgID now :=
    (Pending.rest_drop .none s.queue _).trans (by rw [Pending.rest_none])
  have expired : owners.leases.rest s.leases =
      s.leases.filter fun lease => !(lease.orgID = row.orgID && s.ownerExpired lease) :=
    (Pending.rest_drop .none s.leases _).trans (by rw [Pending.rest_none]; rfl)
  have gone : cleaned.leases.rest s.leases = (owners.leases.rest s.leases).filter
      fun lease => !(lease.orgID = row.orgID && s.ownerMissing now lease) :=
    Pending.rest_drop owners.leases s.leases _
  rw [view_unwritten rfl rfl rfl, queue, gone, expired]
  rfl

section
variable {c : ConnectionTables} {row : OrgConnectionQueueEntry} {seen : ConnectionQueue}
  {result : ConnectionTables × Option OrgConnectionLease}

theorem Ends.head (hd : s.statement lockKey t now = some next) (ends : Ends lockKey s now next result) :
    Ends lockKey s now t result := by
  obtain ⟨u, final, alone, finished⟩ := ends
  exact ⟨u, final, .head hd alone, finished⟩

section
variable (sees : Sees s requestID max c t)
include sees

theorem Sees.statement :
    s.statement lockKey t now = s.tryAcquireStatement lockKey requestID max now t := by
  unfold ConnectionTables.statement
  rw [sees.call]

theorem Sees.goTo {phase}
    (grants : phase.grants s.grants = t.phase.grants s.grants) : Sees s requestID max c (t.goTo phase) := by
  refine ⟨sees.call, sees.queue, sees.leases, ?_⟩
  rw [← sees.view]
  unfold ConnectionTables.view
  rw [phase_goTo, grants]
  rfl

theorem Sees.ends {lease} (grants : t.phase.grants s.grants = s.grants)
    (hd : s.statement lockKey t now = some (t.goTo (.ending lease))) : Ends lockKey s now t (c, lease) := by
  have ending : Sees s requestID max c (t.goTo (.ending lease)) := sees.goTo grants.symm
  exact ⟨_, _, .single hd, rfl, rfl, ending.view⟩

theorem ends_admitted (hp : t.phase = .admitted row now seen)
    (left : c.queue.find? requestID = some row) (gone : c.leases.find? requestID = none) :
    Ends lockKey s now t (c.createOrgConnectionLease row now, some (row.lease now)) := by
  have named : row.requestID = requestID := Table.key_of_find? left
  let created := (t.putLease (row.lease now)).goTo (.created row now seen)
  let hg := (created.putRequest { row with grantedAt := some now }).goTo (.granted row now seen)
  have creates : s.statement lockKey t now = some created := by
    rw [sees.statement]
    simp only [tryAcquireStatement, hp, sees.view, named, gone]
    rfl
  have grants : s.statement lockKey created now = some hg := by
    have visible : (s.view created).queue.find? row.requestID = some row := by
      rw [named, ← left, ← sees.view]
      rfl
    have called : created.call = .tryAcquire requestID max := sees.call
    have hp : created.phase = .created row now seen := rfl
    simp only [statement, called, tryAcquireStatement, hp, visible]
    rfl
  refine ⟨hg, _, .head creates (.single grants), rfl, rfl, ?_⟩
  rw [← sees.view, view_unwritten sees.queue sees.leases (by rw [hp]; rfl)]
  rfl

theorem ends_atHead (hp : t.phase = .atHead row now seen)
    (left : c.queue.find? requestID = some row) (gone : c.leases.find? requestID = none) :
    Ends lockKey s now t (if 0 < max ∧ max ≤ c.countActiveOrgConnectionLeases row.orgID then (c, none)
      else (c.createOrgConnectionLease row now, some (row.lease now))) := by
  have grants : t.phase.grants s.grants = s.grants := by rw [hp]; rfl
  have hd : s.statement lockKey t now = some (t.goTo (if 0 < max ∧
      max ≤ c.countActiveOrgConnectionLeases row.orgID then .ending none else .admitted row now seen)) := by
    rw [sees.statement]
    simp [tryAcquireStatement, hp, sees.view]
  split at hd
  · rename_i full
    rw [if_pos full]
    exact sees.ends grants hd
  · rename_i room
    rw [if_neg room]
    exact .head hd (ends_admitted (sees.goTo grants.symm) rfl left gone)

theorem ends_selected (hp : t.phase = .selected row now)
    (left : c.queue.find? requestID = some row) :
    Ends lockKey s now t (match c.existingOrgConnectionLease requestID with
      | some lease => (c, some lease)
      | none =>
        if row.expiresAt ≤ now ∨ row.canceledAt ≠ none ∨ row.grantedAt ≠ none then (c, none)
        else if ¬ c.isOrgConnectionQueueHead row now then (c, none)
        else if 0 < max ∧ max ≤ c.countActiveOrgConnectionLeases row.orgID then (c, none)
        else (c.createOrgConnectionLease row now, some (row.lease now))) := by
  have grants : t.phase.grants s.grants = s.grants := by rw [hp]; rfl
  have looked : s.statement lockKey t now = match c.existingOrgConnectionLease requestID with
      | some lease => some (t.goTo (.ending (some lease)))
      | none => if row.expiresAt ≤ now ∨ row.canceledAt ≠ none ∨ row.grantedAt ≠ none then
        some (t.goTo (.ending none)) else some (t.goTo (.unleased row now)) := by
    rw [sees.statement, tryAcquireStatement, hp]
    exact sees.view ▸ rfl
  cases existing : c.existingOrgConnectionLease requestID with
  | some lease =>
    rw [existing] at looked
    exact sees.ends grants looked
  | none =>
    rw [existing] at looked
    dsimp only at looked ⊢
    split
    · rename_i refused
      rw [if_pos refused] at looked
      exact sees.ends grants looked
    rename_i eligible
    rw [if_neg eligible] at looked
    have unleased : Sees s requestID max c (t.goTo (.unleased row now)) := sees.goTo grants.symm
    have hd : s.statement lockKey (t.goTo (.unleased row now)) now = some ((t.goTo (.unleased row now)).goTo
        (if c.isOrgConnectionQueueHead row now then .atHead row now s.queue else .ending none)) := by
      rw [unleased.statement]
      simp [tryAcquireStatement, phase_goTo, unleased.view]
    refine .head looked ?_
    by_cases head : c.isOrgConnectionQueueHead row now = true
    · rw [if_pos head] at hd
      rw [if_neg (not_not.mpr head)]
      exact .head hd (ends_atHead (unleased.goTo rfl) rfl left existing)
    · rw [if_neg head] at hd
      rw [if_pos head]
      exact unleased.ends rfl hd

end

end

theorem tryAcquire_alone (s : ConnectionTables) (max : Int) (now : Nat) (named : isBlank requestID = false) :
    Ends lockKey s now (.start (.tryAcquire requestID max))
      (s.tryAcquireOrgConnectionLeaseOnce requestID max now) := by
  unfold tryAcquireOrgConnectionLeaseOnce
  cases hf : s.queue.find? requestID with
  | none =>
    rw [start_tryAcquire named]
    have sees : Sees s requestID max s ⟨.tryAcquire requestID max, .begun, .none, .none, []⟩ :=
      ⟨rfl, rfl, rfl, view_begun _ _⟩
    refine sees.ends rfl ?_
    rw [sees.statement]
    simp [tryAcquireStatement, sees.view, hf]
  | some row =>
    obtain ⟨t, alone, sees, hp⟩ := cleaned_alone named hf
    dsimp only
    suffices rest : Ends lockKey s now t _ by
      obtain ⟨u, next, further, finished⟩ := rest
      exact ⟨u, next, alone.trans further, finished⟩
    have hd : s.statement lockKey t now =
        ((s.cleanupOrgConnectionRowsLocked row.orgID now).queue.find? requestID).elim (some (t.goTo (.ending none)))
          fun request => some ((t.lock (.request requestID)).goTo
            (if request.orgID = row.orgID then .selected request now else .retrying)) := by
      rw [sees.statement, tryAcquireStatement, hp, ← sees.view]
      cases (s.view t).queue.find? requestID <;> simp [Option.elim]
    have grants : t.phase.grants s.grants = s.grants := by rw [hp]; rfl
    split
    · rename_i gone
      rw [gone] at hd
      exact sees.ends grants hd
    rename_i request left
    cases hf.symm.trans (find?_of_cleanup left)
    rw [left] at hd
    simp only [Option.elim] at hd
    have locked : Sees s requestID max _ (t.lock (.request requestID)) :=
      ⟨sees.call, sees.queue, sees.leases, sees.view⟩
    exact .head hd (ends_selected (locked.goTo grants.symm) rfl left)

def arrival : OrgConnectionQueueEntry := sampleLimiter.entry "r" 1 "pg" 1

def queued : ConnectionTables := { noConnections with queue := .upsert .empty arrival }

theorem tryAcquire_alone_granted : (queued.tryAcquireOrgConnectionLeaseOnce "r" 1 2).2.isSome = true ∧
    Ends (fun _ => 0) queued 2 (.start (.tryAcquire "r" 1)) (queued.tryAcquireOrgConnectionLeaseOnce "r" 1 2) :=
  ⟨rfl, tryAcquire_alone queued 1 2 rfl⟩

theorem enqueue_alone {entry clientClock after}
    (done : s.enqueueOrgConnectionRequest entry clientClock now = .ok after) :
    ∃ u next, Alone lockKey s now (.start (.enqueue entry clientClock)) u ∧ u.finish = some next ∧
      next.phase = .returned .done ∧ s.view u = after := by
  obtain ⟨ttl, valid, fresh, rfl⟩ := enqueue_eq_ok done
  let stamped := { entry with enqueuedAt := now, expiresAt := now + ttl }
  let t : ConnectionTx := ⟨.enqueue entry clientClock, .begun, .none, .none, []⟩
  let enqueued := ((t.goTo (.stamped stamped)).putRequest stamped).goTo (.enqueued stamped)
  have start : ConnectionTx.start (.enqueue entry clientClock) = t := by
    simp [ConnectionTx.start, ConnectionCall.first, valid, t]
  have stamps : s.statement lockKey t now = some (t.goTo (.stamped stamped)) := by
    simp only [statement, enqueueStatement, t, valid]
    rfl
  have visible : s.view (t.goTo (.stamped stamped)) = s := view_begun (.enqueue entry clientClock) []
  have inserts : s.statement lockKey (t.goTo (.stamped stamped)) now = some enqueued := by
    change (if (s.view (t.goTo (.stamped stamped))).queue.find? entry.requestID = none then some enqueued
      else none) = some enqueued
    rw [visible, if_pos fresh]
  refine ⟨enqueued, _, ?_, rfl, rfl, ?_⟩
  · rw [start]
    exact .head stamps (.single inserts)
  · change mk ((Pending.none.rest s.queue).upsert stamped) (Pending.none.rest s.leases) _ _ = _
    rw [Pending.rest_none, Pending.rest_none]
    rfl

theorem release_alone {leaseID} (named : isBlank leaseID = false) :
    ∃ u next, Alone lockKey s now (.start (.release leaseID)) u ∧ u.finish = some next ∧
      next.phase = .returned .done ∧ s.view u = s.releaseOrgConnectionLease leaseID := by
  let t : ConnectionTx := ⟨.release leaseID, .begun, .none, .none, []⟩
  let released := (t.dropLeases ((s.leases.find? leaseID).toList.map OrgConnectionLease.leaseID)).goTo .released
  let dequeued := (released.dropRequests
    ((s.queue.find? leaseID).toList.map OrgConnectionQueueEntry.requestID)).goTo .dequeued
  have start : ConnectionTx.start (.release leaseID) = t := by
    simp [ConnectionTx.start, ConnectionCall.first, named, t]
  have releases : s.statement lockKey t now = some released := by
    have visible : s.view t = s := view_begun (.release leaseID) []
    simp only [statement, releaseStatement]
    rw [visible]
  have dequeues : s.statement lockKey released now = some dequeued := by
    have visible : (s.view released).queue = s.queue := Pending.rest_none s.queue
    change some ((released.dropRequests (((s.view released).queue.find? leaseID).toList.map
      OrgConnectionQueueEntry.requestID)).goTo .dequeued) = some dequeued
    rw [visible]
  refine ⟨dequeued, _, ?_, rfl, rfl, ?_⟩
  · rw [start]
    exact .head releases (.single dequeues)
  have queue : dequeued.queue.rest s.queue = s.queue.filter fun row => row.requestID ≠ leaseID :=
    Pending.rest_drop_key s.queue leaseID
  have leases : dequeued.leases.rest s.leases = s.leases.filter fun lease => lease.leaseID ≠ leaseID :=
    Pending.rest_drop_key s.leases leaseID
  rw [view_unwritten rfl rfl rfl, queue, leases]
  simp [releaseOrgConnectionLease, named]

end Duckgres.Proof.Admission
