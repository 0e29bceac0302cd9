import Duckgres.Admission.Store

namespace Duckgres.Proof.Admission
open Base Duckgres.Store Duckgres.Admission ConnectionTables List Table

variable {lockKey : String → Int} {s : ConnectionTables} {t next : ConnectionTx} {clock : Nat}

def Eligible (request : OrgConnectionQueueEntry) (now : Nat) : Prop :=
  now < request.expiresAt ∧ request.canceledAt = none ∧ request.grantedAt = none

inductive Moves (lockKey : String → Int) (s : ConnectionTables) (t : ConnectionTx) : ConnectionTx → Prop
  | finds {requestID orgID max} (call : t.call = .tryAcquire requestID max)
      (phase : t.phase = .begun) {row}
      (found : (s.view t).queue.find? requestID = some row) (org : row.orgID = orgID) :
      Moves lockKey s t (t.goTo (.found orgID))
  | misses {requestID max} (call : t.call = .tryAcquire requestID max)
      (phase : t.phase = .begun ∨ ∃ orgID now, t.phase = .cleaned orgID now)
      (missing : (s.view t).queue.find? requestID = none) : Moves lockKey s t (t.goTo (.ending none))
  | locks {orgID} (phase : t.phase = .found orgID) :
      Moves lockKey s t ((t.lock (.advisory (lockKey (orgConnectionsLock orgID)))).goTo (.locked orgID))
  | times {orgID now} (phase : t.phase = .locked orgID) : Moves lockKey s t (t.goTo (.timed orgID now))
  | sweepsRequests {orgID now} (phase : t.phase = .timed orgID now) :
      Moves lockKey s t ((t.dropRequests ((s.view t).expiredRequests orgID now)).goTo (.requestsSwept orgID now))
  | sweepsOwners {orgID now} (phase : t.phase = .requestsSwept orgID now) :
      Moves lockKey s t ((t.dropLeases ((s.view t).leasesOfExpiredOwners orgID)).goTo (.ownersSwept orgID now))
  | sweepsMissing {orgID now} (phase : t.phase = .ownersSwept orgID now) :
      Moves lockKey s t ((t.dropLeases ((s.view t).leasesOfMissingOwners orgID now)).goTo (.cleaned orgID now))
  | selects {requestID orgID max now request}
      (call : t.call = .tryAcquire requestID max) (phase : t.phase = .cleaned orgID now)
      (found : (s.view t).queue.find? requestID = some request) (org : request.orgID = orgID) :
      Moves lockKey s t ((t.lock (.request requestID)).goTo (.selected request now))
  | retries {requestID orgID max now request}
      (call : t.call = .tryAcquire requestID max) (phase : t.phase = .cleaned orgID now)
      (found : (s.view t).queue.find? requestID = some request) (org : request.orgID ≠ orgID) :
      Moves lockKey s t ((t.lock (.request requestID)).goTo .retrying)
  | leased {requestID max now request lease} (call : t.call = .tryAcquire requestID max)
      (phase : t.phase = .selected request now)
      (found : (s.view t).leases.find? requestID = some lease) :
      Moves lockKey s t (t.goTo (.ending (some lease)))
  | refuses {requestID max now request}
      (call : t.call = .tryAcquire requestID max) (phase : t.phase = .selected request now)
      (missing : (s.view t).leases.find? requestID = none) (refused : ¬ Eligible request now) :
      Moves lockKey s t (t.goTo (.ending none))
  | passes {requestID max now request}
      (call : t.call = .tryAcquire requestID max) (phase : t.phase = .selected request now)
      (missing : (s.view t).leases.find? requestID = none) (eligible : Eligible request now) :
      Moves lockKey s t (t.goTo (.unleased request now))
  | heads {request now} (phase : t.phase = .unleased request now)
      (head : (s.view t).isOrgConnectionQueueHead request now = true) :
      Moves lockKey s t (t.goTo (.atHead request now s.queue))
  | waits {request now}
      (phase : t.phase = .unleased request now ∨ ∃ seen, t.phase = .atHead request now seen) :
      Moves lockKey s t (t.goTo (.ending none))
  | admits {requestID max request now seen} (call : t.call = .tryAcquire requestID max)
      (phase : t.phase = .atHead request now seen)
      (room : 0 < max → ((s.view t).countActiveOrgConnectionLeases request.orgID : Int) < max) :
      Moves lockKey s t (t.goTo (.admitted request now seen))
  | creates {request now seen}
      (phase : t.phase = .admitted request now seen)
      (fresh : (s.view t).leases.find? request.requestID = none) :
      Moves lockKey s t ((t.putLease (request.lease now)).goTo (.created request now seen))
  | grants {request row now seen}
      (phase : t.phase = .created request now seen)
      (found : (s.view t).queue.find? request.requestID = some row) :
      Moves lockKey s t ((t.putRequest { row with grantedAt := some now }).goTo (.granted request now seen))
  | grantsNone {request now seen}
      (phase : t.phase = .created request now seen)
      (missing : (s.view t).queue.find? request.requestID = none) :
      Moves lockKey s t (t.goTo (.granted request now seen))
  | stamps {entry stamped clientClock}
      (call : t.call = .enqueue entry clientClock) (phase : t.phase = .begun)
      (grantedAt : stamped.grantedAt = entry.grantedAt) :
      Moves lockKey s t (t.goTo (.stamped stamped))
  | enqueues {entry} (phase : t.phase = .stamped entry)
      (fresh : (s.view t).queue.find? entry.requestID = none) :
      Moves lockKey s t ((t.putRequest entry).goTo (.enqueued entry))
  | releases {leaseID} (call : t.call = .release leaseID) (phase : t.phase = .begun) :
      Moves lockKey s t ((t.dropLeases
        (((s.view t).leases.find? leaseID).toList.map OrgConnectionLease.leaseID)).goTo .released)
  | dequeues {leaseID} (call : t.call = .release leaseID) (phase : t.phase = .released) :
      Moves lockKey s t ((t.dropRequests
        (((s.view t).queue.find? leaseID).toList.map OrgConnectionQueueEntry.requestID)).goTo .dequeued)

variable {request row : OrgConnectionQueueEntry} {now : Nat} {requestID : String} {phase : ConnectionPhase}

theorem eligible_iff : Eligible request now ↔
    ¬ (request.expiresAt ≤ now ∨ request.canceledAt ≠ none ∨ request.grantedAt ≠ none) := by
  simp [Eligible]

theorem moves_of_tryAcquire {max} (call : t.call = .tryAcquire requestID max)
    (hd : s.tryAcquireStatement lockKey requestID max clock t = some next) :
    Moves lockKey s t next := by
  revert hd
  fun_cases tryAcquireStatement
  all_goals rintro ⟨⟩
  case case1 phase gone => exact .misses call (.inl phase) gone
  case case2 phase row hf => exact .finds call phase hf rfl
  case case3 phase => exact .locks phase
  case case4 phase => exact .times phase
  case case5 phase => exact .sweepsRequests phase
  case case6 phase => exact .sweepsOwners phase
  case case7 phase => exact .sweepsMissing phase
  case case8 orgID now phase gone => exact .misses call (.inr ⟨orgID, now, phase⟩) gone
  case case9 phase request hf _ =>
    split
    · rename_i hs
      exact .selects call phase hf hs
    · rename_i other
      exact .retries call phase hf other
  case case10 phase lease hf => exact .leased call phase hf
  case case11 phase gone refused => exact .refuses call phase gone fun eligible => eligible_iff.mp eligible refused
  case case12 phase gone passed => exact .passes call phase gone (eligible_iff.mpr passed)
  case case13 phase =>
    split
    · rename_i head
      exact .heads phase head
    · exact .waits (.inl phase)
  case case14 seen phase =>
    split
    · exact .waits (.inr ⟨seen, phase⟩)
    · rename_i room
      exact .admits call phase fun hpos => Int.not_le.mp fun full => room ⟨hpos, full⟩
  case case15 phase fresh => exact .creates phase fresh
  case case17 phase gone => exact .grantsNone phase gone
  case case18 phase row hf => exact .grants phase hf

theorem moves_of_statement (hd : s.statement lockKey t clock = some next) : Moves lockKey s t next := by
  unfold statement at hd
  split at hd
  · rename_i call
    revert hd
    fun_cases enqueueStatement
    all_goals rintro ⟨⟩
    case case1 phase => exact .stamps call phase rfl
    case case2 phase fresh => exact .enqueues phase fresh
  · rename_i call
    exact moves_of_tryAcquire call hd
  · rename_i call
    revert hd
    fun_cases releaseStatement
    all_goals rintro ⟨⟩
    case case1 phase => exact .releases call phase
    case case2 phase => exact .dequeues call phase

/-! ## What a transaction has locked -/

@[simp] theorem phase_goTo (phase : ConnectionPhase) : (t.goTo phase).phase = phase := rfl

@[simp] theorem phase_lock (key : LockKey) : (t.lock key).phase = t.phase := rfl

@[simp] theorem phase_dropRequests (ids : List String) : (t.dropRequests ids).phase = t.phase := rfl

@[simp] theorem phase_dropLeases (ids : List String) : (t.dropLeases ids).phase = t.phase := rfl

def org? : ConnectionPhase → Option String
  | .locked orgID | .timed orgID _ | .requestsSwept orgID _ | .ownersSwept orgID _ | .cleaned orgID _ => some orgID
  | .selected request _ | .unleased request _ | .atHead request _ _ | .admitted request _ _
  | .created request _ _ | .granted request _ _ => some request.orgID
  | _ => none

def request? : ConnectionPhase → Option OrgConnectionQueueEntry
  | .selected request _ | .unleased request _ | .atHead request _ _ | .admitted request _ _
  | .created request _ _ | .granted request _ _ => some request
  | _ => none

def lease? : ConnectionPhase → Option OrgConnectionLease
  | .created request now _ | .granted request now _ => some (request.lease now)
  | _ => none

def entry? : ConnectionPhase → Option OrgConnectionQueueEntry
  | .granted request now _ => some { request with grantedAt := some now }
  | .enqueued entry => some entry
  | _ => none

def early : ConnectionPhase → Bool
  | .begun | .found _ | .locked _ | .timed _ _ | .stamped _ => true
  | _ => false

structure Locked (lockKey : String → Int) (s : ConnectionTables) (t : ConnectionTx) : Prop where
  requests : ∀ k ∈ t.queue.keys, .request k ∈ t.held
  leases : ∀ k ∈ t.leases.keys, .lease k ∈ t.held
  org : ∀ orgID, org? t.phase = some orgID → .advisory (lockKey (orgConnectionsLock orgID)) ∈ t.held
  request : ∀ request, request? t.phase = some request → .request request.requestID ∈ t.held ∧
    s.queue.find? request.requestID = some request ∧ request.requestID ∉ t.queue.dropped
  called : ∀ request, request? t.phase = some request → ∃ max, t.call = .tryAcquire request.requestID max
  early : early t.phase = true → t.queue.dropped = [] ∧ t.leases.dropped = []
  entryPut : t.queue.put = entry? t.phase
  leasePut : t.leases.put = lease? t.phase

structure Within (after before : ConnectionPhase) : Prop where
  org : ∀ orgID, org? after = some orgID → org? before = some orgID
  request : ∀ row, request? after = some row → request? before = some row
  early : Admission.early after = true → Admission.early before = true

theorem Locked.extend (locked : Locked lockKey s t) (within : Within next.phase t.phase) (call : next.call = t.call)
    (hl : t.held ⊆ next.held) (requests : ∀ k ∈ next.queue.keys, k ∈ t.queue.keys ∨ .request k ∈ next.held)
    (leases : ∀ k ∈ next.leases.keys, k ∈ t.leases.keys ∨ .lease k ∈ next.held)
    (dropped : request? next.phase ≠ none ∨ Admission.early next.phase = true →
      next.queue.dropped = t.queue.dropped ∧ next.leases.dropped = t.leases.dropped)
    (entryPut : next.queue.put = entry? next.phase) (leasePut : next.leases.put = lease? next.phase) :
    Locked lockKey s next where
  requests k hm := (requests k hm).elim (fun old => hl (locked.requests k old)) id
  leases k hm := (leases k hm).elim (fun old => hl (locked.leases k old)) id
  org orgID hk := hl (locked.org orgID (within.org orgID hk))
  request row hk := by
    obtain ⟨locks, hf, kept⟩ := locked.request row (within.request row hk)
    rw [(dropped (.inl (by simp [hk]))).1]
    exact ⟨hl locks, hf, kept⟩
  called row hk := call ▸ locked.called row (within.request row hk)
  early hk := by
    obtain ⟨queue, leases⟩ := dropped (.inr hk)
    rw [queue, leases]
    exact locked.early (within.early hk)
  entryPut := entryPut
  leasePut := leasePut

theorem Locked.lock (locked : Locked lockKey s t) (key : LockKey) : Locked lockKey s (t.lock key) :=
  locked.extend ⟨fun _ => id, fun _ => id, id⟩ rfl (subset_cons_self ..) (fun _ => .inl) (fun _ => .inl)
    (fun _ => ⟨rfl, rfl⟩) locked.entryPut locked.leasePut

section
variable (locked : Locked lockKey s t) (within : Within phase t.phase)
include locked within

theorem Locked.putLease {lease} (puts : lease? phase = some lease)
    (entry : entry? phase = entry? t.phase) : Locked lockKey s ((t.putLease lease).goTo phase) := by
  refine locked.extend within rfl (subset_cons_self ..) (fun _ => .inl) (fun k hm => ?_) (fun _ => ⟨rfl, rfl⟩)
    (locked.entryPut.trans entry.symm) puts.symm
  rcases Pending.mem_keys_set hm with old | rfl
  · exact .inl old
  · exact .inr mem_cons_self

theorem Locked.putRequest {entry} (puts : entry? phase = some entry)
    (lease : lease? phase = lease? t.phase) : Locked lockKey s ((t.putRequest entry).goTo phase) := by
  refine locked.extend within rfl (subset_cons_self ..) (fun k hm => ?_) (fun _ => .inl) (fun _ => ⟨rfl, rfl⟩)
    puts.symm (locked.leasePut.trans lease.symm)
  rcases Pending.mem_keys_set hm with old | rfl
  · exact .inl old
  · exact .inr mem_cons_self

variable (entry : entry? phase = entry? t.phase) (lease : lease? phase = lease? t.phase)
include entry lease

theorem Locked.goTo : Locked lockKey s (t.goTo phase) :=
  locked.extend within rfl (List.Subset.refl _) (fun _ => .inl) (fun _ => .inl) (fun _ => ⟨rfl, rfl⟩)
    (locked.entryPut.trans entry.symm) (locked.leasePut.trans lease.symm)

theorem Locked.dropLeases {ids} (late : request? phase = none ∧ Admission.early phase = false) :
    Locked lockKey s ((t.dropLeases ids).goTo phase) := by
  refine locked.extend within rfl (subset_append_right ..) (fun _ => .inl) (fun k hm => ?_) (by simp [late])
    (locked.entryPut.trans entry.symm) (locked.leasePut.trans lease.symm)
  exact (Pending.mem_keys_drop.mp hm).imp_right fun new => mem_append_left _ (mem_map_of_mem new)

theorem Locked.dropRequests {ids} (late : request? phase = none ∧ Admission.early phase = false) :
    Locked lockKey s ((t.dropRequests ids).goTo phase) := by
  refine locked.extend within rfl (subset_append_right ..) (fun k hm => ?_) (fun _ => .inl) (by simp [late])
    (locked.entryPut.trans entry.symm) (locked.leasePut.trans lease.symm)
  exact (Pending.mem_keys_drop.mp hm).imp_right fun new => mem_append_left _ (mem_map_of_mem new)

end

section
variable (locked : Locked lockKey s t)
include locked

theorem Locked.view_queue (unwritten : entry? t.phase = none) :
    (s.view t).queue = t.queue.rest s.queue :=
  Pending.apply_of_put_none (locked.entryPut.trans unwritten)

theorem Locked.view_leases (unwritten : lease? t.phase = none) :
    (s.view t).leases = t.leases.rest s.leases :=
  Pending.apply_of_put_none (locked.leasePut.trans unwritten)

theorem Locked.selected (unwritten : entry? t.phase = none)
    (hf : (s.view t).queue.find? requestID = some row) :
    s.queue.find? requestID = some row ∧ requestID ∉ t.queue.dropped := by
  rw [locked.view_queue unwritten, Pending.find?_rest] at hf
  split at hf
  · cases hf
  · rename_i kept
    exact ⟨hf, kept⟩

theorem Locked.expired (unwritten : entry? t.phase = none) {orgID id}
    (swept : id ∈ (s.view t).expiredRequests orgID now) (hf : s.queue.find? id = some row) :
    row.expiredAt orgID now = true := by
  obtain ⟨other, hm, key⟩ := mem_map.mp swept
  obtain ⟨visible, expired⟩ := mem_filter.mp hm
  cases hf.symm.trans (locked.selected unwritten (find?_eq_some.mpr ⟨visible, key⟩)).1
  exact expired

theorem Locked.gone (unwritten : lease? t.phase = none)
    {orgID id} {gone : OrgConnectionLease → Bool} {lease}
    (swept : id ∈ ((s.view t).leases.rows.filter fun lease => lease.orgID = orgID && gone lease).map
      OrgConnectionLease.leaseID) (hf : s.leases.find? id = some lease) :
    lease.orgID = orgID ∧ gone lease = true := by
  obtain ⟨other, hm, key⟩ := mem_map.mp swept
  obtain ⟨visible, isGone⟩ := mem_filter.mp hm
  have otherFound := find?_eq_some.mpr ⟨visible, key⟩
  rw [locked.view_leases unwritten, Pending.find?_rest] at otherFound
  split at otherFound
  · cases otherFound
  · cases hf.symm.trans otherFound
    simpa using isGone

theorem Locked.view_request (unwritten : entry? t.phase = none)
    (selected : request? t.phase = some request) :
    (s.view t).queue.find? request.requestID = some request := by
  obtain ⟨-, hf, kept⟩ := locked.request request selected
  rw [locked.view_queue unwritten, Pending.find?_rest, if_neg kept]
  exact hf

end

attribute [simp] org? request? lease? entry? early

theorem locked_of_moves (locked : Locked lockKey s t) (hv : Moves lockKey s t next) : Locked lockKey s next := by
  cases hv with
  | misses _ phase =>
    rcases phase with phase | ⟨orgID, now, phase⟩
    all_goals exact locked.goTo ⟨by simp, by simp, by simp⟩ (by simp [phase]) (by simp [phase])
  | waits phase =>
    rcases phase with phase | ⟨seen, phase⟩
    all_goals exact locked.goTo ⟨by simp, by simp, by simp⟩ (by simp [phase]) (by simp [phase])
  | finds _ phase | stamps _ phase | leased _ phase | refuses _ phase | times phase
  | passes _ phase | heads phase | admits _ phase =>
    exact locked.goTo ⟨by simp [phase], by simp [phase], by simp [phase]⟩ (by simp [phase]) (by simp [phase])
  | @locks orgID phase =>
    have unlocked := locked.lock (.advisory (lockKey (orgConnectionsLock orgID)))
    refine ⟨unlocked.requests, unlocked.leases, ?_, by simp, by simp, ?_, ?_, ?_⟩
    · intro other hk
      cases hk
      exact mem_cons_self
    · exact fun _ => unlocked.early (by simp [phase])
    · exact unlocked.entryPut.trans (by simp [phase])
    · exact unlocked.leasePut.trans (by simp [phase])
  | sweepsRequests phase =>
    exact locked.dropRequests ⟨by simp [phase], by simp, by simp⟩ (by simp [phase]) (by simp [phase]) ⟨rfl, rfl⟩
  | sweepsOwners phase | sweepsMissing phase =>
    exact locked.dropLeases ⟨by simp [phase], by simp, by simp⟩ (by simp [phase]) (by simp [phase]) ⟨rfl, rfl⟩
  | @selects requestID _ max _ request call phase hf hs =>
    have unlocked := locked.lock (.request requestID)
    obtain ⟨hco, kept⟩ := locked.selected (by simp [phase]) hf
    obtain rfl : request.requestID = requestID := key_of_find? hco
    refine ⟨unlocked.requests, unlocked.leases, ?_, ?_, ?_, by simp, ?_, ?_⟩
    · intro other hk
      cases hk
      exact unlocked.org _ (by simp [phase, hs])
    · intro row hk
      cases hk
      exact ⟨mem_cons_self, hco, kept⟩
    · intro row hk
      cases hk
      exact ⟨max, call⟩
    · exact unlocked.entryPut.trans (by simp [phase])
    · exact unlocked.leasePut.trans (by simp [phase])
  | retries _ phase => exact (locked.lock _).goTo ⟨by simp, by simp, by simp⟩ (by simp [phase]) (by simp [phase])
  | creates phase => exact locked.putLease ⟨by simp [phase], by simp [phase], by simp⟩ rfl (by simp [phase])
  | grants phase hf =>
    have selected := locked.view_request (by simp [phase]) (by rw [phase]; rfl)
    cases selected.symm.trans hf
    exact locked.putRequest ⟨by simp [phase], by simp [phase], by simp⟩ rfl (by simp [phase])
  | grantsNone phase gone =>
    have selected := locked.view_request (by simp [phase]) (by rw [phase]; rfl)
    cases selected.symm.trans gone
  | enqueues phase => exact locked.putRequest ⟨by simp, by simp, by simp⟩ rfl (by simp [phase])
  | releases _ phase =>
    exact locked.dropLeases ⟨by simp, by simp, by simp⟩ (by simp [phase]) (by simp [phase]) ⟨rfl, rfl⟩
  | dequeues _ phase =>
    exact locked.dropRequests ⟨by simp, by simp, by simp⟩ (by simp [phase]) (by simp [phase]) ⟨rfl, rfl⟩

/-! ## What others see -/

theorem Locked.stable {d} (mine : Locked lockKey s t) (theirs : Locked lockKey s d)
    (hne : ∀ k ∈ t.held, k ∉ d.held) : Locked lockKey (s.view t) d where
  requests := theirs.requests
  leases := theirs.leases
  org := theirs.org
  request row hk := by
    obtain ⟨hl, hf, kept⟩ := theirs.request row hk
    have untouched : row.requestID ∉ t.queue.keys := fun puts => hne _ (mine.requests _ puts) hl
    exact ⟨hl, (Pending.find?_apply_of_not_mem untouched).trans hf, kept⟩
  called := theirs.called
  early := theirs.early
  entryPut := theirs.entryPut
  leasePut := theirs.leasePut

variable (op : ConnectionOp)

theorem single_queue : (s.single op).1.queue = s.queue ∨
    ∃ requestID entry, s.queue.find? requestID = some entry ∧ entry.waiting = true ∧
      (s.single op).1.queue = s.queue.filter (fun row => row.requestID ≠ requestID) ∧
      (s.single op).2 = [.request requestID] := by
  cases op with
  | cancel requestID =>
    simp only [single, cancelOrgConnectionRequest]
    split
    · rename_i entry hf
      split
      · rename_i waits
        exact .inr ⟨requestID, entry, hf, waits.1, rfl, rfl⟩
      · exact .inl rfl
    · exact .inl rfl
  | _ => exact .inl rfl

theorem single_leases : (s.single op).1.leases = s.leases ∧ (s.single op).1.grants = s.grants := by
  cases op with
  | cancel =>
    simp only [single, cancelOrgConnectionRequest]
    split
    · split <;> exact ⟨rfl, rfl⟩
    · exact ⟨rfl, rfl⟩
  | _ => exact ⟨rfl, rfl⟩

theorem single_request (unlocked : .request requestID ∉ (s.single op).2) :
    (s.single op).1.queue.find? requestID = s.queue.find? requestID := by
  rcases single_queue op with hs | ⟨other, entry, -, -, filtered, locks⟩
  · rw [hs]
  · rw [filtered]
    rw [locks] at unlocked
    exact find?_filter_of_ne _ (by simpa using unlocked)

theorem find?_of_single
    (hf : (s.single op).1.queue.find? requestID = some row) : s.queue.find? requestID = some row := by
  rcases single_queue op with hs | ⟨other, entry, -, -, filtered, -⟩
  · rw [hs] at hf
    exact hf
  rw [filtered] at hf
  by_cases deleted : requestID = other
  · subst deleted
    cases (find?_filter_self _ _).symm.trans hf
  · exact (find?_filter_of_ne _ deleted).symm.trans hf

theorem find?_single_of_granted (hf : s.queue.find? requestID = some row) (hg : row.grantedAt ≠ none) :
    (s.single op).1.queue.find? requestID = some row := by
  rcases single_queue op with hs | ⟨other, entry, waits, waiting, filtered, -⟩
  · rw [hs]
    exact hf
  rw [filtered]
  refine (find?_filter_of_ne _ ?_).trans hf
  rintro rfl
  cases hf.symm.trans waits
  simp [OrgConnectionQueueEntry.waiting, hg] at waiting

theorem Locked.single (locked : Locked lockKey s t) (op : ConnectionOp)
    (hne : ∀ k ∈ (s.single op).2, k ∉ t.held) : Locked lockKey (s.single op).1 t where
  requests := locked.requests
  leases := locked.leases
  org := locked.org
  request row hk := by
    obtain ⟨hl, hf, kept⟩ := locked.request row hk
    have unlocked : .request row.requestID ∉ (s.single op).2 := fun ht => hne _ ht hl
    exact ⟨hl, (single_request op unlocked).trans hf, kept⟩
  called := locked.called
  early := locked.early
  entryPut := locked.entryPut
  leasePut := locked.leasePut

def Idle (t : ConnectionTx) : Prop :=
  t.queue = .none ∧ t.leases = .none ∧ (t.phase = .begun ∨ ∃ result, t.phase = .returned result)

theorem idle_start (call : ConnectionCall) : Idle (.start call) := by
  refine ⟨rfl, rfl, ?_⟩
  cases call with
  | enqueue | tryAcquire | release =>
    simp only [ConnectionTx.start, ConnectionCall.first]
    split
    · exact .inr ⟨_, rfl⟩
    · exact .inl rfl

theorem idle_finish (done : t.finish = some next) : Idle next := by
  unfold ConnectionTx.finish at done
  split at done
  case h_3 =>
    cases done
    exact ⟨rfl, rfl, .inl rfl⟩
  case h_6 => cases done
  all_goals
    cases done
    exact ⟨rfl, rfl, .inr ⟨_, rfl⟩⟩

theorem idle_abort (done : t.abort = some next) : Idle next := by
  unfold ConnectionTx.abort at done
  split at done
  · cases done
  · cases done
    exact ⟨rfl, rfl, .inr ⟨_, rfl⟩⟩

theorem Idle.locked (idle : Idle t) : Locked lockKey s t := by
  obtain ⟨queue, leases, begun | ⟨result, returned⟩⟩ := idle
  · constructor <;> simp_all [Pending.keys, Pending.none]
  · constructor <;> simp_all [Pending.keys, Pending.none]

theorem locked_keeps : (admissions lockKey).Keeps (fun _ => True) (fun _ _ => True) (fun _ => True)
    (fun s _ => Locked lockKey s) where
  start _ _ call _ _ _ := (idle_start call).locked
  statement _ tx _ t _ _ hh _ hf hd := locked_of_moves (hh.own tx t hf) (moves_of_statement hd)
  commit _ _ _ _ _ _ _ _ done := ⟨trivial, (idle_finish done).locked⟩
  stable _ tx t _ other d _ hh _ hf _ hfo hne := (hh.own tx t hf).stable (hh.own other d hfo) hne
  abort _ _ _ _ _ _ _ _ done := (idle_abort done).locked
  single _ _ _ _ _ _ _ _ := trivial
  unmoved db op rows ks tx t _ hh _ hd hf hne := by
    have hs : db.rows.single op = (rows, ks) := Option.some.inj hd
    have locked := (hh.own tx t hf).single op
    rw [hs] at locked
    exact locked hne

def AllLocked (lockKey : String → Int) : ConnectionDb → Prop :=
  (admissions lockKey).Holds (fun _ => True) fun s _ => Locked lockKey s

theorem allLocked_step {db after step} (locked : AllLocked lockKey db)
    (ha : (admissions lockKey).machine.step db step = some after) : AllLocked lockKey after :=
  Transactions.holds_step locked_keeps trivial locked trivial ha

theorem allLocked_init (rows : ConnectionTables) : AllLocked lockKey (.init rows) := Transactions.holds_init trivial

def noConnections : ConnectionTables := ⟨.empty, .empty, .empty, fun _ => 0⟩

def statements (tx count clock : Nat) : List ConnectionStep := .replicate count (.statement tx clock)

def wholeCall (tx : Nat) (call : ConnectionCall) (count clock : Nat) : List ConnectionStep :=
  .start tx call :: statements tx count clock ++ [.commit tx]

end Duckgres.Proof.Admission
