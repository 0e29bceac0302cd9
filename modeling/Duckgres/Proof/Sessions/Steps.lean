import Duckgres.Sessions.Manager

namespace Duckgres.Proof.Sessions
open Base Duckgres.Sessions World SessionManager List Nat

variable {s t : SessionManager} {phase next : SessionPhase} {a : SessionStep} {w after : SessionWorld}

/-! ## Steps of one call -/

inductive SessionMoves (s : SessionManager) : SessionPhase → SessionManager → SessionPhase → Prop
  | reserves : SessionMoves s .reserving { s with nextPID := s.nextPID + 1 } (.begun (s.nextPID + 1))
  | turnsAway {pid} (closed : s.closed = true) : SessionMoves s (.begun pid) s .returned
  | begins {pid} (isOpen : s.closed = false) :
      SessionMoves s (.begun pid) { s with active := s.active + 1 } (.checking pid)
  | looks {pid} (local' : s.limiter = false) : SessionMoves s (.checking pid) s (.entering pid)
  | asks {pid} (limited : s.limiter = true) : SessionMoves s (.checking pid) s (.acquiring pid)
  | leases {pid lease} : SessionMoves s (.acquiring pid) s (.leased pid lease)
  | accepts {pid lease} : SessionMoves s (.leased pid lease) s (.holding pid lease)
  | refuses {pid} {phase : SessionPhase}
      (at' : phase = .checking pid ∨ phase = .acquiring pid ∨ phase = .entering pid) :
      SessionMoves s phase s .ending
  | enters {pid} (free : s.mu = false) (isOpen : s.closed = false) :
      SessionMoves s (.entering pid) { s with mu := true } (.checked pid)
  | takes {pid} (slot : s.hasSlot = true) : SessionMoves s (.checked pid)
      { s with mu := false, activeSlots := s.activeSlots + 1 } (.holding pid false)
  | queues {pid} (full : s.hasSlot = false) : SessionMoves s (.checked pid)
      { s with mu := false, waiters := s.waiters ++ [s.nextWaiter], nextWaiter := s.nextWaiter + 1 }
      (.waiting pid s.nextWaiter)
  | wakes {pid waiter} (granted : s.outcomes waiter = some .granted) :
      SessionMoves s (.waiting pid waiter) s (.holding pid false)
  | fails {pid waiter} (failed : s.outcomes waiter = some .failed) : SessionMoves s (.waiting pid waiter) s .ending
  | leaves {pid waiter} (free : s.mu = false)
      (ungranted : s.outcomes waiter ≠ some .granted) :
      SessionMoves s (.waiting pid waiter) (s.removeWaiterLocked waiter) .ending
  | assigns {pid workerID lease} : SessionMoves s (.holding pid lease) s (.assigned pid workerID lease)
  | givesUp {pid lease} {phase : SessionPhase}
      (at' : phase = .leased pid lease ∨ phase = .holding pid lease ∨
        ∃ workerID, phase = .assigned pid workerID lease ∨ phase = .created pid workerID lease) :
      SessionMoves s phase s (.releasing lease)
  | creates {pid named nextPID workerID lease} :
      SessionMoves s (.assigned pid workerID lease) { s with nextPID := nextPID } (.created named workerID lease)
  | locks {pid workerID lease} (free : s.mu = false) (isOpen : s.closed = false) :
      SessionMoves s (.created pid workerID lease) { s with mu := true } (.registering pid workerID lease)
  | registers {pid workerID lease} : SessionMoves s (.registering pid workerID lease)
      { s.register ⟨pid, workerID, lease⟩ with mu := false } .ending
  | returnsLease : SessionMoves s (.releasing true) s .ending
  | releases (free : s.mu = false) : SessionMoves s (.releasing false)
      { s with mu := true, activeSlots := s.activeSlots - 1 } (.granting s.closed true)
  | ends : SessionMoves s .ending { s with active := s.active - 1 } .returned
  | sets {n} (free : s.mu = false) : SessionMoves s (.setting n)
      { s with mu := true, maxConnections := n } (.granting s.closed false)
  | grants {closed creating} : SessionMoves s (.granting closed creating)
      { s.grantWaitersLocked closed with mu := false } (if creating then .ending else .returned)
  | misses {pid rest} (missing : s.sessions.find? pid = none) : SessionMoves s (.detaching pid rest) s rest.phase
  | detaches {pid rest session} (free : s.mu = false)
      (found : s.sessions.find? pid = some session) : SessionMoves s (.detaching pid rest)
        { s.detachSessionLocked session with mu := true } (.detached s.closed rest)
  | cleans {closed rest} : SessionMoves s (.detached closed rest)
      { s.grantWaitersLocked closed with mu := false, active := (s.grantWaitersLocked closed).active + 1 }
      (.cleaning rest)
  | cleaned {rest} : SessionMoves s (.cleaning rest) { s with active := s.active - 1 } rest.phase
  | copies {workerID} : SessionMoves s (.crashing workerID) s (SessionAfter.crash workerID (s.byWorker workerID)).phase
  | clears {workerID} : SessionMoves s (.clearing workerID)
      { s with byWorker := Function.update s.byWorker workerID [] } .returned
  | closes : SessionMoves s .closing { s with closed := true } .listing
  | lists {pids} (free : s.mu = false) (all : pids.Perm s.sessionPIDsLocked) :
      SessionMoves s .listing s.failWaitersLocked (if pids = [] then .awaiting else (SessionAfter.drain pids).phase)
  | finishes (none : s.active = 0) : SessionMoves s .awaiting { s with closed := true } .returned

theorem locking_eq_some {result next} (locks : s.locking next = some result) :
    s.mu = false ∧ result = next := by
  unfold locking at locks
  split at locks
  · cases locks
  · rename_i free
    exact ⟨by simpa using free, (Option.some.inj locks).symm⟩

theorem moves_of_createStep (hd : s.createStep phase a = some (t, next)) : SessionMoves s phase t next := by
  unfold createStep at hd
  split at hd
  · cases hd
    exact .reserves
  · split at hd
    · rename_i closed
      cases hd
      exact .turnsAway closed
    · rename_i ho
      cases hd
      exact .begins (by simpa using ho)
  · obtain ⟨free, result⟩ := locking_eq_some hd
    split at result
    · cases result
      exact .refuses (.inl rfl)
    split at result
    · rename_i limited
      cases result
      exact .asks limited
    · rename_i local'
      cases result
      exact .looks (by simpa using local')
  · cases hd
    exact .leases
  · cases hd
    exact .refuses (.inr (.inl rfl))
  · split at hd
    · cases hd
      exact .givesUp (.inl rfl)
    · cases hd
      exact .accepts
  · obtain ⟨free, result⟩ := locking_eq_some hd
    split at result
    · cases result
      exact .refuses (.inr (.inr rfl))
    · rename_i ho
      cases result
      exact .enters free (by simpa using ho)
  · cases slot : s.hasSlot
    all_goals rw [slot] at hd
    · cases hd
      exact .queues slot
    · cases hd
      exact .takes slot
  · obtain ⟨outcome, hk, result⟩ := Option.map_eq_some_iff.mp hd
    cases outcome
    · cases result
      exact .wakes hk
    · cases result
      exact .fails hk
  · obtain ⟨free, result⟩ := locking_eq_some hd
    split at result
    · rename_i hg
      cases result
      exact .wakes hg
    · rename_i ungranted
      cases result
      exact .leaves free ungranted
  · cases hd
    exact .assigns
  · cases hd
    exact .givesUp (.inr (.inl rfl))
  · split at hd
    · cases hd
      exact .creates
    · cases hd
      exact .creates
  · cases hd
    exact .givesUp (.inr (.inr ⟨_, .inl rfl⟩))
  · obtain ⟨free, result⟩ := locking_eq_some hd
    split at result
    · cases result
      exact .givesUp (.inr (.inr ⟨_, .inr rfl⟩))
    · rename_i ho
      cases result
      exact .locks free (by simpa using ho)
  · cases hd
    exact .registers
  · cases hd
    exact .returnsLease
  · obtain ⟨free, ⟨⟩⟩ := locking_eq_some hd
    exact .releases free
  · cases hd
    exact .ends
  · cases hd

theorem moves_of_removeStep (hd : s.removeStep phase a = some (t, next)) : SessionMoves s phase t next := by
  unfold removeStep at hd
  split at hd
  · obtain ⟨free, ⟨⟩⟩ := locking_eq_some hd
    exact .sets free
  · cases hd
    exact .grants
  · obtain ⟨free, result⟩ := locking_eq_some hd
    split at result
    · rename_i gone
      cases result
      exact .misses gone
    · rename_i session hf
      cases result
      exact .detaches free hf
  · cases hd
    exact .cleans
  · cases hd
    exact .cleaned
  · obtain ⟨free, ⟨⟩⟩ := locking_eq_some hd
    exact .copies
  · obtain ⟨free, ⟨⟩⟩ := locking_eq_some hd
    exact .clears
  · cases hd
    exact .closes
  · split at hd
    · rename_i all
      obtain ⟨free, ⟨⟩⟩ := locking_eq_some hd
      exact .lists free all
    · cases hd
  · split at hd
    · rename_i none
      cases hd
      exact .finishes none
    · cases hd
  · cases hd

theorem moves_of_step {c d} (hd : s.step c a = some (t, d)) :
    SessionMoves s c.phase t d.phase ∧ d.request = c.request := by
  obtain ⟨⟨result, next⟩, ht, ⟨⟩⟩ := Option.map_eq_some_iff.mp hd
  rcases Option.or_eq_some_iff.mp ht with created | ⟨-, removed⟩
  · exact ⟨moves_of_createStep created, rfl⟩
  · exact ⟨moves_of_removeStep removed, rfl⟩

def holdsMu : SessionPhase → Bool
  | .checked _ | .registering .. | .granting .. | .detached .. => true
  | _ => false

theorem holdsMu_after (rest : SessionAfter) : holdsMu rest.phase = false := by
  unfold SessionAfter.phase
  split <;> rfl

theorem holdsMu_of_moves (moves : SessionMoves s phase t next) :
    (holdsMu phase = false ∧ holdsMu next = false ∧ t.mu = s.mu) ∨
      (s.mu = false ∧ t.mu = true ∧ holdsMu phase = false) ∨
      (holdsMu phase = true ∧ holdsMu next = false) := by
  cases moves with
  | refuses at' => rcases at' with rfl | rfl | rfl <;> exact .inl ⟨rfl, rfl, rfl⟩
  | givesUp at' => rcases at' with rfl | rfl | ⟨workerID, rfl | rfl⟩ <;> exact .inl ⟨rfl, rfl, rfl⟩
  | enters free | locks free | releases free | sets free | detaches free => exact .inr (.inl ⟨free, rfl, rfl⟩)
  | takes | queues | registers | cleans => exact .inr (.inr ⟨rfl, rfl⟩)
  | grants =>
    refine .inr (.inr ⟨rfl, ?_⟩)
    split <;> rfl
  | misses | cleaned | copies => exact .inl ⟨rfl, holdsMu_after _, rfl⟩
  | lists =>
    refine .inl ⟨rfl, ?_, rfl⟩
    split
    · rfl
    · exact holdsMu_after _
  | _ => exact .inl ⟨rfl, rfl, rfl⟩

structure Exclusive (w : SessionWorld) : Prop where
  held : ∀ call c, w.calls call = some c → holdsMu c.phase = true → w.shared.mu = true
  alone : ∀ first second c d, first ≠ second → w.calls first = some c → w.calls second = some d →
    (holdsMu c.phase && holdsMu d.phase) = false

theorem Exclusive.step {step} (exclusive : Exclusive w)
    (ha : sessionProgram.machine.step w step = some after) : Exclusive after := by
  have swapped (c d : SessionCall) (hne : (holdsMu c.phase && holdsMu d.phase) = false) :
      (holdsMu d.phase && holdsMu c.phase) = false := by rwa [Bool.and_comm]
  cases Program.takes_of_step ha with
  | @start _ request =>
    have unlocked : holdsMu (sessionProgram.start request).phase = false := by cases request <;> rfl
    constructor
    · apply forall_calls_set
      · simp [unlocked]
      · exact fun other d _ => exclusive.held other d
    · apply forall_pairs_set swapped
      · simp [unlocked]
      · exact exclusive.alone
  | @advance call _ c _ _ hf hd =>
    rcases holdsMu_of_moves (moves_of_step hd).1 with ⟨-, unlocked, hs⟩ | ⟨free, ht, -⟩ | ⟨locked, unlocked⟩
    · constructor
      · apply forall_calls_set
        · simp [unlocked]
        · intro other d _ hfo locked
          exact hs.trans (exclusive.held other d hfo locked)
      · apply forall_pairs_set swapped
        · simp [unlocked]
        · exact exclusive.alone
    · have nobody (other : Nat) (d : SessionCall) (hfo : w.calls other = some d) :
          holdsMu d.phase = false := by
        by_contra locked
        have busy := exclusive.held other d hfo (by simpa using locked)
        rw [free] at busy
        cases busy
      constructor
      · exact fun _ _ _ _ => ht
      · apply forall_pairs_set swapped
        · intro other d _ hfo
          simp [nobody other d hfo]
        · exact exclusive.alone
    · have nobody (other : Nat) (d : SessionCall) (hne : other ≠ call) (hfo : w.calls other = some d) :
          holdsMu d.phase = false := by
        simpa [locked] using exclusive.alone other call d c hne hfo hf
      constructor
      · apply forall_calls_set
        · simp [unlocked]
        · intro other d hne hfo busy
          rw [nobody other d hne hfo] at busy
          cases busy
      · apply forall_pairs_set swapped
        · simp [unlocked]
        · exact exclusive.alone

theorem exclusive_init (s : SessionManager) : Exclusive (.init s) := by
  constructor
  · nofun
  · intro first second c d hne hf
    cases hf

theorem hasSlot_eq_true : s.hasSlot = true ↔ s.maxConnections ≤ 0 ∨ s.activeSlots < s.maxConnections := by
  simp [hasSlot]

def grantedTo (granted rest : List Nat) (s : SessionManager) : SessionManager :=
  { s with
    waiters := rest
    activeSlots := s.activeSlots + granted.length
    outcomes := fun waiter => if waiter ∈ granted then some .granted else s.outcomes waiter
    grants := s.grants ++ granted }

theorem grantedTo_nil {rest} (queue : s.waiters = rest) : grantedTo [] rest s = s := by
  simp [grantedTo, ← queue]

theorem grantedTo_cons (waiter : Nat) (granted rest : List Nat) :
    grantedTo granted rest (grantedTo [waiter] (granted ++ rest) s) = grantedTo (waiter :: granted) rest s := by
  unfold grantedTo
  congr 1
  · simp only [length_cons, length_nil]
    omega
  · funext other
    by_cases later : other ∈ granted <;> simp [later]
  · simp

structure Grants (s : SessionManager) (granted rest : List Nat) (t : SessionManager) : Prop where
  queue : s.waiters = granted ++ rest
  result : t = grantedTo granted rest s
  full : rest ≠ [] → t.hasSlot = false
  within : granted ≠ [] → t.maxConnections ≤ 0 ∨ t.activeSlots ≤ t.maxConnections

theorem grants_of_grantWaiters (waiters : List Nat) (queue : s.waiters = waiters) :
    ∃ hg rest, Grants s hg rest (grantWaiters waiters s) := by
  induction waiters generalizing s with
  | nil => exact ⟨[], [], queue, (grantedTo_nil queue).symm, by simp, by simp⟩
  | cons waiter waiters ih =>
    unfold grantWaiters
    split
    · rename_i slot
      have one : { s with
          waiters := waiters
          activeSlots := s.activeSlots + 1
          outcomes := Function.update s.outcomes waiter (some .granted)
          grants := s.grants ++ [waiter] } = grantedTo [waiter] waiters s := by
        congr 1
        funext other
        simp [Function.update_apply]
      rw [one]
      obtain ⟨hg, rest, grants⟩ := @ih (grantedTo [waiter] waiters s) rfl
      have split : waiters = hg ++ rest := grants.queue
      refine ⟨waiter :: hg, rest, by rw [queue, split]; rfl, ?_, grants.full, fun _ => ?_⟩
      · rw [grants.result, split, grantedTo_cons]
      by_cases more : hg = []
      · rw [grants.result, more]
        rcases hasSlot_eq_true.mp slot with free | room
        · exact .inl free
        · exact .inr (by simpa [grantedTo] using Int.add_one_le_of_lt room)
      · exact grants.within more
    · rename_i full
      exact ⟨[], waiter :: waiters, queue, (grantedTo_nil queue).symm, fun _ => by simpa using full, by simp⟩

theorem grantWaitersLocked_cases (s : SessionManager) (closed : Bool) :
    (closed = true ∧ s.grantWaitersLocked closed = s) ∨
      closed = false ∧ ∃ hg rest, Grants s hg rest (s.grantWaitersLocked closed) := by
  cases closed with
  | true => exact .inl ⟨rfl, rfl⟩
  | false => exact .inr ⟨rfl, grants_of_grantWaiters s.waiters rfl⟩

theorem grantWaitersLocked_eq (s : SessionManager) (closed : Bool) :
    ∃ hg rest, s.waiters = hg ++ rest ∧ s.grantWaitersLocked closed = grantedTo hg rest s := by
  rcases grantWaitersLocked_cases s closed with ⟨-, hs⟩ | ⟨-, hg, rest, grants⟩
  · exact ⟨[], s.waiters, rfl, hs.trans (grantedTo_nil rfl).symm⟩
  · exact ⟨hg, rest, grants.queue, grants.result⟩

structure InTurn (s : SessionManager) : Prop where
  ordered : (s.grants ++ s.waiters).Pairwise (· < ·)
  arrived : ∀ waiter ∈ s.grants ++ s.waiters, waiter < s.nextWaiter
  pending : ∀ waiter ∈ s.waiters, s.outcomes waiter = none
  fresh : ∀ waiter, s.nextWaiter ≤ waiter → s.outcomes waiter = none

theorem InTurn.nodup (inTurn : InTurn s) : s.waiters.Nodup := (pairwise_append.mp inTurn.ordered).2.1.imp ne_of_lt

theorem InTurn.grants {granted rest} (inTurn : InTurn s) (queue : s.waiters = granted ++ rest) :
    InTurn (grantedTo granted rest s) := by
  have nodup := inTurn.nodup
  have arrived := inTurn.arrived
  rw [queue] at nodup arrived
  constructor
  · simpa [grantedTo, queue] using inTurn.ordered
  · simpa [grantedTo] using arrived
  · intro waiter hm
    have later : waiter ∉ granted := fun earlier => disjoint_of_nodup_append nodup earlier hm
    simpa [grantedTo, later] using inTurn.pending waiter (queue ▸ mem_append_right _ hm)
  · intro waiter new
    have absent : waiter ∉ granted := fun hm => not_lt.mpr new (arrived waiter (by simp [hm]))
    simpa [grantedTo, absent] using inTurn.fresh waiter new

theorem InTurn.moves (inTurn : InTurn s) (moves : SessionMoves s phase t next) : InTurn t := by
  cases moves with
  | queues =>
    have split (waiter : Nat) (hm : waiter ∈ s.grants ++ (s.waiters ++ [s.nextWaiter])) :
        waiter ∈ s.grants ++ s.waiters ∨ waiter = s.nextWaiter := by
      simpa [or_assoc] using hm
    constructor
    · have last : ∀ waiter ∈ s.grants ++ s.waiters, ∀ new ∈ [s.nextWaiter], waiter < new := by
        simpa using inTurn.arrived
      rw [← append_assoc]
      exact pairwise_append.mpr ⟨inTurn.ordered, pairwise_singleton _ _, last⟩
    · intro waiter hm
      rcases split waiter hm with old | new
      · exact lt_succ_of_lt (inTurn.arrived waiter old)
      · exact new ▸ lt_succ_self _
    · intro waiter hm
      rcases mem_append.mp hm with old | new
      · exact inTurn.pending waiter old
      · rw [mem_singleton.mp new]
        exact inTurn.fresh _ (le_refl _)
    · intro waiter new
      exact inTurn.fresh waiter (le_of_succ_le new)
  | @leaves _ waiter =>
    have sub : (s.grants ++ s.waiters.erase waiter).Sublist (s.grants ++ s.waiters) :=
      List.Sublist.append_left erase_sublist _
    constructor
    · exact inTurn.ordered.sublist sub
    · exact fun other hm => inTurn.arrived other (sub.mem hm)
    · exact fun other hm => inTurn.pending other (mem_of_mem_erase hm)
    · exact inTurn.fresh
  | @grants closed | @cleans closed =>
    obtain ⟨hg, rest, queue, result⟩ := grantWaitersLocked_eq s closed
    have turn := inTurn.grants queue
    rw [result]
    exact ⟨turn.ordered, turn.arrived, turn.pending, turn.fresh⟩
  | lists =>
    constructor
    · simpa [failWaitersLocked] using inTurn.ordered.sublist (sublist_append_left ..)
    · intro waiter hm
      have hg : waiter ∈ s.grants := by simpa [failWaitersLocked] using hm
      exact inTurn.arrived waiter (mem_append_left _ hg)
    · simp [failWaitersLocked]
    · intro waiter new
      have absent : waiter ∉ s.waiters := fun hm => not_lt.mpr new (inTurn.arrived waiter (mem_append_right _ hm))
      simpa [failWaitersLocked, absent] using inTurn.fresh waiter new
  | _ => exact ⟨inTurn.ordered, inTurn.arrived, inTurn.pending, inTurn.fresh⟩

def waitsFor : SessionPhase → Option Nat
  | .waiting _ waiter => some waiter
  | _ => none

theorem waitsFor_after (rest : SessionAfter) : waitsFor rest.phase = none := by
  unfold SessionAfter.phase
  split <;> rfl

theorem waitsFor_of_moves (inTurn : InTurn s) (moves : SessionMoves s phase t next) :
    (waitsFor next = none ∧ t.nextWaiter = s.nextWaiter ∧
        ∀ waiter ∈ t.waiters, waiter ∈ s.waiters ∧ waitsFor phase ≠ some waiter) ∨
      (waitsFor next = some s.nextWaiter ∧ t.nextWaiter = s.nextWaiter + 1 ∧ waitsFor phase = none ∧
        t.waiters = s.waiters ++ [s.nextWaiter]) := by
  have answered {waiter : Nat} {outcome : WaiterOutcome} (hk : s.outcomes waiter = some outcome)
      (other : Nat) (hm : other ∈ s.waiters) : some waiter ≠ some other := by
    intro hs
    cases hs
    cases hk.symm.trans (inTurn.pending waiter hm)
  cases moves with
  | queues => exact .inr ⟨rfl, rfl, rfl, rfl⟩
  | wakes hk | fails hk => exact .inl ⟨rfl, rfl, fun other hm => ⟨hm, answered hk other hm⟩⟩
  | leaves =>
    refine .inl ⟨rfl, rfl, fun other hm => ⟨mem_of_mem_erase hm, ?_⟩⟩
    intro hs
    cases hs
    exact inTurn.nodup.not_mem_erase hm
  | refuses at' =>
    rcases at' with rfl | rfl | rfl
    all_goals exact .inl ⟨rfl, rfl, fun other hm => ⟨hm, by simp [waitsFor]⟩⟩
  | givesUp at' =>
    rcases at' with rfl | rfl | ⟨workerID, rfl | rfl⟩
    all_goals exact .inl ⟨rfl, rfl, fun other hm => ⟨hm, by simp [waitsFor]⟩⟩
  | @grants closed creating =>
    obtain ⟨hg, rest, queue, result⟩ := grantWaitersLocked_eq s closed
    rw [result]
    refine .inl ⟨by cases creating <;> rfl, rfl, fun other hm => ⟨?_, by simp [waitsFor]⟩⟩
    exact queue ▸ mem_append_right _ hm
  | @cleans closed =>
    obtain ⟨hg, rest, queue, result⟩ := grantWaitersLocked_eq s closed
    rw [result]
    refine .inl ⟨rfl, rfl, fun other hm => ⟨?_, by simp [waitsFor]⟩⟩
    exact queue ▸ mem_append_right _ hm
  | misses | cleaned | copies => exact .inl ⟨waitsFor_after _, rfl, fun other hm => ⟨hm, by simp [waitsFor]⟩⟩
  | lists =>
    refine .inl ⟨?_, rfl, nofun⟩
    split
    · rfl
    · exact waitsFor_after _
  | _ => exact .inl ⟨rfl, rfl, fun other hm => ⟨hm, by simp [waitsFor]⟩⟩

structure Queued (w : SessionWorld) : Prop where
  inTurn : InTurn w.shared
  owner : ∀ waiter ∈ w.shared.waiters, ∃ call c, w.calls call = some c ∧ waitsFor c.phase = some waiter
  arrived : ∀ call c, w.calls call = some c → ∀ waiter, waitsFor c.phase = some waiter → waiter < w.shared.nextWaiter
  apart : ∀ first second c d, first ≠ second → w.calls first = some c → w.calls second = some d →
    ∀ waiter, waitsFor c.phase = some waiter → waitsFor d.phase ≠ some waiter

theorem queued_init (s : SessionManager) (inTurn : InTurn s) (empty : s.waiters = []) : Queued (.init s) := by
  constructor
  · exact inTurn
  · intro waiter hm
    change waiter ∈ s.waiters at hm
    rw [empty] at hm
    cases hm
  · nofun
  · intro first second c d hne hf
    cases hf

theorem Queued.step {step} (queued : Queued w)
    (ha : sessionProgram.machine.step w step = some after) : Queued after := by
  have swapped (c d : SessionCall)
      (hne : ∀ waiter, waitsFor c.phase = some waiter → waitsFor d.phase ≠ some waiter) :
      ∀ waiter, waitsFor d.phase = some waiter → waitsFor c.phase ≠ some waiter :=
    fun waiter second first => hne waiter first second
  cases Program.takes_of_step ha with
  | @start call request fresh =>
    have idle : waitsFor (sessionProgram.start request).phase = none := by cases request <;> rfl
    constructor
    · exact queued.inTurn
    · intro waiter hm
      obtain ⟨other, d, hf, waits⟩ := queued.owner waiter hm
      have hne : other ≠ call := by
        rintro rfl
        cases fresh.symm.trans hf
      exact ⟨other, d, by rwa [calls_set_of_ne _ _ _ hne], waits⟩
    · apply forall_calls_set
      · simp [idle]
      · exact fun other d _ => queued.arrived other d
    · apply forall_pairs_set swapped
      · simp [idle]
      · exact queued.apart
  | @advance call _ _ d t hf hd =>
    have moves := (moves_of_step hd).1
    rcases waitsFor_of_moves queued.inTurn moves with ⟨idle, hs, old⟩ | ⟨waits, succ, idle, added⟩
    · constructor
      · exact queued.inTurn.moves moves
      · intro waiter hm
        obtain ⟨hk, other⟩ := old waiter hm
        obtain ⟨owner, e, foundOwner, waits⟩ := queued.owner waiter hk
        have hne : owner ≠ call := by
          rintro rfl
          cases hf.symm.trans foundOwner
          exact other waits
        exact ⟨owner, e, by rwa [calls_set_of_ne _ _ _ hne], waits⟩
      · apply forall_calls_set
        · simp [idle]
        · intro other e _ hfo waiter waits
          exact hs ▸ queued.arrived other e hfo waiter waits
      · apply forall_pairs_set swapped
        · simp [idle]
        · exact queued.apart
    · constructor
      · exact queued.inTurn.moves moves
      · intro waiter hm
        change waiter ∈ t.waiters at hm
        rw [added] at hm
        rcases mem_append.mp hm with hk | new
        · obtain ⟨owner, e, foundOwner, waitsOwner⟩ := queued.owner waiter hk
          have hne : owner ≠ call := by
            rintro rfl
            cases hf.symm.trans foundOwner
            cases idle.symm.trans waitsOwner
          exact ⟨owner, e, by rwa [calls_set_of_ne _ _ _ hne], waitsOwner⟩
        · rw [mem_singleton.mp new]
          exact ⟨call, d, calls_set_self .., waits⟩
      · apply forall_calls_set
        · intro waiter waitsNow
          cases waits.symm.trans waitsNow
          exact succ ▸ lt_succ_self _
        · intro other e _ hfo waiter waitsOther
          exact succ ▸ lt_succ_of_lt (queued.arrived other e hfo waiter waitsOther)
      · apply forall_pairs_set swapped
        · intro other e _ hfo waiter waitsNow waitsOther
          cases waits.symm.trans waitsNow
          exact lt_irrefl _ (queued.arrived other e hfo _ waitsOther)
        · exact queued.apart

end Duckgres.Proof.Sessions
