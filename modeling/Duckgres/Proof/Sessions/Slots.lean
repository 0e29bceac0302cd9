import Duckgres.Base.Tally
import Duckgres.Proof.Sessions.Steps

namespace Duckgres.Proof.Sessions
open Base Duckgres.Sessions World SessionManager List Bool Option Table Program

variable {s t : SessionManager} {phase next : SessionPhase} {w after : SessionWorld}
  {outcomes : Nat → Option WaiterOutcome}

def holdsSlot (outcomes : Nat → Option WaiterOutcome) : SessionPhase → Bool
  | .waiting _ waiter => outcomes waiter = some .granted
  | .holding .. | .assigned .. | .created .. | .registering .. | .releasing _ => true
  | _ => false

def slotHolders (w : SessionWorld) : Set Nat := w.those fun c => holdsSlot w.shared.outcomes c.phase

theorem holdsSlot_after (rest : SessionAfter) : holdsSlot outcomes rest.phase = false := by
  unfold SessionAfter.phase
  split <;> rfl

theorem holdsSlot_of_waitsFor {waiter} (waits : waitsFor phase = some waiter) :
    holdsSlot outcomes phase = decide (outcomes waiter = some .granted) := by
  cases phase <;> cases waits
  rfl

theorem holdsSlot_congr {others : Nat → Option WaiterOutcome} (hs : ∀ waiter, waitsFor phase = some waiter →
      (outcomes waiter = some .granted ↔ others waiter = some .granted)) :
    holdsSlot outcomes phase = holdsSlot others phase := by
  cases phase with
  | waiting _ waiter => simp [holdsSlot, hs waiter rfl]
  | _ => rfl

theorem ncard_granted (finite : w.Finite) (queued : Queued w) (outcomes : Nat → Option WaiterOutcome)
    (granted : List Nat) (nodup : granted.Nodup)
    (waiting : ∀ waiter ∈ granted, waiter ∈ w.shared.waiters ∧ outcomes waiter = none) :
    (w.those fun c => holdsSlot (fun waiter => if waiter ∈ granted then some .granted else outcomes waiter)
      c.phase).ncard = (w.those fun c => holdsSlot outcomes c.phase).ncard + granted.length := by
  induction granted with
  | nil => simp
  | cons waiter granted ih =>
    obtain ⟨new, nodup⟩ := nodup_cons.mp nodup
    obtain ⟨hm, pending⟩ := waiting waiter mem_cons_self
    obtain ⟨owner, c, hf, waits⟩ := queued.owner waiter hm
    rw [length_cons, ← Nat.add_assoc, ← ih nodup fun other later => waiting other (mem_cons_of_mem _ later)]
    apply finite.ncard_those_succ hf
    · simp [holdsSlot_of_waitsFor waits, new, pending]
    · simp [holdsSlot_of_waitsFor waits]
    · intro other d hne hfo
      apply holdsSlot_congr
      intro waiterOther waitsOther
      have different : waiterOther ≠ waiter := by
        rintro rfl
        exact queued.apart other owner d c hne hfo hf waiterOther waitsOther waits
      simp [different]

def asksLimiter : SessionPhase → Bool
  | .acquiring _ | .leased .. => true
  | .holding _ lease | .assigned _ _ lease | .created _ _ lease | .registering _ _ lease | .releasing lease => lease
  | _ => false

structure Unlimited (s : SessionManager) : Prop where
  limiter : s.limiter = false
  sessions : ∀ session ∈ s.sessions.rows, session.lease = false

theorem asksLimiter_after (rest : SessionAfter) : asksLimiter rest.phase = false := by
  unfold SessionAfter.phase
  split <;> rfl

theorem Unlimited.grants (unlimited : Unlimited s) (closed : Bool) : Unlimited (s.grantWaitersLocked closed) := by
  obtain ⟨hg, rest, -, result⟩ := grantWaitersLocked_eq s closed
  rw [result]
  exact ⟨unlimited.limiter, unlimited.sessions⟩

theorem Unlimited.register (unlimited : Unlimited s) (pid : Int32) (workerID : Int) :
    Unlimited (s.register ⟨pid, workerID, false⟩) := by
  refine ⟨unlimited.limiter, fun session hm => ?_⟩
  rcases mem_rows_upsert hm with new | old
  · rw [new]
  · exact unlimited.sessions session old

theorem Unlimited.moves (unlimited : Unlimited s) (local' : asksLimiter phase = false)
    (moves : SessionMoves s phase t next) : Unlimited t ∧ asksLimiter next = false := by
  cases moves with
  | asks limited => cases unlimited.limiter.symm.trans limited
  | leases | accepts => cases local'
  | assigns | creates | locks => exact ⟨⟨unlimited.limiter, unlimited.sessions⟩, local'⟩
  | givesUp at' =>
    rcases at' with rfl | rfl | ⟨workerID, rfl | rfl⟩
    · cases local'
    all_goals exact ⟨unlimited, local'⟩
  | @registers pid workerID lease =>
    have none : lease = false := local'
    subst none
    have kept := unlimited.register pid workerID
    exact ⟨⟨kept.limiter, kept.sessions⟩, rfl⟩
  | detaches => exact ⟨⟨unlimited.limiter, fun session hm => unlimited.sessions session (mem_of_mem_filter hm)⟩, rfl⟩
  | @grants closed creating =>
    have kept := unlimited.grants closed
    refine ⟨⟨kept.limiter, kept.sessions⟩, ?_⟩
    cases creating <;> rfl
  | @cleans closed =>
    have kept := unlimited.grants closed
    exact ⟨⟨kept.limiter, kept.sessions⟩, rfl⟩
  | misses | cleaned | copies => exact ⟨⟨unlimited.limiter, unlimited.sessions⟩, asksLimiter_after _⟩
  | lists =>
    refine ⟨⟨unlimited.limiter, unlimited.sessions⟩, ?_⟩
    split
    · rfl
    · exact asksLimiter_after _
  | _ => exact ⟨⟨unlimited.limiter, unlimited.sessions⟩, rfl⟩

structure Balance (s : SessionManager) (phase : SessionPhase) (t : SessionManager) (next : SessionPhase)
    (granted : List Nat) : Prop where
  first : granted <+: s.waiters
  outcomes : ∀ waiter, t.outcomes waiter = some .granted ↔ waiter ∈ granted ∨ s.outcomes waiter = some .granted
  slots : t.activeSlots + s.sessions.rows.length + (holdsSlot t.outcomes phase).toNat =
    s.activeSlots + granted.length + t.sessions.rows.length + (holdsSlot t.outcomes next).toNat

theorem balance_nil (outcomes : t.outcomes = s.outcomes)
    (slots : t.activeSlots + s.sessions.rows.length + (holdsSlot s.outcomes phase).toNat =
      s.activeSlots + t.sessions.rows.length + (holdsSlot s.outcomes next).toNat) :
    Balance s phase t next [] := by
  constructor
  · exact nil_prefix
  · simp [outcomes]
  · simpa [outcomes] using slots

theorem balance_grants (closed : Bool) (slots : t.activeSlots = (s.grantWaitersLocked closed).activeSlots)
    (outcomes : t.outcomes = (s.grantWaitersLocked closed).outcomes)
    (sessions : t.sessions = (s.grantWaitersLocked closed).sessions)
    (before : holdsSlot t.outcomes phase = false) (now : holdsSlot t.outcomes next = false) :
    ∃ hg, Balance s phase t next hg := by
  obtain ⟨hg, rest, queue, result⟩ := grantWaitersLocked_eq s closed
  rw [result] at slots outcomes sessions
  refine ⟨hg, ⟨rest, queue.symm⟩, ?_, ?_⟩
  · intro waiter
    rw [outcomes]
    by_cases hm : waiter ∈ hg <;> simp [grantedTo, hm]
  · rw [before, now, slots, sessions]
    simp [grantedTo]

theorem balance_of_moves (inTurn : InTurn s) (unlimited : Unlimited s) (local' : asksLimiter phase = false)
    (moves : SessionMoves s phase t next)
    (fresh : ∀ pid workerID lease, phase = .registering pid workerID lease → s.sessions.find? pid = none)
    (enough : s.sessions.rows.length + (holdsSlot s.outcomes phase).toNat ≤ s.activeSlots) :
    ∃ hg, Balance s phase t next hg := by
  cases moves with
  | takes =>
    refine ⟨[], balance_nil rfl ?_⟩
    simp only [holdsSlot, toNat_true, toNat_false]
    omega
  | queues =>
    have new : s.outcomes s.nextWaiter ≠ some .granted := by simp [inTurn.fresh _ (Nat.le_refl _)]
    refine ⟨[], balance_nil rfl ?_⟩
    simp [holdsSlot, new]
  | wakes hk | fails hk =>
    refine ⟨[], balance_nil rfl ?_⟩
    simp [holdsSlot, hk]
  | leaves _ ungranted =>
    refine ⟨[], balance_nil rfl ?_⟩
    simp [holdsSlot, ungranted, removeWaiterLocked]
  | refuses at' =>
    rcases at' with rfl | rfl | rfl
    all_goals exact ⟨[], balance_nil rfl rfl⟩
  | givesUp at' =>
    rcases at' with rfl | rfl | ⟨workerID, rfl | rfl⟩
    · cases local'
    all_goals exact ⟨[], balance_nil rfl rfl⟩
  | leases | accepts | returnsLease => cases local'
  | @registers pid workerID lease =>
    refine ⟨[], balance_nil rfl ?_⟩
    have hun : s.sessions.find? pid = none := fresh pid workerID lease rfl
    have rows : (s.sessions.upsert ⟨pid, workerID, lease⟩).rows = s.sessions.rows ++ [⟨pid, workerID, lease⟩] := by
      simp [Table.upsert, Table.insert?, hun]
    simp only [register, rows, holdsSlot, length_append, length_cons, length_nil, toNat_true, toNat_false]
    omega
  | releases =>
    refine ⟨[], balance_nil rfl ?_⟩
    simp only [holdsSlot, toNat_true, toNat_false] at enough ⊢
    omega
  | @detaches pid _ session _ hf =>
    refine ⟨[], balance_nil rfl ?_⟩
    have removed : (s.sessions.filter fun other => other.pid ≠ session.pid).rows.length + 1 =
        s.sessions.rows.length := length_filter_ne (key_of_find? hf ▸ hf)
    have unleased : session.lease = false := unlimited.sessions session (find?_eq_some.mp hf).1
    simp only [detachSessionLocked, removeSessionFromWorkerLocked, holdsSlot,
      toNat_false, unleased, false_eq_true, if_false] at enough ⊢
    omega
  | @grants closed creating =>
    refine balance_grants closed rfl rfl rfl rfl ?_
    cases creating <;> rfl
  | @cleans closed => exact balance_grants closed rfl rfl rfl rfl rfl
  | misses | cleaned | copies =>
    refine ⟨[], balance_nil rfl ?_⟩
    rw [holdsSlot_after]
    rfl
  | @lists pids =>
    have idle (outcomes : Nat → Option WaiterOutcome) :
        holdsSlot outcomes (if pids = [] then .awaiting else (SessionAfter.drain pids).phase) = false := by
      split
      · rfl
      · exact holdsSlot_after _
    refine ⟨[], nil_prefix, ?_, ?_⟩
    · intro waiter
      by_cases hm : waiter ∈ s.waiters
      · simp [failWaitersLocked, inTurn.pending waiter hm]
      · simp [failWaitersLocked, hm]
    · rw [idle]
      rfl
  | _ => exact ⟨[], balance_nil rfl rfl⟩

structure Conserved (w : SessionWorld) : Prop where
  finite : w.Finite
  queued : Queued w
  unlimited : w.Holds Unlimited fun _ c => asksLimiter c.phase = false
  slots : w.shared.activeSlots = w.shared.sessions.rows.length + (slotHolders w).ncard

/-- A session is registered only under a pid that no registered session has. -/
def RegistersUnusedPid (w : SessionWorld) : SessionWorldStep → Prop
  | .start .. => True
  | .advance call _ => ∀ c pid workerID lease, w.calls call = some c →
      c.phase = .registering pid workerID lease → w.shared.sessions.find? pid = none

theorem unlimited_step {step} (unlimited : w.Holds Unlimited fun _ c => asksLimiter c.phase = false)
    (ha : sessionProgram.machine.step w step = some after) :
    after.Holds Unlimited fun _ c => asksLimiter c.phase = false := by
  cases takes_of_step ha with
  | @start _ request =>
    refine ⟨unlimited.shared, forall_calls_set ?_ fun other d _ => unlimited.own other d⟩
    cases request <;> rfl
  | @advance call _ c _ _ hf hd =>
    obtain ⟨kept, local'⟩ := unlimited.shared.moves (unlimited.own call c hf) (moves_of_step hd).1
    exact ⟨kept, forall_calls_set local' fun other e _ => unlimited.own other e⟩

theorem Conserved.step {step} (conserved : Conserved w) (fresh : RegistersUnusedPid w step)
    (ha : sessionProgram.machine.step w step = some after) : Conserved after := by
  refine ⟨conserved.finite.step ha, conserved.queued.step ha, unlimited_step conserved.unlimited ha, ?_⟩
  have slots := conserved.slots
  cases takes_of_step ha with
  | @start call request hun =>
    have hc := conserved.finite.ncard_those_set w.shared call (sessionProgram.start request)
      fun c => holdsSlot w.shared.outcomes c.phase
    have idle : holdsSlot w.shared.outcomes (sessionProgram.start request).phase = false := by
      cases request <;> rfl
    rw [hun, idle] at hc
    exact slots.trans (congrArg _ hc.symm)
  | @advance call _ c d t hf hd =>
    have moves := (moves_of_step hd).1
    have holder := conserved.finite.toNat_le_ncard (p := fun c => holdsSlot w.shared.outcomes c.phase) hf
    obtain ⟨hg, balance⟩ := balance_of_moves conserved.queued.inTurn conserved.unlimited.shared
      (conserved.unlimited.own call c hf) moves (fun pid workerID lease => fresh c pid workerID lease hf)
      (slots ▸ Nat.add_le_add_left holder _)
    have waiting (waiter : Nat) (hm : waiter ∈ hg) : waiter ∈ w.shared.waiters := balance.first.subset hm
    have given := ncard_granted conserved.finite conserved.queued w.shared.outcomes hg
      (conserved.queued.inTurn.nodup.sublist balance.first.sublist)
      fun waiter hm => ⟨waiting waiter hm, conserved.queued.inTurn.pending waiter (waiting waiter hm)⟩
    have hs : (w.those fun c => holdsSlot t.outcomes c.phase) = w.those fun c =>
        holdsSlot (fun waiter => if waiter ∈ hg then some .granted else w.shared.outcomes waiter) c.phase := by
      apply those_congr
      intro other e _
      apply holdsSlot_congr
      intro waiter _
      rw [balance.outcomes]
      by_cases hm : waiter ∈ hg <;> simp [hm]
    have hc := conserved.finite.ncard_those_set t call d fun c => holdsSlot t.outcomes c.phase
    rw [hf, any_some, hs] at hc
    have balanced := balance.slots
    unfold slotHolders at slots ⊢
    rw [shared_set]
    omega

def Full (s : SessionManager) : Prop := s.closed = false → s.waiters ≠ [] → s.hasSlot = false

def willGrant : SessionPhase → Bool
  | .granting .. | .detached .. => true
  | _ => false

theorem holdsMu_of_willGrant (grants : willGrant phase = true) : holdsMu phase = true := by
  cases phase <;> first | rfl | cases grants

def readClosed : SessionPhase → Bool
  | .granting true _ | .detached true _ => true
  | _ => false

theorem readClosed_after (rest : SessionAfter) : readClosed rest.phase = false := by
  unfold SessionAfter.phase
  split <;> rfl

theorem closed_grantWaitersLocked (s : SessionManager) (closed : Bool) :
    (s.grantWaitersLocked closed).closed = s.closed := by
  obtain ⟨hg, rest, -, result⟩ := grantWaitersLocked_eq s closed
  rw [result]
  rfl

theorem closed_of_moves (moves : SessionMoves s phase t next) (closed : s.closed = true) : t.closed = true := by
  cases moves with
  | grants | cleans => simpa [closed_grantWaitersLocked] using closed
  | closes | finishes => rfl
  | _ => exact closed

theorem readClosed_of_moves (moves : SessionMoves s phase t next) (reads : readClosed next = true) :
    t.closed = true := by
  cases moves with
  | releases | sets | detaches =>
    by_contra ho
    have ho : s.closed = false := eq_false_of_not_eq_true ho
    simp [ho, readClosed] at reads
  | @grants _ creating => cases creating <;> cases reads
  | misses | cleaned | copies =>
    rw [readClosed_after] at reads
    cases reads
  | lists =>
    split at reads
    · cases reads
    · rw [readClosed_after] at reads
      cases reads
  | _ => cases reads

theorem full_grantWaitersLocked {closed} (read : closed = true → s.closed = true) :
    Full (s.grantWaitersLocked closed) := by
  intro ho waiting
  rcases grantWaitersLocked_cases s closed with ⟨closing, hs⟩ | ⟨-, hg, rest, grants⟩
  · rw [closed_grantWaitersLocked, read closing] at ho
    cases ho
  · apply grants.full
    rwa [grants.result] at waiting

theorem full_of_moves (moves : SessionMoves s phase t next) (read : readClosed phase = true → s.closed = true)
    (quiet : willGrant next = false) (full : willGrant phase = false → Full s) : Full t := by
  cases moves with
  | takes slot =>
    intro ho waiting
    cases slot.symm.trans (full rfl ho waiting)
  | queues ht => exact fun _ _ => ht
  | leaves =>
    intro ho waiting
    refine full rfl ho fun empty => waiting ?_
    simp [removeWaiterLocked, empty]
  | grants | cleans =>
    apply full_grantWaitersLocked
    intro closing
    exact read (by rw [closing]; rfl)
  | releases | sets | detaches => cases quiet
  | closes | finishes => nofun
  | lists =>
    intro _ waiting
    exact absurd rfl waiting
  | refuses at' => rcases at' with rfl | rfl | rfl <;> exact full rfl
  | givesUp at' => rcases at' with rfl | rfl | ⟨workerID, rfl | rfl⟩ <;> exact full rfl
  | _ => exact full rfl

structure Served (w : SessionWorld) : Prop where
  read : ∀ call c, w.calls call = some c → readClosed c.phase = true → w.shared.closed = true
  full : (∀ call c, w.calls call = some c → willGrant c.phase = false) → Full w.shared

theorem Served.step {step} (served : Served w)
    (ha : sessionProgram.machine.step w step = some after) : Served after := by
  cases takes_of_step ha with
  | @start _ request hun =>
    constructor
    · apply forall_calls_set
      · intro reads
        cases request <;> cases reads
      · exact fun other d _ => served.read other d
    · intro quiet
      apply served.full
      intro other d hf
      apply quiet other d
      rwa [calls_set_of_ne]
      rintro rfl
      cases hun.symm.trans hf
  | @advance call _ c d _ hf hd =>
    have moves := (moves_of_step hd).1
    constructor
    · apply forall_calls_set
      · exact readClosed_of_moves moves
      · exact fun other e _ hfo reads => closed_of_moves moves (served.read other e hfo reads)
    · intro quiet
      apply full_of_moves moves (served.read call c hf) (quiet call d (calls_set_self ..))
      intro idle
      apply served.full
      intro other e hfo
      by_cases hs : other = call
      · subst hs
        cases hf.symm.trans hfo
        exact idle
      · exact quiet other e (by rwa [calls_set_of_ne _ _ _ hs])

theorem slots_of_grantWaitersLocked (s : SessionManager) (closed : Bool) :
    (s.grantWaitersLocked closed).activeSlots ≤ s.activeSlots ∨ (s.grantWaitersLocked closed).maxConnections ≤ 0 ∨
      (s.grantWaitersLocked closed).activeSlots ≤ (s.grantWaitersLocked closed).maxConnections := by
  rcases grantWaitersLocked_cases s closed with ⟨-, hs⟩ | ⟨-, hg, rest, grants⟩
  · exact .inl (by rw [hs])
  · by_cases some : hg = []
    · exact .inl (by simp [grants.result, some, grantedTo])
    · exact .inr (grants.within some)

theorem slots_of_moves (moves : SessionMoves s phase t next) :
    t.activeSlots ≤ s.activeSlots ∨ t.maxConnections ≤ 0 ∨ t.activeSlots ≤ t.maxConnections := by
  cases moves with
  | takes slot =>
    refine .inr ((hasSlot_eq_true.mp slot).imp_right fun room => ?_)
    simpa using Int.add_one_le_of_lt room
  | releases => exact .inl (Nat.sub_le ..)
  | @detaches _ _ session =>
    refine .inl ?_
    change (if session.lease then s.activeSlots else s.activeSlots - 1) ≤ s.activeSlots
    split
    · exact Nat.le_refl _
    · exact Nat.sub_le ..
  | grants | cleans => exact slots_of_grantWaitersLocked ..
  | _ => exact .inl (Nat.le_refl _)

def LimitIs (n : Int) (w : SessionWorld) (step : SessionWorldStep) : Prop :=
  ∀ after, sessionProgram.machine.step w step = some after → after.shared.maxConnections = n

theorem slots_within_limit {n : Int} {steps} (hpos : 0 < n)
    (start : w.shared.activeSlots ≤ n) (obeys : sessionProgram.machine.Obeys (LimitIs n) w steps)
    (run : sessionProgram.machine.run w steps = some after) : after.shared.activeSlots ≤ n := by
  refine sessionProgram.machine.invariant_of_obeys (fun w => w.shared.activeSlots ≤ n) ?_ start obeys run
  intro w step after within limit ha
  have limited := limit after ha
  cases takes_of_step ha with
  | start => exact within
  | @advance _ _ _ _ t _ hd =>
    change t.maxConnections = n at limited
    change (t.activeSlots : Int) ≤ n
    rcases slots_of_moves (moves_of_step hd).1 with fewer | unlimited | within' <;> omega

theorem inTurn_new (limit : Int) (limiter : Bool) : InTurn (.new limit limiter) := by
  constructor <;> simp [new]

theorem conserved_new (limit : Int) : Conserved (.init (.new limit false)) := by
  have unlimited : Unlimited (.new limit false) := ⟨rfl, nofun⟩
  refine ⟨finite_init _, queued_init _ (inTurn_new limit false) rfl, holds_init unlimited, ?_⟩
  have none : slotHolders (.init (.new limit false)) = ∅ := those_eq_empty nofun
  rw [none, Set.ncard_empty]
  rfl

theorem served_new (limit : Int) : Served (.init (.new limit false)) := by
  constructor
  · nofun
  · intro _ _ waiting
    exact absurd rfl waiting

theorem connection_slots_conserved {limit : Int} {steps : List SessionWorldStep}
    (obeys : sessionProgram.machine.Obeys RegistersUnusedPid (.init (.new limit false)) steps)
    (run : sessionProgram.machine.run (.init (.new limit false)) steps = some w) :
    w.shared.activeSlots = w.shared.sessions.rows.length + (slotHolders w).ncard ∧
      (w.shared.grants ++ w.shared.waiters).Pairwise (· < ·) ∧
      (w.shared.mu = false → w.shared.closed = false → w.shared.waiters ≠ [] →
        0 < w.shared.maxConnections ∧ w.shared.maxConnections ≤ w.shared.activeSlots) ∧
      ∀ (n : Int) more final, 0 < n → w.shared.activeSlots ≤ n → sessionProgram.machine.Obeys (LimitIs n) w more →
        sessionProgram.machine.run w more = some final → final.shared.activeSlots ≤ n := by
  have conserved : Conserved w := sessionProgram.machine.invariant_of_obeys Conserved
    (fun _ _ _ conserved => conserved.step) (conserved_new limit) obeys run
  have exclusive : Exclusive w := sessionProgram.machine.invariant_of_run Exclusive
    (fun _ _ _ exclusive => exclusive.step) (exclusive_init _) run
  have served : Served w := sessionProgram.machine.invariant_of_run Served
    (fun _ _ _ served => served.step) (served_new limit) run
  refine ⟨conserved.slots, conserved.queued.inTurn.ordered, ?_, ?_⟩
  · intro free isOpen waiting
    have quiet (call : Nat) (c : SessionCall) (hf : w.calls call = some c) : willGrant c.phase = false := by
      by_contra grants
      have hl := exclusive.held call c hf (holdsMu_of_willGrant (by simpa using grants))
      cases free.symm.trans hl
    simpa [hasSlot] using served.full quiet isOpen waiting
  · intro n more final hpos start limit run
    exact slots_within_limit hpos start limit run

def creation (call : Nat) (workerID : Int) : List SessionWorldStep :=
  .start call .postgres :: [.go, .go, .go, .go, .go, .worker (some workerID), .session true, .go, .go, .go].map
    (.advance call)

theorem connection_slots_conserved_waiting :
    ∃ w, sessionProgram.machine.run (.init (.new 1 false)) (creation 0 5 ++ (creation 1 6).take 6) = some w ∧
      w.shared.waiters = [0] ∧ w.shared.activeSlots = w.shared.sessions.rows.length + (slotHolders w).ncard ∧
      w.shared.maxConnections ≤ w.shared.activeSlots := by
  have obeys : sessionProgram.machine.Obeys RegistersUnusedPid (.init (.new 1 false))
      (creation 0 5 ++ (creation 1 6).take 6) := by
    refine .cons rfl trivial ?_
    iterate 10 refine .cons rfl (fun c pid workerID lease hf at' => by cases hf; cases at' <;> rfl) ?_
    refine .cons rfl trivial ?_
    iterate 5 refine .cons rfl (fun c pid workerID lease hf at' => by cases hf; cases at') ?_
    trivial
  obtain ⟨slots, -, full, -⟩ := connection_slots_conserved obeys rfl
  exact ⟨_, rfl, rfl, slots, (full rfl rfl nofun).2⟩

theorem waiters_kept {limit : Int} {limiter : Bool} {steps : List SessionWorldStep}
    (run : sessionProgram.machine.run (.init (.new limit limiter)) steps = some w) : Exclusive w ∧ Queued w := by
  constructor
  · exact sessionProgram.machine.invariant_of_run Exclusive (fun _ _ _ exclusive => exclusive.step)
      (exclusive_init _) run
  · exact sessionProgram.machine.invariant_of_run Queued (fun _ _ _ queued => queued.step)
      (queued_init _ (inTurn_new limit limiter) rfl) run

theorem waiters_kept_waiting : ∃ steps w, sessionProgram.machine.run (.init (.new 1 false)) steps = some w ∧
    w.shared.waiters = [0] ∧ Queued w := by
  have run : sessionProgram.machine.run (.init (.new 1 false)) (creation 0 5 ++ (creation 1 6).take 6) = some _ := rfl
  exact ⟨_, _, run, rfl, (waiters_kept run).2⟩

def reservations : Nat → Nat → List SessionWorldStep
  | _, 0 => []
  | call, n + 1 => .start call .postgres :: .advance call .go :: reservations (call + 1) n

def reserved (n : Nat) (s : SessionManager) : SessionManager := { s with nextPID := s.nextPID + Int32.ofNat n }

theorem reserved_succ (n : Nat) (s : SessionManager) : reserved n (reserved 1 s) = reserved (n + 1) s := by
  unfold reserved
  congr 1
  rw [Int32.ofNat_add, Int32.add_comm (Int32.ofNat n), ← Int32.add_assoc]

theorem run_reservations (n call : Nat) (hun : ∀ other, call ≤ other → w.calls other = none) :
    ∃ after, sessionProgram.machine.run w (reservations call n) = some after ∧
      after.shared = reserved n w.shared ∧ (∀ other, other < call → after.calls other = w.calls other) ∧
      ∀ other c, call ≤ other → after.calls other = some c → ∃ pid, c.phase = .begun pid := by
  induction n generalizing w call with
  | zero =>
    refine ⟨w, rfl, by simp [reserved], fun _ _ => rfl, ?_⟩
    intro other c later hf
    cases (hun other later).symm.trans hf
  | succ n ih =>
    let w' := w.set (reserved 1 w.shared) call ⟨.postgres, .begun (w.shared.nextPID + 1)⟩
    have begins : sessionProgram.machine.run w (.start call .postgres :: [.go].map (.advance call)) = some w' :=
      run_call (hun call le_rfl) rfl
    have hun' (other : Nat) (later : call + 1 ≤ other) : w'.calls other = none := by
      rw [calls_set_of_ne _ _ _ (by omega)]
      exact hun other (by omega)
    obtain ⟨after, run, shared, before, idle⟩ := ih (call + 1) hun'
    refine ⟨after, (sessionProgram.machine.run_append_eq_some).mpr ⟨w', begins, run⟩, ?_, ?_, ?_⟩
    · rw [shared, ← reserved_succ]
      rfl
    · intro other earlier
      rw [before other (by omega), calls_set_of_ne _ _ _ (by omega)]
    intro other c later hf
    by_cases hs : other = call
    · rw [before other (by omega), hs, calls_set_self] at hf
      cases hf
      exact ⟨_, rfl⟩
    · exact idle other c (by omega) hf

def oneSession : SessionManager :=
  { new 2 false with
    sessions := ⟨[⟨1001, 5, false⟩], List.nodup_singleton _⟩
    byWorker := Function.update (fun _ => []) 5 [1001]
    nextPID := 1001
    activeSlots := 1 }

theorem slots_not_conserved : ∃ steps w, sessionProgram.machine.run (.init (.new 2 false)) steps = some w ∧
    w.shared.activeSlots = 2 ∧ w.shared.sessions.rows.length = 1 ∧ slotHolders w = ∅ := by
  -- after 2 ^ 32 - 1 reservations the next pid is 1001 again
  obtain ⟨n, wraps⟩ : ∃ n : Nat, (1001 : Int32) + Int32.ofNat n = 1000 := ⟨2 ^ 32 - 1, rfl⟩
  let w : SessionWorld := (World.init (.new 2 false)).set oneSession 0 ⟨.postgres, .returned⟩
  have first : sessionProgram.machine.run (.init (.new 2 false)) (creation 0 5) = some w := Program.run_call rfl rfl
  have unused (other : Nat) (later : 1 ≤ other) : w.calls other = none := by
    rw [World.calls_set_of_ne _ _ _ (by omega)]
    rfl
  obtain ⟨w', run, shared, before, idle⟩ := run_reservations n 2 fun other later => unused other (by omega)
  have again : w'.shared = { oneSession with nextPID := 1000 } := by
    rw [shared, ← wraps]
    rfl
  let replaced : SessionManager :=
    { oneSession with
      sessions := ⟨[⟨1001, 6, false⟩], List.nodup_singleton _⟩
      byWorker := Function.update oneSession.byWorker 6 [1001]
      activeSlots := 2 }
  have second : sessionProgram.machine.run w' (creation 1 6) = some (w'.set replaced 1 ⟨.postgres, .returned⟩) := by
    refine Program.run_call ((before 1 (by omega)).trans (unused 1 le_rfl)) ?_
    rw [again]
    rfl
  refine ⟨creation 0 5 ++ (reservations 2 n ++ creation 1 6), _, (sessionProgram.machine.run_append_eq_some).mpr
    ⟨w, first, (sessionProgram.machine.run_append_eq_some).mpr ⟨w', run, second⟩⟩, rfl, rfl, ?_⟩
  apply World.those_eq_empty
  apply World.forall_calls_set
  · rfl
  · intro other c hne hf
    by_cases isFirst : other < 2
    · have isFirst : other = 0 := by omega
      rw [isFirst, before 0 (by omega)] at hf
      cases hf
      rfl
    · obtain ⟨pid, begun⟩ := idle other c (by omega) hf
      rw [begun]
      rfl

def Agree (s : SessionManager) : Prop :=
  ∀ workerID pid, (s.byWorker workerID).count pid =
    if (s.sessions.find? pid).map ManagedSession.workerID = some workerID then 1 else 0

variable (session : ManagedSession)

theorem find?_register (pid : Int32) :
    (s.register session).sessions.find? pid = if pid = session.pid then some session else s.sessions.find? pid := by
  split
  · rename_i hs
    subst hs
    exact find?_upsert s.sessions session
  · rename_i other
    exact find?_upsert_of_ne s.sessions other

theorem byWorker_register (workerID : Int) : (s.register session).byWorker workerID =
      if workerID = session.workerID then s.byWorker workerID ++ [session.pid] else s.byWorker workerID := by
  by_cases hs : workerID = session.workerID <;> simp [register, hs]

theorem find?_detach (pid : Int32) : (s.detachSessionLocked session).sessions.find? pid =
    if pid = session.pid then none else s.sessions.find? pid := by
  split
  · rename_i hs
    subst hs
    exact find?_filter_self s.sessions session.pid
  · rename_i other
    exact find?_filter_of_ne s.sessions other

theorem byWorker_detach (workerID : Int) : (s.detachSessionLocked session).byWorker workerID =
      if workerID = session.workerID then (s.byWorker workerID).erase session.pid else s.byWorker workerID := by
  by_cases hs : workerID = session.workerID <;> simp [detachSessionLocked, removeSessionFromWorkerLocked, hs]

section
variable (agree : Agree s)
include agree

theorem Agree.register (session : ManagedSession) (fresh : s.sessions.find? session.pid = none) :
    Agree (s.register session) := by
  intro worker other
  have before := agree worker other
  rw [find?_register, byWorker_register]
  by_cases hs : other = session.pid
  · subst hs
    simp only [fresh] at before
    by_cases isWorker : worker = session.workerID
    · simp [isWorker ▸ before, isWorker]
    · simp [before, isWorker, Ne.symm isWorker]
  · by_cases isWorker : worker = session.workerID
    · simp [hs, isWorker ▸ before, isWorker, Ne.symm hs]
    · simp [hs, before, isWorker]

theorem Agree.detach {session}
    (hf : s.sessions.find? session.pid = some session) : Agree (s.detachSessionLocked session) := by
  intro worker other
  have before := agree worker other
  rw [find?_detach, byWorker_detach]
  by_cases hs : other = session.pid
  · subst hs
    rw [hf, map_some] at before
    by_cases isWorker : worker = session.workerID
    · subst isWorker
      simp [before]
    · rw [if_neg fun elsewhere => isWorker (Option.some.inj elsewhere).symm] at before
      simp [before, isWorker]
  · by_cases isWorker : worker = session.workerID
    · simp [hs, isWorker ▸ before, isWorker]
    · simp [hs, before, isWorker]

theorem Agree.byWorker_eq_nil {workerID}
    (none : ∀ session ∈ s.sessions.rows, session.workerID ≠ workerID) : s.byWorker workerID = [] := by
  rw [eq_nil_iff_forall_not_mem]
  intro pid hm
  have listed := count_pos_iff.mpr hm
  rw [agree workerID pid] at listed
  split at listed
  · rename_i mapped
    obtain ⟨session, hf, onWorker⟩ := map_eq_some_iff.mp mapped
    exact none session (find?_eq_some.mp hf).1 onWorker
  · cases listed

theorem agree_grants {closed} : Agree (s.grantWaitersLocked closed) := by
  obtain ⟨hg, rest, -, result⟩ := grantWaitersLocked_eq s closed
  rw [result]
  exact agree

theorem Agree.moves (moves : SessionMoves s phase t next)
    (fresh : ∀ pid workerID lease, phase = .registering pid workerID lease → s.sessions.find? pid = none)
    (none : ∀ workerID, phase = .clearing workerID → ∀ session ∈ s.sessions.rows, session.workerID ≠ workerID) :
    Agree t := by
  cases moves with
  | @registers pid workerID lease => exact agree.register ⟨pid, workerID, lease⟩ (fresh pid workerID lease rfl)
  | detaches _ hf =>
    rw [← key_of_find? hf] at hf
    exact agree.detach hf
  | grants | cleans => exact agree_grants agree
  | @clears workerID =>
    have hs : Function.update s.byWorker workerID [] = s.byWorker := by
      rw [← agree.byWorker_eq_nil (none workerID rfl), Function.update_eq_self]
    rw [hs]
    exact agree
  | _ => exact agree

end

/-- No registered session is on the worker whose pids `OnWorkerCrash` deletes at its end. -/
def ClearsUnusedWorker (w : SessionWorld) : SessionWorldStep → Prop
  | .start .. => True
  | .advance call _ => ∀ c workerID, w.calls call = some c → c.phase = .clearing workerID →
      ∀ session ∈ w.shared.sessions.rows, session.workerID ≠ workerID

theorem session_indexes_agree {limit : Int} {limiter : Bool} {steps : List SessionWorldStep}
    (obeys : sessionProgram.machine.Obeys (fun w step => RegistersUnusedPid w step ∧ ClearsUnusedWorker w step)
      (.init (.new limit limiter)) steps)
    (run : sessionProgram.machine.run (.init (.new limit limiter)) steps = some w) :
    Agree w.shared ∧ ∀ session ∈ w.shared.sessions.rows, session.pid ∈ w.shared.byWorker session.workerID := by
  have agree : Agree w.shared := by
    refine sessionProgram.machine.invariant_of_obeys (fun w => Agree w.shared) ?_ ?_ obeys run
    · intro w step after agree legal ha
      cases Program.takes_of_step ha with
      | start => exact agree
      | @advance _ _ c _ _ hf hd =>
        exact agree.moves (moves_of_step hd).1 (fun pid workerID lease => legal.1 c pid workerID lease hf)
          fun workerID => legal.2 c workerID hf
    · intro workerID pid
      rfl
  refine ⟨agree, fun session hm => ?_⟩
  have listed := agree session.workerID session.pid
  rw [Table.find?_eq_some.mpr ⟨hm, rfl⟩, Option.map_some, if_pos rfl] at listed
  exact List.count_pos_iff.mp (by omega)

def crashOfOne (call : Nat) (workerID : Int) : List SessionWorldStep :=
  .start call (.onWorkerCrash workerID) :: [.go, .go, .go, .go, .go].map (.advance call)

theorem session_indexes_agree_crash :
    ∃ w, sessionProgram.machine.run (.init (.new 0 false)) (creation 0 5 ++ creation 1 6 ++ crashOfOne 2 5) = some w ∧
      w.shared.sessions.rows = [⟨1002, 6, false⟩] ∧ Agree w.shared := by
  have obeys : sessionProgram.machine.Obeys (fun w step => RegistersUnusedPid w step ∧ ClearsUnusedWorker w step)
      (.init (.new 0 false)) (creation 0 5 ++ creation 1 6 ++ crashOfOne 2 5) := by
    iterate 2
      refine .cons rfl ⟨trivial, trivial⟩ ?_
      iterate 10
        refine .cons rfl ⟨fun c pid workerID lease hf at' => (by cases hf; cases at' <;> rfl),
          fun c workerID hf at' => (by cases hf; cases at')⟩ ?_
    refine .cons rfl ⟨trivial, trivial⟩ ?_
    iterate 5
      refine .cons rfl ⟨fun c pid workerID lease hf at' => (by cases hf; cases at'),
        fun c workerID hf at' => (by cases hf; cases at' <;> decide)⟩ ?_
    trivial
  exact ⟨_, rfl, rfl, (session_indexes_agree obeys rfl).1⟩

theorem crash_unlists_session : ∃ w, sessionProgram.machine.run (.init (.new 0 false)) ((creation 0 5).take 8 ++
        [.start 1 (.onWorkerCrash 5), .advance 1 .go, .advance 0 .go, .advance 0 .go, .advance 1 .go]) = some w ∧
      w.shared.mu = false ∧ w.shared.sessions.find? 1001 = some ⟨1001, 5, false⟩ ∧ w.shared.byWorker 5 = [] :=
  ⟨_, rfl, rfl, rfl, rfl⟩

end Duckgres.Proof.Sessions
