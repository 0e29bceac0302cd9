import Duckgres.Proof.Sessions.Slots

namespace Duckgres.Proof.Sessions
open Base Duckgres.Sessions World Program

variable {s t : SessionManager} {phase next : SessionPhase} {w after : SessionWorld}

def running : SessionPhase → Bool
  | .checking _ | .acquiring _ | .leased .. | .entering _ | .checked _ | .waiting .. | .holding .. | .assigned ..
  | .created .. | .registering .. | .releasing _ | .ending | .cleaning _ => true
  | .granting _ creating => creating
  | _ => false

theorem running_after (rest : SessionAfter) : running rest.phase = false := by
  unfold SessionAfter.phase
  split <;> rfl

theorem active_grantWaitersLocked (s : SessionManager) (closed : Bool) :
    (s.grantWaitersLocked closed).active = s.active := by
  obtain ⟨hg, rest, -, result⟩ := grantWaitersLocked_eq s closed
  rw [result]
  rfl

theorem active_of_moves (moves : SessionMoves s phase t next) (enough : (running phase).toNat ≤ s.active) :
    t.active + (running phase).toNat = s.active + (running next).toNat := by
  cases moves with
  | begins => rfl
  | ends =>
    simp only [running, Bool.toNat_true] at enough ⊢
    simp only [Bool.toNat_false]
    omega
  | refuses at' => rcases at' with rfl | rfl | rfl <;> rfl
  | givesUp at' => rcases at' with rfl | rfl | ⟨workerID, rfl | rfl⟩ <;> rfl
  | @grants _ creating =>
    rw [active_grantWaitersLocked]
    cases creating <;> rfl
  | cleans =>
    rw [active_grantWaitersLocked]
    rfl
  | cleaned =>
    rw [running_after]
    simp only [running, Bool.toNat_true, Bool.toNat_false] at enough ⊢
    omega
  | misses | copies =>
    rw [running_after]
    rfl
  | lists =>
    split
    · rfl
    · rw [running_after]
      rfl
  | _ => rfl

structure Counted (w : SessionWorld) : Prop where
  finite : w.Finite
  active : w.shared.active = (w.those fun c => running c.phase).ncard

theorem Counted.step {step} (hc : Counted w)
    (ha : sessionProgram.machine.step w step = some after) : Counted after := by
  refine ⟨hc.finite.step ha, ?_⟩
  have active := hc.active
  cases takes_of_step ha with
  | @start call request hun =>
    have balance := hc.finite.ncard_those_set w.shared call (sessionProgram.start request) fun c => running c.phase
    have idle : running (sessionProgram.start request).phase = false := by cases request <;> rfl
    rw [hun, idle] at balance
    exact active.trans balance.symm
  | @advance call _ c d t hf hd =>
    have enough := hc.finite.toNat_le_ncard (p := fun c => running c.phase) hf
    have moves := active_of_moves (moves_of_step hd).1 (active ▸ enough)
    have balance := hc.finite.ncard_those_set t call d fun c => running c.phase
    rw [hf, Option.any_some] at balance
    change t.active = _
    omega

theorem Counted.not_running (hc : Counted w) (none : w.shared.active = 0) (call : Nat) (c : SessionCall)
    (hf : w.calls call = some c) : running c.phase = false := by
  have bound := hc.finite.toNat_le_ncard (p := fun c => running c.phase) hf
  rw [← hc.active, none] at bound
  cases idle : running c.phase with
  | false => rfl
  | true => simp [idle] at bound

def entered : SessionPhase → Bool
  | .checked _ | .registering .. | .detached .. => true
  | _ => false

theorem holdsMu_of_entered (inside : entered phase = true) : holdsMu phase = true := by
  cases phase <;> first | rfl | cases inside

theorem entered_after (rest : SessionAfter) : entered rest.phase = false := by
  unfold SessionAfter.phase
  split <;> rfl

structure Empty (s : SessionManager) : Prop where
  closed : s.closed = true
  sessions : s.sessions.rows = []
  waiters : s.waiters = []

theorem Empty.grants (empty : Empty s) (closed : Bool) : Empty (s.grantWaitersLocked closed) := by
  obtain ⟨hg, rest, queue, result⟩ := grantWaitersLocked_eq s closed
  rw [empty.waiters] at queue
  obtain ⟨-, rfl⟩ := List.append_eq_nil_iff.mp queue.symm
  rw [result]
  exact ⟨empty.closed, empty.sessions, rfl⟩

theorem Empty.moves (empty : Empty s) (outside : entered phase = false) (moves : SessionMoves s phase t next) :
    Empty t ∧ entered next = false ∧ (running phase = false → running next = false) := by
  have isClosed {P : Prop} (ho : s.closed = false) : P := by
    rw [empty.closed] at ho
    cases ho
  cases moves with
  | begins ho | enters _ ho | locks _ ho => exact isClosed ho
  | takes | queues | registers | cleans => cases outside
  | detaches _ hf =>
    have hm := (Table.find?_eq_some.mp hf).1
    rw [empty.sessions] at hm
    cases hm
  | @leaves _ waiter =>
    have none : s.waiters.erase waiter = [] := by simp [empty.waiters]
    exact ⟨⟨empty.closed, empty.sessions, none⟩, rfl, nofun⟩
  | refuses at' =>
    rcases at' with rfl | rfl | rfl
    all_goals exact ⟨empty, rfl, nofun⟩
  | givesUp at' =>
    rcases at' with rfl | rfl | ⟨workerID, rfl | rfl⟩
    all_goals exact ⟨empty, rfl, nofun⟩
  | @grants closed creating =>
    have kept := empty.grants closed
    refine ⟨⟨kept.closed, kept.sessions, kept.waiters⟩, ?_, ?_⟩
    · cases creating <;> rfl
    · intro idle
      cases creating
      · rfl
      · cases idle
  | misses | cleaned | copies =>
    exact ⟨⟨empty.closed, empty.sessions, empty.waiters⟩, entered_after _, fun _ => running_after _⟩
  | lists =>
    refine ⟨⟨empty.closed, empty.sessions, rfl⟩, ?_, ?_⟩
    · split
      · rfl
      · exact entered_after _
    · intro _
      split
      · rfl
      · exact running_after _
  | closes | finishes => exact ⟨⟨rfl, empty.sessions, empty.waiters⟩, rfl, fun _ => rfl⟩
  | turnsAway | reserves | sets | clears => exact ⟨⟨empty.closed, empty.sessions, empty.waiters⟩, rfl, fun _ => rfl⟩
  | _ => exact ⟨⟨empty.closed, empty.sessions, empty.waiters⟩, rfl, nofun⟩

structure Shut (w : SessionWorld) : Prop where
  empty : Empty w.shared
  outside : ∀ call c, w.calls call = some c → entered c.phase = false

theorem Shut.step {step} (shut : Shut w) (ha : sessionProgram.machine.step w step = some after) : Shut after := by
  cases takes_of_step ha with
  | @start _ request =>
    refine ⟨shut.empty, forall_calls_set ?_ fun other d _ => shut.outside other d⟩
    cases request <;> rfl
  | @advance call _ c _ _ hf hd =>
    obtain ⟨empty, outside, -⟩ := shut.empty.moves (shut.outside call c hf) (moves_of_step hd).1
    exact ⟨empty, forall_calls_set outside fun other e _ => shut.outside other e⟩

structure Quiet (w : SessionWorld) : Prop where
  shut : Shut w
  idle : ∀ call c, w.calls call = some c → running c.phase = false

theorem Quiet.step {step} (quiet : Quiet w) (ha : sessionProgram.machine.step w step = some after) : Quiet after := by
  refine ⟨quiet.shut.step ha, ?_⟩
  cases takes_of_step ha with
  | @start _ request =>
    refine forall_calls_set ?_ fun other d _ => quiet.idle other d
    cases request <;> rfl
  | @advance call _ c _ _ hf hd =>
    obtain ⟨-, -, idle⟩ := quiet.shut.empty.moves (quiet.shut.outside call c hf) (moves_of_step hd).1
    exact forall_calls_set (idle (quiet.idle call c hf)) fun other e _ => quiet.idle other e

def draining : SessionPhase → Bool
  | .closing | .listing | .detaching _ (.drain _) | .detached _ (.drain _) | .cleaning (.drain _) | .awaiting => true
  | _ => false

theorem draining_after (pids : List Int32) : draining (SessionAfter.drain pids).phase = true := by
  cases pids <;> rfl

theorem awaiting_ne_after (rest : SessionAfter) : rest.phase ≠ .awaiting ∧ rest.phase ≠ .listing := by
  unfold SessionAfter.phase
  split <;> simp

theorem draining_of_moves (drains : draining phase = true) (moves : SessionMoves s phase t next) :
    draining next = true ∨ phase = .awaiting ∧ s.active = 0 ∧ next = .returned := by
  cases moves with
  | closes => exact .inl rfl
  | finishes none => exact .inr ⟨rfl, none, rfl⟩
  | @lists pids =>
    refine .inl ?_
    split
    · rfl
    · exact draining_after pids
  | @misses _ rest | @cleaned rest =>
    cases rest with
    | drain pids => exact .inl (draining_after pids)
    | returned => cases drains
    | crash => cases drains
  | @detaches _ rest | @cleans _ rest =>
    cases rest with
    | drain => exact .inl rfl
    | returned => cases drains
    | crash => cases drains
  | refuses at' => rcases at' with rfl | rfl | rfl <;> cases drains
  | givesUp at' => rcases at' with rfl | rfl | ⟨workerID, rfl | rfl⟩ <;> cases drains
  | _ => cases drains

theorem closed_of_listing (moves : SessionMoves s phase t next) (listing : next = .listing) : t.closed = true := by
  cases moves with
  | closes => rfl
  | @grants _ creating => cases creating <;> cases listing
  | misses | cleaned | copies => exact absurd listing (awaiting_ne_after _).2
  | lists =>
    split at listing
    · cases listing
    · exact absurd listing (awaiting_ne_after _).2
  | _ => cases listing

theorem listed_of_awaiting (moves : SessionMoves s phase t next) (awaiting : next = .awaiting) :
    phase = .listing ∧ s.mu = false ∧ s.sessions.rows = [] ∧ t = s.failWaitersLocked := by
  cases moves with
  | @grants _ creating => cases creating <;> cases awaiting
  | misses | cleaned | copies => exact absurd awaiting (awaiting_ne_after _).1
  | @lists _ free all =>
    split at awaiting
    · rename_i nobody
      rw [nobody] at all
      exact ⟨rfl, free, List.map_eq_nil_iff.mp all.nil_eq.symm, rfl⟩
    · exact absurd awaiting (awaiting_ne_after _).1
  | _ => cases awaiting

theorem ne_returned_of_moves (moves : SessionMoves s phase t next) : phase ≠ .returned := by
  cases moves with
  | refuses at' => rcases at' with rfl | rfl | rfl <;> simp
  | givesUp at' => rcases at' with rfl | rfl | ⟨workerID, rfl | rfl⟩ <;> simp
  | _ => simp

structure Drains (w : SessionWorld) : Prop where
  listing : ∀ call c, w.calls call = some c → c.phase = .listing → w.shared.closed = true
  awaiting : ∀ call c, w.calls call = some c → c.phase = .awaiting → Shut w
  returned : ∀ call c, w.calls call = some c → c.request = .destroyAllSessions →
    draining c.phase = true ∨ c.phase = .returned ∧ Quiet w

theorem Drains.step {step} (drains : Drains w) (exclusive : Exclusive w) (hc : Counted w)
    (ha : sessionProgram.machine.step w step = some after) : Drains after := by
  have shut (awaiting : Shut w) : Shut after := awaiting.step ha
  have quiet (returned : Quiet w) : Quiet after := returned.step ha
  cases takes_of_step ha with
  | @start _ request =>
    constructor
    · apply forall_calls_set
      · intro listing
        cases request <;> cases listing
      · exact fun other d _ => drains.listing other d
    · apply forall_calls_set
      · intro awaiting
        cases request <;> cases awaiting
      · exact fun other d _ hf awaiting => shut (drains.awaiting other d hf awaiting)
    · apply forall_calls_set
      · intro all
        cases request <;> first | exact .inl rfl | cases all
      · intro other d _ hf all
        exact (drains.returned other d hf all).imp_right fun done => ⟨done.1, quiet done.2⟩
  | @advance call _ c _ t hf hd =>
    obtain ⟨moves, hs⟩ := moves_of_step hd
    constructor
    · apply forall_calls_set
      · exact closed_of_listing moves
      · exact fun other e _ hfo listing => closed_of_moves moves (drains.listing other e hfo listing)
    · apply forall_calls_set
      · intro awaiting
        obtain ⟨listing, free, nobody, result⟩ := listed_of_awaiting moves awaiting
        have nobodyInside (other : Nat) (e : SessionCall) (hfo : w.calls other = some e) :
            entered e.phase = false := by
          by_contra inside
          have hl := exclusive.held other e hfo (holdsMu_of_entered (by simpa using inside))
          cases free.symm.trans hl
        constructor
        · change Empty t
          rw [result]
          exact ⟨drains.listing call c hf listing, nobody, rfl⟩
        · apply forall_calls_set
          · rw [awaiting]
            rfl
          · exact fun other e _ => nobodyInside other e
      · exact fun other e _ hfo awaiting => shut (drains.awaiting other e hfo awaiting)
    · apply forall_calls_set
      · intro all
        rcases drains.returned call c hf (hs ▸ all) with busy | ⟨returned, -⟩
        · refine (draining_of_moves busy moves).imp_right fun ⟨awaiting, idle, returned⟩ => ⟨returned, ?_⟩
          exact quiet ⟨drains.awaiting call c hf awaiting, hc.not_running idle⟩
        · exact absurd returned (ne_returned_of_moves moves)
      · intro other e _ hfo all
        exact (drains.returned other e hfo all).imp_right fun done => ⟨done.1, quiet done.2⟩

structure Draining (w : SessionWorld) : Prop where
  exclusive : Exclusive w
  counted : Counted w
  drains : Drains w

theorem Draining.step {step} (draining : Draining w)
    (ha : sessionProgram.machine.step w step = some after) : Draining after :=
  ⟨draining.exclusive.step ha, draining.counted.step ha, draining.drains.step draining.exclusive draining.counted ha⟩

theorem draining_new (limit : Int) (limiter : Bool) : Draining (.init (.new limit limiter)) := by
  refine ⟨exclusive_init _, ⟨finite_init _, ?_⟩, ?_⟩
  · rw [those_eq_empty fun call c hf => (by cases hf), Set.ncard_empty]
    rfl
  · constructor
    all_goals nofun

theorem destroyAllSessions_drains {limit : Int} {limiter : Bool} {steps more : List SessionWorldStep} {call : Nat}
    (run : sessionProgram.machine.run (.init (.new limit limiter)) steps = some w)
    (returned : w.calls call = some ⟨.destroyAllSessions, .returned⟩)
    (later : sessionProgram.machine.run w more = some after) :
    after.shared.sessions.rows = [] ∧ after.shared.waiters = [] ∧
      ∀ other c, after.calls other = some c → running c.phase = false ∧ entered c.phase = false := by
  have draining : Draining w := sessionProgram.machine.invariant_of_run Draining
    (fun _ _ _ draining => draining.step) (draining_new limit limiter) run
  have quiet : Quiet w := by
    rcases draining.drains.returned call _ returned rfl with busy | ⟨-, quiet⟩
    · cases busy
    · exact quiet
  have still : Quiet after := sessionProgram.machine.invariant_of_run Quiet
    (fun _ _ _ quiet => quiet.step) quiet later
  exact ⟨still.shut.empty.sessions, still.shut.empty.waiters,
    fun other c hf => ⟨still.idle other c hf, still.shut.outside other c hf⟩⟩

def drain : List SessionWorldStep :=
  creation 0 5 ++ (creation 1 6).take 6 ++ [.start 2 .destroyAllSessions, .advance 2 .go, .advance 2 (.order [1001]),
    .advance 2 .go, .advance 2 .go, .advance 1 .go, .advance 2 .go, .advance 2 .go, .advance 2 (.order []),
    .advance 1 .go, .advance 2 .go]

theorem destroyAllSessions_drains_waiting :
    ∃ w, sessionProgram.machine.run (.init (.new 1 false)) drain = some w ∧ w.shared.outcomes 0 = some .failed ∧
      w.shared.sessions.rows = [] ∧ w.shared.waiters = [] := by
  have drained {w} := @destroyAllSessions_drains w w 1 false drain [] 2
  refine ⟨?w, ?run, ?failed, (drained ?run ?returned rfl).1, (drained ?run ?returned rfl).2.1⟩
  case run => rfl
  all_goals rfl

end Duckgres.Proof.Sessions
