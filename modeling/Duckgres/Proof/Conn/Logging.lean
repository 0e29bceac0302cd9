import Duckgres.Conn.QueryLog

namespace Duckgres.Proof.Conn
open Base Duckgres.Conn QueryLogger Machine List

variable {E : Type} {ql next final : QueryLogger E} {a : LogStep E} {steps : List (LogStep E)}

/-- No entry is sent once `Stop` has closed the channel. -/
def BeforeStop (ql : QueryLogger E) : LogStep E → Prop
  | .log _ => ql.closed = false
  | _ => True

structure Conserves (ql : QueryLogger E) : Prop where
  all : ql.flushed.flatten ++ ql.batch ++ ql.ch = ql.accepted
  drained : ql.done = true → ql.closed = true ∧ ql.batch = [] ∧ ql.ch = []
  stopped : ql.stopped = true → ql.done = true

theorem flatten_flush : ql.flush.flushed.flatten = ql.flushed.flatten ++ ql.batch := by
  cases h : ql.batch <;> simp [flush, h]

theorem Conserves.flush (h : Conserves ql) : Conserves ql.flush where
  all := (congrArg (· ++ _) (by rw [flatten_flush]; exact append_nil _)).trans h.all
  drained hd := ⟨(h.drained hd).1, rfl, (h.drained hd).2.2⟩
  stopped := h.stopped

theorem Conserves.take {entry ch} (h : Conserves ql) (hd : ql.done = false) (hc : ql.ch = entry :: ch) :
    Conserves { ql with ch, batch := ql.batch ++ [entry] } where
  all := by simp [← h.all, hc]
  drained := by simp [hd]
  stopped := h.stopped

theorem Conserves.receive (h : Conserves ql) (hd : ql.done = false) (hr : ql.receive = some next) : Conserves next := by
  unfold QueryLogger.receive at hr
  split at hr
  · rename_i hc
    cases hr
    split
    · exact (h.take hd hc).flush
    · exact h.take hd hc
  · rename_i hc
    split at hr
    · rename_i closed
      cases hr
      exact ⟨h.flush.all, fun _ => ⟨closed, rfl, hc⟩, fun _ => rfl⟩
    · cases hr

theorem Conserves.step (h : Conserves ql) (ha : machine.step ql a = some next) : Conserves next := by
  cases a with
  | log entry =>
    cases ha
    unfold log
    split
    · exact ⟨h.all, h.drained, h.stopped⟩
    · rename_i isOpen
      split
      · exact ⟨by simp [← h.all], fun hd => absurd (h.drained hd).1 isOpen, h.stopped⟩
      · exact h
  | stop =>
    cases ha
    exact ⟨h.all, fun hd => ⟨rfl, (h.drained hd).2⟩, h.stopped⟩
  | stopped =>
    obtain ⟨hd, ⟨⟩⟩ := Option.ite_none_right_eq_some.mp ha
    exact ⟨h.all, h.drained, fun _ => hd⟩
  | receive =>
    obtain ⟨hd, hr⟩ := Option.ite_none_left_eq_some.mp ha
    exact h.receive (by simpa using hd) hr
  | flushTick | compactTick =>
    obtain ⟨-, ⟨⟩⟩ := Option.ite_none_left_eq_some.mp ha
    exact h.flush

theorem panicked_step (ha : machine.step ql a = some next) :
    next.panicked = false ↔ BeforeStop ql a ∧ ql.panicked = false := by
  cases a <;> grind [machine, log, receive, flush, BeforeStop]

theorem panicked_run (run : machine.run ql steps = some final) :
    final.panicked = false ↔ machine.Obeys BeforeStop ql steps ∧ ql.panicked = false := by
  induction steps generalizing ql with
  | nil =>
    cases run
    simp [Obeys]
  | cons a steps ih =>
    obtain ⟨next, ha, rest⟩ := (run_cons_eq_some _).mp run
    rw [ih rest, panicked_step ha]
    simp only [Obeys, ha, Option.some.injEq, forall_eq']
    tauto

theorem flushed_soon (h : Conserves ql) (hd : ql.done = false) :
    ∃ next, machine.run ql (replicate ql.ch.length .receive ++ [.flushTick]) = some next ∧
      next.flushed.flatten = ql.accepted := by
  induction hc : ql.ch generalizing ql with
  | nil =>
    refine ⟨ql.flush, by simp [run, machine, hd], ?_⟩
    rw [flatten_flush, ← h.all, hc, append_nil]
  | cons entry ch ih =>
    obtain ⟨next, hr, isRest, accepted, undone⟩ : ∃ next, ql.receive = some next ∧ next.ch = ch ∧
        next.accepted = ql.accepted ∧ next.done = false := by
      simp only [receive, hc]
      refine ⟨_, rfl, ?_⟩
      split <;> exact ⟨rfl, rfl, hd⟩
    obtain ⟨last, run, written⟩ := ih (h.receive hd hr) undone isRest
    refine ⟨last, (run_cons_eq_some _).mpr ⟨next, by simp [machine, hd, hr], run⟩, written.trans accepted⟩

theorem query_log_kept_iff (batchSize : Nat) (steps : List (LogStep E)) (final : QueryLogger E)
    (run : machine.run { batchSize } steps = some final) :
    (final.panicked = false ↔ machine.Obeys BeforeStop { batchSize } steps) ∧
      final.flushed.flatten ++ final.batch ++ final.ch = final.accepted ∧
      (final.stopped = true → final.flushed.flatten = final.accepted) ∧
      (final.done = false → ∃ next, machine.run final (replicate final.ch.length .receive ++ [.flushTick]) = some next ∧
        next.flushed.flatten = final.accepted) := by
  have h : Conserves final :=
    machine.invariant_of_run Conserves (fun _ _ _ => Conserves.step) ⟨rfl, by simp, by simp⟩ run
  refine ⟨by simp [panicked_run run], h.all, fun hs => ?_, flushed_soon h⟩
  obtain ⟨-, batch, ch⟩ := h.drained (h.stopped hs)
  rw [← h.all, batch, ch, append_nil, append_nil]

def threeEntries : List (LogStep Nat) :=
  [.log 1, .log 2, .receive, .log 3, .receive, .stop, .receive, .receive, .stopped]

theorem query_log_kept_at_stop : ∃ final, machine.run { batchSize := 2 } threeEntries = some final ∧
    final.stopped = true ∧ final.flushed = [[1, 2], [3]] ∧ final.flushed.flatten = final.accepted :=
  ⟨_, rfl, rfl, rfl, (query_log_kept_iff 2 threeEntries _ rfl).2.2.1 rfl⟩

theorem log_after_stop_panics : ∃ final : QueryLogger Nat,
    machine.run { batchSize := 2 } [.log 1, .stop, .log 2] = some final ∧ final.panicked = true :=
  ⟨_, rfl, rfl⟩

end Duckgres.Proof.Conn
