import Duckgres.Ingress.Statements
import Duckgres.Proof.Execution.Recovery

namespace Duckgres.Proof.Ingress
open Base Base.Stateful Duckgres.Execution Duckgres.Ingress Duckgres.Proof.Execution List

variable {s after : IngressState} {call : ExecutorCall} {rpc : StatementRpc} {text : Text}

def sentWith (before : StatementSession) : StatementRpc → Option (Option Nat)
  | .getFlightInfoStatement _ txn | .doPutCommandStatementUpdate _ txn | .createPreparedStatement _ txn => some txn
  | .doGetStatement handle | .doGetPreparedStatement handle => (before.queries.find? handle).map StatementHandle.txn
  | _ => none

/-- The recovery runs while no transaction is open: what it rolls back and runs again is the first call. -/
structure Recovers (log : List WorkerExecution) : Prop where
  again : ∀ first more, log = first :: more → more ≠ [] → first.inTxn = false
  rollback : ∀ e ∈ log, e.call = .rollback → e.inTxn = false

structure Apart (served : ServedRpc) : Prop where
  recovers : Recovers served.log
  outside : sentWith served.before served.rpc = some none → ∀ e ∈ served.log, e.flightTxn = false

structure Regular (e : WorkerExecution) : Prop where
  fails : ∀ err, e.answer.result = .error err → e.answer.began = false ∧ (e.answer.inTxn = true → e.inTxn = true)
  closes : ∀ ha, e.call = .finish ha → e.answer.result = .ok () ∨ ha = .unspecified → e.answer.inTxn = false
  -- the client's own transactions do not abort
  aborted : e.inTxn = true → e.flightTxn = false → ∀ err, e.answer.result = .error err →
    isTransactionAborted err = false

structure Ordered (served : ServedRpc) : Prop where
  named : sentWith served.before served.rpc = some none → served.before.activeTxn = false
  regular : ∀ e ∈ served.log, Regular e

variable {Q : Except Text Unit → IngressState → Prop}

theorem wp_callExecutor :
    wp (callExecutor call) Q = fun s => ∀ answer : WorkerAnswer, Q answer.result (s.note call answer) := by
  simp [callExecutor]

theorem wp_onSession {f : StatementSession → StatementSession} {Q : Unit → IngressState → Prop} :
    wp (onSession f) Q = fun s => Q () { s with session := f s.session } := wp_modify

def Flagged (s : IngressState) : Prop := s.flightTxn = true → s.session.activeTxn = true

theorem Flagged.off (flagged : Flagged s) (hin : s.session.activeTxn = false) : s.flightTxn = false := by
  cases on : s.flightTxn with
  | false => rfl
  | true => cases hin.symm.trans (flagged on)

variable {answer : WorkerAnswer} {txn : Option Nat} {ha : EndTransactionAction}

theorem begin_of_note (off : s.flightTxn = false)
    (on : (s.note call answer).flightTxn = true) : call = .begin ∧ answer.began = true := by
  unfold IngressState.note at on
  grind

structure Unflagged (start : IngressState) (call : ExecutorCall) (result : Except Text Unit)
    (s : IngressState) : Prop where
  session : s.session = start.session
  history : s.history = start.history
  regular : start.flightTxn = false → (∀ e ∈ s.log, Regular e) → Recovers s.log ∧ (∀ e ∈ s.log, e.flightTxn = false) ∧
    (s.flightTxn = true → call = .begin ∧ result = .ok ())

theorem begun_of_note (off : s.flightTxn = false)
    (regular : Regular ⟨call, s.inTxn, s.flightTxn, answer⟩) (on : (s.note call answer).flightTxn = true) :
    call = .begin ∧ answer.result = .ok () := by
  obtain ⟨isBegin, began⟩ := begin_of_note off on
  refine ⟨isBegin, ?_⟩
  cases result : answer.result with
  | ok => rfl
  | error err => cases began.symm.trans (regular.fails err result).1

theorem recovers_of_first {first more} (idle : first.inTxn = false)
    (rollback : ∀ e ∈ first :: more, e.call = .rollback → e.inTxn = false) : Recovers (first :: more) where
  again _ _ split _ := by
    cases split
    exact idle
  rollback := rollback

theorem recovers_singleton {e} (other : e.call ≠ .rollback) : Recovers [e] where
  again _ _ split more := by
    cases split
    exact absurd rfl more
  rollback _ hm isRollback := by
    cases mem_singleton.mp hm
    exact absurd isRollback other

theorem wp_unflagged (clean : s.log = []) (other : call ≠ .rollback) :
    wp (withRecoveryLocked call) (Unflagged s call) s := by
  unfold withRecoveryLocked
  simp only [wp_bind, wp_callExecutor, wp_get]
  intro answer
  have log : (s.note call answer).log = [⟨call, s.inTxn, s.flightTxn, answer⟩] := congrArg (· ++ _) clean
  refine wp_recovering ?_ fun err hfa _ aborted => ?_
  · refine ⟨rfl, rfl, ?_⟩
    rw [log]
    intro off regular
    have own := regular _ mem_cons_self
    exact ⟨recovers_singleton other, by simp [off], begun_of_note off own⟩
  · -- the first call failed in no transaction, so that none is open when the recovery begins
    have idle (off : s.flightTxn = false) (own : Regular ⟨call, s.inTxn, s.flightTxn, answer⟩) :
        s.inTxn = false ∧ answer.inTxn = false ∧ (s.note call answer).flightTxn = false := by
      have before : s.inTxn = false := by
        cases inTxn : s.inTxn with
        | false => rfl
        | true => cases aborted.symm.trans (own.aborted inTxn off err hfa)
      have later : answer.inTxn = false := by
        cases inTxn : answer.inTxn with
        | false => rfl
        | true => cases before.symm.trans ((own.fails err hfa).2 inTxn)
      exact ⟨before, later, by simp [IngressState.note, later]⟩
    rw [wp_callExecutor]
    intro rolled
    have log : ((s.note call answer).note .rollback rolled).log =
        [⟨call, s.inTxn, s.flightTxn, answer⟩, ⟨.rollback, answer.inTxn, (s.note call answer).flightTxn, rolled⟩] :=
      congrArg (· ++ _) log
    have stillOff (off : (s.note call answer).flightTxn = false) :
        ((s.note call answer).note .rollback rolled).flightTxn = false := by
      rw [← Bool.not_eq_true]
      intro on
      cases (begin_of_note off on).1
    cases rolledBack : rolled.result with
    | error =>
      refine ⟨rfl, rfl, ?_⟩
      rw [log]
      intro off regular
      obtain ⟨before, later, offLater⟩ := idle off (regular _ mem_cons_self)
      refine ⟨recovers_of_first before ?_, ?_, fun on => ?_⟩
      · simp [later, other]
      · simp [off, offLater]
      · cases on.symm.trans (stillOff offLater)
    | ok =>
      rw [wp_callExecutor]
      intro retried
      have log : (((s.note call answer).note .rollback rolled).note call retried).log = _ := congrArg (· ++ _) log
      refine ⟨rfl, rfl, ?_⟩
      rw [log]
      intro off regular
      obtain ⟨before, later, offLater⟩ := idle off (regular _ mem_cons_self)
      have last := regular _ (mem_append_right _ mem_cons_self)
      refine ⟨recovers_of_first before ?_, ?_, begun_of_note (stillOff offLater) last⟩
      · simp [later, other]
      · simp [off, offLater, stillOff offLater]

theorem wp_flagged (active : s.session.activeTxn = true)
    (once : ∀ answer : WorkerAnswer, Q answer.result (s.note call answer)) : wp (withRecoveryLocked call) Q s := by
  unfold withRecoveryLocked
  simp only [wp_bind, wp_callExecutor, wp_get]
  intro answer
  refine wp_recovering (once answer) fun err hfa may => ?_
  change (!s.session.activeTxn) = true at may
  rw [active] at may
  cases may

structure Handled (s : IngressState) (rpc : StatementRpc) (after : IngressState) : Prop where
  history : after.history = s.history
  kept : Flagged s → Ordered ⟨s.session, rpc, after.log⟩ → Flagged after ∧ Apart ⟨s.session, rpc, after.log⟩

theorem Handled.withSession (handled : Handled s rpc after) {next}
    (active : next.activeTxn = after.session.activeTxn) : Handled s rpc { after with session := next } where
  history := handled.history
  kept flagged ordered := by
    obtain ⟨flagged, hne⟩ := handled.kept flagged ordered
    refine ⟨fun on => ?_, hne⟩
    rw [active]
    exact flagged on

section
variable (clean : s.log = [])
include clean

theorem Handled.quiet : Handled s rpc s where
  history := rfl
  kept flagged _ := by
    rw [clean]
    exact ⟨flagged, ⟨by simp, by simp⟩, by simp⟩

theorem wp_statement (call : ExecutorCall) (rpc : StatementRpc) (other : call ≠ .rollback) (notBegin : call ≠ .begin) :
    wp (withRecoveryLocked call) (fun _ => Handled s rpc) s := by
  cases active : s.session.activeTxn with
  | true =>
    refine wp_flagged active fun answer => ⟨rfl, fun _ ordered => ⟨fun _ => active, ?_, fun unnamed => ?_⟩⟩
    · change Recovers (s.log ++ _)
      rw [clean]
      exact recovers_singleton other
    · cases active.symm.trans (ordered.named unnamed)
  | false =>
    refine wp_imp (wp_unflagged clean other) fun result after unflagged => ⟨unflagged.history, ?_⟩
    intro flagged ordered
    obtain ⟨recovers, outside, begun⟩ := unflagged.regular (flagged.off active) ordered.regular
    exact ⟨fun on => absurd (begun on).1 notBegin, recovers, fun _ => outside⟩

theorem wp_query (rpc : StatementRpc) : wp (query text) (fun _ => Handled s rpc) s := by
  unfold query
  split
  · exact .ret (.quiet clean)
  · exact wp_statement clean (.query text) rpc (by simp) (by simp)

theorem wp_prepare {prepared} (rpc : StatementRpc) : wp (prepare prepared text txn) (fun _ => Handled s rpc) s := by
  unfold prepare
  simp only [wp_bind, wp_get]
  cases s.session.getOpenTxn txn with
  | none => exact .ret (.quiet clean)
  | some txn =>
    simp only [wp_ite, wp_bind, wp_onSession]
    split
    · exact (Handled.quiet clean).withSession rfl
    have schema : wp (getQuerySchema text) (fun _ => Handled s rpc) s := by
      unfold getQuerySchema
      split
      · exact wp_query clean rpc
      · exact .ret (.quiet clean)
    refine wp_imp schema (of_result (fun _ _ handled => .ret handled) fun _ _ handled => ?_)
    rw [wp_onSession]
    exact handled.withSession rfl

theorem wp_doGetStatement {handle} : wp (doGetStatement handle) (fun _ => Handled s (.doGetStatement handle)) s := by
  unfold doGetStatement
  simp only [wp_bind, wp_get]
  cases s.session.queries.find? handle with
  | none => exact .ret (.quiet clean)
  | some q =>
    dsimp only
    cases s.session.getOpenTxn q.txn with
    | none => exact .ret (.quiet clean)
    | some txn =>
      rw [wp_bind]
      refine wp_imp (wp_query clean (.doGetStatement handle)) (of_result (fun _ _ handled => .ret handled)
        fun _ _ handled => ?_)
      rw [wp_onSession]
      exact handled.withSession rfl

theorem wp_doGetPreparedStatement {handle} :
    wp (doGetPreparedStatement handle) (fun _ => Handled s (.doGetPreparedStatement handle)) s := by
  unfold doGetPreparedStatement
  simp only [wp_bind, wp_get]
  cases s.session.queries.find? handle with
  | none => exact .ret (.quiet clean)
  | some q =>
    dsimp only
    cases s.session.getOpenTxn q.txn with
    | none => exact .ret (.quiet clean)
    | some txn =>
      simp only [wp_bind, wp_pure]
      exact wp_query clean _

theorem wp_doPutCommandStatementUpdate :
    wp (doPutCommandStatementUpdate text txn) (fun _ => Handled s (.doPutCommandStatementUpdate text txn)) s := by
  unfold doPutCommandStatementUpdate
  simp only [wp_bind, wp_get]
  cases s.session.getOpenTxn txn with
  | none => exact .ret (.quiet clean)
  | some txn =>
    simp only [wp_bind, wp_pure]
    unfold exec
    split
    · exact .ret (.quiet clean)
    · exact wp_statement clean (.exec text) _ (by simp) (by simp)

theorem wp_beginTransaction : wp beginTransaction (fun _ => Handled s .beginTransaction) s := by
  unfold beginTransaction
  simp only [wp_bind, wp_get, wp_ite]
  split
  · exact .ret (.quiet clean)
  rename_i hin
  rw [Bool.not_eq_true] at hin
  refine wp_imp (wp_unflagged clean (by simp)) fun result after unflagged => ?_
  cases result with
  | error =>
    refine .ret ⟨unflagged.history, fun flagged ordered => ?_⟩
    obtain ⟨recovers, outside, begun⟩ := unflagged.regular (flagged.off hin) ordered.regular
    exact ⟨fun on => (by cases (begun on).2), recovers, fun _ => outside⟩
  | ok =>
    rw [wp_onSession]
    refine ⟨unflagged.history, fun flagged ordered => ⟨fun _ => rfl, ?_⟩⟩
    obtain ⟨recovers, outside, -⟩ := unflagged.regular (flagged.off hin) ordered.regular
    exact ⟨recovers, fun _ => outside⟩

theorem handled_finish {next} (closed : answer.result = .ok () ∨ ha = .unspecified) :
    Handled s (.endTransaction txn ha) { s.note (.finish ha) answer with session := next } where
  history := rfl
  kept _ ordered := by
    change Flagged _ ∧ Apart ⟨_, _, s.log ++ _⟩
    have own := ordered.regular _ (mem_append_right _ mem_cons_self)
    have later : answer.inTxn = false := own.closes ha rfl closed
    rw [clean]
    refine ⟨fun on => ?_, recovers_singleton (by simp), nofun⟩
    change (answer.inTxn && _) = true at on
    rw [later] at on
    cases on

theorem wp_finish {txn : Nat} {rest : Except Text Unit → IngressHandler Unit} (active : s.session.activeTxn = true)
    (done : rest (.ok ()) = onSession fun session => session.deleteTxn txn) (hfa : ∀ err, rest (.error err) = pure ()) :
    wp (withRecoveryLocked (.finish ha) >>= rest) (fun _ => Handled s (.endTransaction (some txn) ha)) s := by
  rw [wp_bind]
  refine wp_flagged active fun answer => ?_
  cases result : answer.result with
  | ok =>
    rw [done, wp_onSession]
    exact handled_finish clean (.inl result)
  | error =>
    rw [hfa]
    refine .ret ⟨rfl, fun _ _ => ⟨fun _ => active, ?_, nofun⟩⟩
    change Recovers (s.log ++ _)
    rw [clean]
    exact recovers_singleton (by simp)

theorem wp_endTransaction : wp (endTransaction txn ha) (fun _ => Handled s (.endTransaction txn ha)) s := by
  unfold endTransaction
  cases txn with
  | none => exact .ret (.quiet clean)
  | some txn =>
    rw [wp_bind, wp_get]
    dsimp only
    split
    · exact .ret (.quiet clean)
    rename_i refused
    have active : s.session.activeTxn = true := by
      cases active : s.session.activeTxn with
      | true => rfl
      | false => simp [active] at refused
    cases ha with
    | unspecified =>
      simp only [wp_bind, wp_callExecutor, wp_onSession]
      exact fun answer => handled_finish clean (.inr rfl)
    | commit | rollback => exact wp_finish clean active rfl fun _ => rfl

theorem wp_handleRpc : wp (handleRpc rpc) (fun _ => Handled s rpc) s := by
  cases rpc with
  | getFlightInfoStatement => exact wp_prepare clean _
  | doGetStatement => exact wp_doGetStatement clean
  | doPutCommandStatementUpdate => exact wp_doPutCommandStatementUpdate clean
  | beginTransaction => exact wp_beginTransaction clean
  | endTransaction => exact wp_endTransaction clean
  | createPreparedStatement => exact wp_prepare clean _
  | closePreparedStatement =>
    rw [handleRpc, wp_onSession]
    exact (Handled.quiet clean).withSession rfl
  | doGetPreparedStatement => exact wp_doGetPreparedStatement clean

end

structure Kept (s : IngressState) : Prop where
  clean : s.log = []
  apart : (∀ served ∈ s.history, Ordered served) → Flagged s ∧ ∀ served ∈ s.history, Apart served

theorem wp_serveRpc (kept : Kept s) : wp (serveRpc rpc) (fun _ => Kept) s := by
  unfold serveRpc
  simp only [wp_bind, wp_get, wp_modify]
  refine wp_imp (wp_handleRpc kept.clean) fun _ after handled => ⟨rfl, fun ordered => ?_⟩
  obtain ⟨earlier, last⟩ := forall_mem_append.mp ordered
  rw [handled.history] at earlier ⊢
  obtain ⟨flagged, hne⟩ := kept.apart earlier
  obtain ⟨flagged, own⟩ := handled.kept flagged (last _ mem_cons_self)
  refine ⟨flagged, forall_mem_append.mpr ⟨hne, fun served hm => ?_⟩⟩
  cases mem_singleton.mp hm
  exact own

theorem recovery_outside_transactions {rpcs : List StatementRpc}
    (run : Ends (forM rpcs serveRpc) newFlightClientSession () s) (ordered : ∀ served ∈ s.history, Ordered served) :
    ∀ served ∈ s.history, Apart served := by
  have start : Kept newFlightClientSession :=
    ⟨rfl, fun _ => ⟨nofun, by simp [newFlightClientSession]⟩⟩
  have kept := wp_iff.mp (wp_forM (fun _ _ => wp_serveRpc) rpcs start) () s run
  exact (kept.apart ordered).2

theorem regular_ok {call} {inTxn flightTxn later began}
    (closes : ∀ ha, call = .finish ha → later = false) :
    Regular ⟨call, inTxn, flightTxn, .ok (), later, began⟩ where
  fails _ hfa := by cases hfa
  closes ha finish _ := closes ha finish
  aborted _ _ _ hfa := by cases hfa

def insertText : Text := "INSERT INTO t VALUES (1)".toList

def abortedText : Text := "Current transaction is aborted".toList

def retriedRpcs : List StatementRpc :=
  [.doPutCommandStatementUpdate insertText none, .beginTransaction, .doPutCommandStatementUpdate insertText (some 1),
    .endTransaction (some 1) .commit]

theorem recovery_outside_transactions_retried :
    ∃ s, Ends (forM retriedRpcs serveRpc) newFlightClientSession () s ∧ ∀ served ∈ s.history, Apart served := by
  have run : Ends (forM retriedRpcs serveRpc) newFlightClientSession () _ :=
    .call ⟨.error abortedText, false, false⟩ (.call ⟨.ok (), false, false⟩ (.call ⟨.ok (), false, false⟩
      (.call ⟨.ok (), true, true⟩ (.call ⟨.ok (), true, false⟩ (.call ⟨.ok (), false, false⟩ .pure)))))
  have failing : Regular ⟨.exec insertText, false, false, .error abortedText, false, false⟩ :=
    ⟨fun _ _ => ⟨rfl, id⟩, nofun, nofun⟩
  refine ⟨_, run, recovery_outside_transactions run ?_⟩
  refine forall_mem_cons.mpr ⟨⟨fun _ => rfl, ?_⟩, forall_mem_cons.mpr ⟨⟨nofun, ?_⟩, forall_mem_cons.mpr ⟨⟨nofun, ?_⟩,
    forall_mem_cons.mpr ⟨⟨nofun, ?_⟩, nofun⟩⟩⟩⟩
  · exact forall_mem_cons.mpr ⟨failing, forall_mem_cons.mpr ⟨regular_ok fun _ _ => rfl,
      forall_mem_cons.mpr ⟨regular_ok fun _ _ => rfl, nofun⟩⟩⟩
  · exact forall_mem_cons.mpr ⟨regular_ok nofun, nofun⟩
  · exact forall_mem_cons.mpr ⟨regular_ok nofun, nofun⟩
  · exact forall_mem_cons.mpr ⟨regular_ok fun _ _ => rfl, nofun⟩

theorem recovery_in_sql_transaction :
    (∃ s, Ends (forM [.doPutCommandStatementUpdate "BEGIN".toList none, .doPutCommandStatementUpdate insertText none]
        serveRpc) newFlightClientSession () s ∧ ∃ served ∈ s.history, ¬ Recovers served.log) ∧
    ∃ s, Ends (forM [.beginTransaction, .doPutCommandStatementUpdate insertText none] serveRpc)
        newFlightClientSession () s ∧ ∃ served ∈ s.history, ¬ Apart served := by
  constructor
  · refine ⟨_, .call ⟨.ok (), true, true⟩ (.call ⟨.error abortedText, true, false⟩ (.call ⟨.ok (), false, false⟩
      (.call ⟨.ok (), false, false⟩ .pure))), _, List.mem_cons_of_mem _ List.mem_cons_self, fun recovers => ?_⟩
    cases recovers.again _ _ rfl (List.cons_ne_nil _ _)
  · refine ⟨_, .call ⟨.ok (), true, true⟩ (.call ⟨.ok (), true, false⟩ .pure), _,
      List.mem_cons_of_mem _ List.mem_cons_self, fun hne => ?_⟩
    cases hne.outside rfl _ List.mem_cons_self

end Duckgres.Proof.Ingress
