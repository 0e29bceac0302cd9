import Duckgres.Proof.Execution.Recovery
import Duckgres.Worker.Statements

namespace Duckgres.Proof.Worker
open Base Base.Stateful Duckgres.Execution Duckgres.Worker Duckgres.Proof.Execution List Option

variable {s : SessionState} {request : StatementRequest} {text : Text}

def isStatement (e : Execution) : Bool := match e.call with
  | .statement _ => true
  | _ => false

structure Sound (log : List Execution) : Prop where
  once : ∀ first again, log.filter isStatement = first :: again → again ≠ [] → first.inTxn = false
  rollback : ∀ e ∈ log, e.call = .rollback → e.inTxn = false

def sentWith (before : Session) : StatementRequest → Option (Option Nat)
  | .getFlightInfoStatement _ txn | .doPutCommandStatementUpdate _ txn | .createPreparedStatement _ txn => some txn
  | .doGetStatement handle | .doGetPreparedStatement handle => (before.queries.find? handle).map QueryHandle.txn
  | _ => none

def begins : StatementRequest → Bool
  | .doPutCommandStatementUpdate query _ => beginsTransaction query.trimSpace.toUpper
  | _ => false

def ends : StatementRequest → Bool
  | .doPutCommandStatementUpdate query _ => isTransactionControlStmt query.trimSpace.toUpper
  | .endTransaction .. => true
  | _ => false

structure Tracked (request : StatementRequest) (e : Execution) : Prop where
  opens : e.answer.inTxn = true → e.inTxn = true ∨
    e.answer.result = .ok () ∧ (e.call = .beginTx ∨ begins request = true)
  closes : ends request = true → e.answer.inTxn = false
  conflict : e.inTxn = true ∨ begins request = true → ∀ err, e.answer.result = .error err →
    isDuckLakeTransactionConflict err = false
  aborted : begins request = true → ∀ err, e.answer.result = .error err → isTransactionAborted err = false

structure Plain (served : Served) : Prop where
  named : sentWith served.before served.request = some none → served.before.txns = []
  notIdle : ∀ txn, served.request ≠ .reapIdle txn
  tracked : ∀ e ∈ served.log, Tracked served.request e

def Believed (session : Session) : Prop := session.inTxn = true → session.sqlTxActive = true ∨ session.txns ≠ []

structure Frame (s : SessionState) (active : Bool) (after : SessionState) : Prop where
  history : after.history = s.history
  txns : after.session.txns = s.session.txns
  active : after.session.sqlTxActive = active

variable {Q : Except Text Unit → SessionState → Prop}

theorem wp_execute {call} : wp (execute call) Q = fun s => ∀ answer : StatementAnswer, Q answer.result
      { s with
        session := { s.session with inTxn := answer.inTxn }
        log := s.log ++ [⟨call, s.session.inTxn, answer⟩] } := by
  simp [execute]

theorem wp_onSession {f : Session → Session} {Q : Unit → SessionState → Prop} :
    wp (onSession f) Q = fun s => Q () { s with session := f s.session } := wp_modify

section Statement
variable (request) (Known : Prop) (start : SessionState) (active : Bool)

def Under (P : SessionState → Prop) (s : SessionState) : Prop :=
  Frame start active s ∧ (Known → (∀ e ∈ s.log, Tracked request e) → P s)

def Idle (s : SessionState) : Prop := (∀ e ∈ s.log, e.inTxn = false) ∧ s.session.inTxn = false

structure First (result : Except Text Unit) (s : SessionState) : Prop where
  idle : ∀ e ∈ s.log, e.inTxn = false
  opened : s.session.inTxn = true → result = .ok () ∧ begins request = true
  logged : ∀ err, result = .error err → ∃ e ∈ s.log, e.answer.result = .error err

theorem under_execute {call} {P : SessionState → Prop} {Q : Except Text Unit → SessionState → Prop}
    (hl : Under request Known start active P s)
    (next : ∀ answer : StatementAnswer, P s → Tracked request ⟨call, s.session.inTxn, answer⟩ → Q answer.result
      { s with
        session := { s.session with inTxn := answer.inTxn }
        log := s.log ++ [⟨call, s.session.inTxn, answer⟩] }) :
    wp (execute call) (fun result => Under request Known start active (Q result)) s := by
  rw [wp_execute]
  refine fun answer => ⟨⟨hl.1.history, hl.1.txns, hl.1.active⟩, fun hk tracked => ?_⟩
  obtain ⟨before, last⟩ := forall_mem_append.mp tracked
  exact next answer (hl.2 hk before) (last _ mem_cons_self)

theorem Idle.logged {call answer} (idle : Idle s) : ∀ e ∈ s.log ++ [⟨call, s.session.inTxn, answer⟩], e.inTxn = false :=
  forall_mem_append.mpr ⟨idle.1, forall_mem_singleton.mpr idle.2⟩

theorem run_idle (hl : Under request Known start active Idle s) :
    wp (execute (.statement text)) (fun result => Under request Known start active (First request result)) s := by
  refine under_execute request Known start active hl fun answer idle own => ⟨idle.logged, ?_, ?_⟩
  · intro ho
    rcases own.opens ho with wasOpen | ⟨ok, isBegin | begun⟩
    · cases idle.2.symm.trans wasOpen
    · cases isBegin
    · exact ⟨ok, begun⟩
  · intro err hfa
    exact ⟨_, mem_append_right _ mem_cons_self, hfa⟩

def Calm (s : SessionState) : Prop := Idle s ∧ begins request = false

theorem execute_calm {call} (notBegin : call ≠ .beginTx) (hl : Under request Known start active (Calm request) s) :
    wp (execute call) (fun _ => Under request Known start active (Calm request)) s := by
  refine under_execute request Known start active hl fun answer calm own => ⟨⟨calm.1.logged, ?_⟩, calm.2⟩
  cases ho : answer.inTxn with
  | false => rfl
  | true =>
    rcases own.opens ho with wasOpen | ⟨-, isBegin | begun⟩
    · cases calm.1.2.symm.trans wasOpen
    · exact absurd isBegin notBegin
    · cases calm.2.symm.trans begun

structure Again (s : SessionState) : Prop where
  first : ∃ e again, s.log = e :: again ∧ e.inTxn = false
  statements : ∀ e ∈ s.log, isStatement e = true
  believed : s.session.inTxn = true → active = true

theorem run_again (stays : active = true ∨ ends request = true)
    (hl : Under request Known start active (Again active) s) :
    wp (execute (.statement text)) (fun _ => Under request Known start active (Again active)) s := by
  refine under_execute request Known start active hl fun answer hl own => ⟨?_, ?_, ?_⟩
  · obtain ⟨e, again, log, closed⟩ := hl.first
    exact ⟨e, again ++ [_], congrArg (· ++ [_]) log, closed⟩
  · exact forall_mem_append.mpr ⟨hl.statements, forall_mem_singleton.mpr rfl⟩
  · intro ho
    rcases stays with active | ended
    · exact active
    · cases ho.symm.trans (own.closes ended)

end Statement

theorem sound_of_idle {log} (idle : ∀ e ∈ log, e.inTxn = false) : Sound log where
  once first again split _ := by
    have hm : first ∈ log.filter isStatement := split ▸ mem_cons_self
    exact idle first (mem_of_mem_filter hm)
  rollback e hm _ := idle e hm

theorem sound_of_statements {e again}
    (statements : ∀ x ∈ e :: again, isStatement x = true) (closed : again ≠ [] → e.inTxn = false) :
    Sound (e :: again) where
  once first later split more := by
    rw [filter_eq_self.mpr statements] at split
    cases split
    exact closed more
  rollback x hm isRollback := by
    have statement := statements x hm
    rw [isStatement, isRollback] at statement
    cases statement

structure Tracks (request : StatementRequest) (track : Except Text Unit → Bool → Bool) : Prop where
  begun : begins request = true → ∀ active, track (.ok ()) active = true
  kept : ∀ result, track result true = true ∨ ends request = true

theorem tracks_id (notBegun : begins request = false) : Tracks request fun _ => id where
  begun begun := by cases notBegun.symm.trans begun
  kept _ := .inl rfl

theorem tracks_track {query txn} :
    Tracks (.doPutCommandStatementUpdate query txn) (trackSQLTransactionState query) := by
  constructor
  · intro begun active
    change beginsTransaction _ = true at begun
    simp [trackSQLTransactionState, begun]
  · intro result
    cases ended : ends (.doPutCommandStatementUpdate query txn) with
    | true => exact .inr rfl
    | false =>
      change isTransactionControlStmt _ = false at ended
      left
      cases result <;> simp [trackSQLTransactionState, ended]

structure Outcome (start after : SessionState) (request : StatementRequest) (hk : Prop) : Prop where
  history : after.history = start.history
  sound : hk → (∀ e ∈ after.log, Tracked request e) → Believed after.session ∧ Sound after.log

variable {after : SessionState} {active : Bool}

theorem outcome_of_calm {hk : Prop}
    (hl : Under request hk s active (Calm request) after) : Outcome s after request hk where
  history := hl.1.history
  sound hk tracked := by
    obtain ⟨⟨idle, closed⟩, -⟩ := hl.2 hk tracked
    refine ⟨fun ho => ?_, sound_of_idle idle⟩
    cases closed.symm.trans ho

theorem outcome_of_again {hk : Prop}
    (hl : Under request hk s active (Again active) after) : Outcome s after request hk where
  history := hl.1.history
  sound hk tracked := by
    obtain ⟨⟨e, again, log, closed⟩, statements, believed⟩ := hl.2 hk tracked
    refine ⟨fun ho => .inl (hl.1.active.trans (believed ho)), ?_⟩
    rw [log] at statements ⊢
    exact sound_of_statements statements fun _ => closed

section Modes
variable {track : Except Text Unit → Bool → Bool} {once : Bool} {hk : Prop}

theorem wp_first (hl : Under request hk s false Idle s) : wp (runFirst once (execute (.statement text)))
      (fun result => Under request hk s false (First request result)) s := by
  unfold runFirst
  split
  · exact run_idle request hk s false hl
  refine wp_retryOnTransient (fun s => run_idle request hk _ false) (fun err s hl => ?_) hl
  refine ⟨hl.1, fun hk tracked => ?_⟩
  obtain ⟨idle, ho, -⟩ := hl.2 hk tracked
  refine ⟨idle, ?_⟩
  cases inTxn : s.session.inTxn with
  | false => rfl
  | true => cases (ho inTxn).1

theorem wp_calm_rest {result} (hl : Under request hk s active (Calm request) after) :
    wp (recovering result true (execute .rollback) (execute (.statement text)))
      (fun _ after => Outcome s after request hk) after := by
  refine wp_imp (wp_recovering hl fun err _ _ _ => ?_) fun _ after => outcome_of_calm
  exact wp_imp (execute_calm request hk s active (by simp) hl) (of_result (fun _ _ hl => hl)
    fun _ _ hl => execute_calm request hk s active (by simp) hl)

theorem wp_failed {err} (hl : Under request hk s active Idle after)
    (logged : hk → (∀ e ∈ after.log, Tracked request e) → ∃ e ∈ after.log, e.answer.result = .error err) :
    wp (retryingConflict (.error err) true (execute (.statement text))) (fun result =>
      wp (recovering result true (execute .rollback) (execute (.statement text)))
        fun _ after => Outcome s after request hk) after := by
  have calm (notBegun : ∀ e : Execution, Tracked request e → e.answer.result = .error err → begins request = false) :
      Under request hk s active (Calm request) after := by
    refine ⟨hl.1, fun hk answers => ⟨hl.2 hk answers, ?_⟩⟩
    obtain ⟨e, hm, hfa⟩ := logged hk answers
    exact notBegun e (answers e hm) hfa
  refine wp_retryingConflict ?_ fun _ hs _ conflict => ?_
  · by_cases aborted : isTransactionAborted err = true
    · refine wp_calm_rest (calm fun e own hfa => ?_)
      cases begun : begins request with
      | false => rfl
      | true => cases aborted.symm.trans (own.aborted begun err hfa)
    · refine wp_recovering ?_ fun _ hs _ isAborted => ?_
      · refine ⟨hl.1.history, fun hk answers => ?_⟩
        obtain ⟨idle, closed⟩ := hl.2 hk answers
        exact ⟨fun ho => (by cases closed.symm.trans ho), sound_of_idle idle⟩
      · cases hs
        exact absurd isAborted aborted
  · cases hs
    have calm := calm fun e own hfa => by
      cases begun : begins request with
      | false => rfl
      | true => cases conflict.symm.trans (own.conflict (.inr begun) err hfa)
    refine wp_imp (wp_retryOnConflict
      (fun s hl => ?_) (fun _ _ => id) (fun _ _ => id) calm)
      fun result after => wp_calm_rest
    exact execute_calm request hk _ active (by simp) hl

theorem wp_outside (clean : s.log = []) (idle : hk → s.session.inTxn = false) (tracks : Tracks request track)
    (hin : s.session.sqlTxActive = false) :
    wp (executeStatement text none once track) (fun _ after => Outcome s after request hk) s := by
  have start : Under request hk s false Idle s := by
    refine ⟨⟨rfl, rfl, hin⟩, fun hk _ => ⟨?_, idle hk⟩⟩
    simp [clean]
  unfold executeStatement
  simp only [wp_bind, wp_get, wp_onSession, hin]
  refine wp_imp (wp_first start) fun result after hl => ?_
  have frame : Frame s (track result false)
      { after with session := { after.session with sqlTxActive := track result after.session.sqlTxActive } } :=
    ⟨hl.1.history, hl.1.txns, congrArg (track result) hl.1.active⟩
  cases result with
  | ok =>
    refine .ret (.ret ⟨frame.history, fun hk answers => ?_⟩)
    obtain ⟨idle, ho, -⟩ := hl.2 hk answers
    exact ⟨fun inTxn => .inl (tracks.begun (ho inTxn).2 _), sound_of_idle idle⟩
  | error err =>
    refine wp_failed ⟨frame, fun hk answers => ?_⟩ fun hk answers => (hl.2 hk answers).logged err rfl
    obtain ⟨idle, ho, -⟩ := hl.2 hk answers
    refine ⟨idle, ?_⟩
    cases inTxn : after.session.inTxn with
    | false => rfl
    | true => cases (ho inTxn).1

theorem wp_refused {result} (hl : Q result s) :
    wp (recovering result false (execute .rollback) (execute (.statement text))) Q s :=
  wp_recovering hl nofun

theorem wp_inside (clean : s.log = []) (tracks : Tracks request track) (active : s.session.sqlTxActive = true) :
    wp (executeStatement text none once track) (fun _ after => Outcome s after request hk) s := by
  unfold executeStatement
  simp only [wp_bind, wp_get, wp_onSession, active, isSome_none, Bool.false_or, Bool.true_or, isNone_none,
    Bool.not_true, runFirst, if_true, wp_execute, clean, nil_append]
  intro answer
  have believed (own : Tracked request ⟨.statement text, s.session.inTxn, answer⟩) (ho : answer.inTxn = true) :
      track answer.result true = true := by
    rcases tracks.kept answer.result with kept | ended
    · exact kept
    · cases ho.symm.trans (own.closes ended)
  refine wp_retryingConflict (wp_refused ?_) fun err hfa _ conflict => ?_
  · refine ⟨rfl, fun _ answers => ?_⟩
    refine ⟨fun ho => .inl (believed (answers _ mem_cons_self) ho), ?_⟩
    exact sound_of_statements (by simp [isStatement]) fun more => absurd rfl more
  have hl : Under request hk s (track answer.result true) (Again (track answer.result true))
      ⟨{ s.session with inTxn := answer.inTxn, sqlTxActive := track answer.result true },
        [⟨.statement text, s.session.inTxn, answer⟩], s.history⟩ := by
    refine ⟨⟨rfl, rfl, rfl⟩, fun _ answers => ?_⟩
    have own := answers _ mem_cons_self
    refine ⟨⟨_, [], rfl, ?_⟩, by simp [isStatement], believed own⟩
    cases inTxn : s.session.inTxn with
    | false => rfl
    | true => cases conflict.symm.trans (own.conflict (.inl inTxn) err hfa)
  refine wp_imp (wp_retryOnConflict
    (fun _ => run_again request hk s _ (tracks.kept _)) (fun _ _ => id) (fun _ _ => id) hl) fun result after hl => ?_
  exact wp_refused (outcome_of_again hl)

theorem wp_named {txn} (clean : s.log = []) (ho : txn ∈ s.session.txns) :
    wp (executeStatement text (some txn) once track) (fun _ after => Outcome s after request hk) s := by
  unfold executeStatement
  simp only [wp_bind, wp_get, wp_onSession, isSome_some, Bool.true_or, isNone_some,
    Bool.not_true, runFirst, if_true, wp_execute, clean, nil_append]
  intro answer
  refine wp_retryingConflict (wp_refused ?_) nofun
  refine ⟨rfl, fun _ _ => ⟨fun _ => .inr (ne_nil_of_mem ho), ?_⟩⟩
  exact sound_of_statements (by simp [isStatement]) fun more => absurd rfl more

end Modes

variable {tx : Option Nat}

structure Known (session : Session) (request : StatementRequest) : Prop where
  believed : Believed session
  named : sentWith session request = some none → session.txns = []

abbrev Handled (s : SessionState) (request : StatementRequest) (after : SessionState) : Prop :=
  Outcome s after request (Known s.session request)

variable {txn : Option Nat}

theorem getOpenTxn_cases {session : Session} (hf : session.getOpenTxn txn = some tx) :
    tx = txn ∧ ∀ key ∈ tx, key ∈ session.txns := by
  cases txn with
  | none =>
    cases hf
    simp
  | some key =>
    obtain ⟨hm, ⟨⟩⟩ := ite_none_right_eq_some.mp hf
    simpa using hm

theorem Outcome.withSession (hl : Handled s request after) {next}
    (inTxn : next.inTxn = after.session.inTxn) (active : next.sqlTxActive = after.session.sqlTxActive)
    (txns : next.txns = after.session.txns) : Handled s request { after with session := next } where
  history := hl.history
  sound hk tracked := by
    obtain ⟨believed, sound⟩ := hl.sound hk tracked
    refine ⟨?_, sound⟩
    unfold Believed
    rw [inTxn, active, txns]
    exact believed

theorem sound_singleton {e} (notRollback : e.call ≠ .rollback) : Sound [e] where
  once first again split more := by
    cases statement : isStatement e <;> simp_all
  rollback x hm isRollback := by
    cases mem_singleton.mp hm
    exact absurd isRollback notRollback

variable {query : Text}

section
variable (clean : s.log = [])
include clean

theorem Handled.quiet : Handled s request s where
  history := rfl
  sound hk _ := ⟨hk.believed, clean ▸ sound_of_idle (by simp)⟩

theorem wp_statement (request : StatementRequest) {once : Bool} {track : Except Text Unit → Bool → Bool}
    (sent : sentWith s.session request = some txn) (hf : s.session.getOpenTxn txn = some tx)
    (tracks : Tracks request track) :
    wp (executeStatement text tx once track) (fun _ => Handled s request) s := by
  obtain ⟨rfl, members⟩ := getOpenTxn_cases hf
  cases tx with
  | some key => exact wp_named clean (members key rfl)
  | none =>
    cases active : s.session.sqlTxActive with
    | true => exact wp_inside clean tracks active
    | false =>
      refine wp_outside clean (fun hk => ?_) tracks active
      cases inTxn : s.session.inTxn with
      | false => rfl
      | true =>
        rcases hk.believed inTxn with believed | hl
        · cases active.symm.trans believed
        · exact absurd (hk.named sent) hl

theorem wp_single (request : StatementRequest) (notBegun : begins request = false) :
    wp (execute (.statement text)) (fun _ => Handled s request) s := by
  rw [wp_execute]
  intro answer
  refine ⟨rfl, fun hk tracked => ?_⟩
  rw [clean] at tracked ⊢
  have own := tracked _ mem_cons_self
  refine ⟨fun ho => ?_, sound_of_statements (by simp [isStatement]) fun more => absurd rfl more⟩
  rcases own.opens ho with wasOpen | ⟨-, isBegin | begun⟩
  · exact hk.believed wasOpen
  · cases isBegin
  · cases notBegun.symm.trans begun

theorem wp_getFlightInfoStatement :
    wp (getFlightInfoStatement query txn) (fun _ => Handled s (.getFlightInfoStatement query txn)) s := by
  unfold getFlightInfoStatement
  simp only [wp_bind, wp_get]
  split
  · simp only [wp_onSession]
    exact (Handled.quiet clean).withSession rfl rfl rfl
  cases hf : s.session.getOpenTxn txn with
  | none => exact .ret (.quiet clean)
  | some tx =>
    rw [wp_bind]
    refine wp_imp (wp_statement clean (.getFlightInfoStatement query txn) rfl hf (tracks_id rfl))
      (of_result (fun _ _ hl => .ret hl) fun _ _ hl => ?_)
    simp only [wp_onSession]
    exact hl.withSession rfl rfl rfl

theorem wp_doGetStatement {handle} : wp (doGetStatement handle) (fun _ => Handled s (.doGetStatement handle)) s := by
  unfold doGetStatement
  simp only [wp_bind, wp_get]
  cases handled : s.session.queries.find? handle with
  | none => exact .ret (.quiet clean)
  | some q =>
    dsimp only
    cases hf : s.session.getOpenTxn q.txn with
    | none => exact .ret (.quiet clean)
    | some tx =>
      simp only [wp_ite, wp_bind]
      split
      · exact .ret (.quiet clean)
      have sent : sentWith s.session (.doGetStatement handle) = some q.txn :=
        congrArg (Option.map QueryHandle.txn) handled
      refine wp_imp (wp_statement clean _ sent hf (tracks_id rfl)) fun result after hl => ?_
      simp only [wp_onSession]
      exact hl.withSession rfl rfl rfl

theorem wp_doPutCommandStatementUpdate : wp (doPutCommandStatementUpdate query txn)
      (fun _ => Handled s (.doPutCommandStatementUpdate query txn)) s := by
  unfold doPutCommandStatementUpdate
  simp only [wp_bind, wp_get]
  cases hf : s.session.getOpenTxn txn with
  | none => exact .ret (.quiet clean)
  | some tx =>
    simp only [wp_ite, wp_bind, wp_pure]
    split
    · exact .quiet clean
    · exact wp_statement clean (.doPutCommandStatementUpdate query txn) rfl hf tracks_track

theorem wp_beginTransaction : wp beginTransaction (fun _ => Handled s .beginTransaction) s := by
  unfold beginTransaction
  simp only [wp_bind, wp_execute, clean]
  intro answer
  cases result : answer.result with
  | ok =>
    rw [wp_onSession]
    exact ⟨rfl, fun _ _ => ⟨fun _ => .inr (by simp), sound_singleton (by simp)⟩⟩
  | error =>
    refine .ret ⟨rfl, fun hk tracked => ⟨fun ho => ?_, sound_singleton (by simp)⟩⟩
    rcases (tracked _ mem_cons_self).opens ho with wasOpen | ⟨ok, -⟩
    · exact hk.believed wasOpen
    · cases result.symm.trans ok

theorem wp_endTransaction {ha} : wp (endTransaction txn ha) (fun _ => Handled s (.endTransaction txn ha)) s := by
  unfold endTransaction
  cases txn with
  | none => exact .ret (.quiet clean)
  | some txn =>
    simp only [wp_bind, wp_get, wp_ite, wp_execute, wp_onSession, wp_pure]
    split
    · intro answer
      rw [clean]
      refine ⟨rfl, fun _ tracked => ⟨fun ho => ?_, sound_singleton (by simp)⟩⟩
      cases ho.symm.trans ((tracked _ mem_cons_self).closes rfl)
    · exact .quiet clean

theorem wp_createPreparedStatement :
    wp (createPreparedStatement query txn) (fun _ => Handled s (.createPreparedStatement query txn)) s := by
  unfold createPreparedStatement
  simp only [wp_bind, wp_get]
  cases s.session.getOpenTxn txn with
  | none => exact .ret (.quiet clean)
  | some tx =>
    simp only [wp_ite, wp_bind]
    split
    · simp only [wp_onSession]
      exact (Handled.quiet clean).withSession rfl rfl rfl
    refine wp_imp (wp_single clean (.createPreparedStatement query txn) rfl)
      (of_result (fun _ _ hl => .ret hl) fun _ _ hl => ?_)
    simp only [wp_onSession]
    exact hl.withSession rfl rfl rfl

theorem wp_doGetPreparedStatement {handle} :
    wp (doGetPreparedStatement handle) (fun _ => Handled s (.doGetPreparedStatement handle)) s := by
  unfold doGetPreparedStatement
  simp only [wp_bind, wp_get]
  cases s.session.queries.find? handle with
  | none => exact .ret (.quiet clean)
  | some q =>
    dsimp only
    cases s.session.getOpenTxn q.txn with
    | none => exact .ret (.quiet clean)
    | some tx =>
      simp only [wp_ite, wp_bind, wp_pure]
      split
      · exact .quiet clean
      · exact wp_single clean (.doGetPreparedStatement handle) rfl

end

theorem wp_reapIdle {txn : Nat} : wp (reapIdle txn) (fun _ after => after.history = s.history) s := by
  unfold reapIdle
  simp only [wp_bind, wp_get, wp_ite, wp_execute, wp_onSession, wp_pure]
  split
  · exact fun _ => rfl
  · rfl

structure Kept (s : SessionState) : Prop where
  clean : s.log = []
  sound : (∀ served ∈ s.history, Plain served) → Believed s.session ∧ ∀ served ∈ s.history, Sound served.log

theorem Kept.serve (kept : Kept s) (handled : Handled s request after) :
    Kept { after with log := [], history := after.history ++ [⟨s.session, request, after.log⟩] } := by
  refine ⟨rfl, fun all => ?_⟩
  obtain ⟨earlier, last⟩ := forall_mem_append.mp all
  have last := last _ mem_cons_self
  rw [handled.history] at earlier ⊢
  obtain ⟨believed, sound⟩ := kept.sound earlier
  obtain ⟨believed, own⟩ := handled.sound ⟨believed, last.named⟩ last.tracked
  refine ⟨believed, forall_mem_append.mpr ⟨sound, fun served hm => ?_⟩⟩
  cases mem_singleton.mp hm
  exact own

theorem wp_handle (clean : s.log = []) (notIdle : ∀ txn, request ≠ .reapIdle txn) :
    wp (handle request) (fun _ => Handled s request) s := by
  cases request with
  | getFlightInfoStatement => exact wp_getFlightInfoStatement clean
  | doGetStatement => exact wp_doGetStatement clean
  | doPutCommandStatementUpdate => exact wp_doPutCommandStatementUpdate clean
  | beginTransaction => exact wp_beginTransaction clean
  | endTransaction => exact wp_endTransaction clean
  | createPreparedStatement => exact wp_createPreparedStatement clean
  | closePreparedStatement =>
    simp only [handle, wp_onSession]
    exact (Handled.quiet clean).withSession rfl rfl rfl
  | doGetPreparedStatement => exact wp_doGetPreparedStatement clean
  | reapIdle txn => exact absurd rfl (notIdle txn)

theorem wp_serve (kept : Kept s) : wp (serve request) (fun _ => Kept) s := by
  unfold serve
  simp only [wp_bind, wp_get, wp_modify]
  by_cases notIdle : ∀ txn, request ≠ .reapIdle txn
  · exact wp_imp (wp_handle kept.clean notIdle) fun _ after => kept.serve
  · obtain ⟨txn, rfl⟩ := Classical.not_forall_not.mp notIdle
    refine wp_imp wp_reapIdle fun _ after history => ⟨rfl, fun all => ?_⟩
    exact absurd rfl ((all _ (mem_append_right _ mem_cons_self)).notIdle txn)

theorem retries_outside_transactions {requests : List StatementRequest}
    (run : Ends (forM requests serve) newSession () s)
    (plain : ∀ served ∈ s.history, Plain served) : ∀ served ∈ s.history, Sound served.log := by
  have start : Kept newSession := ⟨rfl, fun _ => ⟨nofun, by simp [newSession]⟩⟩
  have kept := wp_iff.mp (wp_forM (fun _ _ => wp_serve) requests start) () s run
  exact (kept.sound plain).2

theorem tracked_ok {call inTxn opened} (opens : opened = true → inTxn = true ∨ call = .beginTx ∨ begins request = true)
    (closes : ends request = true → opened = false) : Tracked request ⟨call, inTxn, .ok (), opened⟩ where
  opens ho := (opens ho).imp id fun begun => ⟨rfl, begun⟩
  closes := closes
  conflict _ _ hfa := by cases hfa
  aborted _ _ hfa := by cases hfa

theorem tracked_error {call err} (conflict : isDuckLakeTransactionConflict err = false)
    (aborted : isTransactionAborted err = false) : Tracked request ⟨call, false, .error err, false⟩ where
  opens ho := by cases ho
  closes _ := rfl
  conflict _ _ hfa := by
    cases hfa
    exact conflict
  aborted _ _ hfa := by
    cases hfa
    exact aborted

def insertStatement : StatementRequest := .doPutCommandStatementUpdate "INSERT INTO t VALUES (1)".toList none

def beginStatement : StatementRequest := .doPutCommandStatementUpdate "BEGIN".toList none

theorem retries_outside_transactions_transient :
    ∃ s, Ends (forM [insertStatement, beginStatement, insertStatement] serve) newSession () s ∧
      ∀ served ∈ s.history, Sound served.log := by
  have run : Ends (forM [insertStatement, beginStatement, insertStatement] serve) newSession () _ :=
    .call ⟨.error "Connection refused".toList, false⟩ (.call ⟨.ok (), false⟩ (.call ⟨.ok (), true⟩
      (.call ⟨.ok (), true⟩ .pure)))
  have plain : ends insertStatement = false := by decide
  have begun : begins beginStatement = true := by decide
  have open' : ends beginStatement = false := by decide
  refine ⟨_, run, retries_outside_transactions run ?_⟩
  refine forall_mem_cons.mpr ⟨⟨fun _ => rfl, nofun, ?_⟩, forall_mem_cons.mpr ⟨⟨fun _ => rfl, nofun, ?_⟩,
    forall_mem_cons.mpr ⟨⟨fun _ => rfl, nofun, ?_⟩, nofun⟩⟩⟩
  · exact forall_mem_cons.mpr ⟨tracked_error (by decide) (by decide),
      forall_mem_cons.mpr ⟨tracked_ok (by simp) (by simp), nofun⟩⟩
  · exact forall_mem_cons.mpr ⟨tracked_ok (by simp [begun]) (by simp [open']), nofun⟩
  · exact forall_mem_cons.mpr ⟨tracked_ok (by simp) (by simp [plain]), nofun⟩

theorem statement_rerun_in_transaction : ∃ s, Ends (forM [beginStatement, insertStatement] serve) newSession () s ∧
      ∃ served ∈ s.history, ¬ Sound served.log := by
  refine ⟨_, .call ⟨.ok (), true⟩ (.call ⟨.error "Transaction conflict".toList, true⟩ (.call ⟨.ok (), true⟩ .pure)), _,
    List.mem_cons_of_mem _ List.mem_cons_self, fun sound => ?_⟩
  exact Bool.noConfusion (sound.once _ _ rfl (List.cons_ne_nil _ _))

end Duckgres.Proof.Worker
