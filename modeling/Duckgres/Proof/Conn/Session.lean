import Duckgres.Proof.Conn.Chains
import Duckgres.Proof.Conn.Skipping

/-!
The status byte against DuckDB's session. Apart from transaction commands, a handler has to change
the status only where it sends an error (`Raises`).
-/

namespace Duckgres.Proof.Conn
open Base Base.Stateful Duckgres.Conn Duckgres.Execution List

variable {c d final : ClientConn} {out more : List Backend} {calls others : List Occurrence}

structure Moves (out : List Backend) (calls : List Occurrence) (c d : ClientConn) : Prop where
  sent : d.sent = c.sent ++ out
  log : d.log = c.log ++ calls
  inTxn : d.inTxn = leftBy c.inTxn calls

theorem Moves.called (sent : d.sent = c.sent) (log : d.log = c.log ++ calls) (inTxn : d.inTxn = leftBy c.inTxn calls) :
    Moves [] calls c d :=
  ⟨sent.trans (append_nil _).symm, log, inTxn⟩

theorem Moves.told (sent : d.sent = c.sent ++ out) (log : d.log = c.log) (inTxn : d.inTxn = c.inTxn) :
    Moves out [] c d :=
  ⟨sent, log.trans (append_nil _).symm, inTxn⟩

theorem Moves.refl (c : ClientConn) : Moves [] [] c c := .told (append_nil _).symm rfl rfl

theorem Moves.trans (first : Moves out calls c d) (second : Moves more others d final) :
    Moves (out ++ more) (calls ++ others) c final where
  sent := by rw [second.sent, first.sent, append_assoc]
  log := by rw [second.log, first.log, append_assoc]
  inTxn := by rw [second.inTxn, first.inTxn, leftBy, leftBy, leftBy, foldl_append]

theorem Moves.unique (first : Moves out calls c d) (second : Moves more others c d) : out = more ∧ calls = others :=
  ⟨append_cancel_left (first.sent.symm.trans second.sent), append_cancel_left (first.log.symm.trans second.log)⟩

def callsIn (c d : ClientConn) : List Occurrence := d.log.drop c.log.length

theorem callsIn_of_moves (hv : Moves out calls c d) : callsIn c d = calls := by
  rw [callsIn, hv.log, drop_left]

def Smooth (o : Occurrence) : Prop :=
  match o.call, o.answer with
  | .exec text _, answer => "EXPLAIN ".toList <+: text → ∃ n, Answered.result answer = .ok n
  | .query .., answer => ∀ rows, Answered.result answer = .ok rows → ∀ err, .error err ∉ rows.rows
  | _, _ => True

def Raises (c d : ClientConn) : Prop := ∃ out calls, Moves out calls c d ∧
  ((c.txStatus = .transaction → ∀ o ∈ calls, Smooth o) →
    d.txStatus = if out.any isError then raised c.txStatus else c.txStatus)

theorem raised_raised (status : TxStatus) : raised (raised status) = raised status := by
  cases status <;> rfl

theorem raised_ne (status : TxStatus) : raised status ≠ .transaction := by
  cases status <;> simp [raised]

theorem raised_of_ne {status} (other : status ≠ .transaction) : raised status = status := by
  cases status with
  | transaction => exact absurd rfl other
  | _ => rfl

instance : Chained Raises where
  refl c := ⟨[], [], .refl c, fun _ => rfl⟩
  trans := by
    intro c d final ⟨out, calls, moves, status⟩ ⟨more, others, movesMore, statusMore⟩
    refine ⟨out ++ more, calls ++ others, moves.trans movesMore, fun smooth => ?_⟩
    have before := status fun inTransaction o hm => smooth inTransaction o (mem_append_left _ hm)
    have after := statusMore fun inTransaction o hm => by
      refine smooth ?_ o (mem_append_right _ hm)
      rw [before] at inTransaction
      split at inTransaction
      · exact absurd inTransaction (raised_ne _)
      · exact inTransaction
    rw [after, before, any_append]
    cases out.any isError <;> cases more.any isError <;> simp [raised_raised]
  message m c plain := ⟨[m], [], .told rfl rfl rfl, fun _ => by simp [plain]⟩
  calls := by
    rintro c _ ⟨calls, rfl⟩
    exact ⟨[], calls, .called rfl rfl rfl, fun _ => rfl⟩
  error code message c _ := ⟨[.errorResponse code message], [], .told rfl rfl rfl, fun _ => rfl⟩
  silent c d sent log inTxn status := by
    refine ⟨[], [], ⟨?_, ?_, inTxn⟩, fun _ => status⟩
    · rw [sent, append_nil]
    · rw [log, append_nil]

theorem Calls.raises (made : Calls c d) : Raises c d := Chained.calls c d made

variable {code : String} {message text : Text} {α : Type} {x : Handler α} {cmdType : CommandType}

theorem error_moves : wp (do sendError code message; setTxError)
    (fun _ d => Moves [.errorResponse code message] [] c d ∧ d.txStatus = raised c.txStatus) c := by
  unfold sendError send setTxError
  simp only [wp_bind, wp_modify]
  refine ⟨⟨?_, ?_, ?_⟩, ?_⟩
  all_goals
    split
    all_goals simp_all [raised, leftBy]

theorem raises_error : Leads Raises (do sendError code message; setTxError) := fun _ =>
  wp_imp error_moves fun _ _ ⟨hv, status⟩ => ⟨_, _, hv, fun _ => by simpa [isError] using status⟩

theorem raises_sendStatementError {err} : Leads Raises (sendStatementError err) :=
  .seq calls_isCallerCancellation.leads fun _ => raises_error

theorem raises_then (sofar : Raises c d) (rest : Leads Raises x) : wp x (fun _ => Raises c) d :=
  wp_imp (rest d) fun _ _ => IsTrans.trans _ _ _ sofar

/-! ## Errors that leave the status -/

def Moved (c d : ClientConn) : Prop :=
  ∃ out calls, Moves out calls c d ∧ (c.txStatus ≠ .transaction → d.txStatus = c.txStatus)

theorem Raises.moved (raises : Raises c d) : Moved c d := by
  obtain ⟨out, calls, hv, status⟩ := raises
  refine ⟨out, calls, hv, fun outside => ?_⟩
  rw [status fun inTransaction => absurd inTransaction outside, raised_of_ne outside, ite_self]

instance : Chained Moved where
  refl c := ⟨[], [], .refl c, fun _ => rfl⟩
  trans := by
    intro c d final ⟨out, calls, moves, status⟩ ⟨more, others, movesMore, statusMore⟩
    refine ⟨out ++ more, calls ++ others, moves.trans movesMore, fun outside => ?_⟩
    have before := status outside
    rw [statusMore (before ▸ outside), before]
  message m c plain := (Messages.message m c plain : Raises c _).moved
  calls c d made := (Chained.calls c d made : Raises c d).moved
  error code message c other := (Chained.error code message c other : Raises c _).moved
  silent c d sent log inTxn status := (Messages.silent c d sent log inTxn status : Raises c d).moved

theorem Moved.raises (moved : Moved c d) (outside : c.txStatus ≠ .transaction) : Raises c d := by
  obtain ⟨out, calls, hv, status⟩ := moved
  refine ⟨out, calls, hv, fun _ => ?_⟩
  rw [status outside, raised_of_ne outside, ite_self]

theorem moved_of_raises (raises : Leads Raises x) : Leads Moved x := fun c =>
  wp_imp (raises c) fun _ _ raises => raises.moved

theorem moved_sendError : Leads Moved (sendError code message) :=
  .update fun _ => ⟨[.errorResponse code message], [], .told rfl rfl rfl, fun _ => rfl⟩

theorem refused_raises (outside : c.txStatus ≠ .transaction) (sofar : Raises c d)
    (hv : Leads Moved x) : wp x (fun _ => Raises c) d :=
  wp_imp (hv d) fun _ _ moved => Moved.raises (IsTrans.trans _ _ _ sofar.moved moved) outside

def Rough (c d : ClientConn) : Prop := ∃ out calls, Moves out calls c d ∧
  (c.txStatus ≠ .transaction → d.txStatus = c.txStatus) ∧ ∃ o ∈ calls, ¬Smooth o

theorem Rough.raises (rough : Rough c d) : Raises c d := by
  obtain ⟨out, calls, hv, status, o, hm, bumpy⟩ := rough
  refine ⟨out, calls, hv, fun smooth => ?_⟩
  have outside : c.txStatus ≠ .transaction := fun inTransaction => bumpy (smooth inTransaction o hm)
  rw [status outside, raised_of_ne outside, ite_self]

theorem rough_then (rough : Rough c d) (hv : Leads Moved x) : wp x (fun _ => Raises c) d := by
  refine wp_imp (hv d) fun _ final ⟨more, others, hvm, statusMore⟩ => Rough.raises ?_
  obtain ⟨out, calls, hv, status, o, hm, bumpy⟩ := rough
  refine ⟨out ++ more, calls ++ others, hv.trans hvm, fun outside => ?_, o, mem_append_left _ hm, bumpy⟩
  have before := status outside
  rw [statusMore (before ▸ outside), before]

theorem rough_of_calls {o} (made : d = { c with inTxn := leftBy c.inTxn calls, log := c.log ++ calls })
    (hm : o ∈ calls) (bumpy : ¬Smooth o) : Rough c d := by
  subst made
  exact ⟨[], calls, .called rfl rfl rfl, fun _ => rfl, o, hm, bumpy⟩

theorem validated_rough {result} :
    wp (validated result text) (fun verdict d => Calls c d ∧ ∀ err, verdict = .error err → Rough c d) c := by
  have legal : Calls c c ∧ ∀ err, (.ok () : Except Text Unit) = .error err → Rough c c := ⟨.refl c, nofun⟩
  unfold validated
  split
  · unfold validateWithDuckDB
    split
    · exact .ret legal
    split
    · exact .ret legal
    split
    · exact .ret legal
    unfold exec perform
    simp only [wp_bind, wp_call, wp_pure]
    intro answer
    have made := calls_kept (.exec ("EXPLAIN ".toList ++ text) []) answer c (.refl c)
    split
    · rename_i err hfa
      refine .ret ⟨made, fun _ _ => ?_⟩
      refine ⟨[], [⟨_, answer⟩], .called rfl rfl rfl, fun _ => rfl, _, mem_singleton_self _, ?_⟩
      intro smooth
      obtain ⟨n, worked⟩ := smooth (prefix_append _ _)
      cases hfa.symm.trans worked
    · exact .ret ⟨made, nofun⟩
  · exact .ret legal

theorem query_rough {args} (made : Calls c d) : wp (query text args) (fun result d => Calls c d ∧
      ∀ rows err, result = .ok rows → .error err ∈ rows.rows → Rough c d) d := by
  obtain ⟨calls, made⟩ := made
  unfold query perform
  simp only [wp_bind, wp_call, wp_pure]
  intro answer
  refine ⟨⟨_, note_eq made⟩, fun rows err answered unscanned => ?_⟩
  exact rough_of_calls (note_eq made) (mem_append_right _ (mem_singleton_self _)) fun smooth =>
    smooth rows answered err unscanned

theorem recovered_query_rough {args} : wp (recovered (query text args)) (fun result d => Calls c d ∧
      ∀ rows err, result = .ok rows → .error err ∈ rows.rows → Rough c d) c :=
  wp_recovered_of (fun _ => query_rough) (fun _ _ hl => hl.1)
    (fun _ _ made => ⟨made, nofun⟩) (fun _ _ => calls_rollback calls_kept) (.refl c)

def isTransactionCommand : CommandType → Bool
  | .begin | .commit | .rollback => true
  | _ => false

theorem raises_updateTxStatus (other : isTransactionCommand cmdType = false) :
    Leads Raises (updateTxStatus cmdType) := by
  cases cmdType with
  | begin => cases other
  | commit => cases other
  | rollback => cases other
  | _ => exact leads_silent fun _ => ⟨rfl, rfl, rfl, rfl⟩

theorem sendRows_scans {formats oids rows rowCount} :
    wp (sendRows formats oids rows rowCount) (fun result _ => ∀ err, result = .error err → .error err ∈ rows) c := by
  induction rows generalizing c rowCount with
  | nil => exact .ret nofun
  | cons row rows ih =>
    cases row with
    | error => exact .ret fun _ hs => by cases hs; exact mem_cons_self
    | ok =>
      unfold sendRows send
      simp only [wp_bind, wp_modify]
      exact wp_imp ih fun _ _ scans err hfa => mem_cons_of_mem _ (scans err hfa)

section
variable (other : isTransactionCommand cmdType = false)
include other

theorem raises_execStatement {run finish} (runs : OnlyCalls run)
    (finishes : Leads Raises finish) : Leads Raises (execStatement cmdType run finish) := by
  refine .seq .read fun c => ?_
  split
  · rename_i nested
    rw [nested.1] at other
    cases other
  refine .seq (calls_recovered runs).leads fun result => ?_
  cases result with
  | error => exact .seq raises_sendStatementError fun _ => .seq finishes fun _ => .ret
  | ok =>
    exact .seq (raises_updateTxStatus other) fun _ => .seq (leads_send rfl) fun _ => .seq finishes fun _ => .ret

theorem raises_executeSelectQuery :
    Leads Raises (executeSelectQuery text cmdType) := by
  refine .seq leads_recovered_query
    (of_result (fun _ => leads_ended raises_sendStatementError leads_readyForQuery) fun _ => ?_)
  dsimp only
  split
  · exact leads_ended leads_sendPlainError leads_readyForQuery
  refine .seq (leads_send rfl) fun _ => .seq leads_sendRows
    (of_result (fun _ => leads_ended leads_sendPlainError leads_readyForQuery) fun _ => ?_)
  dsimp only
  split
  · exact leads_ended leads_sendIterationError leads_readyForQuery
  · exact .seq (raises_updateTxStatus other) fun _ => leads_ended (leads_send rfl) leads_readyForQuery

theorem raises_batchSelect :
    Leads Raises (batchSelect text cmdType) := by
  intro c
  refine wp_seq recovered_query_rough
    (of_result (fun _ _ ⟨made, _⟩ => raises_then made.raises (.seq raises_sendStatementError fun _ => .ret))
      fun rows d ⟨made, rough⟩ => ?_)
  dsimp only
  split
  · exact raises_then made.raises (.seq leads_sendPlainError fun _ => .ret)
  by_cases unscanned : ∃ err, .error err ∈ rows.rows
  · obtain ⟨err, unscanned⟩ := unscanned
    refine rough_then (rough rows err rfl unscanned) ?_
    refine .seq (moved_of_raises (leads_send rfl)) fun _ => .seq (moved_of_raises leads_sendRows) fun result => ?_
    cases result with
    | error => exact .seq moved_sendError fun _ => .ret
    | ok =>
      exact moved_of_raises (.seq (raises_updateTxStatus other) fun _ => .seq (leads_send rfl) fun _ => .ret)
  · refine raises_then made.raises (.seq (leads_send rfl) fun _ d => ?_)
    refine wp_seq (wp_and (leads_sendRows (R := Raises) d) sendRows_scans) fun result final ⟨sofar, scans⟩ => ?_
    cases result with
    | error err => exact absurd ⟨err, scans err rfl⟩ unscanned
    | ok =>
      exact raises_then sofar (.seq (raises_updateTxStatus other) fun _ => .seq (leads_send rfl) fun _ => .ret)

end

end Duckgres.Proof.Conn
