import Duckgres.Proof.Conn.Order

namespace Duckgres.Proof.Conn
open Base Base.Stateful Duckgres.Conn Duckgres.Execution

variable {e : Setting} {φ : Phase → Prop} {m : Backend} {formats : List Int} {fields : List Field}

abbrev Replies (x : Handler Unit) : Prop := Ends Phase.Replied x

theorem Takes.calm {x} (calm : Ends (· = .calm) x) : Replies x := calm.imp fun _ _ => .inl

theorem Takes.error {x} (failed : Ends (· = .failed) x) : Replies x := failed.imp fun _ _ => .inr

theorem send_replies (quiet : isQuiet m = true) : Replies (send m) := .calm (send_quiet quiet)

theorem sendError_replies {code message} : Replies (sendError code message) := .error sendError_quiet

theorem prepare_replies {stmtName stmt} : Replies (prepare stmtName stmt) :=
  .seq (takes_silent fun _ => ⟨rfl, rfl⟩) fun _ => send_replies rfl

variable {body : ParseBody} {name : Text} {p : Portal} {cmdType : CommandType} {maxRows : Int} {args : List Value}
  {rows : RowSet}

theorem parseTranspiled_replies {result} : Replies (parseTranspiled e body result) := by
  unfold parseTranspiled
  split
  · exact sendError_replies
  · exact .seq calls_validated.takes (of_result (fun _ => sendError_replies) fun _ => prepare_replies)

theorem parseStatement_replies : Replies (parseStatement e body) := by
  unfold parseStatement
  split
  · unfold prepareIntercepted
    split <;> exact prepare_replies
  · split
    · exact prepare_replies
    · split
      · exact sendError_replies
      · exact parseTranspiled_replies

theorem parseNode_replies {node} : Replies (parseNode e body node) := by
  cases node with
  | declareCursor | closePortal => exact prepare_replies
  | fetch =>
    unfold parseNode
    dsimp only
    split
    · exact sendError_replies
    · exact prepare_replies
  | other => exact parseStatement_replies

theorem handleParse_replies {body} : Replies (handleParse e body) := by
  cases body with
  | short => exact sendError_replies
  | negative => exact close_in
  | read =>
    unfold handleParse
    dsimp only
    split
    · exact parseNode_replies
    · exact parseStatement_replies

theorem setPortal_in {portal} : Takes φ (setPortal name portal) fun _ => φ := takes_silent fun _ => ⟨rfl, rfl⟩

theorem handleBind_replies {names} {body} : Replies (handleBind e names body) := by
  unfold handleBind
  split
  · exact sendError_replies
  refine .read fun _ => ?_
  split
  · exact sendError_replies
  · split
    · exact sendError_replies
    · exact close_in
    · exact .read fun _ => .seq setPortal_in fun _ => send_replies rfl

theorem setDescribed_in {ps} : Takes φ (setDescribed ps) fun _ => φ := takes_silent fun _ => ⟨rfl, rfl⟩

section
variable {mark : Handler Unit} (marks : Takes (· = .calm) mark fun _ => (· = .calm))
include marks

theorem described_replies : Replies (do send (.rowDescription fields); mark) :=
  .calm (.seq (send_quiet rfl) fun _ => marks)

theorem probeColumns_replies {text} : Replies (probeColumns text args formats mark) := by
  refine .seq calls_query.takes (of_result (fun _ => send_replies rfl) fun _ => ?_)
  dsimp only
  split
  · exact send_replies rfl
  · exact close_in
  · exact described_replies marks

theorem describeFetch_replies {cursorName} : Replies (describeFetch e cursorName formats mark) := by
  refine .seq getCursorSchema_in fun schema => ?_
  split
  · exact send_replies rfl
  · exact send_replies rfl
  · exact described_replies marks

theorem describeOp_replies {op} : Replies (describeOp e formats mark op) := by
  cases op with
  | declare | close => exact send_replies rfl
  | fetch => exact describeFetch_replies marks
  | pgCursorsQuery | pgStatActivity => exact described_replies marks

end

theorem describeStmt_replies {ps} : Replies (describeStmt e ps) := by
  refine .seq (send_stays rfl) fun _ => ?_
  split
  · exact describeOp_replies setDescribed_in
  · split
    · exact send_replies rfl
    · exact sendError_replies
    · exact probeColumns_replies setDescribed_in

theorem describePortal_replies : Replies (describePortal e name p) := by
  unfold describePortal
  split
  · exact describeOp_replies setPortal_in
  split
  · exact send_replies rfl
  · exact sendError_replies
  · split
    · exact sendError_replies
    · exact probeColumns_replies (.seq setPortal_in fun _ => setDescribed_in)

theorem describeCursor_replies : Replies (describeCursor e name) := by
  refine .read fun _ => ?_
  split
  · exact sendError_replies
  · refine .seq getCursorSchema_in fun schema => ?_
    cases schema with
    | error | ok => exact send_replies rfl

theorem handleDescribe_replies {body} : Replies (handleDescribe e body) := by
  unfold handleDescribe
  split
  · exact sendError_replies
  split
  · refine .read fun _ => ?_
    split
    · exact sendError_replies
    · exact describeStmt_replies
  · split
    · refine .read fun _ => ?_
      split
      · exact describeCursor_replies
      · exact describePortal_replies
    · exact sendError_replies

/-! ## Execute and Close -/

theorem streamRowsToClientExtended_replies {described} :
    Replies (streamRowsToClientExtended formats described rows cmdType) := by
  unfold streamRowsToClientExtended
  split
  · exact .error sendPlainError_quiet
  refine .seq (sendWhen_quiet rfl) fun _ => .seq sendRows_quiet (of_result (fun _ => .error sendPlainError_quiet)
    fun _ => ?_)
  dsimp only
  split
  · exact .error sendIterationError_quiet
  · exact send_replies rfl

theorem executeRows_replies {oids} : Replies (executeRows p rows cmdType maxRows oids) := by
  refine .seq sendRows_quiet (of_result (fun _ => .error sendPlainError_quiet) fun _ => ?_)
  dsimp only
  split
  · exact .error sendIterationError_quiet
  · exact .seq updateTxStatus_in fun _ => send_replies rfl

theorem executeSelect_replies : Replies (executeSelect p args cmdType maxRows) := by
  refine .seq (calls_recovered calls_query).takes (of_result (fun _ => .error sendStatementError_quiet) fun _ => ?_)
  dsimp only
  split
  · exact .error sendPlainError_quiet
  · split
    · exact close_in
    · exact executeRows_replies
  · exact .seq (sendWhen_quiet rfl) fun _ => executeRows_replies

theorem finished_replies {x} (finishes : BatchReplies x) : Replies (do let _ ← x) := by
  refine .seq finishes fun errSent => ?_
  cases errSent with
  | true => exact Takes.keep.of fun _ => .inr
  | false => exact Takes.keep.of fun _ => .inl

theorem executeStmt_replies : Replies (executeStmt e p args maxRows) := by
  unfold executeStmt
  dsimp only
  split
  · exact send_replies rfl
  split
  · exact send_replies rfl
  split
  · exact multiStatement_finishes (Takes.keep.of fun _ => .inr) (Takes.keep.of fun _ => .inl) fun _ _ =>
      streamRowsToClientExtended_replies
  · split
    · exact finished_replies (execStatement_replies calls_runExec)
    · exact executeSelect_replies

theorem handleFetchCursorExtended_replies {howMany} : Replies (handleFetchCursorExtended e p name howMany) := by
  refine .read fun _ => ?_
  split
  · exact sendError_replies
  exact .seq openCursor_in (of_result (fun _ => .error sendIterationError_quiet) fun _ => .seq (sendWhen_quiet rfl)
    fun _ => finished_replies (fetchAll_finishes .keep .keep))

theorem executeOp_replies {op} : Replies (executeOp e p op) := by
  cases op with
  | declare => exact .seq closeCursor_in fun _ => .seq setCursor_in fun _ => send_replies rfl
  | fetch => exact handleFetchCursorExtended_replies
  | close => exact finished_replies (closePortal_finishes .keep .keep)
  | pgCursorsQuery => exact .read fun _ => .calm sendPgCursors_calm
  | pgStatActivity => exact .read fun _ => .calm sendPgStatActivity_calm

theorem handleExecute_replies {body : Option (Text × Int)} : Replies (handleExecute e body) := by
  unfold handleExecute
  split
  · exact sendError_replies
  refine .read fun _ => ?_
  split
  · exact sendError_replies
  split
  · exact executeOp_replies
  split
  · exact send_replies rfl
  · split
    · exact sendError_replies
    · exact executeStmt_replies

theorem handleClose_replies {body} : Replies (handleClose body) := by
  unfold handleClose
  split
  · exact sendError_replies
  refine .seq (takes_silent fun c => ?_) fun _ => send_replies rfl
  split
  · exact ⟨rfl, rfl⟩
  · split <;> exact ⟨rfl, rfl⟩

variable {s c : ClientConn} {step : Served} {steps : List Served}

def isExtended : Frontend → Bool
  | .parse _ => true
  | .bind .. => true
  | .describe _ => true
  | .execute _ => true
  | .close _ => true
  | _ => false

def answers (step : Served) : List Backend := step.after.sent.drop step.before.sent.length

def failedAfter (failed : Bool) (step : Served) : Bool :=
  match step.message with
  | .sync => false
  | m => failed || isExtended m && (answers step).any isError

def Skips : Bool → List Served → Prop
  | _, [] => True
  | failed, step :: steps =>
    (failed = true → step.message ≠ .sync → step.message ≠ .terminate → step.after = step.reading) ∧
      (step.message = .sync → step.after.sent = step.before.sent ++ [.readyForQuery step.before.txStatus]) ∧
      Skips (failedAfter failed step) steps

def asksForWork : Frontend → Bool
  | .query _ => true
  | m => isExtended m

/-- After an error the client sends nothing to process before its next `Sync`. -/
def Waits : Bool → List Served → Prop
  | _, [] => True
  | failed, step :: steps => (failed = true → asksForWork step.message = false) ∧ Waits (failedAfter failed step) steps

theorem serve_speaks {m} (asked : asksForWork m = true) : wp (serve e m) (fun _ => In (· ≠ .silent) s.sent) s := by
  have quiet : In Phase.Quiet s.sent s := (in_silent s).imp fun _ => .inl
  have speaks {x : Handler Unit} (replies : wp x (fun _ => In Phase.Replied s.sent) s) :
      wp x (fun _ => In (· ≠ .silent) s.sent) s := by
    refine wp_imp replies fun _ _ replied => replied.imp fun p replied => ?_
    rcases replied with rfl | rfl <;> decide
  cases m with
  | query =>
    refine wp_imp (handleQuery_settles quiet) fun _ _ hse => hse.imp fun p hse => ?_
    rcases hse with ⟨_, rfl⟩ | ⟨_, rfl⟩ <;> decide
  | parse => exact speaks (handleParse_replies quiet)
  | bind => exact speaks (handleBind_replies quiet)
  | describe => exact speaks (handleDescribe_replies quiet)
  | execute => exact speaks (handleExecute_replies quiet)
  | close => exact speaks (handleClose_replies quiet)
  | _ => cases asked

theorem after_ne_of_asked (occurs : step.Occurs e) (asked : asksForWork step.message = true) :
    step.after ≠ step.reading := by
  intro hs
  obtain ⟨ho, _, ends⟩ := occurs
  have spoken := wp_iff.mp (serve_speaks asked) () step.after ends
  rw [hs] at spoken
  obtain ⟨out, sent, spoke⟩ := spoken ho
  cases List.self_eq_append_right.mp sent
  exact spoke rfl

theorem after_of_unasked (occurs : step.Occurs e) (unasked : asksForWork step.message = false)
    (notSync : step.message ≠ .sync) (notTerminate : step.message ≠ .terminate) : step.after = step.reading := by
  obtain ⟨_, _, ends⟩ := occurs
  have idle : serve e step.message = pure () := by
    cases m : step.message with
    | sync => exact absurd m notSync
    | terminate => exact absurd m notTerminate
    | flush => rfl
    | copyData => rfl
    | copyDone => rfl
    | copyFail => rfl
    | other => rfl
    | _ => cases m ▸ unasked
  rw [idle] at ends
  exact wp_iff.mp (.ret rfl : wp (pure ()) (fun _ c => c = step.reading) step.reading) () _ ends

theorem sync_answered (occurs : step.Occurs e) (isSync : step.message = .sync) :
    step.after.sent = step.before.sent ++ [.readyForQuery step.before.txStatus] := by
  obtain ⟨_, _, ends⟩ := occurs
  rw [isSync] at ends
  have ready : wp readyForQuery (fun _ c => c.sent = step.before.sent ++ [.readyForQuery step.before.txStatus])
      step.reading := by
    unfold readyForQuery send
    simp only [wp_bind, wp_get, wp_modify]
    rfl
  exact wp_iff.mp ready () _ ends

theorem skips_iff {failed} (run : IsRun e c steps) : Skips failed steps ↔ Waits failed steps := by
  induction steps generalizing c failed with
  | nil => exact Iff.rfl
  | cons step steps ih =>
    obtain ⟨_, occurs, rest⟩ := run
    have later : Skips (failedAfter failed step) steps ↔ Waits (failedAfter failed step) steps := ih rest
    constructor
    · intro ⟨skipped, _, skips⟩
      refine ⟨fun failed => ?_, later.mp skips⟩
      by_contra asked
      have asked : asksForWork step.message = true := by simpa using asked
      refine after_ne_of_asked occurs asked (skipped failed ?_ ?_)
      · intro isSync
        rw [isSync] at asked
        cases asked
      · intro isTerminate
        rw [isTerminate] at asked
        cases asked
    · intro ⟨waits, waitsLater⟩
      refine ⟨fun failed => after_of_unasked occurs (waits failed), sync_answered occurs, later.mpr waitsLater⟩

theorem extended_skips_iff (run : IsRun e c steps) : Skips false steps ↔ Waits false steps := skips_iff run

theorem not_skips_of_asked {first second} (run : IsRun e c (first :: second :: steps))
    (hfa : failedAfter false first = true) (asked : asksForWork second.message = true) :
    ¬Skips false (first :: second :: steps) := by
  intro skips
  have waits := (skips_iff run).mp skips
  cases asked.symm.trans (waits.2.1 hfa)

theorem isRun_nil : IsRun e c [] := trivial

theorem isRun_cons {m after} (ho : c.isOpen = true) (read : c.input.head? = some m)
    (ends : (serve e m).Ends { c with input := c.input.tail } () after) (rest : IsRun e after steps) :
    IsRun e c (⟨m, c, after⟩ :: steps) :=
  ⟨rfl, ⟨ho, read, ends⟩, rest⟩

theorem extended_skips_iff_waiting : ∃ steps, IsRun .bare (.started [.parse .short, .flush, .sync]) steps ∧
    steps.length = 3 ∧ (Skips false steps ↔ Waits false steps) := by
  have run : ∃ steps, IsRun .bare (.started [.parse .short, .flush, .sync]) steps ∧ steps.length = 3 :=
    ⟨_, isRun_cons rfl rfl .pure (isRun_cons rfl rfl .pure (isRun_cons rfl rfl .pure isRun_nil)), rfl⟩
  obtain ⟨steps, run, three⟩ := run
  exact ⟨steps, run, three, extended_skips_iff run⟩

def failedBatch : List Frontend :=
  [.parse .short, .parse (.read ⟨[], "DELETE FROM t".toList, []⟩), .bind (some ([], [])) (.read ⟨[], [], []⟩),
    .execute (some ([], 0)), .sync]

theorem failed_batch_executes : ∃ steps final, IsRun .bare (.started failedBatch) steps ∧
    steps.getLast?.map Served.after = some final ∧
    final.log = [⟨.exec "DELETE FROM t".toList [], (⟨.ok 3, false⟩ : Answered Int)⟩] ∧
    final.sent = [.errorResponse "08P01" "invalid Parse message".toList, .parseComplete, .bindComplete,
      .commandComplete "DELETE 3".toList, .readyForQuery .idle] ∧ ¬Skips false steps := by
  have run := isRun_cons (e := .bare) (c := .started failedBatch) rfl rfl .pure
    (isRun_cons rfl rfl .pure (isRun_cons rfl rfl .pure
      (isRun_cons rfl rfl (.call (⟨.ok 3, false⟩ : Answered Int) .pure) (isRun_cons rfl rfl .pure isRun_nil))))
  exact ⟨_, _, run, rfl, rfl, rfl, not_skips_of_asked run rfl rfl⟩

end Duckgres.Proof.Conn
