import Duckgres.Proof.Conn.Batches
import Duckgres.Proof.Conn.Status

namespace Duckgres.Proof.Conn
open Base Base.Stateful Duckgres.Conn Duckgres.Execution List

variable {e : Setting} {c d final : ClientConn} {out : List Backend} {calls : List Occurrence} {text body sql : Text}

/-! ## Statements that the status can follow -/

structure Fits (restores : Text → Bool) (refused : Bool) (control : Option Text) (proper : Text → Prop)
    (c d : ClientConn) : Prop where
  accepted : c.txStatus = .transaction → refused = false
  smooth : c.txStatus = .transaction → ∀ o ∈ callsIn c d, Smooth o
  unrestored : Unrestored restores (callsIn c d)
  still : control = none → Still c.inTxn (callsIn c d)
  follows : ∀ sql, control = some sql → proper sql ∧ Faithful sql c.inTxn (callsIn c d)

structure Controls (e : Setting) (text sql : Text) : Prop where
  silent : queryReturnsResults sql = false
  unaltered : e.convertAlterTableToAlterView sql = none
  undropped : e.convertDropTableToDropView sql = none
  native : e.passthrough = true ∨ ∀ result, e.transpile false text = .ok result → result.fallbackToNative = false

variable {restores : Text → Bool} {failed refused : Bool} {control : Option Text} {proper : Text → Prop}

theorem Fits.sound (fits : Fits restores refused none proper c d) (agrees : c.txStatus = expected c.inTxn failed)
    (raises : Raises c d) : Sound restores failed c d := by
  obtain ⟨out, calls, hv, status⟩ := raises
  have made := callsIn_of_moves hv
  refine sound_of_still hv agrees (status fun inTransaction => ?_) ?_ ?_
  · exact made ▸ fits.smooth inTransaction
  · exact made ▸ fits.still rfl
  · exact made ▸ fits.unrestored

theorem Fits.sound_of_obeys (fits : Fits restores refused (some sql) proper c d)
    (obeys : Obeys restores failed sql c d) : Sound restores failed c d := by
  obtain ⟨out, calls, hv, status⟩ := obeys
  have made := callsIn_of_moves hv
  exact ⟨out, calls, hv, status (made ▸ (fits.follows sql rfl).2) (made ▸ fits.unrestored)⟩

theorem runExec_eq {args} (unaltered : e.convertAlterTableToAlterView sql = none)
    (undropped : e.convertDropTableToDropView sql = none) : runExec e sql args = exec sql args := by
  have unviewed (err : Text) : viewStatement e sql err = none := by simp [viewStatement, unaltered, undropped]
  refine Eq.trans (bind_congr fun result => ?_) (bind_pure _)
  cases result with
  | ok => rfl
  | error => simp [unviewed]

theorem transpiledControl_eq_some {result} (control : transpiledControl e result = some sql) :
    (result.error = none ∧ result.isIgnoredSet = false ∧ result.isNoOp = false ∧ result.statements = []) ∧
      isTransactionCommand (getCommandType sql.toUpper) = true ∧ rewriteDirectQuery e result.sql = sql := by
  unfold transpiledControl at control
  dsimp only at control
  split at control
  · rename_i runs
    cases control
    simp_all
  · cases control

theorem statementControl_eq_some (control : statementControl e text = some sql) :
    ∃ result, e.transpile false text = .ok result ∧ transpiledControl e result = some sql := by
  unfold statementControl at control
  split at control
  · cases control
  · rename_i result transpiled
    exact ⟨result, transpiled, control⟩

theorem ne_copy_of_control {cmdType} (control : isTransactionCommand cmdType = true) : cmdType ≠ .copy := by
  rintro rfl
  cases control

theorem isPlain_iff : isPlain e text = true ↔
    cursorNode e text = .other ∧ e.pgCursorsQuery text = none ∧ e.pgStatActivityQuery text = false := by
  unfold isPlain
  cases cursorNode e text <;> simp

theorem executeSingleStatement_control (control : batchControl e text = some sql) (translates : e.passthrough = false)
    (controls : Controls e text sql) :
    executeSingleStatement e text = execStatement (getCommandType sql.toUpper) (exec sql []) (pure ()) := by
  unfold batchControl at control
  split at control
  · rename_i plain
    obtain ⟨isOther, notCursors, notActivity⟩ := isPlain_iff.mp plain
    obtain ⟨result, transpiled, control⟩ := statementControl_eq_some control
    obtain ⟨⟨noError, notIgnored, notNoOp, single⟩, isControl, rfl⟩ := transpiledControl_eq_some control
    have native := controls.native.resolve_left (by simp [translates]) result transpiled
    unfold executeSingleStatement
    simp [cursorHandler_eq, isOther, cursorStatement, notCursors, notActivity, transpiled, validated, native,
      executeTranspiled, noError, notIgnored, notNoOp, single, ne_copy_of_control isControl, controls.silent,
      isEmpty_nil, Bool.not_true, Bool.not_false, Bool.false_eq_true, pure_bind,
      runExec_eq controls.unaltered controls.undropped]
  · cases control

theorem handleText_control (control : textControl e text = some sql) (alone : textBatch e text = none)
    (controls : Controls e text sql) :
    handleText e text = (do let _ ← execStatement (getCommandType sql.toUpper) (exec sql []) readyForQuery) := by
  unfold textControl at control
  split at control
  · rename_i direct
    split at control
    · rename_i isControl
      cases control
      simp [handleText, direct, ne_copy_of_control isControl, executeQueryDirect, controls.silent, Bool.not_false]
    · cases control
  · rename_i translates
    split at control
    · cases control
    rename_i noCopy
    obtain ⟨result, transpiled, control⟩ := statementControl_eq_some control
    obtain ⟨⟨noError, notIgnored, notNoOp, single⟩, isControl, rfl⟩ := transpiledControl_eq_some control
    have native := controls.native.resolve_left translates result transpiled
    have handles : handleStatements e text = handleTranspiled e result := by
      unfold handleStatements
      split
      · rename_i several
        simp [textBatch, translates, noCopy, several] at alone
      · simp [transpiled, validated, native, Bool.false_eq_true, pure_bind]
    simp [handleText, translates, noCopy, handles, handleTranspiled, noError, notIgnored, notNoOp, single,
      ne_copy_of_control isControl, controls.silent, isEmpty_nil, Bool.not_true, Bool.not_false, Bool.false_eq_true,
      runExec_eq controls.unaltered controls.undropped]

theorem handleQuery_control (control : queryControl e body.trimSpace = some sql)
    (alone : queryBatch e body.trimSpace = none) (controls : Controls e body.trimSpace sql) :
    handleQuery e body = (do let _ ← execStatement (getCommandType sql.toUpper) (exec sql []) readyForQuery) := by
  unfold queryControl at control
  split at control
  · cases control
  rename_i plain
  obtain ⟨hn, plain⟩ : isEmptyQuery body.trimSpace = false ∧ isPlain e body.trimSpace = true := by
    simpa using plain
  obtain ⟨isOther, notCursors, notActivity⟩ := isPlain_iff.mp plain
  have alone : textBatch e body.trimSpace = none := by simpa [queryBatch, hn, plain] using alone
  unfold handleQuery
  simp [hn, cursorHandler_eq, isOther, cursorStatement, notCursors, notActivity, Bool.false_eq_true,
    handleText_control control alone controls]

structure PortalControls (e : Setting) (p : Portal) (sql : Text) : Prop where
  silent : queryReturnsResults p.stmt.query = false
  same : getCommandType p.stmt.query.trimSpace.toUpper = getCommandType sql.toUpper
  unaltered : e.convertAlterTableToAlterView sql = none
  undropped : e.convertDropTableToDropView sql = none

variable {request : Option (Text × Int)}

theorem executedPortal_eq_some {p}
    (executed : executedPortal e c request = some p) : ∃ portalName maxRows args, request = some (portalName, maxRows) ∧
      c.portals portalName = some p ∧ p.stmt.cursorOp = none ∧ isEmptyQuery p.stmt.query.trimSpace = false ∧
      decodeParams e p = .ok args := by
  unfold executedPortal at executed
  cases request with
  | none => cases executed
  | some request =>
    cases hf : c.portals request.1 with
    | none => simp only [hf, reduceCtorEq] at executed
    | some p' =>
      simp only [hf, Option.ite_none_right_eq_some, Option.some.injEq, Bool.and_eq_true, Bool.not_eq_true',
        Option.isNone_iff_eq_none] at executed
      obtain ⟨⟨⟨noOp, hn⟩, decoded⟩, rfl⟩ := executed
      cases args : decodeParams e p' with
      | error => rw [args] at decoded; cases decoded
      | ok args' => exact ⟨request.1, request.2, args', rfl, hf, noOp, hn, rfl⟩

theorem handleExecute_obeys (control : executeControl e c request = some sql)
    (controls : ∀ p, executedPortal e c request = some p → PortalControls e p sql)
    (sane : failed = true → c.inTxn = true) (agrees : c.txStatus = expected c.inTxn failed) :
    wp (handleExecute e request) (fun _ => Obeys restores failed sql c) c := by
  obtain ⟨p, executed, commands⟩ := Option.bind_eq_some_iff.mp control
  have proper := controls p executed
  obtain ⟨portalName, maxRows, args, rfl, hf, noOp, hn, decoded⟩ := executedPortal_eq_some executed
  simp only [portalControl, Bool.and_eq_true, Bool.not_eq_eq_eq_not, Bool.not_true, List.isEmpty_iff, and_assoc,
    Option.ite_none_right_eq_some, Option.some.injEq] at commands
  obtain ⟨notIgnored, notNoOp, single, isControl, rfl⟩ := commands
  unfold handleExecute
  simp only [wp_bind, wp_get, hf, noOp, hn, decoded, executeStmt, notIgnored, notNoOp, single, proper.silent,
    proper.same, runExec_eq proper.unaltered proper.undropped, isEmpty_nil, Bool.not_true, Bool.not_false,
    Bool.false_eq_true, if_false, if_true]
  refine wp_imp (execStatement_obeys ?_ .ret sane agrees) fun _ _ obeys => .ret obeys
  rw [← proper.same]
  exact isControl

inductive FitsBatch (e : Setting) (restores : Text → Bool) : List ParsedStmt → ClientConn → ClientConn → Prop
  | nil {c : ClientConn} : FitsBatch e restores [] c c
  | fails {stmt stmts} {text : Text} {c d : ClientConn}
      (deparsed : stmt.deparsed = .ok text) (ends : (executeSingleStatement e text).Ends c true d)
      (fits : Fits restores (batchRefuses e c text) (batchControl e text) (Controls e text) c d) :
      FitsBatch e restores (stmt :: stmts) c d
  | next {stmt stmts} {text : Text} {c d final : ClientConn}
      (deparsed : stmt.deparsed = .ok text) (ends : (executeSingleStatement e text).Ends c false d)
      (isOpen : d.isOpen = true)
      (fits : Fits restores (batchRefuses e c text) (batchControl e text) (Controls e text) c d)
      (rest : FitsBatch e restores stmts d final) : FitsBatch e restores (stmt :: stmts) c final

theorem expected_and (inTxn failed : Bool) : expected inTxn (inTxn && failed) = expected inTxn failed := by
  cases inTxn <;> rfl

theorem single_sound {errSent} (translates : e.passthrough = false)
    (ends : (executeSingleStatement e text).Ends c errSent d)
    (fits : Fits restores (batchRefuses e c text) (batchControl e text) (Controls e text) c d)
    (sane : failed = true → c.inTxn = true) (agrees : c.txStatus = expected c.inTxn failed) :
    Sound restores failed c d := by
  cases control : batchControl e text with
  | none =>
    rw [control] at fits
    exact fits.sound agrees (wp_iff.mp (executeSingleStatement_raises fits.accepted control) _ _ ends)
  | some sql =>
    rw [control] at fits
    have proper := (fits.follows sql rfl).1
    rw [executeSingleStatement_control control translates proper] at ends
    refine fits.sound_of_obeys (wp_iff.mp (execStatement_obeys ?_ .ret sane agrees) _ _ ends)
    unfold batchControl at control
    split at control
    · obtain ⟨_, _, control⟩ := statementControl_eq_some control
      exact (transpiledControl_eq_some control).2.1
    · cases control

theorem no_error_of_next (ends : (executeSingleStatement e text).Ends c false d) (ho : d.isOpen = true)
    (hv : Moves out calls c d) : out.any isError = false := by
  have quiet : In Phase.Quiet c.sent c := (in_silent c).imp fun _ => .inl
  obtain ⟨more, sent, hp⟩ := wp_iff.mp (executeSingleStatement_replies quiet) _ _ ends ho
  have hs : more = out := append_cancel_left (sent.symm.trans hv.sent)
  have quiet : ∀ m ∈ out, isQuiet m = true := Phase.after_quiet_iff.mp (hs ▸ .inr hp)
  rw [any_eq_false]
  intro m hm
  simp [not_mem_of_quiet quiet hm]

theorem leftBy_of_keeps (keeps : calls.all (keepsFailure restores) = true) : leftBy true calls = true := by
  refine leftBy_of_leaves fun o hm => ?_
  exact (Bool.and_eq_true_iff.mp (all_eq_true.mp keeps o hm)).1

theorem failedBy_append {more others} (sane : failed = true → c.inTxn = true)
    (hv : Moves out calls c d) (quiet : out.any isError = false) :
    failedBy restores (d.inTxn && failedBy restores failed out calls) more others =
      failedBy restores failed (out ++ more) (calls ++ others) := by
  have stays : (d.inTxn && (failed && calls.all (keepsFailure restores))) =
      (failed && calls.all (keepsFailure restores)) := by
    cases kept : failed && calls.all (keepsFailure restores) with
    | false => exact Bool.and_false _
    | true =>
      obtain ⟨isFailed, keeps⟩ := Bool.and_eq_true_iff.mp kept
      rw [hv.inTxn, sane isFailed, leftBy_of_keeps keeps]
      rfl
  simp [failedBy, quiet, any_append, all_append, Bool.false_or, stays, Bool.and_assoc]

theorem batch_sound {stmts} (translates : e.passthrough = false)
    (fits : FitsBatch e restores stmts c d) (sane : failed = true → c.inTxn = true)
    (agrees : c.txStatus = expected c.inTxn failed) : Sound restores failed c d := by
  induction fits generalizing failed with
  | nil => exact sound_refl agrees
  | fails _ ends fits => exact single_sound translates ends fits sane agrees
  | next _ ends ho fits _ ih =>
    obtain ⟨out, calls, hv, status⟩ := single_sound translates ends fits sane agrees
    have plain := no_error_of_next ends ho hv
    obtain ⟨more, others, hvm, statusMore⟩ := ih (fun still => (Bool.and_eq_true_iff.mp still).1)
      (status.trans (expected_and _ _).symm)
    refine ⟨out ++ more, calls ++ others, hv.trans hvm, ?_⟩
    rw [statusMore, failedBy_append sane hv plain]

def Orderly (e : Setting) (restores : Text → Bool) (step : Served) : Prop :=
  match step.message with
  | .query body => ¬Spoiled e (copyCommand e body) step.after.log ∧ match queryBatch e body.trimSpace with
    | some stmts => ∃ d, FitsBatch e restores stmts step.reading d ∧
        step.after = { d with sent := d.sent ++ [.readyForQuery d.txStatus] }
    | none => Fits restores (queryRefuses e step.reading body.trimSpace) (queryControl e body.trimSpace)
        (Controls e body.trimSpace) step.reading step.after
  | .parse body => Fits restores (parseRefuses e body) none (fun _ => True) step.reading step.after
  | .bind names body => Fits restores (bindRefuses step.reading names body) none (fun _ => True) step.reading step.after
  | .describe body => Fits restores (describeRefuses e step.reading body) none (fun _ => True) step.reading step.after
  | .execute body => Fits restores (executeRefuses e step.reading body) (executeControl e step.reading body)
      (fun sql => ∀ p, executedPortal e step.reading body = some p → PortalControls e p sql) step.reading step.after
  | .close body => Fits restores body.isNone none (fun _ => True) step.reading step.after
  | _ => True

def StatusAgrees (restores : Text → Bool) : Bool → List Served → Prop
  | _, [] => True
  | failed, step :: steps =>
    (step.after.isOpen = true → ∀ status, .readyForQuery status ∈ answers step →
      status = expected step.after.inTxn (failedBy restores failed (answers step) (callsIn step.before step.after))) ∧
    StatusAgrees restores
      (step.after.inTxn && failedBy restores failed (answers step) (callsIn step.before step.after)) steps

variable {step : Served} {steps : List Served}

theorem isTransactionCommand_of_queryControl (control : queryControl e text = some sql) :
    isTransactionCommand (getCommandType sql.toUpper) = true := by
  unfold queryControl at control
  split at control
  · cases control
  unfold textControl at control
  split at control
  · split at control
    · rename_i isControl
      cases control
      exact isControl
    · cases control
  · split at control
    · cases control
    · obtain ⟨_, _, control⟩ := statementControl_eq_some control
      exact (transpiledControl_eq_some control).2.1

theorem query_sound {body} (isQuery : step.message = .query body) (occurs : step.Occurs e)
    (hor : Orderly e restores step) (sane : failed = true → step.before.inTxn = true)
    (agrees : step.before.txStatus = expected step.before.inTxn failed) :
    Sound restores failed step.reading step.after := by
  obtain ⟨ho, _, ends⟩ := occurs
  unfold Orderly at hor
  rw [isQuery] at hor ends
  obtain ⟨_, hor⟩ := hor
  cases batch : queryBatch e body.trimSpace with
  | some stmts =>
    rw [batch] at hor
    obtain ⟨d, fits, after⟩ := hor
    have translates : e.passthrough = false := by
      by_contra direct
      simp [queryBatch, textBatch, direct] at batch
    have sound : Sound restores failed step.reading d := batch_sound translates fits sane agrees
    rw [after]
    exact sound.speaks (wp_iff.mp (speaks_readyForQuery d) () _ .pure)
  | none =>
    rw [batch] at hor
    cases control : queryControl e body.trimSpace with
    | none =>
      rw [control] at hor
      exact hor.sound agrees (wp_iff.mp (handleQuery_raises batch hor.accepted control) _ _ ends)
    | some sql =>
      rw [control] at hor
      change (handleQuery e body).Ends step.reading () step.after at ends
      rw [handleQuery_control control batch (hor.follows sql rfl).1] at ends
      have obeys : wp (do let _ ← execStatement (getCommandType sql.toUpper) (exec sql []) readyForQuery)
          (fun _ => Obeys restores failed sql step.reading) step.reading :=
        wp_seq (execStatement_obeys (isTransactionCommand_of_queryControl control) speaks_readyForQuery sane agrees)
          fun _ _ obeys => .ret obeys
      exact hor.sound_of_obeys (wp_iff.mp obeys () _ ends)

theorem step_sound (occurs : step.Occurs e) (hor : Orderly e restores step)
    (sane : failed = true → step.before.inTxn = true)
    (agrees : step.before.txStatus = expected step.before.inTxn failed) :
    Sound restores failed step.reading step.after := by
  have ends := occurs.2.2
  have silent (speaks : Leads Speaks (serve e step.message)) : Sound restores failed step.reading step.after :=
    Sound.speaks (sound_refl agrees) (wp_iff.mp (speaks _) _ _ ends)
  obtain ⟨message, before, after⟩ := step
  cases message with
  | query => exact query_sound rfl occurs hor sane agrees
  | sync => exact silent speaks_readyForQuery
  | terminate => exact silent speaks_close
  | flush | copyData | copyDone | copyFail | other => exact silent .ret
  | parse => exact hor.sound agrees (wp_iff.mp (handleParse_raises hor.accepted) _ _ ends)
  | bind => exact hor.sound agrees (wp_iff.mp (handleBind_raises hor.accepted) _ _ ends)
  | describe => exact hor.sound agrees (wp_iff.mp (handleDescribe_raises hor.accepted) _ _ ends)
  | close => exact hor.sound agrees (wp_iff.mp (handleClose_raises hor.accepted) _ _ ends)
  | execute body =>
    unfold Orderly at hor
    dsimp only at hor
    generalize control : executeControl e _ body = sql at hor
    cases sql with
    | none => exact hor.sound agrees (wp_iff.mp (handleExecute_raises hor.accepted control) _ _ ends)
    | some sql =>
      exact hor.sound_of_obeys (wp_iff.mp (handleExecute_obeys control (hor.follows sql rfl).1 sane agrees) _ _ ends)

variable {status : TxStatus}

theorem not_ready_of_replied (replied : (Phase.after out).Replied) : .readyForQuery status ∉ out := by
  intro hm
  have quiet (earlier : List Backend) (hp : (Phase.after earlier).Quiet) : .readyForQuery status ∉ earlier :=
    fun hm => by cases Phase.after_quiet_iff.mp hp _ hm
  rcases replied with calm | failed
  · exact quiet out (.inr calm) hm
  · obtain ⟨before, code, message, rfl, hp⟩ := Phase.after_failed_iff.mp failed
    rcases mem_append.mp hm with earlier | last
    · exact quiet before hp earlier
    · cases mem_singleton.mp last

theorem ready_of_inOrder {before other} (inOrder : InOrder out)
    (sent : c.sent ++ out = before ++ [.readyForQuery status]) (hm : .readyForQuery other ∈ out) : other = status := by
  obtain ⟨last, isLast⟩ := inOrder.ready_last
  obtain ⟨front, rfl⟩ := getLast?_eq_some_iff.mp isLast
  rw [← append_assoc] at sent
  obtain ⟨_, ⟨⟩⟩ := append_inj' sent rfl
  have none : front.countP isReady = 0 := by simpa [isReady] using inOrder.one_ready
  rcases mem_append.mp hm with earlier | isLast
  · exact absurd rfl (countP_eq_zero.mp none _ earlier)
  · cases mem_singleton.mp isLast
    rfl

theorem answers_eq (sent : step.after.sent = step.reading.sent ++ out) : answers step = out := by
  change step.after.sent.drop step.reading.sent.length = out
  rw [sent, drop_left]

theorem query_ready {body} (isQuery : step.message = .query body) (occurs : step.Occurs e)
    (hor : Orderly e restores step) (ho : step.after.isOpen = true)
    (hm : .readyForQuery status ∈ answers step) : status = step.after.txStatus := by
  obtain ⟨_, _, ends⟩ := occurs
  unfold Orderly at hor
  rw [isQuery] at hor ends
  have quiet : In Phase.Quiet step.reading.sent step.reading := (in_silent step.reading).imp fun _ => .inl
  obtain ⟨out, sent, hse⟩ := wp_iff.mp (handleQuery_settles quiet) _ _ ends ho
  obtain ⟨before, last⟩ := wp_iff.mp (readies_handleQuery step.reading) _ _ ends ho
  have inOrder : InOrder out := inOrder_iff.mpr (hse.resolve_left fun spoiled => hor.1 spoiled.1).2
  rw [answers_eq sent] at hm
  exact ready_of_inOrder inOrder (sent.symm.trans last) hm

theorem step_ready (occurs : step.Occurs e) (hor : Orderly e restores step)
    (ho : step.after.isOpen = true) (hm : .readyForQuery status ∈ answers step) : status = step.after.txStatus := by
  have quiet : In Phase.Quiet step.reading.sent step.reading := (in_silent step.reading).imp fun _ => .inl
  have replies (replied : wp (serve e step.message)
    (fun _ => In Phase.Replied step.reading.sent) step.reading) : False := by
    obtain ⟨out, sent, hp⟩ := wp_iff.mp replied _ _ occurs.2.2 ho
    exact not_ready_of_replied hp (answers_eq sent ▸ hm)
  have silent (hs : step.after = step.reading) : False := by
    rw [answers, hs] at hm
    simp [Served.reading] at hm
  obtain ⟨message, before, after⟩ := step
  cases message with
  | query => exact query_ready rfl occurs hor ho hm
  | sync =>
    rw [answers_eq (sync_answered occurs rfl)] at hm
    cases mem_singleton.mp hm
    obtain ⟨_, _, _, kept⟩ := wp_iff.mp (speaks_readyForQuery _) _ _ occurs.2.2
    exact kept.symm
  | terminate =>
    have closed : wp close (fun _ d => d.isOpen = false) (Served.reading ⟨.terminate, before, after⟩) := by
      unfold close
      rw [wp_modify]
    cases ho.symm.trans (wp_iff.mp closed _ _ occurs.2.2)
  | parse => exact (replies (handleParse_replies quiet)).elim
  | bind => exact (replies (handleBind_replies quiet)).elim
  | describe => exact (replies (handleDescribe_replies quiet)).elim
  | execute => exact (replies (handleExecute_replies quiet)).elim
  | close => exact (replies (handleClose_replies quiet)).elim
  | _ => exact (silent (after_of_unasked occurs rfl nofun nofun)).elim

theorem status_agrees (run : IsRun e c steps) (hor : ∀ step ∈ steps, Orderly e restores step)
    (agrees : c.txStatus = expected c.inTxn failed) (sane : failed = true → c.inTxn = true) :
    StatusAgrees restores failed steps := by
  induction steps generalizing c failed with
  | nil => trivial
  | cons step steps ih =>
    obtain ⟨rfl, occurs, rest⟩ := run
    have fits := hor step mem_cons_self
    obtain ⟨out, calls, hv, status⟩ := step_sound occurs fits sane agrees
    have made : callsIn step.before step.after = calls := callsIn_of_moves (c := step.reading) hv
    rw [← answers_eq hv.sent, ← made] at status
    refine ⟨fun ho byte hm => (step_ready occurs fits ho hm).trans status, ?_⟩
    refine ih rest (fun step hm => hor step (mem_cons_of_mem _ hm)) ?_ fun still => ?_
    · rw [status, expected_and]
    · exact (Bool.and_eq_true_iff.mp still).1

theorem session_status {input : List Frontend} (run : IsRun e (.started input) steps)
    (orderly : ∀ step ∈ steps, Orderly e restores step) : StatusAgrees restores false steps :=
  status_agrees run orderly rfl nofun

def beginText : Text := "/* start */ begin".toList

theorem session_status_begin : ∃ steps final, IsRun .bare (.started [.query beginText, .sync]) steps ∧
    steps.getLast?.map Served.after = some final ∧
    final.sent = [.commandComplete "BEGIN".toList, .readyForQuery .transaction, .readyForQuery .transaction] ∧
    StatusAgrees (fun _ => false) false steps := by
  have run := isRun_cons (e := .bare) (c := .started [.query beginText, .sync]) rfl rfl
    (.call (⟨.ok 0, true⟩ : Answered Int) .pure) (isRun_cons rfl rfl .pure isRun_nil)
  refine ⟨_, _, run, rfl, rfl, session_status run ?_⟩
  intro step hm
  rcases List.mem_cons.mp hm with rfl | hm
  · have unspoiled : ∀ log, ¬Spoiled .bare (copyCommand .bare beginText) log := by
      intro log ⟨text, isCopy, _⟩
      cases isCopy
    refine ⟨unspoiled _, ?_⟩
    constructor
    case accepted => exact nofun
    case smooth => exact nofun
    case unrestored => exact fun o hm => by cases List.mem_singleton.mp hm; rfl
    case still => exact nofun
    case follows =>
      intro sql control
      cases control
      exact ⟨⟨by decide, rfl, rfl, .inl rfl⟩, ⟨rfl, rfl⟩, trivial⟩
  · cases List.mem_singleton.mp hm
    trivial

theorem end_leaves_status : ∃ steps final, IsRun .bare (.started [.query beginText, .query "END".toList]) steps ∧
    steps.getLast?.map Served.after = some final ∧ final.inTxn = false ∧
    final.sent = [.commandComplete "BEGIN".toList, .readyForQuery .transaction, .commandComplete "SELECT".toList,
      .readyForQuery .transaction] ∧ ∀ restores, ¬StatusAgrees restores false steps := by
  have run := isRun_cons (e := .bare) (c := .started [.query beginText, .query "END".toList]) rfl
    rfl (.call (⟨.ok 0, true⟩ : Answered Int) .pure)
    (isRun_cons rfl rfl (.call (⟨.ok 0, false⟩ : Answered Int) .pure) isRun_nil)
  refine ⟨_, _, run, rfl, rfl, rfl, fun restores agrees => ?_⟩
  cases agrees.2.1 rfl .transaction (List.mem_cons_of_mem _ (List.mem_singleton_self _))

end Duckgres.Proof.Conn
