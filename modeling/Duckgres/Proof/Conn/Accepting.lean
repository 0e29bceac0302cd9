import Duckgres.Proof.Conn.Session

namespace Duckgres.Proof.Conn
open Base Base.Stateful Duckgres.Conn Duckgres.Execution

variable {e : Setting} {c d : ClientConn} {text : Text} {finish : Handler Unit}

theorem raises_errorSent {x : Handler Unit} {errSent : Bool} (raises : Leads Raises x)
    (finishes : Leads Raises finish) :
    Leads Raises (do x; finish; return errSent) :=
  .seq raises fun _ => .seq finishes fun _ => .ret

theorem outside_of_refused {refuses} (legal : c.txStatus = .transaction → refuses = false)
    (refused : refuses = true) : c.txStatus ≠ .transaction := fun inTransaction => by
  cases refused.symm.trans (legal inTransaction)

theorem refused_errorSent {code : String} {message : Text} {errSent refuses : Bool}
    (legal : c.txStatus = .transaction → refuses = false) (refused : refuses = true)
    (sofar : Raises c d) (finishes : Leads Raises finish) :
    wp (do sendError code message; finish; return errSent) (fun _ => Raises c) d :=
  refused_raises (outside_of_refused legal refused) sofar
    (.seq moved_sendError fun _ => moved_of_raises (.seq finishes fun _ => .ret))

theorem refused_sendError {code message refuses}
    (legal : c.txStatus = .transaction → refuses = false) (refused : refuses = true) :
    wp (sendError code message) (fun _ => Raises c) c :=
  refused_raises (outside_of_refused legal refused) (Std.Refl.refl c) moved_sendError

variable {name portalname : Text} {cursor : Cursor} {formats : List Int} {howMany : Int}

theorem raises_openCursor : Leads Raises (openCursor name cursor) := by
  unfold openCursor
  split
  · exact .ret
  refine .seq leads_query (of_result (fun _ => .ret) fun _ => ?_)
  dsimp only
  split
  · exact .ret
  · exact .seq leads_setCursor fun _ => .ret

theorem raises_fetchAll {rows : OpenRows}
    (finishes : Leads Raises finish) : Leads Raises (fetchAll name cursor rows formats howMany finish) := by
  refine .seq leads_fetchRows fun fetched => .seq leads_setCursor fun _ => ?_
  split
  · exact raises_errorSent leads_sendPlainError finishes
  · split
    · exact raises_errorSent leads_sendIterationError finishes
    · exact raises_errorSent (leads_send rfl) finishes

def refusesNode (e : Setting) (c : ClientConn) : Node → Bool
  | .declareCursor _ innerSQL => innerSQL.isEmpty || !e.passthrough && (e.transpile false innerSQL matches .error _)
  | .fetch portalname direction howMany _ =>
    !isFetchForwardOnly direction || (c.cursors portalname).isNone || howMany < 0
  | .closePortal portalname => !portalname.isEmpty && (c.cursors portalname).isNone
  | .other => false

theorem declareCursor_raises {innerSQL : Text} (finishes : Leads Raises finish)
    (legal : c.txStatus = .transaction → refusesNode e c (.declareCursor portalname innerSQL) = false) :
    wp (declareCursor e portalname innerSQL finish) (fun _ => Raises c) c := by
  have declares (query : Text) : Leads Raises (do
      closeCursor portalname
      setCursor portalname ⟨query, none⟩
      sendCommandComplete "DECLARE CURSOR".toList
      finish
      return false) :=
    .seq leads_closeCursor fun _ => .seq leads_setCursor fun _ => raises_errorSent (leads_send rfl) finishes
  unfold declareCursor
  split
  · rename_i empty
    exact refused_errorSent legal (by simp [refusesNode, empty]) (Std.Refl.refl c) finishes
  split
  · exact declares _ c
  rename_i translates
  split
  · rename_i err hfa
    exact refused_errorSent legal (by simp [refusesNode, translates, hfa]) (Std.Refl.refl c) finishes
  · exact declares _ c

theorem fetchCursor_raises {direction : FetchDirection} {isMove : Bool} (finishes : Leads Raises finish)
    (legal : c.txStatus = .transaction → refusesNode e c (.fetch portalname direction howMany isMove) = false) :
    wp (fetchCursor e portalname direction howMany isMove finish) (fun _ => Raises c) c := by
  unfold fetchCursor
  split
  · rename_i backward
    exact refused_errorSent legal (by simp_all [refusesNode]) (Std.Refl.refl c) finishes
  · simp only [wp_bind, wp_get]
    split
    · rename_i gone
      exact refused_errorSent legal (by simp [refusesNode, gone]) (Std.Refl.refl c) finishes
    rw [wp_bind]
    refine wp_imp (raises_openCursor c)
      (of_result (fun _ _ sofar => raises_then sofar (raises_errorSent leads_sendIterationError finishes))
        fun _ _ sofar => ?_)
    dsimp only
    split
    · rename_i negative
      exact refused_errorSent legal (by simp [refusesNode, negative]) sofar finishes
    · split
      · exact raises_then sofar (.seq leads_setCursor fun _ => raises_errorSent (leads_send rfl) finishes)
      · exact raises_then sofar (.seq (leads_send rfl) fun _ => raises_fetchAll finishes)

theorem closePortal_raises (finishes : Leads Raises finish)
    (legal : c.txStatus = .transaction → refusesNode e c (.closePortal portalname) = false) :
    wp (closePortal e portalname finish) (fun _ => Raises c) c := by
  unfold closePortal
  split
  · have closed : Leads Raises closeAllCursors := leads_silent fun _ => ⟨rfl, rfl, rfl, rfl⟩
    exact closed.seq (fun _ => raises_errorSent (leads_send rfl) finishes) c
  rename_i named
  simp only [wp_bind, wp_get]
  split
  · rename_i gone
    exact refused_errorSent legal (by simp [refusesNode, gone, named]) (Std.Refl.refl c) finishes
  · exact Leads.seq leads_closeCursor (fun _ => raises_errorSent (leads_send rfl) finishes) c

theorem cursorStatement_raises {node handler} (hf : cursorStatement e finish node = some handler)
    (finishes : Leads Raises finish) (legal : c.txStatus = .transaction → refusesNode e c node = false) :
    wp handler (fun _ => Raises c) c := by
  cases node with
  | declareCursor =>
    cases hf
    exact declareCursor_raises finishes legal
  | fetch =>
    cases hf
    exact fetchCursor_raises finishes legal
  | closePortal =>
    cases hf
    exact closePortal_raises finishes legal
  | other => cases hf

theorem raises_sendPgCursors {cursorName describes} : Leads Raises (sendPgCursors cursorName describes formats) :=
  .seq .read fun _ => .seq (leads_sendWhen rfl) fun _ => .seq (leads_sendWhen rfl) fun _ => leads_send rfl

theorem raises_sendPgStatActivity {describes} : Leads Raises (sendPgStatActivity describes formats) :=
  .seq (leads_sendWhen rfl) fun _ => .seq leads_perform fun _ => .seq leads_sendActivities fun _ => leads_send rfl

theorem raises_handleCopyOut : Leads Raises (handleCopyOut e text) := by
  unfold handleCopyOut
  split
  · exact leads_failCopy (by decide)
  intro c
  refine wp_seq (query_rough (.refl c)) (of_result (fun _ _ ⟨made, _⟩ => raises_then made.raises leads_plainError)
    fun rows _ ⟨made, rough⟩ => ?_)
  dsimp only
  split
  · exact raises_then made.raises leads_plainError
  split
  · exact raises_then made.raises leads_handleCopyOutBinary
  split
  · exact raises_then made.raises leads_plainError
  by_cases unscanned : ∃ err, .error err ∈ rows.rows
  · obtain ⟨err, unscanned⟩ := unscanned
    exact rough_then (rough rows err rfl unscanned) (leads_sendTextRows fun _ _ => moved_sendError)
  · exact raises_then made.raises (leads_sendTextRows fun err hm => absurd ⟨err, hm⟩ unscanned)

theorem raises_handleCopy : Leads Raises (handleCopy e text) := leads_handleCopy raises_handleCopyOut

def cursorNode (e : Setting) (text : Text) : Node :=
  match e.parse text with
  | some [stmt] => stmt.node
  | _ => .other

def isPlain (e : Setting) (text : Text) : Bool :=
  (cursorNode e text matches .other) && (e.pgCursorsQuery text).isNone && !e.pgStatActivityQuery text

def refusesTranspiled : Except Text Transpiled → Bool
  | .error _ => true
  | .ok result => result.error.isSome

def refusesBatched (e : Setting) (result : Transpiled) : Bool :=
  result.error.isSome || !result.isIgnoredSet && !result.isNoOp &&
    (!result.statements.isEmpty || getCommandType (rewriteDirectQuery e result.sql).toUpper = .copy)

def transpiledControl (e : Setting) (result : Transpiled) : Option Text :=
  let text := rewriteDirectQuery e result.sql
  if result.error.isNone && !result.isIgnoredSet && !result.isNoOp && result.statements.isEmpty &&
      isTransactionCommand (getCommandType text.toUpper) then some text
  else none

def statementControl (e : Setting) (text : Text) : Option Text :=
  match e.transpile false text with
  | .error _ => none
  | .ok result => transpiledControl e result

theorem cursorHandler_eq {finish} : cursorHandler e text finish = cursorStatement e finish (cursorNode e text) := by
  unfold cursorHandler cursorNode
  rcases e.parse text with _ | _ | ⟨_, _ | _⟩ <;> rfl

variable {result : Transpiled}

theorem handleTranspiled_raises (legal : c.txStatus = .transaction → result.error = none)
    (other : transpiledControl e result = none) : wp (handleTranspiled e result) (fun _ => Raises c) c := by
  unfold handleTranspiled
  split
  · rename_i err hfa
    have outside : c.txStatus ≠ .transaction := fun inTransaction => by cases hfa.symm.trans (legal inTransaction)
    exact refused_raises outside (Std.Refl.refl c) (.seq moved_sendError fun _ => moved_of_raises leads_readyForQuery)
  · rename_i noError
    split
    · exact leads_completed c
    rename_i notIgnored
    split
    · exact leads_completed c
    rename_i notNoOp
    split
    · exact leads_multiStatement leads_readyForQuery (fun _ _ => leads_streamRowsToClient) c
    rename_i single
    have single : result.statements = [] := by simpa using single
    have plain : isTransactionCommand (getCommandType (rewriteDirectQuery e result.sql).toUpper) = false := by
      simpa [transpiledControl, noError, notIgnored, notNoOp, single] using other
    dsimp only
    split
    · exact raises_handleCopy c
    · split
      · exact Leads.seq (raises_execStatement plain calls_runExec leads_readyForQuery) (fun _ => Leads.ret) c
      · exact raises_executeSelectQuery plain c

theorem executeTranspiled_raises (legal : c.txStatus = .transaction → refusesBatched e result = false)
    (other : transpiledControl e result = none) : wp (executeTranspiled e result) (fun _ => Raises c) c := by
  have refused {code : String} {message : Text} (refusal : refusesBatched e result = true) :
      wp (do sendError code message; return true) (fun _ => Raises c) c := by
    have outside : c.txStatus ≠ .transaction := fun inTransaction => by
      cases refusal.symm.trans (legal inTransaction)
    exact refused_raises outside (Std.Refl.refl c) (.seq moved_sendError fun _ => .ret)
  unfold executeTranspiled
  split
  · rename_i err hfa
    exact refused (by simp [refusesBatched, hfa])
  rename_i noError
  split
  · exact Leads.seq (leads_send rfl) (fun _ => Leads.ret) c
  rename_i notIgnored
  split
  · exact Leads.seq (leads_send rfl) (fun _ => Leads.ret) c
  rename_i notNoOp
  split
  · rename_i several
    exact refused (by simp_all [refusesBatched])
  rename_i single
  have single : result.statements = [] := by simpa using single
  have plain : isTransactionCommand (getCommandType (rewriteDirectQuery e result.sql).toUpper) = false := by
    simpa [transpiledControl, noError, notIgnored, notNoOp, single] using other
  dsimp only
  split
  · rename_i copy
    exact refused (by simp_all [refusesBatched])
  · split
    · exact raises_execStatement plain calls_runExec .ret c
    · exact raises_batchSelect plain c

theorem validated_raises {α : Type} {refuse : Text → Handler α} {go : Handler α}
    (refuses : ∀ err, Leads Moved (refuse err)) (goes : ∀ d, d.txStatus = c.txStatus → wp go (fun _ => Raises d) d) :
    wp (do match ← validated result text with | .error err => refuse err | .ok _ => go) (fun _ => Raises c) c := by
  refine wp_seq validated_rough (of_result (fun err _ ⟨_, rough⟩ => rough_then (rough err rfl) (refuses err))
    fun _ d ⟨made, _⟩ => ?_)
  have hs : d.txStatus = c.txStatus := by
    obtain ⟨calls, rfl⟩ := made
    rfl
  exact wp_imp (goes d hs) fun _ _ later => IsTrans.trans _ _ _ made.raises later

def batchRefuses (e : Setting) (c : ClientConn) (text : Text) : Bool :=
  refusesNode e c (cursorNode e text) || isPlain e text && match e.transpile false text with
    | .error _ => true
    | .ok result => refusesBatched e result

def batchControl (e : Setting) (text : Text) : Option Text := if isPlain e text then statementControl e text else none

theorem cursorStatement_none {node finish} (none : cursorStatement e finish node = none) : node = .other := by
  cases node with
  | other => rfl
  | _ => cases none

theorem executeSingleStatement_raises (legal : c.txStatus = .transaction → batchRefuses e c text = false)
    (other : batchControl e text = none) : wp (executeSingleStatement e text) (fun _ => Raises c) c := by
  unfold executeSingleStatement
  rw [cursorHandler_eq]
  split
  · rename_i handler hf
    refine cursorStatement_raises hf .ret fun inTransaction => ?_
    exact (Bool.or_eq_false_iff.mp (legal inTransaction)).1
  rename_i notCursor
  split
  · exact Leads.seq raises_sendPgCursors (fun _ => Leads.ret) c
  rename_i notCursors
  split
  · exact Leads.seq raises_sendPgStatActivity (fun _ => Leads.ret) c
  rename_i notActivity
  have plain : isPlain e text = true := by
    simp [isPlain, cursorStatement_none notCursor, notCursors, notActivity]
  split
  · rename_i err hfa
    have outside : c.txStatus ≠ .transaction := fun inTransaction => by
      simpa [batchRefuses, plain, hfa] using legal inTransaction
    exact refused_raises outside (Std.Refl.refl c) (.seq moved_sendError fun _ => .ret)
  · rename_i result transpiled
    have control : transpiledControl e result = none := by
      simpa [batchControl, plain, statementControl, transpiled] using other
    refine validated_raises (fun _ => .seq moved_sendError fun _ => .ret) fun d hs => ?_
    refine executeTranspiled_raises (fun inTransaction => ?_) control
    have legal := legal (hs ▸ inTransaction)
    simp only [batchRefuses, plain, transpiled, Bool.or_eq_false_iff] at legal
    exact legal.2

def textBatch (e : Setting) (text : Text) : Option (List ParsedStmt) :=
  if e.passthrough || shouldHandleCopyBeforeTranspile text then none
  else match e.parse text with
    | some (first :: second :: stmts) => some (first :: second :: stmts)
    | _ => none

def textRefuses (e : Setting) (text : Text) : Bool :=
  !e.passthrough && !shouldHandleCopyBeforeTranspile text && refusesTranspiled (e.transpile false text)

def textControl (e : Setting) (text : Text) : Option Text :=
  if e.passthrough then if isTransactionCommand (getCommandType text.toUpper) then some text else none
  else if shouldHandleCopyBeforeTranspile text then none
  else statementControl e text

theorem handleStatements_raises (alone : ∀ first second stmts, e.parse text ≠ some (first :: second :: stmts))
    (legal : c.txStatus = .transaction → refusesTranspiled (e.transpile false text) = false)
    (other : statementControl e text = none) : wp (handleStatements e text) (fun _ => Raises c) c := by
  unfold handleStatements
  split
  · rename_i several
    exact absurd several (alone _ _ _)
  split
  · rename_i err hfa
    have outside : c.txStatus ≠ .transaction := fun inTransaction => by
      simpa [refusesTranspiled, hfa] using legal inTransaction
    exact refused_raises outside (Std.Refl.refl c) (.seq moved_sendError fun _ => moved_of_raises leads_readyForQuery)
  · rename_i result transpiled
    have control : transpiledControl e result = none := by simpa [statementControl, transpiled] using other
    refine validated_raises (fun _ => .seq moved_sendError fun _ => moved_of_raises leads_readyForQuery) fun d hs => ?_
    refine handleTranspiled_raises (fun inTransaction => ?_) control
    simpa [refusesTranspiled, transpiled] using legal (hs ▸ inTransaction)

theorem handleText_raises (alone : textBatch e text = none)
    (legal : c.txStatus = .transaction → textRefuses e text = false) (other : textControl e text = none) :
    wp (handleText e text) (fun _ => Raises c) c := by
  unfold handleText
  split
  · rename_i direct
    have plain : isTransactionCommand (getCommandType text.toUpper) = false := by
      simpa [textControl, direct] using other
    dsimp only
    split
    · exact raises_handleCopy c
    unfold executeQueryDirect
    split
    · exact Leads.seq (raises_execStatement plain calls_exec leads_readyForQuery) (fun _ => Leads.ret) c
    · exact raises_executeSelectQuery plain c
  · rename_i translates
    split
    · exact raises_handleCopy c
    rename_i noCopy
    refine handleStatements_raises (fun first second stmts several => ?_) (fun inTransaction => ?_) ?_
    · simp [textBatch, translates, noCopy, several] at alone
    · simpa [textRefuses, translates, noCopy] using legal inTransaction
    · simpa [textControl, translates, noCopy] using other

def queryBatch (e : Setting) (text : Text) : Option (List ParsedStmt) :=
  if isEmptyQuery text || !isPlain e text then none else textBatch e text

def queryRefuses (e : Setting) (c : ClientConn) (text : Text) : Bool :=
  !isEmptyQuery text && (refusesNode e c (cursorNode e text) || isPlain e text && textRefuses e text)

def queryControl (e : Setting) (text : Text) : Option Text :=
  if isEmptyQuery text || !isPlain e text then none else textControl e text

theorem handleQuery_raises {body} (alone : queryBatch e body.trimSpace = none)
    (legal : c.txStatus = .transaction → queryRefuses e c body.trimSpace = false)
    (other : queryControl e body.trimSpace = none) : wp (handleQuery e body) (fun _ => Raises c) c := by
  unfold handleQuery
  dsimp only
  split
  · exact leads_ended (leads_send rfl) leads_readyForQuery c
  rename_i hn
  rw [cursorHandler_eq]
  split
  · rename_i handler hf
    refine wp_seq (cursorStatement_raises hf leads_readyForQuery fun inTransaction => ?_) fun _ _ sofar => .ret sofar
    have legal := legal inTransaction
    simp only [queryRefuses, hn, Bool.not_false, Bool.true_and, Bool.or_eq_false_iff] at legal
    exact legal.1
  · rename_i notCursor
    split
    · exact leads_ended raises_sendPgCursors leads_readyForQuery c
    rename_i notCursors
    split
    · exact leads_ended raises_sendPgStatActivity leads_readyForQuery c
    rename_i notActivity
    have plain : isPlain e body.trimSpace = true := by
      simp [isPlain, cursorStatement_none notCursor, notCursors, notActivity]
    refine handleText_raises ?_ (fun inTransaction => ?_) ?_
    · simpa [queryBatch, hn, plain] using alone
    · have legal := legal inTransaction
      simp only [queryRefuses, hn, plain, Bool.not_false, Bool.true_and, Bool.or_eq_false_iff] at legal
      exact legal.2
    · simpa [queryControl, hn, plain] using other

end Duckgres.Proof.Conn
