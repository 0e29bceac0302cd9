import Duckgres.Proof.Conn.Accepting

namespace Duckgres.Proof.Conn
open Base Base.Stateful Duckgres.Conn Duckgres.Execution

variable {e : Setting} {c d : ClientConn}

def parseRefuses (e : Setting) : Body ParseBody → Bool
  | .short => true
  | .negative => false
  | .read body => match cursorNode e body.query with
    | .fetch _ direction howMany _ => !isFetchForwardOnly direction || howMany < 0
    | .other => (interceptedOp e body.query).isNone && !e.passthrough && refusesTranspiled (e.transpile true body.query)
    | _ => false

variable {body : ParseBody} {args : List Value} {formats : List Int} {cmdType : CommandType} {p : Portal}
  {maxRows : Int}

theorem parseTranspiled_raises {result} (legal : c.txStatus = .transaction → result.error = none) :
    wp (parseTranspiled e body result) (fun _ => Raises c) c := by
  unfold parseTranspiled
  split
  · rename_i err hfa
    exact refused_sendError (fun inTransaction => congrArg Option.isSome (legal inTransaction)) (by rw [hfa]; rfl)
  · exact validated_raises (fun _ => moved_sendError) fun d _ => leads_prepare d

theorem parseStatement_raises (legal : c.txStatus = .transaction →
      ((interceptedOp e body.query).isNone && !e.passthrough &&
        refusesTranspiled (e.transpile true body.query)) = false) :
    wp (parseStatement e body) (fun _ => Raises c) c := by
  unfold parseStatement
  split
  · unfold prepareIntercepted
    split <;> exact leads_prepare c
  · rename_i notIntercepted
    split
    · exact leads_prepare c
    rename_i translates
    split
    · rename_i err hfa
      exact refused_sendError legal (by simp [notIntercepted, translates, hfa, refusesTranspiled])
    · rename_i result transpiled
      refine parseTranspiled_raises fun inTransaction => ?_
      simpa [notIntercepted, translates, transpiled, refusesTranspiled] using legal inTransaction

theorem handleParse_eq : handleParse e (.read body) = parseNode e body (cursorNode e body.query) := by
  unfold handleParse cursorNode
  dsimp only
  rcases e.parse body.query with _ | _ | ⟨_, _ | _⟩ <;> rfl

theorem handleParse_raises {body} (legal : c.txStatus = .transaction → parseRefuses e body = false) :
    wp (handleParse e body) (fun _ => Raises c) c := by
  cases body with
  | short => exact refused_sendError legal rfl
  | negative => exact leads_close c
  | read body =>
    rw [handleParse_eq]
    cases node : cursorNode e body.query with
    | declareCursor | closePortal => exact leads_prepare c
    | fetch =>
      unfold parseNode
      dsimp only
      split
      · rename_i backward
        exact refused_sendError legal (by simp_all [parseRefuses])
      · exact leads_prepare c
    | other =>
      refine parseStatement_raises fun inTransaction => ?_
      simpa only [parseRefuses, node] using legal inTransaction

def bindRefuses (c : ClientConn) (names : Option (Text × Text)) (body : Body BindBody) : Bool :=
  match names with
  | none => true
  | some (_, stmtName) => (c.stmts stmtName).isNone || (body matches .short)

theorem handleBind_raises {names} {body}
    (legal : c.txStatus = .transaction → bindRefuses c names body = false) :
    wp (handleBind e names body) (fun _ => Raises c) c := by
  unfold handleBind
  split
  · exact refused_sendError legal rfl
  simp only [wp_bind, wp_get]
  split
  · rename_i gone
    exact refused_sendError legal (by simp [bindRefuses, gone])
  cases body with
  | short => exact refused_sendError legal (by simp [bindRefuses])
  | negative => exact leads_close c
  | read => exact Leads.seq .read (fun _ => Leads.seq leads_setPortal fun _ => leads_send rfl) c

theorem raises_getCursorSchema {cursorName} : Leads Raises (getCursorSchema e cursorName) := by
  refine .seq .read fun c => ?_
  split
  · exact .ret
  · exact .seq raises_openCursor fun _ => .ret

theorem raises_probeColumns {text mark}
    (marks : Leads Raises mark) : Leads Raises (probeColumns text args formats mark) := by
  refine .seq leads_query (of_result (fun _ => leads_send rfl) fun _ => ?_)
  dsimp only
  split
  · exact leads_send rfl
  · exact leads_close
  · exact .seq (leads_send rfl) fun _ => marks

theorem raises_describeOp {mark op} (marks : Leads Raises mark) : Leads Raises (describeOp e formats mark op) := by
  cases op with
  | declare | close => exact leads_send rfl
  | fetch =>
    refine .seq raises_getCursorSchema fun schema => ?_
    split
    · exact leads_send rfl
    · exact leads_send rfl
    · exact .seq (leads_send rfl) fun _ => marks
  | pgCursorsQuery | pgStatActivity => exact .seq (leads_send rfl) fun _ => marks

def describeRefuses (e : Setting) (c : ClientConn) : Option (Char × Text) → Bool
  | none => true
  | some (descType, name) =>
    if descType = 'S' then match c.stmts name with
      | none => true
      | some ps => ps.cursorOp.isNone && (describeVerdict ps.query matches .refused)
    else if descType = 'P' then match c.portals name with
      | none => (c.cursors name).isNone
      | some p => p.stmt.cursorOp.isNone && match describeVerdict p.stmt.query with
        | .noData => false
        | .refused => true
        | .probe => decodeParams e p matches .error _
    else true

theorem handleDescribe_raises {body}
    (legal : c.txStatus = .transaction → describeRefuses e c body = false) :
    wp (handleDescribe e body) (fun _ => Raises c) c := by
  unfold handleDescribe
  split
  · exact refused_sendError legal rfl
  split
  · rename_i isS
    simp only [wp_bind, wp_get]
    split
    · rename_i gone
      exact refused_sendError legal (by simp [describeRefuses, isS, gone])
    rename_i ps hf
    unfold describeStmt
    rw [wp_bind]
    refine wp_imp (leads_send (R := Raises) rfl c) fun _ d sofar => ?_
    split
    · exact raises_then sofar (raises_describeOp leads_setDescribed)
    rename_i noOp
    split
    · exact raises_then sofar (leads_send rfl)
    · rename_i refused
      have outside := outside_of_refused legal (by simp [describeRefuses, isS, hf, noOp, refused])
      exact refused_raises outside sofar moved_sendError
    · exact raises_then sofar (raises_probeColumns leads_setDescribed)
  · rename_i notS
    split
    · rename_i isP
      simp only [wp_bind, wp_get]
      split
      · rename_i gone
        unfold describeCursor
        simp only [wp_bind, wp_get]
        split
        · rename_i noCursor
          exact refused_sendError legal (by simp [describeRefuses, isP, gone, noCursor])
        rw [wp_bind]
        refine wp_imp (raises_getCursorSchema c) fun schema d sofar => ?_
        split <;> exact raises_then sofar (leads_send rfl)
      · rename_i p hf
        unfold describePortal
        split
        · exact raises_describeOp leads_setPortal c
        rename_i noOp
        split
        · exact leads_send rfl c
        · rename_i refused
          exact refused_sendError legal (by simp [describeRefuses, isP, hf, noOp, refused])
        rename_i probe
        split
        · rename_i err hfa
          exact refused_sendError legal (by simp [describeRefuses, isP, hf, noOp, probe, hfa])
        · exact raises_probeColumns (.seq leads_setPortal fun _ => leads_setDescribed) c
    · rename_i notP
      exact refused_sendError legal (by simp [describeRefuses, notS, notP])

/-! ## Execute and Close -/

theorem raises_streamRowsToClientExtended {described rows} :
    Leads Raises (streamRowsToClientExtended formats described rows cmdType) := by
  unfold streamRowsToClientExtended
  split
  · exact leads_sendPlainError
  refine .seq (leads_sendWhen rfl) fun _ => .seq leads_sendRows (of_result (fun _ => leads_sendPlainError) fun _ => ?_)
  dsimp only
  split
  · exact leads_sendIterationError
  · exact leads_send rfl

theorem raises_executeRows {rows oids}
    (other : isTransactionCommand cmdType = false) : Leads Raises (executeRows p rows cmdType maxRows oids) := by
  refine .seq leads_sendRows (of_result (fun _ => leads_sendPlainError) fun _ => ?_)
  dsimp only
  split
  · exact leads_sendIterationError
  · exact .seq (raises_updateTxStatus other) fun _ => leads_send rfl

theorem raises_executeSelect
    (other : isTransactionCommand cmdType = false) : Leads Raises (executeSelect p args cmdType maxRows) := by
  refine .seq leads_recovered_query (of_result (fun _ => raises_sendStatementError) fun _ => ?_)
  dsimp only
  split
  · exact leads_sendPlainError
  · split
    · exact leads_close
    · exact raises_executeRows other
  · exact .seq (leads_sendWhen rfl) fun _ => raises_executeRows other

def portalControl (p : Portal) : Option Text :=
  if !p.stmt.isIgnoredSet && !p.stmt.isNoOp && p.stmt.statements.isEmpty &&
      isTransactionCommand (getCommandType p.stmt.query.trimSpace.toUpper) then some p.stmt.convertedQuery
  else none

theorem raises_executeStmt (other : portalControl p = none) : Leads Raises (executeStmt e p args maxRows) := by
  unfold executeStmt
  dsimp only
  split
  · exact leads_send rfl
  rename_i notIgnored
  split
  · exact leads_send rfl
  rename_i notNoOp
  split
  · exact leads_multiStatement .ret fun _ _ => raises_streamRowsToClientExtended
  rename_i single
  have single : p.stmt.statements = [] := by simpa using single
  have plain : isTransactionCommand (getCommandType p.stmt.query.trimSpace.toUpper) = false := by
    simpa [portalControl, notIgnored, notNoOp, single] using other
  split
  · exact .seq (raises_execStatement plain calls_runExec .ret) fun _ => .ret
  · exact raises_executeSelect plain

def refusesOp (c : ClientConn) : CursorOp → Bool
  | .fetch name _ => (c.cursors name).isNone
  | .close name => !name.isEmpty && (c.cursors name).isNone
  | _ => false

theorem executeOp_raises {op} (legal : c.txStatus = .transaction → refusesOp c op = false) :
    wp (executeOp e p op) (fun _ => Raises c) c := by
  cases op with
  | declare => exact Leads.seq leads_closeCursor (fun _ => Leads.seq leads_setCursor fun _ => leads_send rfl) c
  | fetch =>
    unfold executeOp handleFetchCursorExtended
    simp only [wp_bind, wp_get]
    split
    · rename_i gone
      exact refused_sendError legal (by simp [refusesOp, gone])
    rw [wp_bind]
    refine wp_imp (raises_openCursor c) fun ho d sofar => ?_
    cases ho with
    | error => exact raises_then sofar leads_sendIterationError
    | ok =>
      exact raises_then sofar (.seq (leads_sendWhen rfl) fun _ => .seq (raises_fetchAll .ret) fun _ => .ret)
  | close => exact wp_seq (closePortal_raises .ret legal) fun _ _ sofar => .ret sofar
  | pgCursorsQuery => exact Leads.seq .read (fun _ => raises_sendPgCursors) c
  | pgStatActivity => exact Leads.seq .read (fun _ => raises_sendPgStatActivity) c

def executedPortal (e : Setting) (c : ClientConn) (body : Option (Text × Int)) : Option Portal :=
  match body with
  | none => none
  | some (portalName, _) => match c.portals portalName with
    | none => none
    | some p =>
      if p.stmt.cursorOp.isNone && !isEmptyQuery p.stmt.query.trimSpace && (decodeParams e p matches .ok _) then some p
      else none

def executeRefuses (e : Setting) (c : ClientConn) (body : Option (Text × Int)) : Bool :=
  match body with
  | none => true
  | some (portalName, _) => match c.portals portalName with
    | none => true
    | some p => match p.stmt.cursorOp with
      | some op => refusesOp c op
      | none => !isEmptyQuery p.stmt.query.trimSpace && (decodeParams e p matches .error _)

def executeControl (e : Setting) (c : ClientConn) (body : Option (Text × Int)) : Option Text :=
  (executedPortal e c body).bind portalControl

theorem handleExecute_raises {body : Option (Text × Int)}
    (legal : c.txStatus = .transaction → executeRefuses e c body = false) (other : executeControl e c body = none) :
    wp (handleExecute e body) (fun _ => Raises c) c := by
  unfold handleExecute
  split
  · exact refused_sendError legal rfl
  simp only [wp_bind, wp_get]
  split
  · rename_i gone
    exact refused_sendError legal (by simp [executeRefuses, gone])
  rename_i p hf
  split
  · rename_i op isOp
    refine executeOp_raises fun inTransaction => ?_
    simpa only [executeRefuses, hf, isOp] using legal inTransaction
  rename_i noOp
  split
  · exact leads_send rfl c
  rename_i hn
  split
  · rename_i err hfa
    exact refused_sendError legal (by simp [executeRefuses, hf, noOp, hn, hfa])
  · rename_i args decoded
    refine raises_executeStmt ?_ c
    simpa [executeControl, executedPortal, hf, noOp, hn, decoded] using other

theorem handleClose_raises {body} (legal : c.txStatus = .transaction → body.isNone = false) :
    wp (handleClose body) (fun _ => Raises c) c := by
  unfold handleClose
  split
  · exact refused_sendError legal rfl
  refine Leads.seq (leads_silent fun c => ?_) (fun _ => leads_send rfl) c
  split
  · exact ⟨rfl, rfl, rfl, rfl⟩
  · split <;> exact ⟨rfl, rfl, rfl, rfl⟩

end Duckgres.Proof.Conn
