import Duckgres.Proof.Conn.Chains

namespace Duckgres.Proof.Conn
open Base Base.Stateful Duckgres.Conn Duckgres.Execution List

def Says (P : Backend → Prop) (c d : ClientConn) : Prop := ∃ out, d.sent = c.sent ++ out ∧ ∀ m ∈ out, P m

variable {P : Backend → Prop} {e : Setting}

theorem says_of_sent {c d} (hs : d.sent = c.sent) : Says P c d := ⟨[], by rw [hs, append_nil], nofun⟩

instance : Std.Refl (Says P) := ⟨fun _ => says_of_sent rfl⟩

instance : IsTrans ClientConn (Says P) where
  trans := by
    intro c d final ⟨out, sent, kind⟩ ⟨more, sentMore, kindMore⟩
    refine ⟨out ++ more, by rw [sentMore, sent, append_assoc], fun m hm => ?_⟩
    rcases mem_append.mp hm with hm | hm
    · exact kind m hm
    · exact kindMore m hm

theorem says_send {m} (kind : P m) : Leads (Says P) (send m) :=
  .update fun _ => ⟨[m], rfl, fun _ hm => mem_singleton.mp hm ▸ kind⟩

theorem says_perform {call} : Leads (Says P) (perform call) := leads_call fun _ _ => says_of_sent rfl

theorem says_isCallerCancellation {err} : Leads (Says P) (isCallerCancellation err) := by
  unfold isCallerCancellation
  split
  · exact says_perform
  · exact .ret

def isRefusal : Backend → Bool
  | .errorResponse code _ => code = "0A000"
  | _ => false

abbrev Accepts : ClientConn → ClientConn → Prop := Says fun m => isRefusal m = false

instance : Chained Accepts where
  message m c plain := by
    refine ⟨[m], rfl, fun other hm => ?_⟩
    rw [mem_singleton.mp hm]
    cases m <;> simp_all [isError, isRefusal]
  calls := by
    rintro c _ ⟨calls, rfl⟩
    exact says_of_sent rfl
  error code message c other := ⟨[.errorResponse code message], rfl, fun _ hm => by simp_all [isRefusal]⟩
  silent c d sent _ _ _ := says_of_sent sent

theorem accepts_executeMultiStatement {statements cleanup} : Leads Accepts (executeMultiStatement statements cleanup) :=
  leads_multiStatement leads_readyForQuery fun _ _ => leads_streamRowsToClient

theorem accepts_handleCopyOut {text} : Leads Accepts (handleCopyOut e text) := by
  unfold handleCopyOut
  split
  · exact leads_failCopy (by decide)
  refine .seq leads_query (of_result (fun _ => leads_plainError) fun _ => ?_)
  dsimp only
  split
  · exact leads_plainError
  split
  · exact leads_handleCopyOutBinary
  · split
    · exact leads_plainError
    · exact leads_sendTextRows fun _ _ => says_send (by simp [isRefusal])

theorem accepts_handleCopy {text} : Leads Accepts (handleCopy e text) := leads_handleCopy accepts_handleCopyOut

variable {f : Script.Behaviour Call Answer} {past : Script.History Call Answer} {c : ClientConn} {text : Text}
  {stmt : ParsedStmt}

def ended (finish : Handler Unit) (x : Handler Bool) : Handler Bool := do
  let errSent ← x
  finish
  return errSent

variable {cmdType : CommandType} {finish : Handler Unit} {portalname err : Text} {result : Transpiled}

theorem execStatement_ended {run} :
    execStatement cmdType run finish = ended finish (execStatement cmdType run (pure ())) := by
  unfold execStatement ended
  simp only [bind_assoc]
  apply bind_congr
  intro c
  split
  · simp
  · simp only [bind_assoc]
    apply bind_congr
    intro result
    cases result <;> simp [bind_assoc]

theorem fetchAll_ended {name cursor rows formats howMany} : fetchAll name cursor rows formats howMany finish =
      ended finish (fetchAll name cursor rows formats howMany (pure ())) := by
  unfold fetchAll ended
  simp only [bind_assoc]
  apply bind_congr
  intro fetched
  apply bind_congr
  intro _
  split
  · simp
  · split <;> simp

theorem declareCursor_ended {innerSQL} :
    declareCursor e portalname innerSQL finish = ended finish (declareCursor e portalname innerSQL (pure ())) := by
  unfold declareCursor ended
  split
  · simp
  · split
    · simp [bind_assoc]
    · split <;> simp [bind_assoc]

theorem fetchCursor_ended {direction howMany isMove} : fetchCursor e portalname direction howMany isMove finish =
      ended finish (fetchCursor e portalname direction howMany isMove (pure ())) := by
  unfold fetchCursor
  split
  · simp [ended]
  simp only [ended, bind_assoc]
  apply bind_congr
  intro c
  split
  · simp
  simp only [bind_assoc]
  apply bind_congr
  intro ho
  cases ho with
  | error => simp
  | ok =>
    dsimp only
    split
    · simp
    · split
      · simp [bind_assoc]
      · rw [fetchAll_ended]
        simp [ended, bind_assoc]

theorem closePortal_ended : closePortal e portalname finish = ended finish (closePortal e portalname (pure ())) := by
  unfold closePortal ended
  split
  · simp [bind_assoc]
  · simp only [bind_assoc]
    apply bind_congr
    intro c
    split <;> simp [bind_assoc]

theorem cursorHandler_ended (finish : Handler Unit) :
    cursorHandler e text finish = (cursorHandler e text (pure ())).map (ended finish) := by
  unfold cursorHandler
  split
  · rename_i stmt _
    cases stmt.node with
    | declareCursor => exact congrArg some declareCursor_ended
    | fetch => exact congrArg some fetchCursor_ended
    | closePortal => exact congrArg some closePortal_ended
    | other => rfl
  · rfl

section
variable (f : Script.Behaviour Call Answer) (past : Script.History Call Answer)

def said (x : Handler Unit) (c : ClientConn) : List Backend := (play f x c past).1.2.sent.filter fun m => !isReady m

def statusAfter (x : Handler Unit) (c : ClientConn) : TxStatus := (play f x c past).1.2.txStatus

def Alike (x y : Handler Unit) (c : ClientConn) : Prop :=
  said f past x c = said f past y c ∧ statusAfter f past x c = statusAfter f past y c

end

def Runs (result : Transpiled) : Prop := result.error = none ∧ result.isIgnoredSet = false ∧ result.isNoOp = false

structure IsStatement (e : Setting) (text : Text) (stmt : ParsedStmt) : Prop where
  parsed : e.parse text = some [stmt]
  deparsed : stmt.deparsed = .ok text
  trimmed : text.trimSpace = text
  nonempty : isEmptyQuery text = false
  -- the transpiler calls the same parser
  native : ∀ result, e.transpile false text = .ok result → result.fallbackToNative = false
  copies : shouldHandleCopyBeforeTranspile text = true → ∃ result, e.transpile false text = .ok result ∧ Runs result ∧
    result.statements = [] ∧ getCommandType (rewriteDirectQuery e result.sql).toUpper = .copy

def Intercepted (e : Setting) (text : Text) : Prop :=
  (cursorHandler e text (pure ())).isSome ∨ (e.pgCursorsQuery text).isSome ∨ e.pgStatActivityQuery text = true

def Complete (status : TxStatus) (rows : RowSet) : Prop :=
  ∀ header, rows.header = .ok header →
    if rows.rows.any fun row => row matches .error _ then status ≠ .transaction else rows.finalErr = none

def Suits (e : Setting) (f : Script.Behaviour Call Answer) (past : Script.History Call Answer) (text : Text)
    (c : ClientConn) : Prop :=
  Intercepted e text ∨ ∀ result, e.transpile false text = .ok result → Runs result →
    result.statements = [] ∧ getCommandType (rewriteDirectQuery e result.sql).toUpper ≠ .copy ∧
      (queryReturnsResults (rewriteDirectQuery e result.sql) = true → ∀ rows,
        (play f (recovered (query (rewriteDirectQuery e result.sql) [])) c past).1.1 = .ok rows →
          Complete c.txStatus rows)

theorem alike_bind {α : Type} {x : Handler α} {k l : α → Handler Unit} : Alike f past (x >>= k) (x >>= l) c ↔
      Alike f (play f x c past).2 (k (play f x c past).1.1) (l (play f x c past).1.1) (play f x c past).1.2 := by
  unfold Alike said statusAfter
  rw [play_bind, play_bind]

theorem alike_ready : Alike f past readyForQuery (pure ()) c := by
  unfold Alike said statusAfter readyForQuery send
  simp only [play_bind, play_get, play_modify, play_pure, filter_append]
  exact ⟨append_nil _, trivial⟩

theorem alike_ended {α : Type} {x : Handler α} : Alike f past (do let _ ← x; readyForQuery) (do let _ ← x; pure ()) c :=
  alike_bind.mpr alike_ready

theorem not_alike_of_kind {P : Backend → Prop} {x y m} (kinds : Leads (Says P) x) (other : ¬P m)
    (shown : isReady m = false) (sent : (play f y c past).1.2.sent = c.sent ++ [m]) : ¬Alike f past x y c := by
  intro ⟨hs, _⟩
  obtain ⟨out, said', kind⟩ : Says P c (play f x c past).1.2 := of_wp (kinds c)
  unfold said at hs
  rw [said', sent, filter_append, filter_append, append_cancel_left_eq] at hs
  have hm : m ∈ out.filter fun m => !isReady m := by
    rw [hs]
    simp [shown]
  exact other (kind m (mem_filter.mp hm).1)

def shown (formats : List Int) (oids : List Oid) : List (Except Text Row) → List Backend
  | .ok values :: rows => .dataRow values formats oids :: shown formats oids rows
  | _ => []

def scanned : List (Except Text Row) → Nat → Except Text Nat
  | [], rowCount => .ok rowCount
  | .error err :: _, _ => .error err
  | .ok _ :: rows, rowCount => scanned rows (rowCount + 1)

theorem play_sendRows {formats oids rows rowCount} : play f (sendRows formats oids rows rowCount) c past =
      ((scanned rows rowCount, { c with sent := c.sent ++ shown formats oids rows }), past) := by
  induction rows generalizing c rowCount with
  | nil => simp [sendRows, play_pure, scanned, shown, append_nil]
  | cons row rows ih =>
    cases row with
    | error => simp [sendRows, play_pure, scanned, shown, append_nil]
    | ok =>
      simp [sendRows, send, play_bind, play_modify, ih, scanned, shown, append_assoc, cons_append, nil_append]

theorem any_error_of_scanned {rows} (rowCount : Nat) :
    (rows.any fun row => row matches .error _) = (scanned rows rowCount matches .error _) := by
  induction rows generalizing rowCount with
  | nil => rfl
  | cons row rows ih =>
    cases row with
    | error => rfl
    | ok => exact ih (rowCount + 1)

theorem scan_error_alike_iff :
    Alike f past (do sendPlainError err; readyForQuery) (do sendError "42000" err; pure ()) c ↔
      c.txStatus ≠ .transaction := by
  unfold Alike said statusAfter sendPlainError sendError setTxError readyForQuery send
  simp only [play_bind, play_get, play_modify, play_pure]
  by_cases inTransaction : c.txStatus = .transaction
  · simp [inTransaction]
  · simp [inTransaction, isReady]

theorem iteration_error_not_alike {tag} : ¬Alike f past (do sendIterationError err; readyForQuery)
      (do updateTxStatus cmdType; sendCommandComplete tag; pure ()) c := by
  have errors : Leads (Says fun m => isQuiet m = false) (do sendIterationError err; readyForQuery) := by
    unfold sendIterationError iterationError
    simp only [bind_assoc, pure_bind]
    refine .seq says_isCallerCancellation fun cancelled => .seq (says_send rfl) fun _ => ?_
    exact .seq (.update fun _ => says_of_sent (by split <;> rfl)) fun _ => .seq .read fun _ => says_send rfl
  refine not_alike_of_kind (m := .commandComplete tag) errors nofun rfl ?_
  cases cmdType <;> rfl

theorem select_alike_iff {sql} :
    Alike f past (executeSelectQuery sql cmdType) (do let _ ← batchSelect sql cmdType; pure ()) c ↔
      ∀ rows, (play f (recovered (query sql [])) c past).1.1 = .ok rows → Complete c.txStatus rows := by
  unfold executeSelectQuery batchSelect
  rw [bind_assoc, alike_bind]
  have status : (play f (recovered (query sql [])) c past).1.2.txStatus = c.txStatus :=
    of_wp (calls_recovered calls_query (P := fun d => d.txStatus = c.txStatus) (fun _ _ _ hl => hl) rfl)
  generalize play f (recovered (query sql [])) c past = answered at status ⊢
  obtain ⟨⟨result, d⟩, past⟩ := answered
  change d.txStatus = c.txStatus at status
  cases result with
  | error => simp only [bind_assoc, pure_bind, alike_ended, reduceCtorEq, false_implies, implies_true]
  | ok rows =>
    dsimp only
    cases header : rows.header with
    | error =>
      simp only [bind_assoc, pure_bind, alike_ended, Complete, header, Except.ok.injEq, forall_eq', reduceCtorEq,
        false_implies, implies_true]
    | ok =>
      have complete : Complete c.txStatus rows ↔
          if scanned rows.rows 0 matches .error _ then d.txStatus ≠ .transaction else rows.finalErr = none := by
        simp [Complete, header, Except.ok.injEq, forall_eq', any_error_of_scanned 0, status]
      simp only [Except.ok.injEq, forall_eq', complete]
      rw [bind_assoc, alike_bind, bind_assoc, alike_bind, play_sendRows]
      cases scan : scanned rows.rows 0 with
      | error => exact scan_error_alike_iff
      | ok =>
        simp only [bind_assoc]
        cases final : rows.finalErr with
        | none => exact iff_of_true (alike_bind.mpr (alike_bind.mpr alike_ready)) (by simp)
        | some err => exact iff_of_false iteration_error_not_alike (by simp)

theorem executeSingleStatement_of_error (isOther : ¬Intercepted e text) (hfa : e.transpile false text = .error err) :
    executeSingleStatement e text = (do sendError "42601" (syntaxError err); pure true) := by
  simp only [Intercepted, not_or, Bool.not_eq_true, Option.isSome_eq_false_iff, Option.isNone_iff_eq_none] at isOther
  simp [executeSingleStatement, isOther, hfa, Bool.false_eq_true]

section
variable (statement : IsStatement e text stmt)
include statement

theorem executeBatch_singleton : executeBatch e [stmt] = (do let _ ← executeSingleStatement e text; pure ()) := by
  simp [executeBatch, statement.deparsed, ite_self]

theorem intercepted_alike (intercepted : Intercepted e text) :
    Alike f past (handleQuery e text) (do let _ ← executeSingleStatement e text; pure ()) c := by
  unfold handleQuery executeSingleStatement
  simp only [statement.trimmed, statement.nonempty, cursorHandler_ended readyForQuery]
  cases cursor : cursorHandler e text (pure ()) with
  | some handler =>
    simp only [Option.map_some, ended, bind_assoc]
    exact alike_ended
  | none =>
    cases pgCursors : e.pgCursorsQuery text with
    | some cursorName =>
      simp only [bind_assoc]
      exact alike_ended
    | none =>
      have activity : e.pgStatActivityQuery text = true := by simpa [Intercepted, cursor, pgCursors] using intercepted
      simp only [activity, if_true, bind_assoc]
      exact alike_ended

theorem handleQuery_of_not_intercepted (isOther : ¬Intercepted e text) : handleQuery e text = handleText e text := by
  simp only [Intercepted, not_or, Bool.not_eq_true, Option.isSome_eq_false_iff, Option.isNone_iff_eq_none] at isOther
  unfold handleQuery
  simp [statement.trimmed, statement.nonempty, cursorHandler_ended readyForQuery, isOther, Option.map_none,
    Bool.false_eq_true]

theorem handleText_of_transpile
    (translates : e.passthrough = false) (noCopy : shouldHandleCopyBeforeTranspile text = false)
    (transpiled : e.transpile false text = .ok result) : handleText e text = handleTranspiled e result := by
  simp [handleText, translates, noCopy, handleStatements, statement.parsed, transpiled, validated,
    statement.native result transpiled, Bool.false_eq_true, pure_bind]

theorem executeSingleStatement_of_transpile
    (isOther : ¬Intercepted e text) (transpiled : e.transpile false text = .ok result) :
    executeSingleStatement e text = executeTranspiled e result := by
  simp only [Intercepted, not_or, Bool.not_eq_true, Option.isSome_eq_false_iff, Option.isNone_iff_eq_none] at isOther
  simp [executeSingleStatement, isOther, transpiled, validated, statement.native result transpiled,
    Bool.false_eq_true, pure_bind]

end

theorem not_run_alike (stops : ¬Runs result) :
    Alike f past (handleTranspiled e result) (do let _ ← executeTranspiled e result; pure ()) c := by
  unfold handleTranspiled executeTranspiled
  cases hfa : result.error with
  | some err => exact alike_ended
  | none =>
    cases ignored : result.isIgnoredSet with
    | true => exact alike_ended
    | false =>
      have noOp : result.isNoOp = true := by simpa [Runs, hfa, ignored] using stops
      simp only [noOp]
      exact alike_ended

theorem run_alike_iff (runs : Runs result) :
    Alike f past (handleTranspiled e result) (do let _ ← executeTranspiled e result; pure ()) c ↔
      result.statements = [] ∧ getCommandType (rewriteDirectQuery e result.sql).toUpper ≠ .copy ∧
      (queryReturnsResults (rewriteDirectQuery e result.sql) = true → ∀ rows,
        (play f (recovered (query (rewriteDirectQuery e result.sql) [])) c past).1.1 = .ok rows →
          Complete c.txStatus rows) := by
  unfold handleTranspiled executeTranspiled
  simp only [runs.1, runs.2.1, runs.2.2]
  by_cases several : result.statements = []
  · simp only [several, true_and]
    by_cases copy : getCommandType (rewriteDirectQuery e result.sql).toUpper = .copy
    · simp only [copy, ne_eq, not_true_eq_false, false_and, iff_false]
      exact not_alike_of_kind accepts_handleCopy (by decide) rfl rfl
    simp only [copy, ne_eq, not_false_eq_true, true_and]
    cases returning : queryReturnsResults (rewriteDirectQuery e result.sql) with
    | true =>
      simp only [forall_const]
      exact select_alike_iff
    | false =>
      simp only [Bool.false_eq_true, false_implies, iff_true]
      rw [execStatement_ended]
      simp only [ended, bind_assoc]
      exact alike_ended
  · have hn : result.statements.isEmpty = false := by simpa using several
    simp only [several, hn, false_and, iff_false]
    exact not_alike_of_kind accepts_executeMultiStatement (by decide) rfl rfl

theorem batch_alike_iff (statement : IsStatement e text stmt) (translates : e.passthrough = false) :
    Alike f past (handleQuery e text) (executeBatch e [stmt]) c ↔ Suits e f past text c := by
  rw [executeBatch_singleton statement]
  by_cases intercepted : Intercepted e text
  · exact iff_of_true (intercepted_alike statement intercepted) (.inl intercepted)
  rw [handleQuery_of_not_intercepted statement intercepted]
  simp only [Suits, intercepted, false_or]
  cases copied : shouldHandleCopyBeforeTranspile text with
  | true =>
    obtain ⟨result, transpiled, runs, single, copy⟩ := statement.copies copied
    simp only [handleText, translates, copied, Bool.false_eq_true, if_false, if_true]
    rw [executeSingleStatement_of_transpile statement intercepted transpiled]
    refine iff_of_false ?_ fun suits => (suits result transpiled runs).2.1 copy
    refine not_alike_of_kind accepts_handleCopy (m := .errorResponse "0A000"
      "COPY not supported in multi-statement queries".toList) (by decide) rfl ?_
    simp only [executeTranspiled, runs.1, runs.2.1, runs.2.2, single, copy]
    rfl
  | false =>
    cases transpiled : e.transpile false text with
    | error =>
      simp only [reduceCtorEq, false_implies, implies_true, iff_true]
      simp only [handleText, translates, copied, handleStatements, statement.parsed, transpiled,
        Bool.false_eq_true, if_false]
      rw [executeSingleStatement_of_error intercepted transpiled]
      exact alike_ended
    | ok result =>
      rw [handleText_of_transpile statement translates copied transpiled,
        executeSingleStatement_of_transpile statement intercepted transpiled]
      by_cases runs : Runs result
      · simp only [run_alike_iff runs, Except.ok.injEq, forall_eq', runs, true_implies]
      · simp only [Except.ok.injEq, forall_eq', runs, false_implies, iff_true]
        exact not_run_alike runs

def oneRow (err : Option Text) : RowSet where
  columns := .ok ["a".toList]
  columnTypes := .ok ["INTEGER".toList]
  rows := [.ok [.int .int32 1]]
  err _ := err

def answeredBy (rows : RowSet) : Script.Behaviour Call Answer := fun _ => answering rows

def failingAfterRow : Script.Behaviour Call Answer := answeredBy (oneRow (some "Out of Memory Error".toList))

def selectText : Text := "SELECT a FROM t".toList

def selectStmt : ParsedStmt := ⟨.other, .ok selectText⟩

theorem isStatement_select : IsStatement .single selectText selectStmt where
  parsed := rfl
  deparsed := rfl
  trimmed := by decide
  nonempty := by decide
  native result transpiled := by
    cases transpiled
    rfl
  copies copied := by
    have other : shouldHandleCopyBeforeTranspile selectText = false := by decide
    cases other.symm.trans copied

theorem batch_alike_iff_select :
    Alike (answeredBy (oneRow none)) [] (handleQuery .single selectText) (executeBatch .single [selectStmt])
      (.started []) ↔ Suits .single (answeredBy (oneRow none)) [] selectText (.started []) :=
  batch_alike_iff isStatement_select rfl

theorem batch_reports_cut_result : (said failingAfterRow [] (handleQuery .single selectText) (.started [])).getLast? =
        some (.errorResponse "42000" "Out of Memory Error".toList) ∧
      (said failingAfterRow [] (executeBatch .single [selectStmt]) (.started [])).getLast? =
        some (.commandComplete "SELECT 1".toList) ∧
      ¬Alike failingAfterRow [] (handleQuery .single selectText) (executeBatch .single [selectStmt]) (.started []) := by
  have alone : (said failingAfterRow [] (handleQuery .single selectText) (.started [])).getLast? =
      some (.errorResponse "42000" "Out of Memory Error".toList) := rfl
  have batch : (said failingAfterRow [] (executeBatch .single [selectStmt]) (.started [])).getLast? =
      some (.commandComplete "SELECT 1".toList) := rfl
  refine ⟨alone, batch, fun alike => ?_⟩
  rw [alike.1] at alone
  cases alone

variable {body : Text}

def Readies {α : Type} (x : Handler α) : Prop :=
  ∀ c, wp x (fun _ d => d.isOpen = true → ∃ before, d.sent = before ++ [.readyForQuery d.txStatus]) c

theorem Readies.after {α β : Type} {x : Handler α} {f : α → Handler β} (rest : ∀ a, Readies (f a)) :
    Readies (x >>= f) := by
  intro c
  rw [wp_bind]
  exact wp_iff.mpr fun a d _ => rest a d

theorem readies_readyForQuery : Readies readyForQuery := by
  intro c
  unfold readyForQuery send
  simp only [wp_bind, wp_get, wp_modify]
  exact fun _ => ⟨c.sent, rfl⟩

theorem Readies.ends {α : Type} {x : Handler α} : Readies (do let _ ← x; readyForQuery) :=
  .after fun _ => readies_readyForQuery

theorem readies_close : Readies close := by
  intro c
  unfold close
  rw [wp_modify]
  intro ho
  cases ho

theorem readies_executeSelectQuery : Readies (executeSelectQuery text cmdType) := by
  refine .after (of_result (fun _ => .ends) fun _ => ?_)
  dsimp only
  split
  · exact .ends
  refine .after fun _ => .after (of_result (fun _ => .ends) fun _ => ?_)
  dsimp only
  split
  · exact .ends
  · exact .after fun _ => .ends

theorem readies_streamRowsToClient {rows} : Readies (streamRowsToClient rows cmdType) := by
  unfold streamRowsToClient
  split
  · exact .ends
  refine .after fun _ => .after (of_result (fun _ => .ends) fun _ => ?_)
  dsimp only
  split <;> exact .ends

theorem readies_executeMultiStatement {statements cleanup} : Readies (executeMultiStatement statements cleanup) := by
  have fails {cleanup : List Text} {err : Text} : Readies (sendSetupError cleanup err readyForQuery) :=
    .after fun _ => .after fun _ => .ends
  unfold executeMultiStatement multiStatement
  split
  · exact .ends
  refine .after fun c => ?_
  refine .after (of_result (fun _ => fails) fun _ => ?_)
  dsimp only
  split
  · exact .after (of_result (fun _ => fails) fun _ => .after fun _ => readies_streamRowsToClient)
  · exact .after (of_result (fun _ => fails) fun _ => .after fun _ => .ends)

theorem readies_failCopy {code message} : Readies (failCopy code message) := .after fun _ => .ends

theorem readies_finishCopy {result} : Readies (finishCopy result) := by
  cases result with
  | error => exact readies_failCopy
  | ok => exact .ends

theorem readies_endCopy {ending load} (loads : Readies load) : Readies (endCopy ending load) := by
  cases ending with
  | done => exact loads
  | fail | unexpected => exact readies_failCopy
  | lost => exact readies_close

theorem readies_handleCopyOut : Readies (handleCopyOut e text) := by
  unfold handleCopyOut
  split
  · exact readies_failCopy
  refine .after (of_result (fun _ => .ends) fun _ => ?_)
  dsimp only
  split
  · exact .ends
  split
  · unfold handleCopyOutBinary
    split
    · exact .ends
    refine .after fun _ => .after (of_result (fun _ => .ends) fun _ => ?_)
    dsimp only
    split
    · exact .ends
    · exact .after fun _ => .after fun _ => .ends
  · split
    · exact .ends
    · refine .after fun _ => .after fun _ => .after fun sent => ?_
      dsimp only
      split
      · exact .ends
      · exact .after fun _ => .ends

variable {opts : CopyFromOptions}

theorem readies_copyInFile : Readies (copyInFile opts) := by
  refine .after (of_result (fun _ => readies_failCopy) fun _ => ?_)
  exact .after fun c => .after (of_result (fun _ => readies_failCopy) fun _ => readies_endCopy (.after
    fun _ => readies_finishCopy))

theorem readies_handleCopyInRemoteStreaming : Readies (handleCopyInRemoteStreaming opts) := by
  refine .after fun answer => .after fun c => ?_
  refine .after fun _ => ?_
  split
  · exact readies_failCopy
  · exact readies_failCopy
  · exact readies_finishCopy
  · exact readies_finishCopy

theorem readies_loadCSV {cols colTypes data} : Readies (loadCSV e opts cols colTypes data) := by
  unfold loadCSV
  split
  · exact readies_failCopy
  · dsimp only
    split
    · exact .ends
    · exact .after fun _ => readies_finishCopy

theorem readies_loadBinary {cols colTypes data} : Readies (loadBinary e opts cols colTypes data) := by
  unfold loadBinary
  split
  · exact readies_close
  · exact readies_failCopy
  · exact .after fun _ => readies_finishCopy

theorem readies_handleCopyIn : Readies (handleCopyIn e text) := by
  unfold handleCopyIn
  split
  · exact readies_failCopy
  refine .after (of_result (fun _ => readies_failCopy) fun _ => ?_)
  dsimp only
  split
  · exact .after fun _ => .after fun _ => .after fun _ => readies_endCopy readies_loadBinary
  split
  · exact .after fun _ => .after fun _ => .after fun _ => readies_endCopy readies_loadCSV
  · refine .after fun _ => ?_
    split
    · exact readies_handleCopyInRemoteStreaming
    · exact readies_copyInFile

theorem readies_handleCopy : Readies (handleCopy e text) := by
  unfold handleCopy
  split
  · exact readies_handleCopyOut
  split
  · exact readies_handleCopyIn
  · refine .after fun result => ?_
    cases result with
    | error | ok => exact .ends

theorem readies_execStatement {run} : Readies (do let _ ← execStatement cmdType run readyForQuery) := by
  rw [execStatement_ended]
  simp only [ended, bind_assoc]
  exact .ends

theorem readies_handleTranspiled {result} : Readies (handleTranspiled e result) := by
  unfold handleTranspiled
  split
  · exact .ends
  split
  · exact .ends
  split
  · exact .ends
  split
  · exact readies_executeMultiStatement
  dsimp only
  split
  · exact readies_handleCopy
  · split
    · exact readies_execStatement
    · exact readies_executeSelectQuery

theorem readies_handleText : Readies (handleText e text) := by
  unfold handleText
  split
  · dsimp only
    split
    · exact readies_handleCopy
    · unfold executeQueryDirect
      split
      · exact readies_execStatement
      · exact readies_executeSelectQuery
  · split
    · exact readies_handleCopy
    · unfold handleStatements
      split
      · exact .ends
      split
      · exact .ends
      · exact .after (of_result (fun _ => .ends) fun _ => readies_handleTranspiled)

theorem readies_handleQuery : Readies (handleQuery e body) := by
  unfold handleQuery
  dsimp only
  split
  · exact .ends
  rw [cursorHandler_ended readyForQuery]
  cases cursorHandler e body.trimSpace (pure ()) with
  | some handler =>
    simp only [Option.map_some, ended, bind_assoc]
    exact .ends
  | none =>
    dsimp [Option.map_none]
    split
    · exact .ends
    · split
      · exact .ends
      · exact readies_handleText

end Duckgres.Proof.Conn
