import Duckgres.Proof.Conn.Effects
import Mathlib.Data.List.Forall2

namespace Duckgres.Proof.Conn
open Base Base.Stateful Duckgres.Conn Duckgres.Execution Duckgres.Proof.Execution List Option

structure Judge extends Verdict where
  modifies_rollback : modifies "ROLLBACK".toList = false

variable {D : Judge} {e : Setting} {c d final : ClientConn} {out : List Backend} {calls others : List Occurrence}

abbrev Command := Text × List Value

def completed (o : Occurrence) : Option Command :=
  match o.call, o.answer with
  | .exec text args, answer => if Answered.result answer matches .ok _ then some (text, args) else none
  | .query text args, answer => if Answered.result answer matches .ok _ then some (text, args) else none
  | _, _ => none

section
variable (D)

def modifying (cmds : List Command) : List Command := cmds.filter fun cmd => D.modifies cmd.1

def applied (calls : List Occurrence) : List Command := modifying D (calls.filterMap completed)

end

theorem applied_append : applied D (calls ++ others) = applied D calls ++ applied D others := by
  simp [applied, modifying]

variable (e) in
def Realizes (cmd run : Command) : Prop :=
  run = cmd ∨ run.2 = cmd.2 ∧
    (e.convertAlterTableToAlterView cmd.1 = some run.1 ∨ e.convertDropTableToDropView cmd.1 = some run.1)

def Applies (D : Judge) (e : Setting) (cmds : List Command) (calls : List Occurrence) : Prop :=
  List.Forall₂ (Realizes e) (modifying D cmds) (applied D calls)

variable {cmds : List Command} {α : Type} {err text name : Text} {cleanup statements : List Text}
  {cmdType : CommandType} {formats : List Int} {oids : List Oid} {p : Portal} {maxRows howMany : Int}
  {cursor : Cursor}

theorem Applies.append {more} (first : Applies D e cmds calls) (second : Applies D e more others) :
    Applies D e (cmds ++ more) (calls ++ others) := by
  unfold Applies
  rw [applied_append, modifying, filter_append]
  exact rel_append first second

def Settles (D : Judge) (e : Setting) (cmds : List Command) (c d : ClientConn) : Prop :=
  ∃ out calls, Moves out calls c d ∧ (out.any isError = false → Applies D e cmds calls)

theorem Settles.trans {more} (first : Settles D e cmds c d) (second : Settles D e more d final) :
    Settles D e (cmds ++ more) c final := by
  obtain ⟨out, calls, hv, applies⟩ := first
  obtain ⟨outMore, callsMore, hvm, appliesMore⟩ := second
  refine ⟨_, _, hv.trans hvm, fun plain => ?_⟩
  rw [any_append, Bool.or_eq_false_iff] at plain
  exact (applies plain.1).append (appliesMore plain.2)

theorem settles_silent (sent : d.sent = c.sent) (log : d.log = c.log) (inTxn : d.inTxn = c.inTxn) :
    Settles D e [] c d := ⟨[], [], .called sent (log.trans (append_nil _).symm) inTxn, fun _ => .nil⟩

theorem settles_message (m : Backend) (c : ClientConn) : Settles D e [] c { c with sent := c.sent ++ [m] } :=
  ⟨[m], [], .told rfl rfl rfl, fun _ => .nil⟩

instance : Messages (Settles D e []) where
  refl _ := settles_silent rfl rfl rfl
  trans _ _ _ first second := first.trans second
  message m c _ := settles_message m c
  silent _ _ sent log inTxn _ := settles_silent sent log inTxn

theorem settles_send {m} : Leads (Settles D e []) (send m) := .update (settles_message m)

theorem settles_perform {call} (silent : statement call = none) : Leads (Settles D e []) (perform call) := by
  refine leads_call fun answer _ => ⟨[], [⟨call, answer⟩], .called rfl rfl rfl, fun _ => ?_⟩
  cases call with
  | exec => cases silent
  | query => cases silent
  | _ => exact .nil

theorem settles_then {x : Handler α} (first : Settles D e cmds c d)
    (rest : Leads (Settles D e []) x) : wp x (fun _ => Settles D e cmds c) d := by
  refine wp_imp (rest d) fun _ final second => ?_
  simpa using first.trans second

def Fails (c d : ClientConn) : Prop := ∃ out calls, Moves out calls c d ∧ out.any isError = true

def Moving (c d : ClientConn) : Prop := ∃ out calls, Moves out calls c d

instance : Std.Refl Moving := ⟨fun c => ⟨[], [], .refl c⟩⟩

instance : IsTrans ClientConn Moving := ⟨fun _ _ _ ⟨_, _, first⟩ ⟨_, _, second⟩ => ⟨_, _, first.trans second⟩⟩

theorem Settles.moving (settles : Settles D e cmds c d) : Moving c d := by
  obtain ⟨out, calls, hv, _⟩ := settles
  exact ⟨out, calls, hv⟩

theorem Fails.settles (fails : Fails c d) : Settles D e cmds c d := by
  obtain ⟨out, calls, hv, hfa⟩ := fails
  exact ⟨out, calls, hv, fun plain => by cases hfa.symm.trans plain⟩

theorem Fails.after (moving : Moving c d) (fails : Fails d final) : Fails c final := by
  obtain ⟨_, _, hv⟩ := moving
  obtain ⟨_, _, hvm, hfa⟩ := fails
  exact ⟨_, _, hv.trans hvm, by simp [hfa]⟩

theorem Calls.moving (made : Calls c d) : Moving c d := by
  obtain ⟨calls, rfl⟩ := made
  exact ⟨[], calls, .called rfl rfl rfl⟩

theorem error_fails {code message} : wp (do sendError code message; setTxError) (fun _ => Fails c) c :=
  wp_imp error_moves fun _ _ ⟨hv, _⟩ => ⟨_, _, hv, rfl⟩

theorem sendPlainError_fails : wp (sendPlainError err) (fun _ => Fails c) c := error_fails

theorem sendIterationError_fails : wp (sendIterationError err) (fun _ => Fails c) c := by
  refine wp_seq (calls_iterationError calls_kept (.refl c)) fun _ d made => ?_
  exact wp_imp error_fails fun _ _ fails => fails.after made.moving

theorem sendStatementError_fails : wp (sendStatementError err) (fun _ => Fails c) c := by
  refine wp_seq (calls_isCallerCancellation calls_kept (.refl c)) fun _ d made => ?_
  exact wp_imp error_fails fun _ _ fails => fails.after made.moving

theorem sendError_fails {code message} : wp (sendError code message) (fun _ => Fails c) c := by
  unfold sendError send
  rw [wp_modify]
  exact ⟨_, [], .told rfl rfl rfl, rfl⟩

theorem sendSetupError_fails : wp (sendSetupError cleanup err (pure ())) (fun _ => Fails c) c := by
  unfold sendSetupError setTxError
  simp only [wp_bind, wp_modify, wp_pure]
  refine wp_imp (calls_executeCleanup calls_kept (.refl _)) fun _ d made => ?_
  refine wp_imp sendError_fails fun _ _ fails => ?_
  have raised : Moving c (if c.txStatus = .transaction then { c with txStatus := .error } else c) := by
    refine ⟨[], [], ?_, ?_, ?_⟩
    all_goals
      split
      all_goals simp [leftBy]
  exact (fails.after made.moving).after raised

theorem settles_of_fails {x : Handler α} (moving : Moving c d)
    (fails : wp x (fun _ => Fails d) d) : wp x (fun _ => Settles D e cmds c) d :=
  wp_imp fails fun _ _ fails => (fails.after moving).settles

theorem applies_of_completed (hs : calls.filterMap completed = cmds) : Applies D e cmds calls := by
  unfold Applies applied
  rw [hs]
  exact forall₂_same.mpr fun _ _ => .inl rfl

def Outcome {α : Type} (D : Judge) (e : Setting) (cmds : List Command) (c : ClientConn) (result : Except Text α)
    (d : ClientConn) : Prop :=
  match result with
  | .ok _ => Settles D e cmds c d
  | .error _ => Settles D e [] c d

def Completes {α : Type} (cmd : Command) (c : ClientConn) (result : Except Text α) (d : ClientConn) : Prop :=
  ∃ calls, Moves [] calls c d ∧ calls.filterMap completed = match result with
    | .ok _ => [cmd]
    | .error _ => []

variable {args : List Value}

theorem exec_completes : wp (exec text args) (Completes (text, args) c) c := by
  unfold exec perform
  simp only [wp_bind, wp_call, wp_pure]
  intro answer
  refine ⟨[⟨.exec text args, answer⟩], .called rfl rfl rfl, ?_⟩
  cases result : Answered.result answer with
  | error | ok => simp [completed, result]

theorem query_completes : wp (query text args) (Completes (text, args) c) c := by
  unfold query perform
  simp only [wp_bind, wp_call, wp_pure]
  intro answer
  refine ⟨[⟨.query text args, answer⟩], .called rfl rfl rfl, ?_⟩
  cases result : Answered.result answer with
  | error | ok => simp [completed, result]

theorem Completes.outcome {cmd} {result : Except Text α} (completes : Completes cmd c result d) :
    Outcome D e [cmd] c result d := by
  obtain ⟨calls, hv, hs⟩ := completes
  cases result with
  | error | ok => exact ⟨[], calls, hv, fun _ => applies_of_completed hs⟩

theorem modifying_eq_nil (spared : ∀ cmd ∈ cmds, D.modifies cmd.1 = false) : modifying D cmds = [] := by
  rw [modifying, filter_eq_nil_iff]
  exact fun cmd hm => ne_true_of_eq_false (spared cmd hm)

theorem Settles.congr {others} (hs : modifying D cmds = modifying D others)
    (settles : Settles D e cmds c d) : Settles D e others c d := by
  obtain ⟨out, calls, hv, applies⟩ := settles
  refine ⟨out, calls, hv, fun plain => ?_⟩
  unfold Applies
  rw [← hs]
  exact applies plain

theorem settles_exec (spared : D.modifies text = false) : Leads (Settles D e []) (exec text args) := by
  intro c
  refine wp_imp exec_completes fun result d completes => ?_
  have outcome : Outcome D e [(text, args)] c result d := completes.outcome
  cases result with
  | error => exact outcome
  | ok => exact Settles.congr (modifying_eq_nil (by simpa using spared)) outcome

theorem Outcome.after {result : Except Text α} (first : Settles D e [] c d)
    (second : Outcome D e cmds d result final) : Outcome D e cmds c result final := by
  cases result with
  | ok | error => exact first.trans second

theorem outcome_recovered {run : Handler (Except Text α)}
    (runs : ∀ d, wp run (Outcome D e cmds d) d) : wp (recovered run) (Outcome D e cmds c) c := by
  refine wp_recovered_of (P := Settles D e [] c) ?_ (fun _ _ hl => hl) (fun _ _ hl => hl) ?_ (Std.Refl.refl c)
  · intro d hl
    exact wp_imp (runs d) fun _ _ outcome => outcome.after hl
  · intro _ d hl
    exact settles_then hl (.seq (settles_exec D.modifies_rollback) fun _ => .ret)

def ViewsAlike (D : Judge) (e : Setting) (text : Text) : Prop := ∀ altered,
  e.convertAlterTableToAlterView text = some altered ∨ e.convertDropTableToDropView text = some altered →
    D.modifies altered = D.modifies text

theorem viewStatement_eq_some {altered} (isView : viewStatement e text err = some altered) :
    e.convertAlterTableToAlterView text = some altered ∨ e.convertDropTableToDropView text = some altered := by
  unfold viewStatement at isView
  rw [or_eq_some_iff] at isView
  rcases isView with alters | ⟨_, drops⟩
  · split at alters
    · exact .inl alters
    · cases alters
  · split at drops
    · exact .inr drops
    · cases drops

theorem runExec_outcome (alike : ViewsAlike D e text) : wp (runExec e text args) (Outcome D e [(text, args)] c) c := by
  refine wp_seq exec_completes fun result d completes => ?_
  have outcome : Outcome D e [(text, args)] c result d := completes.outcome
  cases result with
  | ok => exact .ret outcome
  | error err =>
    cases isView : viewStatement e text err with
    | none =>
      simp only [isView]
      exact .ret outcome
    | some altered =>
      simp only [isView]
      refine wp_imp exec_completes fun result final ⟨calls, hv, hs⟩ => Outcome.after outcome ?_
      have isForm := viewStatement_eq_some isView
      cases result with
      | error => exact ⟨[], calls, hv, fun _ => applies_of_completed hs⟩
      | ok =>
        refine ⟨[], calls, hv, fun _ => ?_⟩
        have alike := alike altered isForm
        unfold Applies applied
        rw [hs]
        cases modifies : D.modifies text with
        | false => simp [modifying, modifies, alike]
        | true =>
          have realizes : Realizes e (text, args) (altered, args) := .inr ⟨rfl, isForm⟩
          simpa [modifying, modifies, alike] using realizes

theorem settles_updateTxStatus : Leads (Settles D e []) (updateTxStatus cmdType) := by
  refine .update fun c => ?_
  cases cmdType with
  | _ => exact settles_silent rfl rfl rfl

theorem execStatement_settles {cmd run}
    (nested : cmdType = .begin ∧ c.txStatus = .transaction → D.modifies cmd.1 = false)
    (runs : ¬(cmdType = .begin ∧ c.txStatus = .transaction) → ∀ d, wp run (Outcome D e [cmd] d) d) :
    wp (execStatement cmdType run (pure ())) (fun _ => Settles D e [cmd] c) c := by
  unfold execStatement
  simp only [wp_bind, wp_get]
  split
  · rename_i isNested
    have spared : Settles D e [cmd] c c := by
      refine ⟨[], [], .refl c, fun _ => ?_⟩
      simp [Applies, applied, modifying, nested isNested]
    exact settles_then spared (.seq (.seq settles_send fun _ => settles_send) fun _ => .ret)
  · rename_i notNested
    refine wp_seq (outcome_recovered (runs notNested)) fun result d outcome => ?_
    cases result with
    | error =>
      refine wp_seq sendStatementError_fails fun _ _ fails => .ret ?_
      exact (fails.after outcome.moving).settles
    | ok =>
      exact settles_then outcome (.seq settles_updateTxStatus fun _ => .seq settles_send fun _ => .ret)

theorem settles_of_errs {x : Handler Unit} (fails : ∀ c, wp x (fun _ => Fails c) c) :
    Leads (Settles D e []) x := fun c =>
  wp_imp (fails c) fun _ _ fails => fails.settles

theorem settles_executeRows {rows : RowSet} : Leads (Settles D e []) (executeRows p rows cmdType maxRows oids) := by
  refine .seq leads_sendRows (of_result (fun _ => settles_of_errs fun _ => sendPlainError_fails) fun _ => ?_)
  dsimp only
  split
  · exact settles_of_errs fun _ => sendIterationError_fails
  · exact .seq settles_updateTxStatus fun _ => settles_send

theorem executeSelect_settles :
    wp (executeSelect p args cmdType maxRows) (fun _ => Settles D e [(p.stmt.convertedQuery, args)] c) c := by
  have runs (d : ClientConn) : wp (query p.stmt.convertedQuery args)
      (Outcome D e [(p.stmt.convertedQuery, args)] d) d := wp_imp query_completes fun _ _ completes => completes.outcome
  refine wp_seq (outcome_recovered runs)
    (of_result (fun _ _ outcome => settles_of_fails outcome.moving sendStatementError_fails) fun _ _ outcome => ?_)
  dsimp only
  split
  · exact settles_then outcome (settles_of_errs fun _ => sendPlainError_fails)
  · split
    · exact settles_then outcome (leads_silent fun _ => ⟨rfl, rfl, rfl, rfl⟩)
    · exact settles_then outcome settles_executeRows
  · exact settles_then outcome (.seq (leads_sendWhen rfl) fun _ => settles_executeRows)

theorem settles_streamRowsToClientExtended {described : Bool} {rows : RowSet} :
    Leads (Settles D e []) (streamRowsToClientExtended formats described rows cmdType) := by
  unfold streamRowsToClientExtended
  split
  · exact settles_of_errs fun _ => sendPlainError_fails
  refine .seq (leads_sendWhen rfl) fun _ => .seq leads_sendRows
    (of_result (fun _ => settles_of_errs fun _ => sendPlainError_fails) fun _ => ?_)
  dsimp only
  split
  · exact settles_of_errs fun _ => sendIterationError_fails
  · exact settles_send

theorem settles_executeCleanup (spared : ∀ text ∈ cleanup, D.modifies text = false) :
    Leads (Settles D e []) (executeCleanup cleanup) := by
  induction cleanup with
  | nil => exact .ret
  | cons stmt cleanup ih =>
    refine .seq (settles_exec (spared stmt mem_cons_self)) fun _ => ih ?_
    exact fun text hm => spared text (mem_cons_of_mem _ hm)

theorem executeSetup_outcome : wp (executeSetup args statements) (fun result d => match result with
      | .ok _ => Settles D e (statements.map (·, args)) c d
      | .error _ => Moving c d) c := by
  induction statements generalizing c with
  | nil => exact .ret (Std.Refl.refl (r := Settles D e []) c)
  | cons stmt statements ih =>
    refine wp_seq exec_completes fun result d completes => ?_
    have outcome : Outcome D e [(stmt, args)] c result d := completes.outcome
    cases result with
    | error => exact .ret (Settles.moving outcome)
    | ok =>
      exact wp_imp ih (of_result (fun _ _ rest => IsTrans.trans _ _ _ (Settles.moving outcome) rest)
        fun _ _ => Settles.trans outcome)

variable {args : List Value}

def planned (status : TxStatus) (statements cleanup : List Text) (args : List Value) : List Command :=
  (unwrapped status statements cleanup).1.map (·, args) ++ (unwrapped status statements cleanup).2.map (·, [])

theorem unwrapped_ne_nil {status} (hn : statements ≠ []) : (unwrapped status statements cleanup).1 ≠ [] := by
  unfold unwrapped
  dsimp only
  split
  · rename_i wrapped
    intro tail
    have length := congrArg List.length tail
    simp at length
    omega
  · exact hn

theorem map_eq_dropLast (hn : statements ≠ []) :
    statements.map (·, args) = statements.dropLast.map (·, args) ++ [(statements.getLastD [], args)] := by
  rw [← map_singleton (f := fun text => (text, args)), ← map_append, getLastD_eq_getLast?,
    getLast?_eq_some_getLast hn, getD_some, dropLast_append_getLast]

theorem executeMultiStatementExtended_settles {described} (hn : statements ≠ [])
    (spared : ∀ text ∈ (unwrapped c.txStatus statements cleanup).2, D.modifies text = false) :
    wp (executeMultiStatementExtended statements cleanup args formats described)
      (fun _ => Settles D e (planned c.txStatus statements cleanup args) c) c := by
  have isPlan : modifying D ((unwrapped c.txStatus statements cleanup).1.map (·, args)) =
      modifying D (planned c.txStatus statements cleanup args) := by
    have cleaned : modifying D ((unwrapped c.txStatus statements cleanup).2.map (·, [])) = [] := by
      refine modifying_eq_nil fun cmd hm => ?_
      obtain ⟨text, isText, rfl⟩ := mem_map.mp hm
      exact spared text isText
    unfold planned
    unfold modifying at cleaned ⊢
    rw [filter_append, cleaned, append_nil]
  have remains : (unwrapped c.txStatus statements cleanup).1 ≠ [] := unwrapped_ne_nil hn
  refine wp_imp ?_ fun _ _ => Settles.congr isPlan
  unfold executeMultiStatementExtended multiStatement
  rw [if_neg (by simpa using hn)]
  simp only [wp_bind, wp_get]
  generalize unwrapped c.txStatus statements cleanup = plan at remains spared
  obtain ⟨statements, cleanup⟩ := plan
  rw [map_eq_dropLast remains]
  refine wp_imp (executeSetup_outcome (D := D) (e := e))
    (of_result (fun _ _ setup => settles_of_fails setup sendSetupError_fails) fun _ d setup => ?_)
  dsimp only at setup ⊢
  have moving {final} (settles : Settles D e [] d final) : Moving c final :=
    IsTrans.trans _ _ _ setup.moving settles.moving
  split
  · rw [wp_bind]
    refine wp_imp query_completes (of_result
      (fun _ _ completes => settles_of_fails (moving completes.outcome) sendSetupError_fails) fun _ _ completes => ?_)
    exact settles_then (setup.trans completes.outcome)
      (.seq (settles_executeCleanup spared) fun _ => settles_streamRowsToClientExtended)
  · rw [wp_bind]
    refine wp_imp exec_completes (of_result
      (fun _ _ completes => settles_of_fails (moving completes.outcome) sendSetupError_fails) fun _ _ completes => ?_)
    exact settles_then (setup.trans completes.outcome)
      (.seq (settles_executeCleanup spared) fun _ => .seq settles_send fun _ => .ret)

theorem openCursor_settles : wp (openCursor name cursor) (fun result d => match result with
      | .ok _ => Settles D e (if cursor.rows.isNone then [(cursor.query, [])] else []) c d
      | .error _ => Moving c d) c := by
  unfold openCursor
  cases cursor.rows with
  | some rows => exact .ret (Std.Refl.refl (r := Settles D e []) c)
  | none =>
    refine wp_seq query_completes fun result d completes => ?_
    have outcome : Outcome D e [(cursor.query, [])] c result d := completes.outcome
    cases result with
    | error => exact .ret (Settles.moving outcome)
    | ok =>
      dsimp only
      split
      · exact .ret (Settles.moving outcome)
      · refine wp_seq (settles_then outcome leads_setCursor) fun _ _ settles => ?_
        exact .ret settles

theorem settles_fetchAll {rows : OpenRows} :
    Leads (Settles D e []) (fetchAll name cursor rows formats howMany (pure ())) := by
  refine .seq leads_fetchRows fun fetched => ?_
  refine .seq leads_setCursor fun _ => ?_
  split
  · exact .seq (settles_of_errs fun _ => sendPlainError_fails) fun _ => .ret
  · split
    · exact .seq (settles_of_errs fun _ => sendIterationError_fails) fun _ => .ret
    · exact .seq settles_send fun _ => .ret

theorem handleFetchCursorExtended_settles : wp (handleFetchCursorExtended e p name howMany)
      (fun _ => Settles D e ((cursorText c name).toList.map (·, [])) c) c := by
  unfold handleFetchCursorExtended cursorText
  simp only [wp_bind, wp_get]
  cases c.cursors name with
  | none => exact wp_imp sendError_fails fun _ _ fails => fails.settles
  | some cursor =>
    refine wp_seq (openCursor_settles (D := D) (e := e))
      (of_result (fun _ _ ho => settles_of_fails ho sendIterationError_fails) fun _ d ho => ?_)
    have ho : Settles D e ((if cursor.rows.isNone then some cursor.query else none).toList.map (·, [])) c d := by
      cases isOpen : cursor.rows with
      | none | some => simpa [isOpen] using ho
    exact settles_then ho (.seq (leads_sendWhen rfl) fun _ => .seq settles_fetchAll fun _ => .ret)

theorem settles_sendPgStatActivity {describes} : Leads (Settles D e []) (sendPgStatActivity describes formats) := by
  refine .seq (leads_sendWhen rfl) fun _ => ?_
  have lists : Leads (Settles D e []) (perform .listConns) := settles_perform rfl
  refine .seq lists fun conns => ?_
  exact .seq leads_sendActivities fun _ => settles_send

theorem settles_closePortal : Leads (Settles D e []) (closePortal e name (pure ())) := by
  unfold closePortal
  split
  · refine .seq (leads_silent fun _ => ⟨rfl, rfl, rfl, rfl⟩) fun _ => ?_
    exact .seq settles_send fun _ => .ret
  refine .seq .read fun c => ?_
  split
  · exact .seq settles_send fun _ => .ret
  · refine .seq leads_closeCursor fun _ => ?_
    exact .seq settles_send fun _ => .ret

def executedArgs (e : Setting) (p : Portal) : Option (List Value) :=
  if p.stmt.cursorOp.isNone && !isEmptyQuery p.stmt.query.trimSpace && !p.stmt.isIgnoredSet && !p.stmt.isNoOp then
    (decodeParams e p).toOption
  else none

def portalCommands (e : Setting) (c : ClientConn) (p : Portal) : List Command :=
  match p.stmt.cursorOp with
  | some (.fetch name _) => (cursorText c name).toList.map (·, [])
  | _ => match executedArgs e p with
    | none => []
    | some args =>
      if p.stmt.statements.isEmpty then [(p.stmt.convertedQuery, args)]
      else planned c.txStatus p.stmt.statements p.stmt.cleanupStatements args

def commands (e : Setting) (c : ClientConn) : Option (Text × Int) → List Command
  | none => []
  | some (portalName, _) => (c.portals portalName).elim [] (portalCommands e c)

structure SafeStatement (D : Judge) (e : Setting) (c : ClientConn) (ps : PreparedStmt) : Prop where
  cleanup : ps.statements ≠ [] →
    ∀ text ∈ (unwrapped c.txStatus ps.statements ps.cleanupStatements).2, D.modifies text = false
  nested : ps.statements = [] → queryReturnsResults ps.query = false →
    getCommandType ps.query.trimSpace.toUpper = .begin ∧ c.txStatus = .transaction →
      D.modifies ps.convertedQuery = false
  views : ps.statements = [] → queryReturnsResults ps.query = false →
    ¬(getCommandType ps.query.trimSpace.toUpper = .begin ∧ c.txStatus = .transaction) → ViewsAlike D e ps.convertedQuery

theorem executeOp_settles {op} (isOp : p.stmt.cursorOp = some op) :
    wp (executeOp e p op) (fun _ => Settles D e (portalCommands e c p) c) c := by
  have unexecuted : executedArgs e p = none := by simp [executedArgs, isOp]
  cases op with
  | fetch =>
    simp only [portalCommands, isOp]
    exact handleFetchCursorExtended_settles
  | declare =>
    simp only [portalCommands, isOp, unexecuted]
    exact Leads.seq leads_closeCursor (fun _ => Leads.seq leads_setCursor fun _ => settles_send) c
  | close =>
    simp only [portalCommands, isOp, unexecuted]
    exact Leads.seq settles_closePortal (fun _ => Leads.ret) c
  | pgCursorsQuery =>
    simp only [portalCommands, isOp, unexecuted]
    refine Leads.seq .read (fun _ => Leads.seq .read fun _ => ?_) c
    exact Leads.seq (leads_sendWhen rfl) fun _ => Leads.seq (leads_sendWhen rfl) fun _ => settles_send
  | pgStatActivity =>
    simp only [portalCommands, isOp, unexecuted]
    exact Leads.seq .read (fun _ => settles_sendPgStatActivity) c

theorem executeStmt_settles (notOp : p.stmt.cursorOp = none)
    (hn : isEmptyQuery p.stmt.query.trimSpace = false) (decoded : decodeParams e p = .ok args)
    (safe : ∀ args, executedArgs e p = some args → SafeStatement D e c p.stmt) :
    wp (executeStmt e p args maxRows) (fun _ => Settles D e (portalCommands e c p) c) c := by
  unfold executeStmt portalCommands
  rw [notOp]
  dsimp only
  split
  · rename_i isIgnoredSet
    simp only [executedArgs, isIgnoredSet, Bool.not_true, Bool.and_false]
    exact settles_send c
  rename_i notIgnored
  split
  · rename_i isNoOp
    simp only [executedArgs, isNoOp, Bool.not_true, Bool.and_false]
    exact settles_send c
  rename_i notNoOp
  have executed : executedArgs e p = some args := by
    simp [executedArgs, notOp, hn, notIgnored, notNoOp, decoded, Except.toOption]
  have safe := safe args executed
  simp only [executed]
  cases isSingle : p.stmt.statements.isEmpty with
  | false =>
    have several : p.stmt.statements ≠ [] := by simpa using isSingle
    exact executeMultiStatementExtended_settles several (safe.cleanup several)
  | true =>
    have single : p.stmt.statements = [] := by simpa using isSingle
    cases silent : queryReturnsResults p.stmt.query with
    | true => exact executeSelect_settles
    | false =>
      have runs : wp (execStatement (getCommandType p.stmt.query.trimSpace.toUpper)
          (runExec e p.stmt.convertedQuery args) (pure ()))
          (fun _ => Settles D e [(p.stmt.convertedQuery, args)] c) c :=
        execStatement_settles (safe.nested single silent) fun other _ =>
          runExec_outcome (safe.views single silent other)
      exact wp_seq runs fun _ _ settles => .ret settles

theorem handleExecute_settles {request : Option (Text × Int)} (safe : ∀ portalName maxRows p args,
      request = some (portalName, maxRows) → c.portals portalName = some p → executedArgs e p = some args →
        SafeStatement D e c p.stmt) :
    wp (handleExecute e request) (fun _ => Settles D e (commands e c request) c) c := by
  cases request with
  | none => exact settles_send c
  | some request =>
    obtain ⟨portalName, maxRows⟩ := request
    unfold handleExecute commands
    simp only [wp_bind, wp_get]
    cases hf : c.portals portalName with
    | none => exact settles_send c
    | some p =>
      have safe := safe portalName maxRows p
      dsimp [elim_some]
      cases op : p.stmt.cursorOp with
      | some op => exact executeOp_settles ‹_›
      | none =>
        dsimp only
        split
        · rename_i isEmpty
          simp only [portalCommands, op, executedArgs, isEmpty]
          exact settles_send c
        rename_i hn
        have hn : isEmptyQuery p.stmt.query.trimSpace = false := by simpa using hn
        cases decoded : decodeParams e p with
        | error => exact wp_imp sendError_fails fun _ _ fails => fails.settles
        | ok args => exact executeStmt_settles op hn decoded fun args => safe args rfl hf

end Duckgres.Proof.Conn
