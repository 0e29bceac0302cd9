import Duckgres.Proof.Conn.Copying

namespace Duckgres.Proof.Conn
open Base Base.Stateful Duckgres.Conn Duckgres.Execution Phase List

variable {e : Setting} {old : List Backend} {s c : ClientConn} {text body : Text} {out : List Backend}

/-! ## The COPY command that a query comes down to -/

def transpiledCopy (e : Setting) (result : Transpiled) : Option Text :=
  let text := rewriteDirectQuery e result.sql
  if result.error.isNone ∧ result.isIgnoredSet = false ∧ result.isNoOp = false ∧ result.statements.isEmpty ∧
      getCommandType text.toUpper = .copy then some text
  else none

def statementCopy (e : Setting) (text : Text) : Option Text :=
  match e.parse text with
  | some (_ :: _ :: _) => none
  | _ => match e.transpile false text with
    | .error _ => none
    | .ok result => transpiledCopy e result

def textCopy (e : Setting) (text : Text) : Option Text :=
  if e.passthrough then if getCommandType text.toUpper = .copy then some text else none
  else if shouldHandleCopyBeforeTranspile text then some text
  else statementCopy e text

def intercepts (e : Setting) (text : Text) : Bool :=
  isEmptyQuery text || (cursorHandler e text (pure ())).isSome || (e.pgCursorsQuery text).isSome ||
    e.pgStatActivityQuery text

def copyCommand (e : Setting) (body : Text) : Option Text :=
  if intercepts e body.trimSpace then none else textCopy e body.trimSpace

def Spoiled (e : Setting) (copy : Option Text) (log : List Occurrence) : Prop :=
  ∃ text, copy = some text ∧ Unscanned e text log

theorem settles_of_copy {x : Handler Unit} {copy : Option Text} (isCopy : copy = some text)
    (settles : wp x (fun _ => SettledBy (Unscanned e text) old) s) :
    wp x (fun _ => SettledBy (Spoiled e copy) old) s := by
  refine wp_imp settles fun _ c hse => hse.imp fun p => ?_
  have hs : Spoiled e copy c.log ↔ Unscanned e text c.log := by simp [Spoiled, isCopy]
  rw [hs]
  exact id

theorem settles_of_other {x : Handler Unit} {copy : Option Text} (notCopy : copy = none)
    (ready : Ends (· = .ready) x) (quiet : In Phase.Quiet old s) :
    wp x (fun _ => SettledBy (Spoiled e copy) old) s := by
  refine wp_imp (ready quiet) fun _ c ready => ready.settles fun ⟨text, isCopy, _⟩ => ?_
  cases notCopy.symm.trans isCopy

theorem handleTranspiled_settles {result : Transpiled} (quiet : In Phase.Quiet old s) :
    wp (handleTranspiled e result) (fun _ => SettledBy (Spoiled e (transpiledCopy e result)) old) s := by
  unfold handleTranspiled
  split
  · rename_i err hf
    exact settles_of_other (by simp [transpiledCopy, hf]) (error_ready sendError_quiet) quiet
  split
  · rename_i ignored
    exact settles_of_other (by simp [transpiledCopy, ignored]) complete_ready quiet
  split
  · rename_i noOp
    exact settles_of_other (by simp [transpiledCopy, noOp]) complete_ready quiet
  split
  · rename_i several
    have hn : result.statements ≠ [] := by simpa using several
    exact settles_of_other (by simp [transpiledCopy, hn]) executeMultiStatement_ready quiet
  dsimp only
  split
  · rename_i ignored noOp several isCopy
    exact settles_of_copy (by simp_all [transpiledCopy]) (handleCopy_settles quiet)
  rename_i notCopy
  have other : transpiledCopy e result = none := by simp [transpiledCopy, notCopy]
  split
  · exact settles_of_other other (execStatement_ready calls_runExec) quiet
  · exact settles_of_other other executeSelectQuery_ready quiet

theorem wp_validated_logged {result} {P : ClientConn → Prop} (kept : KeptByCalls P) (hl : P s) :
    wp (validated result text) (fun valid c => P c ∧ ∀ err, valid = .error err →
      ∃ tried args answer, c.log.getLast? = some ⟨.exec tried args, answer⟩) s := by
  have legal : wp (pure (.ok ()) : Handler (Except Text Unit)) (fun valid c => P c ∧ ∀ err, valid = .error err →
      ∃ tried args answer, c.log.getLast? = some ⟨.exec tried args, answer⟩) s :=
    .ret ⟨hl, nofun⟩
  unfold validated
  split
  · unfold validateWithDuckDB
    split
    · exact legal
    split
    · exact legal
    split
    · exact legal
    unfold exec perform
    simp only [wp_bind, wp_call, wp_pure]
    intro answer
    have last := getLast?_concat (a := (⟨.exec _ _, answer⟩ : Occurrence)) (l := s.log)
    split
    · exact .ret ⟨kept _ answer s hl, fun _ _ => ⟨_, _, answer, last⟩⟩
    · exact .ret ⟨kept _ answer s hl, nofun⟩
  · exact legal

theorem handleStatements_settles (quiet : In Phase.Quiet old s) :
    wp (handleStatements e text) (fun _ => SettledBy (Spoiled e (statementCopy e text)) old) s := by
  unfold handleStatements
  split
  · rename_i several
    exact settles_of_other (by simp [statementCopy, several])
      (.seq executeBatch_unfinished fun _ => readyForQuery_ready)
      quiet
  rename_i single
  have routed : statementCopy e text = (e.transpile false text).toOption.bind (transpiledCopy e) := by
    unfold statementCopy
    split
    · rename_i several
      exact absurd several (single _ _ _)
    · cases e.transpile false text <;> rfl
  split
  · rename_i err hfa
    exact settles_of_other (by rw [routed, hfa]; rfl) (error_ready sendError_quiet) quiet
  rename_i result transpiled
  replace routed : statementCopy e text = transpiledCopy e result := by rw [routed, transpiled]; rfl
  refine wp_seq (wp_validated_logged in_keptByCalls quiet) ?_
  rintro valid s ⟨quiet, last⟩
  cases valid with
  | error err =>
    obtain ⟨tried, args, answer, last⟩ := last err rfl
    have quietly : MakesNoCalls (do sendError "42601" (syntaxError err); readyForQuery) :=
      (makesNoCalls_send _).seq fun _ => makesNoCalls_readyForQuery
    refine wp_imp (wp_and (error_ready sendError_quiet quiet) (quietly s)) ?_
    rintro _ c ⟨ready, hs⟩
    refine ready.settles ?_
    rintro ⟨_, _, _, _, _, _, _, _, lastToo, _⟩
    rw [hs, last] at lastToo
    cases lastToo
  | ok =>
    rw [routed]
    exact handleTranspiled_settles quiet

theorem handleText_settles (quiet : In Phase.Quiet old s) :
    wp (handleText e text) (fun _ => SettledBy (Spoiled e (textCopy e text)) old) s := by
  unfold handleText textCopy
  split
  · dsimp only
    split
    · exact settles_of_copy rfl (handleCopy_settles quiet)
    refine settles_of_other rfl ?_ quiet
    unfold executeQueryDirect
    split
    · exact execStatement_ready calls_exec
    · exact executeSelectQuery_ready
  · split
    · exact settles_of_copy rfl (handleCopy_settles quiet)
    · exact handleStatements_settles quiet

theorem cursorHandler_isSome (e : Setting) (text : Text) (finish : Handler Unit) :
    (cursorHandler e text finish).isSome = (cursorHandler e text (pure ())).isSome := by
  unfold cursorHandler
  split
  · rename_i stmt _
    cases stmt.node <;> rfl
  · rfl

theorem handleQuery_settles (quiet : In Phase.Quiet old s) :
    wp (handleQuery e body) (fun _ => SettledBy (Spoiled e (copyCommand e body)) old) s := by
  unfold handleQuery
  dsimp only
  split
  · rename_i empty
    exact settles_of_other (by simp [copyCommand, intercepts, empty])
      (.seq (send_quiet rfl) fun _ => readyForQuery_calm) quiet
  rename_i notEmpty
  split
  · rename_i handler hf
    have isCursor := cursorHandler_isSome e body.trimSpace readyForQuery
    rw [hf] at isCursor
    refine settles_of_other (by simp [copyCommand, intercepts, ← isCursor]) ?_ quiet
    refine .seq ?_ fun _ => .keep
    exact cursorHandler_finishes readyForQuery_failed readyForQuery_calm hf
  · rename_i notCursor
    have isCursor := cursorHandler_isSome e body.trimSpace readyForQuery
    rw [notCursor] at isCursor
    split
    · rename_i cursorName hf
      exact settles_of_other (by simp [copyCommand, intercepts, hf])
        (.seq sendPgCursors_calm fun _ => readyForQuery_calm) quiet
    rename_i notCatalog
    split
    · rename_i activity
      exact settles_of_other (by simp [copyCommand, intercepts, activity])
        (.seq sendPgStatActivity_calm fun _ => readyForQuery_calm) quiet
    rename_i notActivity
    have routed : copyCommand e body = textCopy e body.trimSpace := by
      simp [copyCommand, intercepts, notEmpty, ← isCursor, notCatalog, notActivity]
    rw [routed]
    exact handleText_settles quiet

/-! ## Responses in order -/

def isReady : Backend → Bool
  | .readyForQuery _ => true
  | _ => false

def isError : Backend → Bool
  | .errorResponse .. => true
  | _ => false

theorem isQuiet_eq (m : Backend) : isQuiet m = (!isReady m && !isError m) := by
  cases m <;> rfl

structure InOrder (out : List Backend) : Prop where
  one_ready : out.countP isReady = 1
  ready_last : ∃ status, out.getLast? = some (.readyForQuery status)
  one_error : out.countP isError ≤ 1
  error_last : ∀ before code message rest, out = before ++ .errorResponse code message :: rest →
    ∃ status, rest = [.readyForQuery status]

theorem Phase.after_quiet_iff : (after out).Quiet ↔ ∀ m ∈ out, isQuiet m = true := by
  induction out using List.reverseRecOn with
  | nil => simp [after, Phase.Quiet]
  | append_singleton out m ih =>
    rw [after_concat]
    constructor
    · intro quiet
      have before : (after out).Quiet ∧ isQuiet m = true := by
        cases hp : after out <;> cases m <;> rw [hp] at quiet <;> simp_all [Phase.Quiet, next, isQuiet]
      intro other hm
      rcases mem_append.mp hm with earlier | last
      · exact ih.mp before.1 other earlier
      · rw [mem_singleton.mp last]
        exact before.2
    · intro all
      have before := ih.mpr fun other hm => all other (mem_append_left _ hm)
      exact .inr (next_of_isQuiet before (all m (by simp)))

theorem Phase.after_failed_iff : after out = .failed ↔
    ∃ before code message, out = before ++ [.errorResponse code message] ∧ (after before).Quiet := by
  constructor
  · intro hfa
    rcases out.eq_nil_or_concat with rfl | ⟨before, m, rfl⟩
    · cases hfa
    rw [concat_eq_append, after_concat] at hfa
    cases m with
    | errorResponse code message =>
      refine ⟨before, code, message, concat_eq_append, ?_⟩
      cases hp : after before <;> rw [hp] at hfa <;> simp_all [next, Phase.Quiet]
    | _ => cases hp : after before <;> rw [hp] at hfa <;> cases hfa
  · rintro ⟨before, code, message, rfl, quiet⟩
    rw [after_concat]
    rcases quiet with hp | hp <;> rw [hp] <;> rfl

theorem Phase.after_ready_iff : after out = .ready ↔
    ∃ before status, out = before ++ [.readyForQuery status] ∧ (after before).Unfinished := by
  constructor
  · intro ready
    rcases out.eq_nil_or_concat with rfl | ⟨before, m, rfl⟩
    · cases ready
    rw [concat_eq_append, after_concat] at ready
    cases m with
    | readyForQuery status =>
      refine ⟨before, status, concat_eq_append, ?_⟩
      cases hp : after before <;> rw [hp] at ready <;> simp_all [next, Phase.Unfinished]
    | _ => cases hp : after before <;> rw [hp] at ready <;> cases ready
  · rintro ⟨before, status, rfl, unfinished⟩
    rw [after_concat]
    rcases unfinished with hp | hp | hp <;> rw [hp] <;> rfl

section
variable (quiet : ∀ m ∈ out, isQuiet m = true)
include quiet

theorem countP_isReady_of_quiet : out.countP isReady = 0 := by
  refine countP_eq_zero.mpr fun m hm => ?_
  simp_all [isQuiet_eq]

theorem not_mem_of_quiet {m} (hm : m ∈ out) : isError m = false := by
  simp_all [isQuiet_eq]

theorem countP_isError_of_quiet : out.countP isError = 0 := by
  refine countP_eq_zero.mpr fun m hm => ?_
  simp [not_mem_of_quiet quiet hm]

theorem inOrder_of_quiet (status : TxStatus) :
    InOrder (out ++ [.readyForQuery status]) where
  one_ready := by simp [countP_isReady_of_quiet quiet, isReady]
  ready_last := ⟨status, by simp⟩
  one_error := by simp [countP_isError_of_quiet quiet, isError]
  error_last before code message rest split := by
    have hm : .errorResponse code message ∈ out ++ [.readyForQuery status] := split ▸ by simp
    rcases mem_append.mp hm with earlier | last
    · cases not_mem_of_quiet quiet earlier
    · cases mem_singleton.mp last

end

theorem concat_eq_append_cons {before rest m last} (split : out ++ [last] = before ++ m :: rest) :
    (rest = [] ∧ last = m) ∨ ∃ middle, rest = middle ++ [last] ∧ out = before ++ m :: middle := by
  rcases rest.eq_nil_or_concat with rfl | ⟨middle, r, rfl⟩
  · obtain ⟨_, hs⟩ := append_inj' split rfl
    exact .inl ⟨rfl, singleton_inj.mp hs⟩
  · rw [concat_eq_append, ← cons_append, ← append_assoc] at split
    obtain ⟨front, hs⟩ := append_inj' split rfl
    exact .inr ⟨middle, by rw [concat_eq_append, hs], front⟩

theorem inOrder_of_failed (quiet : ∀ m ∈ out, isQuiet m = true) (code : String) (message : Text) (status : TxStatus) :
    InOrder (out ++ [.errorResponse code message] ++ [.readyForQuery status]) where
  one_ready := by simp [countP_isReady_of_quiet quiet, isReady]
  ready_last := ⟨status, by simp⟩
  one_error := by simp [countP_isError_of_quiet quiet, isError, countP_cons]
  error_last before otherCode otherMessage rest split := by
    rcases concat_eq_append_cons split with ⟨_, hs⟩ | ⟨middle, rfl, front⟩
    · cases hs
    · rcases concat_eq_append_cons front with ⟨rfl, _⟩ | ⟨_, _, rfl⟩
      · exact ⟨status, rfl⟩
      · cases not_mem_of_quiet quiet (m := .errorResponse otherCode otherMessage) (by simp)

theorem inOrder_iff : InOrder out ↔ after out = .ready := by
  constructor
  · intro inOrder
    obtain ⟨status, last⟩ := inOrder.ready_last
    obtain ⟨before, rfl⟩ := getLast?_eq_some_iff.mp last
    refine after_ready_iff.mpr ⟨before, status, rfl, ?_⟩
    have unready (m : Backend) (hm : m ∈ before) : isReady m = false := by
      have one := inOrder.one_ready
      have none : before.countP isReady = 0 := by simpa [isReady] using one
      simpa using countP_eq_zero.mp none m hm
    have errorLast {front rest : List Backend} {code : String} {message : Text}
        (split : before = front ++ .errorResponse code message :: rest) : rest = [] := by
      obtain ⟨_, hs⟩ := inOrder.error_last front code message (rest ++ [.readyForQuery status]) (by simp [split])
      simpa using congrArg List.length hs
    by_cases errs : ∃ m ∈ before, isError m = true
    · obtain ⟨m, hm, isErr⟩ := errs
      cases m with
      | errorResponse code message =>
        obtain ⟨front, rest, split⟩ := mem_iff_append.mp hm
        cases errorLast split
        refine .inr (.inr (after_failed_iff.mpr ⟨front, code, message, split, ?_⟩))
        refine after_quiet_iff.mpr fun other within => ?_
        rw [isQuiet_eq, unready other (split ▸ mem_append_left _ within)]
        cases other with
        | errorResponse otherCode otherMessage =>
          obtain ⟨start, middle, rfl⟩ := mem_iff_append.mp within
          have empty : middle ++ [.errorResponse code message] = [] :=
            errorLast (split.trans (append_assoc start (.errorResponse otherCode otherMessage :: middle) _))
          simp at empty
        | _ => rfl
      | _ => cases isErr
    · refine (after_quiet_iff.mpr fun m hm => ?_).unfinished
      have noError : isError m = false := by simpa using fun isErr => errs ⟨m, hm, isErr⟩
      simp [isQuiet_eq, unready m hm, noError]
  · intro ready
    obtain ⟨before, status, rfl, unfinished⟩ := after_ready_iff.mp ready
    rcases unfinished with silent | calm | hfa
    · exact inOrder_of_quiet (after_quiet_iff.mp (.inl silent)) status
    · exact inOrder_of_quiet (after_quiet_iff.mp (.inr calm)) status
    · obtain ⟨front, code, message, rfl, quiet⟩ := after_failed_iff.mp hfa
      exact inOrder_of_failed (after_quiet_iff.mp quiet) code message status

theorem query_in_order_iff {final : ClientConn} (ends : (handleQuery e body).Ends s () final)
    (isOpen : final.isOpen = true) :
    ∃ out, final.sent = s.sent ++ out ∧ (InOrder out ↔ ¬Spoiled e (copyCommand e body) final.log) := by
  have quiet : In Phase.Quiet s.sent s := (in_silent s).imp fun _ => .inl
  obtain ⟨out, sent, settled⟩ := wp_iff.mp (handleQuery_settles quiet) () final ends isOpen
  refine ⟨out, sent, ?_⟩
  rw [inOrder_iff]
  rcases settled with ⟨spoiled, broken⟩ | ⟨unspoiled, ready⟩
  · simp [spoiled, broken]
  · simp [unspoiled, ready]

def oneColumn (rows : List (Except Text Row)) : RowSet :=
  ⟨.ok ["a".toList], .ok ["INTEGER".toList], rows, fun _ => none⟩

theorem query_in_order_iff_select : ∃ final out,
    (handleQuery .bare "SELECT 1".toList).Ends (.started []) () final ∧ final.isOpen = true ∧
      final.sent = [] ++ out ∧ (InOrder out ↔ ¬Spoiled .bare (copyCommand .bare "SELECT 1".toList) final.log) := by
  have ends : ∃ final, (handleQuery .bare "SELECT 1".toList).Ends (.started []) () final ∧ final.isOpen = true :=
    ⟨_, .call (⟨.ok (oneColumn [.ok [.int .int32 1]]), false⟩ : Answered RowSet) .pure, rfl⟩
  obtain ⟨final, ends, isOpen⟩ := ends
  obtain ⟨out, sent, inOrder⟩ := query_in_order_iff ends isOpen
  exact ⟨final, out, ends, isOpen, sent, inOrder⟩

def copies : Setting := { Setting.bare with copy := { Setting.bare.copy with toStdout := fun _ => some "t".toList } }

theorem copy_continues_after_error : ∃ final,
    (handleQuery copies "COPY t TO STDOUT".toList).Ends (.started []) () final ∧ final.isOpen = true ∧
      final.sent = [.copyOutResponse 1 true, .errorResponse "42000" "bad".toList, .copyDone,
        .commandComplete "COPY 0".toList, .readyForQuery .idle] ∧ ¬InOrder final.sent := by
  refine ⟨_, .call (⟨.ok (oneColumn [.error "bad".toList]), false⟩ : Answered RowSet) .pure, rfl, rfl,
    fun inOrder => ?_⟩
  obtain ⟨_, ⟨⟩⟩ := inOrder.error_last [.copyOutResponse 1 true] _ _ _ rfl

end Duckgres.Proof.Conn
