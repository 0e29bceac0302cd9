import Duckgres.Base.Session
import Duckgres.Proof.Conn.Session
import Duckgres.Transpile.DDL
import Duckgres.Transpile.WritableCTE

namespace Duckgres.Proof.Conn
open Base Base.Stateful Duckgres.Conn Duckgres.Transpile List

variable {c d final : ClientConn} {args : List Value} {statements cleanup : List Text}

structure Reply where
  command : Text × List Value
  failure : Option Text
  broken : Bool

def Reply.fails (r : Reply) : Bool := r.failure.isSome || r.broken

def failureOf {α : Type} : Except Text α → Option Text
  | .error err => some err
  | .ok _ => none

def broken (rows : RowSet) : Bool :=
  (failureOf rows.header).isSome || rows.rows.any (fun row => (failureOf row).isSome) || rows.finalErr.isSome

def reply : Occurrence → Option Reply
  | ⟨.exec text args, answer⟩ => some ⟨(text, args), failureOf (Answered.result answer), false⟩
  | ⟨.query text args, answer⟩ => some ⟨(text, args), failureOf (Answered.result answer),
      (Answered.result answer).toOption.any broken⟩
  | _ => none

def isComplete : Backend → Bool
  | .commandComplete _ => true
  | _ => false

def Gets (replies : List Reply) (error complete : Bool) (c d : ClientConn) : Prop := ∃ out calls,
  Moves out calls c d ∧ calls.filterMap reply = replies ∧ out.any isError = error ∧ out.any isComplete = complete

abbrev Tells (error complete : Bool) {α : Type} (x : Handler α) : Prop := Leads (Gets [] error complete) x

theorem Gets.refl (c : ClientConn) : Gets [] false false c c := ⟨[], [], .refl c, rfl, rfl, rfl⟩

variable {error complete : Bool} {x : Handler Unit} {err text : Text} {replies : List Reply}

theorem Gets.trans {more error' complete'}
    (first : Gets replies error complete c d) (second : Gets more error' complete' d final) :
    Gets (replies ++ more) (error || error') (complete || complete') c final := by
  obtain ⟨out, calls, hv, rfl, rfl, rfl⟩ := first
  obtain ⟨out', calls', hv', rfl, rfl, rfl⟩ := second
  exact ⟨out ++ out', calls ++ calls', hv.trans hv', filterMap_append, any_append, any_append⟩

theorem Gets.tells {α : Type} {x : Handler α}
    (sofar : Gets replies false false c d) (rest : Tells error complete x) :
    wp x (fun _ => Gets replies error complete c) d :=
  wp_imp (rest d) fun _ _ later => by simpa using sofar.trans later

theorem tells_quiet_then {α β : Type} {x : Handler α} {f : α → Handler β}
    (first : Tells false false x) (rest : ∀ a, Tells error complete (f a)) : Tells error complete (x >>= f) := fun c =>
  wp_seq (first c) fun a _ sofar => sofar.tells (rest a)

theorem tells_then_quiet {y : Handler Unit} (first : Tells error complete x)
    (rest : Tells false false y) : Tells error complete (do x; y) := fun c =>
  wp_seq (first c) fun _ d sofar => wp_imp (rest d) fun _ _ later => by simpa using sofar.trans later

theorem tells_send {m} : Tells (isError m) (isComplete m) (send m) := .update fun _ =>
  ⟨[m], [], .told rfl rfl rfl, rfl, Bool.or_false _, Bool.or_false _⟩

theorem tells_pure : Tells false false (pure () : Handler Unit) := fun c => .ret (.refl c)

theorem tells_setTxError : Tells false false setTxError := by
  refine .update fun c => ⟨[], [], ⟨?_, ?_, ?_⟩, rfl, rfl, rfl⟩
  all_goals split <;> simp [leftBy]

theorem tells_readyForQuery : Tells false false readyForQuery := fun c => by
  unfold readyForQuery
  rw [wp_bind, wp_get]
  exact tells_send c

theorem tells_sendPlainError : Tells true false (sendPlainError err) := tells_then_quiet tells_send tells_setTxError

theorem tells_sendIterationError : Tells true false (sendIterationError err) := by
  have cancellation : Tells false false (isCallerCancellation err) := by
    unfold isCallerCancellation
    split
    · exact leads_call fun answer c => ⟨[], [⟨.ctxErr, answer⟩], .called rfl rfl rfl, rfl, rfl, rfl⟩
    · exact fun c => .ret (.refl c)
  refine tells_quiet_then (tells_quiet_then cancellation fun _ c => .ret (.refl c)) fun _ => ?_
  exact tells_then_quiet tells_send tells_setTxError

theorem sendRows_gets {formats oids rows rowCount} :
    wp (sendRows formats oids rows rowCount) (fun result d => Gets [] false false c d ∧
      (failureOf result).isSome = rows.any fun row => (failureOf row).isSome) c := by
  induction rows generalizing c rowCount with
  | nil => exact .ret ⟨.refl c, rfl⟩
  | cons row rows ih => cases row with
    | error => exact .ret ⟨.refl c, rfl⟩
    | ok => exact wp_seq (tells_send c) fun _ d sofar => wp_imp ih fun _ _ ⟨later, result⟩ =>
      ⟨sofar.trans later, result⟩

def WritesRows (stream : RowSet → CommandType → Handler Unit) : Prop :=
  ∀ rows cmdType, Tells (broken rows) (!broken rows) (stream rows cmdType)

theorem writesRows_simple : WritesRows streamRowsToClient := by
  intro rows cmdType c
  unfold streamRowsToClient broken
  cases header : rows.header with
  | error => exact tells_then_quiet tells_sendPlainError tells_readyForQuery c
  | ok =>
    refine wp_seq (tells_send c) fun _ d sofar => wp_seq sendRows_gets fun result d ⟨later, scanned⟩ => ?_
    rw [← scanned]
    refine Gets.tells (sofar.trans later) ?_
    cases result with
    | error => exact tells_then_quiet tells_sendPlainError tells_readyForQuery
    | ok => cases rows.finalErr with
      | some err => exact tells_then_quiet tells_sendIterationError tells_readyForQuery
      | none => exact tells_then_quiet tells_send tells_readyForQuery

theorem writesRows_extended {formats described} : WritesRows (streamRowsToClientExtended formats described) := by
  intro rows cmdType c
  unfold streamRowsToClientExtended broken
  cases header : rows.header with
  | error => exact tells_sendPlainError c
  | ok =>
    have describes {condition : Bool} {fields : List Conn.Field} :
        Tells false false (sendWhen condition (.rowDescription fields)) := by
      unfold sendWhen
      split
      · exact tells_send
      · exact tells_pure
    refine wp_seq (describes c) fun _ d sofar => wp_seq sendRows_gets fun result d ⟨later, scanned⟩ => ?_
    rw [← scanned]
    refine Gets.tells (sofar.trans later) ?_
    cases result with
    | error => exact tells_sendPlainError
    | ok => cases rows.finalErr with
      | some err => exact tells_sendIterationError
      | none => exact tells_send

/-! ## Running the statements -/

theorem exec_gets : wp (exec text args) (fun result d =>
    Gets [⟨(text, args), failureOf result, false⟩] false false c d) c := by
  unfold exec perform
  simp only [wp_bind, wp_call, wp_pure]
  exact fun answer => ⟨[], [⟨.exec text args, answer⟩], .called rfl rfl rfl, rfl, rfl, rfl⟩

theorem query_gets : wp (query text args) (fun result d =>
    Gets [⟨(text, args), failureOf result, result.toOption.any broken⟩] false false c d) c := by
  unfold query perform
  simp only [wp_bind, wp_call, wp_pure]
  exact fun answer => ⟨[], [⟨.query text args, answer⟩], .called rfl rfl rfl, rfl, rfl, rfl⟩

theorem executeCleanup_gets : wp (executeCleanup cleanup) (fun _ d => ∃ replies : List Reply,
    replies.map Reply.command = cleanup.map (·, []) ∧ Gets replies false false c d) c := by
  induction cleanup generalizing c with
  | nil => exact .ret ⟨[], rfl, .refl c⟩
  | cons text cleanup ih =>
    refine wp_seq exec_gets fun result d first => wp_imp ih fun _ final ⟨replies, commands, rest⟩ => ?_
    exact ⟨_ :: replies, congrArg _ commands, first.trans rest⟩

structure Tried (args : List Value) (statements : List Text) (replies : List Reply) : Prop where
  nonempty : replies ≠ []
  commands : replies.map Reply.command <+: statements.map (·, args)
  stops : ∀ r ∈ replies.dropLast, r.fails = false
  whole : replies.any Reply.fails = false → replies.map Reply.command = statements.map (·, args)

theorem Tried.cons (tried : Tried args statements replies) :
    Tried args (text :: statements) (⟨(text, args), none, false⟩ :: replies) where
  nonempty := by simp
  commands := cons_prefix_cons.mpr ⟨rfl, tried.commands⟩
  stops := by
    rw [dropLast_cons_of_ne_nil tried.nonempty]
    simpa [Reply.fails] using tried.stops
  whole passed := congrArg _ (tried.whole passed)

theorem executeSetup_gets (more : List Text) : wp (executeSetup args statements) (fun result d => ∃ replies,
    Gets replies false false c d ∧ match result with
      | .ok _ => replies = statements.map fun text => ⟨(text, args), none, false⟩
      | .error _ => replies.any Reply.fails = true ∧ Tried args (statements ++ more) replies) c := by
  induction statements generalizing c with
  | nil => exact .ret ⟨[], .refl c, rfl⟩
  | cons text statements ih =>
    refine wp_seq exec_gets (of_result
      (fun _ _ first => .ret ⟨_, first, rfl, by constructor <;> simp [Reply.fails, failureOf]⟩)
      fun _ _ first => ?_)
    refine wp_imp ih fun result final ⟨replies, rest, outcome⟩ => ⟨_, first.trans rest, ?_⟩
    cases result with
    | ok => exact congrArg _ outcome
    | error => exact ⟨by simpa using .inr (by simpa using outcome.1), outcome.2.cons⟩

def Performed (args : List Value) (statements cleanup : List Text) (c d : ClientConn) : Prop :=
  ∃ main cleaned : List Reply,
  Tried args statements main ∧ cleaned.map Reply.command = cleanup.map (·, []) ∧
    Gets (main ++ cleaned) (main.any Reply.fails) (!main.any Reply.fails) c d

section
variable {finish : Handler Unit} {main : List Reply} (quiet : Tells false false finish)
  (sofar : Gets main false false c d) (tried : Tried args statements main)
include quiet sofar tried

theorem sendSetupError_performs (fails : main.any Reply.fails = true) :
    wp (sendSetupError cleanup err finish) (fun _ => Performed args statements cleanup c) d := by
  refine wp_seq (sofar.tells tells_setTxError) fun _ d sofar => ?_
  refine wp_seq executeCleanup_gets fun _ d ⟨cleaned, commands, later⟩ => ?_
  refine wp_imp (Gets.tells (sofar.trans later) (tells_then_quiet tells_send quiet)) fun _ final gets => ?_
  exact ⟨main, cleaned, tried, commands, by simpa [fails, isError, isComplete] using gets⟩

omit quiet in
theorem cleanup_performs (rest : Tells (main.any Reply.fails) (!main.any Reply.fails) x) :
    wp (do executeCleanup cleanup; x) (fun _ => Performed args statements cleanup c) d :=
  wp_seq executeCleanup_gets fun _ _ ⟨cleaned, commands, later⟩ =>
    wp_imp (Gets.tells (sofar.trans later) rest) fun _ _ gets => ⟨main, cleaned, tried, commands, gets⟩

end

theorem multiStatement_performs {finish : Handler Unit} {stream : RowSet → CommandType → Handler Unit}
    (quiet : Tells false false finish) (streams : WritesRows stream) (idle : c.txStatus = .idle)
    (hn : statements ≠ []) :
    wp (multiStatement args finish stream statements cleanup) (fun _ => Performed args statements cleanup c) c := by
  obtain ⟨init, last, rfl⟩ := (eq_nil_or_concat' statements).resolve_left hn
  have hs : unwrapped c.txStatus (init ++ [last]) cleanup = (init ++ [last], cleanup) := by simp [unwrapped, idle]
  unfold multiStatement
  rw [if_neg (by simp), wp_bind, wp_get]
  simp only [hs, dropLast_concat, getLastD_concat]
  refine wp_seq (executeSetup_gets [last])
    (of_result (fun _ _ ⟨_, sofar, outcome⟩ => sendSetupError_performs quiet sofar outcome.2 outcome.1)
      fun _ d ⟨replies, sofar, outcome⟩ => ?_)
  have tried (r : Reply) (command : r.command = (last, args)) : Tried args (init ++ [last]) (replies ++ [r]) := by
    have commands : (replies ++ [r]).map Reply.command = (init ++ [last]).map (·, args) := by
      simp [outcome, command]
    exact ⟨by simp, commands ▸ prefix_refl _, by simp [outcome, Reply.fails], fun _ => commands⟩
  have fails (r : Reply) : (replies ++ [r]).any Reply.fails = r.fails := by
    simp [outcome, Reply.fails]
  dsimp only
  split
  · refine wp_seq query_gets
      (of_result (fun _ _ later => sendSetupError_performs quiet (sofar.trans later) (tried _ rfl) (by rw [fails]; rfl))
        fun rows _ later => ?_)
    refine cleanup_performs (sofar.trans later) (tried _ rfl) ?_
    rw [fails]
    exact streams rows _
  · refine wp_seq exec_gets
      (of_result (fun _ _ later => sendSetupError_performs quiet (sofar.trans later) (tried _ rfl) (by rw [fails]; rfl))
        fun _ _ later => ?_)
    refine cleanup_performs (sofar.trans later) (tried _ rfl) ?_
    rw [fails]
    exact tells_then_quiet tells_send quiet

inductive Executes (statements cleanup : List Text) : List Value → Handler Unit → Prop
  | simple : Executes statements cleanup [] (executeMultiStatement statements cleanup)
  | extended (args : List Value) (formats : List Int) (described : Bool) :
      Executes statements cleanup args (executeMultiStatementExtended statements cleanup args formats described)

theorem Executes.performs (executes : Executes statements cleanup args x) (idle : c.txStatus = .idle)
    (hn : statements ≠ []) : wp x (fun _ => Performed args statements cleanup c) c := by
  cases executes with
  | simple => exact multiStatement_performs tells_readyForQuery writesRows_simple idle hn
  | extended => exact multiStatement_performs tells_pure writesRows_extended idle hn

inductive IsPlan (pg : PgQuery) : List Text → List Text → Prop
  | writableCTE {suffixes stmt ctes rewrite}
      (rewritten : rewriteWritableCTE pg suffixes stmt ctes = .ok rewrite) :
      IsPlan pg rewrite.statements rewrite.cleanup
  | alterTable {stmt} {statements cleanup : List Text}
      (split : transformAlterTableStmt pg stmt = .ok (.split statements cleanup)) : IsPlan pg statements cleanup

theorem IsPlan.shape {pg} (isPlan : IsPlan pg statements cleanup) :
    ∃ more drops, statements = "BEGIN".toList :: more ∧ cleanup = drops ++ ["COMMIT".toList] := by
  cases isPlan with
  | writableCTE rewritten =>
    simp only [rewriteWritableCTE, bind, Except.bind] at rewritten
    split at rewritten
    · cases rewritten
    · split at rewritten
      · cases rewritten
      · cases rewritten
        exact ⟨_, _, rfl, rfl⟩
  | alterTable split =>
    simp only [transformAlterTableStmt, bind, Except.bind] at split
    split at split
    · cases split
    · cases split
    · split at split
      · cases split
      · cases split
        exact ⟨_, [], rfl, rfl⟩

def Reply.outcome (r : Reply) : Engine.Outcome (Text × List Value) Text := (r.command, r.failure)

def mainReplies (cleanup : List Text) (calls : List Occurrence) : List Reply :=
  (calls.filterMap reply).take ((calls.filterMap reply).length - cleanup.length)

def outcomes (calls : List Occurrence) : List (Engine.Outcome (Text × List Value) Text) :=
  (calls.filterMap reply).map Reply.outcome

section
variable {σ τ : Type} (E : Engine (Text × List Value) Text σ) (tables : σ → τ)

structure Transactional (args : List Value) (statements cleanup : List Text) : Prop where
  begins : E.control ("BEGIN".toList, args) = .begin
  commits : E.control ("COMMIT".toList, []) = .commit
  plain : ∀ text ∈ statements.tail, E.control (text, args) = .statement
  drops : ∀ text ∈ cleanup.dropLast, E.control (text, []) = .statement
  temporary : ∀ text ∈ cleanup.dropLast, ∀ rows, tables (E.effect (text, []) rows) = tables rows

def Atomic (args : List Value) (statements : List Text) (rows : σ) (out : List Backend)
    (calls : List Occurrence) : Prop :=
  (out.any isError = true → tables (E.run ⟨rows, .idle⟩ (outcomes calls)).committed = tables rows) ∧
  (out.any isComplete = true → tables (E.run ⟨rows, .idle⟩ (outcomes calls)).committed =
    tables (E.effects (statements.tail.map fun text => ((text, args), none)) rows))

variable {E tables} {main cleaned : List Reply} {more drops : List Text}

theorem tables_run (rows : σ)
    (transactional : Transactional E tables args ("BEGIN".toList :: more) (drops ++ ["COMMIT".toList]))
    (tried : Tried args ("BEGIN".toList :: more) main)
    (commands : cleaned.map Reply.command = (drops ++ ["COMMIT".toList]).map (·, [])) :
    (E.Lost ((main ++ cleaned).map Reply.outcome) →
      tables (E.run ⟨rows, .idle⟩ ((main ++ cleaned).map Reply.outcome)).committed = tables rows) ∧
    (¬ E.Lost ((main ++ cleaned).map Reply.outcome) →
      tables (E.run ⟨rows, .idle⟩ ((main ++ cleaned).map Reply.outcome)).committed =
        tables (E.effects (main.tail.map Reply.outcome) rows)) := by
  obtain ⟨hn, prefixes, stops, -⟩ := tried
  obtain ⟨begins, commits, plain, dropping, temporary⟩ := transactional
  rw [map_append] at commands
  obtain ⟨dropped, ended, rfl, dropCommands, commitCommands⟩ := map_eq_append_iff.mp commands
  obtain ⟨commit, rfl, isCommit⟩ := map_eq_singleton_iff.mp commitCommands
  obtain ⟨first, rest, rfl⟩ := exists_cons_of_ne_nil hn
  obtain ⟨isBegin, commandsRest⟩ := cons_prefix_cons.mp prefixes
  rw [dropLast_concat] at dropping temporary
  have ofRest (r : Reply) (hm : r ∈ rest) : E.control r.command = .statement := by
    obtain ⟨text, isText, command⟩ := mem_map.mp (commandsRest.subset (mem_map_of_mem hm))
    exact command ▸ plain text isText
  have ofDropped (r : Reply) (hm : r ∈ dropped) : ∃ text ∈ drops, (text, []) = r.command :=
    mem_map.mp (dropCommands ▸ mem_map_of_mem hm)
  have plainBody : E.Plain (rest.map Reply.outcome ++ dropped.map Reply.outcome) := by
    rw [← map_append]
    intro outcome hm
    obtain ⟨r, isReply, rfl⟩ := mem_map.mp hm
    rcases mem_append.mp isReply with inRest | inDropped
    · exact ofRest r inRest
    · obtain ⟨text, isDrop, command⟩ := ofDropped r inDropped
      exact (congrArg E.control command).symm.trans (dropping text isDrop)
  have shown : tables (E.effects (rest.map Reply.outcome ++ dropped.map Reply.outcome) rows) =
      tables (E.effects (rest.map Reply.outcome) rows) := by
    rw [Engine.effects_append]
    refine Engine.view_effects fun outcome hm rows => ?_
    obtain ⟨r, isReply, rfl⟩ := mem_map.mp hm
    obtain ⟨text, isDrop, command⟩ := ofDropped r isReply
    change tables (E.effect r.command rows) = _
    rw [← command]
    exact temporary text isDrop rows
  have all : ((first :: rest) ++ (dropped ++ [commit])).map Reply.outcome =
      (("BEGIN".toList, args), first.failure) :: (rest.map Reply.outcome ++ dropped.map Reply.outcome) ++
        [(("COMMIT".toList, []), commit.failure)] := by
    simp [Reply.outcome, isBegin, isCommit]
  rw [all]
  cases begun : first.failure with
  | some err =>
    have alone : rest = [] := by
      by_contra others
      have fails := stops first (by simp [dropLast_cons_of_ne_nil others])
      simp [Reply.fails, begun] at fails
    subst alone
    rw [Engine.run_unbegun begins commits plainBody, shown]
    exact ⟨fun _ => rfl, fun _ => rfl⟩
  | none =>
    have lost : E.Lost ((("BEGIN".toList, args), none) :: (rest.map Reply.outcome ++ dropped.map Reply.outcome) ++
        [(("COMMIT".toList, []), commit.failure)]) ↔
        E.Aborting (rest.map Reply.outcome ++ dropped.map Reply.outcome) ∨ commit.failure ≠ none := by
      rw [Engine.Lost, dropLast_concat, getLast?_concat]
      simp [Engine.Aborting]
    rw [lost]
    constructor
    · intro gone
      rw [Engine.run_lost begins commits plainBody gone]
    · intro kept
      obtain ⟨calm, hco⟩ := not_or.mp kept
      rw [not_not.mp hco, Engine.run_committed begins commits plainBody calm, shown]
      rfl

theorem plan_atomic_iff {pg : PgQuery} {x : Handler Unit} (isPlan : IsPlan pg statements cleanup)
    (transactional : Transactional E tables args statements cleanup) (executes : Executes statements cleanup args x)
    (idle : c.txStatus = .idle) (ends : x.Ends c () final) (rows : σ) :
    ∃ out calls, Moves out calls c final ∧ (Atomic E tables args statements rows out calls ↔
      tables (E.effects ((mainReplies cleanup calls).tail.map Reply.outcome) rows) = tables rows ∨
        (E.Lost (outcomes calls) ↔ (mainReplies cleanup calls).any Reply.fails = true)) := by
  obtain ⟨more, drops, rfl, rfl⟩ := isPlan.shape
  obtain ⟨main, cleaned, tried, commands, out, calls, hv, replies, error, complete⟩ :=
    wp_iff.mp (executes.performs idle (by simp)) () final ends
  obtain ⟨lost, kept⟩ := tables_run rows transactional tried commands
  have length := congrArg List.length commands
  rw [List.length_map, List.length_map] at length
  have isMain : mainReplies (drops ++ ["COMMIT".toList]) calls = main := by
    rw [mainReplies, replies, List.length_append, length, Nat.add_sub_cancel, List.take_left]
  refine ⟨out, calls, hv, ?_⟩
  rw [Atomic, outcomes, isMain, replies, error, complete]
  generalize (main ++ cleaned).map Reply.outcome = all at lost kept ⊢
  cases fails : main.any Reply.fails with
  | true =>
    by_cases gone : E.Lost all
    · simp [gone, lost gone]
    · simp [gone, kept gone]
  | false =>
    have planned : main.tail.map Reply.outcome = more.map fun text => ((text, args), none) := by
      have passed (r : Reply) (hm : r ∈ main) : r.outcome = (r.command, none) := by
        have isPassed : r.fails = false := by simpa using (List.any_eq_false.mp fails) r hm
        simp only [Reply.fails, Bool.or_eq_false_iff, Option.isSome_eq_false_iff, Option.isNone_iff_eq_none] at isPassed
        simp [Reply.outcome, isPassed.1]
      rw [List.map_congr_left fun r hm => passed r (List.mem_of_mem_tail hm)]
      have commands := congrArg List.tail (tried.whole fails)
      simpa [Function.comp_def] using congrArg (List.map (·, (none : Option Text))) commands
    rw [List.tail_cons, ← planned]
    by_cases gone : E.Lost all
    · simp [gone, lost gone, eq_comm]
    · simp [gone, kept gone]

end

def altering : PgQuery where
  deparse stmts := .ok <| stmts.flatMap fun stmt =>
    "ALTER TABLE ".toList ++ ((stmt.all .relation).flatMap (textAt · .relname) ++
      (stmt.all .cmds).flatMap fun cmd => " ADD COLUMN ".toList ++
        ((if boolAt cmd .missingOk then "IF NOT EXISTS ".toList else []) ++
          (cmd.all .definition).flatMap fun column => textAt column .colname ++ " ".toList ++
            (column.all .typeName).flatMap fun name => (name.all .names).flatMap (textAt · .sval)))

def addColumn (name type : String) : Transpile.Node := .node .alterTableCmd
  [(.subtype, .leaf (.enum .atAddColumn)), (.definition, .node .columnDef [(.colname, ofText name.toList),
    (.typeName, .node .typeName [(.names, .node .string [(.sval, ofText type.toList)])])])]

/-- `ALTER TABLE users ADD COLUMN x date, ADD COLUMN y text` -/
def alterUsers : Transpile.Node := .node .alterTableStmt
  [(.relation, .node .rangeVar [(.relname, ofText "users".toList)]), (.cmds, addColumn "x" "date"),
    (.cmds, addColumn "y" "text"), (.objtype, .leaf (.enum .objectTable))]

def twoCommands : List Text := ["BEGIN".toList, "ALTER TABLE users ADD COLUMN IF NOT EXISTS x date".toList,
  "ALTER TABLE users ADD COLUMN IF NOT EXISTS y text".toList]

theorem isPlan_twoCommands : IsPlan altering twoCommands ["COMMIT".toList] :=
  .alterTable (show transformAlterTableStmt altering alterUsers = _ from rfl)

def counting : Engine (Text × List Value) Text Nat where
  control command :=
    if command.1 = "BEGIN".toList then .begin else if command.1 = "COMMIT".toList then .commit else .statement
  effect _ n := n + 1
  aborts _ := true

theorem plan_atomic_iff_alter : Transactional counting id [] twoCommands ["COMMIT".toList] ∧ ∃ final,
    (executeMultiStatement twoCommands ["COMMIT".toList]).Ends (.started []) () final ∧
      ∃ out calls, Moves out calls (.started []) final ∧ (Atomic counting id [] twoCommands 0 out calls ↔
        counting.effects ((mainReplies ["COMMIT".toList] calls).tail.map Reply.outcome) 0 = 0 ∨
          (counting.Lost (outcomes calls) ↔ (mainReplies ["COMMIT".toList] calls).any Reply.fails = true)) := by
  have transactional : Transactional counting id [] twoCommands ["COMMIT".toList] := ⟨rfl, rfl, by decide, nofun, nofun⟩
  let ok : Answered Int := ⟨.ok 0, true⟩
  have ends : ∃ final, (executeMultiStatement twoCommands ["COMMIT".toList]).Ends (.started []) () final :=
    ⟨_, .call ok (.call ok (.call ok (.call ok .pure)))⟩
  obtain ⟨final, ends⟩ := ends
  exact ⟨transactional, final, ends, plan_atomic_iff isPlan_twoCommands transactional .simple rfl ends 0⟩

theorem complete_without_commit : ∃ final out calls,
    (executeMultiStatement twoCommands ["COMMIT".toList]).Ends (.started []) () final ∧
      Moves out calls (.started []) final ∧ ¬ Atomic counting id [] twoCommands 0 out calls := by
  let ok : Answered Int := ⟨.ok 0, true⟩
  let hfa : Answered Int := ⟨.error "conflict".toList, false⟩
  refine ⟨_, _, _, .call ok (.call ok (.call ok (.call hfa .pure))), ⟨rfl, rfl, rfl⟩, fun atomic => ?_⟩
  exact absurd (atomic.2 rfl) (by decide)

end Duckgres.Proof.Conn
