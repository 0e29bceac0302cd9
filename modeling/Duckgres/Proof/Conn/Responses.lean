import Duckgres.Conn.Loop
import Duckgres.Proof.Execution.Recovery

/-!
Calls of the executor change the log and whether DuckDB is in a transaction. An assertion on nothing
else outlives every call, and the functions that make calls.

What the client is sent in answer to a message, followed from message to message: whether there has
been an error, and whether anything follows it.
-/

namespace Duckgres.Proof.Conn
open Base Base.Stateful Duckgres.Conn Duckgres.Execution Duckgres.Proof.Execution

section
def KeptByCalls (P : ClientConn → Prop) : Prop := ∀ call answer c, P c → P (ClientConn.note call answer c)

section
variable {α β : Type}

def OnlyCalls (x : Handler α) : Prop := ∀ ⦃P : ClientConn → Prop⦄ ⦃s⦄, KeptByCalls P → P s → wp x (fun _ => P) s

theorem OnlyCalls.seq {x : Handler α} {f : α → Handler β} (first : OnlyCalls x) (rest : ∀ a, OnlyCalls (f a)) :
    OnlyCalls (x >>= f) := fun _ _ kept hl =>
  wp_seq (first kept hl) fun a _ => rest a kept

theorem OnlyCalls.ret {a : α} : OnlyCalls (pure a) := fun _ _ _ hl => .ret hl

end

variable {P : ClientConn → Prop} {s : ClientConn} {text err : Text} {args : List Value} {statements : List Text}
  {rows : List Row}

theorem calls_perform {call} : OnlyCalls (perform call) := fun _ s kept hl => by
  unfold perform
  rw [wp_call]
  exact fun answer => kept call answer s hl

theorem calls_exec : OnlyCalls (exec text args) := .seq calls_perform fun _ => .ret

theorem calls_query : OnlyCalls (query text args) := .seq calls_perform fun _ => .ret

theorem calls_isCallerCancellation : OnlyCalls (isCallerCancellation err) := by
  unfold isCallerCancellation
  split
  · exact calls_perform
  · exact .ret

theorem calls_iterationError : OnlyCalls (iterationError err) := .seq calls_isCallerCancellation fun _ => .ret

theorem calls_rollback : OnlyCalls rollback := .seq calls_exec fun _ => .ret

theorem wp_recovered_of {α : Type} {run : Handler (Except Text α)} {Q : Except Text α → ClientConn → Prop}
    (runs : ∀ s, P s → wp run Q s) (again : ∀ err s, Q (.error err) s → P s) (fails : ∀ err s, P s → Q (.error err) s)
    (rolls : (s.txStatus = .idle) → ∀ s, P s → wp rollback (fun _ => P) s) (hl : P s) : wp (recovered run) Q s := by
  unfold recovered
  simp only [wp_bind, wp_get]
  refine wp_imp (runs s hl) fun result c hl => ?_
  refine wp_imp (wp_retryingConflict hl fun err failed _ _ =>
    wp_retryOnConflict runs again (fun err c hl => fails _ c (again err c hl)) (again err c (failed ▸ hl)))
    fun result c hl => ?_
  refine wp_recovering hl fun err failed idle _ => ?_
  exact wp_imp (rolls (by simpa using idle) c (again err c (failed ▸ hl)))
    (of_result (fun _ => fails _) fun _ => runs)

theorem calls_recovered {α : Type} {run : Handler (Except Text α)} (runs : OnlyCalls run) : OnlyCalls (recovered run) :=
  fun _ _ kept hl => wp_recovered_of (fun _ => runs kept) (fun _ _ hl => hl) (fun _ _ hl => hl)
    (fun _ _ => calls_rollback kept) hl

theorem calls_runExec {e} : OnlyCalls (runExec e text args) := by
  refine .seq calls_exec fun result => ?_
  cases result with
  | ok => exact .ret
  | error =>
    dsimp only
    split
    · exact calls_exec
    · exact .ret

theorem calls_executeCleanup : OnlyCalls (executeCleanup statements) := by
  induction statements with
  | nil => exact .ret
  | cons stmt cleanup ih => exact .seq calls_exec fun _ => ih

theorem calls_executeSetup : OnlyCalls (executeSetup args statements) := by
  induction statements with
  | nil => exact .ret
  | cons stmt statements ih => exact .seq calls_exec (of_result (fun _ => .ret) fun _ => ih)

theorem calls_validateWithDuckDB : OnlyCalls (validateWithDuckDB text) := by
  unfold validateWithDuckDB
  split
  · exact .ret
  split
  · exact .ret
  split
  · exact .ret
  · refine .seq calls_exec fun result => ?_
    cases result with
    | error | ok => exact .ret

theorem calls_validated {result} : OnlyCalls (validated result text) := by
  unfold validated
  split
  · exact calls_validateWithDuckDB
  · exact .ret

theorem calls_insertBatches {tableName colNames numCols n start} :
    OnlyCalls (insertBatches tableName colNames numCols n start rows) := by
  induction n generalizing start rows with
  | zero => exact .ret
  | succ n ih =>
    unfold insertBatches
    split
    · exact .ret
    · exact .seq calls_exec (of_result (fun _ => .ret) fun _ => ih)

theorem calls_insertBinary {opts cols} : OnlyCalls (insertBinary opts cols rows) := by
  unfold insertBinary
  split
  · exact .ret
  split
  · refine .seq calls_perform fun answer => ?_
    split
    · exact .ret
    · exact calls_insertBatches
  · exact calls_insertBatches

end

inductive Phase where
  | silent
  | calm
  | failed
  | ready
  -- something follows an error or `ReadyForQuery`
  | broken
  deriving DecidableEq

def Phase.next : Phase → Backend → Phase
  | .silent, .readyForQuery _ => .ready
  | .calm, .readyForQuery _ => .ready
  | .failed, .readyForQuery _ => .ready
  | .silent, .errorResponse .. => .failed
  | .calm, .errorResponse .. => .failed
  | .silent, _ => .calm
  | .calm, _ => .calm
  | _, _ => .broken

def Phase.after (out : List Backend) : Phase := out.foldl Phase.next .silent

def Phase.Quiet (p : Phase) : Prop := p = .silent ∨ p = .calm

def Phase.Replied (p : Phase) : Prop := p = .calm ∨ p = .failed

def Phase.Unfinished (p : Phase) : Prop := p = .silent ∨ p = .calm ∨ p = .failed

variable {p : Phase} {m : Backend} {name err : Text} {cursor : Cursor} {formats : List Int} {howMany : Int}

theorem Phase.Quiet.unfinished (quiet : p.Quiet) : p.Unfinished := by
  rcases quiet with rfl | rfl
  · exact .inl rfl
  · exact .inr (.inl rfl)

def In (phases : Phase → Prop) (old : List Backend) (c : ClientConn) : Prop :=
  c.isOpen = true → ∃ out, c.sent = old ++ out ∧ phases (.after out)

variable {φ ψ : Phase → Prop} {old : List Backend} {s c : ClientConn} {R : Bool → Phase → Prop}

theorem In.imp (hl : In φ old c) (imp : ∀ p, φ p → ψ p) : In ψ old c := fun ho =>
  (hl ho).imp fun _ ⟨sent, hp⟩ => ⟨sent, imp _ hp⟩

theorem Phase.after_concat (out : List Backend) (m : Backend) :
    Phase.after (out ++ [m]) = (Phase.after out).next m := by
  simp [Phase.after]

theorem In.send (held : In (fun p => φ (p.next m)) old c) : In φ old { c with sent := c.sent ++ [m] } := by
  intro ho
  obtain ⟨out, sent, hp⟩ := held ho
  refine ⟨out ++ [m], ?_, ?_⟩
  · simp [sent, List.append_assoc]
  · rw [Phase.after_concat]
    exact hp

theorem in_silent (c : ClientConn) : In (· = .silent) c.sent c := fun _ => ⟨[], (List.append_nil _).symm, rfl⟩

theorem in_keptByCalls : KeptByCalls (In φ old) := fun _ _ _ hl => hl

def isQuiet : Backend → Bool
  | .readyForQuery _ => false
  | .errorResponse .. => false
  | _ => true

theorem Phase.next_of_isQuiet (quiet : p.Quiet) (noError : isQuiet m = true) : p.next m = .calm := by
  rcases quiet with rfl | rfl <;> cases m <;> first | rfl | cases noError

theorem wp_send (held : In (fun p => φ (p.next m)) old s) : wp (send m) (fun _ => In φ old) s := by
  unfold send
  rw [wp_modify]
  exact held.send

section
variable {α β : Type}

def Takes (φ : Phase → Prop) (x : Handler α) (ψ : α → Phase → Prop) : Prop :=
  ∀ ⦃old s⦄, In φ old s → wp x (fun a => In (ψ a) old) s

abbrev Ends (ψ : Phase → Prop) (x : Handler α) : Prop := Takes Phase.Quiet x fun _ => ψ

variable {x : Handler α} {a : α} {Q : α → Phase → Prop} {S : β → Phase → Prop}

theorem Takes.seq {f : α → Handler β} (first : Takes φ x Q) (rest : ∀ a, Takes (Q a) (f a) S) : Takes φ (x >>= f) S :=
  fun _ _ hl => wp_seq (first hl) fun a _ hl => rest a hl

theorem Takes.imp {Q' : α → Phase → Prop} (takes : Takes φ x Q) (imp : ∀ a p, Q a p → Q' a p) : Takes φ x Q' :=
  fun _ _ hl => wp_imp (takes hl) fun a _ hl => hl.imp (imp a)

theorem Takes.of (takes : Takes ψ x Q) (imp : ∀ p, φ p → ψ p) : Takes φ x Q := fun _ _ hl => takes (hl.imp imp)

theorem takes_pure : Takes (Q a) (pure a) Q := fun _ _ hl => .ret hl

theorem Takes.keep : Takes φ (pure a) fun _ => φ := fun _ _ hl => .ret hl

theorem Takes.read {f : ClientConn → Handler α} (rest : ∀ c, Takes φ (f c) Q) : Takes φ (get >>= f) Q :=
  fun _ s hl => by
  rw [wp_bind, wp_get]
  exact rest s hl

theorem takes_silent {f : ClientConn → ClientConn} (kept : ∀ c, (f c).isOpen = c.isOpen ∧ (f c).sent = c.sent) :
    Takes φ (modify f) fun _ => φ := fun _ s hl => by
  rw [wp_modify]
  intro opens
  obtain ⟨out, hs, hp⟩ := hl ((kept s).1 ▸ opens)
  exact ⟨out, (kept s).2.trans hs, hp⟩

theorem OnlyCalls.takes (calls : OnlyCalls x) : Takes φ x fun _ => φ := fun _ _ => calls in_keptByCalls

end

theorem send_quiet (noError : isQuiet m = true) : Ends (· = .calm) (send m) := fun _ _ quiet =>
  wp_send (quiet.imp fun _ quiet => Phase.next_of_isQuiet quiet noError)

theorem send_stays (quiet : isQuiet m = true) : Ends Phase.Quiet (send m) := (send_quiet quiet).imp fun _ _ => .inr

theorem sendWhen_quiet {condition} (quiet : isQuiet m = true) : Ends Phase.Quiet (sendWhen condition m) := by
  unfold sendWhen
  split
  · exact send_stays quiet
  · exact .keep

theorem sendError_quiet {code message} : Ends (· = .failed) (sendError code message) := by
  refine fun _ _ quiet => wp_send (quiet.imp fun p quiet => ?_)
  rcases quiet with rfl | rfl <;> rfl

theorem readyForQuery_ready : Takes Phase.Unfinished readyForQuery fun _ => (· = .ready) := by
  refine .read fun _ _ _ unfinished => wp_send (unfinished.imp fun p unfinished => ?_)
  rcases unfinished with rfl | rfl | rfl <;> rfl

theorem setTxError_in : Takes φ setTxError fun _ => φ := takes_silent fun _ => by split <;> exact ⟨rfl, rfl⟩

theorem updateTxStatus_in {cmdType} : Takes φ (updateTxStatus cmdType) fun _ => φ :=
  takes_silent fun _ => by split <;> exact ⟨rfl, rfl⟩

theorem setCursor_in : Takes φ (setCursor name cursor) fun _ => φ := takes_silent fun _ => ⟨rfl, rfl⟩

theorem closeCursor_in : Takes φ (closeCursor name) fun _ => φ := takes_silent fun _ => ⟨rfl, rfl⟩

theorem setInput_in {input} : Takes φ (setInput input) fun _ => φ := takes_silent fun _ => ⟨rfl, rfl⟩

theorem close_in : Takes φ close fun _ => ψ := fun _ _ _ => by
  unfold close
  rw [wp_modify]
  nofun

theorem sendPlainError_quiet : Ends (· = .failed) (sendPlainError err) := .seq sendError_quiet fun _ => setTxError_in

theorem sendIterationError_quiet : Ends (· = .failed) (sendIterationError err) :=
  .seq calls_iterationError.takes fun _ => .seq sendError_quiet fun _ => setTxError_in

theorem sendStatementError_quiet : Ends (· = .failed) (sendStatementError err) :=
  .seq calls_isCallerCancellation.takes fun _ => .seq sendError_quiet fun _ => setTxError_in

theorem readyForQuery_failed : Takes (· = .failed) readyForQuery fun _ => (· = .ready) :=
  readyForQuery_ready.of fun _ failed => .inr (.inr failed)

theorem readyForQuery_calm : Takes (· = .calm) readyForQuery fun _ => (· = .ready) :=
  readyForQuery_ready.of fun _ calm => .inr (.inl calm)

variable {rows : List (Except Text Row)}

theorem sendRows_quiet {oids rowCount} : Ends Phase.Quiet (sendRows formats oids rows rowCount) := by
  induction rows generalizing rowCount with
  | nil => exact .keep
  | cons row rows ih =>
    cases row with
    | error => exact .keep
    | ok => exact .seq (send_stays rfl) fun _ => ih

theorem openCursor_in : Takes φ (openCursor name cursor) fun _ => φ := by
  unfold openCursor
  split
  · exact .keep
  refine .seq calls_query.takes (of_result (fun _ => .keep) fun _ => ?_)
  dsimp only
  split
  · exact .keep
  · exact .seq setCursor_in fun _ => .keep

theorem getCursorSchema_in {e} : Takes φ (getCursorSchema e name) fun _ => φ := by
  refine .read fun _ => ?_
  split
  · exact .keep
  · exact .seq openCursor_in fun _ => .keep

theorem fetchRows_quiet {oids rowCount calls} :
    Ends Phase.Quiet (fetchRows formats oids howMany rows rowCount calls) := by
  induction rows generalizing rowCount calls with
  | nil => exact .keep
  | cons row rows ih =>
    unfold fetchRows
    split
    · cases row with
      | error => exact .keep
      | ok => exact .seq (send_stays rfl) fun _ => ih
    · exact .keep

variable {portalname : Text}

section
variable {e : Setting} {finish : Handler Unit} (failed : Takes (· = .failed) finish fun _ => R true)
  (calm : Takes (· = .calm) finish fun _ => R false)
include failed

theorem error_finishes {x} (errs : Ends (· = .failed) x) :
    Takes Phase.Quiet (do x; finish; return true) R :=
  .seq errs fun _ => .seq failed fun _ => takes_pure

omit failed in
include calm in
theorem complete_finishes {tag} : Takes Phase.Quiet (do sendCommandComplete tag; finish; return false) R :=
  .seq (send_quiet rfl) fun _ => .seq calm fun _ => takes_pure

include calm

theorem execStatement_finishes {cmdType run}
    (runs : OnlyCalls run) : Takes Phase.Quiet (execStatement cmdType run finish) R := by
  refine .read fun _ => ?_
  split
  · exact .seq (.seq (send_stays rfl) fun _ => send_quiet rfl) fun _ => .seq calm fun _ => takes_pure
  · exact .seq (calls_recovered runs).takes
      (of_result (fun _ => error_finishes failed sendStatementError_quiet) fun _ => .seq updateTxStatus_in
        fun _ => complete_finishes calm)

theorem fetchAll_finishes {rows} :
    Takes Phase.Quiet (fetchAll name cursor rows formats howMany finish) R := by
  refine .seq fetchRows_quiet fun fetched => .seq setCursor_in fun _ => ?_
  split
  · exact error_finishes failed sendPlainError_quiet
  · split
    · exact error_finishes failed sendIterationError_quiet
    · exact complete_finishes calm

theorem declareCursor_finishes {innerSQL} : Takes Phase.Quiet (declareCursor e portalname innerSQL finish) R := by
  unfold declareCursor
  have declares (text : Text) : Takes Phase.Quiet (do
      closeCursor portalname
      setCursor portalname ⟨text, none⟩
      sendCommandComplete "DECLARE CURSOR".toList
      finish
      return false) R :=
    .seq closeCursor_in fun _ => .seq setCursor_in fun _ => complete_finishes calm
  split
  · exact error_finishes failed sendError_quiet
  split
  · exact declares _
  · split
    · exact error_finishes failed sendError_quiet
    · exact declares _

theorem fetchCursor_finishes {direction isMove} :
    Takes Phase.Quiet (fetchCursor e portalname direction howMany isMove finish) R := by
  unfold fetchCursor
  split
  · exact error_finishes failed sendError_quiet
  refine .read fun c => ?_
  split
  · exact error_finishes failed sendError_quiet
  refine .seq openCursor_in (of_result (fun _ => error_finishes failed sendIterationError_quiet) fun _ => ?_)
  dsimp only
  split
  · exact error_finishes failed sendError_quiet
  · split
    · exact .seq setCursor_in fun _ => complete_finishes calm
    · exact .seq (send_stays rfl) fun _ => fetchAll_finishes failed calm

theorem closePortal_finishes : Takes Phase.Quiet (closePortal e portalname finish) R := by
  unfold closePortal
  split
  · exact .seq (takes_silent fun _ => ⟨rfl, rfl⟩) fun _ => complete_finishes calm
  · refine .read fun c => ?_
    split
    · exact error_finishes failed sendError_quiet
    · exact .seq closeCursor_in fun _ => complete_finishes calm

theorem cursorStatement_finishes {node handler}
    (hf : cursorStatement e finish node = some handler) : Takes Phase.Quiet handler R := by
  cases node with
  | declareCursor =>
    cases hf
    exact declareCursor_finishes failed calm
  | fetch =>
    cases hf
    exact fetchCursor_finishes failed calm
  | closePortal =>
    cases hf
    exact closePortal_finishes failed calm
  | other => cases hf

end

section
variable {finish : Handler Unit} (failed : Takes (· = .failed) finish fun _ => ψ)
  (calm : Takes (· = .calm) finish fun _ => ψ)
include failed

theorem sendSetupError_finishes {cleanup} : Ends ψ (sendSetupError cleanup err finish) :=
  .seq setTxError_in fun _ => .seq calls_executeCleanup.takes fun _ => .seq sendError_quiet fun _ => failed

include calm in
theorem multiStatement_finishes {args} {stream : RowSet → CommandType → Handler Unit}
    {statements cleanup} (streams : ∀ rows cmdType, Ends ψ (stream rows cmdType)) :
    Ends ψ (multiStatement args finish stream statements cleanup) := by
  unfold multiStatement
  split
  · exact .seq (send_quiet rfl) fun _ => calm
  refine .read fun _ => .seq calls_executeSetup.takes (of_result (fun _ => sendSetupError_finishes failed) fun _ => ?_)
  dsimp only
  split
  · exact .seq calls_query.takes (of_result (fun _ => sendSetupError_finishes failed)
      fun rows => .seq calls_executeCleanup.takes fun _ => streams rows _)
  · refine .seq calls_exec.takes fun result => ?_
    cases result with
    | error => exact sendSetupError_finishes failed
    | ok => exact .seq calls_executeCleanup.takes fun _ => .seq (send_quiet rfl) fun _ => calm

end

theorem sendPgCursors_calm {cursorName describes} : Ends (· = .calm) (sendPgCursors cursorName describes formats) :=
  .read fun _ => .seq (sendWhen_quiet rfl) fun _ => .seq (sendWhen_quiet rfl) fun _ => send_quiet rfl

theorem sendActivities_quiet {conns} : Ends Phase.Quiet (sendActivities formats conns) := by
  induction conns with
  | nil => exact .keep
  | cons conn conns ih => exact .seq (send_stays rfl) fun _ => ih

theorem sendPgStatActivity_calm {describes} : Ends (· = .calm) (sendPgStatActivity describes formats) :=
  .seq (sendWhen_quiet rfl) fun _ => .seq calls_perform.takes fun _ => .seq sendActivities_quiet fun _ => send_quiet rfl

variable {e : Setting} {text : Text} {cmdType : CommandType} {x : Handler Unit}

theorem error_ready (errs : Ends (· = .failed) x) : Ends (· = .ready) (do x; readyForQuery) :=
  .seq errs fun _ => readyForQuery_failed

theorem complete_ready {tag} : Ends (· = .ready) (do sendCommandComplete tag; readyForQuery) :=
  .seq (send_quiet rfl) fun _ => readyForQuery_calm

variable {run : Handler (Except Text Int)}

theorem execStatement_ready (runs : OnlyCalls run) :
    Ends (· = .ready) (do let _ ← execStatement cmdType run readyForQuery) :=
  .seq (execStatement_finishes readyForQuery_failed readyForQuery_calm runs) fun _ => .keep

theorem executeSelectQuery_ready : Ends (· = .ready) (executeSelectQuery text cmdType) := by
  refine .seq (calls_recovered calls_query).takes (of_result (fun _ => error_ready sendStatementError_quiet)
    fun _ => ?_)
  dsimp only
  split
  · exact error_ready sendPlainError_quiet
  refine .seq (send_stays rfl) fun _ => .seq sendRows_quiet (of_result (fun _ => error_ready sendPlainError_quiet)
    fun _ => ?_)
  dsimp only
  split
  · exact error_ready sendIterationError_quiet
  · exact .seq updateTxStatus_in fun _ => complete_ready

theorem streamRowsToClient_ready {rows} : Ends (· = .ready) (streamRowsToClient rows cmdType) := by
  unfold streamRowsToClient
  split
  · exact error_ready sendPlainError_quiet
  refine .seq (send_stays rfl) fun _ => .seq sendRows_quiet (of_result (fun _ => error_ready sendPlainError_quiet)
    fun _ => ?_)
  dsimp only
  split
  · exact error_ready sendIterationError_quiet
  · exact complete_ready

theorem executeMultiStatement_ready {statements cleanup} :
    Ends (· = .ready) (executeMultiStatement statements cleanup) :=
  multiStatement_finishes readyForQuery_failed readyForQuery_calm fun _ _ => streamRowsToClient_ready

def Phase.BatchReply (errSent : Bool) (p : Phase) : Prop := p = if errSent then .failed else .calm

abbrev BatchReplies (x : Handler Bool) : Prop := Takes Phase.Quiet x Phase.BatchReply

theorem batchError (errs : Ends (· = .failed) x) : BatchReplies (do x; return true) :=
  .seq errs fun _ => takes_pure (a := true) (Q := Phase.BatchReply)

theorem batchCalm (calm : Ends (· = .calm) x) : BatchReplies (do x; return false) :=
  .seq calm fun _ => takes_pure (a := false) (Q := Phase.BatchReply)

theorem batchSelect_replies : BatchReplies (batchSelect text cmdType) := by
  refine .seq (calls_recovered calls_query).takes (of_result (fun _ => batchError sendStatementError_quiet) fun _ => ?_)
  dsimp only
  split
  · exact batchError sendPlainError_quiet
  · exact .seq (send_stays rfl) fun _ => .seq sendRows_quiet
      (of_result (fun _ => batchError sendError_quiet) fun _ => .seq updateTxStatus_in
        fun _ => batchCalm (send_quiet rfl))

theorem execStatement_replies (runs : OnlyCalls run) : BatchReplies (execStatement cmdType run (pure ())) :=
  execStatement_finishes .keep .keep runs

theorem executeTranspiled_replies {result} : BatchReplies (executeTranspiled e result) := by
  unfold executeTranspiled
  split
  · exact batchError sendError_quiet
  split
  · exact batchCalm (send_quiet rfl)
  split
  · exact batchCalm (send_quiet rfl)
  split
  · exact batchError sendError_quiet
  dsimp only
  split
  · exact batchError sendError_quiet
  · split
    · exact execStatement_replies calls_runExec
    · exact batchSelect_replies

theorem cursorHandler_finishes {finish handler}
    (failed : Takes (· = .failed) finish fun _ => R true) (calm : Takes (· = .calm) finish fun _ => R false)
    (hf : cursorHandler e text finish = some handler) : Takes Phase.Quiet handler R := by
  unfold cursorHandler at hf
  split at hf
  · exact cursorStatement_finishes failed calm hf
  · cases hf

theorem executeSingleStatement_replies : BatchReplies (executeSingleStatement e text) := by
  unfold executeSingleStatement
  split
  · rename_i hf
    exact cursorHandler_finishes .keep .keep hf
  split
  · exact batchCalm sendPgCursors_calm
  split
  · exact batchCalm sendPgStatActivity_calm
  split
  · exact batchError sendError_quiet
  · exact .seq calls_validated.takes (of_result (fun _ => batchError sendError_quiet)
      fun _ => executeTranspiled_replies)

theorem executeBatch_unfinished {stmts} : Ends Phase.Unfinished (executeBatch e stmts) := by
  induction stmts with
  | nil => exact Takes.keep.of fun _ => Phase.Quiet.unfinished
  | cons stmt stmts ih =>
    unfold executeBatch
    split
    · exact sendError_quiet.imp fun _ _ failed => .inr (.inr failed)
    · refine .seq executeSingleStatement_replies fun errSent => ?_
      cases errSent with
      | true => exact Takes.keep.of fun _ failed => .inr (.inr failed)
      | false => exact ih.of fun _ calm => .inr calm

end Duckgres.Proof.Conn
