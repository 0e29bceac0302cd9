import Duckgres.Proof.Conn.Order

/-!
Relations between a connection before and after a handler that allow whatever the handlers do: messages, calls, an
error with its change of the status, and changes of what is not looked at here.
-/

namespace Duckgres.Proof.Conn
open Base Base.Stateful Duckgres.Conn Duckgres.Execution

variable {c d : ClientConn} {calls : List Occurrence} {e : Setting} {text : Text} {args : List Value}

def Occurrence.leaves (o : Occurrence) (inTxn : Bool) : Bool := inTxnAfter inTxn o.call o.answer

def leftBy (inTxn : Bool) (calls : List Occurrence) : Bool :=
  calls.foldl (fun inTxn o => Occurrence.leaves o inTxn) inTxn

def Calls (c d : ClientConn) : Prop := ∃ calls, d = { c with inTxn := leftBy c.inTxn calls, log := c.log ++ calls }

theorem Calls.refl (c : ClientConn) : Calls c c := ⟨[], by simp [leftBy]⟩

theorem note_eq {call answer} (made : d = { c with inTxn := leftBy c.inTxn calls, log := c.log ++ calls }) :
    ClientConn.note call answer d =
      { c with inTxn := leftBy c.inTxn (calls ++ [⟨call, answer⟩]), log := c.log ++ (calls ++ [⟨call, answer⟩]) } := by
  subst made
  simp [ClientConn.note, leftBy, Occurrence.leaves]

theorem calls_kept : KeptByCalls (Calls c) := fun _ _ _ ⟨_, made⟩ => ⟨_, note_eq made⟩

def raised : TxStatus → TxStatus
  | .transaction => .error
  | status => status

class Messages (R : ClientConn → ClientConn → Prop) : Prop extends Std.Refl R, IsTrans ClientConn R where
  message : ∀ m c, isError m = false → R c { c with sent := c.sent ++ [m] }
  silent : ∀ c d, d.sent = c.sent → d.log = c.log → d.inTxn = c.inTxn → d.txStatus = c.txStatus → R c d

class Chained (R : ClientConn → ClientConn → Prop) : Prop extends Messages R where
  calls : ∀ c d, Calls c d → R c d
  error : ∀ code message c, code ≠ "0A000" →
    R c { c with sent := c.sent ++ [.errorResponse code message], txStatus := raised c.txStatus }

variable {R : ClientConn → ClientConn → Prop}

section
variable [Messages R] {formats : List Int} {oids : List Oid} {name : Text} {cursor : Cursor}

theorem leads_send {m} (quiet : isError m = false) : Leads R (send m) := .update fun c => Messages.message m c quiet

theorem leads_silent {f : ClientConn → ClientConn} (kept : ∀ c, (f c).sent = c.sent ∧ (f c).log = c.log ∧
    (f c).inTxn = c.inTxn ∧ (f c).txStatus = c.txStatus) : Leads R (modify f : Handler Unit) := by
  refine .update fun c => ?_
  obtain ⟨sent, log, inTxn, status⟩ := kept c
  exact Messages.silent c (f c) sent log inTxn status

theorem leads_close : Leads R close := leads_silent fun _ => ⟨rfl, rfl, rfl, rfl⟩

theorem leads_setInput {input} : Leads R (setInput input) := leads_silent fun _ => ⟨rfl, rfl, rfl, rfl⟩

theorem leads_setCursor : Leads R (setCursor name cursor) := leads_silent fun _ => ⟨rfl, rfl, rfl, rfl⟩

theorem leads_closeCursor : Leads R (closeCursor name) := leads_silent fun _ => ⟨rfl, rfl, rfl, rfl⟩

theorem leads_setPortal {portal} : Leads R (setPortal name portal) := leads_silent fun _ => ⟨rfl, rfl, rfl, rfl⟩

theorem leads_setDescribed {ps} : Leads R (setDescribed ps) := leads_silent fun _ => ⟨rfl, rfl, rfl, rfl⟩

theorem leads_prepare {stmt} : Leads R (prepare name stmt) :=
  .seq (leads_silent fun _ => ⟨rfl, rfl, rfl, rfl⟩) fun _ => leads_send rfl

theorem leads_readyForQuery : Leads R readyForQuery := .seq .read fun _ => leads_send rfl

theorem leads_sendWhen {condition m} (quiet : isError m = false) : Leads R (sendWhen condition m) := by
  unfold sendWhen
  split
  · exact leads_send quiet
  · exact .ret

theorem leads_sendRows {rows} {rowCount} : Leads R (sendRows formats oids rows rowCount) := by
  induction rows generalizing rowCount with
  | nil => exact .ret
  | cons row rows ih =>
    cases row with
    | error => exact .ret
    | ok => exact .seq (leads_send rfl) fun _ => ih

theorem leads_fetchRows {rows} {howMany rowCount nextCalls} :
    Leads R (fetchRows formats oids howMany rows rowCount nextCalls) := by
  induction rows generalizing rowCount nextCalls with
  | nil => exact .ret
  | cons row rows ih =>
    unfold fetchRows
    split
    · cases row with
      | error => exact .ret
      | ok => exact .seq (leads_send rfl) fun _ => ih
    · exact .ret

theorem leads_sendActivities {activities} : Leads R (sendActivities formats activities) := by
  induction activities with
  | nil => exact .ret
  | cons activity activities ih => exact .seq (leads_send rfl) fun _ => ih

end

variable [Chained R]

theorem OnlyCalls.leads {α : Type} {x : Handler α} (calls : OnlyCalls x) : Leads R x := fun c =>
  wp_imp (calls calls_kept (.refl c)) fun _ => Chained.calls c

theorem leads_perform {call} : Leads R (perform call) := calls_perform.leads

theorem leads_exec : Leads R (exec text args) := calls_exec.leads

theorem leads_query : Leads R (query text args) := calls_query.leads

theorem leads_recovered_query : Leads R (recovered (query text args)) := (calls_recovered calls_query).leads

variable {cleanup cols colTypes : List Text} {err : Text} {oids : List Oid} {rows : RowSet} {rowCount : Nat}
  {finish : Handler Unit} {opts : CopyFromOptions}

theorem leads_executeCleanup : Leads R (executeCleanup cleanup) := calls_executeCleanup.leads

theorem setTxError_eq (c : ClientConn) :
    (if c.txStatus = .transaction then { c with txStatus := .error } else c) =
      { c with txStatus := raised c.txStatus } := by
  obtain ⟨status⟩ := c
  cases status <;> rfl

theorem leads_error {code message} (other : code ≠ "0A000") : Leads R (do sendError code message; setTxError) := by
  intro c
  unfold sendError send setTxError
  simp only [wp_bind, wp_modify, setTxError_eq]
  exact Chained.error code message c other

theorem leads_sendPlainError : Leads R (sendPlainError err) := leads_error (by decide)

theorem leads_sendIterationError : Leads R (sendIterationError err) := by
  unfold sendIterationError iterationError
  simp only [bind_assoc]
  refine .seq calls_isCallerCancellation.leads fun cancelled => ?_
  cases cancelled with
  | false | true => exact leads_error (by simp)

theorem leads_ended {x} (leads : Leads R x) (finishes : Leads R finish) : Leads R (do x; finish) :=
  .seq leads fun _ => finishes

theorem leads_plainError : Leads R (do sendPlainError err; readyForQuery) :=
  leads_ended leads_sendPlainError leads_readyForQuery

theorem leads_completed {tag} : Leads R (do sendCommandComplete tag; readyForQuery) :=
  leads_ended (leads_send rfl) leads_readyForQuery

theorem leads_sendSetupError (finishes : Leads R finish) : Leads R (sendSetupError cleanup err finish) := by
  have sends : Leads R (do setTxError; executeCleanup cleanup; sendError "42000" err) := by
    intro c
    unfold setTxError
    simp only [wp_bind, wp_modify, setTxError_eq]
    refine wp_imp (calls_executeCleanup calls_kept (.refl _)) fun _ d ⟨calls, made⟩ => ?_
    unfold sendError send
    rw [wp_modify, made]
    -- the same as the calls first, and then the error
    let between : ClientConn := { c with inTxn := leftBy c.inTxn calls, log := c.log ++ calls }
    have first : R c between := Chained.calls c between ⟨calls, rfl⟩
    exact IsTrans.trans c between _ first (Chained.error "42000" err between (by decide))
  have hs : sendSetupError cleanup err finish =
      (do setTxError; executeCleanup cleanup; sendError "42000" err) >>= fun _ => finish := by
    unfold sendSetupError
    simp [bind_assoc]
  rw [hs]
  exact .seq sends fun _ => finishes

theorem leads_multiStatement {stream : RowSet → CommandType → Handler Unit} {statements} (finishes : Leads R finish)
    (streams : ∀ rows cmdType, Leads R (stream rows cmdType)) :
    Leads R (multiStatement args finish stream statements cleanup) := by
  unfold multiStatement
  split
  · exact leads_ended (leads_send rfl) finishes
  refine .seq .read fun c => ?_
  refine .seq calls_executeSetup.leads (of_result (fun _ => leads_sendSetupError finishes) fun _ => ?_)
  dsimp only
  split
  · exact .seq leads_query (of_result (fun _ => leads_sendSetupError finishes)
      fun rows => .seq leads_executeCleanup fun _ => streams rows _)
  · exact .seq leads_exec
      (of_result (fun _ => leads_sendSetupError finishes) fun _ => .seq leads_executeCleanup
        fun _ => leads_ended (leads_send rfl) finishes)

theorem leads_streamRowsToClient {cmdType} : Leads R (streamRowsToClient rows cmdType) := by
  unfold streamRowsToClient
  split
  · exact leads_plainError
  refine .seq (leads_send rfl) fun _ => .seq leads_sendRows (of_result (fun _ => leads_plainError) fun _ => ?_)
  dsimp only
  split
  · exact leads_ended leads_sendIterationError leads_readyForQuery
  · exact leads_completed

theorem leads_failCopy {code message} (other : code ≠ "0A000") : Leads R (failCopy code message) := by
  have hs : failCopy code message = (do sendError code message; setTxError) >>= fun _ => readyForQuery := by
    unfold failCopy
    simp [bind_assoc]
  rw [hs]
  exact .seq (leads_error other) fun _ => leads_readyForQuery

theorem leads_endCopy {ending load} (loads : Leads R load) : Leads R (endCopy ending load) := by
  cases ending with
  | done => exact loads
  | fail | unexpected => exact leads_failCopy (by decide)
  | lost => exact leads_close

theorem leads_finishCopy {result} : Leads R (finishCopy result) := by
  cases result with
  | error => exact leads_failCopy (by decide)
  | ok => exact leads_completed

theorem leads_receiveFile {input} : Leads R (receiveFile input) := by
  induction input with
  | nil => exact .ret
  | cons m input ih =>
    cases m with
    | copyData =>
      refine .seq leads_setInput fun _ => ?_
      split
      · exact ih
      · exact .seq leads_perform (of_result (fun _ => .ret) fun _ => ih)
    | _ => exact .seq leads_setInput fun _ => .ret

theorem leads_copyInFile : Leads R (copyInFile opts) := by
  refine .seq leads_perform (of_result (fun _ => leads_failCopy (by decide)) fun _ => ?_)
  exact .seq .read fun c => .seq leads_receiveFile
    (of_result (fun _ => leads_failCopy (by decide)) fun _ => leads_endCopy (.seq leads_exec fun _ => leads_finishCopy))

theorem leads_handleCopyInRemoteStreaming : Leads R (handleCopyInRemoteStreaming opts) := by
  refine .seq leads_perform fun answer => .seq .read fun c => ?_
  refine .seq leads_setInput fun _ => ?_
  split
  · exact leads_failCopy (by decide)
  · exact leads_failCopy (by decide)
  · exact leads_finishCopy
  · exact leads_finishCopy

theorem leads_loadCSV {data} : Leads R (loadCSV e opts cols colTypes data) := by
  unfold loadCSV
  split
  · exact leads_failCopy (by decide)
  · dsimp only
    split
    · exact leads_completed
    · exact .seq calls_insertBatches.leads fun _ => leads_finishCopy

theorem leads_loadBinary {data} : Leads R (loadBinary e opts cols colTypes data) := by
  unfold loadBinary
  split
  · exact leads_close
  · exact leads_failCopy (by decide)
  · exact .seq calls_insertBinary.leads fun _ => leads_finishCopy

theorem leads_handleCopyIn : Leads R (handleCopyIn e text) := by
  unfold handleCopyIn
  split
  · exact leads_failCopy (by decide)
  refine .seq leads_query (of_result (fun _ => leads_failCopy (by decide)) fun _ => ?_)
  dsimp only
  split
  · exact .seq (leads_send rfl) fun _ => .seq .read fun _ => .seq leads_setInput fun _ => leads_endCopy leads_loadBinary
  split
  · exact .seq (leads_send rfl) fun _ => .seq .read fun _ => .seq leads_setInput fun _ => leads_endCopy leads_loadCSV
  · refine .seq (leads_send rfl) fun _ => ?_
    split
    · exact leads_handleCopyInRemoteStreaming
    · exact leads_copyInFile

theorem leads_sendCopyTuples {rows} : Leads R (sendCopyTuples e oids rows rowCount) := by
  induction rows generalizing rowCount with
  | nil => exact .ret
  | cons row rows ih =>
    cases row with
    | error => exact .ret
    | ok => exact .seq (leads_send rfl) fun _ => ih

theorem leads_handleCopyOutBinary : Leads R (handleCopyOutBinary e rows cols) := by
  unfold handleCopyOutBinary
  split
  · exact leads_plainError
  refine .seq (leads_send rfl) fun _ => .seq leads_sendCopyTuples (of_result (fun _ => leads_plainError) fun _ => ?_)
  dsimp only
  split
  · exact leads_plainError
  · exact .seq (leads_send rfl) fun _ => .seq (leads_send rfl) fun _ => leads_completed

theorem leads_sendCopyLines {delimiter} {rows}
    (errors : ∀ err, .error err ∈ rows → Leads R (sendError "42000" err)) :
    Leads R (sendCopyLines e oids delimiter rows rowCount) := by
  induction rows generalizing rowCount with
  | nil => exact .ret
  | cons row rows ih =>
    cases row with
    | error err => exact .seq (errors err List.mem_cons_self) fun _ => .ret
    | ok => exact .seq (leads_send rfl) fun _ => ih fun err hm => errors err (List.mem_cons_of_mem _ hm)

theorem leads_sendTextRows (errors : ∀ err, .error err ∈ rows.rows → Leads R (sendError "42000" err)) :
    Leads R (sendTextRows e text rows cols colTypes) := by
  refine .seq (leads_send rfl) fun _ => .seq (leads_sendWhen rfl) fun _ =>
    .seq (leads_sendCopyLines errors) fun sent => ?_
  dsimp only
  split
  · exact leads_plainError
  · exact .seq (leads_send rfl) fun _ => leads_completed

theorem leads_handleCopy (out : Leads R (handleCopyOut e text)) : Leads R (handleCopy e text) := by
  unfold handleCopy
  split
  · exact out
  split
  · exact leads_handleCopyIn
  · exact .seq leads_exec (of_result (fun _ => leads_plainError) fun _ => leads_completed)

end Duckgres.Proof.Conn
