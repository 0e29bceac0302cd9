import Duckgres.Conn.Extended
import Duckgres.Conn.Simple

/-!
# The message loop

`messageLoop` (server/conn.go). A message is served after the one before it; COPY takes its data from
the messages that follow.
-/

namespace Duckgres.Conn
open Base Execution

variable (e : Setting)

def serve : Frontend → Handler Unit
  | .query text => handleQuery e text
  | .parse body => handleParse e body
  | .bind names body => handleBind e names body
  | .describe body => handleDescribe e body
  | .execute body => handleExecute e body
  | .close body => handleClose body
  | .sync => readyForQuery
  | .flush => pure ()
  | .terminate => close
  | .copyData _ => pure ()
  | .copyDone => pure ()
  | .copyFail _ => pure ()
  | .other _ => pure ()

structure Served where
  message : Frontend
  before : ClientConn
  after : ClientConn

def Served.reading (step : Served) : ClientConn := { step.before with input := step.before.input.tail }

def Served.Occurs (step : Served) : Prop :=
  step.before.isOpen = true ∧ step.before.input.head? = some step.message ∧
    (serve e step.message).Ends step.reading () step.after

def IsRun : ClientConn → List Served → Prop
  | _, [] => True
  | c, step :: steps => step.before = c ∧ step.Occurs e ∧ IsRun step.after steps

def ClientConn.started (input : List Frontend) : ClientConn where
  txStatus := .idle
  stmts := fun _ => none
  described := fun _ => false
  nextRef := 0
  portals := fun _ => none
  cursors := fun _ => none
  input := input
  sent := []
  isOpen := true
  inTxn := false
  log := []

def Setting.bare : Setting where
  passthrough := true
  logicalCatalogMapping := false
  database := []
  streamsCopy := false
  parse _ := none
  transpile _ sql := .ok { sql := sql }
  convertAlterTableToAlterView _ := none
  convertDropTableToDropView _ := none
  pgCursorsQuery _ := none
  pgStatActivityQuery _ := false
  copy := ⟨fun _ => none, fun _ => none, fun _ => false, fun _ => false, fun _ => false, fun _ => none, fun _ => none,
    fun _ => none, fun _ => none⟩
  csvReads _ _ := []
  copyLine _ _ _ := []
  copyTuple _ _ := []
  decodeBinary _ _ := .ok .null
  decodeText _ := []
  encodeText _ := []
  quoted := id

/-- Every call succeeds, and a query gives these rows. -/
def answering (rows : RowSet) : (call : Call) → Answer call
  | .exec .. => (⟨.ok 0, false⟩ : Answered Int)
  | .query .. => (⟨.ok rows, false⟩ : Answered RowSet)
  | .copyFromStdin _ => (⟨⟨.ok 0, false⟩, none⟩ : Streamed)
  | .appender .. => (⟨.ok 0, false⟩ : Answered Int)
  | .createTemp => (.ok [] : Except Text Text)
  | .writeTemp _ => (.ok () : Except Text Unit)
  | .listConns => ([] : List Activity)
  | .ctxErr => false

def Setting.single : Setting :=
  { Setting.bare with passthrough := false, parse := fun text => some [⟨.other, .ok text⟩] }

end Duckgres.Conn
