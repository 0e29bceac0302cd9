import Duckgres.Conn.State

/-!
# Running statements

What the handlers of the simple and the extended protocol share (server/conn.go). Where a handler of
one protocol differs from that of the other only in what it does at each of its exits, `finish` is what
it does there.
-/

namespace Duckgres.Conn
open Base Execution

def send (m : Backend) : Handler Unit := modify fun c => { c with sent := c.sent ++ [m] }

def sendWhen (condition : Bool) (m : Backend) : Handler Unit := if condition then send m else pure ()

def readyForQuery : Handler Unit := do send (.readyForQuery (← get).txStatus)

def sendError (code : String) (message : Text) : Handler Unit := send (.errorResponse code message)

def sendCommandComplete (tag : Text) : Handler Unit := send (.commandComplete tag)

def sendRowDescription (cols colTypes : List Text) (formats : List Int) : Handler Unit :=
  send (.rowDescription (rowDescriptionFields cols colTypes formats))

def close : Handler Unit := modify fun c => { c with isOpen := false }

def setTxError : Handler Unit := modify fun c => if c.txStatus = .transaction then { c with txStatus := .error } else c

def closeCursor (name : Text) : Handler Unit :=
  modify fun c => { c with cursors := Function.update c.cursors name none }

def closeAllCursors : Handler Unit := modify fun c => { c with cursors := fun _ => none }

def updateTxStatus (cmdType : CommandType) : Handler Unit :=
  modify fun c => match cmdType with
    | .begin => { c with txStatus := .transaction }
    | .commit | .rollback => { c with txStatus := .idle, cursors := fun _ => none }
    | _ => c

def exec (text : Text) (args : List Value) : Handler (Except Text Int) := do
  return Answered.result (← perform (.exec text args))

def query (text : Text) (args : List Value) : Handler (Except Text RowSet) := do
  return Answered.result (← perform (.query text args))

def ctxDone : Handler Bool := perform .ctxErr

def isCallerCancellation (err : Text) : Handler Bool := if isQueryCancelled err then ctxDone else pure false

def cancelMessage : Text := "canceling statement due to user request".toList

def iterationError (err : Text) : Handler (String × Text) := do
  return if ← isCallerCancellation err then ("57014", cancelMessage) else ("42000", err)

def sendIterationError (err : Text) : Handler Unit := do
  let (code, message) ← iterationError err
  sendError code message
  setTxError

def sendStatementError (err : Text) : Handler Unit := do
  let cancelled ← isCallerCancellation err
  sendError (classifyErrorCode err) (if cancelled then cancelMessage else err)
  setTxError

def sendPlainError (err : Text) : Handler Unit := do
  sendError "42000" err
  setTxError

def rollback : Handler (Except Text Unit) := do return (← exec "ROLLBACK".toList []).map fun _ => ()

def recovered {α : Type} (run : Handler (Except Text α)) : Handler (Except Text α) := do
  let idle : Bool := (← get).txStatus = .idle
  let result ← run
  let result ← retryingConflict result idle run
  recovering result idle rollback run

section
variable (e : Setting)

def viewStatement (query err : Text) : Option Text :=
  (if isAlterTableNotTableError err then e.convertAlterTableToAlterView query else none).or
    (if isDropTableOnViewError err then e.convertDropTableToDropView query else none)

def runExec (query : Text) (args : List Value) : Handler (Except Text Int) := do
  match ← exec query args with
  | .ok rowsAffected => pure (.ok rowsAffected)
  | .error err => match viewStatement e query err with
    | some altered => exec altered args
    | none => pure (.error err)

def nestedBegin : Handler Unit := do
  send (.noticeResponse "25001" "there is already a transaction in progress".toList)
  sendCommandComplete "BEGIN".toList

def execStatement (cmdType : CommandType) (run : Handler (Except Text Int)) (finish : Handler Unit) : Handler Bool := do
  if cmdType = .begin ∧ (← get).txStatus = .transaction then
    nestedBegin
    finish
    return false
  else match ← recovered run with
    | .error err =>
      sendStatementError err
      finish
      return true
    | .ok rowsAffected =>
      updateTxStatus cmdType
      sendCommandComplete (buildCommandTag cmdType rowsAffected)
      finish
      return false

def RowSet.header (rows : RowSet) : Except Text (List Text × List Text) := do
  let cols ← rows.columns
  let colTypes ← rows.columnTypes
  return (cols, colTypes)

def RowSet.finalErr (rows : RowSet) : Option Text := rows.err (rows.rows.length + 1)

def sendRows (formats : List Int) (oids : List Oid) : List (Except Text Row) → Nat → Handler (Except Text Nat)
  | [], rowCount => pure (.ok rowCount)
  | .error err :: _, _ => pure (.error err)
  | .ok values :: rows, rowCount => do
    send (.dataRow values formats oids)
    sendRows formats oids rows (rowCount + 1)

def unwrapped (status : TxStatus) (statements cleanup : List Text) : List Text × List Text :=
  let isCommand (stmt : Text) (command : String) : Bool := stmt.trimSpace.toUpper = command.toList
  if (statements.length ≥ 2 ∧ isCommand (statements.headD []) "BEGIN" ∧ cleanup ≠ [] ∧
      isCommand (cleanup.getLastD []) "COMMIT") ∧ status = .transaction then
    (statements.tail, cleanup.dropLast)
  else (statements, cleanup)

def executeCleanup : List Text → Handler Unit
  | [] => pure ()
  | stmt :: cleanup => do
    let _ ← exec stmt []
    executeCleanup cleanup

def executeSetup (args : List Value) : List Text → Handler (Except Text Unit)
  | [] => pure (.ok ())
  | stmt :: statements => do match ← exec stmt args with
    | .error err => pure (.error err)
    | .ok _ => executeSetup args statements

def sendSetupError (cleanup : List Text) (err : Text) (finish : Handler Unit) : Handler Unit := do
  setTxError
  executeCleanup cleanup
  sendError "42000" err
  finish

def multiStatement (args : List Value) (finish : Handler Unit) (stream : RowSet → CommandType → Handler Unit)
    (statements cleanup : List Text) : Handler Unit := do
  if statements.isEmpty then
    send .emptyQueryResponse
    finish
  else
    let (statements, cleanup) := unwrapped (← get).txStatus statements cleanup
    match ← executeSetup args statements.dropLast with
    | .error err => sendSetupError cleanup err finish
    | .ok _ =>
      let finalStmt := statements.getLastD []
      let cmdType := getCommandType finalStmt.trimSpace.toUpper
      if queryReturnsResults finalStmt then
        match ← query finalStmt args with
        | .error err => sendSetupError cleanup err finish
        | .ok rows =>
          executeCleanup cleanup
          stream rows cmdType
      else match ← exec finalStmt args with
        | .error err => sendSetupError cleanup err finish
        | .ok rowsAffected =>
          executeCleanup cleanup
          sendCommandComplete (buildCommandTag cmdType rowsAffected)
          finish

/-- The letters that `strings.EqualFold` takes for an ASCII letter. -/
def fold (c : Char) : Char := if c.val = 0x17F then 's' else if c.val = 0x212A then 'k' else c.toLower

def equalFold (s t : Text) : Bool := s.map fold = t.map fold

def rewrittenTarget (unquoted : Text) : Option Text :=
  if equalFold unquoted e.database || equalFold unquoted "ducklake".toList then some "ducklake.main".toList
  else if equalFold unquoted "iceberg".toList then some "iceberg.public".toList
  else none

def undouble : Text → Text
  | '"' :: '"' :: s => '"' :: undouble s
  | c :: s => c :: undouble s
  | [] => []

/-- `trimmed` is the text without comments, blanks and its last semicolon. -/
def rewriteDirectQuery (query : Text) : Text :=
  if e.passthrough || !e.logicalCatalogMapping || e.database.trimSpace.isEmpty then query
  else
    let stripped := (stripLeadingComments query).trimSpace
    let hasSemicolon := stripped.hasSuffix ";".toList
    let trimmed := Text.trimSpace (if hasSemicolon then stripped.dropLast else stripped)
    let ending := if hasSemicolon then ";".toList else []
    if equalFold trimmed "SHOW DATABASES".toList then "SELECT current_database() AS database_name".toList ++ ending
    else if (trimmed.take 3).map Char.toUpper ≠ "USE".toList then query
    else
      let target := Text.trimSpace (trimmed.drop 3)
      let unquoted := if 2 ≤ target.length && target.head? = some '"' && target.getLast? = some '"'
        then undouble target.tail.dropLast else target
      if target.isEmpty then query
      else match rewrittenTarget e unquoted with
        | some catalog => "USE ".toList ++ catalog ++ ending
        | none => query

def validateWithDuckDB (query : Text) : Handler (Except Text Unit) := do
  if isDuckDBUtilityCommand query then pure (.ok ())
  else if hasAt (stripLeadingComments query).trimSpace.toUpper 0 "EXPLAIN" then pure (.ok ())
  else if hasParameterPlaceholders query then pure (.ok ())
  else match ← exec ("EXPLAIN ".toList ++ query) [] with
    | .error err => pure (.error (replaceFirst err "EXPLAIN " ""))
    | .ok _ => pure (.ok ())

def syntaxError (err : Text) : Text := "syntax error: ".toList ++ err

end

end Duckgres.Conn
