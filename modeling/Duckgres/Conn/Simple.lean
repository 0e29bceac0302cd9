import Duckgres.Conn.Copy
import Duckgres.Conn.Cursors

/-!
# The simple protocol

`handleQuery` and the handlers it calls (server/conn.go).
-/

namespace Duckgres.Conn
open Base Execution

variable (e : Setting) (text : Text)

def executeSelectQuery (cmdType : CommandType) : Handler Unit := do
  match ← recovered (query text []) with
  | .error err =>
    sendStatementError err
    readyForQuery
  | .ok rows => match rows.header with
    | .error err =>
      sendPlainError err
      readyForQuery
    | .ok (cols, colTypes) =>
      sendRowDescription cols colTypes []
      match ← sendRows [] (typeOIDs colTypes) rows.rows 0 with
      | .error err =>
        sendPlainError err
        readyForQuery
      | .ok rowCount => match rows.finalErr with
        | some err =>
          sendIterationError err
          readyForQuery
        | none =>
          updateTxStatus cmdType
          sendCommandComplete (buildCommandTagFromRowCount cmdType rowCount)
          readyForQuery

def streamRowsToClient (rows : RowSet) (cmdType : CommandType) : Handler Unit := do
  match rows.header with
  | .error err =>
    sendPlainError err
    readyForQuery
  | .ok (cols, colTypes) =>
    sendRowDescription cols colTypes []
    match ← sendRows [] (typeOIDs colTypes) rows.rows 0 with
    | .error err =>
      sendPlainError err
      readyForQuery
    | .ok rowCount => match rows.finalErr with
      | some err =>
        sendIterationError err
        readyForQuery
      | none =>
        sendCommandComplete (buildCommandTagFromRowCount cmdType rowCount)
        readyForQuery

def executeMultiStatement (statements cleanup : List Text) : Handler Unit :=
  multiStatement [] readyForQuery streamRowsToClient statements cleanup

def batchSelect (cmdType : CommandType) : Handler Bool := do
  match ← recovered (query text []) with
  | .error err =>
    sendStatementError err
    return true
  | .ok rows => match rows.header with
    | .error err =>
      sendPlainError err
      return true
    | .ok (cols, colTypes) =>
      sendRowDescription cols colTypes []
      match ← sendRows [] (typeOIDs colTypes) rows.rows 0 with
      | .error err =>
        sendError "42000" err
        return true
      | .ok rowCount =>
        updateTxStatus cmdType
        sendCommandComplete (buildCommandTagFromRowCount cmdType rowCount)
        return false

def cursorHandler (finish : Handler Unit) : Option (Handler Bool) :=
  match e.parse text with
  | some [stmt] => cursorStatement e finish stmt.node
  | _ => none

def executeTranspiled (result : Transpiled) : Handler Bool := do
  match result.error with
  | some err =>
    sendError "42704" err
    return true
  | none =>
    if result.isIgnoredSet then
      sendCommandComplete "SET".toList
      return false
    else if result.isNoOp then
      sendCommandComplete result.noOpTag
      return false
    else if !result.statements.isEmpty then
      sendError "0A000" "writable CTEs not supported in multi-statement queries".toList
      return true
    else
      let executedQuery := rewriteDirectQuery e result.sql
      let cmdType := getCommandType executedQuery.toUpper
      if cmdType = .copy then
        sendError "0A000" "COPY not supported in multi-statement queries".toList
        return true
      else if !queryReturnsResults executedQuery then
        execStatement cmdType (runExec e executedQuery []) (pure ())
      else batchSelect executedQuery cmdType

def validated (result : Transpiled) (text : Text) : Handler (Except Text Unit) :=
  if result.fallbackToNative then validateWithDuckDB text else pure (.ok ())

def executeSingleStatement : Handler Bool := do
  match cursorHandler e text (pure ()) with
  | some handler => handler
  | none => match e.pgCursorsQuery text with
    | some cursorName =>
      sendPgCursors (cursorName.getD []) true []
      return false
    | none =>
      if e.pgStatActivityQuery text then
        sendPgStatActivity true []
        return false
      else match e.transpile false text with
        | .error err =>
          sendError "42601" (syntaxError err)
          return true
        | .ok result => match ← validated result text with
          | .error err =>
            sendError "42601" (syntaxError err)
            return true
          | .ok _ => executeTranspiled e result

def executeBatch : List ParsedStmt → Handler Unit
  | [] => pure ()
  | stmt :: stmts => do match stmt.deparsed with
    | .error err => sendError "42601" (syntaxError err)
    | .ok singleSQL =>
      let errSent ← executeSingleStatement e singleSQL
      if errSent then pure () else executeBatch stmts

def handleMultiStatementQuery (stmts : List ParsedStmt) : Handler Unit := do
  executeBatch e stmts
  readyForQuery

def executeQueryDirect (cmdType : CommandType) : Handler Unit := do
  if !queryReturnsResults text then
    let _ ← execStatement cmdType (exec text []) readyForQuery
  else executeSelectQuery text cmdType

def handleTranspiled (result : Transpiled) : Handler Unit := do
  match result.error with
  | some err =>
    sendError "42704" err
    readyForQuery
  | none =>
    if result.isIgnoredSet then
      sendCommandComplete "SET".toList
      readyForQuery
    else if result.isNoOp then
      sendCommandComplete result.noOpTag
      readyForQuery
    else if !result.statements.isEmpty then executeMultiStatement result.statements result.cleanupStatements
    else
      let text := rewriteDirectQuery e result.sql
      let cmdType := getCommandType text.toUpper
      if cmdType = .copy then handleCopy e text
      else if !queryReturnsResults text then
        let _ ← execStatement cmdType (runExec e text []) readyForQuery
      else executeSelectQuery text cmdType

def handleStatements : Handler Unit := do
  match e.parse text with
  | some (first :: second :: stmts) => handleMultiStatementQuery e (first :: second :: stmts)
  | _ => match e.transpile false text with
    | .error err =>
      sendError "42601" (syntaxError err)
      readyForQuery
    | .ok result => match ← validated result text with
      | .error err =>
        sendError "42601" (syntaxError err)
        readyForQuery
      | .ok _ => handleTranspiled e result

/-- `handleQuery` for a text that is no statement on cursors and no catalog query. -/
def handleText : Handler Unit :=
  if e.passthrough then
    let cmdType := getCommandType text.toUpper
    if cmdType = .copy then handleCopy e text else executeQueryDirect text cmdType
  else if shouldHandleCopyBeforeTranspile text then handleCopy e text
  else handleStatements e text

def handleQuery (body : Text) : Handler Unit := do
  let text := body.trimSpace
  if isEmptyQuery text then
    send .emptyQueryResponse
    readyForQuery
  else match cursorHandler e text readyForQuery with
    | some handler => let _ ← handler
    | none => match e.pgCursorsQuery text with
      | some cursorName =>
        sendPgCursors (cursorName.getD []) true []
        readyForQuery
      | none =>
        if e.pgStatActivityQuery text then
          sendPgStatActivity true []
          readyForQuery
        else handleText e text

end Duckgres.Conn
