import Duckgres.Conn.Statements

/-!
# Cursors

The emulation of server-side cursors, and the catalog queries that the connection answers itself
(server/conn.go).
-/

namespace Duckgres.Conn
open Base Execution

variable (e : Setting)

def setCursor (name : Text) (cursor : Cursor) : Handler Unit :=
  modify fun c => { c with cursors := Function.update c.cursors name (some cursor) }

def openCursor (name : Text) (cursor : Cursor) : Handler (Except Text OpenRows) :=
  match cursor.rows with
  | some rows => pure (.ok rows)
  | none => do match ← query cursor.query [] with
    | .error err => pure (.error err)
    | .ok rows => match rows.header with
      | .error err => pure (.error err)
      | .ok (cols, colTypes) =>
        let opened : OpenRows := ⟨cols, colTypes, rows.rows, 0, rows.err⟩
        setCursor name { cursor with rows := some opened }
        pure (.ok opened)

def doesNotExist (kind : String) (name : Text) : Text := kind.toList ++ e.quoted name ++ " does not exist".toList

def getCursorSchema (cursorName : Text) : Handler (Except Text (List Text × List Text)) := do
  match (← get).cursors cursorName with
  | none => pure (.error (doesNotExist e "cursor " cursorName))
  | some cursor => return (← openCursor cursorName cursor).map fun rows => (rows.columns, rows.columnTypes)

def isFetchForwardOnly (direction : FetchDirection) : Bool := direction = .undefined || direction = .forward

structure Fetched where
  failure : Option Text
  rowCount : Int
  rest : List (Except Text Row)
  nextCalls : Nat

def fetchRows (formats : List Int) (oids : List Oid) (howMany : Int) :
    List (Except Text Row) → Int → Nat → Handler Fetched
  | [], rowCount, calls => pure ⟨none, rowCount, [], if rowCount < howMany then calls + 1 else calls⟩
  | row :: rest, rowCount, calls =>
    if rowCount < howMany then match row with
      | .error err => pure ⟨some err, rowCount, rest, calls + 1⟩
      | .ok values => do
        send (.dataRow values formats oids)
        fetchRows formats oids howMany rest (rowCount + 1) (calls + 1)
    else pure ⟨none, rowCount, row :: rest, calls⟩

/-- The loop of a MOVE, which ignores the errors of `Scan`. -/
def moveRows (howMany : Int) : List (Except Text Row) → Int → Nat → Fetched
  | [], rowCount, calls => ⟨none, rowCount, [], if rowCount < howMany then calls + 1 else calls⟩
  | row :: rest, rowCount, calls =>
    if rowCount < howMany then moveRows howMany rest (rowCount + 1) (calls + 1)
    else ⟨none, rowCount, row :: rest, calls⟩

def OpenRows.after (rows : OpenRows) (fetched : Fetched) : OpenRows :=
  { rows with rest := fetched.rest, nextCalls := fetched.nextCalls }

def fetchAll (name : Text) (cursor : Cursor) (rows : OpenRows) (formats : List Int) (howMany : Int)
    (finish : Handler Unit) : Handler Bool := do
  let fetched ← fetchRows formats (typeOIDs rows.columnTypes) howMany rows.rest 0 rows.nextCalls
  setCursor name { cursor with rows := some (rows.after fetched) }
  match fetched.failure with
  | some err =>
    sendPlainError err
    finish
    return true
  | none => match rows.err fetched.nextCalls with
    | some err =>
      sendIterationError err
      finish
      return true
    | none =>
      sendCommandComplete ("FETCH ".toList ++ decimal fetched.rowCount)
      finish
      return false

def declareCursor (portalname innerSQL : Text) (finish : Handler Unit) : Handler Bool := do
  let declare (query : Text) : Handler Bool := do
    closeCursor portalname
    setCursor portalname ⟨query, none⟩
    sendCommandComplete "DECLARE CURSOR".toList
    finish
    return false
  if innerSQL.isEmpty then
    sendError "42601" "could not deparse cursor query".toList
    finish
    return true
  else if e.passthrough then declare innerSQL
  else match e.transpile false innerSQL with
    | .error err =>
      sendError "42601" ("syntax error in cursor query: ".toList ++ err)
      finish
      return true
    | .ok result => declare (if result.fallbackToNative then innerSQL else result.sql)

def forwardOnly : Text := "cursor can only scan forward".toList

def fetchCursor (portalname : Text) (direction : FetchDirection) (howMany : Int) (isMove : Bool)
    (finish : Handler Unit) : Handler Bool := do
  if !isFetchForwardOnly direction then
    sendError "0A000" forwardOnly
    finish
    return true
  else match (← get).cursors portalname with
    | none =>
      sendError "34000" (doesNotExist e "cursor " portalname)
      finish
      return true
    | some cursor => match ← openCursor portalname cursor with
      | .error err =>
        sendIterationError err
        finish
        return true
      | .ok rows =>
        if howMany < 0 then
          sendError "0A000" forwardOnly
          finish
          return true
        else if isMove then
          let moved := moveRows howMany rows.rest 0 rows.nextCalls
          setCursor portalname { cursor with rows := some (rows.after moved) }
          sendCommandComplete ("MOVE ".toList ++ decimal moved.rowCount)
          finish
          return false
        else
          sendRowDescription rows.columns rows.columnTypes []
          fetchAll portalname cursor rows [] howMany finish

def closePortal (portalname : Text) (finish : Handler Unit) : Handler Bool := do
  let closed : Handler Bool := do
    sendCommandComplete "CLOSE CURSOR".toList
    finish
    return false
  if portalname.isEmpty then
    closeAllCursors
    closed
  else match (← get).cursors portalname with
    | none =>
      sendError "34000" (doesNotExist e "cursor " portalname)
      finish
      return true
    | some _ =>
      closeCursor portalname
      closed

def cursorStatement (finish : Handler Unit) : Node → Option (Handler Bool)
  | .declareCursor portalname innerSQL => some (declareCursor e portalname innerSQL finish)
  | .fetch portalname direction howMany isMove => some (fetchCursor e portalname direction howMany isMove finish)
  | .closePortal portalname => some (closePortal e portalname finish)
  | .other => none

def pgCursorsFields (formats : List Int) : List Field := [⟨"?column?".toList, 23, 4, -1, formats.headD 0⟩]

def pgStatActivityColumns : List (String × Oid × Int) :=
  [("datid", 23, 4), ("datname", 25, -1), ("pid", 23, 4), ("usesysid", 23, 4), ("usename", 25, -1),
    ("application_name", 25, -1), ("client_addr", 25, -1), ("client_port", 23, 4), ("backend_start", 1184, 8),
    ("xact_start", 1184, 8), ("query_start", 1184, 8), ("state_change", 1184, 8), ("wait_event_type", 25, -1),
    ("wait_event", 25, -1), ("state", 25, -1), ("backend_xid", 28, 4), ("backend_xmin", 28, 4), ("query", 25, -1),
    ("backend_type", 25, -1), ("leader_pid", 23, 4), ("worker_id", 23, 4), ("query_progress", 701, 8),
    ("rows_processed", 20, 8), ("total_rows_to_process", 20, 8)]

def pgStatActivityFields (formats : List Int) : List Field :=
  pgStatActivityColumns.mapIdx fun i (name, oid, size) => ⟨name.toList, oid, size, -1, formatAt formats i⟩

def selectTag (rowCount : Nat) : Text := "SELECT ".toList ++ decimal rowCount

def sendPgCursors (cursorName : Text) (describes : Bool) (formats : List Int) : Handler Unit := do
  let found := ((← get).cursors cursorName).isSome
  sendWhen describes (.rowDescription (pgCursorsFields formats))
  sendWhen found (.dataRow [.int .int64 1] formats [23])
  sendCommandComplete (selectTag (if found then 1 else 0))

def sendActivities (formats : List Int) : List Activity → Handler Unit
  | [] => pure ()
  | activity :: rest => do
    send (.dataRow activity.values formats (pgStatActivityColumns.map fun column => column.2.1))
    sendActivities formats rest

def sendPgStatActivity (describes : Bool) (formats : List Int) : Handler Unit := do
  sendWhen describes (.rowDescription (pgStatActivityFields formats))
  let conns : List Activity ← perform .listConns
  let conns := conns.mergeSort fun a b => a.pid ≤ b.pid
  sendActivities formats conns
  sendCommandComplete (selectTag conns.length)

end Duckgres.Conn
