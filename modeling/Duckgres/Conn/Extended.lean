import Duckgres.Conn.Cursors

/-!
# The extended protocol

`handleParse`, `handleBind`, `handleDescribe`, `handleExecute` and `handleClose` (server/conn.go).
-/

namespace Duckgres.Conn
open Base Execution

variable (e : Setting)

def castTypes : List (Oid × String) :=
  [(16, "BOOLEAN"), (20, "BIGINT"), (21, "SMALLINT"), (23, "INTEGER"), (25, "TEXT"), (26, "INTEGER"), (700, "REAL"),
    (701, "DOUBLE"), (1042, "TEXT"), (1043, "VARCHAR"), (1082, "DATE"), (1083, "TIME"), (1114, "TIMESTAMP"),
    (1184, "TIMESTAMPTZ"), (1186, "INTERVAL"), (1700, "NUMERIC"), (2950, "UUID")]

def castType (oid : Oid) : String := (castTypes.lookup oid).getD "TEXT"

/-- The matches of `\$N(?:\D|$)` with the cast put in; a match takes the character behind the number with it. -/
def castParam (placeholder cast : Text) : Nat → Text → Text
  | 0, query => query
  | n + 1, query =>
    if query.hasPrefix placeholder && endsAt query placeholder.length fun c => !c.isDigit then
      placeholder ++ cast ++ (query.drop placeholder.length).take 1 ++
        castParam placeholder cast n (query.drop (placeholder.length + 1))
    else match query with
      | [] => []
      | c :: rest => c :: castParam placeholder cast n rest

def castParams (query : Text) (paramTypes : List Oid) : Text :=
  paramTypes.zipIdx.foldr (fun (oid, i) query =>
    castParam ('$' :: decimal (i + 1)) ("::".toList ++ (castType oid).toList) (query.length + 1) query) query

def setStmt (stmtName : Text) (stmt : PreparedStmt) : Handler Unit :=
  modify fun c => { c with
    stmts := Function.update c.stmts stmtName (some { stmt with ref := c.nextRef }), nextRef := c.nextRef + 1 }

def prepare (stmtName : Text) (stmt : PreparedStmt) : Handler Unit := do
  setStmt stmtName stmt
  send .parseComplete

def declaredQuery (innerSQL : Text) : Text :=
  if e.passthrough || innerSQL.isEmpty then innerSQL
  else match e.transpile true innerSQL with
    | .ok result => if result.fallbackToNative then innerSQL else result.sql
    | .error _ => innerSQL

def interceptedOp (query : Text) : Option CursorOp :=
  match e.pgCursorsQuery query with
  | some cursorName => some (.pgCursorsQuery (cursorName.getD []))
  | none => if e.pgStatActivityQuery query then some .pgStatActivity else none

def prepareIntercepted (stmtName query : Text) (op : CursorOp) : Handler Unit :=
  if e.pgCursorsQuery query = some none then
    prepare stmtName ⟨0, query, query, [25], 1, false, false, [], [], [], some op⟩
  else prepare stmtName ⟨0, query, query, [], 0, false, false, [], [], [], some op⟩

def parseTranspiled (body : ParseBody) (result : Transpiled) : Handler Unit := do
  match result.error with
  | some err => sendError "42704" err
  | none => match ← (if result.fallbackToNative then validateWithDuckDB body.query else pure (.ok ())) with
    | .error err => sendError "42601" (syntaxError err)
    | .ok _ =>
      prepare body.stmtName
        { ref := 0, query := body.query
          convertedQuery := castParams (rewriteDirectQuery e result.sql) body.paramTypes
          paramTypes := body.paramTypes, numParams := result.paramCount, isIgnoredSet := result.isIgnoredSet
          isNoOp := result.isNoOp, noOpTag := result.noOpTag, statements := result.statements
          cleanupStatements := result.cleanupStatements }

def parseStatement (body : ParseBody) : Handler Unit :=
  match interceptedOp e body.query with
  | some op => prepareIntercepted e body.stmtName body.query op
  | none =>
    if e.passthrough then
      prepare body.stmtName
        { ref := 0, query := body.query, convertedQuery := castParams body.query body.paramTypes
          paramTypes := body.paramTypes, numParams := countDollarParams body.query }
    else match e.transpile true body.query with
      | .error err => sendError "42601" (syntaxError err)
      | .ok result => parseTranspiled e body result

def parseNode (body : ParseBody) : Node → Handler Unit
  | .declareCursor portalname innerSQL =>
    prepare body.stmtName ⟨0, body.query, body.query, [], 0, false, false, [], [], [],
      some (.declare portalname (declaredQuery e innerSQL))⟩
  | .fetch portalname direction howMany _ =>
    if !isFetchForwardOnly direction || howMany < 0 then sendError "0A000" forwardOnly
    else prepare body.stmtName ⟨0, body.query, body.query, [], 0, false, false, [], [], [],
      some (.fetch portalname howMany)⟩
  | .closePortal portalname =>
    prepare body.stmtName ⟨0, body.query, body.query, [], 0, false, false, [], [], [], some (.close portalname)⟩
  | .other => parseStatement e body

def handleParse : Body ParseBody → Handler Unit
  | .short => sendError "08P01" "invalid Parse message".toList
  | .negative => close
  | .read body => match e.parse body.query with
    | some [stmt] => parseNode e body stmt.node
    | _ => parseStatement e body

def setPortal (name : Text) (portal : Portal) : Handler Unit :=
  modify fun c => { c with portals := Function.update c.portals name (some portal) }

def handleBind (names : Option (Text × Text)) (body : Body BindBody) : Handler Unit := do
  match names with
  | none => sendError "08P01" "invalid Bind message".toList
  | some (portalName, stmtName) => match (← get).stmts stmtName with
    | none => sendError "26000" (doesNotExist e "prepared statement " stmtName)
    | some ps => match body with
      | .short => sendError "08P01" "invalid Bind message".toList
      | .negative => close
      | .read body =>
        let described := (← get).described ps.ref
        setPortal portalName ⟨ps, body.paramValues, body.paramFormats, body.resultFormats, described⟩
        send .bindComplete

def parameterDescription (ps : PreparedStmt) : List Oid :=
  if ps.paramTypes.length < ps.numParams then List.replicate ps.numParams Oid.text
  else ps.paramTypes.map fun oid => if oid = 0 then Oid.text else oid

variable (p : Portal)

def decodeParam (i : Nat) : Option Bytes → Except Text Value
  | none => .ok .null
  | some v =>
    let typeOID := p.stmt.paramTypes.getD i 0
    if typeOID = 0 ∨ formatAt p.paramFormats i = 0 then .ok (.string (e.decodeText v))
    else (e.decodeBinary v typeOID).mapError fun err => "parameter ".toList ++ decimal (i + 1) ++ ": ".toList ++ err

def decodeParams : Except Text (List Value) := p.paramValues.zipIdx.mapM fun (v, i) => decodeParam e p i v

def malformed (err : Text) : Text := "insufficient data left in message: ".toList ++ err

def dmlReturning : Text :=
  ("DML with RETURNING clause cannot be described without executing the mutation; " ++
    "use simple query protocol or skip the Describe step").toList

def setDescribed (ps : PreparedStmt) : Handler Unit :=
  modify fun c => { c with described := Function.update c.described ps.ref true }

inductive DescribeVerdict where
  | noData | refused | probe

def describeVerdict (query : Text) : DescribeVerdict :=
  if !queryReturnsResults query then .noData
  else if isDMLReturning query then .refused
  else if isWithDML query then .noData
  else .probe

def probeColumns (text : Text) (args : List Value) (formats : List Int) (mark : Handler Unit) : Handler Unit := do
  match ← query (withLimit text) args with
  | .error _ => send .noData
  | .ok rows => match rows.columns.toOption.getD [], rows.columnTypes with
    | [], _ => send .noData
    -- the types are indexed without having been read
    | _ :: _, .error _ => close
    | col :: cols, .ok colTypes =>
      sendRowDescription (col :: cols) colTypes formats
      mark

def describeFetch (cursorName : Text) (formats : List Int) (mark : Handler Unit) : Handler Unit := do
  match ← getCursorSchema e cursorName with
  | .error _ => send .noData
  | .ok ([], _) => send .noData
  | .ok (col :: cols, colTypes) =>
    sendRowDescription (col :: cols) colTypes formats
    mark

def describeOp (formats : List Int) (mark : Handler Unit) : CursorOp → Handler Unit
  | .declare .. => send .noData
  | .close _ => send .noData
  | .fetch cursorName _ => describeFetch e cursorName formats mark
  | .pgCursorsQuery _ => do
    send (.rowDescription (pgCursorsFields formats))
    mark
  | .pgStatActivity => do
    send (.rowDescription (pgStatActivityFields formats))
    mark

def describeStmt (ps : PreparedStmt) : Handler Unit := do
  send (.parameterDescription (parameterDescription ps))
  match ps.cursorOp with
  | some op => describeOp e [] (setDescribed ps) op
  | none => match describeVerdict ps.query with
    | .noData => send .noData
    | .refused => sendError "0A000" dmlReturning
    | .probe => probeColumns ps.convertedQuery (List.replicate ps.numParams .null) [] (setDescribed ps)

def setPortalDescribed (name : Text) (p : Portal) : Handler Unit := setPortal name { p with described := true }

def describePortal (name : Text) (p : Portal) : Handler Unit := do
  match p.stmt.cursorOp with
  | some op => describeOp e p.resultFormats (setPortalDescribed name p) op
  | none => match describeVerdict p.stmt.query with
    | .noData => send .noData
    | .refused => sendError "0A000" dmlReturning
    | .probe => match decodeParams e p with
      | .error err => sendError "08P01" (malformed err)
      | .ok args => probeColumns p.stmt.convertedQuery args p.resultFormats do
        setPortalDescribed name p
        setDescribed p.stmt

def describeCursor (name : Text) : Handler Unit := do
  match (← get).cursors name with
  | none => sendError "34000" (doesNotExist e "portal " name)
  | some _ => match ← getCursorSchema e name with
    | .error _ => send .noData
    | .ok (cols, colTypes) => sendRowDescription cols colTypes []

def handleDescribe : Option (Char × Text) → Handler Unit
  | none => sendError "08P01" "invalid Describe message".toList
  | some (descType, name) => do
    if descType = 'S' then match (← get).stmts name with
      | none => sendError "26000" (doesNotExist e "prepared statement " name)
      | some ps => describeStmt e ps
    else if descType = 'P' then match (← get).portals name with
      | none => describeCursor e name
      | some p => describePortal e name p
    else sendError "08P01" "invalid Describe type".toList

def streamRowsToClientExtended (formats : List Int) (described : Bool) (rows : RowSet) (cmdType : CommandType) :
    Handler Unit := do
  match rows.header with
  | .error err => sendPlainError err
  | .ok (cols, colTypes) =>
    sendWhen (!described && !cols.isEmpty) (.rowDescription (rowDescriptionFields cols colTypes formats))
    match ← sendRows formats (typeOIDs colTypes) rows.rows 0 with
    | .error err => sendPlainError err
    | .ok rowCount => match rows.finalErr with
      | some err => sendIterationError err
      | none => sendCommandComplete (buildCommandTagFromRowCount cmdType rowCount)

def executeMultiStatementExtended (statements cleanup : List Text) (args : List Value) (formats : List Int)
    (described : Bool) : Handler Unit :=
  multiStatement args (pure ()) (streamRowsToClientExtended formats described) statements cleanup

/-- The rows that are sent before `maxRows` stops the loop, and the calls of `Next` when it ends. -/
def limited (maxRows : Int) (rows : List (Except Text Row)) : List (Except Text Row) × Nat :=
  if 0 < maxRows ∧ maxRows < rows.length then (rows.take maxRows.toNat, maxRows.toNat + 1)
  else (rows, rows.length + 1)

def executeRows (rows : RowSet) (cmdType : CommandType) (maxRows : Int) (oids : List Oid) : Handler Unit := do
  let (toSend, nextCalls) := limited maxRows rows.rows
  match ← sendRows p.resultFormats oids toSend 0 with
  | .error err => sendPlainError err
  | .ok rowCount => match rows.err nextCalls with
    | some err => sendIterationError err
    | none =>
      updateTxStatus cmdType
      sendCommandComplete (buildCommandTagFromRowCount cmdType rowCount)

def executeSelect (args : List Value) (cmdType : CommandType) (maxRows : Int) : Handler Unit := do
  match ← recovered (query p.stmt.convertedQuery args) with
  | .error err => sendStatementError err
  | .ok rows => match rows.columns, rows.columnTypes with
    | .error err, _ => sendPlainError err
    | .ok cols, .error _ =>
      -- the types are indexed without having been read
      if !p.described && !cols.isEmpty then close
      else executeRows p rows cmdType maxRows (List.replicate cols.length 0)
    | .ok cols, .ok colTypes =>
      sendWhen (!p.described && !cols.isEmpty) (.rowDescription (rowDescriptionFields cols colTypes p.resultFormats))
      executeRows p rows cmdType maxRows (typeOIDs colTypes)

def executeStmt (args : List Value) (maxRows : Int) : Handler Unit := do
  let stmt := p.stmt
  let cmdType := getCommandType stmt.query.trimSpace.toUpper
  if stmt.isIgnoredSet then sendCommandComplete "SET".toList
  else if stmt.isNoOp then sendCommandComplete stmt.noOpTag
  else if !stmt.statements.isEmpty then
    executeMultiStatementExtended stmt.statements stmt.cleanupStatements args p.resultFormats p.described
  else if !queryReturnsResults stmt.query then
    let _ ← execStatement cmdType (runExec e stmt.convertedQuery args) (pure ())
  else executeSelect p args cmdType maxRows

def handleDeclareCursorExtended (name query : Text) : Handler Unit := do
  closeCursor name
  setCursor name ⟨query, none⟩
  sendCommandComplete "DECLARE CURSOR".toList

def handleFetchCursorExtended (name : Text) (howMany : Int) : Handler Unit := do
  match (← get).cursors name with
  | none => sendError "34000" (doesNotExist e "cursor " name)
  | some cursor => match ← openCursor name cursor with
    | .error err => sendIterationError err
    | .ok rows =>
      sendWhen (!p.described && !rows.columns.isEmpty)
        (.rowDescription (rowDescriptionFields rows.columns rows.columnTypes p.resultFormats))
      let _ ← fetchAll name cursor rows p.resultFormats howMany (pure ())

def handlePgCursorsQueryExtended (name : Text) : Handler Unit := do
  let name := if name.isEmpty then ((p.paramValues.headD none).map e.decodeText).getD name else name
  sendPgCursors name (!(← get).described p.stmt.ref) p.resultFormats

def executeOp : CursorOp → Handler Unit
  | .declare name query => handleDeclareCursorExtended name query
  | .fetch name howMany => handleFetchCursorExtended e p name howMany
  | .close name => do
    let _ ← closePortal e name (pure ())
  | .pgCursorsQuery name => handlePgCursorsQueryExtended e p name
  | .pgStatActivity => do sendPgStatActivity (!(← get).described p.stmt.ref && !p.described) p.resultFormats

def handleExecute : Option (Text × Int) → Handler Unit
  | none => sendError "08P01" "invalid Execute message".toList
  | some (portalName, maxRows) => do match (← get).portals portalName with
    | none => sendError "34000" (doesNotExist e "portal " portalName)
    | some p => match p.stmt.cursorOp with
      | some op => executeOp e p op
      | none =>
        if isEmptyQuery p.stmt.query.trimSpace then send .emptyQueryResponse
        else match decodeParams e p with
          | .error err => sendError "08P01" (malformed err)
          | .ok args => executeStmt e p args maxRows

def handleClose : Option (Char × Text) → Handler Unit
  | none => sendError "08P01" "invalid Close message".toList
  | some (closeType, name) => do
    modify fun c =>
      if closeType = 'S' then { c with stmts := Function.update c.stmts name none }
      else if closeType = 'P' then { c with portals := Function.update c.portals name none }
      else c
    send .closeComplete

end Duckgres.Conn
