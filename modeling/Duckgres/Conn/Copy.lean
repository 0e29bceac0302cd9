import Duckgres.Base.BigEndian
import Duckgres.Conn.Statements

/-!
# COPY

COPY TO STDOUT and COPY FROM STDIN in the simple protocol (server/conn.go).
-/

namespace Duckgres.Conn
open Base Execution

variable (e : Setting)

def stripPublicSchema (tableName : Text) : Text :=
  if hasAt tableName 0 "\"public\"." then tableName.drop 9
  else if hasAt tableName.toLower 0 "public." then tableName.drop 7
  else tableName

structure CopyFromOptions where
  tableName : Text
  columnList : Text
  delimiter : Text
  hasHeader : Bool
  nullString : Text
  quote : Text
  escape : Text
  isBinary : Bool

def copyDelimiter (query : Text) : Text :=
  (e.copy.delimiter query).getD (if e.copy.csv query.toUpper then ",".toList else "\t".toList)

def hasCopyHeader (query : Text) : Bool := e.copy.csv query.toUpper && e.copy.header query.toUpper

def parseCopyFromOptions (query : Text) : Option CopyFromOptions := do
  let (table, columns) ← e.copy.fromStdin query
  let columnList := if columns.isEmpty then [] else "(".toList ++ columns ++ ")".toList
  if e.copy.binary query.toUpper then
    return ⟨stripPublicSchema table, columnList, "\t".toList, false, "\\N".toList, [], [], true⟩
  else
    return ⟨stripPublicSchema table, columnList, copyDelimiter e query, hasCopyHeader e query,
      (e.copy.null query).getD "\\N".toList,
      (e.copy.quote query).getD (if e.copy.csv query.toUpper then "\"".toList else []),
      (e.copy.escape query).getD [], false⟩

def join (separator : String) (parts : List Text) : Text := List.intercalate separator.toList parts

def inQuotes (option : String) (s : Text) : Text := option.toList ++ " '".toList ++ s ++ "'".toList

variable (opts : CopyFromOptions)

def buildDuckDBCopyFromSQL (filePath : Text) : Text :=
  let fixed := ["FORMAT CSV", "AUTO_DETECT FALSE", "STRICT_MODE FALSE", "PARALLEL FALSE", "MAX_LINE_SIZE 10485760"]
  let quoting := if !opts.quote.isEmpty
    then [inQuotes "QUOTE" opts.quote, inQuotes "ESCAPE" (if opts.escape.isEmpty then opts.quote else opts.escape)]
    else if !opts.escape.isEmpty then [inQuotes "ESCAPE" opts.escape] else []
  let copyOptions := fixed.map String.toList ++ (if opts.hasHeader then ["HEADER".toList] else []) ++
    [inQuotes "NULL" opts.nullString, inQuotes "DELIMITER" opts.delimiter] ++ quoting
  "COPY ".toList ++ opts.tableName ++ " ".toList ++ opts.columnList ++ " FROM '".toList ++ filePath ++ "' (".toList ++
    join ", " copyOptions ++ ")".toList

def copyTag (rowCount : Int) : Text := "COPY ".toList ++ decimal rowCount

def sendCopyLines (oids : List Oid) (delimiter : Text) : List (Except Text Row) → Nat → Handler (Nat × Nat)
  | [], rowCount => pure (rowCount, rowCount + 1)
  | .error err :: _, rowCount => do
    sendError "42000" err
    pure (rowCount, rowCount + 1)
  | .ok values :: rows, rowCount => do
    send (.copyData (e.copyLine values oids delimiter))
    sendCopyLines oids delimiter rows (rowCount + 1)

def copyHeader (cols : List Text) (delimiter : Text) : Bytes :=
  e.encodeText (List.intercalate delimiter cols ++ "\n".toList)

def sendTextRows (query : Text) (rows : RowSet) (cols colTypes : List Text) : Handler Unit := do
  send (.copyOutResponse cols.length true)
  sendWhen (hasCopyHeader e query) (.copyData (copyHeader e cols (copyDelimiter e query)))
  let (rowCount, nextCalls) ← sendCopyLines e (typeOIDs colTypes) (copyDelimiter e query) rows.rows 0
  match rows.err nextCalls with
  | some err =>
    sendPlainError err
    readyForQuery
  | none =>
    send .copyDone
    sendCommandComplete (copyTag rowCount)
    readyForQuery

def binaryHeader : Bytes := [0x50, 0x47, 0x43, 0x4F, 0x50, 0x59, 0x0A, 0xFF, 0x0D, 0x0A, 0, 0, 0, 0, 0, 0, 0, 0, 0]

def binaryTrailer : Bytes := [0xFF, 0xFF]

def withHeader (isFirst : Bool) (data : Bytes) : Bytes := if isFirst then binaryHeader ++ data else data

def sendCopyTuples (oids : List Oid) : List (Except Text Row) → Nat → Handler (Except Text Nat)
  | [], rowCount => pure (.ok rowCount)
  | .error err :: _, _ => pure (.error err)
  | .ok values :: rows, rowCount => do
    send (.copyData (withHeader (rowCount = 0) (e.copyTuple values oids)))
    sendCopyTuples oids rows (rowCount + 1)

def handleCopyOutBinary (rows : RowSet) (cols : List Text) : Handler Unit := do
  match rows.columnTypes with
  | .error err =>
    sendPlainError err
    readyForQuery
  | .ok colTypes =>
    send (.copyOutResponse cols.length false)
    match ← sendCopyTuples e (typeOIDs colTypes) rows.rows 0 with
    | .error err =>
      sendPlainError err
      readyForQuery
    | .ok rowCount => match rows.finalErr with
      | some err =>
        sendPlainError err
        readyForQuery
      | none =>
        send (.copyData (withHeader (rowCount = 0) binaryTrailer))
        send .copyDone
        sendCommandComplete (copyTag rowCount)
        readyForQuery

def copySelect (source : Text) : Text :=
  let selectQuery := if hasAt source 0 "(" && source.getLast? = some ')' then source.tail.dropLast
    else "SELECT * FROM ".toList ++ source
  if e.passthrough then selectQuery
  else match e.transpile false selectQuery with
    | .ok result => if result.fallbackToNative then selectQuery else result.sql
    | .error _ => selectQuery

def handleCopyOut (text : Text) : Handler Unit := do
  match e.copy.toStdout text with
  | none =>
    sendError "42601" "Invalid COPY TO STDOUT syntax".toList
    setTxError
    readyForQuery
  | some source => match ← query (copySelect e source.trimSpace) [] with
    | .error err =>
      sendPlainError err
      readyForQuery
    | .ok rows => match rows.columns with
      | .error err =>
        sendPlainError err
        readyForQuery
      | .ok cols =>
        if e.copy.binary text then handleCopyOutBinary e rows cols
        else match rows.columnTypes with
          | .error err =>
            sendPlainError err
            readyForQuery
          | .ok colTypes => sendTextRows e text rows cols colTypes

/-! ## COPY FROM STDIN -/

inductive CopyEnd where
  | done
  | fail (message : Text)
  | unexpected (msgType : Char)
  | lost

def isEndMarker (data : Bytes) : Bool := data = [0x5C, 0x2E, 0x0A] || data = [0x5C, 0x2E]

def readCopy (skipsMarker : Bool) : List Frontend → List Bytes × CopyEnd × List Frontend
  | .copyData data :: input =>
    let (chunks, ending, input) := readCopy skipsMarker input
    (if skipsMarker && isEndMarker data then chunks else data :: chunks, ending, input)
  | .copyDone :: input => ([], .done, input)
  | .copyFail message :: input => ([], .fail message, input)
  | m :: input => ([], .unexpected m.msgType, input)
  | [] => ([], .lost, [])

def setInput (input : List Frontend) : Handler Unit := modify fun c => { c with input := input }

def failCopy (code : String) (message : Text) : Handler Unit := do
  sendError code message
  setTxError
  readyForQuery

def copyFailed (err : Text) : Text := "COPY failed: ".toList ++ err

def unexpectedMessage (msgType : Char) : Text := "unexpected message type during COPY: ".toList ++ [msgType]

def endCopy (ending : CopyEnd) (load : Handler Unit) : Handler Unit :=
  match ending with
  | .done => load
  | .fail message => failCopy "57014" (copyFailed message)
  | .unexpected msgType => failCopy "08P01" (unexpectedMessage msgType)
  | .lost => close

def finishCopy (result : Except Text Int) : Handler Unit :=
  match result with
  | .error err => failCopy "22P02" (copyFailed err)
  | .ok rowCount => do
    sendCommandComplete (copyTag rowCount)
    readyForQuery

def receiveFile : List Frontend → Handler (Except Text CopyEnd)
  | .copyData data :: input => do
    setInput input
    if isEndMarker data then receiveFile input
    else match (← perform (.writeTemp data) : Except Text Unit) with
      | .error err => pure (.error err)
      | .ok _ => receiveFile input
  | .copyDone :: input => do
    setInput input
    pure (.ok .done)
  | .copyFail message :: input => do
    setInput input
    pure (.ok (.fail message))
  | m :: input => do
    setInput input
    pure (.ok (.unexpected m.msgType))
  | [] => pure (.ok .lost)

def copyInFile : Handler Unit := do
  match (← perform .createTemp : Except Text Text) with
  | .error err => failCopy "58000" ("failed to create temp file: ".toList ++ err)
  | .ok tmpPath => match ← receiveFile (← get).input with
    | .error err => failCopy "58000" ("failed to write to temp file: ".toList ++ err)
    | .ok ending => endCopy ending do finishCopy (← exec (buildDuckDBCopyFromSQL opts tmpPath) [])

def streamed (stopsAfter : Option Nat) (input : List Frontend) : CopyEnd × List Frontend :=
  match stopsAfter with
  | none => (readCopy true input).2
  | some n =>
    if (input.take n).all fun m => m matches .copyData _ then (.done, input.drop n) else (readCopy true input).2

structure WireReader where
  pending : Bytes
  -- how the data has ended, once `done` is set
  ended : Option CopyEnd
  input : List Frontend

def WireReader.fill : List Frontend → WireReader
  | .copyData data :: input => if isEndMarker data || data.isEmpty then fill input else ⟨data, none, input⟩
  | .copyDone :: input => ⟨[], some .done, input⟩
  | .copyFail message :: input => ⟨[], some (.fail message), input⟩
  | m :: input => ⟨[], some (.unexpected m.msgType), input⟩
  | [] => ⟨[], some .lost, []⟩

def WireReader.read (n : Nat) (r : WireReader) : WireReader × Except CopyEnd Bytes :=
  let r := if r.pending.isEmpty && r.ended.isNone then fill r.input else r
  match r.pending, r.ended with
  | [], some .lost => ({ r with ended := some .done }, .error .lost)
  | [], some ending => (r, .error ending)
  | pending, _ => ({ r with pending := pending.drop n }, .ok (pending.take n))

def copyFromStdinPathPlaceholder : Text := "__DUCKGRES_COPY_PATH__".toList

def handleCopyInRemoteStreaming : Handler Unit := do
  let answer : Streamed ← perform (.copyFromStdin (buildDuckDBCopyFromSQL opts copyFromStdinPathPlaceholder))
  let (ending, input) := streamed answer.stopsAfter (← get).input
  setInput input
  match ending with
  | .fail message => failCopy "57014" (copyFailed message)
  | .unexpected msgType => failCopy "08P01" (unexpectedMessage msgType)
  | .done | .lost => finishCopy answer.result

def insertColumns (columnList : Text) (cols : List Text) : Text :=
  if columnList.isEmpty then
    "(".toList ++ join ", " (cols.map fun col => "\"".toList ++ col ++ "\"".toList) ++ ")".toList
  else columnList

def placeholders (first count : Nat) : Text :=
  "(".toList ++ join ", " ((List.range count).map fun i => '$' :: decimal (first + i)) ++ ")".toList

def insertSQL (tableName colNames : Text) (batch : List Row) (numCols : Nat) : Text :=
  "INSERT INTO ".toList ++ tableName ++ " ".toList ++ colNames ++ " VALUES ".toList ++
    join ", " ((List.range batch.length).map fun i => placeholders (i * numCols + 1) numCols)

def batchSize : Nat := 1000

def insertBatches (tableName colNames : Text) (numCols : Nat) : Nat → Nat → List Row → Handler (Except Text Int)
  | 0, start, _ => pure (.ok start)
  | n + 1, start, rows =>
    if rows.isEmpty then pure (.ok start)
    else do
      let batch := rows.take batchSize
      match ← exec (insertSQL tableName colNames batch numCols) batch.flatten with
      | .error err => pure (.error ("batch INSERT failed at rows ".toList ++ decimal (start + 1) ++ "-".toList ++
          decimal (start + batch.length) ++ ": ".toList ++ err))
      | .ok _ => insertBatches tableName colNames numCols n (start + batch.length) (rows.drop batchSize)

def batchInsertRows (tableName columnList : Text) (cols : List Text) (rows : List Row) : Handler (Except Text Int) :=
  insertBatches tableName (insertColumns columnList cols) cols.length rows.length 0 rows

def csvValue (colType field : Text) : Value :=
  if field = opts.nullString then .null
  else if colType = "BLOB".toList then .bytes (e.encodeText field)
  else .string field

def recordsUntilError : List (Except Text (List Text)) → List (List Text)
  | .ok record :: reads => record :: recordsUntilError reads
  -- the end of the data and an error both end the loop by `break`
  | _ => []

def readRecords : Bool → List (Except Text (List Text)) → Except Text (List (List Text))
  | false, reads => .ok (recordsUntilError reads)
  | true, .ok _ :: reads => .ok (recordsUntilError reads)
  | true, .error err :: _ => .error err
  | true, [] => .error "EOF".toList

def loadCSV (cols colTypes : List Text) (data : Bytes) : Handler Unit := do
  match readRecords opts.hasHeader (e.csvReads opts.delimiter data) with
  | .error err => failCopy "22P02" ("COPY failed: error reading CSV header: ".toList ++ err)
  | .ok records =>
    let rows := (records.filter fun record => record.length = cols.length).map fun record =>
      List.zipWith (csvValue e opts) colTypes record
    if rows.isEmpty then
      sendCommandComplete (copyTag 0)
      readyForQuery
    else finishCopy (← batchInsertRows opts.tableName opts.columnList cols rows)

def handleCopyInCSVWithBlob (cols colTypes : List Text) : Handler Unit := do
  send (.copyInResponse cols.length true)
  let (chunks, ending, input) := readCopy true (← get).input
  setInput input
  endCopy ending (loadCSV e opts cols colTypes chunks.flatten)

/-- The same decoders as for a parameter, except that the length of an integer or a float decides its width. -/
def decodeBinaryCopy (data : Bytes) (oid : Oid) : Except Text Value :=
  if data.isEmpty then
    .ok (if oid ∈ [Oid.text, .varchar, .bpchar, .name, .json, .jsonb] then .string []
      else if oid = .bytea then .bytes [] else .null)
  else if oid ∈ [Oid.int2, .int4, .int8, .oid] then match data.length with
    | 2 => e.decodeBinary data .int2
    | 4 => e.decodeBinary data .int4
    | 8 => e.decodeBinary data .int8
    | _ => .ok (.string (e.decodeText data))
  else if oid = .float4 then e.decodeBinary data (if data.length = 8 then .float8 else .float4)
  else if oid = .float8 then e.decodeBinary data (if data.length = 4 then .float4 else .float8)
  else e.decodeBinary data oid

/-- The error of a parser, or `none` for a panic. -/
abbrev CopyParser := ExceptT Text Option

def atField (err : String) (i : Nat) (rest : String) : Text := err.toList ++ decimal i ++ rest.toList

def copyField (typeOIDs : List Oid) (i : Nat) (data : Bytes) : CopyParser (Value × Bytes) :=
  match readInt 4 data with
  | none => throw (atField "truncated binary COPY data at field " i " length")
  | some (fieldLen, data) =>
    if fieldLen = -1 then pure (.null, data)
    else if data.length < fieldLen then throw (atField "truncated binary COPY data at field " i " data")
    -- the bounds of the slice, or of `typeOIDs`
    else if fieldLen < 0 then .mk none
    else match typeOIDs[i]? with
      | none => .mk none
      | some oid => match decodeBinaryCopy e (data.take fieldLen.toNat) oid with
        | .error err => throw (atField "failed to decode field " i " (OID " ++ decimal oid ++ ", ".toList ++
            decimal fieldLen ++ " bytes): ".toList ++ err)
        | .ok decoded => pure (decoded, data.drop fieldLen.toNat)

def copyFields (typeOIDs : List Oid) : Nat → Nat → Bytes → CopyParser (Row × Bytes)
  | 0, _, data => pure ([], data)
  | n + 1, i, data => do
    let (value, data) ← copyField e typeOIDs i data
    let (values, data) ← copyFields typeOIDs n (i + 1) data
    pure (value :: values, data)

def copyTuples (numCols : Nat) (typeOIDs : List Oid) : Nat → Bytes → CopyParser (List Row)
  -- a tuple takes two bytes or more, so that a bound by the length of the data is never reached
  | 0, _ => pure []
  | n + 1, data =>
    if data.isEmpty then pure []
    else match readInt 2 data with
      | none => throw "truncated binary COPY data at tuple header".toList
      | some (fieldCount, data) =>
        if fieldCount = -1 then pure []
        else if fieldCount ≠ numCols then
          throw ("binary COPY field count mismatch: got ".toList ++ decimal fieldCount ++
            ", expected ".toList ++ decimal numCols)
        else do
          let (values, data) ← copyFields e typeOIDs numCols 0 data
          let rows ← copyTuples numCols typeOIDs n data
          pure (values :: rows)

def expectedSig : Bytes := [0x50, 0x47, 0x43, 0x4F, 0x50, 0x59, 0x0A, 0xFF, 0x0D, 0x0A, 0x00]

/-- The first half of `parseBinaryCopyAndInsert`; the second is `insertBinary`. -/
def parseBinaryCopy (numCols : Nat) (typeOIDs : List Oid) (data : Bytes) : CopyParser (List Row) :=
  if data.length < 19 then throw "binary COPY data too short for header".toList
  else if data.take 11 ≠ expectedSig then throw "invalid binary COPY signature".toList
  else
    let extLen := ofBigEndian ((data.drop 15).take 4)
    copyTuples e numCols typeOIDs data.length (data.drop (19 + extLen))

def insertBinary (cols : List Text) (rows : List Row) : Handler (Except Text Int) := do
  if rows.isEmpty then pure (.ok 0)
  else if opts.columnList.isEmpty then
    match Answered.result (← perform (.appender opts.tableName rows) : Answered Int) with
    | .ok count => pure (.ok count)
    | .error _ => batchInsertRows opts.tableName opts.columnList cols rows
  else batchInsertRows opts.tableName opts.columnList cols rows

def loadBinary (cols colTypes : List Text) (data : Bytes) : Handler Unit := do
  match parseBinaryCopy e cols.length (typeOIDs colTypes) data with
  | none => close
  | some (.error err) => failCopy "22P02" (copyFailed err)
  | some (.ok rows) => finishCopy (← insertBinary opts cols rows)

def handleCopyInBinary (cols colTypes : List Text) : Handler Unit := do
  send (.copyInResponse cols.length false)
  let (chunks, ending, input) := readCopy false (← get).input
  setInput input
  endCopy ending (loadBinary e opts cols colTypes chunks.flatten)

def copyColumnsQuery : Text :=
  "SELECT ".toList ++ (if opts.columnList.isEmpty then "*".toList else opts.columnList.tail.dropLast) ++
    " FROM ".toList ++ opts.tableName ++ " LIMIT 0".toList

def handleCopyIn (text : Text) : Handler Unit := do
  match parseCopyFromOptions e text with
  | none => failCopy "42601" "Invalid COPY FROM STDIN syntax".toList
  | some opts => match ← query (copyColumnsQuery opts) [] with
    | .error _ => failCopy "42P01" ("relation \"".toList ++ opts.tableName ++ "\" does not exist".toList)
    | .ok rows =>
      let cols := rows.columns.toOption.getD []
      let colTypes := rows.columnTypes.toOption.getD []
      if opts.isBinary then handleCopyInBinary e opts cols colTypes
      else if colTypes.any fun colType => colType = "BLOB".toList then handleCopyInCSVWithBlob e opts cols colTypes
      else
        send (.copyInResponse cols.length true)
        if e.streamsCopy then handleCopyInRemoteStreaming opts else copyInFile opts

def copyFile (text : Text) : Handler Unit := do
  match ← exec text [] with
  | .error err =>
    sendPlainError err
    readyForQuery
  | .ok rowsAffected =>
    sendCommandComplete (copyTag rowsAffected)
    readyForQuery

def handleCopy (text : Text) : Handler Unit :=
  if (e.copy.toStdout text.toUpper).isSome then handleCopyOut e text
  else if (e.copy.fromStdin text.toUpper).isSome then handleCopyIn e text
  else copyFile text

end Duckgres.Conn
