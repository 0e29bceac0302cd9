import Duckgres.Transpile.Tree
import Duckgres.Base.Replace
import Duckgres.Execution.Inference
import Mathlib.Logic.Function.Basic

/-!
# Writable CTEs

`WritableCTETransform` (transpiler/transform/writablecte.go): a statement whose CTEs modify tables becomes several
statements around temporary tables. Go changes the tree in place; a function here returns the changed node where a
later one sees the change.
-/

namespace Duckgres.Transpile
open Base

abbrev TempNames := Text → Option Text

variable (pg : PgQuery)

def quoteIdentifier (name : Text) : Text := "\"".toList ++ replaceAll "\"".toList "\"\"".toList name ++ "\"".toList

def isUnqualified (rangeVar : Node) : Bool :=
  (textAt rangeVar .catalogname).isEmpty && (textAt rangeVar .schemaname).isEmpty

def rangeVarFields : Kind → List Field
  | .selectStmt => [.fromClause, .whereClause, .targetList, .groupClause, .havingClause, .sortClause, .limitCount,
      .limitOffset, .larg, .rarg]
  | .updateStmt => [.fromClause, .whereClause, .targetList]
  | .deleteStmt => [.whereClause, .usingClause]
  | .insertStmt => [.selectStmt]
  | .joinExpr => [.larg, .rarg, .quals]
  | .subLink => [.subselect]
  | .rangeSubselect => [.subquery]
  | .funcCall => [.args]
  | .aExpr => [.lexpr, .rexpr]
  | .boolExpr => [.args]
  | .resTarget => [.val]
  | .typeCast => [.arg]
  | .caseExpr => [.arg, .args, .defresult]
  | .caseWhen => [.expr, .result]
  | .coalesceExpr => [.args]
  | .nullTest => [.arg]
  | .sortBy => [.node]
  | _ => []

variable (names : TempNames)

def renameReference (n : Node) : Node := match n.kind? with
  | some .rangeVar =>
    if isUnqualified n then
      match names (textAt n .relname) with
      | some tempName => n.put .relname [ofText tempName]
      | none => n
    else n
  | some .columnRef => match n.all .fields with
    | first :: second :: fields =>
      if first.kind? = some .string then
        match names (textAt first .sval) with
        | some tempName => n.put .fields (first.put .sval [ofText tempName] :: second :: fields)
        | none => n
      else n
    | _ => n
  | _ => n

def rewriteRangeVars (n : Node) : Node := n.rewrite (fun kind f => f ∈ rangeVarFields kind) (renameReference names)

def buildTableRef (rv : Node) : Text :=
  let relname := textAt rv .relname
  let tableName :=
    if isUnqualified rv then quoteIdentifier ((names relname).getD relname)
    else if !(textAt rv .catalogname).isEmpty then
      quoteIdentifier (textAt rv .catalogname) ++ ".".toList ++ quoteIdentifier (textAt rv .schemaname) ++
        ".".toList ++ quoteIdentifier relname
    else quoteIdentifier (textAt rv .schemaname) ++ ".".toList ++ quoteIdentifier relname
  let aliasname := (rv.get .alias).elim [] fun a => textAt a .aliasname
  if aliasname.isEmpty then tableName else tableName ++ " AS ".toList ++ quoteIdentifier aliasname

def trimPrefix (s start : Text) : Text := if s.hasPrefix start then s.drop start.length else s

def selectOf (targets : List Node) : Node := .node .selectStmt (targets.map fun target => (.targetList, target))

def deparseExpression (n : Node) : Except Text Text := do
  let result ← pg.deparse [selectOf [.node .resTarget [(.val, n)]]]
  return trimPrefix result "SELECT ".toList

def isDml (n : Node) : Bool := n.kind? = some .updateStmt || n.kind? = some .insertStmt || n.kind? = some .deleteStmt

def deparseNode (n : Node) : Except Text (Text × Node) := do
  let rewritten := rewriteRangeVars names n
  let text ←
    if rewritten.kind? = some .selectStmt || isDml rewritten then pg.deparse [rewritten]
    else if rewritten.kind? = some .rangeVar then pure (buildTableRef names rewritten)
    else deparseExpression pg rewritten
  return (text, rewritten)

def deparseAndRewriteRefs (n : Node) : Except Text Text := pg.deparse [rewriteRangeVars names n]

def returningCols (returningList : List Node) : Text :=
  if returningList.isEmpty then "*".toList
  else ", ".toList.intercalate (returningList.map fun ret =>
    match pg.deparse [selectOf [ret]] with
    | .error _ => "*".toList
    | .ok colSQL => trimPrefix colSQL "SELECT ".toList)

/-- The SELECT for the rows that an UPDATE or a DELETE finds, where `tables` is the field with the tables besides its
own; and the statement with its references rewritten. -/
def dmlToSelect (tables : Field) (invalid : String) (names : TempNames) (stmt : Node) : Except Text (Text × Node) := do
  match stmt.get .relation with
  | none => throw invalid.toList
  | some relation =>
    let selectCols := returningCols pg (stmt.all .returningList)
    let others ← (stmt.all tables).mapM (deparseNode pg names)
    let condition ← (stmt.all .whereClause).head?.toList.mapM (deparseNode pg names)
    let whereSQL := condition.flatMap fun deparsed => " WHERE ".toList ++ deparsed.1
    let fromParts := buildTableRef names relation :: others.map Prod.fst
    return ("SELECT ".toList ++ selectCols ++ " FROM ".toList ++ ", ".toList.intercalate fromParts ++ whereSQL,
      (stmt.put tables (others.map Prod.snd)).put .whereClause (condition.map Prod.snd))

def updateToSelect : TempNames → Node → Except Text (Text × Node) :=
  dmlToSelect pg .fromClause "invalid UPDATE statement"

def deleteToSelect : TempNames → Node → Except Text (Text × Node) :=
  dmlToSelect pg .usingClause "invalid DELETE statement"

def insertToSelect (ins : Node) : Except Text (Text × Node) := do
  match ins.get .selectStmt with
  | some source =>
    let (selectSQL, rewritten) ← deparseNode pg names source
    return (selectSQL, ins.put .selectStmt [rewritten])
  | none => return ("SELECT * FROM (SELECT 1) AS _empty WHERE false".toList, ins)

def generateReturningSelect (query : Node) : Except Text (Text × Node) :=
  match query.kind? with
  | some .updateStmt => updateToSelect pg names query
  | some .deleteStmt => deleteToSelect pg names query
  | some .insertStmt => insertToSelect pg names query
  | _ => throw "unexpected CTE query type".toList

/-- What precedes the last place where the capital letters of the text have `part`. -/
def beforeLast (part : Text) : Text → Option Text
  | [] => none
  | c :: s => match beforeLast part s with
    | some before => some (c :: before)
    | none => if Text.hasPrefix (Text.toUpper (c :: s)) part then some [] else none

def stripReturningClause (sql : Text) : Text := (beforeLast " RETURNING ".toList sql).getD sql

def slice (text : Flight.Bytes) (n : Nat) : Option Flight.Bytes := if n ≤ text.length then some (text.take n) else none

/-- The index of Go counts the bytes of the text in capitals, of which a letter has `capitalSize`; a slice beyond the
end of `sql` panics. -/
def stripReturningBytes (capitalSize : Char → Nat) (sql : Text) : Option Flight.Bytes :=
  match beforeLast " RETURNING ".toList sql with
  | none => some (Execution.utf8 sql)
  | some before => slice (Execution.utf8 sql) (before.map capitalSize).sum

structure CteInfo where
  name : Text
  query : Node
  isWrite : Bool

def maxIdentifierLength : Nat := 63

/-- `suffix` is the random number that makes the name unique, with eight digits. -/
def generateTempTableName (cteName suffix : Text) : Text :=
  let safe := cteName.map fun c => if c.isLower || c.isDigit || c = '_' then c else if c.isUpper then c.toLower else '_'
  let start := "_cte_".toList
  start ++ safe.take (maxIdentifierLength - start.length - suffix.length - 1) ++ "_".toList ++ suffix

structure Rewrite where
  statements : List Text
  cleanup : List Text

def createTemp (tempName select : Text) : Text :=
  "CREATE TEMP TABLE ".toList ++ quoteIdentifier tempName ++ " AS (".toList ++ select ++ ")".toList

def rewriteCte (tempName : Text) (cte : CteInfo) : Except Text (List Text) := do
  if cte.isWrite then
    let (returningSelect, query) ← generateReturningSelect pg names cte.query
    let dmlSQL ← deparseAndRewriteRefs pg names query
    return [createTemp tempName returningSelect, stripReturningClause dmlSQL]
  else match deparseAndRewriteRefs pg names cte.query with
    | .error err => throw ("failed to deparse CTE ".toList ++ cte.name ++ ": ".toList ++ err)
    | .ok cteSQL => return [createTemp tempName cteSQL]

def rewriteCtes : List CteInfo → List Text → TempNames → Except Text (List Text × TempNames)
  | [], _, names => return ([], names)
  | cte :: ctes, suffixes, names => do
    let tempName := generateTempTableName cte.name (suffixes.headD [])
    let names := Function.update names cte.name (some tempName)
    let statements ← rewriteCte pg names tempName cte
    let (rest, names) ← rewriteCtes ctes suffixes.tail names
    return (statements ++ rest, names)

def deparseFinalStatement (stmt : Node) : Except Text Text :=
  pg.deparse [if stmt.kind? = some .selectStmt || isDml stmt then rewriteRangeVars names (stmt.put .withClause [])
    else stmt]

def dropTemp (cte : CteInfo) : Text := "DROP TABLE IF EXISTS ".toList ++ quoteIdentifier ((names cte.name).getD [])

def rewriteWritableCTE (suffixes : List Text) (stmt : Node) (ctes : List CteInfo) : Except Text Rewrite := do
  let (statements, names) ← rewriteCtes pg ctes suffixes fun _ => none
  let finalSQL ← deparseFinalStatement pg names stmt
  return ⟨"BEGIN".toList :: statements ++ [finalSQL], ctes.reverse.map (dropTemp names) ++ ["COMMIT".toList]⟩

end Duckgres.Transpile
