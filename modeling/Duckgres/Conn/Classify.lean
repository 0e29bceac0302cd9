import Duckgres.Execution.Inference

/-!
# Statement texts

How the connection reads a statement's kind off its text (server/conn.go). A text is scanned by
positions, as the source scans it; a loop runs at most once for each position.
-/

namespace Duckgres.Conn
open Base Execution

def isWSChar (c : Char) : Bool := c = ' ' || c = '\n' || c = '\t' || c = '\r'

def hasAt (s : Text) (i : Nat) (part : String) : Bool := Text.hasPrefix (s.drop i) part.toList

def isAt (s : Text) (i : Nat) (test : Char → Bool) : Bool := (s[i]?).any test

def endsAt (s : Text) (i : Nat) (test : Char → Bool) : Bool := (s[i]?).all test

def isBreak (c : Char) : Bool := isWSChar c || c = '/' || c = '-'

variable (upper : Text)

def startsWith : Bool := hasAt upper 0 "WITH" && endsAt upper 4 isBreak

/-! ## What a scanner skips -/

def skipLiteral (s : Text) (estring : Bool) : Nat → Nat → Nat
  | 0, i => i
  | n + 1, i => match s[i]? with
    | none => i
    | some '\'' => if isAt s (i + 1) (· = '\'') then skipLiteral s estring n (i + 2) else i + 1
    | some c =>
      if estring && c = '\\' then skipLiteral s estring n (if i + 1 < s.length then i + 2 else i + 1)
      else skipLiteral s estring n (i + 1)

def skipIdentifier (s : Text) : Nat → Nat → Nat
  | 0, i => i
  | n + 1, i => match s[i]? with
    | none => i
    | some '"' => if isAt s (i + 1) (· = '"') then skipIdentifier s n (i + 2) else i + 1
    | some _ => skipIdentifier s n (i + 1)

def dollarTag (s : Text) (i : Nat) : Nat → Nat → Option Text
  | 0, _ => none
  | n + 1, j => match s[j]? with
    | none => none
    | some '$' => some ((s.drop i).take (j + 1 - i))
    | some c => if 'A' ≤ c && c ≤ 'Z' || '0' ≤ c && c ≤ '9' || c = '_' then dollarTag s i n (j + 1) else none

def parseDollarTag (s : Text) (i : Nat) : Option Text :=
  if isAt s i (· = '$') then dollarTag s i s.length (i + 1) else none

def skipDollarQuoted (s tag : Text) : Nat → Nat → Nat
  | 0, i => i
  | n + 1, i =>
    if Text.size (s.drop i) < tag.length then i
    else if Text.hasPrefix (s.drop i) tag then i + tag.length
    else skipDollarQuoted s tag n (i + 1)

def skipLineComment (s : Text) : Nat → Nat → Nat
  | 0, i => i
  | n + 1, i => if isAt s i (· ≠ '\n') then skipLineComment s n (i + 1) else i

def skipBlockComment (s : Text) : Nat → Nat → Nat
  | 0, i => i
  | n + 1, i =>
    if s.length ≤ i + 1 then i
    else if hasAt s i "*/" then i + 2
    else skipBlockComment s n (i + 1)

def skipItem (s : Text) (i : Nat) (c : Char) : Nat :=
  match c with
  | '\'' => skipLiteral s (0 < i && isAt s (i - 1) (· = 'E')) s.length (i + 1)
  | '"' => skipIdentifier s s.length (i + 1)
  | '$' => match parseDollarTag s i with
    | some tag => skipDollarQuoted s tag s.length (i + tag.length)
    | none => i + 1
  | '-' => if hasAt s i "--" then skipLineComment s s.length (i + 2) else i + 1
  | '/' => if hasAt s i "/*" then skipBlockComment s s.length (i + 2) else i + 1
  | _ => i + 1

def isReturningTrailer (c : Char) : Bool :=
  isWSChar c || c = ';' || c = '*' || c = '(' || c = ',' || c = '"' || c = '-' || c = '/' || c = '$'

def returningAt (i : Nat) : Bool :=
  hasAt upper i "RETURNING" && 0 < i && isAt upper (i - 1) isWSChar && endsAt upper (i + 9) isReturningTrailer

def scanForReturning (upper : Text) (topLevelOnly : Bool) : Nat → Nat → Nat → Bool
  | 0, _, _ => false
  | n + 1, depth, i => match upper[i]? with
    | none => false
    | some '(' => scanForReturning upper topLevelOnly n (depth + 1) (i + 1)
    | some ')' => scanForReturning upper topLevelOnly n (depth - 1) (i + 1)
    | some c =>
      if (!topLevelOnly || depth = 0) && returningAt upper i then true
      else scanForReturning upper topLevelOnly n depth (skipItem upper i c)

def containsReturning : Bool := scanForReturning upper true upper.length 0 0

def containsReturningAnyDepth : Bool := scanForReturning upper false upper.length 0 0

def skipParens (upper : Text) : Nat → Nat → Nat → Nat
  | _, 0, i => i
  | 0, _, i => i
  | n + 1, depth + 1, i => match upper[i]? with
    | none => i
    | some '(' => skipParens upper n (depth + 2) (i + 1)
    | some ')' => skipParens upper n depth (i + 1)
    | some c => skipParens upper n (depth + 1) (skipItem upper i c)

def skipBalancedParens (i : Nat) : Nat := skipParens upper (upper.length + 1) 1 i

def skipBlanks (upper : Text) : Nat → Nat → Nat
  | 0, i => i
  | n + 1, i =>
    if isAt upper i isWSChar then skipBlanks upper n (i + 1)
    else if hasAt upper i "--" then skipBlanks upper n (skipLineComment upper upper.length (i + 2))
    else if hasAt upper i "/*" then skipBlanks upper n (skipBlockComment upper upper.length (i + 2))
    else i

def skipWhitespaceAndComments (i : Nat) : Nat := skipBlanks upper (upper.length + 1) i

def skipName (upper : Text) : Nat → Nat → Nat
  | 0, i => i
  | n + 1, i => if isAt upper i fun c => !(isBreak c || c = '(') then skipName upper n (i + 1) else i

def skipColumnList (i : Nat) : Nat :=
  if isAt upper i (· = '(') then
    let behind := skipWhitespaceAndComments upper (skipBalancedParens upper (i + 1))
    if hasAt upper behind "AS" && endsAt upper (behind + 2) fun c => isWSChar c || c = '(' then behind else i
  else i

def skipDefinition (i : Nat) : Nat :=
  let i := if isAt upper i (· = '"') then skipIdentifier upper upper.length (i + 1) else skipName upper upper.length i
  let i := skipColumnList upper (skipWhitespaceAndComments upper i)
  let i := if hasAt upper i "AS" && endsAt upper (i + 2) fun c => isBreak c || c = '('
    then skipWhitespaceAndComments upper (i + 2) else i
  let i := if isAt upper i (· = '(') then skipBalancedParens upper (i + 1) else i
  skipWhitespaceAndComments upper i

def skipDefinitions (upper : Text) : Nat → Nat → Nat
  | 0, i => i
  | n + 1, i =>
    if upper.length ≤ i then i
    else
      let i := skipDefinition upper i
      if isAt upper i (· = ',') then skipDefinitions upper n (skipWhitespaceAndComments upper (i + 1)) else i

def outerStatementOfCTE : Text :=
  if !startsWith upper then []
  else
    let i := skipWhitespaceAndComments upper 4
    let i := if hasAt upper i "RECURSIVE" && endsAt upper (i + 9) isBreak
      then skipWhitespaceAndComments upper (i + 9) else i
    upper.drop (skipDefinitions upper upper.length i)

/-! ## Kinds of statements -/

def stripNoise : Nat → Text → Text
  | 0, query => query
  | n + 1, query =>
    let next := (stripLeadingComments query).dropWhile fun c => c = '(' || isWSChar c
    if next = query then query else stripNoise n next

variable (query : Text)

def stripLeadingNoise : Text := stripNoise (query.length + 1) query

def rowKeywords : List String :=
  ["SELECT", "VALUES", "SHOW", "TABLE", "EXECUTE", "EXPLAIN", "DESCRIBE", "SUMMARIZE", "FROM"]

def isDML : Bool := hasAt upper 0 "INSERT" || hasAt upper 0 "UPDATE" || hasAt upper 0 "DELETE"

def queryReturnsResults : Bool :=
  let upper := (stripLeadingNoise query).toUpper
  rowKeywords.any (hasAt upper 0) || startsWith upper || isDML upper && containsReturning upper

def isDMLReturning : Bool :=
  let upper := (stripLeadingNoise query).toUpper
  if isDML upper then containsReturning upper else startsWith upper && containsReturningAnyDepth upper

def isWithDML : Bool := isDML (outerStatementOfCTE (stripLeadingNoise query).toUpper)

inductive CommandType where
  | select | insert | update | delete
  | createTable | createIndex | createView | createSchema | create
  | dropTable | dropIndex | dropView | dropSchema | drop
  | alterTableAddConstraint | alterTable | truncateTable
  | begin | commit | rollback | set | copy
  deriving DecidableEq

def CommandType.tag : CommandType → Text
  | .select => "SELECT".toList
  | .insert => "INSERT".toList
  | .update => "UPDATE".toList
  | .delete => "DELETE".toList
  | .createTable => "CREATE TABLE".toList
  | .createIndex => "CREATE INDEX".toList
  | .createView => "CREATE VIEW".toList
  | .createSchema => "CREATE SCHEMA".toList
  | .create => "CREATE".toList
  | .dropTable => "DROP TABLE".toList
  | .dropIndex => "DROP INDEX".toList
  | .dropView => "DROP VIEW".toList
  | .dropSchema => "DROP SCHEMA".toList
  | .drop => "DROP".toList
  | .alterTableAddConstraint => "ALTER TABLE ADD CONSTRAINT".toList
  | .alterTable => "ALTER TABLE".toList
  | .truncateTable => "TRUNCATE TABLE".toList
  | .begin => "BEGIN".toList
  | .commit => "COMMIT".toList
  | .rollback => "ROLLBACK".toList
  | .set => "SET".toList
  | .copy => "COPY".toList

def commandPrefixes : List (String × CommandType) :=
  [("SELECT", .select), ("INSERT", .insert), ("UPDATE", .update), ("DELETE", .delete),
    ("CREATE TABLE", .createTable), ("CREATE TEMPORARY TABLE", .createTable), ("CREATE TEMP TABLE", .createTable),
    ("CREATE UNLOGGED TABLE", .createTable), ("CREATE INDEX", .createIndex), ("CREATE UNIQUE INDEX", .createIndex),
    ("CREATE VIEW", .createView), ("CREATE OR REPLACE VIEW", .createView), ("CREATE SCHEMA", .createSchema),
    ("CREATE", .create), ("DROP TABLE", .dropTable), ("DROP INDEX", .dropIndex), ("DROP VIEW", .dropView),
    ("DROP SCHEMA", .dropSchema), ("DROP", .drop)]

def constraintParts : List String := ["ADD CONSTRAINT", "ADD PRIMARY KEY", "ADD UNIQUE", "ADD FOREIGN KEY", "ADD CHECK"]

def laterPrefixes : List (String × CommandType) :=
  [("ALTER", .alterTable), ("TRUNCATE", .truncateTable), ("BEGIN", .begin), ("COMMIT", .commit),
    ("ROLLBACK", .rollback), ("SET", .set), ("COPY", .copy)]

def byPrefix (prefixes : List (String × CommandType)) : Option CommandType :=
  (prefixes.find? fun entry => hasAt upper 0 entry.1).map Prod.snd

def commandTypeOf : CommandType :=
  match byPrefix upper commandPrefixes with
  | some cmdType => cmdType
  | none =>
    if constraintParts.any fun part => upper.contains part.toList then .alterTableAddConstraint
    else (byPrefix upper laterPrefixes).getD .select

def commandTypeWithin : Nat → Text → CommandType
  | 0, upper => commandTypeOf upper
  | n + 1, upper =>
    let upper := stripLeadingComments upper
    if startsWith upper && !(outerStatementOfCTE upper).isEmpty then commandTypeWithin n (outerStatementOfCTE upper)
    else commandTypeOf upper

def getCommandType (upperQuery : Text) : CommandType := commandTypeWithin (upperQuery.length + 1) upperQuery

def decimal (n : Int) : Text := (toString n).toList

def buildCommandTagFromRowCount (cmdType : CommandType) (rowCount : Int) : Text :=
  match cmdType with
  | .insert => "INSERT 0 ".toList ++ decimal rowCount
  | .update => "UPDATE ".toList ++ decimal rowCount
  | .delete => "DELETE ".toList ++ decimal rowCount
  | _ => "SELECT ".toList ++ decimal rowCount

def buildCommandTag (cmdType : CommandType) (rowsAffected : Int) : Text :=
  match cmdType with
  | .insert => "INSERT 0 ".toList ++ decimal rowsAffected
  | .update => "UPDATE ".toList ++ decimal rowsAffected
  | .delete => "DELETE ".toList ++ decimal rowsAffected
  | _ => cmdType.tag

def shouldHandleCopyBeforeTranspile : Bool := query.trimSpace.toUpper.hasPrefix "COPY".toList

def utilityPrefixes : List String :=
  ["ATTACH", "DETACH", "USE", "INSTALL", "LOAD", "UNLOAD", "CREATE SECRET", "DROP SECRET",
    "CREATE PERSISTENT SECRET", "CREATE TEMPORARY SECRET", "CREATE OR REPLACE SECRET",
    "CREATE OR REPLACE PERSISTENT SECRET", "CREATE OR REPLACE TEMPORARY SECRET", "PRAGMA", "CHECKPOINT",
    "FORCE CHECKPOINT", "EXPORT DATABASE", "IMPORT DATABASE", "CALL", "SET", "RESET"]

def hasCommandPrefix (command : String) : Bool :=
  hasAt query 0 command && endsAt query command.length fun c => isWSChar c || c = ';'

def isDuckDBUtilityCommand : Bool := utilityPrefixes.any (hasCommandPrefix (stripLeadingComments query).toUpper)

/-- `paramPlaceholderRegex` matches. -/
def hasParameterPlaceholders : Text → Bool
  | '$' :: c :: rest => c.isDigit || hasParameterPlaceholders (c :: rest)
  | _ :: rest => hasParameterPlaceholders rest
  | [] => false

def leadingNumber (s : Text) : Nat := (s.takeWhile Char.isDigit).foldl (fun n c => n * 10 + (c.toNat - '0'.toNat)) 0

def countDollarParams : Text → Nat
  | '$' :: c :: rest =>
    if '1' ≤ c && c ≤ '9' then max (leadingNumber (c :: rest)) (countDollarParams (c :: rest))
    else countDollarParams (c :: rest)
  | _ :: rest => countDollarParams rest
  | [] => 0

end Duckgres.Conn
