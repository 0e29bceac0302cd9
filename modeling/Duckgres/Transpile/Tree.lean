import Duckgres.Base.Message
import Duckgres.Base.Text

/-!
# Parsed statements

The trees of pg_query, as far as the transforms (transpiler/transform) look into them.
-/

namespace Duckgres.Transpile
open Base

inductive Kind where
  | selectStmt | insertStmt | updateStmt | deleteStmt | alterTableStmt | variableSetStmt
  | withClause | alterTableCmd | columnDef | typeName | rangeVar | rangeSubselect | joinExpr | alias
  | resTarget | sortBy | columnRef | aConst | funcCall | typeCast | aExpr | boolExpr | subLink | caseExpr
  | caseWhen | coalesceExpr | nullTest | list | string
  -- what no transform looks into
  | other (n : Nat)
  deriving DecidableEq

inductive Field where
  | targetList | fromClause | whereClause | groupClause | havingClause | sortClause | limitCount | limitOffset
  | valuesLists | withClause | larg | rarg | relation | selectStmt | returningList | usingClause
  | alias | aliasname | catalogname | schemaname | relname | fields | sval | name | val | args | arg | lexpr | rexpr
  | subselect | quals | defresult | expr | result | subquery | items | node | names
  | cmds | subtype | missingOk | objtype | definition | colname | typeName | kind | isLocal
  | other (n : Nat)
  deriving DecidableEq

inductive Enum where
  | objectTable | atAddColumn | atAddConstraint | atValidateConstraint | atDropConstraint | atSetNotNull | atDropNotNull
  | atColumnDefault | varSetValue
  | other (n : Nat)
  deriving DecidableEq

inductive Scalar where
  | text (s : Text)
  | int (n : Int)
  | bool (b : Bool)
  | enum (e : Enum)

abbrev Node := Message Kind Field Scalar

def textAt (n : Node) (f : Field) : Text := match n.get f with
  | some (.leaf (.text s)) => s
  | _ => []

def boolAt (n : Node) (f : Field) : Bool := match n.get f with
  | some (.leaf (.bool b)) => b
  | _ => false

def enumAt (n : Node) (f : Field) : Option Enum := match n.get f with
  | some (.leaf (.enum e)) => some e
  | _ => none

def ofText (s : Text) : Node := .leaf (.text s)

structure PgQuery where
  deparse : List Node → Except Text Text

end Duckgres.Transpile
