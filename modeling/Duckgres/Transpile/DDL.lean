import Duckgres.Transpile.Tree

/-!
# DDL for DuckLake

`transformAlterTableStmt` of `DDLTransform` (transpiler/transform/ddl.go) drops the commands that DuckLake does not
support and splits the others.
-/

namespace Duckgres.Transpile
open Base

def isUnsupportedAlterCommand (cmd : Node) : Bool := match enumAt cmd .subtype with
  | some .atAddConstraint | some .atValidateConstraint | some .atDropConstraint | some .atSetNotNull
  | some .atDropNotNull | some .atColumnDefault => true
  | _ => false

def supportedCommands (stmt : Node) : List Node :=
  ((stmt.all .cmds).filter fun cmd => cmd.kind? = some .alterTableCmd && !isUnsupportedAlterCommand cmd).map fun cmd =>
    -- an ADD COLUMN of a column that is there is no error
    if enumAt cmd .subtype = some .atAddColumn then cmd.put .missingOk [.leaf (.bool true)] else cmd

def singleCommand (stmt cmd : Node) : Node :=
  .node .alterTableStmt ((stmt.fields.filter fun entry =>
    decide (entry.1 = .relation) || decide (entry.1 = .objtype) || decide (entry.1 = .missingOk)) ++ [(.cmds, cmd)])

inductive Verdict where
  | goesOn (stmt : Node)
  | noOp (tag : Text)
  | split (statements cleanup : List Text)

def transformAlterTableStmt (pg : PgQuery) (stmt : Node) : Except Text Verdict :=
  match supportedCommands stmt with
  | [] => return .noOp "ALTER TABLE".toList
  | [cmd] => return .goesOn (stmt.put .cmds [cmd])
  | cmds => do
    let deparsed ← cmds.mapM fun cmd => pg.deparse [singleCommand stmt cmd]
    return .split ("BEGIN".toList :: deparsed) ["COMMIT".toList]

end Duckgres.Transpile
