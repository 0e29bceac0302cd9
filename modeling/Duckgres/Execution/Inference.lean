import Duckgres.Flight.Lexical
import Duckgres.Base.Text

/-!
# Query texts

What the handlers read off a statement's text before they run it: server/sqlcore/query.go, with its
copy in duckdbservice/flight_handler.go, and `SupportsLimit` (duckdbservice/arrowmap/arrowmap.go).

# Schema inference

Which texts DuckDB runs when a Flight client asks for a statement's flight info, prepares it, or
fetches its rows: `GetQuerySchema` (duckdbservice/arrow_helpers.go) on the worker, and
`getQuerySchema` (server/flightsqlingress/ingress.go) on the ingress, which runs its own statements
through the worker (`QueryContext`, server/flightclient/flight_executor.go).
-/

namespace Duckgres.Execution
open Base Flight

def stripCommentsWithin : Nat → Text → Text
  | 0, query => query
  | n + 1, query =>
    let query := query.trimSpace
    if query.hasPrefix "/*".toList then
      match Text.cut "*/".toList query with
      | none => query
      | some (_, rest) => stripCommentsWithin n rest
    else if query.hasPrefix "--".toList then
      match Text.cut "\n".toList query with
      | none => []
      | some (_, rest) => stripCommentsWithin n rest
    else query

variable (query : Text)

def stripLeadingComments : Text := stripCommentsWithin (query.length + 1) query

def isEmptyQuery : Bool :=
  (stripLeadingComments query).all fun c => c = ';' || c = ' ' || c = '\t' || c = '\n' || c = '\r'

def supportsLimit (upper : Text) : Bool :=
  let s := upper.trimSpace
  ["SELECT", "WITH", "VALUES", "TABLE", "FROM"].any fun keyword => s.hasPrefix keyword.toList

def trimSemicolons : Text := query.trimSpace.rdropWhile (· = ';')

def withLimit : Text :=
  let q := trimSemicolons query
  if !q.toUpper.contains "LIMIT".toList && supportsLimit q.toUpper then q ++ " LIMIT 0".toList else q

inductive Endpoint where
  | worker | ingress

def workerInfo : List Text := if isEmptyQuery query then [] else [withLimit query]

def workerFetch : List Text := if isEmptyQuery query then [] else [query]

def queryContext : List Text := if isEmptyQuery query then [] else workerInfo query ++ workerFetch query

/-- `GetFlightInfoStatement` or `CreatePreparedStatement` of the ingress; `none` is a refusal. -/
def ingressInfo : Option (List Text) :=
  if isEmptyQuery query then some []
  else if supportsLimit (trimSemicolons query).toUpper then some (queryContext (withLimit query))
  else none

def infoTexts : Endpoint → Text → Option (List Text)
  | .worker, query => some (workerInfo query)
  | .ingress, query => ingressInfo query

def fetchTexts : Endpoint → Text → List Text
  | .worker, query => workerFetch query
  | .ingress, query => queryContext query

def utf8 (text : Text) : Bytes := text.flatMap String.utf8EncodeChar

def significant (token : Token) : Bool := token.kind ≠ .gap && token.kind ≠ .comment

def tokens (text : Text) : List Token := (lex (utf8 text)).filter significant

def limitZero : List Token := [⟨.word, ascii "LIMIT"⟩, ⟨.number, ascii "0"⟩]

def Restricts (query limited : Text) : Prop := tokens limited = tokens query ++ limitZero

structure Verdict where
  modifies : Text → Bool
  returnsRows : Text → Bool
  modifies_trim : ∀ text, modifies (trimSemicolons text) = modifies text
  modifies_empty : ∀ text, isEmptyQuery text = true → modifies text = false
  modifies_limited : ∀ query limited, returnsRows query = true → Restricts query limited → modifies limited = false

end Duckgres.Execution
