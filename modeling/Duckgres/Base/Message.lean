import Mathlib.Data.List.Basic

/-!
# Messages

Trees of messages: a message has a kind, and fields whose values are messages or scalars. A repeated field
occurs once for each of its values.
-/

namespace Duckgres.Base

inductive Message (K F S : Type) where
  | leaf (value : S)
  | node (kind : K) (fields : List (F × Message K F S))

namespace Message
variable {K F S : Type}

def kind? : Message K F S → Option K
  | .node kind _ => some kind
  | _ => none

def fields : Message K F S → List (F × Message K F S)
  | .node _ fields => fields
  | _ => []

section
variable [DecidableEq F] (m : Message K F S)

def all (f : F) : List (Message K F S) := m.fields.filterMap fun entry =>
  if entry.1 = f then some entry.2 else none

def get (f : F) : Option (Message K F S) := (m.all f).head?

def put (f : F) (values : List (Message K F S)) : Message K F S := match m with
  | .node kind fields => .node kind (fields.filter (fun entry => entry.1 ≠ f) ++ values.map fun value => (f, value))
  | m => m

end

mutual
/-- `here` at every message that is reached by the fields that are walked, the innermost first. -/
def rewrite (walked : K → F → Bool) (here : Message K F S → Message K F S) : Message K F S → Message K F S
  | .node kind fields => here (.node kind (rewriteFields walked here kind fields))
  | .leaf value => .leaf value

def rewriteFields (walked : K → F → Bool) (here : Message K F S → Message K F S) (kind : K) :
    List (F × Message K F S) → List (F × Message K F S)
  | [] => []
  | (f, m) :: rest => (f, if walked kind f then rewrite walked here m else m) :: rewriteFields walked here kind rest
end

end Message
end Duckgres.Base
