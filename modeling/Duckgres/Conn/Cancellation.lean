import Mathlib.Data.Set.Basic
import Mathlib.Logic.Function.Basic
import Duckgres.Base.Machine
import Duckgres.Base.Text

/-!
# Cancel requests

The registry of running queries (server/server.go), the contexts that connections run their operations in
(server/conn.go), and cancel requests: `CancelQuery` in a server that runs its connections itself, `CancelQueryBySignal`
in one that runs each in a child process (server/parent.go, server/worker.go).
-/

namespace Duckgres.Cancellation
open Base

structure BackendKey where
  pid : Int
  secretKey : Int
  deriving DecidableEq

abbrev Context := Nat

inductive Operation where
  | statement (context : Context)
  -- a FETCH or MOVE, or a Describe of one, and whether it opens the cursor
  | fetch (name : Text) (opens : Bool)
  -- an Execute or a Describe, a COPY, or the statements of a rewritten one: the executor is called without a context
  | plain
  deriving DecidableEq

structure Client where
  key : BackendKey
  running : Option Operation
  -- the contexts of the cursors that have a cleanup
  cursors : Text → Option Context
  -- `externalCancelCh` of a child process, and whether it is closed
  cancelCh : Option Bool

structure Server (ι : Type) where
  clients : ι → Client
  activeQueries : BackendKey → Option Context
  cancelled : Set Context
  nextContext : Context

def Client.Live (client : Client) (context : Context) : Prop :=
  client.running = some (.statement context) ∨ ∃ name, client.cursors name = some context

namespace Server
variable {ι : Type} [DecidableEq ι]

def registerQuery (key : BackendKey) (context : Context) (s : Server ι) : Server ι :=
  { s with activeQueries := Function.update s.activeQueries key (some context) }

def unregisterQuery (key : BackendKey) (s : Server ι) : Server ι :=
  { s with activeQueries := Function.update s.activeQueries key none }

def setClient (i : ι) (client : Client) (s : Server ι) : Server ι :=
  { s with clients := Function.update s.clients i client }

/-- `queryContextInner`, whose context is `nextContext`. -/
def queryContextInner (i : ι) (s : Server ι) : Server ι :=
  let registered := registerQuery (s.clients i).key s.nextContext { s with nextContext := s.nextContext + 1 }
  -- the goroutine that waits for a closed channel does not wait
  if (s.clients i).cancelCh = some true then { registered with cancelled := insert s.nextContext s.cancelled }
  else registered

def cleanup (i : ι) (s : Server ι) : Server ι := unregisterQuery (s.clients i).key s

/-- The contexts that a cancel request reaches: the registered one, or in a child all that wait for its channel. -/
def reached (s : Server ι) (key : BackendKey) : Set Context :=
  { context | ∃ i, (s.clients i).key = key ∧ match (s.clients i).cancelCh with
    | none => s.activeQueries key = some context
    | some _ => (s.clients i).Live context }

def cancelRequest (key : BackendKey) (s : Server ι) : Server ι :=
  { s with
    cancelled := s.cancelled ∪ s.reached key
    clients := fun i => if (s.clients i).key = key then
        { s.clients i with cancelCh := (s.clients i).cancelCh.map fun _ => true }
      else s.clients i }

end Server

inductive Event (ι : Type) where
  | beginStatement (i : ι)
  | endStatement (i : ι)
  | beginFetch (i : ι) (name : Text)
  | endFetch (i : ι)
  | failFetch (i : ι)
  | beginPlain (i : ι)
  | endPlain (i : ι)
  -- by CLOSE, by a DECLARE of the same name, or at the end of a transaction
  | closeCursor (i : ι) (name : Text)
  | cancelRequest (key : BackendKey)

section
variable {ι : Type} [DecidableEq ι]
open Server

def step (s : Server ι) : Event ι → Option (Server ι)
  | .beginStatement i =>
    let client := s.clients i
    if client.running = none then
      some (setClient i { client with running := some (.statement s.nextContext) } (queryContextInner i s))
    else none
  | .endStatement i => match (s.clients i).running with
    | some (.statement _) => some (setClient i { s.clients i with running := none } (cleanup i s))
    | _ => none
  | .beginFetch i name =>
    let client := s.clients i
    if client.running = none then match client.cursors name with
      | some _ => some (setClient i { client with running := some (.fetch name false) } s)
      | none => some (setClient i { client with
        running := some (.fetch name true)
        cursors := Function.update client.cursors name (some s.nextContext) } (queryContextInner i s))
    else none
  | .endFetch i => match (s.clients i).running with
    | some (.fetch _ _) => some (setClient i { s.clients i with running := none } s)
    | _ => none
  | .failFetch i => match (s.clients i).running with
    | some (.fetch name true) => some (setClient i { s.clients i with
      running := none, cursors := Function.update (s.clients i).cursors name none } (cleanup i s))
    | _ => none
  | .beginPlain i =>
    if (s.clients i).running = none then some (setClient i { s.clients i with running := some .plain } s) else none
  | .endPlain i =>
    if (s.clients i).running = some .plain then some (setClient i { s.clients i with running := none } s) else none
  | .closeCursor i name => match (s.clients i).running, (s.clients i).cursors name with
    | some (.fetch _ _), _ => none
    | _, none => some s
    | _, some _ =>
      some (setClient i { s.clients i with cursors := Function.update (s.clients i).cursors name none } (cleanup i s))
  | .cancelRequest key => some (s.cancelRequest key)

def machine (ι : Type) [DecidableEq ι] : Machine (Server ι) (Event ι) := ⟨step⟩

structure Fresh (s : Server ι) : Prop where
  keys : Function.Injective fun i => (s.clients i).key
  idle : ∀ i, (s.clients i).running = none
  noCursor : ∀ i name, (s.clients i).cursors name = none
  unregistered : ∀ key, s.activeQueries key = none
  notCancelled : s.cancelled = ∅

end
end Duckgres.Cancellation
