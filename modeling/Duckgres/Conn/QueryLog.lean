import Duckgres.Base.Machine

/-!
# The query log

`QueryLogger` (server/querylog.go): connections send entries to a buffered channel, and `flushLoop` writes
them in batches. `compactParquet` does not touch the entries.
-/

namespace Duckgres.Conn
open Base

def queryLogChannelSize : Nat := 10000

structure QueryLogger (E : Type) where
  batchSize : Nat
  ch : List E := []
  closed : Bool := false
  batch : List E := []
  -- what `flushBatch` was called with
  flushed : List (List E) := []
  -- `flushLoop` has returned, and `Stop` after it
  done : Bool := false
  stopped : Bool := false
  panicked : Bool := false
  accepted : List E := []

inductive LogStep (E : Type) where
  | log (entry : E)
  | stop | stopped
  | receive | flushTick | compactTick

namespace QueryLogger
variable {E : Type} (ql : QueryLogger E)

def log (entry : E) : QueryLogger E :=
  -- the send panics in a `select` as well
  if ql.closed then { ql with panicked := true }
  else if ql.ch.length < queryLogChannelSize then { ql with ch := ql.ch ++ [entry], accepted := ql.accepted ++ [entry] }
  else ql

def flush : QueryLogger E :=
  { ql with batch := [], flushed := if ql.batch.isEmpty then ql.flushed else ql.flushed ++ [ql.batch] }

def receive : Option (QueryLogger E) :=
  match ql.ch with
  | entry :: ch =>
    let ql := { ql with ch, batch := ql.batch ++ [entry] }
    some (if ql.batchSize ≤ ql.batch.length then ql.flush else ql)
  | [] => if ql.closed then some { ql.flush with done := true } else none

def machine : Machine (QueryLogger E) (LogStep E) where
  step ql
    | .log entry => some (ql.log entry)
    | .stop => some { ql with closed := true }
    | .stopped => if ql.done then some { ql with stopped := true } else none
    | .receive => if ql.done then none else ql.receive
    | .flushTick | .compactTick => if ql.done then none else some ql.flush

end QueryLogger
end Duckgres.Conn
