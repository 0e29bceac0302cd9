import Duckgres.Base.Script
import Duckgres.Base.Text

/-!
# Retries

duckdbservice/transient.go and server/transient.go: what is run again after an error of DuckDB or
DuckLake. The error is its message.
-/

namespace Duckgres.Execution
open Base

def transientErrors : List String :=
  ["name resolution", "could not translate host name", "could not connect to server", "Connection refused",
    "connection reset by peer", "connection timed out", "server closed the connection unexpectedly",
    "SSL connection has been closed unexpectedly", "Current transaction is aborted", "no route to host",
    "network is unreachable"]

def isTransientDuckLakeError (err : Text) : Bool := transientErrors.any fun part => err.contains part.toList

def isTransactionAborted (err : Text) : Bool := err.contains "Current transaction is aborted".toList

def isDuckLakeTransactionConflict (err : Text) : Bool := err.contains "Transaction conflict".toList

section
variable {m : Type → Type} [Monad m] {α : Type}

def retryTransient (fn : m (Except Text α)) : Nat → Except Text α → m (Except Text α)
  | attempts + 1, .error err =>
    if isTransientDuckLakeError err then do retryTransient fn attempts (← fn) else pure (.error err)
  | _, result => pure result

def transientMaxRetries : Nat := 3

def retryOnTransient (fn : m (Except Text α)) : m (Except Text α) := do
  retryTransient fn transientMaxRetries (← fn)

def retriesExhausted (err : Text) : Text :=
  "DuckLake transaction conflict: retries exhausted after 5 attempts: ".toList ++ err

def retryConflict (fn : m (Except Text α)) : Nat → Text → m (Except Text α)
  | 0, lastErr => pure (.error (retriesExhausted lastErr))
  | attempts + 1, _ => do match ← fn with
    | .error err => if isDuckLakeTransactionConflict err then retryConflict fn attempts err else pure (.error err)
    | .ok result => pure (.ok result)

def conflictMaxRetries : Nat := 5

def retryOnConflict (fn : m (Except Text α)) : m (Except Text α) := retryConflict fn conflictMaxRetries []

def rollbackFailed (rollbackErr err : Text) : Text :=
  "DuckLake aborted transaction recovery rollback failed: ".toList ++ rollbackErr ++
    " (original error: ".toList ++ err ++ ")".toList

def recoverAbortedTransaction (err : Text) (canRollback : Bool) (rollback : m (Except Text Unit))
    (retry : m (Except Text α)) : m (Except Text α) := do
  if !canRollback || !isTransactionAborted err then pure (.error err)
  else match ← rollback with
    | .error rollbackErr => pure (.error (rollbackFailed rollbackErr err))
    | .ok _ => retry

def recovering (result : Except Text α) (canRollback : Bool) (rollback : m (Except Text Unit))
    (retry : m (Except Text α)) : m (Except Text α) :=
  match result with
  | .error err => recoverAbortedTransaction err canRollback rollback retry
  | .ok result => pure (.ok result)

def retryingConflict (result : Except Text α) (mayRetry : Bool) (fn : m (Except Text α)) : m (Except Text α) :=
  match result with
  | .error err => if mayRetry && isDuckLakeTransactionConflict err then retryOnConflict fn else pure (.error err)
  | .ok result => pure (.ok result)

end

end Duckgres.Execution
