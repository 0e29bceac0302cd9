import Mathlib.Data.List.Basic
import Mathlib.Logic.Function.Iterate

/-!
# Record batches

`RowsToRecord` (duckdbservice/arrow_helpers.go) and `rowSetToRecord`
(server/flightsqlingress/ingress.go) are two copies of one loop, and the handlers call them until
they return nil.
-/

namespace Duckgres.Flight

structure RowSource (ρ V E : Type*) where
  next : ρ → Bool × ρ
  scan : ρ → Except E (List V)
  err : ρ → Option E

structure RecordBatch (A : Type*) where
  rows : List (List A)

section Builder
variable {ρ V E F A : Type*}

def appendRow (appendValue : F → V → A) (schema : List F) (values : List V) : List A :=
  List.zipWith appendValue schema values

/-- `for rows.Next() && count < batchSize`. The first argument is `batchSize - count`. -/
def fill (src : RowSource ρ V E) (append : List V → List A) : Nat → ρ → List (List A) → Except E (List (List A) × ρ)
  | 0, rows, built => .ok (built, (src.next rows).2)
  | room + 1, rows, built =>
    match src.next rows with
    | (false, rows) => .ok (built, rows)
    | (true, rows) =>
      match src.scan rows with
      | .error e => .error e
      | .ok values => fill src append room rows (built ++ [append values])

variable (src : RowSource ρ V E) (appendValue : F → V → A) (schema : List F) (batchSize : Nat) (rows : ρ)

def buildRecord : Except E (Option (RecordBatch A) × ρ) :=
  match fill src (appendRow appendValue schema) batchSize rows [] with
  | .error e => .error e
  | .ok (built, rows) =>
    match src.err rows with
    | some e => .error e
    | none => if built.length = 0 then .ok (none, rows) else .ok (some ⟨built⟩, rows)

def rowsToRecord : Except E (Option (RecordBatch A) × ρ) :=
  buildRecord src appendValue schema batchSize rows

def rowSetToRecord : Except E (Option (RecordBatch A) × ρ) :=
  buildRecord src appendValue schema batchSize rows

inductive StreamChunk (A E : Type*) where
  | data (batch : RecordBatch A)
  | err (e : E)

/-- The goroutine of `DoGetStatement`: send batches until the builder returns nil. `none` means
that the fuel ran out. -/
def stream (build : ρ → Except E (Option (RecordBatch A) × ρ)) : Nat → ρ → Option (List (StreamChunk A E))
  | 0, _ => none
  | fuel + 1, rows =>
    match build rows with
    | .error e => some [.err e]
    | .ok (none, _) => some []
    | .ok (some batch, rows) => (stream build fuel rows).map (.data batch :: ·)

end Builder

namespace RowSource
variable {ρ V E : Type*} (src : RowSource ρ V E)

def after (k : Nat) (start : ρ) : ρ := (fun rows => (src.next rows).2)^[k] start

structure Yields (start : ρ) (rows : List (List V)) : Prop where
  next_eq : ∀ k, (src.next (src.after k start)).1 = decide (k < rows.length)
  scan_eq : ∀ k (bound : k < rows.length), src.scan (src.after (k + 1) start) = .ok rows[k]
  err_eq : ∀ k, src.err (src.after k start) = none

end RowSource

def StreamsExactly {ρ A E : Type*} (build : ρ → Except E (Option (RecordBatch A) × ρ)) (start : ρ)
    (expected : List (List A)) : Prop :=
  ∃ batches : List (RecordBatch A), (∃ fuel, stream build fuel start = some (batches.map .data)) ∧
    batches.flatMap RecordBatch.rows = expected

end Duckgres.Flight
