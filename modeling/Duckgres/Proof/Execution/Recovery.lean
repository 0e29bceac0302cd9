import Duckgres.Execution.Recovery

/-!
The retries never leave what holds whenever the statement is about to run (`P`) and after each of its
results (`Q`).
-/

namespace Duckgres.Proof.Execution
open Base Base.Stateful Duckgres.Execution

variable {C : Type} {A : C → Type} {σ α : Type} {fn : Stateful C A σ (Except Text α)} {P : σ → Prop}
  {Q : Except Text α → σ → Prop} {s : σ}

variable {result : Except Text α}

section
variable (run : ∀ s, P s → wp fn Q s) (again : ∀ err s, Q (.error err) s → P s)
include run again

theorem wp_retryTransient (attempts : Nat) (hl : Q result s) : wp (retryTransient fn attempts result) Q s := by
  induction attempts generalizing s result with
  | zero => exact .ret hl
  | succ attempts ih =>
    cases result with
    | ok => exact .ret hl
    | error err =>
      unfold retryTransient
      split
      · rw [wp_bind]
        exact wp_imp (run s (again err s hl)) fun result s => ih
      · exact .ret hl

theorem wp_retryOnTransient (start : P s) : wp (retryOnTransient fn) Q s := by
  unfold retryOnTransient
  rw [wp_bind]
  exact wp_imp (run s start) fun result s => wp_retryTransient run again _

theorem wp_retryConflict
    (wraps : ∀ err s, Q (.error err) s → Q (.error (retriesExhausted err)) s) (attempts : Nat) {lastErr}
    (start : P s) (last : attempts = 0 → Q (.error lastErr) s) : wp (retryConflict fn attempts lastErr) Q s := by
  induction attempts generalizing s lastErr with
  | zero => exact .ret (wraps lastErr s (last rfl))
  | succ attempts ih =>
    unfold retryConflict
    rw [wp_bind]
    refine wp_imp (run s start) fun result s hl => ?_
    cases result with
    | ok => exact .ret hl
    | error err =>
      dsimp only
      split
      · exact ih (again err s hl) fun _ => hl
      · exact .ret hl

theorem wp_retryOnConflict (wraps : ∀ err s, Q (.error err) s → Q (.error (retriesExhausted err)) s) (start : P s) :
    wp (retryOnConflict fn) Q s :=
  wp_retryConflict run again wraps _ start nofun

end

theorem wp_retryingConflict {mayRetry} (hl : Q result s)
    (retry : ∀ err, result = .error err → mayRetry = true → isDuckLakeTransactionConflict err = true →
      wp (retryOnConflict fn) Q s) : wp (retryingConflict result mayRetry fn) Q s := by
  cases result with
  | ok => exact .ret hl
  | error err =>
    unfold retryingConflict
    dsimp only
    split
    · rename_i both
      obtain ⟨may, conflict⟩ := Bool.and_eq_true_iff.mp both
      exact retry err rfl may conflict
    · exact .ret hl

theorem wp_recovering {canRollback} {rollback : Stateful C A σ (Except Text Unit)} (hl : Q result s)
    (recover : ∀ err, result = .error err → canRollback = true → isTransactionAborted err = true →
      wp rollback (fun rolled s => match rolled with
        | .error rollbackErr => Q (.error (rollbackFailed rollbackErr err)) s
        | .ok _ => wp fn Q s) s) :
    wp (recovering result canRollback rollback fn) Q s := by
  cases result with
  | ok => exact .ret hl
  | error err =>
    unfold recovering recoverAbortedTransaction
    dsimp only
    split
    · exact .ret hl
    rename_i refused
    have may : canRollback = true ∧ isTransactionAborted err = true := by simpa using refused
    rw [wp_bind]
    exact wp_imp (recover err rfl may.1 may.2) (of_result (fun _ _ hl => .ret hl) fun _ _ hl => hl)

end Duckgres.Proof.Execution
