import Mathlib.Data.List.Basic

/-!
# Sessions of a transactional database

A session runs one statement after another, some of them in a transaction. A transaction is atomic: what its
statements do is there for good when its commit succeeds, and is gone when the commit fails, or when an error has
aborted the transaction. An error that does not abort it leaves it as it was.
-/

namespace Duckgres.Base
open List

inductive Control where
  | begin | commit | rollback | statement
  deriving DecidableEq

inductive Tx (σ : Type*) where
  | idle
  | active (working : σ)
  | aborted

structure Session (σ : Type*) where
  committed : σ
  tx : Tx σ

structure Engine (τ ε σ : Type*) where
  control : τ → Control
  effect : τ → σ → σ
  aborts : ε → Bool

namespace Engine
variable {τ ε σ : Type*} (E : Engine τ ε σ)

def after (s : Session σ) (stmt : τ) (failure : Option ε) : Session σ :=
  match s.tx, E.control stmt, failure with
  | .idle, .begin, none => { s with tx := .active s.committed }
  | .idle, .statement, none => { s with committed := E.effect stmt s.committed }
  | .idle, _, _ => s
  | .active working, .statement, none => { s with tx := .active (E.effect stmt working) }
  | .active working, .commit, none => ⟨working, .idle⟩
  | .active _, .commit, some _ => { s with tx := .idle }
  | .active _, .rollback, _ => { s with tx := .idle }
  | .active _, _, some err => if E.aborts err then { s with tx := .aborted } else s
  | .active _, .begin, none => s
  | .aborted, .commit, _ => { s with tx := .idle }
  | .aborted, .rollback, _ => { s with tx := .idle }
  | .aborted, _, _ => s

attribute [local simp] after

abbrev Outcome (τ ε : Type*) := τ × Option ε

def run (s : Session σ) (outcomes : List (Outcome τ ε)) : Session σ :=
  outcomes.foldl (fun s outcome => E.after s outcome.1 outcome.2) s

def effects (outcomes : List (Outcome τ ε)) (rows : σ) : σ :=
  outcomes.foldl (fun rows outcome => if outcome.2.isNone then E.effect outcome.1 rows else rows) rows

def Aborting (outcomes : List (Outcome τ ε)) : Prop :=
  ∃ outcome ∈ outcomes, ∃ err, outcome.2 = some err ∧ E.aborts err = true

def Plain (outcomes : List (Outcome τ ε)) : Prop := ∀ outcome ∈ outcomes, E.control outcome.1 = .statement

variable {E} {s : Session σ} {outcomes : List (Outcome τ ε)} {committed working : σ}

@[simp] theorem run_nil : E.run s [] = s := rfl

@[simp] theorem run_cons {outcome : Outcome τ ε} :
    E.run s (outcome :: outcomes) = E.run (E.after s outcome.1 outcome.2) outcomes := rfl

theorem run_append {more : List (Outcome τ ε)} : E.run s (outcomes ++ more) = E.run (E.run s outcomes) more :=
  foldl_append

theorem effects_append {more : List (Outcome τ ε)} {rows : σ} :
    E.effects (outcomes ++ more) rows = E.effects more (E.effects outcomes rows) :=
  foldl_append

section
variable (plain : E.Plain outcomes)
include plain

theorem run_aborted : E.run ⟨committed, .aborted⟩ outcomes = ⟨committed, .aborted⟩ := by
  induction outcomes with
  | nil => rfl
  | cons outcome outcomes ih =>
    have first : E.after ⟨committed, .aborted⟩ outcome.1 outcome.2 = ⟨committed, .aborted⟩ := by
      simp [plain outcome mem_cons_self]
    have rest := ih fun other hm => plain other (mem_cons_of_mem _ hm)
    rw [run_cons, first]
    exact rest

theorem run_idle :
    E.run ⟨committed, .idle⟩ outcomes = ⟨E.effects outcomes committed, .idle⟩ := by
  induction outcomes generalizing committed with
  | nil => rfl
  | cons outcome outcomes ih =>
    have first : E.after ⟨committed, .idle⟩ outcome.1 outcome.2 = ⟨E.effects [outcome] committed, .idle⟩ := by
      have isStatement := plain outcome mem_cons_self
      cases failure : outcome.2 <;> simp [effects, isStatement, failure]
    have rest := @ih (E.effects [outcome] committed) fun other hm => plain other (mem_cons_of_mem _ hm)
    rw [run_cons, first]
    exact rest

theorem run_active (calm : ¬ E.Aborting outcomes) :
    E.run ⟨committed, .active working⟩ outcomes = ⟨committed, .active (E.effects outcomes working)⟩ := by
  induction outcomes generalizing working with
  | nil => rfl
  | cons outcome outcomes ih =>
    have first : E.after ⟨committed, .active working⟩ outcome.1 outcome.2 =
        ⟨committed, .active (E.effects [outcome] working)⟩ := by
      have isStatement := plain outcome mem_cons_self
      cases failure : outcome.2 with
      | none => simp [effects, isStatement, failure]
      | some err =>
        have survives : E.aborts err = false := by
          by_contra aborts
          exact calm ⟨outcome, mem_cons_self, err, failure, by simpa using aborts⟩
        simp [effects, isStatement, failure, survives]
    have rest := @ih (E.effects [outcome] working)
      (fun other hm => plain other (mem_cons_of_mem _ hm))
      fun ⟨other, hm, aborts⟩ => calm ⟨other, mem_cons_of_mem _ hm, aborts⟩
    rw [run_cons, first]
    exact rest

theorem run_aborting (aborting : E.Aborting outcomes) :
    E.run ⟨committed, .active working⟩ outcomes = ⟨committed, .aborted⟩ := by
  induction outcomes generalizing working with
  | nil =>
    obtain ⟨_, hm, _⟩ := aborting
    cases hm
  | cons outcome outcomes ih =>
    have isStatement := plain outcome mem_cons_self
    have plainRest : E.Plain outcomes := fun other hm => plain other (mem_cons_of_mem _ hm)
    by_cases here : ∃ err, outcome.2 = some err ∧ E.aborts err = true
    · obtain ⟨err, failure, aborts⟩ := here
      have first : E.after ⟨committed, .active working⟩ outcome.1 outcome.2 = ⟨committed, .aborted⟩ := by
        simp [isStatement, failure, aborts]
      rw [run_cons, first, run_aborted plainRest]
    · have alone : ¬ E.Aborting [outcome] := by simpa [Aborting] using here
      have first : E.run ⟨committed, .active working⟩ [outcome] = ⟨committed, .active (E.effects [outcome] working)⟩ :=
        run_active (by simpa [Plain] using isStatement) alone
      have later : E.Aborting outcomes := by
        obtain ⟨other, hm, aborts⟩ := aborting
        rcases mem_cons.mp hm with rfl | hm
        · exact absurd aborts here
        · exact ⟨other, hm, aborts⟩
      exact (congrArg (E.run · outcomes) first).trans (ih plainRest later)

end

def Lost (E : Engine τ ε σ) (outcomes : List (Outcome τ ε)) : Prop :=
  E.Aborting outcomes.dropLast ∨ ∃ last ∈ outcomes.getLast?, last.2 ≠ none

section
variable {begin commit : τ} {failure : Option ε} (begins : E.control begin = .begin)
  (commits : E.control commit = .commit)
  (plain : E.Plain outcomes)
include begins commits plain

theorem run_committed (calm : ¬ E.Aborting outcomes) :
    E.run ⟨committed, .idle⟩ ((begin, none) :: outcomes ++ [(commit, none)]) =
      ⟨E.effects outcomes committed, .idle⟩ := by
  have first : E.after ⟨committed, .idle⟩ begin none = ⟨committed, .active committed⟩ := by simp [begins]
  rw [cons_append, run_cons, first, run_append, run_active plain calm]
  simp [commits]

theorem run_lost (gone : E.Aborting outcomes ∨ failure ≠ none) :
    E.run ⟨committed, .idle⟩ ((begin, none) :: outcomes ++ [(commit, failure)]) = ⟨committed, .idle⟩ := by
  have first : E.after ⟨committed, .idle⟩ begin none = ⟨committed, .active committed⟩ := by simp [begins]
  rw [cons_append, run_cons, first, run_append]
  by_cases aborting : E.Aborting outcomes
  · rw [run_aborting plain aborting]
    simp [commits]
  · obtain ⟨err, rfl⟩ := Option.ne_none_iff_exists'.mp (gone.resolve_left aborting)
    rw [run_active plain aborting]
    simp [commits]

theorem run_unbegun {err : ε} :
    E.run ⟨committed, .idle⟩ ((begin, some err) :: outcomes ++ [(commit, failure)]) =
      ⟨E.effects outcomes committed, .idle⟩ := by
  have first : E.after ⟨committed, .idle⟩ begin (some err) = ⟨committed, .idle⟩ := by simp [begins]
  rw [cons_append, run_cons, first, run_append, run_idle plain]
  simp [commits]

end

theorem view_effects {υ : Type*} {view : σ → υ} {rows : σ}
    (hidden : ∀ outcome ∈ outcomes, ∀ rows, view (E.effect outcome.1 rows) = view rows) :
    view (E.effects outcomes rows) = view rows := by
  induction outcomes generalizing rows with
  | nil => rfl
  | cons outcome outcomes ih =>
    have later := @ih (E.effects [outcome] rows) fun other hm => hidden other (mem_cons_of_mem _ hm)
    refine (show _ = _ from later).trans ?_
    simp only [effects, foldl_cons]
    split
    · exact hidden outcome mem_cons_self rows
    · rfl

end Engine
end Duckgres.Base
