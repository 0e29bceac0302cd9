import Mathlib.Data.List.Basic

/-!
# Machines and their runs

A machine takes one step at a time; every choice the environment makes (which party moves, with
which arguments) is in the label. A run is a list of labels. `Obeys` restricts a run step by step:
each label has to be allowed in the state it is taken from.
-/

namespace Duckgres.Base
open Option

structure Machine (σ α : Type*) where
  -- `none`: the label is not enabled in the state.
  step : σ → α → Option σ

namespace Machine
variable {σ α : Type*} (M : Machine σ α)

def run : σ → List α → Option σ
  | s, [] => some s
  | s, a :: as => (M.step s a).bind fun next => run next as

def Obeys (allowed : σ → α → Prop) : σ → List α → Prop
  | _, [] => True
  | s, a :: as => allowed s a ∧ ∀ next, M.step s a = some next → Obeys allowed next as

theorem run_cons (s : σ) (a : α) (as : List α) : M.run s (a :: as) = (M.step s a).bind fun next => M.run next as := rfl

variable {s final : σ} {as : List α}

theorem run_cons_eq_some {a : α} : M.run s (a :: as) = some final ↔
      ∃ next, M.step s a = some next ∧ M.run next as = some final := by
  rw [run_cons, bind_eq_some_iff]

theorem run_singleton (s : σ) (a : α) : M.run s [a] = M.step s a := by
  exact bind_fun_some _

theorem run_append (s : σ) (before after : List α) :
    M.run s (before ++ after) = (M.run s before).bind fun middle => M.run middle after := by
  induction before generalizing s with
  | nil => rfl
  | cons a before ih =>
    rw [List.cons_append, run_cons, run_cons, bind_assoc]
    congr 1
    funext next
    exact ih next

variable {before after : List α}

theorem run_append_eq_some : M.run s (before ++ after) = some final ↔
      ∃ middle, M.run s before = some middle ∧ M.run middle after = some final := by
  rw [run_append, bind_eq_some_iff]

theorem obeys_true (s : σ) (as : List α) : M.Obeys (fun _ _ => True) s as := by
  induction as generalizing s with
  | nil => trivial
  | cons a as ih => exact ⟨trivial, fun next _ => ih next⟩

variable {allowed : σ → α → Prop} {M} in
theorem Obeys.cons {next : σ} {a : α}
    (ha : M.step s a = some next) (here : allowed s a) (rest : M.Obeys allowed next as) :
    M.Obeys allowed s (a :: as) := by
  refine ⟨here, fun other otherAction => ?_⟩
  cases ha.symm.trans otherAction
  exact rest

theorem obeys_of_forall (all : ∀ a ∈ as, ∀ s, allowed s a) (s : σ) : M.Obeys allowed s as := by
  induction as generalizing s with
  | nil => trivial
  | cons a as ih =>
    exact ⟨all a List.mem_cons_self s, fun next _ => ih (fun b hm => all b (List.mem_cons_of_mem a hm)) next⟩

variable {M} in
theorem Obeys.append (first : M.Obeys allowed s before)
    (second : ∀ middle, M.run s before = some middle → M.Obeys allowed middle after) :
    M.Obeys allowed s (before ++ after) := by
  induction before generalizing s with
  | nil => exact second s rfl
  | cons a before ih =>
    refine ⟨first.1, fun next ha => ih (first.2 next ha) fun middle run => ?_⟩
    exact second middle ((M.run_cons_eq_some).mpr ⟨next, ha, run⟩)

variable {M} in
theorem Obeys.left (obeys : M.Obeys allowed s (before ++ after)) : M.Obeys allowed s before := by
  induction before generalizing s with
  | nil => trivial
  | cons a before ih => exact ⟨obeys.1, fun next ha => ih (obeys.2 next ha)⟩

variable {M} in
theorem Obeys.right {middle : σ} (obeys : M.Obeys allowed s (before ++ after)) (run : M.run s before = some middle) :
    M.Obeys allowed middle after := by
  induction before generalizing s with
  | nil =>
    cases run
    exact obeys
  | cons a before ih =>
    obtain ⟨next, ha, rest⟩ := (M.run_cons_eq_some).mp run
    exact ih (obeys.2 next ha) rest

variable {M} in
theorem Obeys.and_invariant {Inv : σ → Prop} (obeys : M.Obeys allowed s as)
    (preserved : ∀ s a next, Inv s → M.step s a = some next → Inv next) (start : Inv s) :
    M.Obeys (fun s a => allowed s a ∧ Inv s) s as := by
  induction as generalizing s with
  | nil => trivial
  | cons a as ih => exact ⟨⟨obeys.1, start⟩, fun next step => ih (obeys.2 next step) (preserved s a next start step)⟩

theorem invariant_of_obeys (Inv : σ → Prop)
    (preserved : ∀ s a next, Inv s → allowed s a → M.step s a = some next → Inv next) (start : Inv s)
    (obeys : M.Obeys allowed s as) (run : M.run s as = some final) : Inv final := by
  induction as generalizing s with
  | nil =>
    cases run
    exact start
  | cons a as ih =>
    obtain ⟨next, ha, rest⟩ := (M.run_cons_eq_some).mp run
    exact ih (preserved s a next start obeys.1 ha) (obeys.2 next ha) rest

theorem invariant_of_run (Inv : σ → Prop) (preserved : ∀ s a next, Inv s → M.step s a = some next → Inv next)
    (start : Inv s) (run : M.run s as = some final) : Inv final :=
  M.invariant_of_obeys Inv (fun s a next inv _ => preserved s a next inv) start (M.obeys_true _ _) run

theorem related_of_invariant (Inv : σ → Prop) (R : σ → σ → Prop) (refl : ∀ s, R s s)
    (trans : ∀ a b c, R a b → R b c → R a c)
    (preserved : ∀ s a next, Inv s → M.step s a = some next → Inv next)
    (related : ∀ s a next, Inv s → M.step s a = some next → R s next) (start : Inv s) (run : M.run s as = some final) :
    R s final := by
  induction as generalizing s with
  | nil =>
    cases run
    exact refl _
  | cons a as ih =>
    obtain ⟨next, ha, rest⟩ := (M.run_cons_eq_some).mp run
    exact trans s next final (related s a next start ha) (ih (preserved s a next start ha) rest)

theorem related_of_run (R : σ → σ → Prop) (refl : ∀ s, R s s) (trans : ∀ a b c, R a b → R b c → R a c)
    (related : ∀ s a next, M.step s a = some next → R s next) (run : M.run s as = some final) : R s final :=
  M.related_of_invariant (fun _ => True) R refl trans (fun _ _ _ _ _ => trivial)
    (fun s a next _ => related s a next) trivial run

end Machine
end Duckgres.Base
