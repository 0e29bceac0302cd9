import Duckgres.Base.Calls
import Mathlib.Data.Set.Card

/-!
# Counting calls

The calls whose local state has a property, and how their number changes when one call moves.
-/

namespace Duckgres.Base.World
variable {σ γ : Type*} {w : World σ γ} {p q : γ → Bool} {call : Nat} {c : γ} {shared : σ}

def those (w : World σ γ) (p : γ → Bool) : Set Nat := {call | (w.calls call).any p = true}

def Finite (w : World σ γ) : Prop := (w.those fun _ => true).Finite

theorem mem_those : call ∈ w.those p ↔ (w.calls call).any p = true := Iff.rfl

theorem mem_those_set_of_ne {other : Nat} (apart : other ≠ call) :
    other ∈ (w.set shared call c).those p ↔ other ∈ w.those p := by
  rw [mem_those, mem_those, calls_set_of_ne _ _ _ apart]

theorem finite_init (shared : σ) : (init shared : World σ γ).Finite := by
  have none : (init shared : World σ γ).those (fun _ => true) = ∅ := by
    ext call
    simp [mem_those, init]
  rw [Finite, none]
  exact Set.finite_empty

theorem Finite.those (finite : w.Finite) (p : γ → Bool) : (w.those p).Finite := by
  apply finite.subset
  intro call hm
  cases hf : w.calls call with
  | none => simp [mem_those, hf] at hm
  | some c => simp [mem_those, hf]

theorem Finite.set (finite : w.Finite) : (w.set shared call c).Finite := by
  apply (Set.Finite.insert call finite).subset
  intro other hm
  by_cases hs : other = call
  · simp [hs]
  · exact .inr ((mem_those_set_of_ne hs).mp hm)

theorem Finite.step {α β : Type*} {P : Program σ γ α β} {step : CallStep α β} {after : World σ γ}
    (finite : w.Finite) (ha : P.machine.step w step = some after) : after.Finite := by
  cases Program.takes_of_step ha with
  | start => exact finite.set
  | advance => exact finite.set

theorem those_set_of_pos (holds : p c = true) : (w.set shared call c).those p = insert call (w.those p) := by
  ext other
  by_cases hs : other = call
  · simp [hs, mem_those, holds]
  · simp [hs, mem_those_set_of_ne hs]

theorem those_set_of_neg (fails : p c = false) : (w.set shared call c).those p = w.those p \ {call} := by
  ext other
  by_cases hs : other = call
  · simp [hs, mem_those, fails]
  · simp [hs, mem_those_set_of_ne hs]

theorem those_congr (hs : ∀ call c, w.calls call = some c → p c = q c) : w.those p = w.those q := by
  ext call
  cases hf : w.calls call with
  | none => simp [mem_those, hf]
  | some c => simp [mem_those, hf, hs call c hf]

theorem those_eq_empty (none : ∀ call c, w.calls call = some c → p c = false) : w.those p = ∅ := by
  ext call
  cases hf : w.calls call with
  | none => simp [mem_those, hf]
  | some c => simp [mem_those, hf, none call c hf]

theorem Finite.ncard_those_set (finite : w.Finite) (shared : σ) (call : Nat) (c : γ) (p : γ → Bool) :
    ((w.set shared call c).those p).ncard + ((w.calls call).any p).toNat =
      (w.those p).ncard + (p c).toNat := by
  have finiteThose := finite.those p
  cases now : p c with
  | true =>
    rw [those_set_of_pos now]
    cases before : (w.calls call).any p with
    | true => simp [Set.insert_eq_of_mem (mem_those.mpr before)]
    | false =>
      have absent : call ∉ w.those p := by simp [mem_those, before]
      simp [Set.ncard_insert_of_notMem absent finiteThose]
  | false =>
    rw [those_set_of_neg now]
    cases before : (w.calls call).any p with
    | true => simpa using Set.ncard_sdiff_singleton_add_one (mem_those.mpr before) finiteThose
    | false =>
      have absent : call ∉ w.those p := by simp [mem_those, before]
      simp [Set.sdiff_singleton_eq_self absent]

theorem Finite.toNat_le_ncard (finite : w.Finite) (hf : w.calls call = some c) : (p c).toNat ≤ (w.those p).ncard := by
  cases holds : p c with
  | false => simp
  | true =>
    have hm : call ∈ w.those p := by simp [mem_those, hf, holds]
    exact Set.ncard_pos (finite.those p) |>.mpr ⟨call, hm⟩

theorem Finite.ncard_those_succ (finite : w.Finite) (hf : w.calls call = some c)
    (before : p c = false) (now : q c = true)
    (others : ∀ other d, other ≠ call → w.calls other = some d → q d = p d) :
    (w.those q).ncard = (w.those p).ncard + 1 := by
  have hi : w.those q = insert call (w.those p) := by
    ext other
    by_cases hs : other = call
    · simp [hs, mem_those, hf, now]
    · cases hfo : w.calls other with
      | none => simp [hs, mem_those, hfo]
      | some d => simp [hs, mem_those, hfo, others other d hs hfo]
  have absent : call ∉ w.those p := by simp [mem_those, hf, before]
  rw [hi, Set.ncard_insert_of_notMem absent (finite.those p)]

end Duckgres.Base.World
