import Duckgres.Base.Machine
import Mathlib.Logic.Function.Basic

/-!
# Concurrent calls

Calls of one program over a shared state. A step of a call is what it does under one lock, or one
effect outside of every lock; between two of its steps every other call may take steps of its own.
The environment's part of a step (what an external function returns) is in its label.
-/

namespace Duckgres.Base

structure Program (σ γ α β : Type*) where
  start : β → γ
  -- `none`: the call is not at this step.
  step : σ → γ → α → Option (σ × γ)

structure World (σ γ : Type*) where
  shared : σ
  calls : Nat → Option γ

inductive CallStep (α β : Type*) where
  | start (call : Nat) (arg : β)
  | advance (call : Nat) (a : α)

namespace World
variable {σ γ : Type*}

def init (shared : σ) : World σ γ := ⟨shared, fun _ => none⟩

def set (w : World σ γ) (shared : σ) (call : Nat) (c : γ) : World σ γ := ⟨shared, Function.update w.calls call (some c)⟩

@[simp] theorem shared_set (w : World σ γ) (shared : σ) (call : Nat) (c : γ) :
    (w.set shared call c).shared = shared := rfl

theorem calls_set (w : World σ γ) (shared : σ) (call other : Nat) (c : γ) :
    (w.set shared call c).calls other = if other = call then some c else w.calls other := by
  simp [set, Function.update_apply]

@[simp] theorem calls_set_self (w : World σ γ) (shared : σ) (call : Nat) (c : γ) :
    (w.set shared call c).calls call = some c := by
  simp [calls_set]

theorem calls_set_of_ne (w : World σ γ) (shared : σ) {call other : Nat} (c : γ)
    (apart : other ≠ call) : (w.set shared call c).calls other = w.calls other := by
  simp [calls_set, apart]

theorem forall_calls_set {w : World σ γ} {shared : σ} {call : Nat} {c : γ} {p : Nat → γ → Prop}
    (own : p call c) (others : ∀ other d, other ≠ call → w.calls other = some d → p other d) :
    ∀ other d, (w.set shared call c).calls other = some d → p other d := by
  intro other d hf
  rw [calls_set] at hf
  split at hf
  · rename_i hs
    cases hf
    rwa [hs]
  · rename_i apart
    exact others other d apart hf

theorem forall_pairs_set {w : World σ γ} {shared : σ} {call : Nat} {c : γ} {p : γ → γ → Prop}
    (symm : ∀ c d, p c d → p d c)
    (own : ∀ other d, other ≠ call → w.calls other = some d → p c d)
    (others : ∀ first second c d, first ≠ second → w.calls first = some c → w.calls second = some d → p c d) :
    ∀ first second c' d, first ≠ second → (w.set shared call c).calls first = some c' →
      (w.set shared call c).calls second = some d → p c' d := by
  intro first second c' d apart foundFirst foundSecond
  rw [calls_set] at foundFirst foundSecond
  split at foundFirst
  · rename_i isFirst
    cases foundFirst
    subst isFirst
    rw [if_neg apart.symm] at foundSecond
    exact own second d apart.symm foundSecond
  · rename_i notFirst
    split at foundSecond
    · cases foundSecond
      exact symm _ _ (own first c' notFirst foundFirst)
    · exact others first second c' d apart foundFirst foundSecond

structure Holds (Inv : σ → Prop) (Own : σ → γ → Prop) (w : World σ γ) : Prop where
  shared : Inv w.shared
  own : ∀ call c, w.calls call = some c → Own w.shared c

theorem holds_init {Inv : σ → Prop} {Own : σ → γ → Prop} {shared : σ} (start : Inv shared) :
    Holds Inv Own (init shared) :=
  ⟨start, nofun⟩

end World

namespace Program
variable {σ γ α β : Type*} (P : Program σ γ α β)

def machine : Machine (World σ γ) (CallStep α β) where
  step w
    | .start call arg => match w.calls call with
      | none => some (w.set w.shared call (P.start arg))
      | some _ => none
    | .advance call a => (w.calls call).bind fun c =>
      (P.step w.shared c a).map fun (shared, next) => w.set shared call next

def runAlone : σ → γ → List α → Option (σ × γ)
  | s, c, [] => some (s, c)
  | s, c, a :: as => (P.step s c a).bind fun (shared, next) => runAlone shared next as

inductive Takes (w : World σ γ) : CallStep α β → World σ γ → Prop
  | start {call : Nat} {arg : β} (fresh : w.calls call = none) :
      Takes w (.start call arg) (w.set w.shared call (P.start arg))
  | advance {call : Nat} {a : α} {c next : γ} {shared : σ} (found : w.calls call = some c)
      (moved : P.step w.shared c a = some (shared, next)) :
      Takes w (.advance call a) (w.set shared call next)

variable {P} {w after : World σ γ} {step : CallStep α β}

theorem takes_of_step (ha : P.machine.step w step = some after) : P.Takes w step after := by
  cases step with
  | start =>
    simp only [machine] at ha
    split at ha
    · rename_i fresh
      cases ha
      exact .start fresh
    · cases ha
  | advance =>
    obtain ⟨c, hf, mapped⟩ := Option.bind_eq_some_iff.mp ha
    obtain ⟨⟨shared, next⟩, moved, rfl⟩ := Option.map_eq_some_iff.mp mapped
    exact .advance hf moved

theorem step_of_takes (takes : P.Takes w step after) : P.machine.step w step = some after := by
  cases takes with
  | start fresh => simp [machine, fresh]
  | advance hf moved => simp [machine, hf, moved]

variable {call : Nat}

theorem run_alone {c next : γ} {shared : σ} {steps : List α}
    (hf : w.calls call = some c) (alone : P.runAlone w.shared c steps = some (shared, next)) :
    P.machine.run w (steps.map (.advance call)) = some (w.set shared call next) := by
  induction steps generalizing w c with
  | nil =>
    cases alone
    have hs : w.set w.shared call next = w := by simp [World.set, ← hf]
    rw [hs]
    rfl
  | cons a steps ih =>
    obtain ⟨⟨middle, d⟩, moved, rest⟩ := Option.bind_eq_some_iff.mp alone
    have later := ih (World.calls_set_self w middle call d) rest
    refine (P.machine.run_cons_eq_some).mpr ⟨_, step_of_takes (.advance hf moved), ?_⟩
    rw [later]
    simp [World.set]

theorem run_call {arg : β} {next : γ} {shared : σ} {steps : List α}
    (fresh : w.calls call = none) (alone : P.runAlone w.shared (P.start arg) steps = some (shared, next)) :
    P.machine.run w (.start call arg :: steps.map (.advance call)) = some (w.set shared call next) := by
  refine (P.machine.run_cons_eq_some).mpr ⟨_, step_of_takes (.start fresh), ?_⟩
  rw [run_alone (World.calls_set_self ..) alone]
  simp [World.set]

theorem Takes.changed {c : γ} (takes : P.Takes w step after) (hf : after.calls call = some c)
    (fresh : w.calls call ≠ some c) :
    (∃ arg, step = .start call arg ∧ c = P.start arg) ∨
      ∃ a before, step = .advance call a ∧ w.calls call = some before ∧
        P.step w.shared before a = some (after.shared, c) := by
  cases takes with
  | @start other arg =>
    by_cases hs : call = other
    · cases hs
      rw [World.calls_set_self] at hf
      exact .inl ⟨arg, rfl, (Option.some.inj hf).symm⟩
    · rw [World.calls_set_of_ne _ _ _ hs] at hf
      exact absurd hf fresh
  | @advance other a before _ _ foundBefore moved =>
    by_cases hs : call = other
    · cases hs
      rw [World.calls_set_self] at hf
      cases hf
      exact .inr ⟨a, before, rfl, foundBefore, moved⟩
    · rw [World.calls_set_of_ne _ _ _ hs] at hf
      exact absurd hf fresh

variable {allowed : World σ γ → CallStep α β → Prop}

/-- The rule of rely and guarantee: a step keeps the invariant and the assertion of its own call,
and the assertions of all other calls are stable under it. -/
theorem holds_of_obeys (Inv : σ → Prop) (Own : σ → γ → Prop)
    (begins : ∀ w call arg, w.Holds Inv Own → allowed w (.start call arg) → Own w.shared (P.start arg))
    (keeps : ∀ w call a c shared next, w.Holds Inv Own → allowed w (.advance call a) →
      w.calls call = some c → P.step w.shared c a = some (shared, next) →
      Inv shared ∧ Own shared next)
    (stable : ∀ w call a c shared next other d, w.Holds Inv Own → allowed w (.advance call a) →
      w.calls call = some c → P.step w.shared c a = some (shared, next) → other ≠ call →
      w.calls other = some d → Own shared d) {final : World σ γ} {steps : List (CallStep α β)} (start : w.Holds Inv Own)
    (obeys : P.machine.Obeys allowed w steps) (run : P.machine.run w steps = some final) :
    final.Holds Inv Own := by
  refine P.machine.invariant_of_obeys (World.Holds Inv Own) ?_ start obeys run
  intro w step after holds allowed ha
  cases takes_of_step ha with
  | start =>
    exact ⟨holds.shared, World.forall_calls_set (begins w _ _ holds allowed) fun other d _ => holds.own other d⟩
  | advance hf moved =>
    obtain ⟨inv, own⟩ := keeps w _ _ _ _ _ holds allowed hf moved
    exact ⟨inv, World.forall_calls_set own fun other d apart hfo =>
      stable w _ _ _ _ _ other d holds allowed hf moved apart hfo⟩

theorem holds_of_run (Inv : σ → Prop) (Own : σ → γ → Prop) (begins : ∀ s arg, Inv s → Own s (P.start arg))
    (keeps : ∀ s c a shared next, Inv s → Own s c → P.step s c a = some (shared, next) → Inv shared ∧ Own shared next)
    (stable : ∀ s c a shared next d, Inv s → Own s c → P.step s c a = some (shared, next) → Own s d → Own shared d)
    {final : World σ γ} {steps : List (CallStep α β)} (start : w.Holds Inv Own)
    (run : P.machine.run w steps = some final) : final.Holds Inv Own :=
  holds_of_obeys Inv Own
    (fun w _ arg holds _ => begins w.shared arg holds.shared)
    (fun w call a c shared next holds _ hf ha => keeps w.shared c a shared next holds.shared (holds.own call c hf) ha)
    (fun w call a c shared next other d holds _ hf ha _ hfo =>
      stable w.shared c a shared next d holds.shared (holds.own call c hf) ha (holds.own other d hfo))
    start (P.machine.obeys_true _ _) run

theorem obeys_alone (alone : ∀ w a, (∀ other, other ≠ call → w.calls other = none) → allowed w (.advance call a))
    (steps : List α) (only : ∀ other, other ≠ call → w.calls other = none) :
    P.machine.Obeys allowed w (steps.map (.advance call)) := by
  induction steps generalizing w with
  | nil => trivial
  | cons a steps ih =>
    refine ⟨alone w a only, fun next ha => ih fun other ne => ?_⟩
    cases takes_of_step ha with
    | advance =>
      rw [World.calls_set_of_ne _ _ _ ne]
      exact only other ne

end Program
end Duckgres.Base
