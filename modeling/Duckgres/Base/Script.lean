import Mathlib.Data.List.Basic

/-!
# Scripts

A script is a computation that calls on its surroundings and goes on with whatever they answer. A
statement about every answer is `All`; a result that some answers lead to is one the script
`Returns`. `wp` is the weakest precondition of a script with a state.
-/

namespace Duckgres.Base

inductive Script (C : Type) (A : C → Type) (α : Type) : Type where
  | pure (a : α)
  | call (c : C) (next : A c → Script C A α)

namespace Script
variable {C : Type} {A : C → Type} {α β : Type}

def bind : Script C A α → (α → Script C A β) → Script C A β
  | .pure a, f => f a
  | .call c next, f => .call c fun answer => (next answer).bind f

instance : Monad (Script C A) where
  pure := .pure
  bind := bind

protected theorem bind_pure {x : Script C A α} : x.bind .pure = x := by
  induction x with
  | pure => rfl
  | call _ _ ih => simp [bind, ih]

protected theorem bind_assoc {γ : Type} {x : Script C A α} {f : α → Script C A β} {g : β → Script C A γ} :
    (x.bind f).bind g = x.bind fun a => (f a).bind g := by
  induction x with
  | pure => rfl
  | call _ _ ih => simp [bind, ih]

instance : LawfulMonad (Script C A) := .mk' _ (fun _ => Script.bind_pure) (fun _ _ => rfl) fun _ _ _ =>
  Script.bind_assoc

def All (P : α → Prop) : Script C A α → Prop
  | .pure a => P a
  | .call _ next => ∀ answer, (next answer).All P

inductive Returns : Script C A α → α → Prop
  | pure {a : α} : Returns (.pure a) a
  | call {c : C} {next : A c → Script C A α} {a : α} (answer : A c) (rest : Returns (next answer) a) :
      Returns (.call c next) a

variable {x : Script C A α}

theorem all_iff {P : α → Prop} : x.All P ↔ ∀ a, x.Returns a → P a := by
  induction x with
  | pure a =>
    constructor
    · intro holds b returned
      cases returned
      exact holds
    · intro holds
      exact holds a .pure
  | call _ _ ih =>
    constructor
    · intro holds a returned
      cases returned with
      | call answer rest => exact (ih answer).mp (holds answer) a rest
    · intro holds answer
      exact (ih answer).mpr fun a rest => holds a (.call answer rest)

theorem all_bind {P : β → Prop} {f : α → Script C A β} : (x.bind f).All P ↔ x.All fun a => (f a).All P := by
  induction x with
  | pure => rfl
  | call _ _ ih => exact forall_congr' ih

theorem All.imp {P Q : α → Prop} (holds : x.All P) (imp : ∀ a, P a → Q a) : x.All Q :=
  all_iff.mpr fun a returned => imp a (all_iff.mp holds a returned)

abbrev History (C : Type) (A : C → Type) := List (Σ c, A c)

abbrev Behaviour (C : Type) (A : C → Type) := History C A → (c : C) → A c

def play (f : Behaviour C A) : Script C A α → History C A → α × History C A
  | .pure a, past => (a, past)
  | .call c next, past => (next (f past c)).play f (past ++ [⟨c, f past c⟩])

theorem play_bind {f : Behaviour C A} {g : α → Script C A β} {past : History C A} :
    (x.bind g).play f past = (g (x.play f past).1).play f (x.play f past).2 := by
  induction x generalizing past with
  | pure => rfl
  | call c _ ih => exact ih (f past c)

theorem returns_play {f : Behaviour C A} {past : History C A} : x.Returns (x.play f past).1 := by
  induction x generalizing past with
  | pure => exact .pure
  | call c _ ih => exact .call (f past c) (ih (f past c))

end Script

theorem of_result {ε α : Type} {P : Except ε α → Prop} (error : ∀ err, P (.error err)) (ok : ∀ a, P (.ok a))
    (result : Except ε α) : P result := by
  cases result with
  | error err => exact error err
  | ok a => exact ok a

abbrev Stateful (C : Type) (A : C → Type) (σ α : Type) := StateT σ (Script C A) α

namespace Stateful
variable {C : Type} {A : C → Type} {σ α β : Type} {Q : α → σ → Prop} {s : σ}

def call (note : (c : C) → A c → σ → σ) (c : C) : Stateful C A σ (A c) :=
  fun s => .call c fun answer => .pure (answer, note c answer s)

def wp (x : Stateful C A σ α) (Q : α → σ → Prop) (s : σ) : Prop := (x.run s).All fun r => Q r.1 r.2

def Ends (x : Stateful C A σ α) (s : σ) (a : α) (final : σ) : Prop := (x.run s).Returns (a, final)

variable {x : Stateful C A σ α}

theorem wp_iff : wp x Q s ↔ ∀ a final, Ends x s a final → Q a final := by
  unfold wp
  rw [Script.all_iff]
  exact Prod.forall

theorem wp_imp {Q' : α → σ → Prop} (holds : wp x Q s) (imp : ∀ a s, Q a s → Q' a s) : wp x Q' s :=
  Script.All.imp holds fun r => imp r.1 r.2

theorem wp_and {Q' : α → σ → Prop} (first : wp x Q s) (second : wp x Q' s) : wp x (fun a s => Q a s ∧ Q' a s) s :=
  wp_iff.mpr fun a final ends => ⟨wp_iff.mp first a final ends, wp_iff.mp second a final ends⟩

@[simp] theorem wp_pure {a : α} : wp (pure a : Stateful C A σ α) Q = Q a := rfl

theorem wp.ret {a : α} (held : Q a s) : wp (pure a : Stateful C A σ α) Q s := held

variable {f : β → Stateful C A σ α}

@[simp] theorem wp_bind {x : Stateful C A σ β} : wp (x >>= f) Q = wp x fun b => wp (f b) Q := by
  funext s
  exact propext Script.all_bind

@[simp] theorem wp_map {x : Stateful C A σ β} {f : β → α} : wp (f <$> x) Q = wp x fun b => Q (f b) := by
  funext s
  exact propext Script.all_bind

@[simp] theorem wp_get {Q : σ → σ → Prop} : wp (get : Stateful C A σ σ) Q = fun s => Q s s := rfl

@[simp] theorem wp_modify {f : σ → σ} {Q : PUnit → σ → Prop} :
    wp (modify f : Stateful C A σ PUnit) Q = fun s => Q ⟨⟩ (f s) := rfl

variable {note : (c : C) → A c → σ → σ}

@[simp] theorem wp_call {c : C} {Q : A c → σ → Prop} :
    wp (call note c : Stateful C A σ (A c)) Q = fun s => ∀ answer, Q answer (note c answer s) := rfl

@[simp] theorem wp_ite {p : Prop} [Decidable p] {y : Stateful C A σ α} :
    wp (if p then x else y) Q = if p then wp x Q else wp y Q := by
  split <;> rfl

theorem wp_seq {P : β → σ → Prop} {x : Stateful C A σ β} (first : wp x P s)
    (rest : ∀ b s, P b s → wp (f b) Q s) : wp (x >>= f) Q s := by
  rw [wp_bind]
  exact wp_imp first rest

theorem wp_forM {ι : Type} {serve : ι → Stateful C A σ PUnit} {Inv : σ → Prop}
    (step : ∀ i s, Inv s → wp (serve i) (fun _ => Inv) s) (items : List ι) (start : Inv s) :
    wp (forM items serve) (fun _ => Inv) s := by
  induction items generalizing s with
  | nil => exact start
  | cons i items ih =>
    rw [List.forM_cons, wp_bind]
    exact wp_imp (step i s start) fun _ s => ih

def Leads (R : σ → σ → Prop) (x : Stateful C A σ α) : Prop := ∀ s, wp x (fun _ => R s) s

section
variable {R : σ → σ → Prop}

theorem Leads.ret [Std.Refl R] {a : α} : Leads R (pure a : Stateful C A σ α) := fun s => .ret (Std.Refl.refl s)

theorem Leads.read [Std.Refl R] : Leads R (get : Stateful C A σ σ) := fun s => by
  exact Std.Refl.refl s

theorem Leads.update {f : σ → σ} (related : ∀ s, R s (f s)) : Leads R (modify f : Stateful C A σ PUnit) := fun s => by
  exact related s

theorem leads_call {c : C} (related : ∀ answer s, R s (note c answer s)) :
    Leads R (call note c : Stateful C A σ (A c)) := fun s => by
  exact fun answer => related answer s

theorem Leads.seq [IsTrans σ R] {x : Stateful C A σ β} (first : Leads R x)
    (rest : ∀ b, Leads R (f b)) : Leads R (x >>= f) := fun s =>
  wp_seq (first s) fun b between related => wp_imp (rest b between) fun _ _ => IsTrans.trans _ _ _ related

end

section
open Script
variable {f : Behaviour C A} {past : History C A}

def play (f : Behaviour C A) (x : Stateful C A σ α) (s : σ) (past : History C A) : (α × σ) × History C A :=
  (x.run s).play f past

theorem play_bind {x : Stateful C A σ β} {g : β → Stateful C A σ α} : play f (x >>= g) s past =
      play f (g (play f x s past).1.1) (play f x s past).1.2 (play f x s past).2 :=
  Script.play_bind

theorem play_pure {a : α} : play f (pure a : Stateful C A σ α) s past = ((a, s), past) := rfl

theorem play_get : play f (get : Stateful C A σ σ) s past = ((s, s), past) := rfl

theorem play_modify {g : σ → σ} : play f (modify g : Stateful C A σ PUnit) s past = ((⟨⟩, g s), past) := rfl

theorem of_wp (holds : wp x Q s) : Q (play f x s past).1.1 (play f x s past).1.2 := wp_iff.mp holds _ _ returns_play

end

-- the equations above take a precondition apart; unfolding it would run the script
attribute [irreducible] wp

end Stateful
end Duckgres.Base
