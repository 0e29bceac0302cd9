import Duckgres.Base.Machine
import Duckgres.Base.Table
import Mathlib.Logic.Function.Basic

/-!
# Exclusive locks

A lock table says which party holds each key. A party may acquire a key that it holds already, and
releases all its keys at once.

# Transactions under read committed

Transactions of several statements over shared tables. A statement sees what is committed when it
runs, and what its own transaction has written; nobody else sees that before the commit. The rows
that a transaction has written or selected for update, and the advisory locks that it has taken, are
its own until it ends: a statement of another transaction that needs one of them is not enabled.
-/

namespace Duckgres.Base
open List Function
open Option hiding filter_filter

def Locks (κ ι : Type*) := κ → Option ι

namespace Locks
variable {κ ι : Type*} [DecidableEq κ] [DecidableEq ι] {l next : Locks κ ι} {party other : ι} {k j : κ}

def Holds (l : Locks κ ι) (party : ι) (k : κ) : Prop := l k = some party

def acquire (l : Locks κ ι) (party : ι) (k : κ) : Option (Locks κ ι) :=
  if l k = none ∨ l k = some party then some (Function.update l k (some party)) else none

def release (l : Locks κ ι) (party : ι) : Locks κ ι := fun k => if l k = some party then none else l k

def acquireAll (l : Locks κ ι) (party : ι) (ks : List κ) : Option (Locks κ ι) :=
  if ks.all fun k => l k = none ∨ l k = some party then
    some fun k => if k ∈ ks then some party else l k
  else none

def free (l : Locks κ ι) (ks : List κ) : Bool := ks.all fun k => (l k).isNone

omit [DecidableEq κ] [DecidableEq ι] in
theorem Holds.unique (first : l.Holds party k) (second : l.Holds other k) : party = other :=
  Option.some.inj (first.symm.trans second)

theorem holds_acquire (acquired : l.acquire party k = some next) : next.Holds party k := by
  obtain ⟨-, ⟨⟩⟩ := ite_none_right_eq_some.mp acquired
  exact update_self ..

theorem Holds.acquire (held : l.Holds other j) (acquired : l.acquire party k = some next) : next.Holds other j := by
  obtain ⟨free, ⟨⟩⟩ := ite_none_right_eq_some.mp acquired
  by_cases hs : j = k
  · subst hs
    rcases free with none | own
    · cases held.symm.trans none
    · exact (update_self ..).trans (own.symm.trans held)
  · exact (update_of_ne hs ..).trans held

theorem holds_acquireAll {ks : List κ} (acquired : l.acquireAll party ks = some next) :
    ∀ k ∈ ks, next.Holds party k := by
  obtain ⟨-, ⟨⟩⟩ := ite_none_right_eq_some.mp acquired
  intro k hm
  exact if_pos hm

omit [DecidableEq κ] [DecidableEq ι] in
theorem Holds.not_free {ks : List κ} (held : l.Holds party k) (free : l.free ks = true) : k ∉ ks := by
  intro hm
  have unheld := all_eq_true.mp free k hm
  rw [held] at unheld
  cases unheld

theorem Holds.acquireAll {ks : List κ} (held : l.Holds other j)
    (acquired : l.acquireAll party ks = some next) : next.Holds other j := by
  obtain ⟨free, ⟨⟩⟩ := ite_none_right_eq_some.mp acquired
  by_cases hm : j ∈ ks
  · refine (if_pos hm).trans ?_
    rcases of_decide_eq_true (all_eq_true.mp free j hm) with none | own
    · cases held.symm.trans none
    · exact own.symm.trans held
  · exact (if_neg hm).trans held

omit [DecidableEq κ] in
theorem Holds.release (held : l.Holds other k) (ne : other ≠ party) : (l.release party).Holds other k := by
  rw [Holds, Locks.release, if_neg]
  · exact held
  · intro own
    exact ne (Holds.unique held own)

end Locks

structure Pending {κ ρ : Type*} (key : ρ → κ) where
  dropped : List κ
  put : Option ρ

namespace Pending
variable {κ ρ : Type*} {key : ρ → κ} [DecidableEq κ] {p : Pending key} {t : Table key} {k : κ}

def none : Pending key := ⟨[], .none⟩

def drop (p : Pending key) (ks : List κ) : Pending key := { p with dropped := p.dropped ++ ks }

def set (p : Pending key) (row : ρ) : Pending key := { p with put := some row }

def rest (p : Pending key) (t : Table key) : Table key := t.filter fun row => key row ∉ p.dropped

def apply (p : Pending key) (t : Table key) : Table key := match p.put with
  | .none => p.rest t
  | some row => (p.rest t).upsert row

def keys (p : Pending key) : List κ := p.dropped ++ p.put.toList.map key

omit [DecidableEq κ] in
theorem mem_keys_drop {ks : List κ} : k ∈ (p.drop ks).keys ↔ k ∈ p.keys ∨ k ∈ ks := by
  simp only [keys, drop, mem_append]
  tauto

variable {row : ρ}

omit [DecidableEq κ] in
theorem mem_keys_set (hm : k ∈ (p.set row).keys) : k ∈ p.keys ∨ k = key row := by
  rcases mem_append.mp hm with dropped | written
  · exact .inl (mem_append_left _ dropped)
  · exact .inr (mem_singleton.mp written)

theorem find?_rest (p : Pending key) (t : Table key) (k : κ) :
    (p.rest t).find? k = if k ∈ p.dropped then .none else t.find? k := by
  unfold rest
  rw [Table.find?_filter]
  cases hf : t.find? k with
  | none => simp
  | some row => simp [Table.key_of_find? hf, Option.filter]

theorem rest_none (t : Table key) : none.rest t = t := Table.ext (by simp [rest, none, Table.filter])

theorem mem_rest_filter (hm : row ∈ t.rows) (kept : key row ∉ p.dropped) (q : ρ → Bool) :
    key row ∈ ((p.rest t).rows.filter q).map key ↔ q row = true := by
  constructor
  · intro deleted
    obtain ⟨other, otherMember, otherKey⟩ := mem_map.mp deleted
    obtain ⟨otherRest, holds⟩ := mem_filter.mp otherMember
    have hf := Table.find?_eq_some.mpr ⟨mem_of_mem_filter otherRest, otherKey⟩
    cases hf.symm.trans (Table.find?_eq_some.mpr ⟨hm, rfl⟩)
    exact holds
  · intro holds
    have rest : row ∈ (p.rest t).rows := mem_filter.mpr ⟨hm, decide_eq_true kept⟩
    exact mem_map_of_mem (mem_filter.mpr ⟨rest, holds⟩)

theorem rest_drop (p : Pending key) (t : Table key) (q : ρ → Bool) :
    (p.drop (((p.rest t).rows.filter q).map key)).rest t = (p.rest t).filter fun row => !q row := by
  refine Table.ext ?_
  change t.rows.filter _ = (t.rows.filter _).filter _
  rw [filter_filter]
  refine filter_congr fun row hm => ?_
  by_cases dropped : key row ∈ p.dropped
  · simp [drop, dropped]
  · have hs := mem_rest_filter hm dropped q
    simp only [drop, mem_append, dropped, hs]
    cases q row <;> rfl

theorem rest_drop_key (t : Table key) (k : κ) :
    (none.drop ((t.find? k).toList.map key)).rest t = t.filter fun row => key row ≠ k := by
  refine Table.ext (filter_congr fun row hm => ?_)
  have hs : key row ∈ (t.find? k).toList.map key ↔ key row = k := by
    refine ⟨Table.key_of_mem_find?, fun sameKey => ?_⟩
    have hf := Table.find?_eq_some.mpr ⟨hm, sameKey⟩
    exact mem_map_of_mem (mem_toList.mpr hf)
  simp [drop, none, nil_append, hs]

theorem find?_apply_of_not_mem (absent : k ∉ p.keys) : (p.apply t).find? k = t.find? k := by
  obtain ⟨kept, other⟩ := not_or.mp (mt mem_append.mpr absent)
  unfold apply
  split
  · rw [find?_rest, if_neg kept]
  · rename_i row written
    rw [Table.find?_upsert_of_ne, find?_rest, if_neg kept]
    rintro rfl
    exact other (by simp [written])

theorem apply_of_put_none (written : p.put = .none) : p.apply t = p.rest t := by
  unfold apply
  rw [written]

theorem find?_apply_put (written : p.put = some row) : (p.apply t).find? (key row) = some row := by
  unfold apply
  rw [written]
  exact Table.find?_upsert _ row

theorem find?_apply_of_ne (written : p.put = some row) (ne : k ≠ key row) :
    (p.apply t).find? k = (p.rest t).find? k := by
  unfold apply
  rw [written]
  exact Table.find?_upsert_of_ne _ ne

theorem apply_cases (hf : (p.apply t).find? k = some row) :
    p.put = some row ∧ key row = k ∨ k ∉ p.dropped ∧ t.find? k = some row := by
  have kept (rest : (p.rest t).find? k = some row) : k ∉ p.dropped ∧ t.find? k = some row := by
    rw [find?_rest] at rest
    split at rest
    · cases rest
    · rename_i absent
      exact ⟨absent, rest⟩
  cases written : p.put with
  | none =>
    rw [apply_of_put_none written] at hf
    exact .inr (kept hf)
  | some new =>
    by_cases hs : k = key new
    · subst hs
      rw [find?_apply_put written] at hf
      cases hf
      exact .inl ⟨rfl, rfl⟩
    · rw [find?_apply_of_ne written hs] at hf
      exact .inr (kept hf)

end Pending

structure Transactions (σ τ κ α β δ : Type*) where
  start : β → τ
  -- one statement of an open transaction, over the committed state
  statement : σ → τ → α → Option τ
  view : σ → τ → σ
  -- `none`: there are statements to come, or the transaction has ended
  finish : τ → Option τ
  abort : τ → Option τ
  locks : τ → List κ
  -- a statement that is a transaction of its own, and the rows it writes
  single : σ → δ → Option (σ × List κ)
  locks_start : ∀ arg, locks (start arg) = []
  locks_finish : ∀ t next, finish t = some next → locks next = []
  locks_abort : ∀ t next, abort t = some next → locks next = []

structure Db (σ τ κ : Type*) where
  rows : σ
  txs : Nat → Option τ
  locks : Locks κ Nat

inductive DbStep (α β δ : Type*) where
  | start (tx : Nat) (arg : β)
  | statement (tx : Nat) (a : α)
  | commit (tx : Nat)
  | abort (tx : Nat)
  | single (d : δ)

namespace Db
variable {σ τ κ : Type*}

def init (rows : σ) : Db σ τ κ := ⟨rows, fun _ => none, fun _ => none⟩

def set (s : Db σ τ κ) (tx : Nat) (t : τ) : Db σ τ κ := { s with txs := Function.update s.txs tx (some t) }

def ended (s : Db σ τ κ) (tx : Nat) (t : τ) : Db σ τ κ := { s.set tx t with locks := s.locks.release tx }

theorem forall_txs_set {s : Db σ τ κ} {tx : Nat} {t : τ} {p : Nat → τ → Prop} (own : p tx t)
    (others : ∀ other d, other ≠ tx → s.txs other = some d → p other d) :
    ∀ other d, (s.set tx t).txs other = some d → p other d := by
  intro other d hf
  by_cases hs : other = tx
  · subst hs
    cases (update_self ..).symm.trans hf
    exact own
  · exact others other d hs ((update_of_ne hs ..).symm.trans hf)

end Db

namespace Transactions
variable {σ τ κ α β δ : Type*} [DecidableEq κ] (P : Transactions σ τ κ α β δ)

def machine : Machine (Db σ τ κ) (DbStep α β δ) where
  step s
    | .start tx arg => match s.txs tx with
      | none => some (s.set tx (P.start arg))
      | some _ => none
    | .statement tx a => (s.txs tx).bind fun t => (P.statement s.rows t a).bind fun next =>
      (s.locks.acquireAll tx (P.locks next)).map fun locks => { s.set tx next with locks := locks }
    | .commit tx => (s.txs tx).bind fun t => (P.finish t).map fun next =>
      { s.ended tx next with rows := P.view s.rows t }
    | .abort tx => (s.txs tx).bind fun t => (P.abort t).map fun next => s.ended tx next
    | .single d => (P.single s.rows d).bind fun (rows, ks) =>
      if s.locks.free ks then some { s with rows := rows } else none

inductive Takes (s : Db σ τ κ) : DbStep α β δ → Db σ τ κ → Prop
  | start {tx : Nat} {arg : β} (fresh : s.txs tx = none) : Takes s (.start tx arg) (s.set tx (P.start arg))
  | statement {tx : Nat} {a : α} {t next : τ} {locks : Locks κ Nat} (found : s.txs tx = some t)
      (moved : P.statement s.rows t a = some next)
      (acquired : s.locks.acquireAll tx (P.locks next) = some locks) :
      Takes s (.statement tx a) { s.set tx next with locks := locks }
  | commit {tx : Nat} {t next : τ} (found : s.txs tx = some t) (done : P.finish t = some next) :
      Takes s (.commit tx) { s.ended tx next with rows := P.view s.rows t }
  | abort {tx : Nat} {t next : τ} (found : s.txs tx = some t) (done : P.abort t = some next) :
      Takes s (.abort tx) (s.ended tx next)
  | single {d : δ} {rows : σ} {ks : List κ} (moved : P.single s.rows d = some (rows, ks))
      (free : s.locks.free ks = true) : Takes s (.single d) { s with rows := rows }

variable {P} {s : Db σ τ κ}

theorem takes_of_step {after : Db σ τ κ} {step : DbStep α β δ}
    (ha : P.machine.step s step = some after) : P.Takes s step after := by
  cases step with
  | start =>
    simp only [machine] at ha
    split at ha
    · rename_i fresh
      cases ha
      exact .start fresh
    · cases ha
  | statement =>
    obtain ⟨t, hf, ha⟩ := bind_eq_some_iff.mp ha
    obtain ⟨next, moved, ha⟩ := bind_eq_some_iff.mp ha
    obtain ⟨locks, acquired, rfl⟩ := map_eq_some_iff.mp ha
    exact .statement hf moved acquired
  | commit =>
    obtain ⟨t, hf, ha⟩ := bind_eq_some_iff.mp ha
    obtain ⟨next, done, rfl⟩ := map_eq_some_iff.mp ha
    exact .commit hf done
  | abort =>
    obtain ⟨t, hf, ha⟩ := bind_eq_some_iff.mp ha
    obtain ⟨next, done, rfl⟩ := map_eq_some_iff.mp ha
    exact .abort hf done
  | single =>
    obtain ⟨⟨rows, ks⟩, moved, ha⟩ := bind_eq_some_iff.mp ha
    obtain ⟨free, ⟨⟩⟩ := ite_none_right_eq_some.mp ha
    exact .single moved free

variable (P) in
structure Holds (Inv : σ → Prop) (Own : σ → Nat → τ → Prop) (s : Db σ τ κ) : Prop where
  held : ∀ tx t, s.txs tx = some t → ∀ k ∈ P.locks t, s.locks.Holds tx k
  rows : Inv s.rows
  own : ∀ tx t, s.txs tx = some t → Own s.rows tx t

variable {Inv : σ → Prop} {Own : σ → Nat → τ → Prop}

omit [DecidableEq κ] in
theorem holds_init {rows : σ} (start : Inv rows) : P.Holds Inv Own (.init rows) where
  held _ _ hf := by cases hf
  rows := start
  own _ _ hf := by cases hf

variable (P) in
/-- The obligations of an invariant, in states that are `Known`: a step keeps the assertion of its
own transaction, and what becomes visible by it keeps the invariant and the assertions of all
others. The locks of two transactions are disjoint. -/
structure Keeps (Known : Db σ τ κ → Prop) (allowed : Db σ τ κ → DbStep α β δ → Prop)
    (Inv : σ → Prop) (Own : σ → Nat → τ → Prop) : Prop where
  start : ∀ s tx arg, Known s → P.Holds Inv Own s → allowed s (.start tx arg) → Own s.rows tx (P.start arg)
  statement : ∀ s tx a t next, Known s → P.Holds Inv Own s → allowed s (.statement tx a) →
    s.txs tx = some t → P.statement s.rows t a = some next → Own s.rows tx next
  commit : ∀ s tx t next, Known s → P.Holds Inv Own s → allowed s (.commit tx) →
    s.txs tx = some t → P.finish t = some next → Inv (P.view s.rows t) ∧ Own (P.view s.rows t) tx next
  stable : ∀ s tx t next other d, Known s → P.Holds Inv Own s → allowed s (.commit tx) →
    s.txs tx = some t → P.finish t = some next → s.txs other = some d →
    (∀ k ∈ P.locks t, k ∉ P.locks d) → Own (P.view s.rows t) other d
  abort : ∀ s tx t next, Known s → P.Holds Inv Own s → allowed s (.abort tx) →
    s.txs tx = some t → P.abort t = some next → Own s.rows tx next
  single : ∀ s d rows ks, Known s → P.Holds Inv Own s → allowed s (.single d) →
    P.single s.rows d = some (rows, ks) → Inv rows
  unmoved : ∀ s d rows ks tx t, Known s → P.Holds Inv Own s → allowed s (.single d) →
    P.single s.rows d = some (rows, ks) → s.txs tx = some t → (∀ k ∈ ks, k ∉ P.locks t) → Own rows tx t

omit [DecidableEq κ] in
theorem held_ended (holds : P.Holds Inv Own s) {tx : Nat} {next : τ} (none : P.locks next = []) :
    ∀ other d, (s.ended tx next).txs other = some d → ∀ k ∈ P.locks d,
      (s.locks.release tx).Holds other k := by
  refine Db.forall_txs_set ?_ fun other d apart hf k hm => ?_
  · intro k hm
    rw [none] at hm
    cases hm
  · exact (holds.held other d hf k hm).release apart

variable {allowed : Db σ τ κ → DbStep α β δ → Prop}

theorem holds_step {Known : Db σ τ κ → Prop} (keeps : P.Keeps Known allowed Inv Own) {after : Db σ τ κ}
    {step : DbStep α β δ} (hk : Known s) (holds : P.Holds Inv Own s)
    (here : allowed s step) (ha : P.machine.step s step = some after) : P.Holds Inv Own after := by
  cases takes_of_step ha with
  | @start tx arg =>
    have own := keeps.start s tx arg hk holds here
    refine ⟨Db.forall_txs_set ?_ fun other d _ => holds.held other d, holds.rows,
      Db.forall_txs_set own fun other d _ => holds.own other d⟩
    intro k hm
    rw [P.locks_start] at hm
    cases hm
  | @statement tx a t next _ hf moved acquired =>
    have own := keeps.statement s tx a t next hk holds here hf moved
    refine ⟨Db.forall_txs_set (Locks.holds_acquireAll acquired) ?_, holds.rows,
      Db.forall_txs_set own fun other d _ => holds.own other d⟩
    intro other d _ hfo k hm
    exact (holds.held other d hfo k hm).acquireAll acquired
  | @commit tx t next hf done =>
    obtain ⟨inv, own⟩ := keeps.commit s tx t next hk holds here hf done
    refine ⟨held_ended holds (P.locks_finish t next done), inv, Db.forall_txs_set own ?_⟩
    intro other d apart hfo
    refine keeps.stable s tx t next other d hk holds here hf done hfo ?_
    intro k mine theirs
    exact apart ((holds.held other d hfo k theirs).unique (holds.held tx t hf k mine))
  | @abort tx t next hf done =>
    have own := keeps.abort s tx t next hk holds here hf done
    exact ⟨held_ended holds (P.locks_abort t next done), holds.rows,
      Db.forall_txs_set own fun other d _ => holds.own other d⟩
  | @single d rows ks moved free =>
    refine ⟨holds.held, keeps.single s d rows ks hk holds here moved, fun tx t hf => ?_⟩
    refine keeps.unmoved s d rows ks tx t hk holds here moved hf fun k written mine => ?_
    exact (holds.held tx t hf k mine).not_free free written

theorem holds_of_obeys {Known : Db σ τ κ → Prop} (keeps : P.Keeps Known allowed Inv Own)
    (stays : ∀ s step after, Known s → P.machine.step s step = some after → Known after) {final : Db σ τ κ}
    {steps : List (DbStep α β δ)} (hk : Known s) (start : P.Holds Inv Own s)
    (obeys : P.machine.Obeys allowed s steps) (run : P.machine.run s steps = some final) :
    P.Holds Inv Own final := by
  refine (P.machine.invariant_of_obeys (fun s => Known s ∧ P.Holds Inv Own s) ?_ ⟨hk, start⟩ obeys run).2
  intro s step after ⟨hk, holds⟩ here ha
  exact ⟨stays s step after hk ha, holds_step keeps hk holds here ha⟩

end Transactions

end Duckgres.Base
