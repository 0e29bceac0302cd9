import Mathlib.Data.List.Basic
import Mathlib.Data.List.MinMax
import Mathlib.Data.List.Nodup
import Mathlib.Data.List.Perm.Subperm

/-!
# Keyed tables

A table is a list of rows with a primary key. The key constraint is a field, so that a table with
two rows of one key cannot be built: inserting a taken key fails, and an update cannot touch the key.
-/

namespace Duckgres.Base
open List Option

structure Table {κ ρ : Type*} (key : ρ → κ) where
  rows : List ρ
  keys_nodup : (rows.map key).Nodup

/-- A guarded update of one row: `none` where the guard fails. -/
structure Update {κ ρ : Type*} (key : ρ → κ) where
  apply : ρ → Option ρ
  key_apply : ∀ row next, apply row = some next → key next = key row

namespace Update
variable {κ ρ : Type*} {key : ρ → κ}

theorem key_getD (u : Update key) (row : ρ) : key ((u.apply row).getD row) = key row := by
  cases hap : u.apply row with
  | none => rfl
  | some next => exact u.key_apply row next hap

def guarded (guard : ρ → Bool) (set : ρ → ρ) (keepsKey : ∀ row, key (set row) = key row) : Update key where
  apply row := if guard row then some (set row) else none
  key_apply row next hap := by
    obtain ⟨-, ⟨⟩⟩ := Option.ite_none_right_eq_some.mp hap
    exact keepsKey row

theorem guarded_apply {guard : ρ → Bool} {set : ρ → ρ} {keepsKey : ∀ row, key (set row) = key row} {row next : ρ} :
    (guarded guard set keepsKey).apply row = some next ↔ guard row = true ∧ set row = next := by
  simp [guarded]

theorem guarded_getD (guard : ρ → Bool) {set : ρ → ρ} (keepsKey : ∀ row, key (set row) = key row)
    (row : ρ) : ((guarded guard set keepsKey).apply row).getD row = row ∨
      guard row = true ∧ ((guarded guard set keepsKey).apply row).getD row = set row := by
  cases passed : guard row with
  | false => simp [guarded, passed]
  | true => simp [guarded, passed]

end Update

namespace Table
variable {κ ρ : Type*} {key : ρ → κ} {t : Table key}

theorem ext {s : Table key} (h : s.rows = t.rows) : s = t := by
  cases s
  cases t
  simpa using h

def empty : Table key := ⟨[], List.nodup_nil⟩

def filter (t : Table key) (p : ρ → Bool) : Table key :=
  ⟨t.rows.filter p, t.keys_nodup.sublist (List.filter_sublist.map key)⟩

variable {k : κ} {row : ρ}

section Lookup
variable [DecidableEq κ]

def find? (t : Table key) (k : κ) : Option ρ := t.rows.find? fun row => key row = k

theorem find?_eq_some : t.find? k = some row ↔ row ∈ t.rows ∧ key row = k := by
  constructor
  · intro hf
    exact ⟨mem_of_find?_eq_some hf, by simpa using find?_some hf⟩
  · rintro ⟨hm, rfl⟩
    cases hf : t.find? (key row) with
    | none =>
      have absent := find?_eq_none.mp hf row hm
      simp at absent
    | some other =>
      have keyEq : key other = key row := by simpa using find?_some hf
      exact congrArg some (inj_on_of_nodup_map t.keys_nodup (mem_of_find?_eq_some hf) hm keyEq)

theorem find?_eq_none : t.find? k = none ↔ ∀ row ∈ t.rows, key row ≠ k := by
  simp [find?]

theorem key_of_find? (hf : t.find? k = some row) : key row = k := (find?_eq_some.mp hf).2

theorem key_of_mem_find? {other} (hm : other ∈ (t.find? k).toList.map key) : other = k := by
  obtain ⟨row, hf, rfl⟩ := mem_map.mp hm
  exact key_of_find? (Option.mem_toList.mp hf)

theorem find?_filter (t : Table key) (p : ρ → Bool) (k : κ) : (t.filter p).find? k = (t.find? k).filter p := by
  cases hf : t.find? k with
  | none =>
    rw [filter_none]
    rw [find?_eq_none] at hf ⊢
    exact fun row hm => hf row (mem_of_mem_filter hm)
  | some row =>
    obtain ⟨hm, hs⟩ := find?_eq_some.mp hf
    by_cases kept : p row = true
    · rw [filter_some_pos kept]
      exact find?_eq_some.mpr ⟨mem_filter.mpr ⟨hm, kept⟩, hs⟩
    rw [filter_some_neg (by simpa using kept), find?_eq_none]
    intro other otherMember otherKey
    obtain ⟨otherMember, otherKept⟩ := mem_filter.mp otherMember
    cases hf.symm.trans (find?_eq_some.mpr ⟨otherMember, otherKey⟩)
    exact kept otherKept

theorem find?_filter_self (t : Table key) (k : κ) : (t.filter fun row => key row ≠ k).find? k = none := by
  rw [find?_filter]
  cases hf : t.find? k with
  | none => rfl
  | some row => simp [key_of_find? hf]

theorem find?_filter_of_ne (t : Table key) {other : κ} (ne : other ≠ k) :
    (t.filter fun row => key row ≠ k).find? other = t.find? other := by
  rw [find?_filter]
  cases hf : t.find? other with
  | none => rfl
  | some row => simp [key_of_find? hf, ne]

def Related (R : ρ → ρ → Prop) (t later : Table key) : Prop :=
  ∀ k row, t.find? k = some row → ∃ next, later.find? k = some next ∧ R row next

theorem Related.refl {R : ρ → ρ → Prop} (refl : ∀ row, R row row) (t : Table key) : Related R t t :=
  fun _ row hf => ⟨row, hf, refl row⟩

theorem Related.trans {R : ρ → ρ → Prop} (trans : ∀ {a b c}, R a b → R b c → R a c)
    {first second third : Table key} (left : Related R first second)
    (right : Related R second third) : Related R first third := by
  intro k row hf
  obtain ⟨middle, middleFound, fromFirst⟩ := left k row hf
  obtain ⟨last, lastFound, toLast⟩ := right k middle middleFound
  exact ⟨last, lastFound, trans fromFirst toLast⟩

end Lookup

variable {u : Update key}

section Modify
variable [DecidableEq κ]

def rewrite (k : κ) (u : Update key) (row : ρ) : ρ := if key row = k then (u.apply row).getD row else row

theorem key_rewrite (k : κ) (u : Update key) (row : ρ) : key (rewrite k u row) = key row := by
  unfold rewrite
  split
  · exact u.key_getD row
  · rfl

def modify (t : Table key) (k : κ) (u : Update key) : Table key where
  rows := t.rows.map (rewrite k u)
  keys_nodup := by
    rw [List.map_map, show key ∘ rewrite k u = key from funext (key_rewrite k u)]
    exact t.keys_nodup

def affects (t : Table key) (k : κ) (u : Update key) : Bool := (t.find? k).any fun row => (u.apply row).isSome

theorem find?_modify (t : Table key) (k : κ) (u : Update key) :
    (t.modify k u).find? k = (t.find? k).map fun row => (u.apply row).getD row := by
  cases hf : t.find? k with
  | none =>
    rw [find?_eq_none] at hf
    rw [map_none, find?_eq_none]
    intro row hm
    obtain ⟨old, oldMember, rfl⟩ := mem_map.mp hm
    exact fun hs => hf old oldMember ((key_rewrite k u old).symm.trans hs)
  | some row =>
    obtain ⟨hm, rfl⟩ := find?_eq_some.mp hf
    rw [map_some, find?_eq_some]
    refine ⟨mem_map.mpr ⟨row, hm, by simp [rewrite]⟩, ?_⟩
    have hs := key_rewrite (key row) u row
    simpa [rewrite] using hs

theorem find?_modify_of_apply {next : ρ} (hf : t.find? k = some row) (hap : u.apply row = some next) :
    (t.modify k u).find? k = some next := by
  rw [find?_modify, hf, map_some, hap, getD_some]

theorem find?_modify_of_ne (t : Table key) {other : κ} (u : Update key) (ne : other ≠ k) :
    (t.modify k u).find? other = t.find? other := by
  have pointwise (row : ρ) (atKey : key row = other) : rewrite k u row = row := by
    rw [rewrite, if_neg (fun hs => ne (atKey.symm.trans hs))]
  cases hf : t.find? other with
  | none =>
    rw [find?_eq_none] at hf ⊢
    intro row hm
    obtain ⟨old, oldMember, rfl⟩ := mem_map.mp hm
    exact fun hs => hf old oldMember ((key_rewrite k u old).symm.trans hs)
  | some row =>
    rw [find?_eq_some] at hf ⊢
    exact ⟨mem_map.mpr ⟨row, hf.1, pointwise row hf.2⟩, hf.2⟩

theorem find?_modify_cases (k : κ) {other : κ} (hf : t.find? other = some row) : (t.modify k u).find? other = some row ∨
      ∃ next, u.apply row = some next ∧ (t.modify k u).find? other = some next := by
  by_cases hs : other = k
  · subst hs
    rw [find?_modify, hf, map_some]
    cases hap : u.apply row with
    | none => exact .inl rfl
    | some next => exact .inr ⟨next, rfl, rfl⟩
  · exact .inl ((find?_modify_of_ne t u hs).trans hf)

theorem mem_modify_of_mem (k : κ) (hm : row ∈ t.rows) :
    row ∈ (t.modify k u).rows ∨ ∃ next ∈ (t.modify k u).rows, u.apply row = some next := by
  rcases find?_modify_cases k (find?_eq_some.mpr ⟨hm, rfl⟩) with hs | ⟨next, hap, hf⟩
  · exact .inl (find?_eq_some.mp hs).1
  · exact .inr ⟨next, (find?_eq_some.mp hf).1, hap⟩

theorem modify_of_not_affects (missed : t.affects k u = false) : t.modify k u = t := by
  apply ext
  refine (map_congr_left fun row hm => ?_).trans (map_id _)
  unfold rewrite
  split
  · rename_i atKey
    have hf := find?_eq_some.mpr ⟨hm, atKey⟩
    simp only [affects, hf, any_some, isSome_eq_false_iff, isNone_iff_eq_none] at missed
    simp [missed]
  · rfl

theorem affects_iff : t.affects k u = true ↔ ∃ row next, t.find? k = some row ∧ u.apply row = some next := by
  cases hf : t.find? k with
  | none => simp [affects, hf]
  | some row => simp [affects, hf, isSome_iff_exists]

end Modify

variable {next : Table key}

section Insert
variable [DecidableEq κ]

def insert? (t : Table key) (row : ρ) : Option (Table key) :=
  if fresh : t.find? (key row) = none then
    some ⟨t.rows ++ [row], by
      rw [List.map_append, List.nodup_append]
      refine ⟨t.keys_nodup, by simp, ?_⟩
      intro k old k' new hs
      obtain ⟨oldRow, hm, rfl⟩ := List.mem_map.mp old
      simp only [List.map_cons, List.map_nil, List.mem_singleton] at new
      exact find?_eq_none.mp fresh oldRow hm (hs.trans new)⟩
  else none

theorem insert?_eq_some (hi : t.insert? row = some next) : t.find? (key row) = none ∧ next.rows = t.rows ++ [row] := by
  unfold insert? at hi
  split at hi
  · rename_i fresh
    cases hi
    exact ⟨fresh, rfl⟩
  · cases hi

theorem find?_of_insert?_eq_none (taken : t.insert? row = none) : ∃ old, t.find? (key row) = some old := by
  unfold insert? at taken
  split at taken
  · cases taken
  · rename_i hk
    exact ne_none_iff_exists'.mp hk

section
variable (hi : t.insert? row = some next)
include hi

theorem find?_insert : next.find? (key row) = some row := by
  rw [find?_eq_some, (insert?_eq_some hi).2]
  exact ⟨by simp, rfl⟩

theorem find?_insert_of_ne (ne : k ≠ key row) : next.find? k = t.find? k := by
  unfold find?
  rw [(insert?_eq_some hi).2]
  simp [ne.symm]

theorem find?_insert_of_some {old : ρ} (hf : t.find? k = some old) :
    next.find? k = some old := by
  rw [find?_insert_of_ne hi, hf]
  rintro rfl
  rw [(insert?_eq_some hi).1] at hf
  cases hf

end

end Insert

section Upsert
variable [DecidableEq κ]

def replacement (row : ρ) : Update key where
  apply old := if key old = key row then some row else none
  key_apply old next hap := by
    obtain ⟨hs, ⟨⟩⟩ := Option.ite_none_right_eq_some.mp hap
    exact hs.symm

def upsert (t : Table key) (row : ρ) : Table key := (t.insert? row).getD (t.modify (key row) (replacement row))

theorem find?_upsert (t : Table key) (row : ρ) : (t.upsert row).find? (key row) = some row := by
  unfold upsert
  cases hi : t.insert? row with
  | some next => exact find?_insert hi
  | none =>
    obtain ⟨old, hf⟩ := find?_of_insert?_eq_none hi
    rw [getD_none, find?_modify, hf]
    simp [replacement, key_of_find? hf]

theorem find?_upsert_of_ne (t : Table key) (ne : k ≠ key row) : (t.upsert row).find? k = t.find? k := by
  unfold upsert
  cases hi : t.insert? row with
  | some next => exact find?_insert_of_ne hi ne
  | none => exact find?_modify_of_ne t _ ne

theorem mem_rows_upsert {other : ρ} (hm : other ∈ (t.upsert row).rows) : other = row ∨ other ∈ t.rows := by
  have hf := find?_eq_some.mpr ⟨hm, rfl⟩
  by_cases hs : key other = key row
  · rw [hs, find?_upsert] at hf
    exact .inl (Option.some.inj hf).symm
  · rw [find?_upsert_of_ne t hs] at hf
    exact .inr (find?_eq_some.mp hf).1

theorem mem_upsert_of_mem (row : ρ) {old : ρ} (hm : old ∈ t.rows) : old ∈ (t.upsert row).rows ∨ key old = key row := by
  by_cases hs : key old = key row
  · exact .inr hs
  · have hf := find?_upsert_of_ne t hs
    rw [find?_eq_some.mpr ⟨hm, rfl⟩] at hf
    exact .inl (find?_eq_some.mp hf).1

end Upsert

section UpdateAll

def updateAll (t : Table key) (u : Update key) : Table key where
  rows := t.rows.map fun row => (u.apply row).getD row
  keys_nodup := by
    rw [List.map_map, show key ∘ (fun row => (u.apply row).getD row) = key from funext u.key_getD]
    exact t.keys_nodup

theorem find?_updateAll [DecidableEq κ] (t : Table key) (k : κ) (u : Update key) :
    (t.updateAll u).find? k = (t.find? k).map fun row => (u.apply row).getD row := by
  have same : (fun row => decide (key row = k)) ∘ (fun row => (u.apply row).getD row) =
      fun row => decide (key row = k) := funext fun row => by rw [Function.comp, u.key_getD]
  unfold find? updateAll
  rw [find?_map, same]

end UpdateAll

variable {p : ρ → Bool}

section Count

def count (t : Table key) (p : ρ → Bool) : Nat := t.rows.countP p

theorem count_insert [DecidableEq κ] (hi : t.insert? row = some next) (p : ρ → Bool) :
    next.count p = t.count p + (p row).toNat := by
  rw [count, (insert?_eq_some hi).2, count]
  cases holds : p row <;> simp [holds]

theorem count_insert_le [DecidableEq κ]
    (hi : t.insert? row = some next) (p : ρ → Bool) : next.count p ≤ t.count p + 1 := by
  rw [count_insert hi p]
  exact Nat.add_le_add_left (Bool.toNat_le _) _

theorem countP_map_rewrite [DecidableEq κ] {rows : List ρ} (nodup : (rows.map key).Nodup)
    (u : Update key) (p : ρ → Bool) {next : ρ} (hm : row ∈ rows)
    (hap : u.apply row = some next) :
    (rows.map (rewrite (key row) u)).countP p + (p row).toNat =
      rows.countP p + (p next).toNat := by
  induction rows with
  | nil => cases hm
  | cons head tail ih =>
    rw [map_cons, nodup_cons] at nodup
    simp only [map_cons, countP_cons]
    rcases mem_cons.mp hm with rfl | inTail
    · -- the key of the head does not occur in the tail, so the tail is left alone
      have tailSame : tail.map (rewrite (key row) u) = tail := by
        refine (map_congr_left fun other otherMember => ?_).trans (map_id _)
        rw [rewrite, if_neg, id]
        exact fun hs => nodup.1 (mem_map.mpr ⟨other, otherMember, hs⟩)
      have headNew : rewrite (key row) u row = next := by simp [rewrite, hap]
      rw [tailSame, headNew]
      cases p row <;> cases p next <;> simp
    · have headSame : rewrite (key row) u head = head := by
        rw [rewrite, if_neg]
        exact fun hs => nodup.1 (mem_map.mpr ⟨row, inTail, hs.symm⟩)
      have rest := ih nodup.2 inTail
      rw [headSame]
      omega

theorem count_modify [DecidableEq κ] {next : ρ}
    (hf : t.find? k = some row) (hap : u.apply row = some next) (p : ρ → Bool) :
    (t.modify k u).count p + (p row).toNat = t.count p + (p next).toNat := by
  obtain ⟨hm, rfl⟩ := find?_eq_some.mp hf
  exact countP_map_rewrite t.keys_nodup u p hm hap

theorem count_modify_of_keeps [DecidableEq κ] (t : Table key) (k : κ)
    (keeps : ∀ row next, u.apply row = some next → p next = p row) : (t.modify k u).count p = t.count p := by
  cases hit : t.affects k u with
  | false => rw [modify_of_not_affects hit]
  | true =>
    obtain ⟨row, next, hf, hap⟩ := affects_iff.mp hit
    have moved := count_modify hf hap p
    rw [keeps row next hap] at moved
    exact Nat.add_right_cancel moved

theorem count_updateAll_of_keeps (t : Table key)
    (keeps : ∀ row next, u.apply row = some next → p next = p row) : (t.updateAll u).count p = t.count p := by
  rw [count, updateAll, countP_map]
  apply countP_congr
  intro row _
  cases hap : u.apply row with
  | none => simp [hap]
  | some next => simp [hap, keeps row next hap]

theorem count_modify_le [DecidableEq κ] (p : ρ → Bool)
    (shrinks : ∀ row next, t.find? k = some row → u.apply row = some next → p next = true → p row = true) :
    (t.modify k u).count p ≤ t.count p := by
  cases hit : t.affects k u with
  | false => rw [modify_of_not_affects hit]
  | true =>
    obtain ⟨row, next, hf, hap⟩ := affects_iff.mp hit
    have moved := count_modify hf hap p
    have bound := shrinks row next hf hap
    cases old : p row <;> cases new : p next <;>
      simp only [old, new, Bool.toNat_false] at moved bound <;> first | omega | contradiction

theorem count_modify_le_succ [DecidableEq κ] (p : ρ → Bool) : (t.modify k u).count p ≤ t.count p + 1 := by
  cases hit : t.affects k u with
  | false =>
    rw [modify_of_not_affects hit]
    exact Nat.le_succ _
  | true =>
    obtain ⟨row, next, hf, hap⟩ := affects_iff.mp hit
    have moved := count_modify hf hap p
    have small := Bool.toNat_le (p next)
    omega

theorem count_upsert_le [DecidableEq κ] (t : Table key) (row : ρ) (p : ρ → Bool) :
    (t.upsert row).count p ≤ t.count p + (p row).toNat := by
  unfold upsert
  cases hi : t.insert? row with
  | some next => exact Nat.le_of_eq (count_insert hi p)
  | none =>
    obtain ⟨old, hf⟩ := find?_of_insert?_eq_none hi
    have hap : (replacement row : Update key).apply old = some row := by
      simp [replacement, key_of_find? hf]
    have moved := count_modify hf hap p
    simp only [getD_none]
    omega

theorem count_le_add (t : Table key) {q r : ρ → Bool}
    (either : ∀ row ∈ t.rows, p row = true → q row = true ∨ r row = true) :
    t.count p ≤ t.count q + t.count r := by
  unfold count
  generalize t.rows = rows at either
  induction rows with
  | nil => simp
  | cons row rows ih =>
    have rest := ih fun other hm => either other (mem_cons_of_mem _ hm)
    have here := either row mem_cons_self
    simp only [countP_cons]
    by_cases first : p row = true
    · rcases here first with holds | holds
      · simp only [first, holds]
        omega
      · simp only [first, holds]
        omega
    · rw [if_neg first]
      omega

theorem length_filter_ne [DecidableEq κ] (hf : t.find? k = some row) :
    (t.filter fun other => key other ≠ k).rows.length + 1 = t.rows.length := by
  obtain ⟨hm, atKey⟩ := find?_eq_some.mp hf
  have once : t.rows.countP (fun other => key other = k) = 1 := by
    have counted := count_eq_one_of_mem t.keys_nodup (mem_map.mpr ⟨row, hm, atKey⟩)
    rw [List.count, countP_map] at counted
    rw [← counted]
    apply countP_congr
    simp
  have split := length_eq_countP_add_countP (fun other => decide (key other = k)) (l := t.rows)
  rw [once, countP_eq_length_filter] at split
  simp only [decide_eq_true_eq] at split
  simp only [filter, ne_eq]
  omega

theorem count_le_of_find? [DecidableEq κ] {t' : Table key}
    (sub : ∀ k row, p row = true → t'.find? k = some row → t.find? k = some row) :
    t'.count p ≤ t.count p := by
  have nodup : (t'.rows.filter p).Nodup := (List.Nodup.of_map key t'.keys_nodup).filter p
  have subset : t'.rows.filter p ⊆ t.rows.filter p := by
    intro row hm
    obtain ⟨inRows, holds⟩ := mem_filter.mp hm
    have hf := sub (key row) row holds (find?_eq_some.mpr ⟨inRows, rfl⟩)
    exact mem_filter.mpr ⟨(find?_eq_some.mp hf).1, holds⟩
  rw [count, count, countP_eq_length_filter, countP_eq_length_filter]
  exact (subperm_of_subset nodup subset).length_le

end Count

section Least
variable [LinearOrder κ]

def least? (t : Table key) (p : ρ → Bool) : Option ρ := (t.rows.filter p).argmin key

def maxKey (t : Table key) (bottom : κ) : κ := ((t.rows.argmax key).map key).getD bottom

theorem le_maxKey {bottom : κ} (hm : row ∈ t.rows) : key row ≤ t.maxKey bottom := by
  unfold maxKey
  cases chosen : t.rows.argmax key with
  | none =>
    rw [argmax_eq_none.mp chosen] at hm
    cases hm
  | some top => exact le_of_mem_argmax hm (mem_def.mpr chosen)

end Least

end Table
end Duckgres.Base
