import Mathlib.Data.List.Basic
import Mathlib.Tactic.Positivity
import Mathlib.Tactic.Ring

/-!
# Big-endian numbers

Integers as a fixed number of bytes, the most significant first and in two's complement, and byte strings behind
their length.
-/

namespace Duckgres.Base
open List Int

def bigEndian : Nat → Int → List UInt8
  | 0, _ => []
  | width + 1, n => UInt8.ofNat (n / 256 ^ width % 256).toNat :: bigEndian width n

@[simp]
theorem length_bigEndian (width : Nat) (n : Int) : (bigEndian width n).length = width := by
  induction width with
  | zero => rfl
  | succ width ih => simp [bigEndian, ih]

theorem emod_succ_digits (width : Nat) (k : Int) :
    k % 256 ^ (width + 1) = 256 ^ width * (k / 256 ^ width % 256) + k % 256 ^ width := by
  have nonneg : (0 : Int) ≤ 256 ^ width := by positivity
  simp only [emod_def, pow_succ, ← ediv_ediv_of_nonneg nonneg]
  ring

theorem bigEndian_injOn {width : Nat} {m n : Int} (hs : bigEndian width m = bigEndian width n) :
    m % 256 ^ width = n % 256 ^ width := by
  induction width with
  | zero => simp
  | succ width ih =>
    simp only [bigEndian, List.cons.injEq] at hs
    have low := ih hs.2
    have high : m / 256 ^ width % 256 = n / 256 ^ width % 256 := by
      have digits := congrArg UInt8.toNat hs.1
      simp only [UInt8.toNat_ofNat'] at digits
      omega
    rw [emod_succ_digits, emod_succ_digits, low, high]

def ofBigEndian : List UInt8 → Nat
  | [] => 0
  | b :: bytes => b.toNat * 256 ^ bytes.length + ofBigEndian bytes

theorem ofBigEndian_bigEndian (width : Nat) (n : Int) : (ofBigEndian (bigEndian width n) : Int) = n % 256 ^ width := by
  induction width with
  | zero => simp [bigEndian, ofBigEndian]
  | succ width ih =>
    have digit : ((UInt8.ofNat (n / 256 ^ width % 256).toNat).toNat : Int) = n / 256 ^ width % 256 := by
      rw [UInt8.toNat_ofNat']
      omega
    simp only [bigEndian, ofBigEndian, length_bigEndian, Nat.cast_add, Nat.cast_mul, digit, ih, Nat.cast_pow,
      emod_succ_digits]
    push_cast
    ring

def readInt (width : Nat) (bytes : List UInt8) : Option (Int × List UInt8) :=
  if bytes.length < width then none
  else some (Int.bmod (ofBigEndian (bytes.take width)) (256 ^ width), bytes.drop width)

theorem readInt_bigEndian {width : Nat} {n : Int} (rest : List UInt8) (low : -256 ^ width ≤ 2 * n)
    (high : 2 * n < 256 ^ width) : readInt width (bigEndian width n ++ rest) = some (n, rest) := by
  have fits : Int.bmod n (256 ^ width) = n := bmod_eq_of_le_mul_two (by push_cast; omega) (by push_cast; omega)
  have taken : (bigEndian width n ++ rest).take width = bigEndian width n := by simp
  have read : Int.bmod (ofBigEndian (bigEndian width n)) (256 ^ width) = n := by
    rw [ofBigEndian_bigEndian]
    have hs := emod_bmod n (256 ^ width)
    push_cast at hs
    rw [hs, fits]
  rw [readInt, taken, read]
  simp

theorem readInt_bounds {width : Nat} {bytes rest : List UInt8} {n : Int} (h : readInt width bytes = some (n, rest)) :
    -256 ^ width ≤ 2 * n ∧ 2 * n < 256 ^ width := by
  obtain ⟨-, hn⟩ := Option.ite_none_left_eq_some.mp h
  obtain rfl := (Prod.mk.inj (Option.some.inj hn)).1
  have positive : 0 < 256 ^ width := by positivity
  have low := le_bmod (x := ofBigEndian (bytes.take width)) positive
  have high := bmod_lt (x := ofBigEndian (bytes.take width)) positive
  push_cast at low high
  omega

def framed (data : List UInt8) : List UInt8 := bigEndian 4 data.length ++ data

def unframed : List UInt8 := bigEndian 4 (-1)

def frame : Option (List UInt8) → List UInt8
  | none => unframed
  | some data => framed data

theorem framed_injective {data data' : List UInt8} (hs : framed data = framed data') : data = data' := by
  have length := congrArg List.length hs
  simp only [framed, length_append, length_bigEndian] at length
  exact (append_inj' hs (by omega)).2

def IsFrame (field : List UInt8) : Prop :=
  field = unframed ∨ ∃ data : List UInt8, data.length < 2 ^ 31 ∧ field = framed data

theorem framed_ne_unframed {data : List UInt8} (short : data.length < 2 ^ 31) : framed data ≠ unframed := by
  intro hs
  have length := congrArg List.length hs
  simp only [framed, unframed, length_append, length_bigEndian] at length
  have empty : data = [] := length_eq_zero_iff.mp (by omega)
  subst empty
  exact absurd hs (by decide)

theorem IsFrame.exists_header {field : List UInt8} (frame : IsFrame field) :
    ∃ (n : Int) (data : List UInt8), field = bigEndian 4 n ++ data ∧ -1 ≤ n ∧ n < 2 ^ 31 ∧
      (n = -1 ∧ data = [] ∨ n = data.length) := by
  rcases frame with rfl | ⟨data, short, rfl⟩
  · exact ⟨-1, [], by simp [unframed], by omega, by omega, .inl ⟨rfl, rfl⟩⟩
  · exact ⟨data.length, data, rfl, by omega, by omega, .inr rfl⟩

theorem IsFrame.append_inj {field field' rest rest' : List UInt8} (frame : IsFrame field) (frame' : IsFrame field')
    (hs : field ++ rest = field' ++ rest') : field = field' ∧ rest = rest' := by
  obtain ⟨n, data, rfl, low, high, shape⟩ := frame.exists_header
  obtain ⟨n', data', rfl, low', high', shape'⟩ := frame'.exists_header
  rw [append_assoc, append_assoc] at hs
  have split := List.append_inj hs (by simp)
  have header : n = n' := by
    have residues := bigEndian_injOn split.1
    omega
  subst header
  have length : data.length = data'.length := by
    rcases shape with ⟨isNull, rfl⟩ | isLength
    · rcases shape' with ⟨-, rfl⟩ | isLength'
      · rfl
      · omega
    · rcases shape' with ⟨isNull, rfl⟩ | isLength' <;> omega
  have parts := List.append_inj split.2 length
  exact ⟨by rw [parts.1], parts.2⟩

theorem frames_eq {fields fields' : List (List UInt8)} (frames : ∀ field ∈ fields, IsFrame field)
    (frames' : ∀ field ∈ fields', IsFrame field) (length : fields.length = fields'.length)
    (hs : fields.flatten = fields'.flatten) : fields = fields' := by
  induction fields generalizing fields' with
  | nil => exact (length_eq_zero_iff.mp length.symm).symm
  | cons field fields ih =>
    cases fields' with
    | nil => cases length
    | cons field' fields' =>
      have parts := (frames field mem_cons_self).append_inj (frames' field' mem_cons_self) hs
      have rest := ih (fun f mem => frames f (mem_cons_of_mem _ mem))
        (fun f mem => frames' f (mem_cons_of_mem _ mem)) (Nat.succ.inj length) parts.2
      rw [parts.1, rest]

end Duckgres.Base
