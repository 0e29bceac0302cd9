import Mathlib.Algebra.Order.Field.Rat
import Mathlib.Data.Nat.Digits.Lemmas
import Mathlib.Tactic.FieldSimp
import Duckgres.Conn.Encode

namespace Duckgres.Conn
open Base Codec List

def numericValue : List Nat → Int → ℚ
  | [], _ => 0
  | digit :: digits, weight => digit * 10000 ^ weight + numericValue digits (weight - 1)

def NumericBinary (value : Int) (scale : Nat) (bytes : Bytes) : Prop :=
  ∃ (digits : List Nat) (weight : Int), (∀ digit ∈ digits, digit < 10000) ∧ digits.head? ≠ some 0 ∧
    digits.getLast? ≠ some 0 ∧ (digits = [] → weight = 0) ∧
    numericValue digits weight = value.natAbs / 10 ^ scale ∧
    bytes = bigEndian 2 digits.length ++ bigEndian 2 weight ++ bigEndian 2 (if value < 0 then 0x4000 else 0) ++
      bigEndian 2 scale ++ digits.flatMap fun digit : Nat => bigEndian 2 digit

theorem numericValue_append (high low : List Nat) (weight : Int) :
    numericValue (high ++ low) weight = numericValue high weight + numericValue low (weight - high.length) := by
  induction high generalizing weight with
  | nil => simp [numericValue]
  | cons digit high ih =>
    simp only [cons_append, numericValue, ih, length_cons, Nat.cast_add]
    ring_nf

theorem numericValue_zeros {digits} (zeros : ∀ digit ∈ digits, digit = 0) (weight : Int) :
    numericValue digits weight = 0 := by
  induction digits generalizing weight with
  | nil => rfl
  | cons digit digits ih =>
    have rest := ih (fun d mem => zeros d (mem_cons_of_mem _ mem)) (weight - 1)
    simp [numericValue, rest, zeros digit mem_cons_self]

theorem numericValue_reverse (digits : List Nat) (shift : Int) :
    numericValue digits.reverse (digits.length - 1 + shift) =
      (Nat.ofDigits 10000 digits : Nat) * 10000 ^ shift := by
  induction digits generalizing shift with
  | nil => simp [numericValue]
  | cons digit digits ih =>
    have above : ((digit :: digits).length : Int) - 1 + shift = digits.length - 1 + (shift + 1) := by
      simp only [length_cons]
      omega
    have below : (digits.length : Int) - 1 + (shift + 1) - digits.reverse.length = shift := by
      simp only [length_reverse]
      omega
    rw [reverse_cons, numericValue_append, above, ih, below, Nat.ofDigits_cons, zpow_add_one₀ (by norm_num)]
    simp only [numericValue]
    push_cast
    ring

section Groups

variable {value scale : Nat}

def allGroups (value scale : Nat) : List Nat :=
  let digits := (Nat.digits 10000 (value * 10 ^ ((scale + 3) / 4 * 4 - scale))).reverse
  List.replicate ((scale + 3) / 4 - digits.length) 0 ++ digits

theorem numericValue_allGroups :
    numericValue (allGroups value scale) ((allGroups value scale).length - ((scale : Int) + 3) / 4 - 1) =
      value / 10 ^ scale := by
  set fraction := (scale + 3) / 4 with isFraction
  set digits := Nat.digits 10000 (value * 10 ^ (fraction * 4 - scale)) with areDigits
  have groups_eq : allGroups value scale = List.replicate (fraction - digits.length) 0 ++ digits.reverse := by
    simp [allGroups, ← isFraction, ← areDigits]
  have zeros (weight : Int) : numericValue (List.replicate (fraction - digits.length) 0) weight = 0 :=
    numericValue_zeros (fun digit mem => (mem_replicate.mp mem).2) weight
  have weight_eq : ((List.replicate (fraction - digits.length) 0 ++ digits.reverse).length : Int) -
      ((scale : Int) + 3) / 4 - 1 - (List.replicate (fraction - digits.length) 0).length =
        digits.length - 1 + -(fraction : Int) := by
    simp only [length_append, length_reverse]
    omega
  have power : (10 : ℚ) ^ (fraction * 4 - scale) * 10 ^ scale = 10000 ^ fraction := by
    rw [← pow_add, show fraction * 4 - scale + scale = 4 * fraction by omega, pow_mul]
    norm_num
  rw [groups_eq, numericValue_append, zeros, weight_eq, numericValue_reverse, areDigits, Nat.ofDigits_digits, zero_add,
    zpow_neg, zpow_natCast, ← power]
  push_cast
  field_simp

theorem groups_eq : groups value scale = (((allGroups value scale).rdropWhile (· = 0)).dropWhile (· = 0),
      ((allGroups value scale).length : Int) - ((scale : Int) + 3) / 4 - 1 -
        (((allGroups value scale).rdropWhile (· = 0)).takeWhile (· = 0)).length) := by
  have ceiling : ((scale : Int) + 3).tdiv 4 = ((scale + 3) / 4 : Nat) := by
    rw [Int.tdiv_eq_ediv_of_nonneg (by omega)]
    omega
  have padding : (((scale + 3) / 4 : Nat) * 4 - scale : Int).toNat = (scale + 3) / 4 * 4 - scale := by omega
  have padded : (if (0 : Int) < ((scale + 3) / 4 : Nat) * 4 - scale then
      value * 10 ^ (((scale + 3) / 4 : Nat) * 4 - scale : Int).toNat else value) =
        value * 10 ^ ((scale + 3) / 4 * 4 - scale) := by
    rw [padding]
    split
    · rfl
    · rename_i none
      rw [show (scale + 3) / 4 * 4 - scale = 0 by omega, pow_zero, mul_one]
  unfold groups
  simp only [ceiling, padded]
  set digits := (Nat.digits 10000 (value * 10 ^ ((scale + 3) / 4 * 4 - scale))).reverse with areDigits
  have zeros : (-((digits.length : Int) - ((scale + 3) / 4 : Nat))).toNat = (scale + 3) / 4 - digits.length := by omega
  have all : List.replicate ((scale + 3) / 4 - digits.length) 0 ++ digits = allGroups value scale := by
    simp [allGroups, areDigits]
  have weight : max ((digits.length : Int) - ((scale + 3) / 4 : Nat)) 0 - 1 =
      ((allGroups value scale).length : Int) - ((scale : Int) + 3) / 4 - 1 := by
    rw [← all, length_append, length_replicate]
    omega
  rw [zeros, all, weight]

theorem lt_of_mem_allGroups {digit} (mem : digit ∈ allGroups value scale) : digit < 10000 := by
  rw [allGroups, mem_append, mem_reverse] at mem
  rcases mem with zero | digit
  · rw [(mem_replicate.mp zero).2]
    decide
  · exact Nat.digits_lt_base (by decide) digit

theorem numericValue_trim (digits : List Nat) (weight : Int) :
    numericValue ((digits.rdropWhile (· = 0)).dropWhile (· = 0))
      (weight - ((digits.rdropWhile (· = 0)).takeWhile (· = 0)).length) = numericValue digits weight := by
  have low (w : Int) : numericValue (digits.rtakeWhile (· = 0)) w = 0 :=
    numericValue_zeros (fun digit mem => by simpa using mem_rtakeWhile_imp mem) w
  have high (w : Int) : numericValue ((digits.rdropWhile (· = 0)).takeWhile (· = 0)) w = 0 :=
    numericValue_zeros (fun digit mem => by simpa using mem_takeWhile_imp mem) w
  have right : numericValue digits weight = numericValue (digits.rdropWhile (· = 0)) weight := by
    conv_lhs => rw [← rdropWhile_append_rtakeWhile (p := fun digit => decide (digit = 0)) (l := digits)]
    rw [numericValue_append, low, add_zero]
  have left := numericValue_append ((digits.rdropWhile (· = 0)).takeWhile (· = 0))
    ((digits.rdropWhile (· = 0)).dropWhile (· = 0)) weight
  rw [takeWhile_append_dropWhile, high, zero_add] at left
  rw [right, left]

theorem head?_trim (digits : List Nat) : ((digits.rdropWhile (· = 0)).dropWhile (· = 0)).head? ≠ some 0 := by
  intro zero
  have kept := head?_dropWhile_not (fun digit : Nat => decide (digit = 0)) (digits.rdropWhile (· = 0))
  simp [zero] at kept

theorem getLast?_trim (digits : List Nat) : ((digits.rdropWhile (· = 0)).dropWhile (· = 0)).getLast? ≠ some 0 := by
  intro zero
  have last : (digits.rdropWhile (· = 0)).getLast? = some 0 := by
    rw [← takeWhile_append_dropWhile (l := digits.rdropWhile (· = 0)), getLast?_append, zero]
    rfl
  have hn : digits.rdropWhile (· = 0) ≠ [] := by
    intro empty
    simp [empty] at last
  rw [getLast?_eq_some_getLast hn, Option.some.injEq] at last
  exact rdropWhile_last_not _ digits hn (by simp [last])

end Groups

theorem encodeNumber_numericBinary (value : Int) (scale : Nat) :
    NumericBinary value scale (encodeNumber value scale) := by
  by_cases nonzero : value = 0
  · subst nonzero
    exact ⟨[], 0, by simp, by simp, by simp, by simp, by simp [numericValue], by simp [encodeNumber]⟩
  simp only [encodeNumber, if_neg nonzero, groups_eq]
  have number := numericValue_trim (allGroups value.natAbs scale)
    ((allGroups value.natAbs scale).length - ((scale : Int) + 3) / 4 - 1)
  rw [numericValue_allGroups] at number
  refine ⟨_, _, fun digit mem => ?_, head?_trim _, getLast?_trim _, fun empty => ?_, number, rfl⟩
  · have trimmed := rdropWhile_prefix (· = 0) (allGroups value.natAbs scale)
    exact lt_of_mem_allGroups (trimmed.subset ((dropWhile_sublist _).subset mem))
  -- a number other than 0 keeps a digit
  rw [empty] at number
  have zero : (value.natAbs : ℚ) = 0 := by
    rcases div_eq_zero_iff.mp number.symm with zero | power
    · exact zero
    · exact absurd power (by positivity)
  exact absurd (by exact_mod_cast zero) (Int.natAbs_ne_zero.mpr nonzero)

theorem length_groups_le {value scale bound : Nat} (small : value * 10 ^ 3 < 10000 ^ bound) (le : scale ≤ bound) :
    (groups value scale).1.length ≤ bound := by
  have padding : 10 ^ ((scale + 3) / 4 * 4 - scale) ≤ 10 ^ 3 := Nat.pow_le_pow_right (by decide) (by omega)
  have digits : (Nat.digits 10000 (value * 10 ^ ((scale + 3) / 4 * 4 - scale))).length ≤ bound :=
    (Nat.digits_length_le_iff (by decide) _).mpr (lt_of_le_of_lt (Nat.mul_le_mul_left _ padding) small)
  have all : (allGroups value scale).length ≤ bound := by
    simp only [allGroups, length_append, length_replicate, length_reverse]
    omega
  rw [groups_eq]
  have trimmed := rdropWhile_prefix (· = 0) (allGroups value scale)
  exact (dropWhile_sublist _).length_le.trans (trimmed.length_le.trans all)

theorem length_encodeNumber (value : Int) (scale : Nat) : (encodeNumber value scale).length = 8 ∨
      (encodeNumber value scale).length = 8 + 2 * (groups value.natAbs scale).1.length := by
  have digits (digits : List Nat) : (digits.flatMap fun digit : Nat => bigEndian 2 digit).length =
    2 * digits.length := by
    simp [mul_comm]
  by_cases zero : value = 0
  · left
    simp [encodeNumber, zero]
  · right
    simp only [encodeNumber, if_neg zero, length_append, length_bigEndian, digits]

/-! ## Texts of decimals -/

theorem wrap16_of_lt {n : Nat} (small : n < 2 ^ 15) : wrap16 n = n := by
  unfold wrap16
  omega

theorem utf8Size_of_isDigit {c : Char} (digit : c.isDigit = true) : c.utf8Size = 1 := by
  have bounds : '0'.val ≤ c.val ∧ c.val ≤ '9'.val := by simpa [Char.isDigit] using digit
  have small : c.val ≤ 127 := UInt32.le_trans bounds.2 (by decide)
  simp [Char.utf8Size, small]

theorem size_of_isDigit {s : Text} (digits : ∀ c ∈ s, c.isDigit = true) : Text.size s = s.length := by
  induction s with
  | nil => rfl
  | cons c s ih =>
    have rest := ih fun d mem => digits d (mem_cons_of_mem _ mem)
    unfold Text.size at rest ⊢
    rw [map_cons, sum_cons, rest, utf8Size_of_isDigit (digits c mem_cons_self), length_cons, add_comm]

theorem padZeros_eq (scale : Nat) (str : Text) :
    padZeros scale str = List.replicate (scale + 1 - str.length) '0' ++ str := by
  induction str using padZeros.induct scale with
  | case1 str short ih =>
    have zeros : scale + 1 - str.length = scale + 1 - ('0' :: str).length + 1 := by
      simp only [length_cons]
      omega
    rw [padZeros, if_pos short, ih, zeros, replicate_succ', append_assoc]
    rfl
  | case2 str long =>
    have zeros : scale + 1 - str.length = 0 := by omega
    rw [padZeros, if_neg long, zeros]
    rfl

theorem isDigit_toDigits {n : Nat} {c} (hm : c ∈ Nat.toDigits 10 n) : c.isDigit = true :=
  Nat.isDigit_of_mem_toDigits (by decide) (by decide) hm

section Padded

variable {n scale : Nat}

theorem lt_length_padZeros {str} : scale < (padZeros scale str).length := by
  rw [padZeros_eq, length_append, length_replicate]
  omega

theorem isDigit_padZeros : ∀ c ∈ padZeros scale (Nat.toDigits 10 n), c.isDigit = true := by
  rw [padZeros_eq, forall_mem_append]
  exact ⟨fun c hm => (mem_replicate.mp hm).2 ▸ rfl, fun c => isDigit_toDigits⟩

theorem ofDigitChars_padZeros : Nat.ofDigitChars 10 (padZeros scale (Nat.toDigits 10 n)) 0 = n := by
  rw [padZeros_eq, Nat.ofDigitChars_append, Nat.ofDigitChars_replicate_zero, mul_zero, Nat.ofDigitChars_ten_toDigits]

theorem ne_sign_of_isDigit {c} (digit : c.isDigit = true) : c ≠ '-' ∧ c ≠ '+' := by
  constructor <;> rintro rfl <;> cases digit

theorem parseBig_of_isDigit {s} (hn : s ≠ []) (digits : ∀ c ∈ s, c.isDigit = true) :
    parseBig s = some (Nat.ofDigitChars 10 s 0 : Int) := by
  cases s with
  | nil => exact absurd rfl hn
  | cons c s =>
    have sign := ne_sign_of_isDigit (digits c mem_cons_self)
    have all : (c :: s).all Char.isDigit = true := all_eq_true.mpr digits
    simp [parseBig, sign, all]

theorem cut_dot {whole fraction} (digits : ∀ c ∈ whole, c.isDigit = true) :
    Text.cut ".".toList (whole ++ ".".toList ++ fraction) = some (whole, fraction) := by
  induction whole with
  | nil => rfl
  | cons c whole ih =>
    have other : ".".toList.isPrefixOf (c :: (whole ++ ".".toList ++ fraction)) = false := by
      cases hs : decide (c = '.') with
      | true =>
        have first := digits c mem_cons_self
        rw [of_decide_eq_true hs] at first
        cases first
      | false => simp [List.isPrefixOf, Ne.symm (of_decide_eq_false hs)]
    rw [cons_append, cons_append, Text.cut, other, ih fun d mem => digits d (mem_cons_of_mem _ mem)]
    rfl

theorem parseDecimal_of_ne {c s} (other : c ≠ '-') : parseDecimal (c :: s) = parseUnsigned (c :: s) := by
  unfold parseDecimal
  split
  · rename_i hs
    exact absurd (List.cons.inj hs).1 other
  · rfl

theorem parseUnsigned_pointed (small : scale < 2 ^ 15) :
    parseUnsigned (pointed (padZeros scale (Nat.toDigits 10 n)) scale) = some ((n : Int), (scale : Int)) := by
  have digits := @isDigit_padZeros n scale
  have value := @ofDigitChars_padZeros n scale
  have long := @lt_length_padZeros scale (Nat.toDigits 10 n)
  generalize padZeros scale (Nat.toDigits 10 n) = str at digits value long ⊢
  have size : Text.size (str.drop (str.length - scale)) = scale := by
    rw [size_of_isDigit fun c mem => digits c (mem_of_mem_drop mem), length_drop]
    omega
  have hn : str ≠ [] := ne_nil_of_length_pos (by omega)
  rw [parseUnsigned, pointed, cut_dot fun c mem => digits c (mem_of_mem_take mem)]
  simp only [take_append_drop, size, wrap16_of_lt small, parseBig_of_isDigit hn digits, value]
  rfl

theorem exists_pointed_eq :
    ∃ c s, pointed (padZeros scale (Nat.toDigits 10 n)) scale = c :: s ∧ c ≠ '-' := by
  have digits := @isDigit_padZeros n scale
  have long := @lt_length_padZeros scale (Nat.toDigits 10 n)
  generalize padZeros scale (Nat.toDigits 10 n) = str at digits long ⊢
  unfold pointed
  cases start : str.take (str.length - scale) with
  | nil =>
    have length := congrArg List.length start
    rw [length_take] at length
    simp only [length_nil] at length
    omega
  | cons c rest =>
    have mem : c ∈ str.take (str.length - scale) := by
      rw [start]
      exact mem_cons_self
    exact ⟨c, _, rfl, (ne_sign_of_isDigit (digits c (mem_of_mem_take mem))).1⟩

end Padded

theorem number_decimal {value : Int} {scale : Nat} (small : scale < 2 ^ 15) :
    number (.decimal value scale) = some (value, (scale : Int)) := by
  rw [number, wrap16_of_lt small]

theorem decimalText_eq (v : Int) (scale : Nat) : decimalText v scale =
    (if v < 0 then ['-'] else []) ++ pointed (padZeros scale (Nat.toDigits 10 v.natAbs)) scale := by
  unfold decimalText bigIntString
  split
  · simp
  · have plain : (Nat.toDigits 10 v.natAbs).head? ≠ some '-' := by
      intro minus
      cases isDigit_toDigits (mem_of_mem_head? minus)
    simp [plain]

theorem number_decimalToBigInt {value : Int} {scale : Nat} (small : scale < 2 ^ 15) :
    number (decimalToBigInt value scale) = some (value, (scale : Int)) := by
  have unsigned := parseUnsigned_pointed (n := value.natAbs) small
  unfold decimalToBigInt
  split
  · rename_i zero
    simp [number, zero]
  simp only [number, decimalText_eq]
  split
  · rename_i negative
    rw [singleton_append]
    change (parseUnsigned _).map _ = _
    rw [unsigned]
    simp only [Option.map_some]
    congr 2
    omega
  · rename_i nonnegative
    obtain ⟨c, rest, hs, other⟩ := @exists_pointed_eq value.natAbs scale
    rw [hs] at unsigned ⊢
    rw [nil_append, parseDecimal_of_ne other, unsigned, Int.natAbs_of_nonneg (not_lt.mp nonnegative)]

/-! ## The two renderers -/

/-- Plain decimal notation with `scale` digits after the point. -/
def Denotes (s : Text) (scale : Nat) (q : ℚ) : Prop := ∃ (negative : Bool) (whole fraction : Text),
  s = (if negative then ['-'] else []) ++ (whole ++ '.' :: fraction) ∧ whole ≠ [] ∧ fraction.length = scale ∧
    (∀ c ∈ whole ++ fraction, c.isDigit = true) ∧
    q = (if negative then -1 else 1) * (Nat.ofDigitChars 10 whole 0 + Nat.ofDigitChars 10 fraction 0 / 10 ^ scale)

theorem decimalString_eq {scale : Nat} (positive : 0 < scale) (v : Int) :
    decimalString (some v) scale = decimalText v scale := by
  have nonneg : ¬ (v.natAbs : Int) < 0 := by omega
  have some_digits : ¬ (scale : Int) ≤ 0 := by omega
  have zeros (n : Nat) : ((scale : Int) + 1 - n).toNat = scale + 1 - n := by omega
  simp only [decimalString, decimalText_eq, padZeros_eq, bigIntString, nonneg, some_digits, zeros, if_false, nil_append,
    Int.natAbs_natCast, Int.toNat_natCast]

theorem denotes_pointed (negative : Bool) (n scale : Nat) :
    Denotes ((if negative then ['-'] else []) ++ pointed (padZeros scale (Nat.toDigits 10 n)) scale) scale
      ((if negative then -1 else 1) * (n / 10 ^ scale)) := by
  have digits := @isDigit_padZeros n scale
  have value := @ofDigitChars_padZeros n scale
  have long := @lt_length_padZeros scale (Nat.toDigits 10 n)
  generalize padZeros scale (Nat.toDigits 10 n) = str at digits value long ⊢
  have drop : (str.drop (str.length - scale)).length = scale := by
    rw [length_drop]
    omega
  refine ⟨negative, str.take (str.length - scale), str.drop (str.length - scale), by simp [pointed], ?_, drop, ?_, ?_⟩
  · exact ne_nil_of_length_pos (by rw [length_take]; omega)
  · rwa [take_append_drop]
  · rw [← take_append_drop (str.length - scale) str, Nat.ofDigitChars_append, Nat.ofDigitChars_eq_ofDigitChars_zero,
      drop] at value
    rw [← value]
    push_cast
    field_simp

theorem decimals_rendered {scale : Nat} (positive : 0 < scale) (v : Int) :
    decimalToBigInt v scale = .string (decimalString (some v) scale) ∧
      Denotes (decimalString (some v) scale) scale (v / 10 ^ scale) := by
  have rendered := denotes_pointed (decide (v < 0)) v.natAbs scale
  rw [decimalString_eq positive]
  refine ⟨if_neg (by omega), ?_⟩
  rw [decimalText_eq]
  simp only [decide_eq_true_eq] at rendered
  convert rendered using 1
  rw [← mul_div_assoc]
  congr 1
  split
  · rw [← Int.cast_natCast, Int.natCast_natAbs, abs_of_neg (by assumption)]
    simp
  · rw [← Int.cast_natCast, Int.natCast_natAbs, abs_of_nonneg (by omega)]
    simp

theorem decimals_rendered_below :
    decimalToBigInt (-5) 2 = .string "-0.05".toList ∧ Denotes "-0.05".toList 2 ((-5 : Int) / 10 ^ 2) :=
  @decimals_rendered 2 (by decide) (-5)

end Duckgres.Conn
