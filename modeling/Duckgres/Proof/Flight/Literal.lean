import Duckgres.Flight.Interpolate
import Mathlib.Data.Nat.Digits.Lemmas

namespace Duckgres.Proof.Flight
open Duckgres.Flight Base Option
open List (all_eq_true append_assoc cons_append flatMap_cons length_cons mem_cons mem_cons_of_mem
  mem_cons_self nil_append)

def pendingBytes : Pending → Bytes
  | none => []
  | some (_, seen) => seen

theorem enter_bytes (ha : Action) (seen : Bytes) :
    (ha.enter seen).1.flatMap Token.bytes ++ pendingBytes (ha.enter seen).2 = seen := by
  cases ha <;> simp [Action.enter, pendingBytes]

theorem advance_bytes (pending : Pending) (b : UInt8) :
    (advance pending b).1.flatMap Token.bytes ++ pendingBytes (advance pending b).2 =
      pendingBytes pending ++ [b] := by
  cases pending with
  | none => exact enter_bytes (start b) [b]
  | some pending =>
    obtain ⟨mode, seen⟩ := pending
    unfold advance
    cases hf : next mode seen b with
    | some ha => simpa [hf, pendingBytes] using enter_bytes ha (seen ++ [b])
    | none => simpa [hf, pendingBytes] using enter_bytes (start b) [b]

theorem lexFrom_bytes (pending : Pending) (text : Bytes) :
    (lexFrom pending text).flatMap Token.bytes = pendingBytes pending ++ text := by
  induction text generalizing pending with
  | nil => rcases pending with _ | ⟨mode, seen⟩ <;> simp [lexFrom, finish, pendingBytes]
  | cons b rest ih =>
    rw [lexFrom, List.flatMap_append, ih, ← append_assoc, advance_bytes, append_assoc]
    rfl

theorem lex_bytes (text : Bytes) : (lex text).flatMap Token.bytes = text := lexFrom_bytes none text

/-! ## Where a token ends -/

variable {mode : Mode} {seen text others : Bytes} {b : UInt8} {pending : Pending} {token : Token}

theorem lexFrom_keep {later} (kept : next mode seen b = some (.keep later)) (rest : Bytes) :
    lexFrom (some (mode, seen)) (b :: rest) = lexFrom (some (later, seen ++ [b])) rest := by
  simp [lexFrom, advance, kept, Action.enter]

theorem lexFrom_close {kind} (closed : next mode seen b = some (.close kind)) (rest : Bytes) :
    lexFrom (some (mode, seen)) (b :: rest) = ⟨kind, seen ++ [b]⟩ :: lex rest := by
  simp [lexFrom, advance, closed, Action.enter, lex]

theorem lexFrom_stop {rest} (stopped : ∀ b ∈ rest.head?, next mode seen b = none) :
    lexFrom (some (mode, seen)) rest = ⟨mode.kind, seen⟩ :: lex rest := by
  cases rest with
  | nil => rfl
  | cons b rest =>
    have none := stopped b rfl
    simp [lexFrom, advance, none, lex]

theorem lex_keep (begun : start b = .keep mode) (rest : Bytes) : lex (b :: rest) = lexFrom (some (mode, [b])) rest := by
  simp [lex, lexFrom, advance, begun, Action.enter]

theorem lex_close {kind} (closed : start b = .close kind) (rest : Bytes) :
    lex (b :: rest) = ⟨kind, [b]⟩ :: lex rest := by
  simp [lex, lexFrom, advance, closed, Action.enter]

theorem lexFrom_keep_all {front} (kept : ∀ b ∈ front, ∀ seen, next mode seen b = some (.keep mode))
    (seen rest : Bytes) :
    lexFrom (some (mode, seen)) (front ++ rest) = lexFrom (some (mode, seen ++ front)) rest := by
  induction front generalizing seen with
  | nil => simp
  | cons b front ih =>
    have later : ∀ b ∈ front, ∀ seen, next mode seen b = some (.keep mode) := fun b hm => kept b (mem_cons_of_mem _ hm)
    rw [cons_append, lexFrom_keep (kept b mem_cons_self seen), ih later, append_assoc]
    rfl

inductive FirstToken (pending : Pending) (token : Token) (front rest : Bytes) : Prop
  | closed (alone : ∀ other, lexFrom pending (front ++ other) = token :: lex other)
  | stopped (mode : Mode) (kind : token.kind = mode.kind)
      (same : ∀ other, lexFrom pending (front ++ other) = lexFrom (some (mode, token.bytes)) other)
      (ends : ∀ b ∈ rest.head?, next mode token.bytes b = none)

theorem FirstToken.cons {later front rest} (read : ∀ other, lexFrom pending (b :: other) = lexFrom later other)
    (first : FirstToken later token front rest) : FirstToken pending token (b :: front) rest := by
  cases first with
  | closed alone => exact .closed fun other => (read _).trans (alone other)
  | stopped mode kind hs ends => exact .stopped mode kind (fun other => (read _).trans (hs other)) ends

theorem firstToken {tokens} (lexed : lexFrom pending text = token :: tokens) :
    ∃ front rest, text = front ++ rest ∧ token.bytes = pendingBytes pending ++ front ∧
      lex rest = tokens ∧ FirstToken pending token front rest := by
  induction text generalizing pending with
  | nil =>
    rcases pending with _ | ⟨mode, seen⟩
    · cases lexed
    · cases lexed
      refine ⟨[], [], rfl, (List.append_nil seen).symm, rfl, ?_⟩
      exact .stopped mode rfl (fun _ => rfl) (by simp)
  | cons b text ih =>
    -- a byte that the pending token keeps belongs to the same first token
    have kept : ∀ later : Pending, pendingBytes later = pendingBytes pending ++ [b] →
        (∀ other, lexFrom pending (b :: other) = lexFrom later other) →
        ∃ front rest, b :: text = front ++ rest ∧ token.bytes = pendingBytes pending ++ front ∧
          lex rest = tokens ∧ FirstToken pending token front rest := by
      intro later bytes read
      obtain ⟨front, rest, rfl, whole, lexedRest, first⟩ := ih ((read text).symm.trans lexed)
      refine ⟨b :: front, rest, rfl, ?_, lexedRest, first.cons read⟩
      rw [whole, bytes, append_assoc]
      rfl
    rcases pending with _ | ⟨mode, seen⟩
    · cases begun : start b with
      | keep mode => exact kept (some (mode, [b])) rfl (lex_keep begun)
      | close =>
        obtain ⟨rfl, rfl⟩ := List.cons.inj ((lex_close begun text).symm.trans lexed)
        exact ⟨[b], text, rfl, rfl, rfl, .closed (lex_close begun)⟩
    · cases hf : next mode seen b with
      | some ha =>
        cases ha with
        | keep later => exact kept (some (later, seen ++ [b])) rfl (lexFrom_keep hf)
        | close =>
          obtain ⟨rfl, rfl⟩ := List.cons.inj ((lexFrom_close hf text).symm.trans lexed)
          exact ⟨[b], text, rfl, rfl, rfl, .closed (lexFrom_close hf)⟩
      | none =>
        have stop : ∀ byte ∈ (b :: text).head?, next mode seen byte = none := by
          rintro byte ⟨⟩
          exact hf
        obtain ⟨rfl, rfl⟩ := List.cons.inj ((lexFrom_stop stop).symm.trans lexed)
        refine ⟨[], b :: text, rfl, (List.append_nil seen).symm, rfl, ?_⟩
        exact .stopped mode rfl (fun _ => rfl) stop

theorem advance_nonempty (begun : ∀ mode seen, pending = some (mode, seen) → seen ≠ []) (b : UInt8) :
    (∀ token ∈ (advance pending b).1, token.bytes ≠ []) ∧
      ∀ mode seen, (advance pending b).2 = some (mode, seen) → seen ≠ [] := by
  have entered : ∀ (ha : Action) (seen : Bytes), seen ≠ [] →
      (∀ token ∈ (ha.enter seen).1, token.bytes ≠ []) ∧
        ∀ mode bytes, (ha.enter seen).2 = some (mode, bytes) → bytes ≠ [] := by
    intro ha seen hn
    cases ha <;> simp [Action.enter, hn]
  rcases pending with _ | ⟨mode, seen⟩
  · exact entered (start b) [b] (List.cons_ne_nil b [])
  unfold advance
  cases hf : next mode seen b with
  | some ha =>
    have := entered ha (seen ++ [b]) (by simp)
    simpa [hf] using this
  | none =>
    have := entered (start b) [b] (List.cons_ne_nil b [])
    simpa [hf, begun mode seen rfl] using this

theorem lexFrom_nonempty (begun : ∀ mode seen, pending = some (mode, seen) → seen ≠ []) :
    ∀ token ∈ lexFrom pending text, token.bytes ≠ [] := by
  induction text generalizing pending with
  | nil =>
    rcases pending with _ | ⟨mode, seen⟩
    · simp [lexFrom, finish]
    · simpa [lexFrom, finish] using begun mode seen rfl
  | cons b rest ih =>
    obtain ⟨emitted, later⟩ := advance_nonempty begun b
    intro token hm
    rcases List.mem_append.mp hm with hm | hm
    · exact emitted token hm
    · exact ih later token hm

theorem token_nonempty (hm : token ∈ lex text) : token.bytes ≠ [] := lexFrom_nonempty (by simp) token hm

/-! ## Tokens of literals -/

theorem next_word_of_isEnd (ends : isEnd b) (seen : Bytes) : next .word seen b = none := by
  simp only [isEnd, Bool.not_eq_true', Bool.or_eq_false_iff, beq_eq_false_iff_ne] at ends
  simp [next, ends]

theorem next_number_of_isEnd (ends : isEnd b) (seen : Bytes) : next .number seen b = none := by
  simp only [isEnd, Bool.not_eq_true', Bool.or_eq_false_iff] at ends
  simp [next, ends]

theorem next_textQuote_of_isEnd (ends : isEnd b) (escapes : Bool) (seen : Bytes) :
    next (.textQuote escapes) seen b = none := by
  simp only [isEnd, Bool.not_eq_true', Bool.or_eq_false_iff, beq_eq_false_iff_ne] at ends
  simp [next, ends]

theorem ne_of_class {p : UInt8 → Bool} {a} (hh : p b = true) (fails : p a = false) : b ≠ a := by
  rintro rfl
  exact Bool.false_ne_true (fails.symm.trans hh)

theorem start_of_isDigit (digit : isDigit b) : start b = .keep .number := by
  simp [start, digit, ne_of_class digit (a := 39) rfl, ne_of_class digit (a := 34) rfl,
    ne_of_class digit (a := 36) rfl, ne_of_class digit (a := 45) rfl, ne_of_class digit (a := 47) rfl]

theorem start_of_isLetter (letter : isLetter b) : start b = .keep .word := by
  have notDigit : isDigit b = false := by
    simp only [isLetter, isDigit, Bool.or_eq_true, Bool.and_eq_true, decide_eq_true_eq, beq_iff_eq,
      Bool.and_eq_false_iff, decide_eq_false_iff_not, UInt8.le_iff_toNat_le,
      ← UInt8.toNat_inj] at letter ⊢
    simp only [UInt8.reduceToNat] at letter ⊢
    omega
  simp [start, letter, notDigit, ne_of_class letter (a := 39) rfl, ne_of_class letter (a := 34) rfl,
    ne_of_class letter (a := 36) rfl, ne_of_class letter (a := 45) rfl,
    ne_of_class letter (a := 47) rfl]

variable {rest : Bytes}

theorem lex_word (letters : ∀ a ∈ b :: others, isLetter a) (ends : ∀ a ∈ rest.head?, isEnd a) :
    lex (b :: others ++ rest) = ⟨.word, b :: others⟩ :: lex rest := by
  have kept : ∀ a ∈ others, ∀ seen, next .word seen a = some (.keep .word) := by
    intro a hm seen
    simp [next, letters a (mem_cons_of_mem _ hm)]
  rw [cons_append, lex_keep (start_of_isLetter (letters b mem_cons_self)),
    lexFrom_keep_all kept, lexFrom_stop fun a hm => next_word_of_isEnd (ends a hm) _]
  rfl

theorem lex_number (digits : ∀ a ∈ b :: others, isDigit a) (ends : ∀ a ∈ rest.head?, isEnd a) :
    lex (b :: others ++ rest) = ⟨.number, b :: others⟩ :: lex rest := by
  have kept : ∀ a ∈ others, ∀ seen, next .number seen a = some (.keep .number) := by
    intro a hm seen
    simp [next, digits a (mem_cons_of_mem _ hm)]
  rw [cons_append, lex_keep (start_of_isDigit (digits b mem_cons_self)),
    lexFrom_keep_all kept, lexFrom_stop fun a hm => next_number_of_isEnd (ends a hm) _]
  rfl

theorem lex_minus (digits : ∀ a ∈ b :: others, isDigit a) (ends : ∀ a ∈ rest.head?, isEnd a) :
    lex (45 :: (b :: others ++ rest)) = ⟨.sign, [45]⟩ :: ⟨.number, b :: others⟩ :: lex rest := by
  have notDash : b ≠ 45 := by
    rintro rfl
    exact absurd (digits 45 mem_cons_self) (by decide)
  have stop : ∀ a ∈ (b :: others ++ rest).head?, next .dash [45] a = none := by
    rintro a ⟨⟩
    simp [next, notDash]
  rw [lex_keep rfl, lexFrom_stop stop, lex_number digits ends]
  rfl

variable (val : Bytes)

def doubleQuotes : Bytes := val.flatMap fun b => if b = 39 then [39, 39] else [b]

theorem lexFrom_doubleQuotes (val seen rest : Bytes) : lexFrom (some (.text false, seen)) (doubleQuotes val ++ rest) =
      lexFrom (some (.text false, seen ++ doubleQuotes val)) rest := by
  induction val generalizing seen with
  | nil => simp [doubleQuotes]
  | cons b val ih =>
    rw [doubleQuotes, flatMap_cons, ← doubleQuotes]
    by_cases quote : b = 39
    · subst quote
      have first : next (.text false) seen 39 = some (.keep (.textQuote false)) := by simp [next]
      have second : next (.textQuote false) (seen ++ [39]) 39 = some (.keep (.text false)) := by
        simp [next]
      rw [if_pos rfl]
      simp only [cons_append, nil_append]
      rw [lexFrom_keep first, lexFrom_keep second, ih]
      simp
    · have plain : next (.text false) seen b = some (.keep (.text false)) := by simp [next, quote]
      rw [if_neg quote]
      simp only [cons_append, nil_append]
      rw [lexFrom_keep plain, ih]
      simp

theorem lex_quoted (ends : ∀ a ∈ rest.head?, isEnd a) : lex (39 :: (doubleQuotes val ++ 39 :: rest)) =
      ⟨.text, 39 :: (doubleQuotes val ++ [39])⟩ :: lex rest := by
  have quote : ∀ seen, next (.text false) seen 39 = some (.keep (.textQuote false)) := by
    simp [next]
  rw [lex_keep rfl, lexFrom_doubleQuotes, lexFrom_keep (quote _),
    lexFrom_stop fun a hm => next_textQuote_of_isEnd (ends a hm) _ _]
  simp [Mode.kind]

theorem digitByte_toNat {d} (bound : d < 10) : (UInt8.ofNat (48 + d)).toNat = 48 + d := by
  rw [UInt8.toNat_ofNat']
  omega

theorem isDigit_iff (b : UInt8) : isDigit b = true ↔ 48 ≤ b.toNat ∧ b.toNat ≤ 57 := by
  simp [isDigit, UInt8.le_iff_toNat_le]

theorem isDigit_digitByte {d} (bound : d < 10) : isDigit (UInt8.ofNat (48 + d)) := by
  rw [isDigit_iff, digitByte_toNat bound]
  omega

theorem isDigit_of_mem_decimal {n b} (hm : b ∈ decimal n) : isDigit b := by
  unfold decimal at hm
  split at hm
  · rw [List.mem_singleton.mp hm]
    rfl
  · obtain ⟨d, digit, rfl⟩ := List.mem_map.mp hm
    exact isDigit_digitByte (Nat.digits_lt_base (by decide) (List.mem_reverse.mp digit))

theorem readDecimal_foldl (digits : List Nat) (bound : ∀ d ∈ digits, d < 10) :
    readDecimal (digits.reverse.map fun d => UInt8.ofNat (48 + d)) = Nat.ofDigits 10 digits := by
  induction digits with
  | nil => rfl
  | cons d digits ih =>
    have later := ih fun d hm => bound d (mem_cons_of_mem _ hm)
    rw [readDecimal] at later ⊢
    rw [List.reverse_cons, List.map_append, List.foldl_append, later, Nat.ofDigits_cons]
    simp only [List.map_cons, List.map_nil, List.foldl_cons, List.foldl_nil]
    rw [digitByte_toNat (bound d mem_cons_self), Nat.add_sub_cancel_left, Nat.add_comm]

theorem readDecimal_decimal (n : Nat) : readDecimal (decimal n) = n := by
  unfold decimal
  split
  · rename_i zero
    rw [zero]
    rfl
  · rw [readDecimal_foldl _ fun d digit => Nat.digits_lt_base (by decide) digit, Nat.ofDigits_digits]

theorem le_foldl_readDecimal (digits : Bytes) (n : Nat) : n ≤ digits.foldl (fun n b => 10 * n + (b.toNat - 48)) n := by
  induction digits generalizing n with
  | nil => exact Nat.le_refl n
  | cons b digits ih => exact Nat.le_trans (by omega) (ih (10 * n + (b.toNat - 48)))

theorem readDecimal_le_of_isPrefix {front whole} (isPrefix : front <+: whole) :
    readDecimal front ≤ readDecimal whole := by
  obtain ⟨rest, rfl⟩ := isPrefix
  rw [readDecimal, readDecimal, List.foldl_append]
  exact le_foldl_readDecimal rest _

theorem decimal_digit {d} (hpos : 0 < d) (bound : d < 10) : decimal d = [UInt8.ofNat (48 + d)] := by
  rw [decimal, if_neg (Nat.ne_of_gt hpos), Nat.digits_of_lt 10 d (Nat.ne_of_gt hpos) bound]
  rfl

theorem decimal_lead {k} (hpos : 0 < k) :
    ∃ d first rest, 0 < d ∧ d ≤ k ∧ decimal d = [first] ∧ decimal k = first :: rest := by
  have nonzero : k ≠ 0 := Nat.ne_of_gt hpos
  have hn : Nat.digits 10 k ≠ [] := Nat.digits_ne_nil_iff_ne_zero.mpr nonzero
  have dPositive := Nat.pos_of_ne_zero (Nat.getLast_digit_ne_zero 10 nonzero)
  have dBound : (Nat.digits 10 k).getLast hn < 10 := Nat.digits_lt_base (by decide) (List.getLast_mem hn)
  have split : decimal k = UInt8.ofNat (48 + (Nat.digits 10 k).getLast hn) ::
      (Nat.digits 10 k).dropLast.reverse.map fun d => UInt8.ofNat (48 + d) := by
    rw [decimal, if_neg nonzero]
    conv_lhs => rw [← List.dropLast_append_getLast hn]
    rw [List.reverse_append]
    rfl
  refine ⟨_, _, _, dPositive, ?_, decimal_digit dPositive dBound, split⟩
  have isPrefix : decimal ((Nat.digits 10 k).getLast hn) <+: decimal k := by
    rw [decimal_digit dPositive dBound, split]
    exact List.cons_prefix_cons.mpr ⟨rfl, List.nil_prefix⟩
  simpa only [readDecimal_decimal] using readDecimal_le_of_isPrefix isPrefix

theorem decimal_cons (n : Nat) : ∃ b others, decimal n = b :: others := by
  rcases Nat.eq_zero_or_pos n with rfl | hpos
  · exact ⟨48, [], rfl⟩
  · obtain ⟨d, first, rest, -, -, -, split⟩ := decimal_lead hpos
    exact ⟨first, rest, split⟩

/-! ## Tokens of the literals -/

def doubleBackslashes : Bytes := val.flatMap fun b => if b = 92 then [92, 92] else [b]

theorem escapeString_eq : escapeString val = doubleQuotes (doubleBackslashes val) := by
  rw [escapeString, replaceAll_singleton, replaceAll_singleton]
  rfl

theorem doubleQuotes_of_not_mem {val} (absent : 39 ∉ val) : doubleQuotes val = val := by
  induction val with
  | nil => rfl
  | cons b val ih =>
    rw [mem_cons, not_or] at absent
    rw [doubleQuotes, flatMap_cons, ← doubleQuotes, ih absent.2, if_neg (Ne.symm absent.1)]
    rfl

theorem hexDigit_toNat {d} (bound : d.toNat < 16) :
    (hexDigit d).toNat = if d.toNat < 10 then 48 + d.toNat else 87 + d.toNat := by
  unfold hexDigit
  by_cases small : d.toNat < 10
  · rw [if_pos (UInt8.lt_iff_toNat_lt.mpr small), if_pos small, UInt8.toNat_add]
    exact Nat.mod_eq_of_lt (by simp only [UInt8.reduceToNat]; omega)
  · rw [if_neg (mt UInt8.lt_iff_toNat_lt.mp small), if_neg small, UInt8.toNat_add]
    exact Nat.mod_eq_of_lt (by simp only [UInt8.reduceToNat]; omega)

theorem div_sixteen_lt (b : UInt8) : (b / 16).toNat < 16 := by
  have bound := b.toNat_lt
  rw [UInt8.toNat_div]
  simp only [UInt8.reduceToNat]
  omega

theorem mod_sixteen_lt (b : UInt8) : (b % 16).toNat < 16 := by
  rw [UInt8.toNat_mod]
  simp only [UInt8.reduceToNat]
  omega

theorem hexEncode_range {val b} (hm : b ∈ hexEncode val) : 48 ≤ b.toNat ∧ b.toNat ≤ 102 ∧ b.toNat ≠ 92 := by
  have digit : ∀ d : UInt8, d.toNat < 16 →
      48 ≤ (hexDigit d).toNat ∧ (hexDigit d).toNat ≤ 102 ∧ (hexDigit d).toNat ≠ 92 := by
    intro d bound
    rw [hexDigit_toNat bound]
    split <;> omega
  obtain ⟨source, -, hm⟩ := List.mem_flatMap.mp hm
  simp only [mem_cons, List.not_mem_nil, or_false] at hm
  rcases hm with rfl | rfl
  · exact digit _ (div_sixteen_lt source)
  · exact digit _ (mod_sixteen_lt source)

def literalTokens : Value → List Token
  | .null => [⟨.word, ascii "NULL"⟩]
  | .string val => [⟨.text, 39 :: (doubleQuotes (doubleBackslashes val) ++ [39])⟩]
  | .bytes val =>
    [⟨.text, 39 :: (doubleQuotes (92 :: 120 :: hexEncode val) ++ [39])⟩, ⟨.mark, [58]⟩,
      ⟨.mark, [58]⟩, ⟨.word, ascii "BLOB"⟩]
  | .bool val => [⟨.word, if val then ascii "TRUE" else ascii "FALSE"⟩]
  | .int (.ofNat n) => [⟨.number, decimal n⟩]
  | .int (.negSucc n) => [⟨.sign, [45]⟩, ⟨.number, decimal (n + 1)⟩]

theorem format_bytes : formatArgValue (.value (.bytes val)) =
    39 :: (doubleQuotes (92 :: 120 :: hexEncode val) ++ 39 :: ascii "::BLOB") := by
  have absent : 39 ∉ 92 :: 120 :: hexEncode val := by
    intro hm
    simp only [mem_cons] at hm
    rcases hm with hs | hs | hm
    · exact absurd hs (by decide)
    · exact absurd hs (by decide)
    · exact absurd (hexEncode_range hm).1 (by decide)
  rw [doubleQuotes_of_not_mem absent]
  rfl

theorem lex_literal (v : Value) {rest} (ends : ∀ a ∈ rest.head?, isEnd a) :
    lex (formatArgValue (.value v) ++ rest) = literalTokens v ++ lex rest := by
  cases v with
  | null => exact lex_word (all_eq_true.mp (by decide)) ends
  | string val =>
    have quoted := lex_quoted (doubleBackslashes val) ends
    simpa [formatArgValue, escapeString_eq, literalTokens] using quoted
  | bytes val =>
    have blob : lex (ascii "BLOB" ++ rest) = ⟨.word, ascii "BLOB"⟩ :: lex rest :=
      lex_word (all_eq_true.mp (by decide)) ends
    have cast : lex (ascii "::BLOB" ++ rest) =
        ⟨.mark, [58]⟩ :: ⟨.mark, [58]⟩ :: ⟨.word, ascii "BLOB"⟩ :: lex rest := by
      have colon : start 58 = .close .mark := by decide
      have split : ascii "::BLOB" ++ rest = 58 :: 58 :: (ascii "BLOB" ++ rest) := rfl
      rw [split, lex_close colon, lex_close colon, blob]
    have colonEnds : ∀ a ∈ (ascii "::BLOB" ++ rest).head?, isEnd a := by
      rintro a ⟨⟩
      decide
    have quoted := lex_quoted (92 :: 120 :: hexEncode val) colonEnds
    rw [cast] at quoted
    rw [format_bytes]
    simpa [literalTokens] using quoted
  | bool val => cases val <;> exact lex_word (all_eq_true.mp (by decide)) ends
  | int val =>
    cases val with
    | ofNat n =>
      obtain ⟨b, others, split⟩ := decimal_cons n
      have digits : ∀ a ∈ b :: others, isDigit a := fun a hm => isDigit_of_mem_decimal (split ▸ hm)
      simpa [formatArgValue, decimalInt, literalTokens, split] using lex_number digits ends
    | negSucc n =>
      obtain ⟨b, others, split⟩ := decimal_cons (n + 1)
      have digits : ∀ a ∈ b :: others, isDigit a := fun a hm => isDigit_of_mem_decimal (split ▸ hm)
      simpa [formatArgValue, decimalInt, literalTokens, split] using lex_minus digits ends

theorem lex_format (v : Value) : lex (formatArgValue (.value v)) = literalTokens v := by
  have alone : lex (formatArgValue (.value v) ++ []) = literalTokens v ++ lex [] := lex_literal v (by simp)
  simpa [lex, lexFrom, finish] using alone

/-! ## Reading the literals back -/

theorem unquote_cons {b rest} (ne : b ≠ 39) (hn : rest ≠ []) : unquote (b :: rest) = (unquote rest).map (b :: ·) := by
  cases rest with
  | nil => exact absurd rfl hn
  | cons c rest => rw [unquote, if_neg ne]

theorem unquote_doubleQuotes : unquote (doubleQuotes val ++ [39]) = some val := by
  induction val with
  | nil => rfl
  | cons b val ih =>
    rw [doubleQuotes, flatMap_cons, ← doubleQuotes, append_assoc]
    by_cases quote : b = 39
    · subst quote
      simp only [if_true, cons_append, nil_append]
      rw [unquote, ih]
      rfl
    · rw [if_neg quote, List.singleton_append, unquote_cons quote (by simp), ih]
      rfl

theorem doubleBackslashes_eq_iff : doubleBackslashes val = val ↔ 92 ∉ val := by
  have longer : ∀ val : Bytes, val.length + val.count 92 = (doubleBackslashes val).length := by
    intro val
    induction val with
    | nil => rfl
    | cons b val ih =>
      rw [doubleBackslashes, flatMap_cons, ← doubleBackslashes, List.length_append, ← ih, List.count_cons, length_cons]
      by_cases hs : b = 92 <;> simp [hs] <;> omega
  constructor
  · intro hs
    have lengths := longer val
    rw [hs] at lengths
    exact List.count_eq_zero.mp (by omega)
  · intro gone
    induction val with
    | nil => rfl
    | cons b val ih =>
      rw [mem_cons, not_or] at gone
      rw [doubleBackslashes, flatMap_cons, ← doubleBackslashes, ih gone.2, if_neg (Ne.symm gone.1)]
      rfl

theorem sub_eq_of_toNat {b base d : UInt8} (value : b.toNat = base.toNat + d.toNat) : b - base = d := by
  have le : base ≤ b := UInt8.le_iff_toNat_le.mpr (by omega)
  refine UInt8.toNat_inj.mp ?_
  rw [UInt8.toNat_sub_of_le _ _ le]
  omega

theorem hexValue_hexDigit {d : UInt8} (bound : d.toNat < 16) : hexValue (hexDigit d) = some d := by
  have value := hexDigit_toNat bound
  unfold hexValue
  by_cases small : d.toNat < 10
  · rw [if_pos small] at value
    have digit : isDigit (hexDigit d) = true := (isDigit_iff _).mpr (by omega)
    rw [if_pos digit]
    refine congrArg some (sub_eq_of_toNat ?_)
    simp only [UInt8.reduceToNat]
    omega
  · rw [if_neg small] at value
    have notDigit : ¬ isDigit (hexDigit d) = true := by
      rw [isDigit_iff]
      omega
    have letter : 97 ≤ hexDigit d ∧ hexDigit d ≤ 102 := by
      simp only [UInt8.le_iff_toNat_le, UInt8.reduceToNat]
      omega
    rw [if_neg notDigit, if_pos letter]
    refine congrArg some (sub_eq_of_toNat ?_)
    simp only [UInt8.reduceToNat]
    omega

theorem readBlob_plain {val} (plain : ∀ b ∈ val, b ≠ 92 ∧ b.toNat < 128) : readBlob val = some val := by
  induction val with
  | nil => rfl
  | cons b val ih =>
    obtain ⟨ne, bound⟩ := plain b mem_cons_self
    have ordinary : ¬ (b = 92 ∨ 128 ≤ b) := by
      rw [UInt8.le_iff_toNat_le]
      simp only [UInt8.reduceToNat]
      rintro (hs | large)
      · exact ne hs
      · omega
    rw [readBlob, if_neg ordinary, ih fun c hm => plain c (mem_cons_of_mem _ hm)]
    · rfl
    · rintro high low rest rfl
      exact absurd rfl ne

theorem readBlob_hex (b : UInt8) (val : Bytes) :
    readBlob (92 :: 120 :: hexEncode (b :: val)) = some (b :: hexEncode val) := by
  have rest : readBlob (hexEncode val) = some (hexEncode val) := by
    refine readBlob_plain fun c hm => ?_
    have range := hexEncode_range hm
    refine ⟨?_, by omega⟩
    rintro rfl
    exact range.2.2 rfl
  have halves : 16 * (b / 16) + b % 16 = b := by
    have bound := b.toNat_lt
    apply UInt8.toNat_inj.mp
    rw [UInt8.toNat_add, UInt8.toNat_mul, UInt8.toNat_div, UInt8.toNat_mod]
    simp only [UInt8.reduceToNat]
    omega
  rw [hexEncode, flatMap_cons, ← hexEncode]
  simp only [cons_append, nil_append]
  rw [readBlob, hexValue_hexDigit (div_sixteen_lt b), hexValue_hexDigit (mod_sixteen_lt b), rest]
  simp [halves]

theorem hexEncode_length : (hexEncode val).length = 2 * val.length := by
  induction val with
  | nil => rfl
  | cons b val ih =>
    rw [hexEncode, flatMap_cons, ← hexEncode, List.length_append]
    simp only [length_cons, List.length_nil]
    omega

theorem readBlob_iff : readBlob (92 :: 120 :: hexEncode val) = some val ↔ val.length = 1 := by
  cases val with
  | nil => decide
  | cons b val =>
    rw [readBlob_hex]
    constructor
    · intro hs
      have lengths := congrArg List.length (List.cons.inj (Option.some.inj hs)).2
      rw [hexEncode_length] at lengths
      simp only [length_cons]
      omega
    · intro single
      rw [List.eq_nil_of_length_eq_zero (Nat.succ.inj single)]
      rfl

theorem readLiteral_format_iff (v : Value) : readLiteral (formatArgValue (.value v)) = some v ↔ v.Legible := by
  rw [readLiteral, lex_format]
  cases v with
  | null => exact ⟨fun _ => trivial, fun _ => rfl⟩
  | bool val => cases val <;> exact ⟨fun _ => trivial, fun _ => rfl⟩
  | string val =>
    simp only [literalTokens, unquote_doubleQuotes, map_some, Option.some.injEq, Value.string.injEq]
    exact doubleBackslashes_eq_iff val
  | bytes val =>
    simp only [literalTokens, unquote_doubleQuotes, if_true, bind_some,
      map_eq_some_iff, Value.bytes.injEq, exists_eq_right]
    exact readBlob_iff val
  | int val =>
    have digits : ∀ n, (decimal n).all isDigit = true := fun n => all_eq_true.mpr fun b => isDigit_of_mem_decimal
    refine ⟨fun _ => trivial, fun _ => ?_⟩
    cases val with
    | ofNat => simp [literalTokens, digits, readDecimal_decimal]
    | negSucc => simp [literalTokens, digits, readDecimal_decimal, Int.negSucc_eq]

end Duckgres.Proof.Flight
