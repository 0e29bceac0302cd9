import Duckgres.Proof.Flight.Literal

namespace Duckgres.Proof.Flight
open Base Duckgres.Flight Option
open List hiding lex

/-! ## The passes over a text -/

def dollarCoding : Coding UInt8 where
  marker := 36
  code := decimal
  symbol b := isDigit b = true
  symbol_of_mem := isDigit_of_mem_decimal
  marker_not_symbol := by decide
  le_of_isPrefix isPrefix := by
    simpa only [readDecimal_decimal] using readDecimal_le_of_isPrefix isPrefix
  lead := decimal_lead

theorem interpolateFrom_eq (args : List Arg) (n : Nat) (query : Bytes) :
    interpolateFrom args n query = dollarCoding.sequential (literalAt args) n query := by
  induction n generalizing query with
  | zero => rfl
  | succ n ih => exact ih _

theorem slot?_eq_some {n i : Nat} {token : Token} (hf : token.slot? n = some i) :
    token.bytes = placeholder i ∧ 0 < i ∧ i ≤ n := by
  simp only [Token.slot?, ite_none_right_eq_some, Option.some.injEq] at hf
  obtain ⟨⟨-, bytes, hpos, le⟩, rfl⟩ := hf
  exact ⟨bytes, hpos, le⟩

def tokenSegments (n : Nat) (token : Token) : List (Segment UInt8) :=
  match token.slot? n with
  | some i => [.slot i]
  | none => token.bytes.map (.fixed · n)

variable (query : Bytes)

theorem template_eq (n : Nat) : template query n = (lex query).flatMap (tokenSegments n) := rfl

theorem text_tokenSegments (n : Nat) (token : Token) : dollarCoding.text (tokenSegments n token) = token.bytes := by
  unfold tokenSegments
  split
  · rename_i i hf
    exact (append_nil _).trans (slot?_eq_some hf).1.symm
  · have plain := Coding.text_map_fixed dollarCoding token.bytes n []
    simpa using plain

theorem template_text (n : Nat) : dollarCoding.text (template query n) = query := by
  calc dollarCoding.text (template query n)
      = (lex query).flatMap fun token => dollarCoding.text (tokenSegments n token) := by
        rw [template_eq, Coding.text, flatMap_assoc]
        rfl
    _ = (lex query).flatMap Token.bytes := by
        rw [funext (text_tokenSegments n)]
    _ = query := lex_bytes query

theorem template_stage (n : Nat) : Coding.Stage n (template query n) := by
  intro segment hm
  obtain ⟨token, -, hm⟩ := mem_flatMap.mp hm
  split at hm
  · rename_i i hf
    rw [mem_singleton.mp hm]
    exact (slot?_eq_some hf).2
  · obtain ⟨b, -, rfl⟩ := mem_map.mp hm
    exact Nat.le_refl n

variable (values : List Value)

theorem literalAt_value (i : Nat) :
    literalAt (values.map .value) i = formatArgValue (.value (values.getD (i - 1) .null)) := by
  simp only [literalAt, getD_eq_getElem?_getD, getElem?_map]
  cases values[i - 1]? <;> rfl

theorem format_visible (v : Value) : ∃ first others, formatArgValue (.value v) = first :: others ∧ first ≠ 36 := by
  have number : ∀ n, ∃ first others, decimal n = first :: others ∧ first ≠ 36 := by
    intro n
    obtain ⟨first, others, split⟩ := decimal_cons n
    refine ⟨first, others, split, ne_of_class (isDigit_of_mem_decimal (n := n) ?_) rfl⟩
    rw [split]
    exact mem_cons_self
  cases v with
  | null => exact ⟨78, ascii "ULL", rfl, by decide⟩
  | string => exact ⟨39, _, rfl, by decide⟩
  | bytes val => exact ⟨39, _, format_bytes val, by decide⟩
  | bool val =>
    cases val with
    | false => exact ⟨70, ascii "ALSE", rfl, by decide⟩
    | true => exact ⟨84, ascii "RUE", rfl, by decide⟩
  | int val =>
    cases val with
    | ofNat n => exact number n
    | negSucc => exact ⟨45, _, rfl, by decide⟩

theorem substituted_iff (spaced : Spaced query values.length) :
    interpolateArgs query (values.map .value) = substitute query (values.map .value) ↔
      Undisturbed query (values.map .value) := by
  have visible : ∀ i, 0 < i → i ≤ values.length → ∃ first others,
      literalAt (values.map .value) i = first :: others ∧ first ≠ dollarCoding.marker := by
    intro i _ _
    rw [literalAt_value]
    exact format_visible _
  have passes := Coding.sequential_eq_iff visible spaced (template_stage query values.length)
  rw [template_text] at passes
  rw [interpolateArgs, interpolateFrom_eq, substitute, Undisturbed, length_map]
  exact passes

theorem readsBack_iff : (∀ i, .slot i ∈ template query values.length →
      readLiteral (literalAt (values.map .value) i) = values[i - 1]?) ↔ Legible query values := by
  refine forall_congr' fun i => forall_congr' fun hm => ?_
  obtain ⟨hpos, le⟩ : 0 < i ∧ i ≤ values.length := template_stage query values.length _ hm
  have bound : i - 1 < values.length := by omega
  rw [literalAt_value, getD_eq_getElem?_getD, getElem?_eq_getElem bound, getD_some, readLiteral_format_iff]
  simp

/-! ## Token by token -/

section Separated
variable (args : List Arg)

def fillToken (token : Token) : Bytes :=
  match token.slot? args.length with
  | some i => literalAt args i
  | none => token.bytes

def fillTokens (tokens : List Token) : Bytes := tokens.flatMap (fillToken args)

theorem substitute_eq (query : Bytes) : substitute query args = fillTokens args (lex query) := by
  have each : ∀ token, Coding.simultaneous (literalAt args) (tokenSegments args.length token) =
      fillToken args token := by
    intro token
    unfold tokenSegments fillToken
    split
    · simp [Coding.simultaneous]
    · simp [Coding.simultaneous, flatMap_map]
  rw [substitute, template_eq, Coding.simultaneous, flatMap_assoc, fillTokens, ← funext each]
  rfl

variable {args}

theorem fillTokens_head {text} (plain : ∀ token ∈ (lex text).head?, token.slot? args.length = none) :
    (fillTokens args (lex text)).head? = text.head? := by
  have whole := lex_bytes text
  cases tokens : lex text with
  | nil =>
    rw [tokens] at whole
    rw [← whole]
    rfl
  | cons token rest =>
    rw [tokens] at whole plain
    have hm : token ∈ lex text := by simp [tokens]
    have hn := token_nonempty hm
    obtain ⟨b, others, split⟩ := exists_cons_of_ne_nil hn
    have hs : fillToken args token = token.bytes := by rw [fillToken, plain token rfl]
    rw [← whole, fillTokens, flatMap_cons, flatMap_cons, hs, split]
    rfl

theorem next_comment_isSome {mode} (comment : mode.kind = .comment) (seen : Bytes)
    (b : UInt8) : next mode seen b ≠ none := by
  cases mode with
  | lineComment =>
    simp only [Flight.next]
    split <;> simp
  | blockComment depth =>
    simp only [Flight.next]
    split
    · cases depth <;> simp
    · split <;> simp
  | _ => simp [Mode.kind] at comment

theorem stopped_kind (mode : Mode) : mode.kind ≠ .gap ∧ mode.kind ≠ .mark := by
  cases mode <;> simp [Mode.kind]

theorem lex_plain {token rest} (first : FirstToken none token token.bytes rest)
    (head : (fillTokens args (lex rest)).head? = rest.head? ∨
      token.kind = .gap ∨ token.kind = .comment ∨ token.kind = .mark)
    (some : rest ≠ []) :
    lex (token.bytes ++ fillTokens args (lex rest)) = token :: lex (fillTokens args (lex rest)) := by
  cases first with
  | closed alone => exact alone _
  | stopped mode kind hs ends =>
    have stops : ∀ b ∈ (fillTokens args (lex rest)).head?, next mode token.bytes b = none := by
      rcases head with head | gap | comment | mark
      · rw [head]
        exact ends
      · exact absurd (kind.symm.trans gap) (stopped_kind mode).1
      · obtain ⟨b, others, split⟩ := exists_cons_of_ne_nil some
        exact absurd (ends b (by rw [split]; rfl)) (next_comment_isSome (kind.symm.trans comment) token.bytes b)
      · exact absurd (kind.symm.trans mark) (stopped_kind mode).2
    have lexed := (hs _).trans (lexFrom_stop stops)
    rwa [← kind] at lexed

end Separated

theorem separated_of_delimited (delimited : Delimited query values.length) : Separated query (values.map .value) := by
  rw [Separated, substitute_eq]
  rw [Delimited] at delimited
  have length : (values.map Arg.value).length = values.length := length_map _
  generalize lexed : lex query = tokens at delimited ⊢
  induction tokens generalizing query with
  | nil => rfl
  | cons token tokens ih =>
    obtain ⟨front, rest, -, bytes, lexedRest, first⟩ := firstToken lexed
    rw [show front = token.bytes from bytes.symm] at first
    have later := ih rest lexedRest delimited.tail
    rw [← lexedRest] at later delimited ⊢
    have hne := (isChain_cons.mp delimited).1
    rw [fillTokens, flatMap_cons, ← fillTokens, flatMap_cons, ← later, fillToken]
    cases slot : token.slot? (values.map Arg.value).length with
    | some i =>
      have isSlot : (token.slot? values.length).isSome := by rw [← length, slot]; rfl
      have plain : ∀ right ∈ (lex rest).head?,
          right.slot? (values.map Arg.value).length = none := by
        intro right hm
        by_contra hf
        obtain ⟨j, hf⟩ := ne_none_iff_exists'.mp hf
        have ends := (hne right hm).2 isSlot
        rw [(slot?_eq_some hf).1] at ends
        obtain ⟨b, head, notEnd⟩ : ∃ b ∈ (placeholder j).head?, isEnd b = false := ⟨36, rfl, rfl⟩
        exact Bool.false_ne_true (notEnd.symm.trans (ends b head))
      have ends : ∀ b ∈ (fillTokens (values.map Arg.value) (lex rest)).head?, isEnd b := by
        rw [fillTokens_head plain, ← lex_bytes rest]
        cases tail : lex rest with
        | nil => simp
        | cons right others =>
          have hm : right ∈ lex rest := by simp [tail]
          obtain ⟨c, bytes, split⟩ := exists_cons_of_ne_nil (token_nonempty hm)
          have closes := (hne right (by simp [tail])).2 isSlot
          rw [split] at closes
          rw [flatMap_cons, split]
          exact closes
      simp only [literalAt_value]
      rw [lex_literal _ ends, lex_format]
    | none =>
      by_cases ended : rest = []
      · subst ended
        cases first with
        | closed alone => exact alone _
        | stopped _ kind hs ends =>
          have lexed := (hs []).trans (lexFrom_stop ends)
          rwa [← kind] at lexed
      · refine lex_plain first ?_ ended
        by_cases plain : ∀ right ∈ (lex rest).head?, right.slot? (values.map Arg.value).length = none
        · exact .inl (fillTokens_head plain)
        · simp only [not_forall] at plain
          obtain ⟨right, hm, hf⟩ := plain
          refine .inr ((hne right hm).1 ?_)
          rw [← length]
          exact isSome_iff_ne_none.mpr hf

theorem interpolateArgs_correct_iff (spaced : Spaced query values.length) :
    (Interpolated query values ↔ Undisturbed query (values.map .value) ∧ Legible query values ∧
        Separated query (values.map .value)) ∧
      (Delimited query values.length → Separated query (values.map .value)) := by
  refine ⟨⟨?_, ?_⟩, separated_of_delimited query values⟩
  · rintro ⟨substituted, readsBack, separated⟩
    exact ⟨(substituted_iff query values spaced).mp substituted, (readsBack_iff query values).mp readsBack, separated⟩
  · rintro ⟨undisturbed, legible, separated⟩
    exact ⟨(substituted_iff query values spaced).mpr undisturbed, (readsBack_iff query values).mpr legible, separated⟩

theorem interpolateArgs_correct_select : Interpolated (ascii "SELECT $1, $2") [.string (ascii "it's"), .int (-5)] := by
  have shape : template (ascii "SELECT $1, $2") 2 =
      (ascii "SELECT ").map (.fixed · 2) ++ .slot 1 :: .fixed 44 2 :: .fixed 32 2 :: [.slot 2] := by
    decide
  have spaced : Spaced (ascii "SELECT $1, $2") 2 := by
    rw [Spaced, shape]
    refine Coding.spaced_append_fixed (c := dollarCoding) _ 2 ?_
    simp [Coding.Spaced, dollarCoding, isDigit]
  have correct := interpolateArgs_correct_iff (ascii "SELECT $1, $2") [.string (ascii "it's"), .int (-5)] spaced
  refine correct.1.mpr ⟨?_, ?_, correct.2 (by decide)⟩
  · intro d hpos le
    have bounds : d = 1 ∨ d = 2 := by
      simp only [List.length_map, List.length_cons, List.length_nil] at le
      omega
    rcases bounds with rfl | rfl <;> decide
  · intro i hm v hf
    simp only [List.length_cons, List.length_nil, shape] at hm
    have bounds : i = 1 ∨ i = 2 := by simpa using hm
    rcases bounds with rfl | rfl
    · obtain ⟨⟩ := hf
      show (92 : UInt8) ∉ ascii "it's"
      decide
    · obtain ⟨⟩ := hf
      trivial

theorem interpolateArgs_rewrites_value : interpolateArgs (ascii "SELECT $1, $2")
        ([.string (ascii "x"), .string (ascii "$1")].map .value) = ascii "SELECT 'x', ''x''" ∧
      substitute (ascii "SELECT $1, $2")
        ([.string (ascii "x"), .string (ascii "$1")].map .value) = ascii "SELECT 'x', '$1'" ∧
      ¬ Interpolated (ascii "SELECT $1, $2") [.string (ascii "x"), .string (ascii "$1")] := by
  refine ⟨by decide, by decide, ?_⟩
  intro interpolated
  exact absurd interpolated.substituted (by decide)

end Duckgres.Proof.Flight
