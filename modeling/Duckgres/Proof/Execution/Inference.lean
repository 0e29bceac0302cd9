import Duckgres.Execution.Inference
import Duckgres.Proof.Flight.Literal

namespace Duckgres.Proof.Execution
open Base Duckgres.Flight Duckgres.Execution Duckgres.Proof.Flight Text
open List hiding lex

/-! ## Where a clause can be appended -/

def pendingAfter : Pending → Bytes → Pending
  | pending, [] => pending
  | pending, b :: rest => pendingAfter (advance pending b).2 rest

def emitted : Pending → Bytes → List Token
  | _, [] => []
  | pending, b :: rest => (advance pending b).1 ++ emitted (advance pending b).2 rest

theorem lexFrom_append (pending : Pending) (front rest : Bytes) :
    lexFrom pending (front ++ rest) = emitted pending front ++ lexFrom (pendingAfter pending front) rest := by
  induction front generalizing pending with
  | nil => rfl
  | cons b front ih =>
    rw [cons_append, lexFrom, ih, emitted, append_assoc]
    rfl

def absorbs : Mode → Bool
  | .dollarText _ | .text _ | .textBackslash | .name | .lineComment | .blockComment .. => true
  | _ => false

def EndsOutside (text : Text) : Prop :=
  ∀ mode seen, pendingAfter none (utf8 text) = some (mode, seen) → absorbs mode = false

variable {mode : Mode} {text rest : Text} {c : Char}

theorem next_dollarText {seen tag b}
    (kept : next mode seen b = some (.keep (.dollarText tag))) : mode = .dollarText tag ∨ tag = seen ++ [36] := by
  cases mode with
  | blockComment depth => cases depth <;> grind [Flight.next]
  | _ => grind [Flight.next]

def WellTagged (pending : Pending) : Prop :=
  ∀ tag seen, pending = some (.dollarText tag, seen) → ∃ front, tag = front ++ [36]

theorem advance_wellTagged {pending} (tagged : WellTagged pending) (b : UInt8) : WellTagged (advance pending b).2 := by
  have begins (tag seen : Bytes) : ((start b).enter [b]).2 ≠ some (.dollarText tag, seen) := by
    grind [start, Action.enter]
  intro tag seen now
  cases pending with
  | none => exact absurd now (begins tag seen)
  | some pair =>
    obtain ⟨mode, before⟩ := pair
    unfold advance at now
    dsimp only at now
    cases step : next mode before b with
    | none =>
      rw [step] at now
      exact absurd now (begins tag seen)
    | some ha =>
      rw [step] at now
      cases ha with
      | close => cases now
      | keep =>
        cases now
        rcases next_dollarText step with rfl | isTag
        · exact tagged tag before rfl
        · exact ⟨before, isTag⟩

theorem pendingAfter_wellTagged {pending} (tagged : WellTagged pending) (text : Bytes) :
    WellTagged (pendingAfter pending text) := by
  induction text generalizing pending with
  | nil => exact tagged
  | cons b text ih => exact ih (advance_wellTagged tagged b)

def limitBytes : Bytes := ascii " LIMIT 0"

def plainByte (b : UInt8) : Bool := b ≠ 39 && b ≠ 92 && b ≠ 34 && b ≠ 10 && b ≠ 13 && b ≠ 42 && b ≠ 47 && b ≠ 36

theorem next_absorbs (seen : Bytes) {b} (absorbing : absorbs mode = true)
    (tagged : ∀ tag, mode = .dollarText tag → ∃ front, tag = front ++ [36]) (isPlain : plainByte b = true) :
    ∃ later, next mode seen b = some (.keep later) ∧ absorbs later = true ∧ later.kind = mode.kind ∧
      ∀ tag, later = .dollarText tag → ∃ front, tag = front ++ [36] := by
  simp only [plainByte, Bool.and_eq_true, decide_eq_true_eq] at isPlain
  cases mode with
  | dollarText tag =>
    refine ⟨.dollarText tag, ?_, rfl, rfl, tagged⟩
    obtain ⟨front, rfl⟩ := tagged tag rfl
    have hne : (front ++ [36]).isSuffixOf (seen ++ [b]) = false := by
      rw [← Bool.not_eq_true, isSuffixOf_iff_suffix]
      intro isSuffix
      have last := List.IsSuffix.getLast isSuffix (by simp)
      grind
    simp [Flight.next, hne]
  | text escapes => exact ⟨.text escapes, (by simp [Flight.next, isPlain]), rfl, rfl, by simp⟩
  | textBackslash => exact ⟨.text true, rfl, rfl, rfl, by simp⟩
  | name => exact ⟨.name, (by simp [Flight.next, isPlain]), rfl, rfl, by simp⟩
  | lineComment => exact ⟨.lineComment, (by simp [Flight.next, isPlain]), rfl, rfl, by simp⟩
  | blockComment depth =>
    exact ⟨.blockComment depth b, (by cases depth <;> simp [Flight.next, isPlain]), rfl, rfl, by simp⟩
  | _ => cases absorbing

theorem lexFrom_absorbs {seen} {text} (absorbing : absorbs mode = true)
    (tagged : ∀ tag, mode = .dollarText tag → ∃ front, tag = front ++ [36]) (isPlain : ∀ b ∈ text, plainByte b = true) :
    lexFrom (some (mode, seen)) text = [⟨mode.kind, seen ++ text⟩] := by
  induction text generalizing mode seen with
  | nil => simp [lexFrom, finish]
  | cons b text ih =>
    obtain ⟨later, kept, absorbing, kind, tagged⟩ := next_absorbs seen absorbing tagged (isPlain b mem_cons_self)
    rw [lexFrom_keep kept, ih absorbing tagged fun b hm => isPlain b (mem_cons_of_mem _ hm), kind]
    simp

theorem next_stops (seen : Bytes) (stops : absorbs mode = false) : next mode seen 32 = none := by
  cases mode with
  | word | number | param | dollar => rfl
  | textQuote | nameQuote | dash | slash => rfl
  | _ => cases stops

def limitClause : Text := " LIMIT 0".toList

theorem utf8_append (front rest : Text) : utf8 (front ++ rest) = utf8 front ++ utf8 rest := flatMap_append

theorem tokens_append (front rest : Text) : tokens (front ++ rest) = (emitted none (utf8 front)).filter significant ++
      (lexFrom (pendingAfter none (utf8 front)) (utf8 rest)).filter significant := by
  rw [tokens, utf8_append, lex, lexFrom_append, filter_append]

theorem tokens_eq (text : Text) : tokens text = (emitted none (utf8 text)).filter significant ++
      (finish (pendingAfter none (utf8 text))).filter significant := by
  have split := tokens_append text []
  rwa [append_nil] at split

theorem restricts_iff (query : Text) : Restricts query (query ++ limitClause) ↔ EndsOutside query := by
  have isLimit : utf8 limitClause = limitBytes := by decide
  have isPlain : ∀ b ∈ limitBytes, plainByte b = true := all_eq_true.mp rfl
  have hf : (lex limitBytes).filter significant = limitZero := by decide
  unfold Restricts EndsOutside
  rw [tokens_append, tokens_eq query, isLimit, append_assoc]
  have tagged : WellTagged (pendingAfter none (utf8 query)) := pendingAfter_wellTagged (fun _ _ none => by cases none) _
  cases pending : pendingAfter none (utf8 query) with
  | none => simpa [finish, lex] using hf
  | some pair =>
    obtain ⟨mode, seen⟩ := pair
    cases absorbing : absorbs mode with
    | false =>
      have stopped : lexFrom (some (mode, seen)) limitBytes = ⟨mode.kind, seen⟩ :: lex limitBytes :=
        lexFrom_stop fun b first => by
          cases first
          exact next_stops seen absorbing
      rw [stopped, ← singleton_append, filter_append, hf]
      simp [finish, absorbing]
    | true =>
      rw [pending] at tagged
      rw [lexFrom_absorbs absorbing (fun tag isTag => tagged tag seen (isTag ▸ rfl)) isPlain]
      constructor
      · intro hs
        have lengths := congrArg List.length hs
        cases kept : significant ⟨mode.kind, seen⟩ with
        | false =>
          have dropped : significant ⟨mode.kind, seen ++ limitBytes⟩ = false := kept
          simp [dropped, limitZero] at lengths
        | true =>
          have hkp' : significant ⟨mode.kind, seen ++ limitBytes⟩ = true := kept
          simp [hkp', limitZero] at lengths
      · intro outside
        cases absorbing.symm.trans (outside mode seen rfl)

theorem not_restricts_self (query : Text) : ¬ Restricts query query := by
  intro hs
  have lengths := congrArg List.length hs
  simp [limitZero] at lengths

section Probe
variable (query : Text)

def limitable : Bool := supportsLimit (trimSemicolons query).toUpper

def mentionsLimit : Bool := (trimSemicolons query).toUpper.contains "LIMIT".toList

theorem withLimit_eq : withLimit query =
    if !mentionsLimit query && limitable query then trimSemicolons query ++ limitClause else trimSemicolons query := rfl

end Probe

theorem head_trimSemicolons {query} (isFirst : trimSemicolons query = c :: rest) : Text.isSpace c = false := by
  have isPrefix : trimSemicolons query <+: query.trimSpace := rdropWhile_prefix _ _
  rw [isFirst] at isPrefix
  exact isSpace_of_prefix isPrefix

theorem first_of_supportsLimit {q : Text} (limitable : supportsLimit q.toUpper = true)
    (trimmed : ∀ c rest, q = c :: rest → Text.isSpace c = false) :
    ∃ c rest, q = c :: rest ∧ Text.upper c ∈ ['S', 'W', 'V', 'T', 'F'] := by
  cases q with
  | nil => cases limitable
  | cons c rest =>
    refine ⟨c, rest, rfl, ?_⟩
    have plain : Text.isSpace (Text.upper c) = false := (isSpace_upper c).trans (trimmed c rest rfl)
    obtain ⟨after, kept⟩ := trimSpace_cons plain (s := Text.toUpper rest)
    change supportsLimit (Text.upper c :: Text.toUpper rest) = true at limitable
    simp only [supportsLimit] at limitable
    simp [Text.hasPrefix] at limitable
    grind

def solid (c : Char) : Bool := !Text.isSpace c && c ≠ ';'

theorem isEmptyQuery_of_solid (hm : c ∈ text.trimSpace) (isSolid : solid c = true)
    (noBlock : text.trimSpace.hasPrefix "/*".toList = false) (noLine : text.trimSpace.hasPrefix "--".toList = false) :
    isEmptyQuery text = false := by
  have stripped : stripLeadingComments text = text.trimSpace := by
    simp only [stripLeadingComments, stripCommentsWithin, noBlock, noLine]
    rfl
  rw [isEmptyQuery, stripped, all_eq_false]
  refine ⟨c, hm, fun blank => ?_⟩
  simp only [Bool.or_eq_true, decide_eq_true_eq] at blank
  rcases blank with (((rfl | rfl) | rfl) | rfl) | rfl <;> cases isSolid

theorem hasPrefix_cons_of_ne {d s} (hne : c ≠ d) : Text.hasPrefix (c :: s) (d :: rest) = false := by
  simp [Text.hasPrefix, List.isPrefixOf, Ne.symm hne]

theorem isEmptyQuery_of_first (first : Text.upper c ∈ ['S', 'W', 'V', 'T', 'F']) :
    isEmptyQuery (c :: rest) = false := by
  have hne (d : Char) (other : Text.upper d ∉ ['S', 'W', 'V', 'T', 'F']) : c ≠ d := by
    rintro rfl
    exact other first
  have letters : ∀ d ∈ ['S', 'W', 'V', 'T', 'F'], Text.isSpace d = false := by simp [Text.isSpace]
  have plain : Text.isSpace c = false := (isSpace_upper c).symm.trans (letters _ first)
  obtain ⟨after, kept⟩ := trimSpace_cons plain
  apply isEmptyQuery_of_solid
  · rw [kept]
    exact mem_cons_self
  · simp [solid, plain, hne ';' (by decide)]
  · rw [kept]
    exact hasPrefix_cons_of_ne (hne '/' (by decide))
  · rw [kept]
    exact hasPrefix_cons_of_ne (hne '-' (by decide))

section Probe
variable {query : Text}

theorem first_of_limitable (isLimitable : limitable query = true) :
    ∃ c rest, trimSemicolons query = c :: rest ∧ Text.upper c ∈ ['S', 'W', 'V', 'T', 'F'] :=
  first_of_supportsLimit isLimitable fun _ _ => head_trimSemicolons

theorem isEmptyQuery_withLimit (isLimitable : limitable query = true) : isEmptyQuery (withLimit query) = false := by
  obtain ⟨c, rest, isFirst, keyword⟩ := first_of_limitable isLimitable
  rw [withLimit_eq, isFirst]
  split <;> exact isEmptyQuery_of_first keyword

theorem trimSemicolons_limited (plain : Text.isSpace c = false) :
    trimSemicolons (c :: rest ++ limitClause) = c :: rest ++ limitClause := by
  have split : c :: rest ++ limitClause = (c :: rest ++ " LIMIT ".toList) ++ ['0'] := by
    rw [append_assoc]
    rfl
  have trimmed : Text.trimSpace (c :: rest ++ limitClause) = c :: rest ++ limitClause := by
    rw [Text.trimSpace, cons_append, dropWhile_cons_of_neg (by simp [plain]), ← cons_append, split]
    exact rdropWhile_concat_neg _ _ _ (by decide)
  rw [trimSemicolons, trimmed, split]
  exact rdropWhile_concat_neg _ _ _ (by decide)

theorem withLimit_limited (isLimitable : limitable query = true) :
    withLimit (trimSemicolons query ++ limitClause) = trimSemicolons query ++ limitClause := by
  obtain ⟨c, rest, isFirst, keyword⟩ := first_of_limitable isLimitable
  rw [isFirst]
  have mentions : mentionsLimit (c :: rest ++ limitClause) = true := by
    rw [mentionsLimit, trimSemicolons_limited (head_trimSemicolons isFirst), contains_iff]
    refine ⟨Text.toUpper (c :: rest) ++ [' '], " 0".toList, ?_⟩
    rw [Text.toUpper, Text.toUpper, map_append, append_assoc, append_assoc]
    rfl
  rw [withLimit_eq, mentions, trimSemicolons_limited (head_trimSemicolons isFirst)]
  rfl

theorem mentionsLimit_trimSemicolons (mentions : mentionsLimit query = true) :
    mentionsLimit (trimSemicolons query) = true := by
  have space (c : Char) (isSpace : Text.isSpace c = true) : Text.upper c ∉ "LIMIT".toList := by
    intro hm
    rw [← isSpace_upper] at isSpace
    have letters : ∀ d ∈ "LIMIT".toList, Text.isSpace d = false := by simp [Text.isSpace]
    cases isSpace.symm.trans (letters _ hm)
  have semicolon (c : Char) (isSemicolon : decide (c = ';') = true) : Text.upper c ∉ "LIMIT".toList := by
    rw [of_decide_eq_true isSemicolon]
    decide
  rw [mentionsLimit, contains_iff] at mentions ⊢
  apply infix_map_rdropWhile semicolon
  apply infix_map_rdropWhile space
  exact infix_map_dropWhile space mentions

end Probe

/-! ## Info and fetch -/

variable (D : Verdict)

structure InferredFrom (query : Text) (info fetch : List Text) : Prop where
  harmless : ∀ text ∈ info, D.modifies text = false
  once : (info ++ fetch).countP D.modifies = if D.modifies query then 1 else 0
  restricted : D.returnsRows (trimSemicolons query) = true → ∀ text ∈ info, Restricts (trimSemicolons query) text

def Inferred (endpoint : Endpoint) (query : Text) : Prop :=
  ∀ info, infoTexts endpoint query = some info → InferredFrom D query info (fetchTexts endpoint query)

inductive Limitable (q : Text) : Prop
  | rows (returnsRows : D.returnsRows q = true) (supported : supportsLimit q.toUpper = true)
      (unmentioned : q.toUpper.contains "LIMIT".toList = false) (outside : EndsOutside q)
  | appended (noRows : D.returnsRows q = false) (supported : supportsLimit q.toUpper = true)
      (unmentioned : q.toUpper.contains "LIMIT".toList = false) (harmless : D.modifies (q ++ " LIMIT 0".toList) = false)
  | unchanged (noRows : D.returnsRows q = false)
      (bare : supportsLimit q.toUpper = false ∨ q.toUpper.contains "LIMIT".toList = true)
      (harmless : D.modifies q = false)

def Inferable (endpoint : Endpoint) (query : Text) : Prop :=
  isEmptyQuery query = true ∨ endpoint = .ingress ∧ supportsLimit (trimSemicolons query).toUpper = false ∨
    Limitable D (trimSemicolons query)

variable {D} {query : Text}

theorem withLimit_of_limitable (isLimitable : limitable query = true) (unmentioned : mentionsLimit query = false) :
    withLimit query = trimSemicolons query ++ limitClause := by
  rw [withLimit_eq, isLimitable, unmentioned]
  rfl

theorem withLimit_of_bare (bare : limitable query = false ∨ mentionsLimit query = true) :
    withLimit query = trimSemicolons query := by
  rw [withLimit_eq]
  rcases bare with refused | mentioned
  · simp [refused]
  · simp [mentioned]

theorem limitable_iff : Limitable D (trimSemicolons query) ↔ D.modifies (withLimit query) = false ∧
    (D.returnsRows (trimSemicolons query) = true → Restricts (trimSemicolons query) (withLimit query)) := by
  constructor
  · intro fits
    cases fits with
    | rows returnsRows supported unmentioned outside =>
      have restricts := (restricts_iff (trimSemicolons query)).mpr outside
      rw [withLimit_of_limitable supported unmentioned]
      exact ⟨D.modifies_limited _ _ returnsRows restricts, fun _ => restricts⟩
    | appended noRows supported unmentioned harmless =>
      rw [withLimit_of_limitable supported unmentioned]
      exact ⟨harmless, fun rows => absurd (noRows.symm.trans rows) Bool.false_ne_true⟩
    | unchanged noRows bare harmless =>
      rw [withLimit_of_bare bare]
      exact ⟨harmless, fun rows => absurd (noRows.symm.trans rows) Bool.false_ne_true⟩
  · rintro ⟨harmless, restricted⟩
    by_cases bare : limitable query = false ∨ mentionsLimit query = true
    · rw [withLimit_of_bare bare] at harmless restricted
      cases returns : D.returnsRows (trimSemicolons query) with
      | true => exact absurd (restricted returns) (not_restricts_self _)
      | false => exact .unchanged returns bare harmless
    · rw [not_or, Bool.not_eq_false, Bool.not_eq_true] at bare
      obtain ⟨supported, unmentioned⟩ := bare
      rw [withLimit_of_limitable supported unmentioned] at harmless restricted
      cases returns : D.returnsRows (trimSemicolons query) with
      | true => exact .rows returns supported unmentioned ((restricts_iff _).mp (restricted returns))
      | false => exact .appended returns supported unmentioned harmless

theorem withLimit_withLimit (isLimitable : limitable query = true) :
    D.modifies (withLimit (withLimit query)) = D.modifies (withLimit query) ∧
      (Restricts (trimSemicolons query) (withLimit query) → withLimit (withLimit query) = withLimit query) := by
  cases mentioned : mentionsLimit query with
  | true =>
    rw [withLimit_of_bare (.inr mentioned), withLimit_eq, mentionsLimit_trimSemicolons mentioned]
    exact ⟨D.modifies_trim _, fun restricts => absurd restricts (not_restricts_self _)⟩
  | false =>
    rw [withLimit_of_limitable isLimitable mentioned, withLimit_limited isLimitable]
    exact ⟨rfl, fun _ => rfl⟩

theorem inferredFrom_worker : InferredFrom D query [withLimit query] [query] ↔ Limitable D (trimSemicolons query) := by
  rw [limitable_iff]
  constructor
  · intro inferred
    exact ⟨inferred.harmless _ mem_cons_self, fun rows => inferred.restricted rows _ mem_cons_self⟩
  · rintro ⟨harmless, restricted⟩
    exact ⟨by simpa using harmless, by simp [harmless], by simpa using restricted⟩

theorem inferredFrom_ingress (isLimitable : limitable query = true) :
    InferredFrom D query [withLimit (withLimit query), withLimit query] [withLimit query, query] ↔
      Limitable D (trimSemicolons query) := by
  obtain ⟨hs, stable⟩ := withLimit_withLimit (D := D) isLimitable
  rw [limitable_iff]
  constructor
  · intro inferred
    have hm : withLimit query ∈ [withLimit (withLimit query), withLimit query] := mem_cons_of_mem _ mem_cons_self
    exact ⟨inferred.harmless _ hm, fun rows => inferred.restricted rows _ hm⟩
  · rintro ⟨harmless, restricted⟩
    refine ⟨by simpa [hs] using harmless, by simp [hs, harmless], fun rows => ?_⟩
    rw [stable (restricted rows)]
    simpa using restricted rows

theorem inferred_iff (D : Verdict) (endpoint : Endpoint) (query : Text) :
    Inferred D endpoint query ↔ Inferable D endpoint query := by
  unfold Inferable
  cases empty : isEmptyQuery query with
  | true =>
    have nothing : infoTexts endpoint query = some [] ∧ fetchTexts endpoint query = [] := by
      cases endpoint <;> simp [infoTexts, fetchTexts, workerInfo, workerFetch, ingressInfo, queryContext, empty]
    simp only [true_or, iff_true]
    intro info isInfo
    cases nothing.1.symm.trans isInfo
    rw [nothing.2]
    exact ⟨by simp, by simp [D.modifies_empty query empty], by simp⟩
  | false =>
    cases endpoint with
    | worker => simp [Inferred, infoTexts, fetchTexts, workerInfo, workerFetch, empty, inferredFrom_worker]
    | ingress =>
      cases isLimitable : limitable query with
      | false =>
        have refused : supportsLimit (trimSemicolons query).toUpper = false := isLimitable
        simp [Inferred, infoTexts, ingressInfo, empty, refused]
      | true =>
        have supported : supportsLimit (trimSemicolons query).toUpper = true := isLimitable
        have probed : queryContext (withLimit query) = [withLimit (withLimit query), withLimit query] := by
          simp [queryContext, workerInfo, workerFetch, isEmptyQuery_withLimit isLimitable]
        have fetched : queryContext query = [withLimit query, query] := by
          simp [queryContext, workerInfo, workerFetch, empty]
        simp [Inferred, infoTexts, fetchTexts, ingressInfo, empty, supported, probed, fetched,
          inferredFrom_ingress isLimitable]

theorem filter_dropWhile {p : Char → Bool} (hollow : ∀ c, p c = true → solid c = false) (s : Text) :
    (s.dropWhile p).filter solid = s.filter solid := by
  induction s with
  | nil => rfl
  | cons c s ih =>
    rw [dropWhile_cons]
    split
    · rename_i dropped
      rw [ih, filter_cons_of_neg (by simp [hollow c dropped])]
    · rfl

theorem filter_rdropWhile {p : Char → Bool} (hollow : ∀ c, p c = true → solid c = false) (s : Text) :
    (s.rdropWhile p).filter solid = s.filter solid := by
  rw [List.rdropWhile, filter_reverse, filter_dropWhile hollow, filter_reverse, reverse_reverse]

theorem filter_trimSpace (s : Text) : s.trimSpace.filter solid = s.filter solid := by
  have hollow (c : Char) (isSpace : Text.isSpace c = true) : solid c = false := by simp [solid, isSpace]
  rw [Text.trimSpace, filter_rdropWhile hollow, filter_dropWhile hollow]

theorem filter_trimSemicolons (s : Text) : (trimSemicolons s).filter solid = s.filter solid := by
  rw [trimSemicolons, filter_rdropWhile (by simp [solid]), filter_trimSpace]

theorem hasPrefix_of_apart {d} (isSolid : solid d = true) (hne : d ∉ text.filter solid) :
    text.hasPrefix (d :: rest) = false := by
  cases text with
  | nil => rfl
  | cons c text =>
    apply hasPrefix_cons_of_ne
    rintro rfl
    exact hne (mem_filter.mpr ⟨mem_cons_self, isSolid⟩)

theorem isEmptyQuery_of_spaced {stmt : Text} (hs : text.filter solid = stmt.filter solid)
    (hn : stmt.filter solid ≠ []) (noBlock : '/' ∉ stmt.filter solid) (noLine : '-' ∉ stmt.filter solid) :
    isEmptyQuery text = false := by
  rw [← filter_trimSpace] at hs
  obtain ⟨c, hm⟩ := exists_mem_of_ne_nil _ hn
  rw [← hs] at hm noBlock noLine
  have isSolid := mem_filter.mp hm
  apply isEmptyQuery_of_solid isSolid.1 isSolid.2
  · exact hasPrefix_of_apart rfl noBlock
  · exact hasPrefix_of_apart rfl noLine

theorem toNat_of_mem_utf8EncodeChar {b : UInt8} (hm : b ∈ String.utf8EncodeChar c) (ascii : b.toNat < 128) :
    c.toNat = b.toNat := by
  rw [← Char.toNat_val]
  unfold String.utf8EncodeChar at hm
  grind [UInt8.toNat_ofNat']

theorem mem_of_restricts {query limited} (restricts : Restricts query limited) : 'M' ∈ limited := by
  have hm : (⟨.word, ascii "LIMIT"⟩ : Token) ∈ tokens limited := by
    rw [restricts]
    exact mem_append_right _ mem_cons_self
  have byte : 77 ∈ utf8 limited := by
    rw [← lex_bytes (utf8 limited)]
    exact mem_flatMap.mpr ⟨_, (mem_filter.mp hm).1, by decide⟩
  obtain ⟨letter, isLetter, encoded⟩ := mem_flatMap.mp byte
  have isM : letter = 'M' := Char.toNat_inj.mp (toNat_of_mem_utf8EncodeChar encoded (by decide))
  exact isM ▸ isLetter

def insertFromLimited : Text := "WITH x AS (SELECT 1 LIMIT 1) INSERT INTO t SELECT * FROM x".toList

def insertVerdict : Verdict where
  modifies text := text.filter solid = insertFromLimited.filter solid
  returnsRows _ := false
  modifies_trim text := by rw [filter_trimSemicolons]
  modifies_empty text isEmpty := by
    rw [decide_eq_false_iff_not]
    intro hs
    have nonempty : isEmptyQuery text = false := isEmptyQuery_of_spaced hs (by decide) (by decide) (by decide)
    cases nonempty.symm.trans isEmpty
  modifies_limited query limited returnsRows := by cases returnsRows

theorem inference_inserts : ¬ Inferred insertVerdict .ingress insertFromLimited := by
  intro inferred
  have harmless := (inferred _ rfl).harmless insertFromLimited (by decide)
  revert harmless
  decide

end Duckgres.Proof.Execution
