import Mathlib.Data.List.Chain
import Mathlib.Data.List.Infix

/-!
# Replacing placeholders one pass after another

A template is a text with numbered slots. `sequential` writes the slots as patterns and replaces the
patterns by whole-text passes, the highest number first; `simultaneous` fills every slot once. The
two agree exactly when no pass finds its pattern outside the slots (`sequential_eq_iff`).
-/

namespace Duckgres.Base
open List

section Replace
variable {α : Type*} [DecidableEq α]

/-- The number counts the symbols that the last match still covers. -/
def replaceFrom (old new : List α) : Nat → List α → List α
  | _, [] => []
  | skip + 1, _ :: rest => replaceFrom old new skip rest
  | 0, head :: rest =>
    if old.isPrefixOf (head :: rest) then new ++ replaceFrom old new (old.length - 1) rest
    else head :: replaceFrom old new 0 rest

def replaceAll (old new text : List α) : List α := replaceFrom old new 0 text

variable {old new : List α}

theorem replaceFrom_append (skipped rest : List α) :
    replaceFrom old new skipped.length (skipped ++ rest) = replaceAll old new rest := by
  induction skipped with
  | nil => rfl
  | cons head skipped ih => exact ih

theorem replaceAll_of_match (head : α) (tail rest : List α) : replaceAll (head :: tail) new (head :: tail ++ rest) =
      new ++ replaceAll (head :: tail) new rest := by
  have hf : (head :: tail).isPrefixOf (head :: (tail ++ rest)) :=
    isPrefixOf_iff_prefix.mpr (prefix_append (head :: tail) rest)
  rw [cons_append, replaceAll, replaceFrom, if_pos hf, length_cons, Nat.add_sub_cancel, replaceFrom_append]

theorem replaceAll_of_no_match {head : α} {rest : List α} (missing : ¬ old <+: head :: rest) :
    replaceAll old new (head :: rest) = head :: replaceAll old new rest := by
  rw [replaceAll, replaceFrom, if_neg (mt isPrefixOf_iff_prefix.mp missing)]
  rfl

theorem replaceAll_of_head_ne {first head : α} {tail rest : List α} (ne : head ≠ first) :
    replaceAll (first :: tail) new (head :: rest) = head :: replaceAll (first :: tail) new rest :=
  replaceAll_of_no_match fun hf => ne (cons_prefix_cons.mp hf).1.symm

theorem replaceAll_append_of_not_mem {first : α} {tail front : List α} (rest : List α) (missing : first ∉ front) :
    replaceAll (first :: tail) new (front ++ rest) =
      front ++ replaceAll (first :: tail) new rest := by
  induction front with
  | nil => rfl
  | cons head front ih =>
    rw [mem_cons, not_or] at missing
    rw [cons_append, replaceAll_of_head_ne (Ne.symm missing.1), ih missing.2]
    rfl

theorem replaceAll_singleton (symbol : α) (text : List α) :
    replaceAll [symbol] new text = text.flatMap fun a => if a = symbol then new else [a] := by
  induction text with
  | nil => rfl
  | cons head text ih =>
    rw [flatMap_cons, ← ih]
    by_cases hs : head = symbol
    · subst hs
      rw [if_pos rfl]
      exact replaceAll_of_match head [] text
    · rw [if_neg hs, replaceAll_of_head_ne hs]
      rfl

end Replace

structure Coding (α : Type*) where
  marker : α
  code : Nat → List α
  symbol : α → Prop
  symbol_of_mem : ∀ {i a}, a ∈ code i → symbol a
  marker_not_symbol : ¬ symbol marker
  le_of_isPrefix : ∀ {k i}, code k <+: code i → k ≤ i
  lead : ∀ {k}, 0 < k → ∃ d first rest, 0 < d ∧ d ≤ k ∧ code d = [first] ∧ code k = first :: rest

/-- `fixed a p` is a symbol that is in the text when the passes `p, …, 1` run. -/
inductive Segment (α : Type*) where
  | fixed (a : α) (level : Nat)
  | slot (i : Nat)
  deriving DecidableEq

namespace Coding
variable {α : Type*} (c : Coding α) (lit : Nat → List α)

def pattern (i : Nat) : List α := c.marker :: c.code i

def text (template : List (Segment α)) : List α :=
  template.flatMap fun
    | .fixed a _ => [a]
    | .slot i => c.pattern i

def simultaneous (template : List (Segment α)) : List α :=
  template.flatMap fun
    | .fixed a _ => [a]
    | .slot i => lit i

def sequential [DecidableEq α] : Nat → List α → List α
  | 0, current => current
  | k + 1, current => sequential k (replaceAll (c.pattern (k + 1)) (lit (k + 1)) current)

def fill (k : Nat) (template : List (Segment α)) : List (Segment α) :=
  template.flatMap fun
    | .fixed a level => [.fixed a level]
    | .slot i => if i = k then (lit k).map (.fixed · (k - 1)) else [.slot i]

def levelled (template : List (Segment α)) : List (α × Nat) :=
  template.flatMap fun
    | .fixed a level => [(a, level)]
    | .slot i => (lit i).map (·, i - 1)

/-- No slot is directly followed by a slot, the marker or a symbol of a code. -/
def Spaced (template : List (Segment α)) : Prop :=
  template.IsChain fun left right =>
    ∀ i, left = .slot i → ∃ a level, right = .fixed a level ∧ a ≠ c.marker ∧ ¬ c.symbol a

def Stage (k : Nat) (template : List (Segment α)) : Prop :=
  ∀ segment ∈ template, match segment with
    | .fixed _ level => k ≤ level
    | .slot i => 0 < i ∧ i ≤ k

inductive Diverges : List (Segment α) → List α → Prop
  | here {level : Nat} {template : List (Segment α)} {a : α} {rest : List α}
      (ne : a ≠ c.marker) : Diverges (.fixed c.marker level :: template) (a :: rest)
  | fixed {level : Nat} {template : List (Segment α)} {rest : List α} (a : α)
      (later : Diverges template rest) : Diverges (.fixed a level :: template) (a :: rest)
  | slot {template : List (Segment α)} {rest : List α} (i : Nat)
      (later : Diverges template rest) : Diverges (.slot i :: template) (c.pattern i ++ rest)

@[simp] theorem text_nil : c.text [] = [] := rfl

section
variable (template : List (Segment α))

@[simp] theorem text_fixed (a : α) (level : Nat) :
    c.text (.fixed a level :: template) = a :: c.text template := rfl

@[simp] theorem text_slot (i : Nat) :
    c.text (.slot i :: template) = c.pattern i ++ c.text template := rfl

@[simp] theorem levelled_fixed (a : α) (level : Nat) :
    levelled lit (.fixed a level :: template) = (a, level) :: levelled lit template := rfl

@[simp] theorem levelled_slot (i : Nat) :
    levelled lit (.slot i :: template) = (lit i).map (·, i - 1) ++ levelled lit template := rfl

@[simp] theorem fill_fixed (k : Nat) (a : α) (level : Nat) :
    fill lit k (.fixed a level :: template) = .fixed a level :: fill lit k template := rfl

@[simp] theorem fill_slot (k : Nat) : fill lit k (.slot k :: template) =
      (lit k).map (.fixed · (k - 1)) ++ fill lit k template := by
  simp [fill]

end

variable {i : Nat}

theorem fill_slot_of_ne {k : Nat} (ne : i ≠ k) (template : List (Segment α)) :
    fill lit k (.slot i :: template) = .slot i :: fill lit k template := by
  simp [fill, ne]

theorem text_map_fixed (symbols : List α) (level : Nat) (template : List (Segment α)) :
    c.text (symbols.map (.fixed · level) ++ template) = symbols ++ c.text template := by
  induction symbols with
  | nil => rfl
  | cons a symbols ih => rw [map_cons, cons_append, text_fixed, ih, cons_append]

variable {c lit}

theorem marker_not_mem (i : Nat) : c.marker ∉ c.code i := fun hm => c.marker_not_symbol (c.symbol_of_mem hm)

variable {template : List (Segment α)} {current : List α}

theorem Diverges.ne (diverges : c.Diverges template current) : current ≠ c.text template := by
  induction diverges with
  | here ne => exact fun hs => ne (List.cons.inj hs).1
  | fixed _ _ ih => exact fun hs => ih (List.cons.inj hs).2
  | slot _ _ ih => exact fun hs => ih (append_cancel_left hs)

theorem Diverges.append (level : Nat) (symbols : List α) (diverges : c.Diverges template current) :
    c.Diverges (symbols.map (.fixed · level) ++ template) (symbols ++ current) := by
  induction symbols with
  | nil => exact diverges
  | cons a symbols ih => exact .fixed a ih

variable {segment : Segment α}

section Pass
variable {k : Nat} {template : List (Segment α)}

def NoMatch (c : Coding α) (k : Nat) (template : List (Segment α)) : Prop :=
  ∀ level rest, .fixed c.marker level :: rest <:+ template → ¬ c.code k <+: c.text rest

theorem no_match_lower_slot (lower : i < k) {rest : List α}
    (ends : ∀ a ∈ rest.head?, ¬ c.symbol a) : ¬ c.pattern k <+: c.pattern i ++ rest := by
  intro hf
  have codes : c.code k <+: c.code i ++ rest := (cons_prefix_cons.mp hf).2
  have longer : ¬ c.code k <+: c.code i := fun within => absurd (c.le_of_isPrefix within) (Nat.not_le.mpr lower)
  rcases prefix_or_prefix_of_prefix codes (prefix_append (c.code i) rest) with
    within | ⟨extra, hs⟩
  · exact longer within
  · -- the rest of the code would have to be read from the symbol after the slot
    rw [← hs, prefix_append_right_inj] at codes
    cases extra with
    | nil => exact longer (by rw [← hs, append_nil])
    | cons a extra =>
      obtain ⟨tail, rfl⟩ := codes
      refine ends a rfl (c.symbol_of_mem (i := k) ?_)
      rw [← hs]
      exact mem_append_right _ mem_cons_self

theorem Spaced.tail (spaced : c.Spaced (segment :: template)) : c.Spaced template := List.IsChain.tail spaced

theorem Spaced.after_slot (spaced : c.Spaced (.slot i :: template)) :
    template = [] ∨ ∃ a level rest, template = .fixed a level :: rest ∧
      a ≠ c.marker ∧ ¬ c.symbol a := by
  cases template with
  | nil => exact .inl rfl
  | cons next rest =>
    obtain ⟨a, level, rfl, ne, other⟩ := (isChain_cons_cons.mp spaced).1 i rfl
    exact .inr ⟨a, level, rest, rfl, ne, other⟩

theorem Spaced.text_head (spaced : c.Spaced (.slot i :: template)) : ∀ a ∈ (c.text template).head?, ¬ c.symbol a := by
  rcases spaced.after_slot with rfl | ⟨next, level, rest, rfl, -, other⟩
  · simp
  · rintro a ⟨⟩
    exact other

theorem Stage.tail (stage : Stage k (segment :: template)) :
    Stage k template := fun later hm => stage later (mem_cons_of_mem _ hm)

theorem Stage.slot_le (stage : Stage k (.slot i :: template)) : i ≤ k := (stage _ mem_cons_self).2

theorem NoMatch.tail (noMatch : c.NoMatch k (segment :: template)) : c.NoMatch k template :=
  fun level rest suffix => noMatch level rest (suffix.trans (suffix_cons _ _))

variable [DecidableEq α]

theorem replaceAll_same_slot (k : Nat) (new rest : List α) :
    replaceAll (c.pattern k) new (c.pattern k ++ rest) = new ++ replaceAll (c.pattern k) new rest :=
  replaceAll_of_match c.marker (c.code k) rest

theorem replaceAll_lower_slot (lower : i < k) (new : List α) {rest : List α} (ends : ∀ a ∈ rest.head?, ¬ c.symbol a) :
    replaceAll (c.pattern k) new (c.pattern i ++ rest) =
      c.pattern i ++ replaceAll (c.pattern k) new rest := by
  have missing : ¬ c.pattern k <+: c.marker :: (c.code i ++ rest) := no_match_lower_slot lower ends
  have copied : replaceAll (c.pattern k) new (c.code i ++ rest) =
      c.code i ++ replaceAll (c.pattern k) new rest :=
    replaceAll_append_of_not_mem rest (marker_not_mem i)
  exact (replaceAll_of_no_match missing).trans (congrArg (c.marker :: ·) copied)

theorem NoMatch.pass (noMatch : c.NoMatch k template) (spaced : c.Spaced template) (stage : Stage k template) :
    replaceAll (c.pattern k) (lit k) (c.text template) = c.text (fill lit k template) := by
  induction template with
  | nil => rfl
  | cons segment template ih =>
    have later := ih noMatch.tail spaced.tail stage.tail
    cases segment with
    | fixed a level =>
      have missing : ¬ c.pattern k <+: a :: c.text template := by
        intro hf
        obtain ⟨rfl, codes⟩ := cons_prefix_cons.mp hf
        exact noMatch level template (suffix_refl _) codes
      rw [text_fixed, replaceAll_of_no_match missing, later, fill_fixed, text_fixed]
    | slot i =>
      rw [text_slot]
      by_cases hs : i = k
      · subst hs
        rw [replaceAll_same_slot, later, fill_slot, text_map_fixed]
      · have lower := Nat.lt_of_le_of_ne stage.slot_le hs
        rw [replaceAll_lower_slot lower _ spaced.text_head, later, fill_slot_of_ne lit hs, text_slot]

theorem diverges_of_match {first : α} {others : List α} (literal : lit k = first :: others)
    (visible : first ≠ c.marker) (hf : ¬ c.NoMatch k template) (spaced : c.Spaced template)
    (stage : Stage k template) :
    c.Diverges (fill lit k template) (replaceAll (c.pattern k) (lit k) (c.text template)) := by
  induction template with
  | nil =>
    refine absurd ?_ hf
    intro level rest suffix
    simp at suffix
  | cons segment template ih =>
    cases segment with
    | fixed a level =>
      rw [text_fixed]
      by_cases here : c.pattern k <+: a :: c.text template
      · obtain ⟨rest, hs⟩ := here
        obtain ⟨rfl, -⟩ := List.cons.inj hs
        rw [← hs, pattern, replaceAll_of_match, literal]
        exact .here visible
      · rw [replaceAll_of_no_match here]
        refine .fixed a (ih ?_ spaced.tail stage.tail)
        intro noMatch
        refine hf fun level rest suffix codes => ?_
        rcases suffix_cons_iff.mp suffix with hs | suffix
        · obtain ⟨fixed, rfl⟩ := List.cons.inj hs
          obtain ⟨rfl, -⟩ := Segment.fixed.inj fixed
          exact here (cons_prefix_cons.mpr ⟨rfl, codes⟩)
        · exact noMatch level rest suffix codes
    | slot i =>
      have later := ih ?_ spaced.tail stage.tail
      · rw [text_slot]
        by_cases hs : i = k
        · subst hs
          rw [replaceAll_same_slot, fill_slot]
          exact later.append _ _
        · have lower := Nat.lt_of_le_of_ne stage.slot_le hs
          rw [replaceAll_lower_slot lower _ spaced.text_head, fill_slot_of_ne lit hs]
          exact .slot i later
      · intro noMatch
        refine hf fun level rest suffix codes => ?_
        rcases suffix_cons_iff.mp suffix with hs | suffix
        · cases (List.cons.inj hs).1
        · exact noMatch level rest suffix codes

theorem Diverges.pass {first : α} {others : List α} (literal : lit k = first :: others)
    (visible : first ≠ c.marker) (diverges : c.Diverges template current)
    (spaced : c.Spaced template) (stage : Stage k template) :
    c.Diverges (fill lit k template) (replaceAll (c.pattern k) (lit k) current) := by
  induction diverges with
  | here ne =>
    rw [pattern, replaceAll_of_head_ne ne]
    exact .here ne
  | @fixed _ _ rest a _ ih =>
    by_cases here : c.pattern k <+: a :: rest
    · obtain ⟨rest, hs⟩ := here
      obtain ⟨rfl, -⟩ := List.cons.inj hs
      rw [← hs, pattern, replaceAll_of_match, literal]
      exact .here visible
    · rw [replaceAll_of_no_match here]
      exact .fixed a (ih spaced.tail stage.tail)
  | @slot _ rest i later ih =>
    have passed := ih spaced.tail stage.tail
    by_cases hs : i = k
    · subst hs
      rw [replaceAll_same_slot, fill_slot]
      exact passed.append _ _
    have lower := Nat.lt_of_le_of_ne stage.slot_le hs
    have ends : ∀ a ∈ rest.head?, ¬ c.symbol a := by
      rcases spaced.after_slot with rfl | ⟨next, level, tail, rfl, ne, other⟩
      · cases later
      cases later with
      | here => exact absurd rfl ne
      | fixed =>
        rintro a ⟨⟩
        exact other
    rw [replaceAll_lower_slot lower _ ends, fill_slot_of_ne lit hs]
    exact .slot i passed

end Pass

section Passes
variable {k : Nat} {template : List (Segment α)}

def QuietAt (c : Coding α) (d : Nat) (left right : α × Nat) : Prop :=
  left.1 = c.marker → d ≤ left.2 → d ≤ right.2 → c.code d ≠ [right.1]

theorem Stage.fill (lit : Nat → List α) (stage : Stage (k + 1) template) : Stage k (fill lit (k + 1) template) := by
  intro segment hm
  obtain ⟨source, sourceMember, hm⟩ := mem_flatMap.mp hm
  have held := stage source sourceMember
  cases source with
  | fixed =>
    rw [mem_singleton] at hm
    subst hm
    exact Nat.le_of_succ_le held
  | slot =>
    dsimp only at hm held
    split at hm
    · obtain ⟨a, -, rfl⟩ := mem_map.mp hm
      exact Nat.le_refl k
    · rename_i ne
      rw [mem_singleton] at hm
      subst hm
      exact ⟨held.1, Nat.le_of_lt_succ (Nat.lt_of_le_of_ne held.2 ne)⟩

theorem spaced_append_fixed (symbols : List α) (level : Nat) (spaced : c.Spaced template) :
    c.Spaced (symbols.map (.fixed · level) ++ template) := by
  induction symbols with
  | nil => exact spaced
  | cons a symbols ih =>
    refine isChain_cons.mpr ⟨?_, ih⟩
    rintro next - i ⟨⟩

theorem Spaced.fill (spaced : c.Spaced template) (k : Nat) : c.Spaced (fill lit k template) := by
  induction template with
  | nil => exact spaced
  | cons segment template ih =>
    have later := ih spaced.tail
    cases segment with
    | fixed a level => exact spaced_append_fixed [a] level later
    | slot i =>
      by_cases hs : i = k
      · subst hs
        rw [fill_slot]
        exact spaced_append_fixed _ _ later
      rw [fill_slot_of_ne lit hs]
      refine isChain_cons.mpr ⟨?_, later⟩
      rintro next hm j ⟨⟩
      rcases spaced.after_slot with rfl | ⟨a, level, rest, rfl, ne, other⟩
      · cases hm
      · obtain ⟨⟩ := hm
        exact ⟨a, level, rfl, ne, other⟩

theorem levelled_map_fixed (symbols : List α) (level : Nat) : levelled lit (symbols.map (.fixed · level) ++ template) =
      symbols.map (·, level) ++ levelled lit template := by
  induction symbols with
  | nil => rfl
  | cons a symbols ih => simpa using ih

theorem levelled_fill (k : Nat) (template : List (Segment α)) :
    levelled lit (fill lit k template) = levelled lit template := by
  induction template with
  | nil => rfl
  | cons segment template ih =>
    cases segment with
    | fixed => rw [fill_fixed, levelled_fixed, ih, levelled_fixed]
    | slot i =>
      by_cases hs : i = k
      · subst hs
        rw [fill_slot, levelled_map_fixed, ih, levelled_slot]
      · rw [fill_slot_of_ne lit hs, levelled_slot, ih, levelled_slot]

theorem simultaneous_eq (template : List (Segment α)) :
    simultaneous lit template = (levelled lit template).map Prod.fst := by
  induction template with
  | nil => rfl
  | cons segment template ih =>
    cases segment with
    | fixed a => exact congrArg (a :: ·) ih
    | slot i =>
      have head : (levelled lit (.slot i :: template)).map Prod.fst =
          lit i ++ (levelled lit template).map Prod.fst := by simp [Function.comp_def]
      rw [head, ← ih]
      rfl

theorem text_of_stage_zero (stage : Stage 0 template) : c.text template = simultaneous lit template := by
  induction template with
  | nil => rfl
  | cons segment template ih =>
    cases segment with
    | fixed a => exact congrArg (a :: ·) (ih stage.tail)
    | slot => exact absurd (stage _ mem_cons_self) (by simp only; omega)

theorem noMatch_of_quiet (positive : 0 < k) (stage : Stage k template)
    (quiet : ∀ d, 0 < d → d ≤ k → (levelled lit template).IsChain (c.QuietAt d)) :
    c.NoMatch k template := by
  rintro level rest ⟨front, rfl⟩ codes
  obtain ⟨d, first, others, dPositive, dLe, single, code⟩ := c.lead positive
  rw [code] at codes
  cases rest with
  | nil => simp at codes
  | cons next rest =>
    cases next with
    | fixed _ nextLevel =>
      obtain ⟨rfl, -⟩ := cons_prefix_cons.mp codes
      have markerSeen := stage (.fixed c.marker level) (by simp)
      have nextSeen := stage (.fixed first nextLevel) (by simp)
      have chain := quiet d dPositive dLe
      have split : levelled lit (front ++ .fixed c.marker level :: .fixed first nextLevel :: rest) =
          levelled lit front ++ (c.marker, level) :: (first, nextLevel) :: levelled lit rest :=
        flatMap_append
      rw [split] at chain
      have pair := (isChain_cons_cons.mp chain.right_of_append).1
      exact pair rfl (dLe.trans markerSeen) (dLe.trans nextSeen) single
    | slot =>
      obtain ⟨rfl, -⟩ := cons_prefix_cons.mp codes
      exact c.marker_not_symbol (c.symbol_of_mem (by rw [single]; simp))

theorem NoMatch.quiet (noMatch : c.NoMatch k template) (stage : Stage k template)
    (nonempty : ∀ i, 0 < i → i ≤ k → lit i ≠ []) :
    (levelled lit template).IsChain (c.QuietAt k) := by
  induction template with
  | nil => exact .nil
  | cons segment template ih =>
    have later := ih noMatch.tail stage.tail
    cases segment with
    | fixed a level =>
      rw [levelled_fixed]
      refine isChain_cons.mpr ⟨?_, later⟩
      rintro right hm rfl - seen code
      cases template with
      | nil => cases hm
      | cons next template =>
        cases next with
        | fixed =>
          obtain ⟨⟩ := hm
          refine noMatch level _ (suffix_refl _) ?_
          rw [code]
          exact cons_prefix_cons.mpr ⟨rfl, nil_prefix⟩
        | slot i =>
          -- pass k does not see the symbols that a slot up to k will hold
          have bounds : 0 < i ∧ i ≤ k := stage (.slot i) (by simp)
          obtain ⟨first, others, literal⟩ := exists_cons_of_ne_nil (nonempty i bounds.1 bounds.2)
          rw [levelled_slot, literal] at hm
          obtain ⟨⟩ := hm
          dsimp only at seen
          omega
    | slot i =>
      have bounds : 0 < i ∧ i ≤ k := stage (.slot i) mem_cons_self
      have unseen : ∀ left ∈ (lit i).map (·, i - 1), ∀ right, c.QuietAt k left right := by
        rintro left hm right - seen
        obtain ⟨a, -, rfl⟩ := mem_map.mp hm
        omega
      refine isChain_append.mpr ⟨?_, later, ?_⟩
      · exact isChain_iff_getElem.mpr fun j bound => unseen _ (getElem_mem _) _
      · exact fun left hm right _ => unseen left (mem_of_mem_getLast? hm) right

variable [DecidableEq α]

theorem Diverges.sequential {n : Nat}
    (visible : ∀ i, 0 < i → i ≤ n → ∃ first others, lit i = first :: others ∧ first ≠ c.marker)
    (diverges : c.Diverges template current) (spaced : c.Spaced template)
    (stage : Stage n template) : c.sequential lit n current ≠ simultaneous lit template := by
  induction n generalizing template current with
  | zero =>
    rw [← text_of_stage_zero stage]
    exact diverges.ne
  | succ n ih =>
    obtain ⟨first, others, literal, ne⟩ := visible (n + 1) (Nat.succ_pos n) (Nat.le_refl _)
    have later := ih (fun i positive le => visible i positive (Nat.le_succ_of_le le))
      (diverges.pass literal ne spaced stage) (spaced.fill (n + 1)) (stage.fill lit)
    rwa [simultaneous_eq, levelled_fill, ← simultaneous_eq] at later

theorem sequential_eq_iff {n : Nat}
    (visible : ∀ i, 0 < i → i ≤ n → ∃ first others, lit i = first :: others ∧ first ≠ c.marker)
    (spaced : c.Spaced template) (stage : Stage n template) :
    c.sequential lit n (c.text template) = simultaneous lit template ↔
      ∀ d, 0 < d → d ≤ n → (levelled lit template).IsChain (c.QuietAt d) := by
  induction n generalizing template with
  | zero =>
    refine ⟨fun _ d positive le => absurd le (Nat.not_le.mpr positive), fun _ => ?_⟩
    exact text_of_stage_zero stage
  | succ n ih =>
    have lower : ∀ i, 0 < i → i ≤ n → ∃ first others, lit i = first :: others ∧ first ≠ c.marker :=
      fun i positive le => visible i positive (Nat.le_succ_of_le le)
    obtain ⟨first, others, literal, ne⟩ := visible (n + 1) (Nat.succ_pos n) (Nat.le_refl _)
    have rest := ih lower (spaced.fill (n + 1)) (stage.fill lit)
    rw [simultaneous_eq, levelled_fill, ← simultaneous_eq] at rest
    constructor
    · intro hs
      by_cases noMatch : c.NoMatch (n + 1) template
      · have chains := rest.mp (by rw [← noMatch.pass spaced stage]; exact hs)
        intro d positive le
        rcases Nat.lt_or_eq_of_le le with below | rfl
        · exact chains d positive (Nat.le_of_lt_succ below)
        · refine noMatch.quiet stage fun i positive le => ?_
          obtain ⟨head, tail, filled, -⟩ := visible i positive le
          exact filled ▸ cons_ne_nil head tail
      · have left := diverges_of_match literal ne noMatch spaced stage
        have different := left.sequential lower (spaced.fill (n + 1)) (stage.fill lit)
        rw [simultaneous_eq, levelled_fill, ← simultaneous_eq] at different
        exact absurd hs different
    · intro quiet
      have noMatch := noMatch_of_quiet (Nat.succ_pos n) stage quiet
      have passed := rest.mpr fun d positive le => quiet d positive (Nat.le_succ_of_le le)
      rw [← noMatch.pass spaced stage] at passed
      exact passed

end Passes

end Coding

end Duckgres.Base
