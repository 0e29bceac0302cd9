import Mathlib.Algebra.Order.Ring.Int
import Mathlib.Data.List.DropRight
import Mathlib.Data.List.Infix

/-!
# Texts

The functions of Go's package `strings` on a text given by its characters.
-/

namespace Duckgres.Base
open List

abbrev Text := List Char

namespace Text

/-- `unicode.IsSpace`. -/
def isSpace (c : Char) : Bool :=
  c = ' ' || 9 ≤ c.val && c.val ≤ 13 || c.val = 0x85 || c.val = 0xA0 || c.val = 0x1680 ||
    0x2000 ≤ c.val && c.val ≤ 0x200A || c.val = 0x2028 || c.val = 0x2029 || c.val = 0x202F ||
    c.val = 0x205F || c.val = 0x3000

def trimSpace (s : Text) : Text := (s.dropWhile isSpace).rdropWhile isSpace

def upper (c : Char) : Char :=
  -- the dotless i and the long s are the only other letters with an ASCII capital
  if c.val = 0x131 then 'I' else if c.val = 0x17F then 'S' else c.toUpper

def toUpper (s : Text) : Text := s.map upper

def lower (c : Char) : Char :=
  -- the dotted capital i and the Kelvin sign are the only other letters with an ASCII small letter
  if c.val = 0x130 then 'i' else if c.val = 0x212A then 'k' else c.toLower

def toLower (s : Text) : Text := s.map lower

def size (s : Text) : Nat := (s.map Char.utf8Size).sum

def hasPrefix (s start : Text) : Bool := start.isPrefixOf s

def hasSuffix (s ending : Text) : Bool := ending.isSuffixOf s

/-- What follows the first place where the text has `part`, with what precedes it. -/
def cut (part : Text) : Text → Option (Text × Text)
  | [] => if part.isEmpty then some ([], []) else none
  | c :: s =>
    if part.isPrefixOf (c :: s) then some ([], (c :: s).drop part.length)
    else (cut part s).map fun (before, after) => (c :: before, after)

def contains (s part : Text) : Bool := (cut part s).isSome

theorem contains_iff {s part : Text} : contains s part = true ↔ part <:+: s := by
  unfold contains
  induction s with
  | nil =>
    unfold cut
    cases part <;> simp
  | cons c s ih =>
    unfold cut
    rw [infix_cons_iff, ← ih, ← isPrefixOf_iff_prefix]
    split
    · rename_i isPrefix
      simp [isPrefix]
    · rename_i notPrefix
      simp [notPrefix]

theorem infix_map_dropWhile {p : Char → Bool} {f : Char → Char} {part : Text} (apart : ∀ c, p c = true → f c ∉ part)
    {s : Text} (hf : part <:+: s.map f) : part <:+: (s.dropWhile p).map f := by
  induction s with
  | nil => exact hf
  | cons c s ih =>
    rw [dropWhile_cons]
    split
    · rename_i dropped
      rw [map_cons, infix_cons_iff] at hf
      rcases hf with isPrefix | later
      · cases part with
        | nil => exact nil_infix
        | cons first rest =>
          cases (cons_prefix_cons.mp isPrefix).1
          exact absurd mem_cons_self (apart c dropped)
      · exact ih later
    · exact hf

theorem infix_map_rdropWhile {p : Char → Bool} {f : Char → Char} {part : Text} (apart : ∀ c, p c = true → f c ∉ part)
    {s : Text} (hf : part <:+: s.map f) : part <:+: (s.rdropWhile p).map f := by
  rw [← reverse_infix, ← map_reverse, List.rdropWhile, reverse_reverse]
  apply infix_map_dropWhile
  · simpa using apart
  · rw [map_reverse, reverse_infix]
    exact hf

theorem isSpace_of_printable {c : Char} (above : 32 < c.toNat) (below : c.toNat < 127) : isSpace c = false := by
  simp only [isSpace, Char.ext_iff, ← UInt32.toNat_inj, UInt32.le_iff_toNat_le]
  simp
  omega

theorem upper_eq (c : Char) : upper c = c ∨ isSpace c = false ∧ isSpace (upper c) = false := by
  have blank : c = ' ' ↔ c.val = 32 := Char.ext_iff
  unfold upper
  split
  · rename_i dotless
    refine .inr ⟨?_, rfl⟩
    simp [isSpace, blank, dotless]
  split
  · rename_i long
    refine .inr ⟨?_, rfl⟩
    simp [isSpace, blank, long]
  unfold Char.toUpper
  split
  · rename_i letter
    simp [UInt32.le_iff_toNat_le] at letter
    refine .inr ⟨isSpace_of_printable (by omega) (by omega), isSpace_of_printable ?_ ?_⟩
    · simp [UInt32.toNat_add]
      omega
    · simp [UInt32.toNat_add]
      omega
  · exact .inl rfl

theorem isSpace_upper (c : Char) : isSpace (upper c) = isSpace c := by
  rcases upper_eq c with hs | ⟨plain, plainUpper⟩
  · rw [hs]
  · rw [plain, plainUpper]

theorem isSpace_of_prefix {s rest : Text} {c : Char} (isPrefix : c :: rest <+: trimSpace s) : isSpace c = false := by
  have trimmed : trimSpace s <+: s.dropWhile isSpace := rdropWhile_prefix _ _
  obtain ⟨tail, split⟩ := isPrefix.trans trimmed
  have first := head?_dropWhile_not isSpace s
  rw [← split] at first
  simpa using first

theorem trimSpace_cons {c : Char} (plain : isSpace c = false) {s : Text} :
    ∃ after, trimSpace (c :: s) = c :: after := by
  unfold trimSpace
  rw [dropWhile_cons_of_neg (by simp [plain])]
  have isPrefix := rdropWhile_prefix isSpace (c :: s)
  cases kept : (c :: s).rdropWhile isSpace with
  | nil =>
    have space := rdropWhile_eq_nil_iff.mp kept c mem_cons_self
    cases plain.symm.trans space
  | cons d after =>
    rw [kept] at isPrefix
    exact ⟨after, congrArg (· :: after) (cons_prefix_cons.mp isPrefix).1⟩

end Text
end Duckgres.Base
