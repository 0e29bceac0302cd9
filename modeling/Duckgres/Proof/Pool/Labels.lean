import Duckgres.Pool.Labels
import Mathlib.Tactic.IntervalCases

namespace Duckgres.Proof.Pool
open Base Duckgres.Pool List

/-- The label values that Kubernetes accepts, except the empty one. -/
structure IsLabelValue (s : Text) : Prop where
  nonempty : s ≠ []
  length : s.length ≤ 63
  chars : ∀ c ∈ s, c.isAlphanum = true ∨ c ∈ ['-', '_', '.']
  first : ∀ c ∈ s.head?, c.isAlphanum = true
  last : ∀ c ∈ s.getLast?, c.isAlphanum = true

variable {s id : Text} {c : Char}

theorem last_trimRight (hm : c ∈ (trimRight s).getLast?) : c.isAlphanum = true := by
  have hn : trimRight s ≠ [] := fun empty => by simp [empty] at hm
  rw [getLast?_eq_some_getLast hn, Option.mem_some_iff] at hm
  have kept := rdropWhile_last_not (!Char.isAlphanum ·) s hn
  change ¬ (!((trimRight s).getLast hn).isAlphanum) = true at kept
  simpa [hm] using kept

theorem first_trimRight (first : ∀ c ∈ s.head?, c.isAlphanum = true) :
    ∀ c ∈ (trimRight s).head?, c.isAlphanum = true := by
  intro c hm
  obtain ⟨rest, hs⟩ := rdropWhile_prefix (!Char.isAlphanum ·) s
  apply first c
  rw [← hs, head?_append, Option.or_eq_left_of_isSome]
  · exact hm
  · exact Option.isSome_of_mem hm

theorem suffix_alphanum {sum : List UInt8} (hm : c ∈ (hexText sum).take 12) : c.isAlphanum = true := by
  obtain ⟨b, -, digit⟩ := mem_flatMap.mp (mem_of_mem_take hm)
  have alphanum (n : Nat) (small : n < 16) : (Nat.digitChar n).isAlphanum = true := by
    interval_cases n <;> rfl
  have bound := b.toNat_lt
  rcases mem_pair.mp digit with rfl | rfl <;> exact alphanum _ (by omega)

theorem length_suffix (sum : Digest) : ((hexText sum.toList).take 12).length = 12 := by
  simp [hexText]

theorem isLabelValue_suffix (sum : Digest) : IsLabelValue ((hexText sum.toList).take 12) where
  nonempty := ne_nil_of_length_eq_add_one (length_suffix sum)
  length := (length_suffix sum).le.trans (by decide)
  chars c hm := .inl (suffix_alphanum hm)
  first c hm := suffix_alphanum (mem_of_mem_head? hm)
  last c hm := suffix_alphanum (mem_of_mem_getLast? hm)

theorem isLabelValue_joined {front suffix} (hn : front ≠ []) (hl : front.length ≤ 50)
    (chars : ∀ c ∈ front, c.isAlphanum = true ∨ c ∈ ['-', '_', '.']) (first : ∀ c ∈ front.head?, c.isAlphanum = true)
    (valid : IsLabelValue suffix) (short : suffix.length = 12) : IsLabelValue (front ++ '-' :: suffix) where
  nonempty := by simp
  length := by
    rw [length_append, length_cons, short]
    omega
  chars := by
    rw [forall_mem_append, forall_mem_cons]
    exact ⟨chars, by simp, valid.chars⟩
  first c hm := first c (by rwa [head?_append_of_ne_nil _ hn] at hm)
  last c hm := by
    rw [getLast?_append_of_ne_nil _ (cons_ne_nil _ _), getLast?_cons_of_ne_nil valid.nonempty] at hm
    exact valid.last c hm

theorem controlPlaneIDLabelValue_valid (sha1 : Text → Digest) (id : Text) :
    IsLabelValue (controlPlaneIDLabelValue sha1 id) := by
  have short := length_suffix (sha1 id)
  have valid := isLabelValue_suffix (sha1 id)
  unfold controlPlaneIDLabelValue
  dsimp only
  generalize hs : trimLeft (id.map labelRune) = left
  have chars : ∀ c ∈ left, c.isAlphanum = true ∨ c ∈ ['-', '_', '.'] := by
    intro c hm
    rw [← hs] at hm
    obtain ⟨r, -, rfl⟩ := mem_map.mp ((dropWhile_suffix _).subset hm)
    unfold labelRune
    split
    · assumption
    · simp
  have first : ∀ c ∈ left.head?, c.isAlphanum = true := by
    intro c hm
    have kept := head?_dropWhile_not (!Char.isAlphanum ·) (id.map labelRune)
    rw [show (id.map labelRune).dropWhile _ = left from hs, Option.mem_def.mp hm] at kept
    simpa using kept
  have within : trimRight left <+: left := rdropWhile_prefix _ _
  have starts := first_trimRight first
  split
  · exact valid
  rename_i hn
  split
  · rename_i hl
    exact ⟨hn, hl, fun c hm => chars c (within.subset hm), starts, fun c => last_trimRight⟩
  have opens : ∀ c ∈ ((trimRight left).take 50).head?, c.isAlphanum = true := by
    rw [head?_take]
    simpa using starts
  rw [short]
  split
  · exact valid
  rename_i hf
  have cut : trimRight ((trimRight left).take 50) <+: (trimRight left).take 50 := rdropWhile_prefix _ _
  refine isLabelValue_joined hf ?_ ?_ (first_trimRight opens) valid short
  · exact cut.length_le.trans (length_take_le _ _)
  · intro c hm
    exact chars c (within.subset (mem_of_mem_take (cut.subset hm)))

theorem label_value_valid (sha1 : Text → Digest) (id : Text) :
    IsLabelValue (controlPlaneIDLabelValue sha1 id) ∧ (IsLabelValue id → controlPlaneIDLabelValue sha1 id = id) := by
  refine ⟨controlPlaneIDLabelValue_valid sha1 id, fun valid => ?_⟩
  have same : id.map labelRune = id := by
    conv_rhs => rw [← map_id id]
    exact map_congr_left fun c hm => if_pos (valid.chars c hm)
  have left : trimLeft id = id := by
    rw [trimLeft, dropWhile_eq_self_iff]
    intro hl
    simp [valid.first _ (head?_eq_getElem? ▸ getElem?_eq_getElem hl)]
  have right : trimRight id = id := by
    rw [trimRight, rdropWhile_eq_self_iff]
    intro hn
    simp [valid.last _ (getLast?_eq_some_getLast hn)]
  simp [controlPlaneIDLabelValue, same, left, right, valid.nonempty, valid.length]

theorem label_value_valid_plain : controlPlaneIDLabelValue (fun _ => .replicate 20 0) "cp_1".toList = "cp_1".toList :=
  (label_value_valid _ _).2 ⟨by simp, by simp, by simp, by simp, by simp⟩

end Duckgres.Proof.Pool
