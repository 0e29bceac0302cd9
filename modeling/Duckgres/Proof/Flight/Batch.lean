import Duckgres.Flight.Batch

namespace Duckgres.Proof.Flight
open Duckgres.Flight List

section Kept
variable {α : Type*}

def kept (size : Nat) : Nat → List α → List α
  | _, [] => []
  | 0, _ :: rest => kept size size rest
  | room + 1, row :: rest => row :: kept size room rest

theorem kept_eq_take (size room : Nat) (rows : List α) :
    kept size room rows = rows.take room ++ kept size size (rows.drop (room + 1)) := by
  induction room generalizing rows with
  | zero => cases rows <;> simp [kept]
  | succ room ih =>
    cases rows with
    | nil => simp [kept]
    | cons row rest => simp [kept, ih rest]

theorem kept_length_le (size room : Nat) (rows : List α) : (kept size room rows).length ≤ rows.length := by
  induction rows generalizing room with
  | nil => cases room <;> simp [kept]
  | cons row rest ih =>
    cases room with
    | zero =>
      have bound := ih size
      simp only [kept, length_cons]
      omega
    | succ room =>
      have bound := ih room
      simp only [kept, length_cons]
      omega

theorem kept_length_lt (size : Nat) {room} {rows : List α} (long : room < rows.length) :
    (kept size room rows).length < rows.length := by
  induction rows generalizing room with
  | nil => simp at long
  | cons row rest ih =>
    cases room with
    | zero =>
      have bound := kept_length_le size size rest
      simp only [kept, length_cons]
      omega
    | succ room =>
      have bound := ih (Nat.lt_of_succ_lt_succ long)
      simp only [kept, length_cons]
      omega

theorem kept_of_length_le (size : Nat) {room} {rows : List α} (short : rows.length ≤ room) :
    kept size room rows = rows := by
  rw [kept_eq_take, take_of_length_le short, drop_eq_nil_of_le (Nat.le_succ_of_le short)]
  simp [kept]

end Kept

variable {k batchSize : Nat}

section Builder
variable {ρ V E F A : Type*} {src : RowSource ρ V E} {start : ρ} {rows : List (List V)}

theorem after_succ (k : Nat) : src.after (k + 1) start = (src.next (src.after k start)).2 := by
  unfold RowSource.after
  rw [Function.iterate_succ_apply']

theorem stream_mono {build : ρ → Except E (Option (RecordBatch A) × ρ)} {fuel more chunks} (le : fuel ≤ more)
    (streamed : stream build fuel start = some chunks) :
    stream build more start = some chunks := by
  induction fuel generalizing more start chunks with
  | zero => simp [stream] at streamed
  | succ fuel ih =>
    obtain ⟨more, rfl⟩ : ∃ rest, more = rest + 1 := ⟨more - 1, by omega⟩
    rw [stream] at streamed ⊢
    split at streamed
    · exact streamed
    · exact streamed
    · obtain ⟨tail, tailStreamed, cons⟩ := Option.map_eq_some_iff.mp streamed
      rw [ih (Nat.le_of_succ_le_succ le) tailStreamed]
      exact congrArg some cons

section
variable (yields : src.Yields start rows)
include yields

theorem next_of_lt (more : k < rows.length) : src.next (src.after k start) = (true, src.after (k + 1) start) := by
  rw [after_succ]
  exact Prod.ext ((yields.next_eq k).trans (decide_eq_true more)) rfl

theorem next_of_ge (done : rows.length ≤ k) : src.next (src.after k start) = (false, src.after (k + 1) start) := by
  rw [after_succ]
  exact Prod.ext ((yields.next_eq k).trans (decide_eq_false (Nat.not_lt.mpr done))) rfl

theorem fill_eq (append : List V → List A) (room k : Nat) (built : List (List A)) :
    fill src append room (src.after k start) built =
      .ok (built ++ ((rows.drop k).take room).map append,
        src.after (k + min room (rows.length - k) + 1) start) := by
  induction room generalizing k built with
  | zero => simp [fill, after_succ]
  | succ room ih =>
    by_cases more : k < rows.length
    · rw [fill, next_of_lt yields more]
      simp only [yields.scan_eq k more]
      rw [ih (k + 1), drop_eq_getElem_cons more, take_succ_cons, map_cons]
      have position : k + 1 + min room (rows.length - (k + 1)) + 1 =
          k + min (room + 1) (rows.length - k) + 1 := by omega
      rw [position, append_assoc, singleton_append]
    · have done := Nat.le_of_not_lt more
      rw [fill, next_of_ge yields done, drop_eq_nil_of_le done]
      simp [Nat.sub_eq_zero_of_le done]

variable (appendValue : F → V → A) (schema : List F)

theorem buildRecord_of_ge (batchSize : Nat) (done : rows.length ≤ k) :
    ∃ rest, buildRecord src appendValue schema batchSize (src.after k start) = .ok (none, rest) := by
  rw [buildRecord, fill_eq yields]
  simp only [yields.err_eq, drop_eq_nil_of_le done]
  simp

theorem buildRecord_of_lt (hpos : 1 ≤ batchSize) (more : k < rows.length) :
    buildRecord src appendValue schema batchSize (src.after k start) =
      .ok (some ⟨((rows.drop k).take batchSize).map (appendRow appendValue schema)⟩,
        src.after (k + min batchSize (rows.length - k) + 1) start) := by
  rw [buildRecord, fill_eq yields]
  simp only [yields.err_eq, nil_append]
  rw [if_neg]
  simp only [length_map, length_take, length_drop]
  omega

theorem stream_kept (hpos : 1 ≤ batchSize) (fuel k : Nat) (enough : rows.length < fuel + k) (nonzero : 0 < fuel) :
    ∃ batches : List (RecordBatch A),
      stream (buildRecord src appendValue schema batchSize) fuel (src.after k start) =
          some (batches.map .data) ∧
        batches.flatMap RecordBatch.rows =
          (kept batchSize batchSize (rows.drop k)).map (appendRow appendValue schema) := by
  induction fuel generalizing k with
  | zero => exact absurd nonzero (Nat.lt_irrefl 0)
  | succ fuel ih =>
    by_cases more : k < rows.length
    · -- one batch, then the rows after the one that Next skipped
      have nonzero : 0 < fuel := by omega
      obtain ⟨batches, streamed, flat⟩ := ih (k + min batchSize (rows.length - k) + 1) (by omega) nonzero
      refine ⟨⟨((rows.drop k).take batchSize).map (appendRow appendValue schema)⟩ :: batches, ?_, ?_⟩
      · rw [stream, buildRecord_of_lt yields appendValue schema hpos more]
        simp [streamed, Option.map_some, map_cons]
      have skipped : rows.drop (k + min batchSize (rows.length - k) + 1) =
          (rows.drop k).drop (batchSize + 1) := by
        rw [drop_drop]
        by_cases full : batchSize ≤ rows.length - k
        · rw [Nat.min_eq_left full, Nat.add_assoc]
        · rw [drop_eq_nil_of_le (by omega), drop_eq_nil_of_le (by omega)]
      rw [flatMap_cons, flat, skipped, kept_eq_take batchSize batchSize (rows.drop k), map_append]
    · have done := Nat.le_of_not_lt more
      obtain ⟨rest, ended⟩ := buildRecord_of_ge yields appendValue schema batchSize done
      refine ⟨[], ?_, ?_⟩
      · rw [stream, ended]
        rfl
      · rw [drop_eq_nil_of_le done]
        simp [kept]

theorem streamsExactly_iff (hpos : 1 ≤ batchSize) : StreamsExactly (buildRecord src appendValue schema batchSize) start
        (rows.map (appendRow appendValue schema)) ↔
      rows.length ≤ batchSize := by
  obtain ⟨delivered, streamed, flat⟩ :=
    stream_kept yields appendValue schema hpos (rows.length + 1) 0 (Nat.lt_succ_self _) (Nat.succ_pos _)
  rw [drop_zero] at flat
  constructor
  · rintro ⟨batches, ⟨fuel, exact⟩, all⟩
    have hs : batches = delivered := by
      have first := stream_mono (Nat.le_max_left fuel (rows.length + 1)) exact
      have second := stream_mono (Nat.le_max_right fuel (rows.length + 1)) streamed
      exact map_injective_iff.mpr (fun _ _ => StreamChunk.data.inj) (Option.some.inj (first.symm.trans second))
    subst hs
    by_contra long
    have shorter := kept_length_lt batchSize (Nat.lt_of_not_le long)
    have lengths := congrArg List.length (flat.symm.trans all)
    rw [length_map, length_map] at lengths
    exact absurd lengths (Nat.ne_of_lt shorter)
  · intro short
    exact ⟨delivered, ⟨_, streamed⟩, by rw [flat, kept_of_length_le batchSize short]⟩

end

theorem record_batches_complete_iff (yields : src.Yields start rows) (appendValue : F → V → A)
    (schema : List F) (positive : 1 ≤ batchSize) :
    (StreamsExactly (rowsToRecord src appendValue schema batchSize) start
        (rows.map (appendRow appendValue schema)) ↔ rows.length ≤ batchSize) ∧
      (StreamsExactly (rowSetToRecord src appendValue schema batchSize) start
        (rows.map (appendRow appendValue schema)) ↔ rows.length ≤ batchSize) :=
  ⟨streamsExactly_iff yields appendValue schema positive, streamsExactly_iff yields appendValue schema positive⟩

end Builder

def listSource : RowSource (List (List Nat)) Nat Unit where
  next rows := (decide (1 < rows.length), rows.tail)
  scan rows := match rows with
    | [] => .error ()
    | row :: _ => .ok row
  err _ := none

theorem listSource_after (k : Nat) (rows : List (List Nat)) : listSource.after k rows = rows.drop k := by
  induction k with
  | zero => rfl
  | succ k ih =>
    rw [after_succ, ih]
    simp [listSource]

theorem listSource_yields (before : List Nat) (rows : List (List Nat)) : listSource.Yields (before :: rows) rows where
  next_eq k := by
    rw [listSource_after]
    simp only [listSource, length_drop, length_cons]
    exact decide_eq_decide.mpr (by omega)
  scan_eq k bound := by
    rw [listSource_after, drop_succ_cons, drop_eq_getElem_cons bound]
    rfl
  err_eq _ := rfl

theorem record_batches_complete_single :
    StreamsExactly (rowsToRecord listSource (fun (_ : Unit) value => value) [()] 2) [[], [7], [8]] [[7], [8]] :=
  ((record_batches_complete_iff (listSource_yields [] [[7], [8]]) (fun (_ : Unit) value => value)
    [()] (Nat.le_succ 1)).1).mpr (Nat.le_refl 2)

theorem record_batches_lose_row :
    stream (rowsToRecord listSource (fun (_ : Unit) value => value) [()] 1) 3 [[], [7], [8]] =
        some [.data ⟨[[7]]⟩] ∧
      stream (rowSetToRecord listSource (fun (_ : Unit) value => value) [()] 1) 3 [[], [7], [8]] =
        some [.data ⟨[[7]]⟩] ∧
      ¬ StreamsExactly (rowsToRecord listSource (fun (_ : Unit) value => value) [()] 1)
        [[], [7], [8]] [[7], [8]] := by
  refine ⟨rfl, rfl, ?_⟩
  intro complete
  have fits := (streamsExactly_iff (listSource_yields [] [[7], [8]])
    (fun (_ : Unit) value => value) [()] (Nat.le_refl 1)).mp complete
  exact absurd fits (by decide)

end Duckgres.Proof.Flight
