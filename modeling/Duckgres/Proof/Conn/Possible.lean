import Duckgres.Proof.Conn.Once

/-!
Answers that DuckDB can give to an Execute. What is applied once whatever DuckDB answers needs a
condition on the statement, and these answers show that the condition is needed.
-/

namespace Duckgres.Proof.Conn
open Base Base.Stateful Duckgres.Conn Duckgres.Execution Duckgres.Proof.Execution List

variable {D : Judge} {e : Setting} {c d final : ClientConn} {args : List Value} {text : Text}

theorem exists_of_wp {α : Type} {x : Handler α} {Q : α → ClientConn → Prop} (holds : wp x Q c) : ∃ a final, Q a final :=
  let f : Script.Behaviour Call Answer := fun _ => answering ⟨.ok [], .ok [], [], fun _ => none⟩
  have ends : Q (play f x c []).1.1 (play f x c []).1.2 := of_wp holds
  ⟨_, _, ends⟩

theorem moves_note {call answer} : Moves [] [⟨call, answer⟩] c (ClientConn.note call answer c) := .called rfl rfl rfl

def Completed (cmds : List Command) (c d : ClientConn) : Prop :=
  ∃ calls, Moves [] calls c d ∧ calls.filterMap completed = cmds

theorem Completed.trans {cmds more} (first : Completed cmds c d) (second : Completed more d final) :
    Completed (cmds ++ more) c final := by
  obtain ⟨calls, hv, hs⟩ := first
  obtain ⟨others, hvm, sameMore⟩ := second
  exact ⟨calls ++ others, hv.trans hvm, by rw [filterMap_append, hs, sameMore]⟩

variable {Q : Except Text Int → ClientConn → Prop}

theorem exec_may (hh : wp (exec text args) Q c) :
    (∃ d, Completed [(text, args)] c d ∧ Q (.ok 0) d) ∧ ∀ err, ∃ d, Completed [] c d ∧ Q (.error err) d := by
  unfold exec perform at hh
  simp only [wp_bind, wp_call, wp_pure] at hh
  constructor
  · exact ⟨_, ⟨_, moves_note, rfl⟩, hh (⟨.ok 0, c.inTxn⟩ : Answered Int)⟩
  · exact fun err => ⟨_, ⟨_, moves_note, rfl⟩, hh (⟨.error err, c.inTxn⟩ : Answered Int)⟩

def noRows : RowSet := ⟨.ok [], .ok [], [], fun _ => none⟩

theorem query_may {Q : Except Text RowSet → ClientConn → Prop} (hh : wp (query text args) Q c) :
    ∃ d, Completed [(text, args)] c d ∧ Q (.ok noRows) d := by
  unfold query perform at hh
  simp only [wp_bind, wp_call, wp_pure] at hh
  exact ⟨_, ⟨_, moves_note, rfl⟩, hh (⟨.ok noRows, c.inTxn⟩ : Answered RowSet)⟩

theorem recovered_may {α : Type} {run : Handler (Except Text α)} {Q : Except Text α → ClientConn → Prop}
    (hh : wp (recovered run) Q c) : wp run (fun result d => ∀ a, result = .ok a → Q result d) c := by
  unfold recovered at hh
  simp only [wp_bind, wp_get] at hh
  refine wp_imp hh fun result d rest a isOk => ?_
  subst isOk
  simpa [retryingConflict, recovering] using rest

theorem executeSetup_may {statements} {Q : Except Text Unit → ClientConn → Prop}
    (hh : wp (executeSetup args statements) Q c) : ∃ d, Completed (statements.map (·, args)) c d ∧ Q (.ok ()) d := by
  induction statements generalizing c with
  | nil => exact ⟨c, ⟨[], .refl c, rfl⟩, by simpa [executeSetup] using hh⟩
  | cons stmt statements ih =>
    unfold executeSetup at hh
    rw [wp_bind] at hh
    obtain ⟨d, completes, rest⟩ := (exec_may hh).1
    obtain ⟨final, completesMore, ends⟩ := ih rest
    exact ⟨final, completes.trans completesMore, ends⟩

theorem executeCleanup_may {cleanup} {Q : Unit → ClientConn → Prop}
    (hh : wp (executeCleanup cleanup) Q c) : ∃ d, Completed [] c d ∧ Q () d := by
  induction cleanup generalizing c with
  | nil => exact ⟨c, ⟨[], .refl c, rfl⟩, by simpa [executeCleanup] using hh⟩
  | cons stmt cleanup ih =>
    unfold executeCleanup at hh
    rw [wp_bind] at hh
    obtain ⟨d, completes, rest⟩ := (exec_may hh).2 []
    obtain ⟨final, completesMore, ends⟩ := ih rest
    exact ⟨final, completes.trans completesMore, ends⟩

def Plain (c d : ClientConn) : Prop := ∃ out, Moves out [] c d ∧ out.any isError = false

instance : Std.Refl Plain := ⟨fun c => ⟨[], .refl c, rfl⟩⟩

instance : IsTrans ClientConn Plain where
  trans := by
    intro c d final ⟨out, moves, plain⟩ ⟨more, movesMore, plainMore⟩
    exact ⟨out ++ more, moves.trans movesMore, by simp [plain, plainMore]⟩

theorem plain_send {m} (noError : isError m = false) : Leads Plain (send m) :=
  .update fun _ => ⟨[m], .told rfl rfl rfl, by simp [noError]⟩

variable {cmdType : CommandType}

theorem plain_updateTxStatus : Leads Plain (updateTxStatus cmdType) := by
  refine .update fun c => ⟨[], ⟨?_, ?_, ?_⟩, rfl⟩
  all_goals cases cmdType <;> simp [leftBy]

theorem plain_streamNoRows {formats described} :
    Leads Plain (streamRowsToClientExtended formats described noRows cmdType) := by
  refine .seq ?_ fun _ => plain_send rfl
  unfold sendWhen
  split
  · exact plain_send rfl
  · exact .ret

theorem applies_of_settles {α : Type} {cmds completes} {x : Handler α} (completed : Completed completes c d)
    (plain : Leads Plain x) (settles : wp x (fun _ => Settles D e cmds c) d) :
    List.Forall₂ (Realizes e) (modifying D cmds) (modifying D completes) := by
  obtain ⟨_, final, ⟨outs, allCalls, hv, applies⟩, out, movesOn, noError⟩ := exists_of_wp (wp_and settles (plain d))
  obtain ⟨calls, movesFirst, rfl⟩ := completed
  obtain ⟨rfl, rfl⟩ := hv.unique (movesFirst.trans movesOn)
  rw [append_nil] at applies
  exact applies noError

def alterViewError : Text := "can only modify view with alter view statement".toList

def dropViewError : Text := "is of type View, trying to drop type Table".toList

theorem viewStatement_may {altered}
    (isForm : e.convertAlterTableToAlterView text = some altered ∨ e.convertDropTableToDropView text = some altered) :
    ∃ err, viewStatement e text err = some altered := by
  rcases isForm with alters | drops
  · have isAlter : isAlterTableNotTableError alterViewError = true := by decide
    refine ⟨alterViewError, ?_⟩
    rw [viewStatement, if_pos isAlter, alters, Option.some_or]
  · have notAlter : ¬isAlterTableNotTableError dropViewError = true := by decide
    have isDrop : isDropTableOnViewError dropViewError = true := by decide
    refine ⟨dropViewError, ?_⟩
    rw [viewStatement, if_neg notAlter, if_pos isDrop, drops, Option.none_or]

theorem runExec_may {altered} (hh : wp (runExec e text args) Q c)
    (isForm : e.convertAlterTableToAlterView text = some altered ∨ e.convertDropTableToDropView text = some altered) :
    ∃ d, Completed [(altered, args)] c d ∧ Q (.ok 0) d := by
  obtain ⟨err, isView⟩ := viewStatement_may isForm
  unfold runExec at hh
  rw [wp_bind] at hh
  obtain ⟨d, completes, rest⟩ := (exec_may hh).2 err
  simp only [isView] at rest
  obtain ⟨final, completesMore, ends⟩ := (exec_may rest).1
  exact ⟨final, completes.trans completesMore, ends⟩

theorem execStatement_safe
    (settles : wp (execStatement cmdType (runExec e text args) (pure ())) (fun _ => Settles D e [(text, args)] c) c) :
    (cmdType = .begin ∧ c.txStatus = .transaction → D.modifies text = false) ∧
      (¬(cmdType = .begin ∧ c.txStatus = .transaction) → ViewsAlike D e text) := by
  unfold execStatement at settles
  simp only [wp_bind, wp_get] at settles
  constructor
  · intro nested
    rw [if_pos nested] at settles
    have applies := applies_of_settles ⟨[], .refl c, rfl⟩
      (.seq (.seq (plain_send rfl) fun _ => plain_send rfl) fun _ => .ret) settles
    by_contra modifies
    simp [modifying, modifies] at applies
  · intro notNested altered isForm
    rw [if_neg notNested, wp_bind] at settles
    obtain ⟨d, completes, rest⟩ := runExec_may (recovered_may settles) isForm
    have applies := applies_of_settles completes
      (.seq plain_updateTxStatus fun _ => .seq (plain_send rfl) fun _ => .ret) (rest 0 rfl)
    have lengths := applies.length_eq
    cases modifies : D.modifies text <;> cases modifiesToo : D.modifies altered <;>
      simp [modifying, modifies, modifiesToo] at lengths ⊢

theorem executeMultiStatementExtended_safe {statements cleanup formats described} (hn : statements ≠ [])
    (settles : wp (executeMultiStatementExtended statements cleanup args formats described)
      (fun _ => Settles D e (planned c.txStatus statements cleanup args) c) c) :
    ∀ text ∈ (unwrapped c.txStatus statements cleanup).2, D.modifies text = false := by
  have remains : (unwrapped c.txStatus statements cleanup).1 ≠ [] := unwrapped_ne_nil hn
  unfold executeMultiStatementExtended multiStatement planned at settles
  rw [if_neg (by simpa using hn)] at settles
  simp only [wp_bind, wp_get] at settles
  generalize unwrapped c.txStatus statements cleanup = plan at *
  obtain ⟨statements, cleanup⟩ := plan
  obtain ⟨d, completes, rest⟩ := executeSetup_may settles
  dsimp only at rest
  have applies : List.Forall₂ (Realizes e) (modifying D (statements.map (·, args) ++ cleanup.map (·, [])))
      (modifying D (statements.map (·, args))) := by
    rw [map_eq_dropLast remains] at rest ⊢
    split at rest
    · rw [wp_bind] at rest
      obtain ⟨d, completesLast, rest⟩ := query_may rest
      rw [wp_bind] at rest
      obtain ⟨d, completesNothing, rest⟩ := executeCleanup_may rest
      have completes := completes.trans (completesLast.trans completesNothing)
      exact applies_of_settles completes plain_streamNoRows rest
    · rw [wp_bind] at rest
      obtain ⟨d, completesLast, rest⟩ := (exec_may rest).1
      rw [wp_bind] at rest
      obtain ⟨d, completesNothing, rest⟩ := executeCleanup_may rest
      have completes := completes.trans (completesLast.trans completesNothing)
      exact applies_of_settles completes (.seq (plain_send rfl) fun _ => .ret) rest
  have lengths := applies.length_eq
  unfold modifying at lengths
  rw [filter_append, length_append, Nat.add_eq_left, length_eq_zero_iff, filter_eq_nil_iff] at lengths
  intro text hm
  exact eq_false_of_ne_true (lengths (text, []) (mem_map_of_mem hm))

end Duckgres.Proof.Conn
