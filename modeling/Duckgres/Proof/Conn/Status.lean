import Duckgres.Proof.Conn.Prepared

namespace Duckgres.Proof.Conn
open Base Base.Stateful Duckgres.Conn Duckgres.Execution List

variable {c d final : ClientConn} {out more : List Backend} {calls others : List Occurrence} {sql : Text}

def expected (inTxn failed : Bool) : TxStatus := if !inTxn then .idle else if failed then .error else .transaction

section
variable (restores : Text → Bool)

def keepsFailure (o : Occurrence) : Bool :=
  Occurrence.leaves o true && match o.call with
    | .exec text _ => !restores text
    | .query text _ => !restores text
    | _ => true

def failedBy (failed : Bool) (out : List Backend) (calls : List Occurrence) : Bool :=
  out.any isError || failed && calls.all (keepsFailure restores)

def Sound (failed : Bool) (c d : ClientConn) : Prop := ∃ out calls, Moves out calls c d ∧
  d.txStatus = expected d.inTxn (failedBy restores failed out calls)

end

def Still (inTxn : Bool) (calls : List Occurrence) : Prop :=
  (inTxn = true → ∀ o ∈ calls, Occurrence.leaves o true = true) ∧ leftBy inTxn calls = inTxn

def Unrestored (restores : Text → Bool) (calls : List Occurrence) : Prop :=
  ∀ o ∈ calls, match o.call with
    | .exec text _ => restores text = false
    | .query text _ => restores text = false
    | _ => True

variable {restores : Text → Bool}

theorem keepsFailure_of {o} (leaves : Occurrence.leaves o true = true)
    (unrestored : Unrestored restores [o]) : keepsFailure restores o = true := by
  have unrestored := unrestored o (mem_singleton_self o)
  unfold keepsFailure
  obtain ⟨call, answer⟩ := o
  cases call <;> simp_all

theorem all_keepsFailure (leaves : ∀ o ∈ calls, Occurrence.leaves o true = true)
    (unrestored : Unrestored restores calls) : calls.all (keepsFailure restores) = true := by
  rw [all_eq_true]
  intro o hm
  refine keepsFailure_of (leaves o hm) fun other hs => ?_
  rw [mem_singleton.mp hs]
  exact unrestored o hm

theorem sound_of_still {failed} (hv : Moves out calls c d) (agrees : c.txStatus = expected c.inTxn failed)
    (status : d.txStatus = if out.any isError then raised c.txStatus else c.txStatus) (still : Still c.inTxn calls)
    (unrestored : Unrestored restores calls) : Sound restores failed c d := by
  refine ⟨out, calls, hv, ?_⟩
  have hs : d.inTxn = c.inTxn := hv.inTxn.trans still.2
  rw [status, hs, agrees]
  cases inTxn : c.inTxn with
  | false => simp [expected, raised]
  | true =>
    have kept := all_keepsFailure (still.1 inTxn) unrestored
    unfold failedBy
    rw [kept]
    cases failed <;> cases out.any isError <;> rfl

def Applied : CommandType → Bool → Bool → Prop
  | .begin, before, after => before = false ∧ after = true
  | .commit, _, after => after = false
  | .rollback, _, after => after = false
  | _, before, after => after = before

def Follows (sql : Text) (inTxn : Bool) (o : Occurrence) : Prop :=
  match o.call, o.answer with
  | .exec text _, answer =>
    if text = sql ∧ (Answered.result answer matches .ok _)
    then Applied (getCommandType sql.toUpper) inTxn (Answered.inTxn answer)
    else Answered.inTxn answer = inTxn
  | _, _ => Occurrence.leaves o inTxn = inTxn

variable {args : List Value} {inTxn : Bool}

theorem follows_exec {text answer} (hfw : Follows sql inTxn ⟨.exec text args, answer⟩) :
    if text = sql ∧ (answer.result matches .ok _) then Applied (getCommandType sql.toUpper) inTxn answer.inTxn
    else answer.inTxn = inTxn := hfw

def Faithful (sql : Text) : Bool → List Occurrence → Prop
  | _, [] => True
  | inTxn, o :: calls => Follows sql inTxn o ∧ Faithful sql (Occurrence.leaves o inTxn) calls

theorem faithful_append :
    Faithful sql inTxn (calls ++ others) ↔ Faithful sql inTxn calls ∧ Faithful sql (leftBy inTxn calls) others := by
  induction calls generalizing inTxn with
  | nil => simp [Faithful, leftBy]
  | cons o calls ih =>
    simp only [cons_append, Faithful, ih, and_assoc]
    rfl

theorem leftBy_of_leaves (leaves : ∀ o ∈ calls, Occurrence.leaves o inTxn = inTxn) : leftBy inTxn calls = inTxn := by
  induction calls with
  | nil => rfl
  | cons o calls ih =>
    change leftBy (Occurrence.leaves o inTxn) calls = inTxn
    rw [leaves o mem_cons_self]
    exact ih fun o hm => leaves o (mem_cons_of_mem _ hm)

theorem still_of_leaves (leaves : ∀ o ∈ calls, Occurrence.leaves o inTxn = inTxn) : Still inTxn calls := by
  refine ⟨fun open' o hm => ?_, leftBy_of_leaves leaves⟩
  subst open'
  exact leaves o hm

def Held (sql : Text) (c d : ClientConn) : Prop := ∃ calls,
  d = { c with inTxn := leftBy c.inTxn calls, log := c.log ++ calls } ∧
    (Faithful sql c.inTxn calls → ∀ o ∈ calls, Occurrence.leaves o c.inTxn = c.inTxn)

theorem Held.refl (sql : Text) (c : ClientConn) : Held sql c c := ⟨[], by simp [leftBy], nofun⟩

theorem Held.note {call answer} (hl : Held sql c d)
    (keeps : Follows sql c.inTxn ⟨call, answer⟩ → Occurrence.leaves ⟨call, answer⟩ c.inTxn = c.inTxn) :
    Held sql c (ClientConn.note call answer d) := by
  obtain ⟨calls, made, leaves⟩ := hl
  refine ⟨_, note_eq made, fun faithful o hm => ?_⟩
  obtain ⟨before, hfw, _⟩ := faithful_append.mp faithful
  have leaves := leaves before
  rcases mem_append.mp hm with earlier | last
  · exact leaves o earlier
  · rw [leftBy_of_leaves leaves] at hfw
    rw [mem_singleton.mp last]
    exact keeps hfw

def Commanded (sql : Text) (c : ClientConn) (result : Except Text Int) (d : ClientConn) : Prop :=
  match result with
  | .error _ => Held sql c d
  | .ok _ => ∃ calls, d = { c with inTxn := leftBy c.inTxn calls, log := c.log ++ calls } ∧
      (Faithful sql c.inTxn calls → Applied (getCommandType sql.toUpper) c.inTxn d.inTxn)

theorem exec_commanded (hl : Held sql c d) : wp (exec sql args) (Commanded sql c) d := by
  unfold exec perform
  simp only [wp_bind, wp_call, wp_pure]
  intro answer
  cases result : Answered.result answer with
  | error =>
    refine hl.note fun hfw => ?_
    have hfw := follows_exec hfw
    rw [result, if_neg (by simp)] at hfw
    exact hfw
  | ok =>
    obtain ⟨calls, made, leaves⟩ := hl
    refine ⟨_, note_eq made, fun faithful => ?_⟩
    obtain ⟨before, hfw, _⟩ := faithful_append.mp faithful
    rw [leftBy_of_leaves (leaves before)] at hfw
    have hfw := follows_exec hfw
    rw [result, if_pos ⟨rfl, rfl⟩] at hfw
    exact hfw

theorem recovered_commanded (idle : c.txStatus = .idle → c.inTxn = false) :
    wp (recovered (exec sql args)) (Commanded sql c) c := by
  refine wp_recovered_of (fun _ => exec_commanded) (fun _ _ hl => hl)
    (fun _ _ hl => hl) (fun isIdle d hl => ?_) (.refl sql c)
  have closed := idle isIdle
  unfold rollback exec perform
  simp only [wp_bind, wp_call, wp_pure]
  intro answer
  refine hl.note fun hfw => ?_
  by_cases hs : "ROLLBACK".toList = sql ∧ (Answered.result answer matches .ok _)
  · have hfw := follows_exec hfw
    rw [if_pos hs, ← hs.1] at hfw
    exact Eq.trans hfw closed.symm
  · have hfw := follows_exec hfw
    rw [if_neg hs] at hfw
    exact hfw

theorem isCallerCancellation_held {err} (hl : Held sql c d) :
    wp (isCallerCancellation err) (fun _ => Held sql c) d := by
  have asked : wp (perform .ctxErr) (fun _ => Held sql c) d := by
    unfold perform
    rw [wp_call]
    exact fun answer => hl.note fun _ => rfl
  unfold isCallerCancellation
  split
  · exact asked
  · exact .ret hl

def Speaks (c d : ClientConn) : Prop := ∃ out, Moves out [] c d ∧ out.any isError = false ∧ d.txStatus = c.txStatus

instance : Std.Refl Speaks := ⟨fun c => ⟨[], .refl c, rfl, rfl⟩⟩

instance : IsTrans ClientConn Speaks where
  trans := by
    intro c d final ⟨out, moves, plain, status⟩ ⟨more, movesMore, plainMore, statusMore⟩
    refine ⟨out ++ more, moves.trans movesMore, ?_, statusMore.trans status⟩
    rw [any_append, plain, plainMore]
    rfl

theorem speaks_send {m} (quiet : isError m = false) : Leads Speaks (send m) :=
  .update fun _ => ⟨[m], .told rfl rfl rfl, by simp [quiet], rfl⟩

theorem speaks_close : Leads Speaks close :=
  .update fun _ => ⟨[], ⟨(append_nil _).symm, (append_nil _).symm, rfl⟩, rfl, rfl⟩

theorem speaks_readyForQuery : Leads Speaks readyForQuery := .seq .read fun _ => speaks_send rfl

def Obeys (restores : Text → Bool) (failed : Bool) (sql : Text) (c d : ClientConn) : Prop := ∃ out calls,
  Moves out calls c d ∧ (Faithful sql c.inTxn calls → Unrestored restores calls →
    d.txStatus = expected d.inTxn (failedBy restores failed out calls))

section
variable {restores : Text → Bool} {failed : Bool}

theorem sound_refl (agrees : c.txStatus = expected c.inTxn failed) : Sound restores failed c c :=
  ⟨[], [], .refl c, by simpa [failedBy] using agrees⟩

theorem Sound.speaks (sound : Sound restores failed c d) (later : Speaks d final) : Sound restores failed c final := by
  obtain ⟨out, calls, hv, status⟩ := sound
  obtain ⟨more, hvm, plain, hs⟩ := later
  refine ⟨out ++ more, calls ++ [], hv.trans hvm, ?_⟩
  have inTxn : final.inTxn = d.inTxn := hvm.inTxn
  rw [hs, status, inTxn, failedBy, failedBy, append_nil, any_append, plain, Bool.or_false]

theorem Obeys.speaks (obeys : Obeys restores failed sql c d) (later : Speaks d final) :
    Obeys restores failed sql c final := by
  obtain ⟨out, calls, hv, status⟩ := obeys
  obtain ⟨more, hvm, plain, hs⟩ := later
  refine ⟨out ++ more, calls ++ [], hv.trans hvm, fun faithful unrestored => ?_⟩
  rw [append_nil] at faithful unrestored ⊢
  have inTxn : final.inTxn = d.inTxn := hvm.inTxn
  rw [hs, status faithful unrestored, inTxn, failedBy, failedBy, any_append, plain, Bool.or_false]

theorem obeys_error {code message} (agrees : c.txStatus = expected c.inTxn failed)
    (hl : Held sql c d) : wp (do sendError code message; setTxError) (fun _ => Obeys restores failed sql c) d := by
  refine wp_imp error_moves fun _ final ⟨hv, status⟩ => ?_
  obtain ⟨calls, made, leaves⟩ := hl
  have before : Moves [] calls c d := by
    subst made
    exact .called rfl rfl rfl
  refine ⟨_, _, before.trans hv, fun faithful unrestored => ?_⟩
  have hs : d.txStatus = c.txStatus := by rw [made]
  rw [append_nil] at faithful unrestored
  obtain ⟨out, others, hd, sound⟩ : Sound restores failed c final := by
    refine sound_of_still (before.trans hv) agrees ?_ ?_ ?_
    · simpa [isError, hs] using status
    · rw [append_nil]
      exact still_of_leaves (leaves faithful)
    · rwa [append_nil]
  obtain ⟨rfl, rfl⟩ := hd.unique (before.trans hv)
  exact sound

theorem obeys_applied (control : isTransactionCommand (getCommandType sql.toUpper) = true)
    (sane : failed = true → c.inTxn = true)
    (made : d = { c with inTxn := leftBy c.inTxn calls, log := c.log ++ calls })
    (applied : Faithful sql c.inTxn calls → Applied (getCommandType sql.toUpper) c.inTxn d.inTxn) :
    wp (updateTxStatus (getCommandType sql.toUpper)) (fun _ => Obeys restores failed sql c) d := by
  have before : Moves [] calls c d := by
    subst made
    exact .called rfl rfl rfl
  unfold updateTxStatus
  rw [wp_modify]
  cases cmdType : getCommandType sql.toUpper with
  | begin =>
    refine ⟨[], calls, ⟨before.sent, before.log, before.inTxn⟩, fun faithful _ => ?_⟩
    rw [cmdType] at applied
    obtain ⟨closed, ho⟩ := applied faithful
    have unfailed : failed = false := by
      cases failed with
      | false => rfl
      | true => cases closed.symm.trans (sane rfl)
    rw [ho, unfailed]
    rfl
  | commit | rollback =>
    refine ⟨[], calls, ⟨before.sent, before.log, before.inTxn⟩, fun faithful _ => ?_⟩
    rw [cmdType] at applied
    have closed : d.inTxn = false := applied faithful
    rw [closed]
    rfl
  | _ => rw [cmdType] at control; cases control

theorem execStatement_obeys {finish}
    (control : isTransactionCommand (getCommandType sql.toUpper) = true) (finishes : Leads Speaks finish)
    (sane : failed = true → c.inTxn = true) (agrees : c.txStatus = expected c.inTxn failed) :
    wp (execStatement (getCommandType sql.toUpper) (exec sql args) finish)
      (fun _ => Obeys restores failed sql c) c := by
  have ends {x : Handler Unit} {errSent : Bool} {d : ClientConn}
      (obeys : wp x (fun _ => Obeys restores failed sql c) d) :
      wp (do x; finish; return errSent) (fun _ => Obeys restores failed sql c) d := by
    refine wp_seq obeys fun _ d obeys => wp_seq (finishes d) fun _ final later => ?_
    exact .ret (obeys.speaks later)
  have idle : c.txStatus = .idle → c.inTxn = false := by
    intro isIdle
    rw [isIdle] at agrees
    cases inTxn : c.inTxn with
    | false => rfl
    | true => cases failed <;> rw [inTxn] at agrees <;> cases agrees
  unfold execStatement
  simp only [wp_bind, wp_get]
  split
  · refine ends ?_
    refine wp_imp ((.seq (speaks_send rfl) fun _ => speaks_send rfl : Leads Speaks nestedBegin) c) fun _ d later => ?_
    exact Obeys.speaks ⟨[], [], .refl c, fun _ _ => by simpa [failedBy] using agrees⟩ later
  rw [wp_bind]
  refine wp_imp (recovered_commanded idle) fun result d commanded => ?_
  cases result with
  | error =>
    refine ends (wp_seq (isCallerCancellation_held commanded) fun _ d hl => ?_)
    exact obeys_error agrees hl
  | ok =>
    obtain ⟨calls, made, applied⟩ := commanded
    have obeyed : wp (updateTxStatus (getCommandType sql.toUpper)) (fun _ => Obeys restores failed sql c) d :=
      obeys_applied control sane made applied
    refine wp_seq obeyed fun _ d obeys => ?_
    refine ends (wp_imp (speaks_send rfl d) fun _ final later => ?_)
    exact obeys.speaks later

end

end Duckgres.Proof.Conn
