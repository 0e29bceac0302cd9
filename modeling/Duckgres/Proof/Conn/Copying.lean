import Duckgres.Proof.Conn.Responses

namespace Duckgres.Proof.Conn
open Base Base.Stateful Duckgres.Conn Duckgres.Execution List

variable {e : Setting} {old : List Backend} {s c : ClientConn} {φ : Phase → Prop} {text : Text}

/-! ## COPY FROM STDIN -/

theorem failCopy_ready {code message} : Ends (· = .ready) (failCopy code message) :=
  .seq sendError_quiet fun _ => .seq setTxError_in fun _ => readyForQuery_failed

theorem finishCopy_ready {result} : Ends (· = .ready) (finishCopy result) := by
  cases result with
  | error => exact failCopy_ready
  | ok => exact complete_ready

theorem endCopy_ready {ending load} (loads : Ends (· = .ready) load) : Ends (· = .ready) (endCopy ending load) := by
  cases ending with
  | done => exact loads
  | fail | unexpected => exact failCopy_ready
  | lost => exact close_in

theorem receiveFile_in {input} : Takes φ (receiveFile input) fun _ => φ := by
  induction input with
  | nil => exact .keep
  | cons m input ih =>
    cases m with
    | copyData =>
      refine .seq setInput_in fun _ => ?_
      split
      · exact ih
      · refine .seq calls_perform.takes fun written => ?_
        split
        · exact .keep
        · exact ih
    | _ => exact .seq setInput_in fun _ => .keep

variable {opts : CopyFromOptions} {cols colTypes : List Text} {oids : List Oid} {rowCount : Nat} {rows : RowSet}
  {delimiter err : Text} {data : Bytes} {items : List (Except Text Row)}

theorem copyInFile_ready : Ends (· = .ready) (copyInFile opts) := by
  refine .seq calls_perform.takes fun created => ?_
  split
  · exact failCopy_ready
  · exact .read fun _ => .seq receiveFile_in
      (of_result (fun _ => failCopy_ready) fun _ => endCopy_ready (.seq calls_exec.takes fun _ => finishCopy_ready))

theorem handleCopyInRemoteStreaming_ready : Ends (· = .ready) (handleCopyInRemoteStreaming opts) := by
  refine .seq calls_perform.takes fun answer => .read fun _ => .seq setInput_in fun _ => ?_
  split
  · exact failCopy_ready
  · exact failCopy_ready
  · exact finishCopy_ready
  · exact finishCopy_ready

theorem loadCSV_ready : Ends (· = .ready) (loadCSV e opts cols colTypes data) := by
  unfold loadCSV
  split
  · exact failCopy_ready
  · dsimp only
    split
    · exact complete_ready
    · exact .seq calls_insertBatches.takes fun _ => finishCopy_ready

theorem handleCopyInCSVWithBlob_ready : Ends (· = .ready) (handleCopyInCSVWithBlob e opts cols colTypes) :=
  .seq (send_stays rfl) fun _ => .read fun _ => .seq setInput_in fun _ => endCopy_ready loadCSV_ready

theorem loadBinary_ready : Ends (· = .ready) (loadBinary e opts cols colTypes data) := by
  unfold loadBinary
  split
  · exact close_in
  · exact failCopy_ready
  · exact .seq calls_insertBinary.takes fun _ => finishCopy_ready

theorem handleCopyInBinary_ready : Ends (· = .ready) (handleCopyInBinary e opts cols colTypes) :=
  .seq (send_stays rfl) fun _ => .read fun _ => .seq setInput_in fun _ => endCopy_ready loadBinary_ready

theorem handleCopyIn_ready : Ends (· = .ready) (handleCopyIn e text) := by
  unfold handleCopyIn
  split
  · exact failCopy_ready
  refine .seq calls_query.takes (of_result (fun _ => failCopy_ready) fun _ => ?_)
  dsimp only
  split
  · exact handleCopyInBinary_ready
  split
  · exact handleCopyInCSVWithBlob_ready
  · refine .seq (send_stays rfl) fun _ => ?_
    split
    · exact handleCopyInRemoteStreaming_ready
    · exact copyInFile_ready

theorem copyFile_ready : Ends (· = .ready) (copyFile text) := by
  exact .seq calls_exec.takes (of_result (fun _ => error_ready sendPlainError_quiet) fun _ => complete_ready)

theorem sendCopyTuples_quiet : Ends Phase.Quiet (sendCopyTuples e oids items rowCount) := by
  induction items generalizing rowCount with
  | nil => exact .keep
  | cons row rows ih =>
    cases row with
    | error => exact .keep
    | ok => exact .seq (send_stays rfl) fun _ => ih

theorem handleCopyOutBinary_ready : Ends (· = .ready) (handleCopyOutBinary e rows cols) := by
  unfold handleCopyOutBinary
  split
  · exact error_ready sendPlainError_quiet
  refine .seq (send_stays rfl) fun _ => .seq sendCopyTuples_quiet
    (of_result (fun _ => error_ready sendPlainError_quiet) fun _ => ?_)
  dsimp only
  split
  · exact error_ready sendPlainError_quiet
  · exact .seq (send_stays rfl) fun _ => .seq (send_stays rfl) fun _ => complete_ready

theorem sendCopyLines_quiet (scanned : ∀ err, .error err ∉ items) :
    Ends Phase.Quiet (sendCopyLines e oids delimiter items rowCount) := by
  induction items generalizing rowCount with
  | nil => exact .keep
  | cons row rows ih =>
    cases row with
    | error err => exact absurd mem_cons_self (scanned err)
    | ok => exact .seq (send_stays rfl) fun _ => ih fun err hm => scanned err (mem_cons_of_mem _ hm)

theorem sendCopyLines_failed (unscanned : .error err ∈ items) :
    Ends (· = .failed) (sendCopyLines e oids delimiter items rowCount) := by
  induction items generalizing rowCount with
  | nil => cases unscanned
  | cons row rows ih =>
    cases row with
    | error => exact .seq sendError_quiet fun _ => .keep
    | ok =>
      have later : .error err ∈ rows := by simpa using unscanned
      exact .seq (send_stays rfl) fun _ => ih later

theorem sendTextRows_ready (scanned : ∀ err, .error err ∉ rows.rows) :
    Ends (· = .ready) (sendTextRows e text rows cols colTypes) := by
  refine .seq (send_stays rfl) fun _ => .seq (sendWhen_quiet rfl) fun _ =>
    .seq (sendCopyLines_quiet scanned) fun sent => ?_
  dsimp only
  split
  · exact error_ready sendPlainError_quiet
  · exact .seq (send_stays rfl) fun _ => complete_ready

theorem send_broken {m} : Takes (· = .broken) (send m) fun _ => (· = .broken) := fun _ _ broken =>
  wp_send (broken.imp (by rintro _ rfl; rfl))

theorem readyForQuery_broken : Takes (· = .broken) readyForQuery fun _ => (· = .broken) := .read fun _ => send_broken

theorem send_breaks {m} (other : ∀ status, m ≠ .readyForQuery status) :
    Takes (· = .failed) (send m) fun _ => (· = .broken) := by
  refine fun _ _ hfa => wp_send (hfa.imp fun p hfa => ?_)
  subst hfa
  cases m with
  | readyForQuery status => exact absurd rfl (other status)
  | _ => rfl

theorem sendTextRows_broken (unscanned : .error err ∈ rows.rows) :
    Ends (· = .broken) (sendTextRows e text rows cols colTypes) := by
  refine .seq (send_stays rfl) fun _ => .seq (sendWhen_quiet rfl) fun _ =>
    .seq (sendCopyLines_failed unscanned) fun sent => ?_
  dsimp only
  split
  · refine .seq ?_ fun _ => readyForQuery_broken
    exact .seq (send_breaks nofun) fun _ => setTxError_in
  · refine .seq (send_breaks nofun) fun _ => ?_
    exact .seq send_broken fun _ => readyForQuery_broken

/-! ## Rows that cannot be scanned -/

section
variable {α β : Type}

def MakesNoCalls (x : Handler α) : Prop := ∀ s, wp x (fun _ c => c.log = s.log) s

theorem MakesNoCalls.seq {x : Handler α} {f : α → Handler β} (first : MakesNoCalls x) (rest : ∀ a, MakesNoCalls (f a)) :
    MakesNoCalls (x >>= f) := fun s =>
  wp_seq (first s) fun a s hs => wp_imp (rest a s) fun _ _ again => again.trans hs

theorem makesNoCalls_send (m : Backend) : MakesNoCalls (send m) := fun s => by
  unfold send
  rw [wp_modify]

theorem makesNoCalls_readyForQuery : MakesNoCalls readyForQuery := fun s => by
  unfold readyForQuery
  simp only [wp_bind, wp_get]
  exact makesNoCalls_send _ s

theorem makesNoCalls_setTxError : MakesNoCalls setTxError := fun s => by
  unfold setTxError
  rw [wp_modify]
  dsimp only
  split <;> rfl

theorem makesNoCalls_plainError (err : Text) : MakesNoCalls (do sendPlainError err; readyForQuery) :=
  ((makesNoCalls_send _).seq fun _ => makesNoCalls_setTxError).seq fun _ => makesNoCalls_readyForQuery

theorem makesNoCalls_sendCopyLines (rows : List (Except Text Row)) (rowCount : Nat) :
    MakesNoCalls (sendCopyLines e oids delimiter rows rowCount) := by
  induction rows generalizing rowCount with
  | nil => exact fun s => .ret rfl
  | cons row rows ih =>
    cases row with
    | error => exact (makesNoCalls_send _).seq fun _ s => .ret rfl
    | ok => exact (makesNoCalls_send _).seq fun _ => ih _

theorem makesNoCalls_sendTextRows : MakesNoCalls (sendTextRows e text rows cols colTypes) := by
  refine (makesNoCalls_send _).seq fun _ => MakesNoCalls.seq (fun s => ?_) fun _ =>
    (makesNoCalls_sendCopyLines _ _).seq fun sent => ?_
  · unfold sendWhen
    split
    · exact makesNoCalls_send _ s
    · exact .ret rfl
  · dsimp only
    split
    · exact makesNoCalls_plainError _
    · exact (makesNoCalls_send _).seq fun _ => (makesNoCalls_send _).seq fun _ => makesNoCalls_readyForQuery

end

def queried (text : Text) (args : List Value) (answer : Answered RowSet) : Occurrence := ⟨.query text args, answer⟩

theorem queried_inj {text other} {args otherArgs answer otherAnswer}
    (hs : queried text args answer = queried other otherArgs otherAnswer) : answer = otherAnswer := by
  cases hs
  rfl

def Unscanned (e : Setting) (text : Text) (log : List Occurrence) : Prop :=
  ∃ source rows inTxn, (e.copy.toStdout text.toUpper).isSome = true ∧ e.copy.toStdout text = some source ∧
    e.copy.binary text = false ∧
    log.getLast? = some (queried (copySelect e source.trimSpace) [] ⟨.ok rows, inTxn⟩) ∧
    (∃ cols, rows.columns = .ok cols) ∧ (∃ colTypes, rows.columnTypes = .ok colTypes) ∧ ∃ err, .error err ∈ rows.rows

def Phase.Settles (spoiled : Prop) (p : Phase) : Prop := spoiled ∧ p = .broken ∨ ¬spoiled ∧ p = .ready

abbrev SettledBy (spoiled : List Occurrence → Prop) (old : List Backend) (c : ClientConn) : Prop :=
  In (Phase.Settles (spoiled c.log)) old c

theorem In.settles {spoiled : Prop} (ready : In (· = .ready) old c) (unspoiled : ¬spoiled) :
    In (Phase.Settles spoiled) old c :=
  ready.imp fun _ ready => .inr ⟨unspoiled, ready⟩

theorem settles_of_ready {x : Handler Unit} (quietly : MakesNoCalls x) (ready : wp x (fun _ => In (· = .ready) old) s)
    (scanned : ¬Unscanned e text s.log) : wp x (fun _ => SettledBy (Unscanned e text) old) s :=
  wp_imp (wp_and ready (quietly s)) fun _ _ ⟨ready, hs⟩ => ready.settles (hs ▸ scanned)

theorem wp_query_logged {args} {P : ClientConn → Prop} (kept : KeptByCalls P) (hl : P s) :
    wp (query text args) (fun result c => P c ∧
      ∃ inTxn, c.log.getLast? = some (queried text args ⟨result, inTxn⟩)) s := by
  unfold query perform
  simp only [wp_bind, wp_call, wp_pure]
  intro answer
  refine ⟨kept _ answer s hl, answer.inTxn, ?_⟩
  exact getLast?_concat

theorem handleCopyOut_settles (isOut : (e.copy.toStdout text.toUpper).isSome = true) (quiet : In Phase.Quiet old s) :
    wp (handleCopyOut e text) (fun _ => SettledBy (Unscanned e text) old) s := by
  unfold handleCopyOut
  split
  · rename_i invalid
    refine wp_imp (failCopy_ready quiet) fun _ c ready => ready.settles ?_
    intro ⟨source, _, _, _, valid, _⟩
    cases invalid.symm.trans valid
  · rename_i source valid
    refine wp_seq (wp_query_logged in_keptByCalls quiet) fun result s ⟨quiet, inTxn, last⟩ => ?_
    have rowsAre {rows : RowSet} (unscanned : Unscanned e text s.log) (hs : result = .ok rows) :
        e.copy.binary text = false ∧ (∃ cols, rows.columns = .ok cols) ∧
          (∃ colTypes, rows.columnTypes = .ok colTypes) ∧ ∃ err, .error err ∈ rows.rows := by
      obtain ⟨_, other, _, _, _, isText, lastToo, cols, colTypes, err⟩ := unscanned
      cases queried_inj (Option.some.inj (last.symm.trans lastToo))
      cases hs
      exact ⟨isText, cols, colTypes, err⟩
    cases result with
    | error =>
      refine settles_of_ready (makesNoCalls_plainError _) (error_ready sendPlainError_quiet quiet) ?_
      intro ⟨_, _, _, _, _, _, lastToo, _⟩
      cases queried_inj (Option.some.inj (last.symm.trans lastToo))
    | ok rows =>
      dsimp only
      split
      · rename_i err noColumns
        refine settles_of_ready (makesNoCalls_plainError _) (error_ready sendPlainError_quiet quiet) fun unscanned => ?_
        obtain ⟨_, ⟨cols, columns⟩, _⟩ := rowsAre unscanned rfl
        cases noColumns.symm.trans columns
      · rename_i cols columns
        split
        · rename_i isBinary
          refine wp_imp (handleCopyOutBinary_ready quiet) fun _ c ready => ready.settles ?_
          intro ⟨_, _, _, _, _, isText, _⟩
          cases isBinary.symm.trans isText
        · rename_i isText
          split
          · rename_i err noTypes
            refine settles_of_ready (makesNoCalls_plainError _)
              (error_ready sendPlainError_quiet quiet) fun unscanned => ?_
            obtain ⟨_, _, ⟨colTypes, types⟩, _⟩ := rowsAre unscanned rfl
            cases noTypes.symm.trans types
          · rename_i colTypes types
            by_cases fails : ∃ err, .error err ∈ rows.rows
            · obtain ⟨err, unscanned⟩ := fails
              refine wp_imp (wp_and (sendTextRows_broken unscanned quiet) (makesNoCalls_sendTextRows s)) ?_
              intro _ c ⟨broken, hs⟩
              refine broken.imp fun _ broken => .inl ⟨?_, broken⟩
              rw [hs]
              exact ⟨source, rows, inTxn, isOut, valid, by simpa using isText, last, ⟨cols, columns⟩, ⟨colTypes, types⟩,
                err, unscanned⟩
            · have scanned : ∀ err, .error err ∉ rows.rows := by simpa using fails
              refine settles_of_ready makesNoCalls_sendTextRows (sendTextRows_ready scanned quiet) fun unscanned => ?_
              exact fails (rowsAre unscanned rfl).2.2.2

theorem handleCopy_settles (quiet : In Phase.Quiet old s) :
    wp (handleCopy e text) (fun _ => SettledBy (Unscanned e text) old) s := by
  unfold handleCopy
  split
  · rename_i isOut
    exact handleCopyOut_settles isOut quiet
  rename_i notOut
  have scanned (c : ClientConn) : ¬Unscanned e text c.log := fun ⟨_, _, _, isOut, _⟩ => notOut isOut
  split
  · exact wp_imp (handleCopyIn_ready quiet) fun _ c ready => ready.settles (scanned c)
  · exact wp_imp (copyFile_ready quiet) fun _ c ready => ready.settles (scanned c)

variable {input : List Frontend} {bytes : Bytes}

def payloads (input : List Frontend) : List Bytes := (readCopy false input).1

theorem readCopy_true (input : List Frontend) :
    (readCopy true input).1 = (payloads input).filter fun data => !isEndMarker data := by
  induction input with
  | nil => rfl
  | cons m input ih => cases m with
    | copyData data => cases marker : isEndMarker data <;> simp [payloads, readCopy, marker, ih]
    | _ => rfl

theorem flatten_filter_eq_iff (chunks : List Bytes) :
    (chunks.filter fun data => !isEndMarker data).flatten = chunks.flatten ↔
      ∀ data ∈ chunks, isEndMarker data = false := by
  induction chunks with
  | nil => simp
  | cons data chunks ih =>
    cases marker : isEndMarker data with
    | false => simp [marker, ih]
    | true =>
      have hpos : 0 < data.length := by
        rcases Bool.or_eq_true_iff.mp marker with long | short
        · simp [of_decide_eq_true long]
        · simp [of_decide_eq_true short]
      have shorter (others : List Bytes) :
          (others.filter fun data => !isEndMarker data).flatten.length ≤ others.flatten.length := by
        induction others with
        | nil => rfl
        | cons other others ih =>
          rw [filter_cons]
          split <;> simp only [flatten_cons, length_append] <;> omega
      have shorter := shorter chunks
      simp only [filter_cons, marker, flatten_cons, forall_mem_cons]
      refine iff_of_false (fun hs => ?_) (by simp)
      have lengths := congrArg List.length hs
      simp only [Bool.not_true, Bool.false_eq_true, if_false, length_append] at lengths
      omega

def remaining (r : WireReader) : Bytes := r.pending ++ if r.ended.isNone then (readCopy true r.input).1.flatten else []

theorem remaining_fill (input : List Frontend) :
    remaining (WireReader.fill input) = (readCopy true input).1.flatten := by
  induction input with
  | nil => rfl
  | cons m input ih => cases m with
    | copyData data =>
      simp only [WireReader.fill, readCopy]
      cases marker : isEndMarker data with
      | true => simpa using ih
      | false =>
        cases data with
        | nil => simpa using ih
        | cons b data => simp [remaining]
    | _ => rfl

theorem remaining_read (n : Nat) (r : WireReader) : match r.read n with
    | (next, .ok data) => remaining r = data ++ remaining next
    | (_, .error _) => remaining r = [] := by
  have filled : remaining r = remaining (if r.pending.isEmpty && r.ended.isNone then .fill r.input else r) := by
    split
    · rename_i empty
      obtain ⟨nothing, going⟩ := Bool.and_eq_true_iff.mp empty
      rw [remaining_fill, remaining, if_pos going, isEmpty_iff.mp nothing, nil_append]
    · rfl
  rw [filled, WireReader.read]
  generalize (if r.pending.isEmpty && r.ended.isNone then WireReader.fill r.input else r) = r
  obtain ⟨pending, ended, input⟩ := r
  cases pending with
  | nil => cases ended with
    | none => simp [remaining]
    | some ending => cases ending <;> rfl
  | cons b rest => simp [remaining, ← append_assoc]

def readAll : List Nat → WireReader → Bytes × Option CopyEnd
  | [], _ => ([], none)
  | n :: sizes, r => match r.read n with
    | (_, .error ending) => ([], some ending)
    | (next, .ok data) => (data ++ (readAll sizes next).1, (readAll sizes next).2)

theorem readAll_remaining {sizes r ending} (ended : (readAll sizes r).2 = some ending) :
    (readAll sizes r).1 = remaining r := by
  induction sizes generalizing r with
  | nil => cases ended
  | cons n sizes ih =>
    have reads := remaining_read n r
    rw [readAll] at ended ⊢
    cases result : r.read n with
    | mk _ outcome =>
      rw [result] at reads ended
      cases outcome with
      | error => exact reads.symm
      | ok data => exact (congrArg (data ++ ·) (ih ended)).trans reads.symm

def written (calls : List Occurrence) : Bytes := calls.flatMap fun o => match o with
  | ⟨.writeTemp data, answer⟩ => if (answer : Except Text Unit) matches .ok _ then data else []
  | _ => []

theorem receiveFile_writes : wp (receiveFile input) (fun result final => ∃ calls, final.log = c.log ++ calls ∧
    ∀ ending, result = .ok ending → written calls = (readCopy true input).1.flatten) c := by
  induction input generalizing c with
  | nil => exact .ret ⟨[], (append_nil _).symm, fun _ _ => rfl⟩
  | cons m input ih =>
    unfold receiveFile setInput
    cases m with
    | copyData data =>
      rw [wp_bind, wp_modify]
      cases marker : isEndMarker data with
      | true =>
        simp only [readCopy, marker]
        exact ih (c := { c with input := input })
      | false =>
        simp only [readCopy, marker, perform]
        rw [if_neg (by simp), wp_bind, wp_call]
        intro answer
        cases answer with
        | error err => exact .ret ⟨[⟨.writeTemp data, .error err⟩], rfl, nofun⟩
        | ok =>
          refine wp_imp ih fun result final ⟨calls, log, whole⟩ => ?_
          refine ⟨⟨.writeTemp data, .ok ()⟩ :: calls, by rw [log]; simp [ClientConn.note], fun ending ended => ?_⟩
          exact congrArg (data ++ ·) (whole ending ended)
    | _ =>
      rw [wp_bind, wp_modify]
      exact .ret ⟨[], (append_nil _).symm, fun _ _ => rfl⟩

inductive Route where
  | file | stream | csv | binary

inductive HandsOver (input : List Frontend) : Route → Bytes → Prop
  | file {c final : ClientConn} {calls} (ends : (receiveFile input).Ends c (.ok .done) final)
      (log : final.log = c.log ++ calls) : HandsOver input .file (written calls)
  | stream {sizes} {bytes : Bytes} (reads : readAll sizes ⟨[], none, input⟩ = (bytes, some .done)) :
      HandsOver input .stream bytes
  | csv {chunks rest} (read : readCopy true input = (chunks, .done, rest)) : HandsOver input .csv chunks.flatten
  | binary {chunks rest} (read : readCopy false input = (chunks, .done, rest)) : HandsOver input .binary chunks.flatten

theorem copied_whole_iff {route : Route} (hands : HandsOver input route bytes) :
    bytes = (payloads input).flatten ↔ route = .binary ∨ ∀ data ∈ payloads input, isEndMarker data = false := by
  have skips (other : route ≠ .binary) (filtered : bytes = (readCopy true input).1.flatten) :
      bytes = (payloads input).flatten ↔ route = .binary ∨ ∀ data ∈ payloads input, isEndMarker data = false := by
    rw [filtered, readCopy_true, flatten_filter_eq_iff]
    simp [other]
  cases hands with
  | file ends log =>
    obtain ⟨calls, sameLog, whole⟩ := wp_iff.mp receiveFile_writes _ _ ends
    cases List.append_cancel_left (log.symm.trans sameLog)
    exact skips nofun (whole .done rfl)
  | stream reads =>
    have whole := readAll_remaining (congrArg Prod.snd reads)
    rw [reads] at whole
    exact skips nofun whole
  | csv read => exact skips nofun (by rw [read])
  | binary read => simp [payloads, read]

def threeChunks : List Frontend := [.copyData [97, 44], .copyData [98, 10, 99], .copyData [10], .copyDone]

theorem copied_whole_chunks : HandsOver threeChunks .stream [97, 44, 98, 10, 99, 10] ∧
    [97, 44, 98, 10, 99, 10] = (payloads threeChunks).flatten :=
  have hands : HandsOver threeChunks .stream [97, 44, 98, 10, 99, 10] :=
    .stream (show readAll [1, 4, 2, 4, 4, 4] _ = _ from rfl)
  ⟨hands, (copied_whole_iff hands).mpr (.inr (by decide))⟩

theorem copied_by_messages : (payloads [.copyData [97, 10, 92, 46, 10], .copyDone]).flatten =
      (payloads [.copyData [97, 10], .copyData [92, 46, 10], .copyDone]).flatten ∧
    HandsOver [.copyData [97, 10, 92, 46, 10], .copyDone] .csv [97, 10, 92, 46, 10] ∧
    HandsOver [.copyData [97, 10], .copyData [92, 46, 10], .copyDone] .csv [97, 10] :=
  ⟨rfl, HandsOver.csv (show _ = ([[97, 10, 92, 46, 10]], _, _) from rfl),
    HandsOver.csv (show _ = ([[97, 10]], _, _) from rfl)⟩

end Duckgres.Proof.Conn
