import Duckgres.Proof.Conn.Accepting

namespace Duckgres.Proof.Conn
open Base Base.Stateful Duckgres.Conn Duckgres.Execution List Function

variable {e : Setting} {c d : ClientConn} {name text : Text} {result left : List Row} {out : List Backend}

inductive Protocol where
  | simple
  | extended (resultFormats : List Int)

structure CursorCommand where
  text : Text
  howMany : Int
  isMove : Bool
  protocol : Protocol

def CursorCommand.messages (command : CursorCommand) : List Frontend :=
  match command.protocol with
  | .simple => [.query command.text]
  | .extended formats =>
    [.parse (.read ⟨[], command.text, []⟩), .bind (some ([], [])) (.read ⟨[], [], formats⟩), .execute (some ([], 0))]

def CursorCommand.run (e : Setting) (command : CursorCommand) : Handler Unit := forM command.messages (serve e)

/-- Only `handleQuery` trims the text. -/
def CursorCommand.handled (command : CursorCommand) : Text :=
  match command.protocol with
  | .simple => command.text.trimSpace
  | .extended _ => command.text

structure IsFetch (e : Setting) (name : Text) (command : CursorCommand) : Prop where
  nonempty : isEmptyQuery command.handled = false
  nonneg : 0 ≤ command.howMany
  parses : ∃ direction deparsed, isFetchForwardOnly direction = true ∧
    e.parse command.handled = some [⟨.fetch name direction command.howMany command.isMove, deparsed⟩]

def dataRows (out : List Backend) : List Row :=
  out.filterMap fun
    | .dataRow values _ _ => some values
    | _ => none

structure Answers (command : CursorCommand) (taken rest : List Row) (out : List Backend) : Prop where
  rows : dataRows out = if command.isMove then [] else taken
  within : (taken.length : Int) ≤ command.howMany
  exhausted : (taken.length : Int) < command.howMany → rest = [] ∨ out.any isError = true

def Yields (query : Text) (result : List Row) (o : Occurrence) : Prop :=
  ∀ (args : List Value) (rows : RowSet) (inTxn : Bool), o = ⟨.query query args, (⟨.ok rows, inTxn⟩ : Answered RowSet)⟩ →
    rows.rows = result.map .ok ∧ ∀ n, rows.err n = none

def OpenRows.Holds (rows : OpenRows) (left : List Row) : Prop := rows.rest = left.map .ok ∧ ∀ n, rows.err n = none

def Stands (name query : Text) (result left : List Row) (c : ClientConn) : Prop :=
  ∃ cursor, c.cursors name = some cursor ∧ cursor.query = query ∧ match cursor.rows with
    | none => left = result
    | some rows => OpenRows.Holds rows left

theorem fetchRows_ok {formats oids howMany rowCount calls} (within : rowCount ≤ howMany) :
    wp (fetchRows formats oids howMany (left.map .ok) rowCount calls) (fun fetched d => ∃ ht rest,
      left = ht ++ rest ∧ d = { c with sent := c.sent ++ ht.map fun values => .dataRow values formats oids } ∧
      fetched.failure = none ∧ fetched.rest = rest.map .ok ∧ rowCount + ht.length ≤ howMany ∧
      (rowCount + ht.length < howMany → rest = [])) c := by
  induction left generalizing rowCount calls c with
  | nil => exact .ret ⟨[], [], rfl, by simp, rfl, rfl, by simpa using within, fun _ => rfl⟩
  | cons values left ih =>
    simp only [map_cons, fetchRows]
    split
    · rename_i fewer
      simp only [wp_bind, send, wp_modify]
      refine wp_imp (ih (by omega)) fun fetched d post => ?_
      obtain ⟨ht, rest, split, hd, failure, isRest, within, exhausted⟩ := post
      refine ⟨values :: ht, rest, by simp [split], by simp [hd], failure, isRest, ?_, fun few => exhausted ?_⟩
      · simp only [length_cons]
        omega
      · simp only [length_cons] at few
        omega
    · rename_i enough
      exact .ret ⟨[], values :: left, rfl, by simp, rfl, rfl, by simpa using within, fun few => by
        omega⟩

theorem moveRows_ok {howMany rowCount calls} (within : rowCount ≤ howMany) :
    ∃ ht rest, left = ht ++ rest ∧ (moveRows howMany (left.map .ok) rowCount calls).rest = rest.map .ok ∧
      rowCount + ht.length ≤ howMany ∧ (rowCount + ht.length < howMany → rest = []) := by
  induction left generalizing rowCount calls with
  | nil => exact ⟨[], [], rfl, rfl, by simpa using within, fun _ => rfl⟩
  | cons values left ih =>
    simp only [map_cons, moveRows]
    split
    · rename_i fewer
      obtain ⟨ht, rest, split, isRest, within, exhausted⟩ := @ih (rowCount + 1) (calls + 1) (by omega)
      refine ⟨values :: ht, rest, by simp [split], isRest, ?_, fun few => exhausted ?_⟩
      · simp only [length_cons]
        omega
      · simp only [length_cons] at few
        omega
    · rename_i enough
      exact ⟨[], values :: left, rfl, rfl, by simpa using within, fun few => by
        omega⟩

def Serves (name query : Text) (result left : List Row) (command : CursorCommand) (c d : ClientConn) : Prop :=
  ∃ out calls, Moves out calls c d ∧ ((∀ o ∈ calls, Yields query result o) → ∃ taken rest, left = taken ++ rest ∧
    Answers command taken rest out ∧ Stands name query result rest d)

variable {query : Text} {command : CursorCommand} {cursor : Cursor} {rows : OpenRows} {finish : Handler Unit}
  {calls : List Occurrence}

theorem serves_of_not_yields {α : Type} {x : Handler α} (hv : Moves out calls c d)
    (fails : ¬ ∀ o ∈ calls, Yields query result o) (rest : Leads Raises x) :
    wp x (fun _ => Serves name query result left command c) d := by
  refine wp_imp (rest d) fun _ final raises => ?_
  obtain ⟨more, others, hvm, -⟩ := raises
  refine ⟨_, _, hv.trans hvm, fun yields => absurd (fun o mem => yields o ?_) fails⟩
  exact mem_append_left _ mem

theorem openCursor_opens (stands : match cursor.rows with
      | none => left = result
      | some rows => OpenRows.Holds rows left) :
    wp (openCursor name cursor) (fun ho d => ∃ calls, Moves [] calls c d ∧
      (ho.toOption = none → d.cursors = c.cursors) ∧
      ((∀ o ∈ calls, Yields cursor.query result o) → ∀ rows, ho = .ok rows → OpenRows.Holds rows left)) c := by
  unfold openCursor
  cases isOpen : cursor.rows with
  | some rows =>
    rw [isOpen] at stands
    refine .ret ⟨[], .refl c, by simp [Except.toOption], fun _ ho hs => ?_⟩
    cases hs
    exact stands
  | none =>
    rw [isOpen] at stands
    simp only [Conn.query, perform, wp_bind, wp_call, wp_pure]
    intro answer
    obtain ⟨answered, inTxn⟩ := answer
    have noted (answer : Answer (.query cursor.query [])) :
        Moves [] [⟨.query cursor.query [], answer⟩] c (ClientConn.note _ answer c) := .called rfl rfl rfl
    cases answered with
    | error => exact .ret ⟨_, noted _, fun _ => rfl, by simp⟩
    | ok rowSet =>
      cases isHeader : rowSet.header with
      | error =>
        simp only [isHeader]
        exact .ret ⟨_, noted _, fun _ => rfl, by simp⟩
      | ok =>
        simp only [isHeader, wp_bind, setCursor, wp_modify]
        refine .ret ⟨_, .called rfl rfl rfl, by simp [Except.toOption], fun yields rows hs => ?_⟩
        cases hs
        have yielded := yields _ mem_cons_self [] rowSet inTxn rfl
        exact ⟨by rw [stands, ← yielded.1], yielded.2⟩

theorem dataRows_append (out more : List Backend) : dataRows (out ++ more) = dataRows out ++ dataRows more :=
  filterMap_append

theorem dataRows_map (taken : List Row) (formats : List Int) (oids : List Oid) :
    dataRows (taken.map fun values => .dataRow values formats oids) = taken := by
  induction taken with
  | nil => rfl
  | cons values taken ih => exact congrArg (values :: ·) ih

def Passes (c d : ClientConn) : Prop :=
  d.cursors = c.cursors ∧ ∃ out calls, Moves out calls c d ∧ dataRows out = [] ∧
    ∀ o ∈ calls, ∀ query result, Yields query result o

instance : Std.Refl Passes := ⟨fun c => ⟨rfl, [], [], .refl c, rfl, by simp⟩⟩

instance : IsTrans ClientConn Passes where
  trans _ _ _ := by
    rintro ⟨hs, out, calls, moves, silent, harmless⟩ ⟨sameMore, more, others, movesMore, silentMore, harmlessMore⟩
    refine ⟨sameMore.trans hs, _, _, moves.trans movesMore, by rw [dataRows_append, silent, silentMore]; rfl, ?_⟩
    intro o mem
    rcases mem_append.mp mem with first | later
    · exact harmless o first
    · exact harmlessMore o later

theorem passes_send {m} (silent : dataRows [m] = []) : Leads Passes (send m) :=
  .update fun c => ⟨rfl, [m], [], .told rfl rfl rfl, silent, by simp⟩

theorem passes_sendWhen {condition m} (silent : dataRows [m] = []) : Leads Passes (sendWhen condition m) := by
  unfold sendWhen
  split
  · exact passes_send silent
  · exact .ret

theorem passes_readyForQuery : Leads Passes readyForQuery := .seq .read fun _ => passes_send rfl

theorem Serves.trans {final} (serves : Serves name query result left command c d) (passes : Passes d final) :
    Serves name query result left command c final := by
  obtain ⟨out, calls, hv, reads⟩ := serves
  obtain ⟨hs, more, others, hvm, silent, -⟩ := passes
  refine ⟨_, _, hv.trans hvm, fun yields => ?_⟩
  obtain ⟨ht, rest, split, answers, cursor, isCursor, stands⟩ := reads fun o mem => yields o (mem_append_left _ mem)
  refine ⟨ht, rest, split, ⟨?_, answers.within, fun few => ?_⟩, cursor, by rw [hs, isCursor], stands⟩
  · rw [dataRows_append, answers.rows, silent, append_nil]
  · rcases answers.exhausted few with none | hfa
    · exact .inl none
    · exact .inr (by rw [any_append, hfa, Bool.true_or])

theorem serves_then {α : Type} {x : Handler α} (serves : Serves name query result left command c d)
    (passes : Leads Passes x) : wp x (fun _ => Serves name query result left command c) d :=
  wp_imp (passes d) fun _ _ => serves.trans

theorem fetchAll_serves {formats} (isFetch : command.isMove = false)
    (nonneg : 0 ≤ command.howMany) (trails : Leads Passes finish) (hh : OpenRows.Holds rows left)
    (isQuery : cursor.query = query) (hv : Moves out calls c d) (silent : dataRows out = []) :
    wp (fetchAll name cursor rows formats command.howMany finish)
      (fun _ => Serves name query result left command c) d := by
  unfold fetchAll
  rw [hh.1]
  refine wp_seq (fetchRows_ok nonneg) fun fetched s post => ?_
  obtain ⟨ht, rest, split, rfl, failure, isRest, within, exhausted⟩ := post
  simp only [setCursor, sendCommandComplete, send, failure, hh.2]
  rw [wp_bind, wp_modify, wp_bind, wp_modify]
  have rowsSent : dataRows (out ++ (ht.map (fun values => .dataRow values formats (typeOIDs rows.columnTypes)) ++
      [.commandComplete ("FETCH ".toList ++ decimal fetched.rowCount)])) = ht := by
    rw [dataRows_append, silent, dataRows_append, dataRows_map]
    exact append_nil _
  refine serves_then ⟨out ++ (ht.map (fun values => .dataRow values formats (typeOIDs rows.columnTypes)) ++
      [.commandComplete ("FETCH ".toList ++ decimal fetched.rowCount)]), calls, ⟨?_, hv.log, hv.inTxn⟩,
    fun _ => ⟨ht, rest, split, ⟨?_, ?_, ?_⟩, _, update_self .., isQuery, isRest, hh.2⟩⟩
    (.seq trails fun _ => .ret)
  · simp [hv.sent, append_assoc]
  · rw [rowsSent, isFetch]
    rfl
  · omega
  · exact fun few => .inl (exhausted (by omega))

theorem moved_serves (isMove : command.isMove = true) (nonneg : 0 ≤ command.howMany)
    (trails : Leads Passes finish) (hh : OpenRows.Holds rows left) (isQuery : cursor.query = query)
    (hv : Moves [] calls c d) :
    wp (do
        setCursor name { cursor with rows := some (rows.after (moveRows command.howMany rows.rest 0 rows.nextCalls)) }
        sendCommandComplete ("MOVE ".toList ++ decimal (moveRows command.howMany rows.rest 0 rows.nextCalls).rowCount)
        finish
        return false)
      (fun _ => Serves name query result left command c) d := by
  obtain ⟨ht, rest, split, isRest, within, exhausted⟩ := @moveRows_ok left _ 0 rows.nextCalls nonneg
  rw [← hh.1] at isRest
  simp only [setCursor, sendCommandComplete, send]
  rw [wp_bind, wp_modify, wp_bind, wp_modify]
  refine serves_then ⟨[.commandComplete ("MOVE ".toList ++
      decimal (moveRows command.howMany rows.rest 0 rows.nextCalls).rowCount)], calls, ⟨?_, hv.log, hv.inTxn⟩,
    fun _ => ⟨ht, rest, split, ⟨?_, ?_, ?_⟩, _, update_self .., isQuery, isRest, hh.2⟩⟩
    (.seq trails fun _ => .ret)
  · simp [hv.sent, append_nil]
  · rw [isMove]
    rfl
  · omega
  · exact fun few => .inl (exhausted (by omega))

theorem yields_ctxErr {answer} : Yields query result ⟨.ctxErr, answer⟩ := by
  intro args rows inTxn hs
  cases congrArg Occurrence.call hs

theorem iterationError_passes {err} : Leads Passes (iterationError err) := by
  have asks : Leads Passes ctxDone :=
    leads_call fun answer c => ⟨rfl, [], [⟨.ctxErr, answer⟩], .called rfl rfl rfl, rfl, by
      intro o mem query result
      rw [mem_singleton.mp mem]
      exact yields_ctxErr⟩
  refine .seq ?_ fun _ => .ret
  unfold isCallerCancellation
  split
  · exact asks
  · exact .ret

theorem setTxError_passes : Leads Passes setTxError := by
  refine .update fun c => ?_
  split
  · exact ⟨rfl, [], [], ⟨(append_nil _).symm, (append_nil _).symm, rfl⟩, rfl, by simp⟩
  · exact Std.Refl.refl c

theorem unopened_serves {err} (nonneg : 0 ≤ command.howMany)
    (stands : Stands name query result left c) (hv : Moves [] calls c d) (hs : d.cursors = c.cursors) :
    wp (sendIterationError err) (fun _ => Serves name query result left command c) d := by
  refine wp_seq (iterationError_passes d) fun failure s passes => ?_
  obtain ⟨kept, out, others, hvm, silent, -⟩ := passes
  obtain ⟨cursor, isCursor, stands⟩ := stands
  obtain ⟨code, message⟩ := failure
  simp only [sendError, send]
  rw [wp_bind, wp_modify]
  refine serves_then ⟨out ++ [.errorResponse code message], _, ⟨?_, (hv.trans hvm).log, (hv.trans hvm).inTxn⟩,
    fun _ => ⟨[], left, rfl, ⟨?_, nonneg, fun _ => .inr ?_⟩, cursor, ?_, stands⟩⟩ setTxError_passes
  · simp [hvm.sent, hv.sent, append_nil, append_assoc]
  · rw [dataRows_append, silent]
    split <;> rfl
  · simp [isError]
  · change s.cursors name = some cursor
    rw [kept, hs, isCursor]

theorem fetchCursor_serves {direction} (forward : isFetchForwardOnly direction = true)
    (nonneg : 0 ≤ command.howMany) (stands : Stands name query result left c) :
    wp (fetchCursor e name direction command.howMany command.isMove readyForQuery)
      (fun _ => Serves name query result left command c) c := by
  obtain ⟨cursor, isCursor, rfl, isLeft⟩ := id stands
  unfold fetchCursor
  rw [if_neg (by simp [forward]), wp_bind, wp_get]
  simp only [isCursor]
  refine wp_seq (openCursor_opens isLeft) fun ho s post => ?_
  obtain ⟨calls, hv, kept, hh⟩ := post
  cases ho with
  | error =>
    exact wp_seq (unopened_serves nonneg stands hv (kept rfl)) fun _ s serves =>
      serves_then serves (.seq passes_readyForQuery fun _ => .ret)
  | ok rows =>
    dsimp only
    rw [if_neg (show ¬ command.howMany < 0 by omega)]
    by_cases yields : ∀ o ∈ calls, Yields cursor.query result o
    · have hl := hh yields rows rfl
      cases isMove : command.isMove with
      | true => exact moved_serves isMove nonneg passes_readyForQuery hl rfl hv
      | false =>
        simp only [sendRowDescription, send, Bool.false_eq_true, if_false]
        rw [wp_bind, wp_modify]
        have sent : Moves [.rowDescription (rowDescriptionFields rows.columns rows.columnTypes [])] calls c
            { s with sent := s.sent ++ [.rowDescription (rowDescriptionFields rows.columns rows.columnTypes [])] } :=
          ⟨by simp [hv.sent], hv.log, hv.inTxn⟩
        exact fetchAll_serves isMove nonneg passes_readyForQuery hl rfl sent rfl
    · refine serves_of_not_yields hv yields ?_
      split
      · exact .seq leads_setCursor fun _ => raises_errorSent (leads_send rfl) leads_readyForQuery
      · exact .seq (leads_send rfl) fun _ => raises_fetchAll leads_readyForQuery

theorem handleFetchCursorExtended_serves {p} (isFetch : command.isMove = false) (nonneg : 0 ≤ command.howMany)
    (stands : Stands name query result left c) :
    wp (handleFetchCursorExtended e p name command.howMany) (fun _ => Serves name query result left command c) c := by
  obtain ⟨cursor, isCursor, rfl, isLeft⟩ := id stands
  unfold handleFetchCursorExtended
  rw [wp_bind, wp_get]
  simp only [isCursor]
  refine wp_seq (openCursor_opens isLeft) fun ho s post => ?_
  obtain ⟨calls, hv, kept, hh⟩ := post
  cases ho with
  | error => exact unopened_serves nonneg stands hv (kept rfl)
  | ok rows =>
    by_cases yields : ∀ o ∈ calls, Yields cursor.query result o
    · refine wp_seq (passes_sendWhen rfl s) fun _ s passes => ?_
      obtain ⟨-, out, others, hvm, silent, -⟩ := passes
      have fetched : wp (fetchAll name cursor rows p.resultFormats command.howMany (pure ()))
          (fun _ => Serves name cursor.query result left command c) s :=
        fetchAll_serves isFetch nonneg .ret (hh yields rows rfl) rfl (hv.trans hvm) silent
      exact wp_seq fetched fun _ s serves => .ret serves
    · exact serves_of_not_yields hv yields (.seq (leads_sendWhen rfl) fun _ =>
        .seq (raises_fetchAll .ret) fun _ => .ret)

theorem Passes.serves {final} (passes : Passes c d) (serves : Serves name query result left command d final) :
    Serves name query result left command c final := by
  obtain ⟨-, out, calls, hv, silent, -⟩ := passes
  obtain ⟨more, others, hvm, reads⟩ := serves
  refine ⟨_, _, hv.trans hvm, fun yields => ?_⟩
  obtain ⟨ht, rest, split, answers, stands⟩ := reads fun o mem => yields o (mem_append_right _ mem)
  refine ⟨ht, rest, split, ⟨?_, answers.within, fun few => ?_⟩, stands⟩
  · rw [dataRows_append, silent, answers.rows, nil_append]
  · rcases answers.exhausted few with none | hfa
    · exact .inl none
    · exact .inr (by rw [any_append, hfa, Bool.or_true])

def CursorCommand.Supported (command : CursorCommand) : Prop := command.protocol = .simple ∨ command.isMove = false

theorem command_serves (isFetch : IsFetch e name command) (supported : command.Supported)
    (stands : Stands name query result left c) :
    wp (command.run e) (fun _ => Serves name query result left command c) c := by
  obtain ⟨nonempty, nonneg, direction, deparsed, forward, parses⟩ := isFetch
  unfold CursorCommand.run CursorCommand.messages
  unfold CursorCommand.handled at nonempty parses
  cases isProtocol : command.protocol with
  | simple =>
    rw [isProtocol] at nonempty parses
    have handled : serve e (.query command.text) = (do
        let _ ← fetchCursor e name direction command.howMany command.isMove readyForQuery) := by
      simp [serve, handleQuery, nonempty, cursorHandler, parses, cursorStatement]
    simp only [forM_cons, handled]
    refine wp_seq ?_ fun _ s serves => .ret serves
    exact wp_seq (fetchCursor_serves forward nonneg stands) fun _ s serves => .ret serves
  | extended =>
    rw [isProtocol] at parses
    have isRow : command.isMove = false := by
      rcases supported with simple | isRow
      · rw [isProtocol] at simple
        cases simple
      · exact isRow
    have parsed : handleParse e (.read ⟨[], command.text, []⟩) = prepare []
        ⟨0, command.text, command.text, [], 0, false, false, [], [], [], some (.fetch name command.howMany)⟩ := by
      simp [handleParse, parses, parseNode, forward, show ¬ command.howMany < 0 by omega]
    simp only [forM_cons, serve, parsed, prepare, setStmt, send, handleBind, setPortal]
    simp only [wp_bind, wp_modify, wp_get, update_self]
    simp only [handleExecute, wp_bind, wp_get]
    set bound : ClientConn := { c with
      stmts := _, nextRef := _, portals := _, sent := c.sent ++ [.parseComplete] ++ [.bindComplete] } with isBound
    have passes : Passes c bound := ⟨rfl, [.parseComplete, .bindComplete], [], ⟨by simp [bound], (append_nil _).symm,
      rfl⟩, rfl, by simp⟩
    refine wp_imp (handleFetchCursorExtended_serves isRow nonneg ?_) fun _ s serves => .ret (passes.serves serves)
    exact stands

structure CommandStep where
  command : CursorCommand
  before : ClientConn
  after : ClientConn

def sentIn (c d : ClientConn) : List Backend := d.sent.drop c.sent.length

def IsReading (e : Setting) : ClientConn → List CommandStep → Prop
  | _, [] => True
  | c, step :: steps =>
    step.before = c ∧ (step.command.run e).Ends step.before () step.after ∧ IsReading e step.after steps

inductive Streams (left : List Row) : List CommandStep → List (List Row) → Prop where
  | nil : Streams left [] []
  | cons {step steps taken takens} :
      Answers step.command taken (takens.flatten ++ left) (sentIn step.before step.after) → Streams left steps takens →
      Streams left (step :: steps) (taken :: takens)

def Regular (query : Text) (result : List Row) (step : CommandStep) : Prop :=
  step.command.Supported ∧ ∀ o ∈ callsIn step.before step.after, Yields query result o

theorem step_answers {step} (isFetch : IsFetch e name step.command) (regular : Regular query result step)
    (ends : (step.command.run e).Ends step.before () step.after) (stands : Stands name query result left step.before) :
    ∃ ht rest, left = ht ++ rest ∧ Answers step.command ht rest (sentIn step.before step.after) ∧
      Stands name query result rest step.after := by
  obtain ⟨out, calls, hv, reads⟩ := wp_iff.mp (command_serves isFetch regular.1 stands) _ _ ends
  have isSent : sentIn step.before step.after = out := by rw [sentIn, hv.sent, drop_left]
  rw [isSent]
  refine reads ?_
  rw [← callsIn_of_moves hv]
  exact regular.2

theorem cursor_streams {steps} (run : IsReading e c steps)
    (fetches : ∀ step ∈ steps, IsFetch e name step.command) (regular : ∀ step ∈ steps, Regular query result step)
    (stands : Stands name query result left c) :
    ∃ takens rest, left = takens.flatten ++ rest ∧ Streams rest steps takens := by
  induction steps generalizing c left with
  | nil => exact ⟨[], left, rfl, .nil⟩
  | cons step steps ih =>
    obtain ⟨rfl, ends, later⟩ := run
    obtain ⟨ht, rest, rfl, answers, standsNext⟩ := step_answers (fetches step mem_cons_self)
      (regular step mem_cons_self) ends stands
    obtain ⟨takens, left, rfl, streams⟩ := ih later (fun other mem => fetches other (mem_cons_of_mem _ mem))
      (fun other mem => regular other (mem_cons_of_mem _ mem)) standsNext
    exact ⟨ht :: takens, left, by simp, .cons answers streams⟩

theorem declared_cursor_streams {steps : List CommandStep} (declared : c.cursors name = some ⟨query, none⟩)
    (run : IsReading e c steps) (fetches : ∀ step ∈ steps, IsFetch e name step.command)
    (regular : ∀ step ∈ steps, Regular query result step) :
    ∃ takens left, result = takens.flatten ++ left ∧ Streams left steps takens :=
  cursor_streams run fetches regular ⟨⟨query, none⟩, declared, rfl, rfl⟩

def cursorQuery : Text := "SELECT id FROM t".toList

/-- How pg_query parses the commands below. -/
def parseFetch (text : Text) : Option (List ParsedStmt) :=
  let fetch (howMany : Int) (isMove : Bool) := some [⟨.fetch ['c'] .forward howMany isMove, .ok text⟩]
  if text = "FETCH FORWARD 1 FROM c".toList then fetch 1 false
  else if text = "MOVE FORWARD 1 FROM c".toList then fetch 1 true
  else if text = "FETCH FORWARD 5 FROM c".toList then fetch 5 false
  else none

def fetchSetting : Setting := { Setting.bare with parse := parseFetch }

def declaredConn : ClientConn :=
  { ClientConn.started [] with cursors := update (fun _ => none) ['c'] (some ⟨cursorQuery, none⟩) }

def idRows : List Row := [[.int .int32 1], [.int .int32 2], [.int .int32 3]]

def idRowSet : RowSet := ⟨.ok ["id".toList], .ok ["INTEGER".toList], idRows.map .ok, fun _ => none⟩

def commandSteps (c : ClientConn) : List CursorCommand → List CommandStep
  | [] => []
  | command :: commands =>
    let after := (play (fun _ => answering idRowSet) (command.run fetchSetting) c []).1.2
    ⟨command, c, after⟩ :: commandSteps after commands

theorem isReading_commandSteps (commands : List CursorCommand) :
    IsReading fetchSetting c (commandSteps c commands) := by
  induction commands generalizing c with
  | nil => trivial
  | cons command commands ih => exact ⟨rfl, Script.returns_play, ih⟩

theorem yields_idRows :
    Yields cursorQuery idRows ⟨.query cursorQuery [], (⟨.ok idRowSet, false⟩ : Answered RowSet)⟩ := by
  intro args rows inTxn same
  cases same
  exact ⟨rfl, fun _ => rfl⟩

/-- A row fetched, one passed over, and a fetch of more rows than there are. -/
def cursorCommands : List CursorCommand :=
  [⟨" FETCH FORWARD 1 FROM c".toList, 1, false, .simple⟩, ⟨"MOVE FORWARD 1 FROM c".toList, 1, true, .simple⟩,
    ⟨"FETCH FORWARD 5 FROM c".toList, 5, false, .extended [1]⟩]

theorem declared_cursor_streams_commands : ∃ takens left, idRows = takens.flatten ++ left ∧
    Streams left (commandSteps declaredConn cursorCommands) takens := by
  have declared : declaredConn.cursors ['c'] = some ⟨cursorQuery, none⟩ := rfl
  refine declared_cursor_streams declared (isReading_commandSteps cursorCommands) ?_ ?_
  · rintro step (_ | ⟨_, _ | ⟨_, _ | ⟨_, ⟨⟩⟩⟩⟩)
    all_goals exact ⟨by decide, by decide, .forward, _, rfl, rfl⟩
  · rintro step (_ | ⟨_, _ | ⟨_, _ | ⟨_, ⟨⟩⟩⟩⟩)
    · refine ⟨.inl rfl, fun o isCall => ?_⟩
      rw [List.mem_singleton.mp isCall]
      exact yields_idRows
    · exact ⟨.inl rfl, nofun⟩
    · exact ⟨.inr rfl, nofun⟩

def extendedMove : CursorCommand := ⟨"MOVE FORWARD 1 FROM c".toList, 1, true, .extended []⟩

theorem extended_move_sends_row : ∃ step, IsReading fetchSetting declaredConn [step] ∧
    step.command = extendedMove ∧ IsFetch fetchSetting ['c'] extendedMove ∧
    callsIn step.before step.after = [⟨.query cursorQuery [], (⟨.ok idRowSet, false⟩ : Answered RowSet)⟩] ∧
    dataRows (sentIn step.before step.after) = [[.int .int32 1]] ∧ ¬ ∃ takens left, Streams left [step] takens := by
  refine ⟨_, isReading_commandSteps [extendedMove], rfl, ⟨by decide, by decide, .forward, _, rfl, rfl⟩, rfl, rfl, ?_⟩
  rintro ⟨takens, left, streams⟩
  cases streams with
  | cons answers rest =>
    have rows := answers.rows
    cases rows

end Duckgres.Proof.Conn
