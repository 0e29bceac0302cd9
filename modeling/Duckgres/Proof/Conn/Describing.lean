import Duckgres.Proof.Conn.Possible

namespace Duckgres.Proof.Conn
open Base Base.Stateful Duckgres.Conn Duckgres.Execution Duckgres.Proof.Execution List Function

variable {D : Judge} {e : Setting} {c d final : ClientConn} {args : List Value} {text : Text}

/-! ## What the other messages need -/

def harmless (D : Judge) : Call → Bool
  | .exec text _ => !D.modifies text
  | .query text _ => !D.modifies text
  | .copyFromStdin _ => false
  | .appender .. => false
  | _ => true

def Spares (D : Judge) (c d : ClientConn) : Prop :=
  ∃ out calls, Moves out calls c d ∧ ∀ o ∈ calls, harmless D o.call = true

theorem harmless_of_statement {call} (isStatement : statement call = some text) :
    harmless D call = !D.modifies text := by
  cases call with
  | exec | query => cases isStatement; rfl
  | _ => cases isStatement

theorem Gives.spares_iff {texts} (gives : Gives texts c d) :
    Spares D c d ↔ ∀ text ∈ texts, D.modifies text = false := by
  obtain ⟨out, calls, hv, given⟩ := gives
  constructor
  · intro ⟨_, others, movesToo, spared⟩ text hm
    rw [← (hv.unique movesToo).2] at spared
    have hm : some text ∈ calls.map fun o => statement o.call := given ▸ mem_map_of_mem hm
    obtain ⟨o, isCall, isStatement⟩ := mem_map.mp hm
    have harmless := spared o isCall
    rw [harmless_of_statement isStatement] at harmless
    simpa using harmless
  · intro spared
    refine ⟨out, calls, hv, fun o hm => ?_⟩
    have hm : statement o.call ∈ texts.map some := given ▸ mem_map_of_mem hm
    obtain ⟨text, isText, isStatement⟩ := mem_map.mp hm
    rw [harmless_of_statement isStatement.symm, spared text isText]
    rfl

theorem spares_iff_of_gives {texts : List Text} {x : Handler Unit} (gives : wp x (fun _ => Gives texts c) c) :
    wp x (fun _ => Spares D c) c ↔ ∀ text ∈ texts, D.modifies text = false := by
  constructor
  · intro spares
    obtain ⟨_, d, spares, gives⟩ := exists_of_wp (wp_and spares gives)
    exact gives.spares_iff.mp spares
  · exact fun spared => wp_imp gives fun _ _ gives => gives.spares_iff.mpr spared

variable (D) in
inductive Probed (q : Text) : Prop
  | restricted (returnsRows : D.returnsRows q = true) (supported : supportsLimit q.toUpper = true)
      (unmentioned : q.toUpper.contains "LIMIT".toList = false) (outside : EndsOutside q)
  | appended (supported : supportsLimit q.toUpper = true) (unmentioned : q.toUpper.contains "LIMIT".toList = false)
      (spared : D.modifies (q ++ " LIMIT 0".toList) = false)
  | unchanged (bare : supportsLimit q.toUpper = false ∨ q.toUpper.contains "LIMIT".toList = true)
      (spared : D.modifies q = false)

theorem probed_iff : Probed D (trimSemicolons text) ↔ D.modifies (withLimit text) = false := by
  constructor
  · intro probed
    cases probed with
    | restricted returnsRows supported unmentioned outside =>
      rw [withLimit_of_limitable supported unmentioned]
      exact D.modifies_limited _ _ returnsRows ((restricts_iff _).mpr outside)
    | appended supported unmentioned spared =>
      rw [withLimit_of_limitable supported unmentioned]
      exact spared
    | unchanged bare spared =>
      rw [withLimit_of_bare bare]
      exact spared
  · intro spared
    by_cases bare : limitable text = false ∨ mentionsLimit text = true
    · rw [withLimit_of_bare bare] at spared
      exact .unchanged bare spared
    · rw [not_or, Bool.not_eq_false, Bool.not_eq_true] at bare
      rw [withLimit_of_limitable bare.1 bare.2] at spared
      exact .appended bare.1 bare.2 spared

section
variable (D : Judge)

def SafeCursor (c : ClientConn) (name : Text) : Prop :=
  ∀ cursor, c.cursors name = some cursor → cursor.rows = none → D.modifies cursor.query = false

def SafeProbe (c : ClientConn) (decodes : Bool) (ps : PreparedStmt) : Prop :=
  match ps.cursorOp with
  | some (.fetch name _) => SafeCursor D c name
  | some _ => True
  | none => queryReturnsResults ps.query = true → isDMLReturning ps.query = false → isWithDML ps.query = false →
      decodes = true → Probed D (trimSemicolons ps.convertedQuery)

def SafeDescribe (e : Setting) (c : ClientConn) : Option (Char × Text) → Prop
  | none => True
  | some (descType, name) =>
    if descType = 'S' then ∀ ps, c.stmts name = some ps → SafeProbe D c true ps
    else if descType = 'P' then match c.portals name with
      | none => SafeCursor D c name
      | some p => SafeProbe D c (decodeParams e p).isOk p.stmt
    else True

def Safe (e : Setting) (c : ClientConn) : Frontend → Prop
  | .parse (.read body) => ∀ text, validation e body = some text → D.modifies text = false
  | .describe body => SafeDescribe D e c body
  | .execute (some (portalName, _)) => ∀ p args, c.portals portalName = some p → executedArgs e p = some args →
      SafeStatement D e c p.stmt
  | _ => True

def Respects (e : Setting) (c : ClientConn) : Frontend → ClientConn → Prop
  | .parse _, d => Spares D c d
  | .bind .., d => Spares D c d
  | .describe _, d => Spares D c d
  | .execute request, d => Settles D e (commands e c request) c d
  | _, _ => True

end

variable {name : Text} {ps : PreparedStmt} {p : Portal} {m : Backend}

theorem safeCursor_iff : SafeCursor D c name ↔ ∀ text, cursorText c name = some text → D.modifies text = false := by
  unfold SafeCursor cursorText
  cases c.cursors name with
  | none => simp
  | some cursor =>
    cases ho : cursor.rows with
    | none | some => simp [ho]

theorem describeVerdict_eq_probe {query} : describeVerdict query = .probe ↔
    queryReturnsResults query = true ∧ isDMLReturning query = false ∧ isWithDML query = false := by
  unfold describeVerdict
  cases queryReturnsResults query <;> cases isDMLReturning query <;> cases isWithDML query <;> simp

theorem safeProbe_iff {decodes} :
    SafeProbe D c decodes ps ↔ ∀ text, stmtText c decodes ps = some text → D.modifies text = false := by
  unfold SafeProbe stmtText
  cases ps.cursorOp with
  | some op =>
    cases op with
    | fetch => exact safeCursor_iff
    | _ => simp
  | none =>
    rw [probed_iff]
    have probes : describeVerdict ps.query = .probe ↔ _ := describeVerdict_eq_probe
    cases verdict : describeVerdict ps.query with
    | probe =>
      obtain ⟨returns, noReturning, noWith⟩ := probes.mp verdict
      cases decodes <;> simp [returns, noReturning, noWith]
    | _ =>
      have other : ¬(queryReturnsResults ps.query = true ∧ isDMLReturning ps.query = false ∧
        isWithDML ps.query = false) :=
        fun isProbe => by cases verdict.symm.trans (probes.mpr isProbe)
      simp only [reduceCtorEq, false_implies, implies_true, iff_true]
      exact fun returns noReturning noWith _ => absurd ⟨returns, noReturning, noWith⟩ other

variable {body : Option (Char × Text)}

theorem safeDescribe_iff :
    SafeDescribe D e c body ↔ ∀ text, describedText e c body = some text → D.modifies text = false := by
  cases body with
  | none => simp [SafeDescribe, describedText]
  | some body =>
    obtain ⟨descType, name⟩ := body
    unfold SafeDescribe describedText
    dsimp only
    split
    · cases c.stmts name with
      | none => simp
      | some ps => simpa using safeProbe_iff
    split
    · cases c.portals name with
      | none => exact safeCursor_iff
      | some p => exact safeProbe_iff
    · simp

theorem executedArgs_eq_some (executed : executedArgs e p = some args) :
    p.stmt.cursorOp = none ∧ isEmptyQuery p.stmt.query.trimSpace = false ∧ p.stmt.isIgnoredSet = false ∧
      p.stmt.isNoOp = false ∧ decodeParams e p = .ok args := by
  unfold executedArgs at executed
  split at executed
  · rename_i runs
    cases decoded : decodeParams e p with
    | error => simp [decoded, Except.toOption] at executed
    | ok => simp_all [Except.toOption]
  · cases executed

theorem executeStmt_safe {maxRows} (executed : executedArgs e p = some args)
    (settles : wp (executeStmt e p args maxRows) (fun _ => Settles D e (portalCommands e c p) c) c) :
    SafeStatement D e c p.stmt := by
  obtain ⟨notOp, _, notIgnored, notNoOp, _⟩ := executedArgs_eq_some executed
  simp only [executeStmt, portalCommands, notOp, executed, notIgnored, notNoOp] at settles
  cases isSingle : p.stmt.statements.isEmpty with
  | false =>
    have several : p.stmt.statements ≠ [] := by simpa using isSingle
    simp only [isSingle] at settles
    constructor
    case cleanup => exact fun _ => executeMultiStatementExtended_safe several settles
    all_goals exact fun single => absurd single several
  | true =>
    have single : p.stmt.statements = [] := by simpa using isSingle
    simp only [isSingle, Bool.not_true, Bool.false_eq_true, if_false] at settles
    have command (silent : queryReturnsResults p.stmt.query = false) := by
      simp only [silent, Bool.not_false, if_true, wp_bind, wp_pure] at settles
      exact execStatement_safe settles
    constructor
    case cleanup => exact fun several => absurd single several
    case nested => exact fun _ silent => (command silent).1
    case views => exact fun _ silent => (command silent).2

theorem handleExecute_safe {portalName maxRows} (settles : wp (handleExecute e (some (portalName, maxRows)))
      (fun _ => Settles D e (commands e c (some (portalName, maxRows))) c) c)
    (hf : c.portals portalName = some p) (executed : executedArgs e p = some args) : SafeStatement D e c p.stmt := by
  obtain ⟨notOp, hn, _, _, decoded⟩ := executedArgs_eq_some executed
  simp only [handleExecute, commands, wp_bind, wp_get, hf, notOp, hn, decoded, Bool.false_eq_true, if_false,
    Option.elim_some] at settles
  exact executeStmt_safe executed settles

theorem respects_iff {m : Frontend} : wp (serve e m) (fun _ => Respects D e c m) c ↔ Safe D e c m := by
  have anything {x : Handler Unit} : wp x (fun _ _ => True) c ↔ True := iff_true_intro (wp_iff.mpr fun _ _ _ => trivial)
  cases m with
  | parse body =>
    cases body with
    | short => exact (spares_iff_of_gives (gives_send c)).trans (by simp [Safe])
    | negative => exact (spares_iff_of_gives (gives_close c)).trans (by simp [Safe])
    | read => exact (spares_iff_of_gives handleParse_gives).trans (by simp [Safe])
  | bind => exact (spares_iff_of_gives (gives_handleBind c)).trans (by simp [Safe])
  | describe =>
    refine (spares_iff_of_gives handleDescribe_gives).trans ?_
    rw [Safe, safeDescribe_iff]
    simp
  | execute request =>
    constructor
    · intro settles
      cases request with
      | none => trivial
      | some request => exact fun p args => handleExecute_safe settles
    · intro safe
      refine handleExecute_settles fun portalName maxRows p args isRequest hf executed => ?_
      subst isRequest
      exact safe p args hf executed
  | _ => exact anything

/-! ## Parse, Bind, Describe, Execute -/

theorem handleParse_stores {body} : wp (handleParse e (.read body))
    (fun _ d => Fails c d ∨ ∃ ps, d.stmts body.stmtName = some ps ∧ ps.query = body.query) c := by
  have stores (stmt : PreparedStmt) (d : ClientConn) (isQuery : stmt.query = body.query) :
      wp (prepare body.stmtName stmt)
        (fun _ d => Fails c d ∨ ∃ ps, d.stmts body.stmtName = some ps ∧ ps.query = body.query) d := by
    unfold prepare setStmt send
    simp only [wp_bind, wp_modify]
    exact .inr ⟨_, update_self .., isQuery⟩
  have fails {d : ClientConn} {code : String} {message : Text} (moving : Moving c d) : wp (sendError code message)
      (fun _ d => Fails c d ∨ ∃ ps, d.stmts body.stmtName = some ps ∧ ps.query = body.query) d :=
    wp_imp sendError_fails fun _ _ fails => .inl (fails.after moving)
  have here : Moving c c := Std.Refl.refl c
  rw [handleParse_eq]
  cases cursorNode e body.query with
  | declareCursor | closePortal => exact stores _ c rfl
  | fetch =>
    unfold parseNode
    dsimp only
    split
    · exact fails here
    · exact stores _ c rfl
  | other =>
    unfold parseNode parseStatement
    dsimp only
    split
    · unfold prepareIntercepted
      split <;> exact stores _ c rfl
    · split
      · exact stores _ c rfl
      · split
        · exact fails here
        · rename_i result _
          unfold parseTranspiled
          split
          · exact fails here
          have validates : wp (validated result body.query) (fun _ => Calls c) c := calls_validated calls_kept (.refl c)
          exact wp_seq validates (of_result (fun _ _ made => fails made.moving) fun _ d _ => stores _ d rfl)

def Binds (c d : ClientConn) : Prop := ∀ name p, c.portals name = some p →
  ∃ q, d.portals name = some q ∧ q.stmt = p.stmt ∧ q.paramValues = p.paramValues

def SamePortals (c d : ClientConn) : Prop := d.portals = c.portals

instance : Std.Refl SamePortals := ⟨fun _ => rfl⟩

instance : IsTrans ClientConn SamePortals := ⟨fun _ _ _ first second => Eq.trans second first⟩

theorem SamePortals.binds (hs : SamePortals c d) : Binds c d := fun _ p hf => ⟨p, hs ▸ hf, rfl, rfl⟩

theorem samePortals_send : Leads SamePortals (send m) := .update fun _ => rfl

theorem send_binds (hs : SamePortals c d) : wp (send m) (fun _ => Binds c) d :=
  wp_imp (samePortals_send d) fun _ _ sent => SamePortals.binds (IsTrans.trans _ _ _ hs sent)

theorem samePortals_query : Leads SamePortals (query text args) := .seq (leads_call fun _ _ => rfl) fun _ => .ret

theorem samePortals_getCursorSchema : Leads SamePortals (getCursorSchema e name) := by
  refine .seq .read fun c => ?_
  split
  · exact .ret
  refine .seq ?_ fun _ => .ret
  unfold openCursor
  split
  · exact .ret
  refine .seq samePortals_query (of_result (fun _ => .ret) fun _ => ?_)
  dsimp only
  split
  · exact .ret
  · exact .seq (.update fun _ => rfl) fun _ => .ret

section
variable {formats : List Int} {mark : Handler Unit} (marks : ∀ d, SamePortals c d → wp mark (fun _ => Binds c) d)
include marks

theorem rowDescription_binds (hs : SamePortals c d) : wp (do send m; mark) (fun _ => Binds c) d :=
  wp_seq (samePortals_send d) fun _ _ sent => marks _ (IsTrans.trans _ _ _ hs sent)

theorem probeColumns_binds (hs : SamePortals c d) : wp (probeColumns text args formats mark) (fun _ => Binds c) d := by
  refine wp_seq (samePortals_query d) fun result final queried => ?_
  have hs : SamePortals c final := IsTrans.trans _ _ _ hs queried
  cases result with
  | error => exact send_binds hs
  | ok =>
    dsimp only
    split
    · exact send_binds hs
    · unfold close
      rw [wp_modify]
      exact SamePortals.binds hs
    · exact rowDescription_binds marks hs

theorem describeOp_binds {op} (hs : SamePortals c d) : wp (describeOp e formats mark op) (fun _ => Binds c) d := by
  cases op with
  | declare | close => exact send_binds hs
  | pgCursorsQuery | pgStatActivity => exact rowDescription_binds marks hs
  | fetch =>
    refine wp_seq (samePortals_getCursorSchema d) fun schema final read => ?_
    have hs : SamePortals c final := IsTrans.trans _ _ _ hs read
    cases schema with
    | error => exact send_binds hs
    | ok schema =>
      obtain ⟨cols, colTypes⟩ := schema
      cases cols with
      | nil => exact send_binds hs
      | cons col cols => exact rowDescription_binds marks hs

end

theorem setDescribed_binds (binds : Binds c d) : wp (setDescribed ps) (fun _ => Binds c) d := by
  unfold setDescribed
  rw [wp_modify]
  exact binds

theorem setPortalDescribed_binds (hf : c.portals name = some p) (binds : Binds c d) :
    wp (setPortalDescribed name p) (fun _ => Binds c) d := by
  unfold setPortalDescribed setPortal
  rw [wp_modify]
  intro other q foundToo
  by_cases hs : other = name
  · subst hs
    cases hf.symm.trans foundToo
    exact ⟨_, update_self .., rfl, rfl⟩
  · obtain ⟨r, isThere, alike⟩ := binds other q foundToo
    exact ⟨r, (update_of_ne hs ..).trans isThere, alike⟩

theorem describeStmt_binds : wp (describeStmt e ps) (fun _ => Binds c) c := by
  have marks (d : ClientConn) (hs : SamePortals c d) : wp (setDescribed ps) (fun _ => Binds c) d :=
    setDescribed_binds hs.binds
  refine wp_seq (samePortals_send c) fun _ d hs => ?_
  split
  · exact describeOp_binds marks hs
  · split
    · exact send_binds hs
    · exact send_binds hs
    · exact probeColumns_binds marks hs

theorem describePortal_binds (hf : c.portals name = some p) : wp (describePortal e name p) (fun _ => Binds c) c := by
  have marks (d : ClientConn) (hs : SamePortals c d) : wp (setPortalDescribed name p) (fun _ => Binds c) d :=
    setPortalDescribed_binds hf hs.binds
  unfold describePortal
  split
  · exact describeOp_binds marks rfl
  split
  · exact send_binds rfl
  · exact send_binds rfl
  · split
    · exact send_binds rfl
    · refine probeColumns_binds (fun d hs => ?_) rfl
      exact wp_seq (marks d hs) fun _ _ => setDescribed_binds

theorem describeCursor_binds : wp (describeCursor e name) (fun _ => Binds c) c := by
  unfold describeCursor
  simp only [wp_bind, wp_get]
  split
  · exact send_binds rfl
  · refine wp_seq (samePortals_getCursorSchema c) fun schema d hs => ?_
    cases schema with
    | error | ok => exact send_binds hs

theorem handleDescribe_binds : wp (handleDescribe e body) (fun _ => Binds c) c := by
  cases body with
  | none => exact send_binds rfl
  | some body =>
    unfold handleDescribe
    dsimp only
    split
    · simp only [wp_bind, wp_get]
      split
      · exact send_binds rfl
      · exact describeStmt_binds
    · split
      · simp only [wp_bind, wp_get]
        split
        · exact describeCursor_binds
        · rename_i hf
          exact describePortal_binds hf
      · exact send_binds rfl

theorem handleBind_binds {portalName stmtName bound}
    (hf : c.stmts stmtName = some ps) : wp (handleBind e (some (portalName, stmtName)) (.read bound))
      (fun _ d => ∃ p, d.portals portalName = some p ∧ p.stmt = ps ∧ p.paramValues = bound.paramValues) c := by
  unfold handleBind setPortal send
  simp only [wp_bind, wp_get, hf, wp_modify]
  exact ⟨_, update_self .., rfl, rfl⟩

structure Sequence (e : Setting) (body : ParseBody) (portalName : Text) (bound : BindBody)
    (parse bind describe execute : Served) : Prop where
  run : IsRun e parse.before [parse, bind, describe, execute]
  parses : parse.message = .parse (.read body)
  binds : bind.message = .bind (some (portalName, body.stmtName)) (.read bound)
  describes : ∃ described, describe.message = .describe described
  executes : ∃ maxRows, execute.message = .execute (some (portalName, maxRows))
  answered : ∀ step ∈ [parse, bind, execute], (answers step).any isError = false

variable {calls : List Occurrence}

section
variable {body : ParseBody} {portalName : Text} {bound : BindBody} {parse bind describe execute step : Served}

theorem Moves.of_reading {out} (hv : Moves out calls step.reading d) : Moves out calls step.before d :=
  ⟨hv.sent, hv.log, hv.inTxn⟩

theorem no_error_of_answers {out} (hv : Moves out calls step.reading step.after)
    (answered : (answers step).any isError = false) : out.any isError = false := by
  have hs : answers step = out := by
    rw [answers, hv.sent]
    exact drop_left
  rwa [hs] at answered

theorem Sequence.portal (sequence : Sequence e body portalName bound parse bind describe execute) :
    ∃ p, execute.before.portals portalName = some p ∧ p.stmt.query = body.query ∧
      p.paramValues = bound.paramValues := by
  obtain ⟨⟨_, ⟨_, _, parsed⟩, isNext, ⟨_, _, boundEnds⟩, isThird, ⟨_, _, describeEnds⟩, isLast, _⟩,
    parses, binds, ⟨described, describes⟩, _, answered⟩ := sequence
  rw [parses] at parsed
  rw [binds] at boundEnds
  rw [describes] at describeEnds
  rcases wp_iff.mp handleParse_stores _ _ parsed with ⟨out, calls, hv, hfa⟩ | ⟨ps, stored, isQuery⟩
  · cases hfa.symm.trans (no_error_of_answers hv (answered parse mem_cons_self))
  have stored : bind.reading.stmts body.stmtName = some ps := by
    rw [← stored, ← isNext]
    rfl
  obtain ⟨p, hf, rfl, values⟩ := wp_iff.mp (handleBind_binds stored) _ _ boundEnds
  have hf : describe.reading.portals portalName = some p := by
    rw [← hf, ← isThird]
    rfl
  obtain ⟨q, foundToo, isStmt, isValues⟩ := wp_iff.mp handleDescribe_binds _ _ describeEnds portalName p hf
  exact ⟨q, isLast ▸ foundToo, isStmt ▸ isQuery, isValues.trans values⟩

end

theorem applied_of_harmless (spared : ∀ o ∈ calls, harmless D o.call = true) : applied D calls = [] := by
  refine modifying_eq_nil fun cmd hm => ?_
  obtain ⟨⟨call, answer⟩, isCall, isCompleted⟩ := mem_filterMap.mp hm
  have spared := spared _ isCall
  cases call with
  | exec | query =>
    simp only [completed, Option.ite_none_right_eq_some, Option.some.injEq] at isCompleted
    rw [← isCompleted.2]
    simpa [harmless] using spared
  | _ => cases isCompleted

theorem statement_applied_once (D : Judge) (e : Setting) :
    (∀ c m, (∀ d, (serve e m).Ends c () d → Respects D e c m d) ↔ Safe D e c m) ∧
    ∀ body portalName bound parse bind describe execute,
      Sequence e body portalName bound parse bind describe execute →
      (∀ step ∈ [parse, bind, describe, execute], Safe D e step.reading step.message) →
      ∃ p, execute.before.portals portalName = some p ∧ p.stmt.query = body.query ∧ p.paramValues = bound.paramValues ∧
        Applies D e (portalCommands e execute.before p) (callsIn parse.before execute.after) := by
  constructor
  · intro c m
    rw [← respects_iff, wp_iff]
    exact ⟨fun respects _ => respects, fun respects => respects ()⟩
  · intro body portalName bound parse bind describe execute sequence safe
    obtain ⟨p, hf, isQuery, values⟩ := sequence.portal
    refine ⟨p, hf, isQuery, values, ?_⟩
    have respects (step : Served) (hm : step ∈ [parse, bind, describe, execute]) (occurs : step.Occurs e) :
        Respects D e step.reading step.message step.after :=
      wp_iff.mp (respects_iff.mpr (safe step hm)) _ _ occurs.2.2
    obtain ⟨⟨_, parsed, isNext, boundStep, isThird, describedStep, isLast, executed, _⟩,
      parses, binds, ⟨described, describes⟩, ⟨maxRows, executes⟩, answered⟩ := sequence
    have first := respects parse (by simp) parsed
    have second := respects bind (by simp) boundStep
    have third := respects describe (by simp) describedStep
    have last := respects execute (by simp) executed
    rw [parses] at first
    rw [binds] at second
    rw [describes] at third
    rw [executes] at last
    obtain ⟨outFirst, callsFirst, movesFirst, sparedFirst⟩ := first
    obtain ⟨outSecond, callsSecond, movesSecond, sparedSecond⟩ := second
    obtain ⟨outThird, callsThird, movesThird, sparedThird⟩ := third
    obtain ⟨outLast, callsLast, movesLast, applies⟩ := last
    have plain := no_error_of_answers movesLast (answered execute (by simp))
    have movesSecond := isNext ▸ movesSecond.of_reading
    have movesThird := isThird ▸ movesThird.of_reading
    have movesLast := isLast ▸ movesLast.of_reading
    have hv := movesFirst.of_reading.trans (movesSecond.trans (movesThird.trans movesLast))
    rw [callsIn_of_moves hv]
    unfold Applies
    rw [applied_append, applied_append, applied_append, applied_of_harmless sparedFirst,
      applied_of_harmless sparedSecond,
      applied_of_harmless sparedThird]
    have hs : commands e execute.reading (some (portalName, maxRows)) = portalCommands e execute.before p := by
      have hf : execute.reading.portals portalName = some p := hf
      simp only [commands, hf]
      rfl
    exact hs ▸ applies plain

def soleJudge (stmt : Text) (returns : Text → Bool) (nonempty : stmt.filter solid ≠ [])
    (noBlock : '/' ∉ stmt.filter solid) (noLine : '-' ∉ stmt.filter solid) (noLimit : 'M' ∉ stmt.filter solid)
    (other : "ROLLBACK".toList.filter solid ≠ stmt.filter solid) : Judge where
  modifies text := text.filter solid = stmt.filter solid
  returnsRows := returns
  modifies_trim text := by rw [filter_trimSemicolons]
  modifies_empty text isEmpty := by
    rw [decide_eq_false_iff_not]
    intro hs
    cases (isEmptyQuery_of_spaced hs nonempty noBlock noLine).symm.trans isEmpty
  modifies_limited query limited _ restricts := by
    rw [decide_eq_false_iff_not]
    intro hs
    exact noLimit (hs ▸ mem_filter.mpr ⟨mem_of_restricts restricts, rfl⟩)
  modifies_rollback := decide_eq_false other

def insertText : Text := "INSERT INTO t VALUES (1)".toList

def insertJudge : Judge :=
  soleJudge insertText (fun _ => false) (by decide) (by decide) (by decide) (by decide) (by decide)

def explainText : Text := "EXPLAIN ANALYZE INSERT INTO t VALUES (1)".toList

def explainJudge : Judge :=
  soleJudge explainText (·.filter solid = explainText.filter solid) (by decide) (by decide) (by decide)
    (by decide) (by decide)

def unnamed (text : Text) : List Frontend :=
  [.parse (.read ⟨[], text, []⟩), .bind (some ([], [])) (.read ⟨[], [], []⟩), .describe (some ('P', [])),
    .execute (some ([], 0))]

theorem statement_applied_once_insert : ∃ parse bind describe execute p,
    Sequence .bare ⟨[], insertText, []⟩ [] ⟨[], [], []⟩ parse bind describe execute ∧
    execute.before.portals [] = some p ∧ portalCommands .bare execute.before p = [(insertText, [])] ∧
    Applies insertJudge .bare [(insertText, [])] (callsIn parse.before execute.after) := by
  have run := isRun_cons (e := .bare) (c := .started (unnamed insertText)) rfl rfl .pure
    (isRun_cons rfl rfl .pure (isRun_cons rfl rfl .pure
      (isRun_cons rfl rfl (.call (⟨.ok 1, false⟩ : Answered Int) .pure) isRun_nil)))
  have sequence : Sequence .bare ⟨[], insertText, []⟩ [] ⟨[], [], []⟩ _ _ _ _ :=
    ⟨run, rfl, rfl, ⟨_, rfl⟩, ⟨_, rfl⟩, by decide⟩
  obtain ⟨p, hf, _, _, applies⟩ := (statement_applied_once insertJudge .bare).2 _ _ _ _ _ _ _ sequence (by
    intro step hm
    rcases List.mem_cons.mp hm with rfl | hm
    · exact nofun
    rcases List.mem_cons.mp hm with rfl | hm
    · trivial
    rcases List.mem_cons.mp hm with rfl | hm
    · nofun
    cases List.mem_singleton.mp hm
    intro p args hf executed
    cases hf
    constructor
    case cleanup => exact fun several => absurd rfl several
    case nested => exact fun _ _ nested => by cases nested.2
    case views => exact fun _ _ _ altered isForm => by rcases isForm with isForm | isForm <;> cases isForm)
  cases hf
  exact ⟨_, _, _, _, _, sequence, rfl, rfl, applies⟩

theorem described_applied_twice : ∃ parse bind describe execute,
    Sequence .bare ⟨[], explainText, []⟩ [] ⟨[], [], []⟩ parse bind describe execute ∧
    ¬Respects explainJudge .bare describe.reading describe.message describe.after ∧
    applied explainJudge (callsIn parse.before execute.after) = [(explainText, []), (explainText, [])] := by
  have run := isRun_cons (e := .bare) (c := .started (unnamed explainText)) rfl rfl .pure
    (isRun_cons rfl rfl .pure
      (isRun_cons rfl rfl (.call (⟨.ok noRows, false⟩ : Answered RowSet) .pure)
        (isRun_cons rfl rfl (.call (⟨.ok noRows, false⟩ : Answered RowSet) .pure) isRun_nil)))
  refine ⟨_, _, _, _, ⟨run, rfl, rfl, ⟨_, rfl⟩, ⟨_, rfl⟩, by decide⟩, ?_, rfl⟩
  intro ⟨out, calls, hv, spared⟩
  have made : calls = [⟨.query explainText [], (⟨.ok noRows, false⟩ : Answered RowSet)⟩] :=
    List.append_cancel_left (hv.log.symm.trans rfl)
  have harmless := spared _ (made ▸ List.mem_singleton_self _)
  revert harmless
  decide

end Duckgres.Proof.Conn
