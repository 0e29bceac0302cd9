import Duckgres.Proof.Conn.Prepared
import Duckgres.Proof.Execution.Inference

namespace Duckgres.Proof.Conn
open Base Base.Stateful Duckgres.Conn Duckgres.Execution Duckgres.Proof.Execution

variable {e : Setting} {c d final : ClientConn} {out : List Backend} {calls : List Occurrence} {texts : List Text}

def statement : Call → Option Text
  | .exec text _ => some text
  | .query text _ => some text
  | _ => none

def Gives (texts : List Text) (c d : ClientConn) : Prop := ∃ out calls, Moves out calls c d ∧
  calls.map (fun o => statement o.call) = texts.map some

theorem Gives.trans {more} (first : Gives texts c d) (second : Gives more d final) : Gives (texts ++ more) c final := by
  obtain ⟨out, calls, hv, given⟩ := first
  obtain ⟨outMore, callsMore, hvm, givenMore⟩ := second
  refine ⟨_, _, hv.trans hvm, ?_⟩
  rw [List.map_append, List.map_append, given, givenMore]

theorem gives_message (m : Backend) (c : ClientConn) : Gives [] c { c with sent := c.sent ++ [m] } :=
  ⟨[m], [], .told rfl rfl rfl, rfl⟩

instance : Messages (Gives []) where
  refl c := ⟨[], [], .refl c, rfl⟩
  trans _ _ _ first second := first.trans second
  message m c _ := gives_message m c
  silent _ _ sent log inTxn _ := ⟨[], [], .called sent (log.trans (List.append_nil _).symm) inTxn, rfl⟩

theorem gives_send {m} : Leads (Gives []) (send m) := .update (gives_message m)

theorem gives_close : Leads (Gives []) close := leads_close

theorem gives_then {α : Type} {x : Handler α} (first : Gives texts c d) (rest : Leads (Gives []) x) :
    wp x (fun _ => Gives texts c) d := by
  refine wp_imp (rest d) fun _ final second => ?_
  simpa using first.trans second

variable {text name : Text} {args : List Value} {ps : PreparedStmt}

theorem gives_note {call answer} (isStatement : statement call = some text) :
    Gives [text] c (ClientConn.note call answer c) :=
  ⟨[], [⟨call, answer⟩], .called rfl rfl rfl, by simp [isStatement]⟩

theorem exec_gives : wp (exec text args) (fun _ => Gives [text] c) c := by
  unfold exec perform
  simp only [wp_bind, wp_call, wp_pure]
  exact fun answer => gives_note rfl

theorem query_gives : wp (query text args) (fun _ => Gives [text] c) c := by
  unfold query perform
  simp only [wp_bind, wp_call, wp_pure]
  exact fun answer => gives_note rfl

def asksDuckDB (query : Text) : Bool :=
  !isDuckDBUtilityCommand query && !hasAt (stripLeadingComments query).trimSpace.toUpper 0 "EXPLAIN" &&
    !hasParameterPlaceholders query

def validation (e : Setting) (body : ParseBody) : Option Text :=
  match cursorNode e body.query, interceptedOp e body.query, e.passthrough, e.transpile true body.query with
  | .other, none, false, .ok result =>
    if result.error.isNone && result.fallbackToNative && asksDuckDB body.query then
      some ("EXPLAIN ".toList ++ body.query)
    else none
  | _, _, _, _ => none

theorem validateWithDuckDB_gives : wp (validateWithDuckDB text)
    (fun _ => Gives (if asksDuckDB text then ["EXPLAIN ".toList ++ text] else []) c) c := by
  unfold validateWithDuckDB asksDuckDB
  split
  · rename_i utility
    exact .ret (by simpa [utility] using Std.Refl.refl c)
  rename_i noUtility
  split
  · rename_i explains
    exact .ret (by simpa [explains] using Std.Refl.refl c)
  rename_i noExplain
  split
  · rename_i holes
    exact .ret (by simpa [holes] using Std.Refl.refl c)
  rename_i noHoles
  rw [if_pos (by simp [noUtility, noExplain, noHoles])]
  refine wp_seq exec_gives fun result d given => ?_
  cases result with
  | error | ok => exact .ret given

theorem gives_prepare {stmt} : Leads (Gives []) (prepare name stmt) := leads_prepare

theorem parseStatement_gives {body} (isOther : cursorNode e body.query = .other) :
    wp (parseStatement e body) (fun _ => Gives (validation e body).toList c) c := by
  unfold parseStatement validation
  rw [isOther]
  cases intercepted : interceptedOp e body.query with
  | some op =>
    dsimp only
    unfold prepareIntercepted
    split <;> exact gives_prepare c
  | none =>
    cases direct : e.passthrough with
    | true => exact gives_prepare c
    | false =>
      cases transpiled : e.transpile true body.query with
      | error => exact gives_send c
      | ok result =>
        dsimp only
        unfold parseTranspiled
        cases hfa : result.error with
        | some err => exact gives_send c
        | none =>
          cases native : result.fallbackToNative with
          | false => exact gives_prepare c
          | true =>
            refine wp_seq validateWithDuckDB_gives fun verdict d given => ?_
            have given : Gives (if asksDuckDB body.query then some ("EXPLAIN ".toList ++ body.query)
                else none).toList c d := by
              split at given
              · rename_i asks
                simpa [asks] using given
              · rename_i silent
                simpa [silent] using given
            cases verdict with
            | error => exact gives_then given gives_send
            | ok => exact gives_then given gives_prepare

theorem handleParse_gives {body} : wp (handleParse e (.read body)) (fun _ => Gives (validation e body).toList c) c := by
  rw [handleParse_eq]
  cases node : cursorNode e body.query with
  | other => exact parseStatement_gives node
  | declareCursor | closePortal =>
    simp only [validation, node]
    exact gives_prepare c
  | fetch =>
    simp only [validation, node, parseNode]
    split
    · exact gives_send c
    · exact gives_prepare c

theorem gives_handleBind {names} {body} : Leads (Gives []) (handleBind e names body) := by
  cases names with
  | none => exact gives_send
  | some names =>
    refine .seq .read fun c => ?_
    split
    · exact gives_send
    cases body with
    | short => exact gives_send
    | negative => exact gives_close
    | read =>
      refine .seq .read fun _ => ?_
      exact .seq (leads_silent fun _ => ⟨rfl, rfl, rfl, rfl⟩) fun _ => gives_send

def cursorText (c : ClientConn) (name : Text) : Option Text :=
  (c.cursors name).bind fun cursor => if cursor.rows.isNone then some cursor.query else none

def stmtText (c : ClientConn) (decodes : Bool) (ps : PreparedStmt) : Option Text :=
  match ps.cursorOp, describeVerdict ps.query with
  | some (.fetch name _), _ => cursorText c name
  | none, .probe => if decodes then some (withLimit ps.convertedQuery) else none
  | _, _ => none

def describedText (e : Setting) (c : ClientConn) : Option (Char × Text) → Option Text
  | none => none
  | some (descType, name) =>
    if descType = 'S' then (c.stmts name).bind (stmtText c true)
    else if descType = 'P' then match c.portals name with
      | none => cursorText c name
      | some p => stmtText c (decodeParams e p).isOk p.stmt
    else none

theorem gives_setPortalDescribed {p} : Leads (Gives []) (setPortalDescribed name p) :=
  leads_silent fun _ => ⟨rfl, rfl, rfl, rfl⟩

theorem probeColumns_gives {formats mark} (marks : Leads (Gives []) mark) :
    wp (probeColumns text args formats mark) (fun _ => Gives [withLimit text] c) c := by
  refine wp_seq query_gives (of_result (fun _ _ given => gives_then given gives_send) fun _ _ given => ?_)
  dsimp only
  split
  · exact gives_then given gives_send
  · exact gives_then given gives_close
  · exact gives_then given (.seq gives_send fun _ => marks)

theorem openCursor_gives {cursor} :
    wp (openCursor name cursor) (fun _ => Gives (if cursor.rows.isNone then [cursor.query] else []) c) c := by
  unfold openCursor
  cases cursor.rows with
  | some rows => exact .ret (Std.Refl.refl (r := Gives []) c)
  | none =>
    refine wp_seq query_gives (of_result (fun _ _ given => .ret given) fun _ _ given => ?_)
    dsimp only
    split
    · exact .ret given
    · exact gives_then given (.seq (leads_silent fun _ => ⟨rfl, rfl, rfl, rfl⟩) fun _ => .ret)

theorem getCursorSchema_gives : wp (getCursorSchema e name) (fun _ => Gives (cursorText c name).toList c) c := by
  unfold getCursorSchema cursorText
  simp only [wp_bind, wp_get]
  cases c.cursors name with
  | none => exact .ret (Std.Refl.refl (r := Gives []) c)
  | some cursor =>
    refine wp_seq openCursor_gives fun ho d given => .ret ?_
    rw [Option.bind_some]
    split at given
    · rename_i closed
      rw [if_pos closed]
      exact given
    · rename_i isOpen
      rw [if_neg isOpen]
      exact given

theorem describeOp_gives {formats mark op decodes} (marks : Leads (Gives []) mark) (isOp : ps.cursorOp = some op) :
    wp (describeOp e formats mark op) (fun _ => Gives (stmtText c decodes ps).toList c) c := by
  unfold stmtText
  rw [isOp]
  cases op with
  | declare | close => exact gives_send c
  | pgCursorsQuery | pgStatActivity => exact Leads.seq gives_send (fun _ => marks) c
  | fetch =>
    refine wp_seq getCursorSchema_gives (of_result (fun _ _ given => gives_then given gives_send)
      fun schema _ given => ?_)
    obtain ⟨cols, colTypes⟩ := schema
    cases cols with
    | nil => exact gives_then given gives_send
    | cons col cols => exact gives_then given (.seq gives_send fun _ => marks)

theorem describeStmt_gives : wp (describeStmt e ps) (fun _ => Gives (stmtText c true ps).toList c) c := by
  unfold describeStmt
  rw [wp_bind, send, wp_modify]
  have sent : Gives [] c { c with sent := c.sent ++ [.parameterDescription (parameterDescription ps)] } :=
    ⟨_, [], .told rfl rfl rfl, rfl⟩
  cases op : ps.cursorOp with
  | some op' => exact wp_imp (describeOp_gives leads_setDescribed op) fun _ _ => sent.trans
  | none =>
    unfold stmtText
    rw [op]
    cases describeVerdict ps.query with
    | noData | refused => exact gives_then sent gives_send
    | probe => exact wp_imp (probeColumns_gives leads_setDescribed) fun _ _ => sent.trans

theorem describePortal_gives {p} :
    wp (describePortal e name p) (fun _ => Gives (stmtText c (decodeParams e p).isOk p.stmt).toList c) c := by
  unfold describePortal
  cases op : p.stmt.cursorOp with
  | some op' => exact describeOp_gives gives_setPortalDescribed op
  | none =>
    unfold stmtText
    rw [op]
    cases describeVerdict p.stmt.query with
    | noData | refused => exact gives_send c
    | probe =>
      cases decodeParams e p with
      | error => exact gives_send c
      | ok => exact probeColumns_gives (.seq gives_setPortalDescribed fun _ => leads_setDescribed)

theorem describeCursor_gives : wp (describeCursor e name) (fun _ => Gives (cursorText c name).toList c) c := by
  unfold describeCursor
  simp only [wp_bind, wp_get]
  cases hf : c.cursors name with
  | none =>
    simp only [cursorText, hf]
    exact gives_send c
  | some cursor =>
    refine wp_seq getCursorSchema_gives fun schema d given => ?_
    cases schema with
    | error | ok => exact gives_then given gives_send

theorem handleDescribe_gives {body} :
    wp (handleDescribe e body) (fun _ => Gives (describedText e c body).toList c) c := by
  cases body with
  | none => exact gives_send c
  | some body =>
    obtain ⟨descType, name⟩ := body
    unfold handleDescribe describedText
    dsimp only
    split
    · simp only [wp_bind, wp_get]
      cases c.stmts name with
      | none => exact gives_send c
      | some ps => exact describeStmt_gives
    · split
      · simp only [wp_bind, wp_get]
        cases c.portals name with
        | none => exact describeCursor_gives
        | some p => exact describePortal_gives
      · exact gives_send c

end Duckgres.Proof.Conn
