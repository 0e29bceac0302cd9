import Duckgres.Proof.Conn.Responses

namespace Duckgres.Proof.Conn
open Base Base.Stateful Duckgres.Conn List

section
variable (e : Setting) (opts : CopyFromOptions) (cols colTypes : List Text) (undecodable : Text → Bool) (reads : Reads)

end

variable {e : Setting} {opts : CopyFromOptions} {cols colTypes : List Text} {undecodable : Text → Bool} {reads : Reads}
  {c : ClientConn} {rows : List Row} {n start : Nat}

variable {d : ClientConn} (begun : d.sent = c.sent ++ [.copyInResponse cols.length true])
include begun

omit begun

/-- What a call may have stored. An appender that fails has stored some first rows, or none if the build has no
appender. -/
def StoredBy (linked : Bool) (o : Occurrence) (values : List Value) : Prop :=
  match o.call, o.answer with
  | .exec _ args, answer => match Answered.result answer with
    | .ok _ => values = args
    | .error _ => values = []
  | .appender _ rows, answer => match Answered.result answer with
    | .ok _ => linked = true ∧ values = rows.flatten
    | .error _ => ∃ part, part <+: rows ∧ (linked = false → part = []) ∧ values = part.flatten
  | _, _ => values = []

def Stored (linked : Bool) : List Occurrence → List Value → Prop
  | [], values => values = []
  | o :: calls, values => ∃ first rest, StoredBy linked o first ∧ Stored linked calls rest ∧ values = first ++ rest

def dueFor (rows : List Row) : Except Text Int → List Value
  | .ok _ => rows.flatten
  | .error _ => []

section
variable (linked : Bool) (rows : List Row) (c : ClientConn)

def Settled (result : Except Text Int) (final : ClientConn) : Prop :=
  ∀ calls values, final.log = c.log ++ calls → Stored linked calls values → values = dueFor rows result

end

variable {linked : Bool} {final : ClientConn} {result : Except Text Int} {calls : List Occurrence} {o : Occurrence}

theorem Settled.nothing {call answer values err}
    (hse : Settled linked rows d (.error err) final) (log : final.log = (d.note call answer).log ++ [o])
    (nothing : ∀ values, StoredBy linked o values ↔ values = []) (stored : StoredBy linked ⟨call, answer⟩ values) :
    values = [] := by
  have empty := hse [⟨call, answer⟩, o] (values ++ []) (by rw [log]; exact append_assoc ..)
    ⟨values, [], stored, ⟨[], [], (nothing []).mpr rfl, rfl, rfl⟩, rfl⟩
  rwa [append_nil] at empty

section
variable {tableName columnList : Text}

end

variable {chunks : List Bytes} {rest : List Frontend}

variable {oids : List Oid} {oid : Oid} {field : Option Bytes × Value} {i : Nat} {after : Bytes}

end Duckgres.Proof.Conn
