import Duckgres.Base.Quoting
import Duckgres.Transpile.WritableCTE

namespace Duckgres.Proof.Transpile
open Base Duckgres.Transpile Duckgres.Execution List

variable {pg : PgQuery} {stmt : Node} {capitalSize : Char → Nat} {part s before head list : Text}

theorem beforeLast_none_iff (hn : part ≠ []) : beforeLast part s = none ↔ ¬ part <:+: Text.toUpper s := by
  induction s with
  | nil => simp [beforeLast, Text.toUpper, hn]
  | cons c s ih =>
    have infix_iff : part <:+: Text.toUpper (c :: s) ↔ part <+: Text.toUpper (c :: s) ∨ part <:+: Text.toUpper s :=
      infix_cons_iff
    rw [infix_iff, beforeLast]
    cases last : beforeLast part s with
    | none => simp [Text.hasPrefix, ih.mp last]
    | some before =>
      have hf : part <:+: Text.toUpper s := by
        by_contra gone
        cases last.symm.trans (ih.mpr gone)
      simp [hf]

theorem beforeLast_append (last : beforeLast part s = some before) :
    beforeLast part (head ++ s) = some (head ++ before) := by
  induction head with
  | nil => exact last
  | cons c head ih => simp [beforeLast, ih]

theorem length_utf8 : (utf8 s).length = s.size := by
  simp [utf8, Text.size]

/-- `list` begins another clause, in any letter case. -/
def ReturnsAgain (list : Text) : Prop := " RETURNING ".toList <:+: Text.toUpper ("RETURNING ".toList ++ list)

/-- The deparser writes the clause behind everything else. -/
structure Returning (pg : PgQuery) (stmt : Node) (head list : Text) : Prop where
  dml : isDml stmt = true
  returns : stmt.all .returningList ≠ []
  written : pg.deparse [stmt] = .ok (head ++ " RETURNING ".toList ++ list)
  without : pg.deparse [stmt.put .returningList []] = .ok head

theorem slice_utf8_iff {rest} {n : Nat} : slice (utf8 (head ++ rest)) n = some (utf8 head) ↔ n = head.size := by
  rw [utf8, flatMap_append, ← utf8, ← utf8, ← length_utf8, slice]
  constructor
  · intro cut
    split at cut
    · rename_i inside
      have lengths := congrArg List.length (Option.some.inj cut)
      rwa [length_take_of_le inside] at lengths
    · cases cut
  · rintro rfl
    simp

theorem beforeLast_clause : beforeLast " RETURNING ".toList (head ++ " RETURNING ".toList ++ list) =
    some (head ++ (beforeLast " RETURNING ".toList ("RETURNING ".toList ++ list)).elim [] (' ' :: ·)) := by
  rw [append_assoc]
  apply beforeLast_append
  show beforeLast " RETURNING ".toList (' ' :: ("RETURNING ".toList ++ list)) = _
  rw [beforeLast]
  cases beforeLast " RETURNING ".toList ("RETURNING ".toList ++ list) with
  | none => rfl
  | some before => rfl

theorem returning_stripped_iff (returning : Returning pg stmt head list) (positive : ∀ c, 0 < capitalSize c) :
    (¬ ReturnsAgain list → ((pg.deparse [stmt]).map (stripReturningBytes capitalSize) =
      (pg.deparse [stmt.put .returningList []]).map (some ∘ utf8) ↔ (head.map capitalSize).sum = head.size)) ∧
    ((head.map capitalSize).sum = head.size → ((pg.deparse [stmt]).map (stripReturningBytes capitalSize) =
      (pg.deparse [stmt.put .returningList []]).map (some ∘ utf8) ↔ ¬ ReturnsAgain list)) := by
  rw [returning.written, returning.without]
  simp only [Except.map, Except.ok.injEq, Function.comp_apply]
  rw [stripReturningBytes, beforeLast_clause, ReturnsAgain, ← beforeLast_none_iff (by decide)]
  simp only [List.append_assoc, slice_utf8_iff]
  constructor
  · intro alone
    rw [alone]
    simp
  · intro lengths
    cases beforeLast " RETURNING ".toList ("RETURNING ".toList ++ list) with
    | none => simpa using lengths
    | some before => simp [lengths, (positive ' ').ne']

def deparseValues (values : List Node) : Text := ", ".toList.intercalate <| values.map fun value =>
  if value.kind? = some .aConst then quoted '\'' ((value.all .sval).flatMap (textAt · .sval))
  else (value.all .fields).flatMap (textAt · .sval)

def insertDeparser : PgQuery where
  deparse stmts := .ok <| stmts.flatMap fun stmt =>
    "INSERT INTO ".toList ++ (stmt.all .relation).flatMap (textAt · .relname) ++ " VALUES (".toList ++
      deparseValues ((stmt.all .selectStmt).flatMap fun source => (source.all .valuesLists).flatMap (·.all .items)) ++
      ")".toList ++ match stmt.all .returningList with
        | [] => []
        | list => " RETURNING ".toList ++ deparseValues (list.flatMap (·.all .val))

def string (text : String) : Node := .node .string [(.sval, ofText text.toList)]

def literal (text : String) : Node := .node .aConst [(.sval, string text)]

def insertReturning (value : String) (list : List Node) : Node := .node .insertStmt <|
  [(.relation, .node .rangeVar [(.relname, ofText "t".toList)]),
    (.selectStmt, .node .selectStmt [(.valuesLists, .node .list [(.items, literal value)])])] ++
    list.map fun value => (.returningList, .node .resTarget [(.val, value)])

/-- `INSERT INTO t VALUES (' RETURNING ') RETURNING id, note` -/
theorem returning_stripped_id : (insertDeparser.deparse [insertReturning " RETURNING "
      [.node .columnRef [(.fields, string "id")], .node .columnRef [(.fields, string "note")]]]).map
      (stripReturningBytes Char.utf8Size) = .ok (some (utf8 "INSERT INTO t VALUES (' RETURNING ')".toList)) := by
  have returning : Returning insertDeparser (insertReturning " RETURNING "
      [.node .columnRef [(.fields, string "id")], .node .columnRef [(.fields, string "note")]])
      "INSERT INTO t VALUES (' RETURNING ')".toList "id, note".toList :=
        ⟨rfl, cons_ne_nil _ _, by decide +kernel, by decide +kernel⟩
  refine ((returning_stripped_iff returning Char.utf8Size_pos).2 rfl).mpr ?_
  rw [ReturnsAgain, ← beforeLast_none_iff (by decide)]
  decide

/-- `INSERT INTO t VALUES ('a') RETURNING ' RETURNING '` leaves an open quote. -/
theorem returning_literal_cut : ∃ pg stmt head list, Returning pg stmt head list ∧
    (pg.deparse [stmt]).map (stripReturningBytes Char.utf8Size) = .ok (some (utf8 (head ++ " RETURNING '".toList))) ∧
    (pg.deparse [stmt]).map (stripReturningBytes Char.utf8Size) ≠
      (pg.deparse [stmt.put .returningList []]).map (some ∘ utf8) := by
  refine ⟨insertDeparser, insertReturning "a" [literal " RETURNING "], "INSERT INTO t VALUES ('a')".toList,
    "' RETURNING '".toList, ⟨rfl, cons_ne_nil _ _, ?_, ?_⟩, ?_, ?_⟩
  all_goals decide +kernel

end Duckgres.Proof.Transpile
