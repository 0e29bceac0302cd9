import Duckgres.Base.Replace
import Duckgres.Flight.Lexical
import Mathlib.Data.Nat.Digits.Defs

/-!
# Argument interpolation

`interpolateArgs` and `formatArgValue` (server/flightclient/flight_executor.go), and what the text
they return is for: the statement with its placeholders read as the bound values.
-/

namespace Duckgres.Flight
open Base

inductive Value where
  | null
  | string (val : Bytes)
  | bytes (val : Bytes)
  | bool (val : Bool)
  | int (val : Int)

/-- The cases of the type switch. The last three carry the text that Go's formatting gives. -/
inductive Arg where
  | value (v : Value)
  | time (formatted : Bytes)
  | float (formatted : Bytes)
  | other (formatted : Bytes)

def decimal (n : Nat) : Bytes := if n = 0 then [48] else (Nat.digits 10 n).reverse.map fun d => UInt8.ofNat (48 + d)

def decimalInt : Int → Bytes
  | .ofNat n => decimal n
  | .negSucc n => 45 :: decimal (n + 1)

def hexDigit (d : UInt8) : UInt8 := if d < 10 then 48 + d else 87 + d

def hexEncode (val : Bytes) : Bytes := val.flatMap fun b => [hexDigit (b / 16), hexDigit (b % 16)]

def escapeString (val : Bytes) : Bytes := replaceAll [39] [39, 39] (replaceAll [92] [92, 92] val)

def formatArgValue : Arg → Bytes
  | .value .null => ascii "NULL"
  | .value (.string val) => 39 :: escapeString val ++ [39]
  | .value (.bytes val) => ascii "'\\x" ++ hexEncode val ++ ascii "'::BLOB"
  | .value (.bool val) => if val then ascii "TRUE" else ascii "FALSE"
  | .value (.int val) => decimalInt val
  | .time formatted => 39 :: formatted ++ [39]
  | .float formatted => formatted
  | .other formatted => 39 :: escapeString formatted ++ [39]

def placeholder (i : Nat) : Bytes := 36 :: decimal i

def literalAt (args : List Arg) (i : Nat) : Bytes := formatArgValue (args.getD (i - 1) (.value .null))

def interpolateFrom (args : List Arg) : Nat → Bytes → Bytes
  | 0, query => query
  | i + 1, query => interpolateFrom args i (replaceAll (placeholder (i + 1)) (literalAt args (i + 1)) query)

variable (query : Bytes)

def interpolateArgs (args : List Arg) : Bytes := interpolateFrom args args.length query

def readDecimal (digits : Bytes) : Nat := digits.foldl (fun n b => 10 * n + (b.toNat - 48)) 0

def unquote : Bytes → Option Bytes
  | [] => none
  | [b] => if b = 39 then some [] else none
  | b :: c :: rest =>
    if b = 39 then
      if c = 39 then (unquote rest).map (39 :: ·) else none
    else (unquote (c :: rest)).map (b :: ·)

def hexValue (b : UInt8) : Option UInt8 :=
  if isDigit b then some (b - 48) else if 97 ≤ b ∧ b ≤ 102 then some (b - 87) else none

/-- The cast of a string to BLOB: one escape per byte, other ASCII bytes as they are. -/
def readBlob : Bytes → Option Bytes
  | [] => some []
  | 92 :: 120 :: high :: low :: rest => do
    let high ← hexValue high
    let low ← hexValue low
    let rest ← readBlob rest
    pure ((16 * high + low) :: rest)
  | b :: rest => if b = 92 ∨ 128 ≤ b then none else (readBlob rest).map (b :: ·)

def readLiteral (literal : Bytes) : Option Value :=
  match lex literal with
  | [⟨.word, w⟩] =>
    if w = ascii "NULL" then some .null
    else if w = ascii "TRUE" then some (.bool true)
    else if w = ascii "FALSE" then some (.bool false)
    else none
  | [⟨.number, digits⟩] => if digits.all isDigit then some (.int (readDecimal digits)) else none
  | [⟨.sign, [45]⟩, ⟨.number, digits⟩] => if digits.all isDigit then some (.int (-readDecimal digits)) else none
  | [⟨.text, 39 :: body⟩] => (unquote body).map .string
  | [⟨.text, 39 :: body⟩, ⟨.mark, [58]⟩, ⟨.mark, [58]⟩, ⟨.word, w⟩] =>
    if w = ascii "BLOB" then ((unquote body).bind readBlob).map .bytes else none
  | _ => none

def Token.slot? (n : Nat) (token : Token) : Option Nat :=
  let i := readDecimal token.bytes.tail
  if token.kind = .param ∧ token.bytes = placeholder i ∧ 0 < i ∧ i ≤ n then some i else none

def template (n : Nat) : List (Segment UInt8) :=
  (lex query).flatMap fun token =>
    match token.slot? n with
    | some i => [.slot i]
    | none => token.bytes.map (.fixed · n)

def substitute (args : List Arg) : Bytes := Coding.simultaneous (literalAt args) (template query args.length)

def Separated (args : List Arg) : Prop :=
  lex (substitute query args) = (lex query).flatMap fun token =>
    match token.slot? args.length with
    | some i => lex (literalAt args i)
    | none => [token]

structure Interpolated (query : Bytes) (values : List Value) : Prop where
  substituted : interpolateArgs query (values.map .value) = substitute query (values.map .value)
  readsBack : ∀ i, .slot i ∈ template query values.length →
    readLiteral (literalAt (values.map .value) i) = values[i - 1]?
  separated : Separated query (values.map .value)

def Undisturbed (args : List Arg) : Prop :=
  ∀ d, 0 < d → d ≤ args.length →
    (Coding.levelled (literalAt args) (template query args.length)).IsChain fun left right =>
      left.1 = 36 → d ≤ left.2 → d ≤ right.2 → decimal d ≠ [right.1]

def Value.Legible : Value → Prop
  | .string val => 92 ∉ val
  | .bytes val => val.length = 1
  | _ => True

def Legible (query : Bytes) (values : List Value) : Prop :=
  ∀ i, .slot i ∈ template query values.length → ∀ v ∈ values[i - 1]?, v.Legible

def Spaced (n : Nat) : Prop :=
  (template query n).IsChain fun left right =>
    ∀ i, left = .slot i → ∃ b level, right = .fixed b level ∧ b ≠ 36 ∧ ¬ isDigit b

/-- Placeholders stand after blanks, comments or plain punctuation and before a byte that ends any
literal. -/
def Delimited (n : Nat) : Prop :=
  (lex query).IsChain fun left right =>
    ((right.slot? n).isSome → left.kind = .gap ∨ left.kind = .comment ∨ left.kind = .mark) ∧
      ((left.slot? n).isSome → ∀ b ∈ right.bytes.head?, isEnd b)

-- Not by instance search: the bound variable is a byte, and the search may try all 256 of them.
instance (query : Bytes) (n : Nat) : Decidable (Delimited query n) :=
  decidable_of_iff ((lex query).IsChain fun left right =>
      ((right.slot? n).isSome → left.kind = .gap ∨ left.kind = .comment ∨ left.kind = .mark) ∧
        ((left.slot? n).isSome → right.bytes.head?.all isEnd))
    (by simp [Delimited, Option.all_eq_true, Option.mem_def])

end Duckgres.Flight
