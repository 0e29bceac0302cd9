import Mathlib.Data.List.Basic

/-!
# The tokens of a SQL text

The reading of a statement that the interpolated text is compared with. Bytes are read from left to
right, and a token that has begun either keeps a byte, closes with it, or ends before it.
-/

namespace Duckgres.Flight

abbrev Bytes := List UInt8

def ascii (text : String) : Bytes := text.toList.map Char.toUInt8

def isDigit (b : UInt8) : Bool := 48 ≤ b && b ≤ 57

def isLetter (b : UInt8) : Bool := 65 ≤ b && b ≤ 90 || 97 ≤ b && b ≤ 122 || b == 95 || 128 ≤ b

def isSpace (b : UInt8) : Bool := b == 32 || 9 ≤ b && b ≤ 13

def isEnd (b : UInt8) : Bool := !(isLetter b || isDigit b || b == 36 || b == 39 || b == 46)

inductive TokenKind where
  | gap | comment
  -- a punctuation byte that cannot begin a longer token
  | mark
  -- `-` or `/` outside a comment start
  | sign
  | word | number
  -- `$` and digits
  | param
  -- `$` alone or before a name
  | named
  | text | name | dollarText
  deriving DecidableEq

structure Token where
  kind : TokenKind
  bytes : Bytes
  deriving DecidableEq

inductive Mode where
  | word | number | param | dollar
  | dollarText (tag : Bytes)
  | text (escapes : Bool) | textBackslash | textQuote (escapes : Bool)
  | name | nameQuote
  | dash | lineComment
  | slash | blockComment (depth : Nat) (last : UInt8)
  deriving DecidableEq

def Mode.kind : Mode → TokenKind
  | .word => .word
  | .number => .number
  | .param => .param
  | .dollar => .named
  | .dollarText _ => .dollarText
  | .text _ | .textBackslash | .textQuote _ => .text
  | .name | .nameQuote => .name
  | .dash | .slash => .sign
  | .lineComment | .blockComment _ _ => .comment

inductive Action where
  | keep (mode : Mode)
  | close (kind : TokenKind)
  deriving DecidableEq

def start (b : UInt8) : Action :=
  if b = 39 then .keep (.text false)
  else if b = 34 then .keep .name
  else if b = 36 then .keep .dollar
  else if b = 45 then .keep .dash
  else if b = 47 then .keep .slash
  else if isDigit b then .keep .number
  else if isLetter b then .keep .word
  else if isSpace b then .close .gap
  else .close .mark

/-- A later byte of the token with these bytes; `none` leaves it to the next token. -/
def next (mode : Mode) (seen : Bytes) (b : UInt8) : Option Action :=
  match mode with
  | .word =>
    if isLetter b || isDigit b || b == 36 then some (.keep .word)
    -- E'…' is a string with backslash escapes
    else if b = 39 ∧ (seen = [69] ∨ seen = [101]) then some (.keep (.text true))
    else none
  | .number => if isLetter b || isDigit b || b == 46 then some (.keep .number) else none
  | .param => if isDigit b then some (.keep .param) else none
  | .dollar =>
    if b = 36 then some (.keep (.dollarText (seen ++ [b])))
    else if isDigit b then some (.keep (if seen.length = 1 then .param else .dollar))
    else if isLetter b then some (.keep .dollar)
    else none
  | .dollarText tag =>
    if 2 * tag.length ≤ seen.length + 1 ∧ tag.isSuffixOf (seen ++ [b]) then
      some (.close .dollarText)
    else some (.keep (.dollarText tag))
  | .text escapes =>
    if b = 39 then some (.keep (.textQuote escapes))
    else if escapes && b == 92 then some (.keep .textBackslash)
    else some (.keep (.text escapes))
  | .textBackslash => some (.keep (.text true))
  | .textQuote escapes => if b = 39 then some (.keep (.text escapes)) else none
  | .name => some (.keep (if b = 34 then .nameQuote else .name))
  | .nameQuote => if b = 34 then some (.keep .name) else none
  | .dash => if b = 45 then some (.keep .lineComment) else none
  | .lineComment => if b = 10 ∨ b = 13 then some (.close .comment) else some (.keep .lineComment)
  | .slash => if b = 42 then some (.keep (.blockComment 0 0)) else none
  | .blockComment depth last =>
    if last = 42 ∧ b = 47 then
      match depth with
      | 0 => some (.close .comment)
      | depth + 1 => some (.keep (.blockComment depth 0))
    else if last = 47 ∧ b = 42 then some (.keep (.blockComment (depth + 1) 0))
    else some (.keep (.blockComment depth b))

abbrev Pending := Option (Mode × Bytes)

def Action.enter (seen : Bytes) : Action → List Token × Pending
  | .keep mode => ([], some (mode, seen))
  | .close kind => ([⟨kind, seen⟩], none)

def finish : Pending → List Token
  | none => []
  | some (mode, seen) => [⟨mode.kind, seen⟩]

def advance (pending : Pending) (b : UInt8) : List Token × Pending :=
  match pending with
  | none => (start b).enter [b]
  | some (mode, seen) =>
    match next mode seen b with
    | some action => action.enter (seen ++ [b])
    | none => (⟨mode.kind, seen⟩ :: ((start b).enter [b]).1, ((start b).enter [b]).2)

def lexFrom : Pending → Bytes → List Token
  | pending, [] => finish pending
  | pending, b :: rest => (advance pending b).1 ++ lexFrom (advance pending b).2 rest

def lex (text : Bytes) : List Token := lexFrom none text

end Duckgres.Flight
