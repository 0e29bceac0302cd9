import Mathlib.Logic.Function.Basic
import Duckgres.Base.BigEndian
import Duckgres.Conn.Classify
import Duckgres.Conn.Types

/-!
# The bytes of messages

`ReadMessage`, `WriteMessage` and `ReadStartupMessage` (server/wire/protocol.go) on the bytes that are still to come.
-/

namespace Duckgres.Conn
open Base

inductive Outcome (α : Type) where
  | ok (a : α)
  | error
  | panic
  deriving DecidableEq

/-- `make([]byte, length-4)`: the difference is an `int32`. -/
def bodySize (length : Int) : Int := Int.bmod (length - 4) (2 ^ 32)

def readMessage : Bytes → Outcome ((UInt8 × Bytes) × Bytes)
  | [] => .error
  | msgType :: stream => match readInt 4 stream with
    | none => .error
    | some (length, stream) =>
      if bodySize length < 0 then .panic
      else
        let size := (bodySize length).toNat
        if length > 4 then
          if stream.length < size then .error else .ok ((msgType, stream.take size), stream.drop size)
        else .ok ((msgType, List.replicate size 0), stream)

def writeMessage (message : UInt8 × Bytes) : Bytes := message.1 :: bigEndian 4 (message.2.length + 4) ++ message.2

def readMessages : Nat → Bytes → Outcome (List (UInt8 × Bytes) × Bytes)
  | 0, stream => .ok ([], stream)
  | n + 1, stream => match readMessage stream with
    | .ok (message, stream) => match readMessages n stream with
      | .ok (messages, stream) => .ok (message :: messages, stream)
      | .error => .error
      | .panic => .panic
    | .error => .error
    | .panic => .panic

abbrev Params := Bytes → Option Bytes

def asciiBytes (s : Text) : Bytes := s.map Char.toUInt8

def setParam (name : String) (value : Text) (params : Params) : Params :=
  Function.update params (asciiBytes name.toList) (some (asciiBytes value))

def cstring : Bytes → Option (Bytes × Bytes)
  | [] => none
  | b :: data => if b = 0 then some ([], data) else (cstring data).map fun (s, rest) => (b :: s, rest)

/-- The loop over the parameters; `none` is a panic. -/
def paramLoop : Nat → Bytes → Params → Option Params
  | 0, _, params => some params
  | n + 1, data, params =>
    if 1 < data.length then match cstring data with
      | none => some params
      | some (key, data) => match cstring data with
        -- `valEnd > len(data)` is never true, and the slice after the value is out of range
        | none => none
        | some (value, data) => paramLoop n data (if key = [] then params else Function.update params key (some value))
    else some params

def startupParams (remaining : Bytes) : Option Params :=
  if remaining.length < 4 then none
  else
    let protocolVersion := ofBigEndian (remaining.take 4)
    let none : Params := fun _ => none
    if protocolVersion = 80877103 then some (setParam "__ssl_request" "true".toList none)
    else if protocolVersion = 80877104 then some (setParam "__gssenc_request" "true".toList none)
    else if protocolVersion = 80877102 then
      let cancel := setParam "__cancel_request" "true".toList none
      if 12 ≤ remaining.length then
        some (setParam "__cancel_secret_key" (decimal (ofBigEndian ((remaining.drop 8).take 4)))
          (setParam "__cancel_pid" (decimal (ofBigEndian ((remaining.drop 4).take 4))) cancel))
      else some cancel
    else paramLoop remaining.length (remaining.drop 4) none

def readStartupMessage (stream : Bytes) : Outcome (Params × Bytes) :=
  match readInt 4 stream with
  | none => .error
  | some (length, stream) =>
    if bodySize length < 0 then .panic
    else
      let size := (bodySize length).toNat
      if stream.length < size then .error
      else match startupParams (stream.take size) with
        | none => .panic
        | some params => .ok (params, stream.drop size)

end Duckgres.Conn
