import Duckgres.Base.Calls
import Duckgres.Base.Text

/-!
# The cache proxy

`HandleProxy` and `singleFlight.Do` (cmd/cache-proxy/proxy.go) for the cacheable GET requests of one cache key, over the
key's entry on disk, its call object in the flight map and all call objects made so far.
-/

namespace Duckgres.Proxy
open Base

abbrev Bytes := List UInt8

/-- Of a header that is not set the text is empty. -/
structure Response where
  status : Nat
  contentType : Text
  contentRange : Text
  body : Bytes

structure Request where
  rangeHeader : Text
  peers : Option Bytes
  origin : Except Bytes Response
  -- the error of `client.Do` once the request's context is cancelled
  cancelled : Bytes

inductive FetchError where
  | originStatus (resp : Response)
  | transport (err : Bytes)

def originErrorBodyCap : Nat := 2 ^ 20

def fetchOrigin (r : Request) (gone : Bool) : Except FetchError (Bytes × Text) :=
  if gone then .error (.transport r.cancelled) else
  match r.origin with
  | .error err => .error (.transport err)
  | .ok resp =>
    if 400 ≤ resp.status then .error (.originStatus { resp with body := resp.body.take originErrorBodyCap })
    else .ok (resp.body, resp.contentType)

/-- The function that `fetchDedup` hands to `Do`, with the content type it captures. -/
def fetch (r : Request) (gone : Bool) : Except FetchError (Bytes × Text) := match r.peers with
  | some peerData => .ok (peerData, [])
  | none => fetchOrigin r gone

def trimBytes (rangeHeader : Text) : Text := (rangeHeader.dropPrefix? "bytes=".toList).getD rangeHeader

def serveBody (data : Bytes) (rangeHeader contentType : Text) : Response :=
  if rangeHeader = [] then ⟨200, contentType, [], data⟩
  else ⟨206, contentType, "bytes ".toList ++ (trimBytes rangeHeader ++ '/' :: Nat.toDigits 10 data.length), data⟩

def serveError : FetchError → Response
  | .originStatus resp => resp
  | .transport err => ⟨502, "text/plain; charset=utf-8".toList, [], err ++ [10]⟩

inductive Phase where
  | looking | joining
  | fetching (flight : Nat)
  | leaving (result : Except FetchError (Bytes × Text))
  | waiting (flight : Nat)
  | putting (data : Bytes) (contentType : Text)
  | answered (resp : Response)

structure Handler where
  request : Request
  gone : Bool
  phase : Phase

structure CacheProxy where
  entry : Option Bytes
  flight : Option Nat
  flights : List (Option (Except FetchError Bytes))

inductive HandlerStep where
  | go | cancel
  | put (stored : Bool)

def fetched : Except FetchError (Bytes × Text) → Phase
  | .ok (data, contentType) => .putting data contentType
  | .error err => .answered (serveError err)

/-- A fetch for the requests that share it: the captured content type stays with the one that made it. -/
def shared (result : Except FetchError Bytes) : Except FetchError (Bytes × Text) := result.map fun data => (data, [])

namespace CacheProxy
variable (p : CacheProxy) (h : Handler)

def go : Option (CacheProxy × Phase) := match h.phase with
  | .looking => match p.entry with
    | some data => some (p, .answered (serveBody data h.request.rangeHeader []))
    | none => some (p, .joining)
  | .joining => match p.flight with
    | some flight => some (p, .waiting flight)
    | none =>
      some ({ p with flight := some p.flights.length, flights := p.flights ++ [none] }, .fetching p.flights.length)
  | .fetching flight =>
    let result := fetch h.request h.gone
    some ({ p with flights := p.flights.set flight (some (result.map Prod.fst)) }, .leaving result)
  | .leaving result => some ({ p with flight := none }, fetched result)
  | .waiting flight => match p.flights[flight]? with
    | some (some result) => some (p, fetched (shared result))
    | _ => none
  | _ => none

def handleProxy : HandlerStep → Option (CacheProxy × Handler)
  | .go => (p.go h).map fun (p, phase) => (p, { h with phase := phase })
  | .cancel => some (p, { h with gone := true })
  | .put stored => match h.phase with
    | .putting data contentType => some ({ p with entry := if stored then some data else p.entry },
      { h with phase := .answered (serveBody data h.request.rangeHeader contentType) })
    | _ => none

end CacheProxy

def proxyProgram : Program CacheProxy Handler HandlerStep Request where
  start request := ⟨request, false, .looking⟩
  step := CacheProxy.handleProxy

abbrev ProxyWorld := World CacheProxy Handler

abbrev ProxyStep := CallStep HandlerStep Request

end Duckgres.Proxy
