import Duckgres.Flight.DurableSessions

/-!
# Requests with one token

`GetByTokenContext`, `reconnectByToken` and `CloseByToken` (server/flightsqlingress/ingress.go) for one token on one
control plane, over the token's entry in the map, the durable records, whose operations succeed, and the worker rows.
-/

namespace Duckgres.Ingress
open Base Store Flight

structure TokenSession extends ClientSession where
  tokenIssuedAt : Nat

def TokenSession.isExpired (session : TokenSession) (tokenTTL now : Nat) : Bool :=
  session.expiresAt.any (fun expiresAt => unixEpoch < expiresAt && expiresAt < now) ||
    0 < tokenTTL && unixEpoch < session.tokenIssuedAt && tokenTTL ≤ now - session.tokenIssuedAt

/-- The token's entry in the map, and what is durable. -/
structure TokenStore where
  session : Option TokenSession
  durable : DurableState
  tokenTTL : Nat

inductive TokenPhase where
  -- `GetByTokenContext`, with the `CloseSession` of an expired session
  | looking | touching | expiring | obtained | refused
  -- `reconnectByToken`, up to the `UpsertSession` of `persistSession`
  | loading
  | connecting (record : FlightSessionRecord)
  | registering (session : ClientSession)
  | persisting (session : ClientSession)
  | upserting (record : FlightSessionRecord)
  | removing | closing
  | closed (found : Bool)
  -- whatever else happens to the tables
  | environment

def TokenPhase.ofDurable : DurablePhase → TokenPhase
  | .connecting record => .connecting record
  | .creating session => .registering session
  | .upserting record => .upserting record
  | .closing _ => .expiring
  | .returned true => .obtained
  | _ => .refused

inductive TokenStep where
  | go (now : Nat)
  -- `ReconnectSession` as far as the worker's row, if it comes to it
  | connect (image : String) (now : Nat) (reached : Bool)
  -- the session is created, or not
  | register (issuedAt : Option Nat)
  -- `DurableSessionMetadata`, which may no longer know the process ID
  | persist (known : Bool) (now : Nat)
  | other (step : DurableStep)

inductive TokenRequest where
  | getByToken | closeByToken | environment

def TokenRequest.first : TokenRequest → TokenPhase
  | .getByToken => .looking
  | .closeByToken => .removing
  | .environment => .environment

namespace TokenStore
variable (cp token : String) (s : TokenStore)

def onRecords (f : FlightSessions → FlightSessions) : TokenStore :=
  { s with durable := { s.durable with sessions := f s.durable.sessions } }

def next : TokenPhase → TokenStep → Option (TokenStore × TokenPhase)
  | .looking, .go now => match s.session with
    | none => some (s, .loading)
    | some session =>
      if session.isExpired s.tokenTTL now then some ({ s with session := none }, .expiring) else some (s, .touching)
  | .touching, .go now => some (s.onRecords (·.touchFlightSessionRecord token now), .obtained)
  | .expiring, .go now => some (s.onRecords (·.closeFlightSessionRecord token now), .refused)
  | .loading, .go now => some (s, .ofDurable (s.durable.load token now true))
  | .connecting record, .connect image now reached =>
    let (durable, phase) := s.durable.connect cp record image now reached
    some ({ s with durable := durable }, .ofDurable phase)
  | .registering session, .register (some issuedAt) =>
    some ({ s with session := some ⟨session, issuedAt⟩ }, .persisting session)
  | .registering _, .register none => some (s, .refused)
  | .persisting session, .persist true now => some (s, .ofDurable (s.durable.create cp session true now))
  | .persisting _, .persist false _ => some (s, .obtained)
  | .upserting record, .go _ => some (s.onRecords (·.upsertFlightSessionRecord record), .obtained)
  | .removing, .go _ => match s.session with
    | none => some (s, .closed false)
    | some _ => some ({ s with session := none }, .closing)
  | .closing, .go now => some (s.onRecords (·.closeFlightSessionRecord token now), .closed true)
  | .environment, .other step => do
    let (durable, _) ← s.durable.next cp .environment step
    return ({ s with durable := durable }, .environment)
  | _, _ => none

end TokenStore

def tokenProgram (cp token : String) : Program TokenStore TokenPhase TokenStep TokenRequest where
  start := TokenRequest.first
  step := TokenStore.next cp token

abbrev TokenWorld := World TokenStore TokenPhase

abbrev TokenWorldStep := CallStep TokenStep TokenRequest

end Duckgres.Ingress
