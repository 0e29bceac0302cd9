import Duckgres.Proxy.Handle

namespace Duckgres.Proof.Proxy
open Base Duckgres.Proxy List Option

variable {detect : Bytes → Text} {entry : Option Bytes} {w : ProxyWorld} {p q : CacheProxy} {h d next : Handler}
  {a : HandlerStep} {call other : Nat}

def respond (r : Request) : Except FetchError (Bytes × Text) → Response
  | .ok (data, contentType) => serveBody data r.rangeHeader contentType
  | .error err => serveError err

def alone (entry : Option Bytes) (r : Request) : Response := match entry with
  | some data => serveBody data r.rangeHeader []
  | none => respond r (fetch r false)

theorem runAlone_alone (entry : Option Bytes) (r : Request) : ∃ steps,
    (proxyProgram.runAlone ⟨entry, none, []⟩ (proxyProgram.start r) steps).map Prod.snd =
      some ⟨r, false, .answered (alone entry r)⟩ := by
  cases entry with
  | some => exact ⟨[.go], rfl⟩
  | none =>
    cases hr : fetch r false with
    | error =>
      refine ⟨[.go, .go, .go, .go], ?_⟩
      simp [Program.runAlone, proxyProgram, CacheProxy.handleProxy, CacheProxy.go, fetched, alone, respond, hr]
    | ok =>
      refine ⟨[.go, .go, .go, .go, .put true], ?_⟩
      simp [Program.runAlone, proxyProgram, CacheProxy.handleProxy, CacheProxy.go, fetched, alone, respond, hr]

/-- What a client sees of a response: `net/http` detects the content type that is not set. -/
def seen (detect : Bytes → Text) (resp : Response) : Nat × Text × Bytes :=
  (resp.status / 100, if resp.contentType = [] then detect resp.body else resp.contentType, resp.body)

variable (detect entry)

def Served (h : Handler) (resp : Response) : Prop :=
  h.gone = false → seen detect resp = seen detect (alone entry h.request)

/-- Two requests that get the same answers, and a fetch for the one serves the other. -/
structure Alike (leader r : Request) : Prop where
  peers : r.peers = leader.peers
  origin : leader.peers = none → r.origin = leader.origin
  contentType : leader.peers = none → ∀ resp, leader.origin = .ok resp → resp.status < 400 →
    resp.contentType = [] ∨ resp.contentType = detect resp.body

/-- The peers or the origin would answer the request with these bytes. -/
def AnsweredBy (data : Bytes) (r : Request) : Prop :=
  r.peers = some data ∨ r.peers = none ∧ ∃ resp, r.origin = .ok resp ∧ resp.status < 400 ∧ resp.body = data ∧
    (resp.contentType = [] ∨ resp.contentType = detect data)

def Shares (leader h : Handler) : Prop := h.gone = false → leader.gone = false ∧ Alike detect leader.request h.request

/-- Requests that share a fetch are alike and the client of the one that makes it stays until then, and an entry that
another request has put is what the own fetch would have given. -/
def Agreeing (w : ProxyWorld) : ProxyStep → Prop
  | .advance call .go => ∀ h, w.calls call = some h → match h.phase with
    | .looking => h.gone = false → entry = none → ∀ data, w.shared.entry = some data → AnsweredBy detect data h.request
    | .joining => ∀ other leader result, w.calls other = some leader → leader.phase = .leaving result →
      Shares detect leader h
    | .fetching flight => ∀ other d, w.calls other = some d → d.phase = .waiting flight → Shares detect h d
    | _ => True
  | _ => True

structure Kept (p : CacheProxy) : Prop where
  entry : ∀ data, entry = some data → p.entry = some data
  flight : ∀ flight, p.flight = some flight → flight < p.flights.length

def Fair (p : CacheProxy) (h : Handler) : Prop := match h.phase with
  | .looking => True
  | .joining | .fetching _ => entry = none
  | .leaving result => entry = none ∧ (h.gone = false → result = fetch h.request false)
  | .waiting flight => entry = none ∧ flight < p.flights.length ∧
    ∀ result, p.flights[flight]? = some (some result) → Served detect entry h (respond h.request (shared result))
  | .putting data contentType => entry = none ∧ Served detect entry h (serveBody data h.request.rangeHeader contentType)
  | .answered resp => Served detect entry h resp

variable {detect entry} {leader r : Request}

theorem seen_serveBody {data} {rangeHeader contentType}
    (typed : contentType = [] ∨ contentType = detect data) :
    seen detect (serveBody data rangeHeader []) = seen detect (serveBody data rangeHeader contentType) := by
  unfold serveBody seen
  rcases typed with rfl | rfl
  · rfl
  · split <;> simp

theorem AnsweredBy.seen_alone {data} (answered : AnsweredBy detect data r) :
    seen detect (serveBody data r.rangeHeader []) = seen detect (alone none r) := by
  rcases answered with peers | ⟨peers, resp, origin, ok, rfl, typed⟩
  · simp [alone, fetch, peers, respond]
  · have fetches : fetch r false = .ok (resp.body, resp.contentType) := by
      simp [fetch, peers, fetchOrigin, origin, Nat.not_le.mpr ok]
    rw [alone, fetches]
    exact seen_serveBody typed

theorem Alike.seen_shared (alike : Alike detect leader r) :
    seen detect (respond r (shared ((fetch leader false).map Prod.fst))) = seen detect (alone none r) := by
  unfold alone fetch
  rw [alike.peers]
  cases peers : leader.peers with
  | some data => rfl
  | none =>
    simp only [fetchOrigin, alike.origin peers, Bool.false_eq_true, if_false]
    cases origin : leader.origin with
    | error => rfl
    | ok resp =>
      dsimp only
      split
      · rfl
      · rename_i ok
        exact seen_serveBody (alike.contentType peers resp origin (Nat.not_le.mp ok))

theorem Shares.served {l} (missed : entry = none) (shares : Shares detect l h) :
    Served detect entry h (respond h.request (shared ((fetch l.request l.gone).map Prod.fst))) := by
  intro here
  obtain ⟨leaderHere, alike⟩ := shares here
  rw [leaderHere, missed]
  exact alike.seen_shared

/-- The flight in the map is that of a request which fetches, or has published what it has fetched. -/
def Led (w : ProxyWorld) : Prop :=
  ∀ flight, w.shared.flight = some flight → ∃ other leader, w.calls other = some leader ∧
  (leader.phase = .fetching flight ∧ w.shared.flights[flight]? = some none ∨
    ∃ result, leader.phase = .leaving result ∧ w.shared.flights[flight]? = some (some (result.map Prod.fst)))

def leads : Phase → Bool
  | .fetching _ | .leaving _ => true
  | _ => false

theorem Led.keep (led : Led w) (found : w.calls call = some h) (flight : q.flight = w.shared.flight)
    (flights : q.flights = w.shared.flights) (phase : next.phase = h.phase ∨ leads h.phase = false) :
    Led (w.set q call next) := by
  intro number isFlight
  rw [World.shared_set, flight] at isFlight
  rw [World.shared_set, flights]
  obtain ⟨other, leader, foundLeader, leading⟩ := led number isFlight
  by_cases same : other = call
  · subst same
    cases found.symm.trans foundLeader
    refine ⟨other, next, World.calls_set_self .., ?_⟩
    rcases phase with kept | idle
    · rwa [kept]
    · rcases leading with ⟨isPhase, -⟩ | ⟨_, isPhase, -⟩
      all_goals
        rw [isPhase] at idle
        cases idle
  · exact ⟨other, leader, (World.calls_set_of_ne _ _ _ same).trans foundLeader, leading⟩

theorem Led.publish {flight result} (led : Led w) (found : w.calls call = some h)
    (fetching : h.phase = .fetching flight) :
    Led (w.set { w.shared with flights := w.shared.flights.set flight (some (result.map Prod.fst)) } call
      { h with phase := .leaving result }) := by
  intro number isFlight
  obtain ⟨other, leader, foundLeader, leading⟩ := led number isFlight
  by_cases same : flight = number
  · subst same
    have bound : flight < w.shared.flights.length := by
      rcases leading with ⟨-, isFlight⟩ | ⟨_, -, isFlight⟩
      all_goals exact (List.getElem?_eq_some_iff.mp isFlight).1
    refine ⟨call, _, World.calls_set_self .., .inr ⟨result, rfl, ?_⟩⟩
    exact getElem?_set_self bound
  · have apart : other ≠ call := by
      rintro rfl
      cases found.symm.trans foundLeader
      rw [fetching] at leading
      rcases leading with ⟨⟨⟩, -⟩ | ⟨_, ⟨⟩, -⟩
      exact same rfl
    refine ⟨other, leader, (World.calls_set_of_ne _ _ _ apart).trans foundLeader, ?_⟩
    rwa [World.shared_set, getElem?_set_ne same]

theorem Led.step {after} {step} (led : Led w) (taken : proxyProgram.machine.step w step = some after) :
    Led after := by
  cases Program.takes_of_step taken with
  | @start call request fresh =>
    intro flight isFlight
    obtain ⟨other, leader, found, leading⟩ := led flight isFlight
    have apart : other ≠ call := by
      rintro rfl
      cases fresh.symm.trans found
    exact ⟨other, leader, (World.calls_set_of_ne _ _ _ apart).trans found, leading⟩
  | @advance call a h _ _ found moved => cases a with
    | cancel =>
      cases moved
      exact led.keep found rfl rfl (.inl rfl)
    | put =>
      simp only [proxyProgram, CacheProxy.handleProxy] at moved
      split at moved <;> cases moved
      rename_i putting
      exact led.keep found rfl rfl (.inr (by rw [putting]; rfl))
    | go =>
      obtain ⟨⟨q, phase⟩, goes, ⟨⟩⟩ := map_eq_some_iff.mp moved
      unfold CacheProxy.go at goes
      split at goes
      case h_2 joining =>
        split at goes <;> cases goes
        · exact led.keep found rfl rfl (.inr (by rw [joining]; rfl))
        · rintro flight ⟨⟩
          exact ⟨call, _, World.calls_set_self .., .inl ⟨rfl, by simp⟩⟩
      case h_3 fetching =>
        cases goes
        exact led.publish found fetching
      case h_4 =>
        cases goes
        nofun
      case h_6 => cases goes
      all_goals
        rename_i isPhase
        split at goes <;> cases goes
        all_goals exact led.keep found rfl rfl (.inr (by rw [isPhase]; rfl))

theorem fair_fetched {result} (missed : entry = none) (served : Served detect entry h (respond h.request result)) :
    Fair detect entry p { h with phase := fetched result } := by
  cases result with
  | ok => exact ⟨missed, served⟩
  | error => exact served

theorem fair_gone (fair : Fair detect entry p h) : Fair detect entry p { h with gone := true } := by
  unfold Fair at fair ⊢
  split at fair <;> simp_all [Served]

section
variable (holds : w.Holds (Kept entry) (Fair detect entry))
include holds

theorem served_joined {flight result} (led : Led w) (missed : entry = none)
    (agree : ∀ other leader result, w.calls other = some leader → leader.phase = .leaving result →
      Shares detect leader h)
    (isFlight : w.shared.flight = some flight) (published : w.shared.flights[flight]? = some (some result)) :
    Served detect entry h (respond h.request (shared result)) := by
  obtain ⟨other, leader, found, ⟨-, unpublished⟩ | ⟨fetched, leaving, isResult⟩⟩ := led flight isFlight
  · cases unpublished.symm.trans published
  · cases isResult.symm.trans published
    have fair := holds.own other leader found
    simp only [Fair, leaving] at fair
    intro here
    obtain ⟨leaderHere, alike⟩ := agree other leader fetched found leaving here
    rw [fair.2 leaderHere, missed]
    exact alike.seen_shared

theorem kept_fair_of_go {phase} (led : Led w)
    (found : w.calls call = some h) (agreeing : Agreeing detect entry w (.advance call .go))
    (goes : w.shared.go h = some (q, phase)) : Kept entry q ∧ Fair detect entry q { h with phase := phase } := by
  have agree := agreeing h found
  have fair := holds.own call h found
  have kept := holds.shared
  unfold CacheProxy.go at goes
  unfold Fair at fair
  split at goes <;> rename_i isPhase <;> simp only [isPhase] at agree fair
  · split at goes <;> cases goes
    · rename_i data hit
      refine ⟨kept, fun here => ?_⟩
      cases isEntry : entry with
      | none => exact (agree here isEntry data hit).seen_alone
      | some old =>
        cases hit.symm.trans (kept.entry old isEntry)
        rfl
    · rename_i miss
      refine ⟨kept, eq_none_iff_forall_ne_some.mpr fun data isEntry => ?_⟩
      cases miss.symm.trans (kept.entry data isEntry)
  · split at goes <;> cases goes
    · rename_i flight isFlight
      exact ⟨kept, fair, kept.flight flight isFlight, fun _ => served_joined holds led fair agree isFlight⟩
    · exact ⟨⟨kept.entry, by simp⟩, fair⟩
  · cases goes
    exact ⟨⟨kept.entry, by simpa using kept.flight⟩, fair, fun here => by rw [here]⟩
  · cases goes
    refine ⟨⟨kept.entry, nofun⟩, fair_fetched fair.1 fun here => ?_⟩
    rw [fair.1, fair.2 here]
    rfl
  · split at goes <;> cases goes
    rename_i result published
    exact ⟨kept, fair_fetched fair.1 (fair.2.2 result published)⟩
  · cases goes

theorem kept_fair_of_step (led : Led w) (found : w.calls call = some h)
    (agreeing : Agreeing detect entry w (.advance call a)) (moved : w.shared.handleProxy h a = some (q, next)) :
    Kept entry q ∧ Fair detect entry q next := by
  have fair := holds.own call h found
  cases a with
  | go =>
    obtain ⟨⟨q, phase⟩, goes, ⟨⟩⟩ := map_eq_some_iff.mp moved
    exact kept_fair_of_go holds led found agreeing goes
  | cancel =>
    cases moved
    exact ⟨holds.shared, fair_gone fair⟩
  | put =>
    simp only [CacheProxy.handleProxy] at moved
    split at moved <;> cases moved
    rename_i putting
    simp only [Fair, putting] at fair
    obtain ⟨rfl, served⟩ := fair
    exact ⟨⟨nofun, holds.shared.flight⟩, served⟩

end

theorem flights_of_step (ha : p.handleProxy h a = some (q, next)) {flight : Nat} (bound : flight < p.flights.length) :
    flight < q.flights.length ∧ ∀ result, q.flights[flight]? = some (some result) →
      p.flights[flight]? = some (some result) ∨
        a = .go ∧ h.phase = .fetching flight ∧ result = (fetch h.request h.gone).map Prod.fst := by
  cases a with
  | go =>
    obtain ⟨⟨q, phase⟩, hg, ⟨⟩⟩ := map_eq_some_iff.mp ha
    unfold CacheProxy.go at hg
    split at hg
    case h_2 =>
      split at hg <;> cases hg
      · exact ⟨bound, fun _ => .inl⟩
      · rw [getElem?_append_left bound, length_append]
        exact ⟨by omega, fun _ => .inl⟩
    case h_3 published hp =>
      cases hg
      rw [length_set, getElem?_set]
      refine ⟨bound, fun result published => ?_⟩
      split at published
      · simp_all
      · exact .inl published
    all_goals
      try split at hg
      all_goals
        cases hg
        try exact ⟨bound, fun _ => .inl⟩
  | cancel =>
    cases ha
    exact ⟨bound, fun _ => .inl⟩
  | put =>
    simp only [CacheProxy.handleProxy] at ha
    split at ha <;> cases ha
    exact ⟨bound, fun _ => .inl⟩


theorem fair_stable (fair : Fair detect entry w.shared d) (found : w.calls call = some h)
    (foundOther : w.calls other = some d)
    (agreeing : Agreeing detect entry w (.advance call a)) (moved : w.shared.handleProxy h a = some (q, next)) :
    Fair detect entry q d := by
  unfold Fair at fair ⊢
  split at fair
  case h_5 flight waiting =>
    obtain ⟨missed, bound, served⟩ := fair
    obtain ⟨bound, published⟩ := flights_of_step moved bound
    refine ⟨missed, bound, fun result isResult => ?_⟩
    rcases published result isResult with earlier | ⟨rfl, fetching, rfl⟩
    · exact served result earlier
    · have agree := agreeing h found
      rw [fetching] at agree
      exact (agree other d foundOther waiting).served missed
  all_goals exact fair

theorem coalesced_as_alone (detect : Bytes → Text) (entry : Option Bytes) {steps : List ProxyStep}
    (agreeing : proxyProgram.machine.Obeys (Agreeing detect entry) (.init ⟨entry, none, []⟩) steps)
    (run : proxyProgram.machine.run (.init ⟨entry, none, []⟩) steps = some w) {r : Request} {resp : Response}
    (found : w.calls call = some ⟨r, false, .answered resp⟩) : seen detect resp = seen detect (alone entry r) := by
  have start : (.init ⟨entry, none, []⟩ : ProxyWorld).Holds (Kept entry) (Fair detect entry) :=
    World.holds_init ⟨fun _ h => h, nofun⟩
  have agreeing := agreeing.and_invariant (fun _ _ _ => Led.step) nofun
  have holds := Program.holds_of_obeys (P := proxyProgram) (Kept entry) (Fair detect entry) (fun _ _ _ _ _ => trivial)
    (fun w call a h q next holds agree found moved => kept_fair_of_step holds agree.2 found agree.1 moved)
    (fun w call a h q next other d holds agree found moved _ foundOther =>
      fair_stable (holds.own other d foundOther) found foundOther agree.1 moved) start agreeing run
  exact holds.own call _ found rfl

def parquet : Response := ⟨200, "binary/octet-stream".toList, [], [80, 65, 82, 49]⟩

def reading (origin : Response) : Request := ⟨[], none, .ok origin, [99]⟩

def untyped : Request := reading { parquet with contentType := [] }

/-- Request 1 joins the fetch of request 0, and request 2 finds the entry. -/
def coalesced : List ProxyStep := [.start 0 untyped, .start 1 untyped, .advance 0 .go, .advance 1 .go,
  .advance 0 .go, .advance 1 .go, .advance 0 .go, .advance 1 .go, .advance 0 .go, .advance 0 (.put true),
  .advance 1 (.put true), .start 2 untyped, .advance 2 .go]

theorem agreeing_coalesced (detect : Bytes → Text) :
    proxyProgram.machine.Obeys (Agreeing detect none) (.init ⟨none, none, []⟩) coalesced := by
  have alike : Alike detect untyped untyped := by
    refine ⟨rfl, fun _ => rfl, fun _ resp origin _ => ?_⟩
    cases origin
    exact .inl rfl
  refine .cons rfl trivial (.cons rfl trivial ?_)
  iterate 2
    refine .cons rfl (by rintro h ⟨⟩ - - data ⟨⟩) ?_
  iterate 2
    refine .cons rfl ?_ ?_
    · rintro h ⟨⟩ other leader result found leaving
      match other with
      | 0 | 1 =>
        cases found
        cases leaving
      | _ + 2 => cases found
  refine .cons rfl ?_ ?_
  · rintro h ⟨⟩ other d found waiting
    match other with
    | 0 =>
      cases found
      cases waiting
    | 1 =>
      cases found
      exact fun _ => ⟨rfl, alike⟩
    | _ + 2 => cases found
  iterate 2
    refine .cons rfl (by rintro h ⟨⟩; trivial) ?_
  refine .cons rfl trivial (.cons rfl trivial (.cons rfl trivial (.cons rfl ?_ trivial)))
  rintro h ⟨⟩ - - data ⟨⟩
  exact .inr ⟨rfl, _, rfl, by decide, rfl, .inl rfl⟩

theorem coalesced_as_alone_joined :
    ∃ w first second, proxyProgram.machine.run (.init ⟨none, none, []⟩) coalesced = some w ∧
    w.calls 1 = some ⟨untyped, false, .answered first⟩ ∧ w.calls 2 = some ⟨untyped, false, .answered second⟩ ∧
    ∀ detect, seen detect first = seen detect (alone none untyped) ∧
      seen detect second = seen detect (alone none untyped) := by
  refine ⟨?w, ?first, ?second, ?run, ?joined, ?found, fun detect =>
    ⟨coalesced_as_alone detect none (agreeing_coalesced detect) ?run ?joined,
      coalesced_as_alone detect none (agreeing_coalesced detect) ?run ?found⟩⟩
  case run => rfl
  case joined => rfl
  case found => rfl

def joined : List ProxyStep := [.start 0 (reading parquet), .start 1 (reading parquet), .advance 0 .go, .advance 1 .go,
  .advance 0 .go, .advance 1 .go]

theorem coalesced_with_cancelled : ∃ w v, proxyProgram.machine.run (.init ⟨none, none, []⟩)
      (joined ++ [.advance 0 .cancel, .advance 0 .go, .advance 1 .go]) = some w ∧
    w.calls 1 = some ⟨reading parquet, false, .answered ⟨502, "text/plain; charset=utf-8".toList, [], [99, 10]⟩⟩ ∧
    proxyProgram.machine.run (.init ⟨none, none, []⟩)
      (joined ++ [.advance 0 .go, .advance 1 .go, .advance 1 (.put true)]) = some v ∧
    v.calls 1 = some ⟨reading parquet, false, .answered { parquet with contentType := [] }⟩ ∧
    alone none (reading parquet) = parquet :=
  ⟨_, _, rfl, rfl, rfl, rfl, rfl⟩

end Duckgres.Proof.Proxy
