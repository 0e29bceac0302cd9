import Duckgres.Ingress.Tokens
import Duckgres.Proof.Flight.Durable

namespace Duckgres.Proof.Ingress
open Base Duckgres.Store Duckgres.Flight Duckgres.Ingress Duckgres.Proof.Flight World

variable {s t : TokenStore} {cp token : String} {c d : TokenPhase} {a : TokenStep} {w after : TokenWorld}
  {call now : Nat}
  {records : FlightSessions}

def RecordClosed (token : String) (records : FlightSessions) : Prop :=
  ∀ record, records.getFlightSessionRecord token = some record → record.state = .closed

def reconnects : TokenPhase → Bool
  | .connecting _ | .registering _ | .persisting _ | .upserting _ => true
  | _ => false

def gains : TokenPhase → Bool
  | .touching | .obtained => true
  | c => reconnects c

theorem recordClosed_close : RecordClosed token (records.closeFlightSessionRecord token now) := by
  intro record found
  obtain ⟨row, -, rfl⟩ := Option.map_eq_some_iff.mp ((Table.find?_modify _ _ _).symm.trans found)
  rfl

theorem RecordClosed.fades {later} (closed : RecordClosed token records) (fades : Fades records later) :
    RecordClosed token later := by
  intro record found
  obtain ⟨old, foundOld, -, -, -, stays⟩ := fades token record found
  exact stays (closed old foundOld)

theorem RecordClosed.touch (closed : RecordClosed token records) :
    RecordClosed token (records.touchFlightSessionRecord token now) :=
  closed.fades (fades_modify _ fun _ _ => ⟨rfl, rfl, .inl rfl, id⟩)

theorem load_of_closed {durable : DurableState} (closed : RecordClosed token durable.sessions) :
    TokenPhase.ofDurable (durable.load token now true) = .refused := by
  unfold DurableState.load
  cases found : durable.sessions.getFlightSessionRecord token with
  | none => rfl
  | some record => simp [closed record found, TokenPhase.ofDurable]

@[simp]
theorem ofDurable_ne_closing (phase : DurablePhase) : TokenPhase.ofDurable phase ≠ .closing := by
  fun_cases TokenPhase.ofDurable phase <;> nofun

@[simp]
theorem ofDurable_ne_closed (phase : DurablePhase) (found : Bool) : TokenPhase.ofDurable phase ≠ .closed found := by
  fun_cases TokenPhase.ofDurable phase <;> nofun

structure TokenMoves (token : String) (s : TokenStore) (c : TokenPhase) (t : TokenStore) (d : TokenPhase) : Prop where
  missing : s.session = none → reconnects c = false → t.session = none
  stays : RecordClosed token s.durable.sessions → reconnects c = false → RecordClosed token t.durable.sessions
  loads : reconnects c = false → reconnects d = true → c = .loading ∧ ¬ RecordClosed token s.durable.sessions
  removes : d = .closing → c = .removing ∧ t.session = none
  closes : d = .closed true → c = .closing ∧ RecordClosed token t.durable.sessions
  gains : s.session = none → RecordClosed token s.durable.sessions → gains c = false → gains d = false

theorem moves_of_next (taken : s.next cp token c a = some (t, d)) : TokenMoves token s c t d := by
  revert taken
  fun_cases TokenStore.next cp token s c a
  case case16 =>
    intro taken
    obtain ⟨⟨durable, _⟩, happened, ⟨⟩⟩ := Option.bind_eq_some_iff.mp taken
    have stays (closed : RecordClosed token s.durable.sessions) : RecordClosed token durable.sessions := by
      rcases (Flight.moves_of_next happened).sessions with fades | ⟨_, ⟨⟩, -⟩
      exact closed.fades fades
    exact ⟨fun missing _ => missing, fun closed _ => stays closed, nofun, nofun, nofun, fun _ _ _ => rfl⟩
  all_goals rintro ⟨⟩
  all_goals constructor
  case case4.stays => exact fun closed _ => closed.touch
  case case6.loads =>
    refine fun _ reconnecting => ⟨rfl, fun closed => ?_⟩
    rw [load_of_closed closed] at reconnecting
    cases reconnecting
  case case6.gains =>
    intro _ closed _
    rw [load_of_closed closed]
    rfl
  all_goals simp_all [reconnects, gains, recordClosed_close, TokenStore.onRecords]

structure Revoked (w : TokenWorld) : Prop where
  missing : w.shared.session = none
  idle : ∀ call c, w.calls call = some c → reconnects c = false

structure Revokes (token : String) (w : TokenWorld) : Prop where
  closing : ∀ call c, w.calls call = some c → c = .closing → Revoked w
  closed : ∀ call c, w.calls call = some c → c = .closed true → Revoked w ∧ RecordClosed token w.shared.durable.sessions

/-- When a `CloseByToken` takes the session out of the map no request is between its look at the record and its upsert,
and until it has closed the record none looks at it. -/
def ClosesAlone (w : TokenWorld) : TokenWorldStep → Prop
  | .start .. => True
  | .advance call _ => ∀ other d, w.calls other = some d →
      (w.calls call = some .removing → reconnects d = false) ∧ (w.calls call = some .loading → d ≠ .closing)

theorem Revoked.start (revoked : Revoked w) (request : TokenRequest) : Revoked (w.set w.shared call request.first) :=
  ⟨revoked.missing, forall_calls_set (by cases request <;> rfl) fun other d _ => revoked.idle other d⟩

theorem Revoked.advance (revoked : Revoked w) (hf : w.calls call = some c) (hv : TokenMoves token w.shared c t d)
    (unread : c = .loading → RecordClosed token w.shared.durable.sessions) : Revoked (w.set t call d) := by
  have idle := revoked.idle call c hf
  refine ⟨hv.missing revoked.missing idle, forall_calls_set ?_ fun other d _ => revoked.idle other d⟩
  rw [← Bool.not_eq_true]
  intro starts
  obtain ⟨isLoading, ho⟩ := hv.loads idle starts
  exact ho (unread isLoading)

theorem Revokes.step {step} (revokes : Revokes token w) (alone : ClosesAlone w step)
    (ha : (tokenProgram cp token).machine.step w step = some after) : Revokes token after := by
  cases Program.takes_of_step ha with
  | @start _ request =>
    constructor
    all_goals refine forall_calls_set (by cases request <;> nofun) fun other d _ hf done => ?_
    · exact (revokes.closing other d hf done).start request
    · exact (revokes.closed other d hf done).imp_left fun revoked => revoked.start request
  | @advance call _ c _ _ hf hd =>
    have hv := moves_of_next hd
    constructor <;> apply forall_calls_set
    · intro isClosing
      obtain ⟨rfl, gone⟩ := hv.removes isClosing
      refine ⟨gone, forall_calls_set (by rw [isClosing]; rfl) fun other e _ hfo => ?_⟩
      exact (alone other e hfo).1 hf
    · rintro other e - hfo isClosing
      refine (revokes.closing other e hfo isClosing).advance hf hv ?_
      rintro rfl
      exact absurd isClosing ((alone other e hfo).2 hf)
    · intro isClosed
      obtain ⟨rfl, closed⟩ := hv.closes isClosed
      exact ⟨(revokes.closing call _ hf rfl).advance hf hv nofun, closed⟩
    · rintro other e - hfo isClosed
      obtain ⟨revoked, closed⟩ := revokes.closed other e hfo isClosed
      exact ⟨revoked.advance hf hv fun _ => closed, hv.stays closed (revoked.idle call c hf)⟩

structure Barred (token : String) (earlier w : TokenWorld) : Prop where
  revoked : Revoked w
  closed : RecordClosed token w.shared.durable.sessions
  barred : ∀ call c, w.calls call = some c → earlier.calls call = none → gains c = false

theorem Barred.step {step earlier} (barred : Barred token earlier w)
    (ha : (tokenProgram cp token).machine.step w step = some after) : Barred token earlier after := by
  obtain ⟨revoked, closed, barred⟩ := barred
  cases Program.takes_of_step ha with
  | @start _ request =>
    exact ⟨revoked.start request, closed, forall_calls_set (by cases request <;> exact fun _ => rfl)
      fun other d _ => barred other d⟩
  | @advance call _ c d _ hf hd =>
    have hv := moves_of_next hd
    refine ⟨revoked.advance hf hv fun _ => closed, hv.stays closed (revoked.idle call c hf), ?_⟩
    refine forall_calls_set (fun fresh => ?_) fun other d _ => barred other d
    exact hv.gains revoked.missing closed (barred call c hf fresh)

theorem closeByToken_revokes {steps more : List TokenWorldStep}
    (alone : (tokenProgram cp token).machine.Obeys ClosesAlone (.init s) steps)
    (run : (tokenProgram cp token).machine.run (.init s) steps = some w) (returned : w.calls call = some (.closed true))
    (later : (tokenProgram cp token).machine.run w more = some after) :
    (∀ record, after.shared.durable.sessions.getFlightSessionRecord token = some record → record.state = .closed) ∧
      ∀ other, w.calls other = none → after.calls other ≠ some .obtained := by
  have start : Revokes token (.init s) := by
    constructor
    all_goals
      intro call c hf
      cases hf
  have revokes := (tokenProgram cp token).machine.invariant_of_obeys (Revokes token)
    (fun _ _ _ revokes => revokes.step) start alone run
  obtain ⟨revoked, closed⟩ := revokes.closed call _ returned rfl
  have barred := (tokenProgram cp token).machine.invariant_of_run (Barred token w)
    (fun _ _ _ barred => barred.step)
    ⟨revoked, closed, fun other c hf fresh => by cases fresh.symm.trans hf⟩ later
  refine ⟨barred.closed, fun other fresh obtained => ?_⟩
  cases barred.barred other _ obtained fresh

def tokenStore (session : Option TokenSession) : TokenStore := ⟨session, recordedState, 0⟩

/-- Up to `DurableSessionMetadata`. -/
def reconnection (call : Nat) : List TokenWorldStep :=
  [.start call .getByToken, .advance call (.go 4), .advance call (.go 4), .advance call (.connect "" 5 true),
    .advance call (.register (some 5)), .advance call (.persist true 6)]

def closure (call : Nat) : List TokenWorldStep :=
  [.start call .closeByToken, .advance call (.go 7), .advance call (.go 8)]

/-- A request that reconnects, and then a `CloseByToken`. -/
def reconnectedAndClosed : List TokenWorldStep := reconnection 0 ++ [.advance 0 (.go 6)] ++ closure 1

theorem closesAlone_of_calls (found : w.calls call = some c) (notRemoving : c ≠ .removing) (notLoading : c ≠ .loading) :
    ClosesAlone w (.advance call a) :=
  fun _ _ _ => ⟨fun isRemoving => absurd (Option.some.inj (found.symm.trans isRemoving)) notRemoving,
    fun isLoading => absurd (Option.some.inj (found.symm.trans isLoading)) notLoading⟩

theorem closesAlone_reconnectedAndClosed :
    (tokenProgram "b" "token").machine.Obeys ClosesAlone (.init (tokenStore none)) reconnectedAndClosed := by
  refine .cons rfl trivial (.cons rfl (closesAlone_of_calls rfl nofun nofun) (.cons rfl ?_ ?_))
  · intro other d found
    match other with
    | 0 =>
      cases found
      exact ⟨nofun, nofun⟩
    | _ + 1 => cases found
  iterate 4
    refine .cons rfl (closesAlone_of_calls rfl nofun nofun) ?_
  refine .cons rfl trivial (.cons rfl ?_ (.cons rfl (closesAlone_of_calls rfl nofun nofun) trivial))
  refine forall_calls_set ⟨fun _ => rfl, nofun⟩ fun other d _ found => ?_
  match other with
  | 0 =>
    cases found
    exact ⟨fun _ => rfl, nofun⟩
  | 1 | _ + 2 => cases found

theorem closeByToken_revokes_reconnected : ∃ w after,
    (tokenProgram "b" "token").machine.run (.init (tokenStore none)) reconnectedAndClosed = some w ∧
    w.calls 1 = some (.closed true) ∧ (tokenProgram "b" "token").machine.run w ((reconnection 2).take 3) = some after ∧
    after.calls 2 = some .refused ∧ ∀ other, w.calls other = none → after.calls other ≠ some .obtained := by
  refine ⟨?w, ?after, ?run, ?returned, ?later, ?refused,
    (closeByToken_revokes closesAlone_reconnectedAndClosed ?run ?returned ?later).2⟩
  case run => rfl
  case later => rfl
  all_goals rfl

theorem reconnect_reopens : ∃ w after,
    (tokenProgram "b" "token").machine.run (.init (tokenStore none)) (reconnection 0 ++ closure 1) = some w ∧
    w.calls 1 = some (.closed true) ∧
    (w.shared.durable.sessions.getFlightSessionRecord "token").map FlightSessionRecord.state = some .closed ∧
    (tokenProgram "b" "token").machine.run w [.advance 0 (.go 9)] = some after ∧
    (after.shared.durable.sessions.getFlightSessionRecord "token").map FlightSessionRecord.state = some .active :=
  ⟨_, _, rfl, rfl, rfl, rfl, rfl⟩

end Duckgres.Proof.Ingress
