import Duckgres.Ingress.Sessions

namespace Duckgres.Proof.Ingress
open Base Duckgres.Ingress Table FlightAuthSessionStore List Option

section
variable {session next : FlightClientSession} {stage : Stage} {later : Option Stage} {a : FlightStep} {now : Int}

/-! ## Steps on a session -/

def serves : Operation → Bool
  | .probe .tables => true
  | _ => false

def sends : Stage → Bool
  | .touching op | .locking op | .running op => serves op
  | .reading .tables | .streaming _ | .listed _ => true
  | _ => false

def ends : Stage → FlightStep → Bool
  | .entered (.closePreparedStatement _), _ | .streaming (.query _), _ | .listed _, .go | .deleting _, _ => true
  | .running (.endTxn _ ha), .result ok => ok || ha = .unspecified
  | _, _ => false

structure SessionMoves (now : Int) (session : FlightClientSession) (stage : Stage) (a : FlightStep)
    (next : FlightClientSession) (later : Option Stage) : Prop where
  ref : next.ref = session.ref
  place : next.place = session.place
  lastUsed : next.lastUsed = session.lastUsed ∨ next.lastUsed = now
  streams : (sends stage).toNat ≤ session.streams →
    next.streams + (sends stage).toNat = session.streams + (later.any sends).toNat
  sending : ends stage a = false → sends stage = true → later.any sends = true
  txns : ends stage a = false → ∀ txn ∈ session.txns, txn ∈ next.txns
  queries : ends stage a = false → ∀ q ∈ session.queries.rows,
    q ∈ next.queries.rows ∨ ∃ other ∈ next.queries.rows, other.lastUsed = now

theorem SessionMoves.of_keeps (hs : later.any sends = sends stage := by rfl)
    (lastUsed : next.lastUsed = session.lastUsed ∨ next.lastUsed = now := by exact .inl rfl)
    (ref : next.ref = session.ref := by rfl) (place : next.place = session.place := by rfl)
    (streams : next.streams = session.streams := by rfl) (txns : next.txns = session.txns := by rfl)
    (queries : next.queries = session.queries := by rfl) : SessionMoves now session stage a next later := by
  refine ⟨ref, place, lastUsed, fun _ => by rw [streams, hs], fun _ => hs.trans, ?_, ?_⟩
  · rw [txns]
    exact fun _ txn => id
  · rw [queries]
    exact fun _ q => .inl

theorem sessionMoves_getQuery (handle : HandleID) (before : sends stage = false) (after : later.any sends = false) :
    SessionMoves now session stage a (session.getQuery handle now).1 later := by
  refine ⟨rfl, rfl, .inl rfl, fun _ => by rw [before, after]; rfl, fun _ sending => ?_, fun _ txn => id, ?_⟩
  · cases before.symm.trans sending
  intro _ q hm
  rcases mem_modify_of_mem handle hm with hs | ⟨used, memberUsed, hap⟩
  · exact .inl hs
  · obtain ⟨-, rfl⟩ := Update.guarded_apply.mp hap
    exact .inr ⟨_, memberUsed, rfl⟩

theorem sessionMoves_addQuery (prepared : Bool) (txn : Option Nat) :
    SessionMoves now session (.adding prepared txn) a (session.addQuery prepared txn now) none := by
  refine ⟨rfl, rfl, .inl rfl, fun _ => rfl, fun _ sending => (by cases sending), fun _ txn => id, ?_⟩
  · intro _ q hm
    rcases mem_upsert_of_mem ⟨newHandle prepared (session.counter + 1), txn, now⟩ hm with hs | replaced
    · exact .inl hs
    · exact .inr ⟨_, (find?_eq_some.mp (find?_upsert ..)).1, rfl⟩

theorem SessionMoves.of_ends (ending : ends stage a = true) (ref : next.ref = session.ref)
    (place : next.place = session.place) (lastUsed : next.lastUsed = session.lastUsed)
    (streams : (sends stage).toNat ≤ session.streams →
      next.streams + (sends stage).toNat = session.streams + (later.any sends).toNat) :
    SessionMoves now session stage a next later := by
  have impossible {P : Prop} (quiet : ends stage a = false) : P := by
    cases ending.symm.trans quiet
  exact ⟨ref, place, .inl lastUsed, streams, impossible, impossible, impossible⟩

theorem sessionMoves_enter (rpc : Rpc) :
    SessionMoves now session (.entered rpc) .go (session.enter now rpc).1 (session.enter now rpc).2 := by
  have prepares (prepared : Bool) (txn : Option Nat) (query : QueryKind) :
      (session.prepare prepared txn query).any sends = false := by
    unfold FlightClientSession.prepare
    split
    · cases query <;> rfl
    · rfl
  have looksUp (handle : HandleID) (rows : Option Rows) :
      (session.lookUp handle now rows).2.any sends = false := by
    change ((session.queries.find? handle).map _).any sends = false
    cases session.queries.find? handle <;> rfl
  cases rpc with
  | getFlightInfoStatement | createPreparedStatement => exact .of_keeps (prepares ..)
  | doGetStatement handle | getFlightInfoPreparedStatement handle | doGetPreparedStatement handle =>
    exact sessionMoves_getQuery handle rfl (looksUp ..)
  | doPutCommandStatementUpdate =>
    refine .of_keeps ?_
    change (if _ then some (Stage.touching .update) else none).any sends = false
    split <;> rfl
  | endTransaction txn =>
    refine .of_keeps ?_
    cases txn <;> rfl
  | closePreparedStatement => exact .of_ends rfl rfl rfl rfl fun _ => rfl
  | _ => exact .of_keeps

theorem sessionMoves_finish (ok : Bool) (op : Operation) :
    SessionMoves now session (.running op) (.result ok) (session.finish ok op).1 (session.finish ok op).2 := by
  cases op with
  | update => exact .of_keeps
  | probe probe => cases probe <;> cases ok <;> exact .of_keeps
  | rows => cases ok <;> exact .of_keeps
  | beginTxn =>
    cases ok with
    | false => exact .of_keeps
    | true =>
      exact ⟨rfl, rfl, .inl rfl, fun _ => rfl, fun _ sending => (by cases sending),
        fun _ txn => mem_cons_of_mem _, fun _ q => .inl⟩
  | endTxn txn ha =>
    by_cases ending : (ok || ha = .unspecified) = true
    · have finished : session.finish ok (.endTxn txn ha) =
          (({ session with activeTxn := false }.deleteTxn txn).unlock, none) := if_pos ending
      rw [finished]
      exact .of_ends ending rfl rfl rfl fun _ => rfl
    · have finished : session.finish ok (.endTxn txn ha) = (session.unlock, none) := if_neg ending
      rw [finished]
      exact .of_keeps

theorem sessionMoves_of_step (hd : session.step now stage a = some (next, later)) :
    SessionMoves now session stage a next later := by
  unfold FlightClientSession.step at hd
  split at hd
  · cases hd
    exact .of_keeps rfl (.inr rfl)
  · cases hd
    exact .of_keeps
  · rename_i rpc
    have entered : SessionMoves now session (.entered rpc) .go _ _ := sessionMoves_enter rpc
    rwa [Option.some.inj hd] at entered
  · rename_i rows txn
    cases hd
    refine .of_keeps ?_
    split
    · cases rows <;> rfl
    · rfl
  · cases hd
    exact .of_keeps rfl (.inr rfl)
  · split at hd
    · cases hd
    · split at hd
      · cases hd
        exact .of_keeps
      · rename_i op _ refused
        cases hd
        cases op with
        | probe | update | rows => exact absurd rfl refused
        | beginTxn | endTxn => exact .of_keeps
  · rename_i op ok
    have finished : SessionMoves now session (.running op) (.result ok) _ _ := sessionMoves_finish ok op
    rwa [Option.some.inj hd] at finished
  · rename_i ok
    cases hd
    exact .of_keeps (by cases ok <;> rfl)
  · cases hd
    exact .of_keeps
  · cases hd
    exact sessionMoves_addQuery _ _
  · cases hd
    exact ⟨rfl, rfl, .inl rfl, fun _ => rfl, fun _ sending => (by cases sending), fun _ txn => id, fun _ q => .inl⟩
  · cases hd
    exact .of_ends rfl rfl rfl rfl Nat.sub_add_cancel
  · cases hd
    exact .of_keeps
  · cases hd
    exact .of_keeps
  · cases hd
    exact .of_ends rfl rfl rfl rfl Nat.sub_add_cancel
  · rename_i handle
    cases hd
    exact .of_keeps (by cases handle <;> rfl)
  · cases hd
    exact .of_ends rfl rfl rfl rfl fun _ => rfl
  · cases hd

/-! ## Steps on the store -/

section Store
variable {s t : FlightAuthSessionStore} {phase after : FlightPhase}

def Gone (s : FlightAuthSessionStore) (ref : Nat) : Prop :=
  ∃ session, s.sessions.find? ref = some session ∧ (session.place = .reaped ∨ session.place = .destroyed)

def Fits (s : FlightAuthSessionStore) : FlightPhase → Prop
  | .reconnected _ lastUsed _ _ | .created lastUsed _ _ => lastUsed ≤ s.clock
  | .serving ref _ => ref < s.nextRef
  | .reaping now _ => now ≤ s.clock
  | .scanning now _ _ stale _ => now ≤ s.clock ∧ s.mu = true ∧ ∀ ref ∈ stale, Gone s ref
  | .destroying stale _ => ∀ ref ∈ stale, Gone s ref
  | _ => True

def outside : FlightPhase → Bool
  | .serving .. | .scanning .. => false
  | _ => true

inductive IngressMoves (s : FlightAuthSessionStore) :
    FlightPhase → FlightStep → FlightAuthSessionStore → FlightPhase → Prop
  | serves {ref stage a session next later}
      (found : s.sessions.find? ref = some session) (moved : session.step s.clock stage a = some (next, later)) :
      IngressMoves s (.serving ref stage) a (s.put next) ((later.map (FlightPhase.serving ref)).getD .returned)
  | finds {token rpc session a} (free : s.mu = false)
      (member : session ∈ s.sessions.rows) (registered : session.place = .registered) :
      IngressMoves s (.lookup token rpc) a s (.serving session.ref (.found rpc))
  | registers {phase a rows token lastUsed tokenIssuedAt expiresAt rpc} (free : s.mu = false)
    (before : outside phase = true)
      (dropped : rows = s.sessions ∨ ∃ which, rows = s.sessions.updateAll (dropping which))
      (past : Fits s phase → lastUsed ≤ s.clock) :
      IngressMoves s phase a ({ s with sessions := rows }.register token lastUsed tokenIssuedAt expiresAt rpc).1
        (.serving s.nextRef (.found rpc))
  | drops {phase : FlightPhase} {a : FlightStep} {which : FlightClientSession → Bool} (free : s.mu = false)
      (before : outside phase = true ∨ ∃ ref, phase = .serving ref .closingSession) :
      IngressMoves s phase a { s with sessions := s.sessions.updateAll (dropping which) } .returned
  | locks {now create refs} (free : s.mu = false) (order : refs.Perm s.registeredRefs) :
      IngressMoves s (.reaping now create) (.order refs) { s with mu := true } (.scanning now .handles refs [] create)
  | scans {now check order stale create a} :
      IngressMoves s (.scanning now check order stale create) a (s.scan now check order stale create).1
        (s.scan now check order stale create).2
  | destroys {ref stale create a} :
      IngressMoves s (.destroying (ref :: stale) create) a
        { s with sessions := s.sessions.modify ref destroying } (.destroying stale create)
  | passes {phase after a clock draining} (before : outside phase = true)
      (outside : outside after = true) (later : s.clock ≤ clock)
      (fits : Fits s phase → Fits { s with clock := clock, draining := draining } after) :
      IngressMoves s phase a { s with clock := clock, draining := draining } after

theorem locking_eq_some {next result} (locks : s.locking next = some result) :
    s.mu = false ∧ result = next := by
  unfold locking at locks
  split at locks
  · cases locks
  · rename_i free
    exact ⟨by simpa using free, (Option.some.inj locks).symm⟩

theorem moves_of_getByToken (token : String) (rpc : Rpc) (free : s.mu = false) :
    IngressMoves s (.lookup token rpc) .go (s.getByToken token rpc).1 (s.getByToken token rpc).2 := by
  unfold getByToken
  split
  · exact .passes rfl rfl (Int.le_refl _) fun _ => trivial
  rename_i session hf
  split
  · exact .drops free (.inl rfl)
  · have registered := find?_some hf
    simp only [decide_eq_true_eq] at registered
    exact .finds free (mem_of_find?_eq_some hf) registered.1

theorem outside_failed (rpc : Rpc) (again : Bool) : outside (failed rpc again) = true := by
  cases again <;> rfl

theorem fits_failed (rpc : Rpc) (again : Bool) : Fits s (failed rpc again) := by
  cases again <;> trivial

theorem moves_of_step (hd : s.step phase a = some (t, after)) : IngressMoves s phase a t after := by
  unfold step at hd
  split at hd
  · rename_i token rpc
    obtain ⟨free, result⟩ := locking_eq_some hd
    have looked := moves_of_getByToken token rpc free
    rwa [← result] at looked
  · rename_i token rpc expiresAt
    cases hd
    cases expiresAt with
    | none => exact .passes rfl rfl (Int.le_refl _) fun _ => trivial
    | some expiresAt => exact .passes rfl rfl (Int.le_refl _) fun _ => Int.le_refl _
  · obtain ⟨free, ⟨⟩⟩ := locking_eq_some hd
    exact .registers free rfl (.inr ⟨_, rfl⟩) id
  · cases hd
    refine .passes rfl ?_ (Int.le_refl _) fun _ => ?_
    · split <;> rfl
    · split <;> trivial
  · rename_i ok
    cases hd
    refine .passes rfl ?_ (Int.le_refl _) fun _ => ?_
    · split
      · rfl
      · exact outside_failed ..
    · split
      · exact Int.le_refl _
      · exact fits_failed ..
  · cases hd
    exact .passes rfl (outside_failed ..) (Int.le_refl _) fun _ => fits_failed ..
  · split at hd
    · cases hd
    · obtain ⟨free, ⟨⟩⟩ := locking_eq_some hd
      exact .registers free rfl (.inl rfl) id
  · rename_i ref
    obtain ⟨session, -, closed⟩ := bind_eq_some_iff.mp hd
    obtain ⟨free, ⟨⟩⟩ := locking_eq_some closed
    exact .drops free (.inr ⟨ref, rfl⟩)
  · obtain ⟨session, hf, mapped⟩ := bind_eq_some_iff.mp hd
    obtain ⟨⟨next, later⟩, stepped, ⟨⟩⟩ := map_eq_some_iff.mp mapped
    exact .serves hf stepped
  · cases hd
    exact .passes rfl rfl (Int.le_refl _) fun _ => Int.le_refl _
  · cases hd
    exact .passes rfl rfl (Int.le_refl _) fun _ => trivial
  · split at hd
    · rename_i order
      obtain ⟨free, ⟨⟩⟩ := locking_eq_some hd
      exact .locks free order
    · cases hd
  · rename_i now check order stale create
    have result := Option.some.inj hd
    have scanned : IngressMoves s (.scanning now check order stale create) .go _ _ := .scans
    rwa [result] at scanned
  · cases hd
    exact .destroys
  · rename_i create
    cases hd
    cases create with
    | none | some => exact .passes rfl rfl (Int.le_refl _) fun _ => trivial
  · cases hd
    exact .passes rfl rfl (Int.le_refl _) fun _ => trivial
  · obtain ⟨free, ⟨⟩⟩ := locking_eq_some hd
    exact .drops free (.inl rfl)
  · cases hd
    exact .passes rfl rfl (Int.le_add_of_nonneg_right (Int.natCast_nonneg _)) fun _ => trivial
  · cases hd

end Store

end

variable {s t : FlightAuthSessionStore} {c d : FlightPhase} {a : FlightStep} {ref : Nat}
  {session later : FlightClientSession} {now : Int}

/-! ## What a step does to one session -/

inductive RowMoves (s : FlightAuthSessionStore) (c : FlightPhase) (a : FlightStep) (d : FlightPhase)
    (session : FlightClientSession) : FlightClientSession → Prop
  | same : RowMoves s c a d session session
  | serves {stage} {later : FlightClientSession} {next} (before : c = .serving session.ref stage)
      (moved : SessionMoves s.clock session stage a later next)
      (after : d = (next.map (FlightPhase.serving session.ref)).getD .returned) : RowMoves s c a d session later
  | drops (free : s.mu = false) (registered : session.place = .registered) :
      RowMoves s c a d session { session with place := .dropped }
  | prunes {now : Int} {rest stale create}
      (before : c = .scanning now .handles (session.ref :: rest) stale create) :
      RowMoves s c a d session (session.reapStaleHandles now s.handleIdleTTL)
  | reaps {now : Int} {rest stale create}
      (before : c = .scanning now .delete (session.ref :: rest) stale create) :
      RowMoves s c a d session { session with place := .reaped }
  | destroys {stale create} (before : c = .destroying (session.ref :: stale) create) :
      RowMoves s c a d session { session with place := .destroyed }

theorem rowMoves_drop {which : FlightClientSession → Bool} (free : s.mu = false)
    (hf : s.sessions.find? ref = some session) :
    ∃ later, (s.sessions.updateAll (dropping which)).find? ref = some later ∧
      RowMoves s c a d session later := by
  rw [find?_updateAll, hf, map_some]
  refine ⟨_, rfl, ?_⟩
  cases hap : (dropping which).apply session with
  | none => exact .same
  | some later =>
    obtain ⟨dropped, rfl⟩ := Update.guarded_apply.mp hap
    exact .drops free (by simpa using (Bool.and_eq_true_iff.mp dropped).1)

theorem find?_put (hk : session.ref = ref) : (s.put session).sessions.find? ref = some session := by
  subst hk
  exact find?_upsert ..

theorem find?_put_of_ne (other : ref ≠ session.ref) : (s.put session).sessions.find? ref = s.sessions.find? ref :=
  find?_upsert_of_ne _ other

theorem rowMoves_put {hk old next} (hfd : s.sessions.find? hk = some old)
    (sameRef : next.ref = old.ref) (hd : RowMoves s c a d old next) (hf : s.sessions.find? ref = some session) :
    ∃ later, (s.put next).sessions.find? ref = some later ∧ RowMoves s c a d session later := by
  have refs : next.ref = hk := sameRef.trans (key_of_find? hfd)
  by_cases hs : ref = hk
  · subst hs
    cases hf.symm.trans hfd
    exact ⟨next, find?_put refs, hd⟩
  · exact ⟨session, (find?_put_of_ne fun equal => hs (equal.trans refs)).trans hf, .same⟩

structure SameButHandles (session later : FlightClientSession) : Prop where
  ref : later.ref = session.ref
  place : later.place = session.place
  lastUsed : later.lastUsed = session.lastUsed
  streams : later.streams = session.streams
  txns : later.txns = session.txns

theorem reapStaleHandles_fields (session : FlightClientSession) (now ttl : Int) :
    SameButHandles session (session.reapStaleHandles now ttl) := by
  unfold FlightClientSession.reapStaleHandles
  split <;> exact ⟨rfl, rfl, rfl, rfl, rfl⟩

theorem rowMoves_scan {check order stale create} (hf : s.sessions.find? ref = some session) :
    ∃ later, (s.scan now check order stale create).1.sessions.find? ref = some later ∧
      RowMoves s (.scanning now check order stale create) a d session later := by
  unfold scan
  split
  · exact ⟨session, hf, .same⟩
  rename_i hk rest
  split
  · exact ⟨session, hf, .same⟩
  rename_i old hfd
  have refs : hk = old.ref := (key_of_find? hfd).symm
  cases check with
  | handles => exact rowMoves_put hfd (reapStaleHandles_fields ..).ref (.prunes (by rw [refs])) hf
  | delete =>
    have hd : RowMoves s (.scanning now .delete (hk :: rest) stale create) a d old
        { old with place := .reaped } := .reaps (by rw [refs])
    exact rowMoves_put hfd rfl hd hf
  | _ => exact ⟨session, hf, .same⟩

theorem rowMoves_of_moves (hk : ∀ row ∈ s.sessions.rows, row.ref < s.nextRef) (hv : IngressMoves s c a t d)
    (hf : s.sessions.find? ref = some session) :
    ∃ later, t.sessions.find? ref = some later ∧ RowMoves s c a d session later := by
  cases hv with
  | serves hfd hd =>
    have hv := sessionMoves_of_step hd
    refine rowMoves_put hfd hv.ref ?_ hf
    rw [← key_of_find? hfd]
    exact .serves rfl hv rfl
  | registers free _ dropped =>
    have fresh : ref ≠ s.nextRef := by
      obtain ⟨hm, hs⟩ := find?_eq_some.mp hf
      exact hs ▸ Nat.ne_of_lt (hk session hm)
    have unchanged {rows : Table FlightClientSession.ref} {row : FlightClientSession} (new : row.ref = s.nextRef) :
        (rows.upsert row).find? ref = rows.find? ref := find?_upsert_of_ne rows (fun hs => fresh (hs.trans new))
    change ∃ later, (upsert _ _).find? ref = some later ∧ _
    rw [unchanged rfl]
    rcases dropped with rfl | ⟨which, rfl⟩
    · exact ⟨session, hf, .same⟩
    · exact rowMoves_drop free hf
  | drops free => exact rowMoves_drop free hf
  | scans => exact rowMoves_scan hf
  | @destroys hk =>
    by_cases hs : ref = hk
    · subst hs
      refine ⟨_, find?_modify_of_apply hf rfl, ?_⟩
      exact .destroys (by rw [← key_of_find? hf])
    · exact ⟨session, (find?_modify_of_ne _ _ hs).trans hf, .same⟩
  | finds | locks | passes => exact ⟨session, hf, .same⟩

theorem find?_put_eq_none {hk old next} (hfd : s.sessions.find? hk = some old)
    (sameRef : next.ref = old.ref) (before : s.sessions.find? ref = none) : (s.put next).sessions.find? ref = none := by
  have refs : next.ref = hk := sameRef.trans (key_of_find? hfd)
  have elsewhere : ref ≠ next.ref := by
    intro hs
    rw [hs.trans refs, hfd] at before
    cases before
  exact (find?_put_of_ne elsewhere).trans before

theorem find?_scan_eq_none {check order stale create}
    (before : s.sessions.find? ref = none) : (s.scan now check order stale create).1.sessions.find? ref = none := by
  unfold scan
  split
  · exact before
  split
  · exact before
  rename_i old hfd
  cases check with
  | handles => exact find?_put_eq_none hfd (reapStaleHandles_fields ..).ref before
  | delete =>
    have sameRef : { old with place := .reaped }.ref = old.ref := rfl
    exact find?_put_eq_none hfd sameRef before
  | _ => exact before

theorem new_of_moves (hv : IngressMoves s c a t d) (fits : Fits s c) (before : s.sessions.find? ref = none)
    (now : t.sessions.find? ref = some later) :
    ref = s.nextRef ∧ ref < t.nextRef ∧ (∃ rpc, d = .serving ref (.found rpc)) ∧ later.place = .registered ∧
      later.lastUsed ≤ s.clock ∧
      later.streams = 0 := by
  have dropped (which : FlightClientSession → Bool) :
      (s.sessions.updateAll (dropping which)).find? ref = none := by
    rw [find?_updateAll, before]
    rfl
  cases hv with
  | serves hfd hd =>
    rw [find?_put_eq_none hfd (sessionMoves_of_step hd).ref before] at now
    cases now
  | @registers _ _ rows _ _ _ _ rpc _ _ rowsEq past =>
    have unknown : rows.find? ref = none := by
      rcases rowsEq with rfl | ⟨which, rfl⟩
      · exact before
      · exact dropped which
    rcases mem_rows_upsert (find?_eq_some.mp now).1 with new | old
    · have refs := key_of_find? now
      rw [new] at refs ⊢
      have hs : ref = s.nextRef := refs.symm
      subst hs
      exact ⟨rfl, Nat.lt_succ_self _, ⟨rpc, rfl⟩, rfl, past fits, rfl⟩
    · exact absurd (key_of_find? now) (find?_eq_none.mp unknown later old)
  | drops => cases (dropped _).symm.trans now
  | scans =>
    rw [find?_scan_eq_none before] at now
    cases now
  | @destroys hk =>
    by_cases hs : ref = hk
    · subst hs
      rw [find?_modify, before] at now
      cases now
    · cases ((find?_modify_of_ne _ _ hs).trans before).symm.trans now
  | finds | locks | passes => cases before.symm.trans now

section
variable (hd : RowMoves s c a d session later)
include hd

theorem RowMoves.calm (elsewhere : ∀ stage, c ≠ .serving session.ref stage) :
    later.lastUsed = session.lastUsed ∧ later.streams = session.streams ∧ later.txns = session.txns := by
  cases hd with
  | serves before => exact absurd before (elsewhere _)
  | @prunes now =>
    have hs := reapStaleHandles_fields session now s.handleIdleTTL
    exact ⟨hs.lastUsed, hs.streams, hs.txns⟩
  | _ => exact ⟨rfl, rfl, rfl⟩

theorem RowMoves.lastUsed :
    later.lastUsed = session.lastUsed ∨ later.lastUsed = s.clock := by
  cases hd with
  | serves _ hd => exact hd.lastUsed
  | prunes => exact .inl (reapStaleHandles_fields ..).lastUsed
  | _ => exact .inl rfl

theorem RowMoves.txns
    (lasts : ∀ stage, c = .serving session.ref stage → ends stage a = false) :
    ∀ txn ∈ session.txns, txn ∈ later.txns := by
  cases hd with
  | serves before hd => exact hd.txns (lasts _ before)
  | prunes =>
    rw [(reapStaleHandles_fields ..).txns]
    exact fun txn => id
  | _ => exact fun txn => id

end

theorem Gone.step (gone : Gone s ref) (hk : ∀ row ∈ s.sessions.rows, row.ref < s.nextRef)
    (hv : IngressMoves s c a t d) : Gone t ref := by
  obtain ⟨session, hf, place⟩ := gone
  obtain ⟨later, hfl, hd⟩ := rowMoves_of_moves hk hv hf
  refine ⟨later, hfl, ?_⟩
  cases hd with
  | same => exact place
  | serves _ hd => rwa [hd.place]
  | drops _ registered =>
    rw [registered] at place
    rcases place with impossible | impossible <;> cases impossible
  | prunes => rwa [(reapStaleHandles_fields ..).place]
  | reaps => exact .inl rfl
  | destroys => exact .inr rfl

theorem gone_of_step (hk : ∀ row ∈ s.sessions.rows, row.ref < s.nextRef) (fits : Fits s c)
    (hv : IngressMoves s c a t d) (gone : Gone t ref) : Gone s ref ∨ ∃ session, s.sessions.find? ref = some session ∧
      ∃ now rest stale create, c = .scanning now .delete (ref :: rest) stale create := by
  obtain ⟨later, hfl, place⟩ := gone
  cases before : s.sessions.find? ref with
  | none =>
    obtain ⟨-, -, -, registered, -⟩ := new_of_moves hv fits before hfl
    rw [registered] at place
    rcases place with impossible | impossible <;> cases impossible
  | some session =>
    obtain ⟨other, hfo, hd⟩ := rowMoves_of_moves hk hv before
    cases hfl.symm.trans hfo
    have refs := key_of_find? before
    cases hd with
    | same => exact .inl ⟨_, before, place⟩
    | serves _ hd =>
      rw [hd.place] at place
      exact .inl ⟨session, before, place⟩
    | drops => rcases place with impossible | impossible <;> cases impossible
    | prunes =>
      rw [(reapStaleHandles_fields ..).place] at place
      exact .inl ⟨session, before, place⟩
    | @reaps now rest stale create at' => exact .inr ⟨session, rfl, now, rest, stale, create, by rw [at', refs]⟩
    | destroys at' =>
      rw [at', refs] at fits
      exact .inl (fits ref (mem_cons_self ..))

structure Onward (s t : FlightAuthSessionStore) : Prop where
  idleTTL : t.idleTTL = s.idleTTL
  handleIdleTTL : t.handleIdleTTL = s.handleIdleTTL
  clock : s.clock ≤ t.clock
  nextRef : s.nextRef ≤ t.nextRef

theorem scan_fields (now : Int) (check : ReapCheck) (order stale : List Nat) (create : Option Rpc) :
    Onward s (s.scan now check order stale create).1 := by
  unfold scan
  split
  · exact ⟨rfl, rfl, Int.le_refl _, Nat.le_refl _⟩
  · split
    · exact ⟨rfl, rfl, Int.le_refl _, Nat.le_refl _⟩
    · cases check <;> exact ⟨rfl, rfl, Int.le_refl _, Nat.le_refl _⟩

theorem onward_of_moves (hv : IngressMoves s c a t d) : Onward s t := by
  cases hv with
  | registers => exact ⟨rfl, rfl, Int.le_refl _, Nat.le_succ _⟩
  | scans => exact scan_fields ..
  | passes _ _ later => exact ⟨rfl, rfl, later, Nat.le_refl _⟩
  | _ => exact ⟨rfl, rfl, Int.le_refl _, Nat.le_refl _⟩

end Duckgres.Proof.Ingress
