import Duckgres.Base.Tally
import Duckgres.Proof.Ingress.Steps

namespace Duckgres.Proof.Ingress
open Base Duckgres.Ingress Table World FlightAuthSessionStore List Option Int

variable {s t : FlightAuthSessionStore} {c d : FlightPhase} {a : FlightStep} {ref call : Nat}
  {session later : FlightClientSession} {w after : IngressWorld} {now : Int} {check : ReapCheck}

/-! ## Signs of activity -/

def scans : FlightPhase → Bool
  | .scanning .. => true
  | _ => false

def sendsOn (ref : Nat) : FlightPhase → Bool
  | .serving hk stage => hk = ref && sends stage
  | _ => false

def InUse (w : IngressWorld) (ref : Nat) : Prop := ∃ call stage, w.calls call = some (.serving ref stage)

def Sending (w : IngressWorld) (ref : Nat) : Prop := ∃ call c, w.calls call = some c ∧ sendsOn ref c = true

def HasHandle (s : FlightAuthSessionStore) (now : Int) (session : FlightClientSession) : Prop :=
  ∃ q ∈ session.queries.rows, s.handleIdleTTL ≤ 0 ∨ now - q.lastUsed < s.handleIdleTTL ∨ q.txn.any session.hasTxn = true

def Active (w : IngressWorld) (now : Int) (session : FlightClientSession) : ReapCheck → Prop
  | .handles | .lastUsed => now - session.lastUsed < w.shared.idleTTL ∨ session.txns ≠ [] ∨ Sending w session.ref ∨
      HasHandle w.shared now session
  | .txns => session.txns ≠ [] ∨ Sending w session.ref ∨ HasHandle w.shared now session
  | .streams => Sending w session.ref ∨ HasHandle w.shared now session
  | .queries => HasHandle w.shared now session
  | .delete => False

theorem Active.onward (active : Active w now session check) (onward : Onward w.shared after.shared)
    (used : session.lastUsed ≤ later.lastUsed) (txns : session.txns ≠ [] → later.txns ≠ [])
    (sending : Sending w session.ref → Sending after later.ref)
    (handles : HasHandle w.shared now session → HasHandle after.shared now later) : Active after now later check := by
  cases check with
  | handles | lastUsed =>
    refine active.imp (fun recent => ?_) (Or.imp txns (Or.imp sending handles))
    rw [onward.idleTTL]
    omega
  | txns => exact active.imp txns (Or.imp sending handles)
  | streams => exact active.imp sending handles
  | queries => exact handles active
  | delete => exact active

theorem HasHandle.sessionMoves {stage next} (has : HasHandle s now session)
    (hd : SessionMoves s.clock session stage a later next) (quiet : ends stage a = false) (past : now ≤ s.clock)
    (ttl : t.handleIdleTTL = s.handleIdleTTL) : HasHandle t now later := by
  obtain ⟨q, hm, kept⟩ := has
  rcases hd.queries quiet q hm with still | ⟨other, memberOther, used⟩
  · refine ⟨q, still, ?_⟩
    rw [ttl]
    refine kept.imp_right (Or.imp_right fun ho => ?_)
    obtain ⟨txn, hk, isOpen⟩ := (any_eq_true _ _).mp ho
    refine (any_eq_true _ _).mpr ⟨txn, hk, ?_⟩
    simp only [FlightClientSession.hasTxn, decide_eq_true_eq] at isOpen ⊢
    exact hd.txns quiet txn isOpen
  · refine ⟨other, memberOther, ?_⟩
    omega

def Shown (w : IngressWorld) (now : Int) (check : ReapCheck) (ref : Nat) : Prop :=
  InUse w ref → ∀ session, w.shared.sessions.find? ref = some session → Active w now session check

def Guarded (w : IngressWorld) (now : Int) (check : ReapCheck) : List Nat → Prop
  | [] => True
  | ref :: rest => Shown w now check ref ∧ ∀ other ∈ rest, Shown w now .handles other

structure Tended (w : IngressWorld) : Prop where
  finite : w.Finite
  known : ∀ row ∈ w.shared.sessions.rows, row.ref < w.shared.nextRef
  past : ∀ row ∈ w.shared.sessions.rows, row.lastUsed ≤ w.shared.clock
  fits : ∀ call c, w.calls call = some c → Fits w.shared c
  alone : ∀ first second c d, first ≠ second → w.calls first = some c → w.calls second = some d →
    scans c = true → scans d = false
  streams : ∀ ref row, w.shared.sessions.find? ref = some row → row.streams = (w.those (sendsOn ref)).ncard
  unreaped : ∀ ref, InUse w ref → ¬ Gone w.shared ref
  shown : ∀ call now check order stale create, w.calls call = some (.scanning now check order stale create) →
    Guarded w now check order

theorem mu_of_moves (moves : IngressMoves s c a t d) (quiet : scans c = false) (locked : s.mu = true) :
    t.mu = true := by
  cases moves with
  | locks free => cases free.symm.trans locked
  | scans => cases quiet
  | _ => exact locked

variable {order : List Nat} {create : Option Rpc}

theorem fits_scan {stale} (fits : Fits s (.scanning now check order stale create))
    (hk : ∀ row ∈ s.sessions.rows, row.ref < s.nextRef) :
    Fits (s.scan now check order stale create).1 (s.scan now check order stale create).2 := by
  have gone (ref : Nat) (hm : ref ∈ stale) : Gone (s.scan now check order stale create).1 ref :=
    (fits.2.2 ref hm).step hk (IngressMoves.scans (a := .go))
  obtain ⟨past, locked, -⟩ := fits
  cases order with
  | nil => exact gone
  | cons ref rest =>
    cases before : s.sessions.find? ref with
    | none =>
      simp only [scan, before] at gone ⊢
      exact ⟨past, locked, gone⟩
    | some session =>
      cases check with
      | handles =>
        simp only [scan, before] at gone ⊢
        exact ⟨past, locked, gone⟩
      | lastUsed | txns | streams | queries =>
        simp only [scan, before] at gone ⊢
        split <;> exact ⟨past, locked, gone⟩
      | delete =>
        simp only [scan, before] at gone ⊢
        refine ⟨past, locked, fun other hm => ?_⟩
        rcases mem_append.mp hm with old | new
        · exact gone other old
        · rw [mem_singleton.mp new, ← key_of_find? before]
          exact ⟨{ session with place := .reaped }, find?_put rfl, .inl rfl⟩

theorem sendsOn_serving {hk} (next : Option Stage) :
    sendsOn ref ((next.map (FlightPhase.serving hk)).getD .returned) = (decide (hk = ref) && next.any sends) := by
  cases next with
  | none => simp [sendsOn]
  | some stage => rfl

theorem not_serving_of_outside (outside' : outside c = true) (hk : Nat) (stage : Stage) : c ≠ .serving hk stage := by
  rintro rfl
  cases outside'

theorem scans_of_outside (outside' : outside c = true) : scans c = false := by
  cases c with
  | scanning => cases outside'
  | _ => rfl

theorem scan_ne_serving (order stale : List Nat) (create : Option Rpc) (hk : Nat) (stage : Stage) :
    (s.scan now check order stale create).2 ≠ .serving hk stage := by
  unfold scan
  split
  · nofun
  split
  · nofun
  cases check with
  | handles | delete => nofun
  | _ =>
    simp only
    split <;> nofun

theorem sendsOn_of_ne (elsewhere : ∀ stage, c ≠ .serving ref stage) : sendsOn ref c = false := by
  cases c with
  | serving other stage =>
    have hne : other ≠ ref := fun hs => elsewhere stage (by rw [hs])
    simp [sendsOn, hne]
  | _ => rfl

theorem streams_of_moves (hk : ∀ row ∈ s.sessions.rows, row.ref < s.nextRef) (moves : IngressMoves s c a t d)
    (hf : s.sessions.find? ref = some session) (hfl : t.sessions.find? ref = some later)
    (enough : (sendsOn ref c).toNat ≤ session.streams) :
    later.streams + (sendsOn ref c).toNat = session.streams + (sendsOn ref d).toNat := by
  have refs := key_of_find? hf
  have calm (elsewhere : ∀ stage, c ≠ .serving ref stage) (quiet : sendsOn ref d = false) :
      later.streams + (sendsOn ref c).toNat = session.streams + (sendsOn ref d).toNat := by
    obtain ⟨other, hfo, hd⟩ := rowMoves_of_moves hk moves hf
    cases hfl.symm.trans hfo
    rw [(hd.calm (refs ▸ elsewhere)).2.1, sendsOn_of_ne elsewhere, quiet]
  cases moves with
  | @serves other _ _ _ next _ hfd hd =>
    have hd := sessionMoves_of_step hd
    have nextRef : next.ref = other := hd.ref.trans (key_of_find? hfd)
    rw [sendsOn_serving]
    by_cases hs : other = ref
    · subst hs
      cases hf.symm.trans hfd
      cases hfl.symm.trans (find?_put nextRef)
      simp only [sendsOn] at enough ⊢
      exact hd.streams enough
    · have unchanged := find?_put_of_ne (s := s) (fun equal => hs (nextRef.symm.trans equal.symm))
      cases (hfl.symm.trans unchanged).trans hf
      simp [sendsOn, hs]
  | @drops _ _ which _ before =>
    have unchanged : (((dropping which).apply session).getD session).streams = session.streams := by
      rcases Update.guarded_getD _ _ session with hs | ⟨-, dropped⟩
      · exact congrArg FlightClientSession.streams hs
      · have streams := congrArg FlightClientSession.streams dropped
        exact streams
    have quiet : sendsOn ref c = false := by
      rcases before with outside' | ⟨other, rfl⟩
      · exact sendsOn_of_ne (not_serving_of_outside outside' ref)
      · simp [sendsOn, sends]
    rw [find?_updateAll, hf] at hfl
    cases hfl
    rw [quiet, unchanged]
    rfl
  | finds => exact calm nofun (by simp [sendsOn, sends])
  | registers _ before => exact calm (not_serving_of_outside before ref) (by simp [sendsOn, sends])
  | locks => exact calm nofun rfl
  | scans => exact calm nofun (sendsOn_of_ne (scan_ne_serving _ _ _ ref))
  | destroys => exact calm nofun rfl
  | passes before outside =>
    exact calm (not_serving_of_outside before ref) (sendsOn_of_ne (not_serving_of_outside outside ref))

theorem sendsOn_of_moves (moves : IngressMoves s c a t d)
    (lasts : ∀ stage, c = .serving ref stage → ends stage a = false)
    (sending : sendsOn ref c = true) : sendsOn ref d = true := by
  cases moves with
  | @serves hk stage _ _ _ _ _ hd =>
    obtain ⟨hs, isSending⟩ := Bool.and_eq_true_iff.mp sending
    have hs : hk = ref := by simpa using hs
    subst hs
    rw [sendsOn_serving]
    simpa using (sessionMoves_of_step hd).sending (lasts stage rfl) isSending
  | finds | locks | scans | destroys => cases sending
  | registers _ before | passes before => cases (sendsOn_of_ne (not_serving_of_outside before ref)).symm.trans sending
  | drops _ before =>
    rcases before with outside' | ⟨other, rfl⟩
    · cases (sendsOn_of_ne (not_serving_of_outside outside' ref)).symm.trans sending
    · simp [sendsOn, sends] at sending

theorem HasHandle.reapStaleHandles (has : HasHandle s now session) :
    HasHandle s now (session.reapStaleHandles now s.handleIdleTTL) := by
  obtain ⟨q, hm, kept⟩ := has
  unfold FlightClientSession.reapStaleHandles
  split
  · exact ⟨q, hm, kept⟩
  rename_i hpos
  refine ⟨q, mem_filter.mpr ⟨hm, ?_⟩, kept⟩
  rcases kept with unlimited | recent | ho
  · exact absurd unlimited hpos
  · simp [recent]
  · simp [ho]

def ScansAt (now : Int) (c : FlightPhase) : Prop :=
  ∀ other check order stale create, c = .scanning other check order stale create → other = now

theorem HasHandle.rowMoves (has : HasHandle s now session) (hd : RowMoves s c a d session later)
    (lasts : ∀ stage, c = .serving session.ref stage → ends stage a = false)
    (own : ScansAt now c) (past : now ≤ s.clock) (ttl : t.handleIdleTTL = s.handleIdleTTL) : HasHandle t now later := by
  have config {row : FlightClientSession} (has : HasHandle s now row) : HasHandle t now row := by
    unfold HasHandle at has ⊢
    rwa [ttl]
  cases hd with
  | serves before hd => exact has.sessionMoves hd (lasts _ before) past ttl
  | prunes before =>
    cases own _ _ _ _ _ before
    exact config has.reapStaleHandles
  | same | drops | reaps | destroys => exact config has

section Step
variable (tended : Tended w) (hf : w.calls call = some c) (moves : IngressMoves w.shared c a t d)
include tended hf moves

theorem Tended.known_step : ∀ row ∈ t.sessions.rows, row.ref < t.nextRef := by
  intro row hm
  have hfl := find?_eq_some.mpr ⟨hm, rfl⟩
  cases before : w.shared.sessions.find? row.ref with
  | none => exact (new_of_moves moves (tended.fits call c hf) before hfl).2.1
  | some session =>
    obtain ⟨memberBefore, hs⟩ := find?_eq_some.mp before
    have bound := tended.known session memberBefore
    exact Nat.lt_of_lt_of_le (hs ▸ bound) (onward_of_moves moves).nextRef

theorem Tended.past_step : ∀ row ∈ t.sessions.rows, row.lastUsed ≤ t.clock := by
  intro row hm
  have clock := (onward_of_moves moves).clock
  have hfl := find?_eq_some.mpr ⟨hm, rfl⟩
  cases before : w.shared.sessions.find? row.ref with
  | none =>
    obtain ⟨-, -, -, -, past, -⟩ := new_of_moves moves (tended.fits call c hf) before hfl
    omega
  | some session =>
    obtain ⟨other, hfo, hd⟩ := rowMoves_of_moves tended.known moves before
    cases hfl.symm.trans hfo
    have past := tended.past session (find?_eq_some.mp before).1
    have used := hd.lastUsed
    omega

theorem Tended.fits_other {other e} (hne : other ≠ call) (hfo : w.calls other = some e) : Fits t e := by
  have onward := onward_of_moves moves
  have fits := tended.fits other e hfo
  have gone (stale : List Nat) (gone : ∀ ref ∈ stale, Gone w.shared ref) : ∀ ref ∈ stale, Gone t ref :=
    fun ref hm => (gone ref hm).step tended.known moves
  cases e with
  | reconnected | created => exact le_trans fits onward.clock
  | serving => exact Nat.lt_of_lt_of_le fits onward.nextRef
  | reaping => exact le_trans fits onward.clock
  | scanning _ _ _ stale =>
    refine ⟨le_trans fits.1 onward.clock, ?_, gone stale fits.2.2⟩
    exact mu_of_moves moves (tended.alone other call _ c hne hfo hf rfl) fits.2.1
  | destroying stale => exact gone stale fits
  | _ => trivial

theorem Tended.fits_own : Fits t d := by
  have fits := tended.fits call c hf
  have stays (ref : Nat) (gone : Gone w.shared ref) : Gone t ref := gone.step tended.known moves
  cases moves with
  | @serves _ _ _ _ _ later =>
    cases later with
    | none => trivial
    | some later => exact fits
  | finds _ hm => exact tended.known _ hm
  | registers => exact Nat.lt_succ_self _
  | drops => trivial
  | locks => exact ⟨fits, rfl, nofun⟩
  | scans => exact fits_scan fits tended.known
  | destroys => exact fun ref hm => stays ref (fits ref (mem_cons_of_mem _ hm))
  | passes _ _ _ own => exact own fits

theorem Tended.alone_step {other e} (hne : other ≠ call)
    (hfo : w.calls other = some e) (scanning : scans d = true) : scans e = false := by
  have before : scans c = true ∨ w.shared.mu = false := by
    cases moves with
    | @serves _ _ _ _ _ later => cases later <;> cases scanning
    | locks free => exact .inr free
    | scans => exact .inl rfl
    | passes _ outside =>
      cases d with
      | scanning => cases outside
      | _ => cases scanning
    | _ => cases scanning
  rcases before with scanning | free
  · exact tended.alone call other c e hne.symm hf hfo scanning
  · have fits := tended.fits other e hfo
    cases e with
    | scanning => cases free.symm.trans fits.2.1
    | _ => rfl

theorem Tended.streams_step (hfl : t.sessions.find? ref = some later) :
    later.streams = ((w.set t call d).those (sendsOn ref)).ncard := by
  have balance := tended.finite.ncard_those_set t call d (sendsOn ref)
  rw [hf, any_some] at balance
  cases before : w.shared.sessions.find? ref with
  | none =>
    obtain ⟨fresh, -, ⟨rpc, isServing⟩, -, -, none⟩ := new_of_moves moves (tended.fits call c hf) before hfl
    have nobody : w.those (sendsOn ref) = ∅ := by
      apply those_eq_empty
      intro other e hfo
      have fits := tended.fits other e hfo
      cases e with
      | serving hk =>
        have hne : hk ≠ ref := fresh ▸ Nat.ne_of_lt fits
        simp [sendsOn, hne]
      | _ => rfl
    have idle : sendsOn ref d = false := by simp [isServing, sendsOn, sends]
    rw [nobody, Set.ncard_empty, idle] at balance
    change _ = 0 at balance
    omega
  | some session =>
    have hc := tended.streams ref session before
    have enough := tended.finite.toNat_le_ncard (p := sendsOn ref) hf
    have hd := streams_of_moves tended.known moves before hfl (hc ▸ enough)
    omega

theorem Tended.inUse_step (inUse : InUse (w.set t call d) ref) :
    InUse w ref ∨ w.shared.mu = false ∧ scans c = false ∧ ¬ Gone w.shared ref := by
  obtain ⟨other, stage, hfo⟩ := inUse
  by_cases hs : other = call
  · subst hs
    rw [calls_set_self] at hfo
    cases moves with
    | @serves _ stage' _ _ _ later =>
      cases later with
      | none => cases hfo
      | some later =>
        cases hfo
        exact .inl ⟨other, stage', hf⟩
    | @finds _ _ _ _ free hm registered =>
      cases hfo
      refine .inr ⟨free, rfl, fun gone => ?_⟩
      obtain ⟨row, fresh, place⟩ := gone
      cases fresh.symm.trans (find?_eq_some.mpr ⟨hm, rfl⟩)
      rw [registered] at place
      rcases place with impossible | impossible <;> cases impossible
    | registers free before =>
      cases hfo
      refine .inr ⟨free, scans_of_outside before, fun gone => ?_⟩
      obtain ⟨row, fresh, -⟩ := gone
      obtain ⟨hm, hs⟩ := find?_eq_some.mp fresh
      exact Nat.lt_irrefl _ (hs ▸ tended.known row hm)
    | scans => exact absurd (Option.some.inj hfo) (scan_ne_serving _ _ _ _ _)
    | passes _ outside' =>
      cases hfo
      cases outside'
    | _ => cases hfo
  · rw [calls_set_of_ne _ _ _ hs] at hfo
    exact .inl ⟨other, stage, hfo⟩

theorem Tended.unreaped_step (inUse : InUse (w.set t call d) ref) (gone : Gone t ref) : False := by
  rcases gone_of_step tended.known (tended.fits call c hf) moves gone with gone |
    ⟨session, before, now, rest, stale, create, rfl⟩
  · rcases tended.inUse_step hf moves inUse with inUse | ⟨-, -, present⟩
    · exact tended.unreaped ref inUse gone
    · exact present gone
  · rcases tended.inUse_step hf moves inUse with inUse | ⟨-, quiet, -⟩
    · exact (tended.shown call now .delete _ stale create hf).1 inUse session before
    · cases quiet

theorem Tended.active_step (lasts : ∀ stage, c = .serving ref stage → ends stage a = false)
    (own : ScansAt now c) (past : now ≤ w.shared.clock) (before : w.shared.sessions.find? ref = some session)
    (hfl : t.sessions.find? ref = some later) (active : Active w now session check) :
    Active (w.set t call d) now later check := by
  obtain ⟨other, hfo, hd⟩ := rowMoves_of_moves tended.known moves before
  cases hfl.symm.trans hfo
  have refs := key_of_find? before
  have onward := onward_of_moves moves
  refine active.onward onward ?_ ?_ ?_ ?_
  · have used := hd.lastUsed
    have recent := tended.past session (find?_eq_some.mp before).1
    omega
  · intro some
    obtain ⟨txn, hm⟩ := exists_mem_of_ne_nil _ some
    exact ne_nil_of_mem (hd.txns (refs ▸ lasts) txn hm)
  · intro ⟨sender, e, foundSender, sending⟩
    rw [key_of_find? hfl]
    rw [refs] at sending
    by_cases hs : sender = call
    · subst hs
      cases hf.symm.trans foundSender
      exact ⟨sender, d, calls_set_self .., sendsOn_of_moves moves lasts sending⟩
    · exact ⟨sender, e, (calls_set_of_ne _ _ _ hs).trans foundSender, sending⟩
  · intro has
    exact has.rowMoves hd (refs ▸ lasts) own past onward.handleIdleTTL

theorem Tended.find?_of_inUse (inUse : InUse w ref) (hfl : t.sessions.find? ref = some later) :
    ∃ session, w.shared.sessions.find? ref = some session := by
  obtain ⟨other, stage, hfo⟩ := inUse
  cases before : w.shared.sessions.find? ref with
  | some session => exact ⟨session, rfl⟩
  | none =>
    obtain ⟨fresh, -⟩ := new_of_moves moves (tended.fits call c hf) before hfl
    have issued : ref < w.shared.nextRef := tended.fits other _ hfo
    omega

theorem Tended.shown_step (locked : w.shared.mu = true) (lasts : ∀ stage, c = .serving ref stage → ends stage a = false)
    (own : ScansAt now c) (past : now ≤ w.shared.clock) (shown : Shown w now check ref) :
    Shown (w.set t call d) now check ref := by
  intro inUse later hfl
  rcases tended.inUse_step hf moves inUse with inUse | ⟨free, -⟩
  · obtain ⟨session, before⟩ := tended.find?_of_inUse hf moves inUse hfl
    exact tended.active_step hf moves lasts own past before hfl (shown inUse session before)
  · cases free.symm.trans locked

end Step

theorem guarded_of_forall (shown : ∀ ref ∈ order, Shown w now .handles ref) : Guarded w now .handles order := by
  cases order with
  | nil => trivial
  | cons ref rest => exact ⟨shown ref (mem_cons_self ..), fun other hm => shown other (mem_cons_of_mem _ hm)⟩

theorem Guarded.imp (guarded : Guarded w now check order)
    (kept : ∀ ref ∈ order, ∀ check, Shown w now check ref → Shown after now check ref) :
    Guarded after now check order := by
  cases order with
  | nil => trivial
  | cons ref rest =>
    refine ⟨kept ref (mem_cons_self ..) check guarded.1, fun other hm => ?_⟩
    exact kept other (mem_cons_of_mem _ hm) .handles (guarded.2 other hm)

theorem Tended.not_sending (tended : Tended w) (before : w.shared.sessions.find? ref = some session)
    (none : ¬ 0 < session.streams) : ¬ Sending w session.ref := by
  intro ⟨sender, e, foundSender, sending⟩
  rw [key_of_find? before] at sending
  have hc := tended.streams ref session before
  have bound := tended.finite.toNat_le_ncard (p := sendsOn ref) foundSender
  rw [sending, Bool.toNat_true] at bound
  omega

theorem Tended.guarded_scan {stale} (tended : Tended w)
    (hf : w.calls call = some (.scanning now check order stale create))
    {later : Int} {next rest' stale' create'}
    (scanned : (w.shared.scan now check order stale create).2 = .scanning later next rest' stale' create') :
    Guarded (w.set (w.shared.scan now check order stale create).1 call (w.shared.scan now check order stale create).2)
      later next rest' := by
  have fits := tended.fits call _ hf
  have guarded := tended.shown call now check order stale create hf
  have kept (ref : Nat) (check' : ReapCheck) (shown : Shown w now check' ref) : Shown
      (w.set (w.shared.scan now check order stale create).1 call (w.shared.scan now check order stale create).2)
      now check' ref := by
    refine tended.shown_step hf (IngressMoves.scans (a := .go)) fits.2.1 (by rintro _ ⟨⟩) ?_ fits.1 shown
    intro other check order stale create hs
    cases hs
    rfl
  generalize w.set _ _ _ = after at kept ⊢
  cases order with
  | nil => cases scanned
  | cons ref rest =>
    have skips : Guarded after now .handles rest :=
      guarded_of_forall fun other hm => kept other .handles (guarded.2 other hm)
    have goes (next : ReapCheck) (stronger : ∀ session, w.shared.sessions.find? ref = some session →
        Active w now session check → Active w now session next) : Guarded after now next (ref :: rest) := by
      refine ⟨kept ref next fun inUse session before => ?_, fun other hm => kept other .handles (guarded.2 other hm)⟩
      exact stronger session before (guarded.1 inUse session before)
    cases before : w.shared.sessions.find? ref with
    | none =>
      simp only [scan, before] at scanned
      cases scanned
      exact skips
    | some session =>
      have decides {keeps : Prop} [Decidable keeps] {following : ReapCheck}
          (scanned : (if keeps then .scanning now .handles rest stale create
            else .scanning now following (ref :: rest) stale create) =
              FlightPhase.scanning later next rest' stale' create')
          (stronger : ¬ keeps → Active w now session check → Active w now session following) :
          Guarded after later next rest' := by
        split at scanned
        · cases scanned
          exact skips
        rename_i passed
        cases scanned
        refine goes _ fun other hfo active => ?_
        cases before.symm.trans hfo
        exact stronger passed active
      simp only [scan, before] at scanned
      cases check with
      | handles =>
        cases scanned
        exact goes .lastUsed fun _ _ active => active
      | lastUsed => exact decides scanned fun old active => active.resolve_left old
      | txns => exact decides scanned fun none active => active.resolve_left fun some => none (length_pos_iff.mpr some)
      | streams => exact decides scanned fun none active => active.resolve_left (tended.not_sending before none)
      | queries =>
        refine decides scanned fun none active => ?_
        obtain ⟨q, hm, _⟩ := active
        exact none (length_pos_of_mem hm)
      | delete =>
        cases scanned
        exact skips

/-- When the reaper takes the lock, every registered session that a request is executing on has been used less than
`idleTTL` before, or has an open transaction, a request that sends its stream, or a handle that is not stale. Until the
reaper has decided on the session, none of these ends. -/
def Timely (w : IngressWorld) : IngressWorldStep → Prop
  | .start .. => True
  | .advance call a =>
    (∀ now create, w.calls call = some (.reaping now create) → ∀ ref session, InUse w ref →
      w.shared.sessions.find? ref = some session → session.place = .registered → Active w now session .handles) ∧
    ∀ ref stage, w.calls call = some (.serving ref stage) → ends stage a = true →
      ∀ reaper now check order stale create,
        w.calls reaper = some (.scanning now check order stale create) → ref ∉ order

theorem inUse_of_set (inUse : InUse (w.set t call d) ref) (elsewhere : ∀ stage, d ≠ .serving ref stage) :
    InUse w ref := by
  obtain ⟨other, stage, hfo⟩ := inUse
  rw [calls_set] at hfo
  split at hfo
  · exact absurd (Option.some.inj hfo) (elsewhere stage)
  · exact ⟨other, stage, hfo⟩

theorem scans_symm (c d : FlightPhase) (alone : scans c = true → scans d = false) (scanning : scans d = true) :
    scans c = false := by
  cases isScanning : scans c with
  | false => rfl
  | true => cases (alone isScanning).symm.trans scanning

theorem Tended.start (tended : Tended w) (hun : w.calls call = none) (request : FlightRequest) :
    Tended (w.set w.shared call request.first) := by
  have first : outside request.first = true := by cases request <;> rfl
  have inUse (ref : Nat) (inUse : InUse (w.set w.shared call request.first) ref) : InUse w ref :=
    inUse_of_set inUse (not_serving_of_outside first ref)
  have others (other : Nat) (e : FlightPhase) (hfo : w.calls other = some e) :
      (w.set w.shared call request.first).calls other = some e := by
    rw [calls_set_of_ne]
    · exact hfo
    · rintro rfl
      cases hun.symm.trans hfo
  have shown (now : Int) (check : ReapCheck) (ref : Nat) (shown : Shown w now check ref) :
      Shown (w.set w.shared call request.first) now check ref := by
    intro inUse' session hf
    have active := shown (inUse ref inUse') session hf
    refine active.onward ⟨rfl, rfl, le_refl _, Nat.le_refl _⟩ (le_refl _) id ?_ id
    exact fun ⟨sender, e, foundSender, sending⟩ => ⟨sender, e, others sender e foundSender, sending⟩
  refine ⟨tended.finite.set, tended.known, tended.past, ?_, ?_, ?_, ?_, ?_⟩
  · apply forall_calls_set
    · cases request <;> trivial
    · exact fun other e _ => tended.fits other e
  · apply forall_pairs_set
    · exact scans_symm
    · intro other e _ _ scanning
      cases (scans_of_outside first).symm.trans scanning
    · exact tended.alone
  · intro ref row hf
    have balance := tended.finite.ncard_those_set w.shared call request.first (sendsOn ref)
    rw [hun, any_none, sendsOn_of_ne (not_serving_of_outside first ref), Nat.add_right_cancel_iff] at balance
    rw [balance]
    exact tended.streams ref row hf
  · exact fun ref isInUse => tended.unreaped ref (inUse ref isInUse)
  · intro reaper now check order stale create hf
    rw [calls_set] at hf
    split at hf
    · have impossible := scans_of_outside first
      rw [Option.some.inj hf] at impossible
      cases impossible
    · exact (tended.shown reaper now check order stale create hf).imp fun ref _ check => shown now check ref

theorem guarded_locks {now : Int} {refs}
    (hf : w.calls call = some (.reaping now create)) (order : refs.Perm w.shared.registeredRefs)
    (active : ∀ ref session, InUse w ref → w.shared.sessions.find? ref = some session → session.place = .registered →
      Active w now session .handles) :
    Guarded (w.set { w.shared with mu := true } call (.scanning now .handles refs [] create)) now .handles refs := by
  refine guarded_of_forall fun ref hm inUse session before => ?_
  have registered : session.place = .registered := by
    obtain ⟨other, memberOther, hs⟩ := mem_map.mp (order.mem_iff.mp hm)
    obtain ⟨memberOther, registered⟩ := mem_filter.mp memberOther
    have hfo := find?_eq_some.mpr ⟨memberOther, hs⟩
    cases before.symm.trans hfo
    simpa using registered
  have active := active ref session (inUse_of_set inUse nofun) before registered
  refine active.onward ⟨rfl, rfl, le_refl _, Nat.le_refl _⟩ (le_refl _) id ?_ id
  intro ⟨sender, e, foundSender, sending⟩
  refine ⟨sender, e, ?_, sending⟩
  rw [calls_set_of_ne]
  · exact foundSender
  · rintro rfl
    cases hf.symm.trans foundSender
    cases sending

theorem Tended.step {step} (tended : Tended w) (timely : Timely w step)
    (ha : ingressProgram.machine.step w step = some after) : Tended after := by
  cases Program.takes_of_step ha with
  | @start _ request hun => exact tended.start hun request
  | @advance call a c _ _ hf hd =>
    have moves := moves_of_step hd
    refine ⟨tended.finite.set, tended.known_step hf moves, tended.past_step hf moves, ?_, ?_, ?_, ?_, ?_⟩
    · apply forall_calls_set
      · exact tended.fits_own hf moves
      · exact fun other e => tended.fits_other hf moves
    · apply forall_pairs_set
      · exact scans_symm
      · exact fun other e => tended.alone_step hf moves
      · exact tended.alone
    · exact fun ref row => tended.streams_step hf moves
    · exact fun ref => tended.unreaped_step hf moves
    · intro reaper now check order stale create foundReaper
      by_cases hs : reaper = call
      · subst hs
        rw [calls_set_self] at foundReaper
        cases moves with
        | @serves _ _ _ _ _ later => cases later <;> cases foundReaper
        | locks _ listed =>
          cases foundReaper
          exact guarded_locks hf listed (timely.1 now create hf)
        | scans => exact tended.guarded_scan hf (Option.some.inj foundReaper)
        | passes _ outside' =>
          cases foundReaper
          cases outside'
        | _ => cases foundReaper
      · rw [calls_set_of_ne _ _ _ hs] at foundReaper
        have fits := tended.fits reaper _ foundReaper
        refine (tended.shown reaper now check order stale create foundReaper).imp fun ref hm check shown => ?_
        refine tended.shown_step hf moves fits.2.1 ?_ ?_ fits.1 shown
        · intro stage isServing
          cases ending : ends stage a with
          | false => rfl
          | true =>
            exact absurd hm (timely.2 ref stage (isServing ▸ hf) ending reaper now _ order stale create foundReaper)
        · intro other check order stale create isScanning
          have quiet := tended.alone reaper call _ c hs foundReaper hf rfl
          rw [isScanning] at quiet
          cases quiet

theorem tended_new (idleTTL handleIdleTTL tokenTTL now : Int) :
    Tended (.init (.new idleTTL handleIdleTTL tokenTTL now)) := by
  refine ⟨finite_init _, nofun, nofun, ?_, ?_, ?_, ?_, ?_⟩
  · nofun
  · intro first second c d hne hf
    cases hf
  · nofun
  · intro ref ⟨call, stage, hf⟩
    cases hf
  · nofun

theorem executing_sessions_unreaped {idleTTL handleIdleTTL tokenTTL now : Int} {steps : List IngressWorldStep}
    (obeys : ingressProgram.machine.Obeys Timely (.init (.new idleTTL handleIdleTTL tokenTTL now)) steps)
    (run : ingressProgram.machine.run (.init (.new idleTTL handleIdleTTL tokenTTL now)) steps = some w) :
    ∀ call ref stage session, w.calls call = some (.serving ref stage) → w.shared.sessions.find? ref = some session →
      session.place ≠ .reaped ∧ session.place ≠ .destroyed := by
  intro call ref stage session serving hf
  have tended : Tended w :=
    ingressProgram.machine.invariant_of_obeys Tended (fun _ _ _ tended => tended.step)
      (tended_new ..) obeys run
  have present := tended.unreaped ref ⟨call, stage, serving⟩
  exact ⟨fun reaped => present ⟨session, hf, .inl reaped⟩, fun destroyed => present ⟨session, hf, .inr destroyed⟩⟩

def updating (call : Nat) : List IngressWorldStep :=
  [.start call (.bootstrap (.doPutCommandStatementUpdate none .other)), .advance call .go, .advance call (.create true),
    .advance call (.token (some "a")), .advance call .go, .advance call .go, .advance call .go, .advance call .go]

def reapingFirst (call : Nat) : List IngressWorldStep :=
  [.start call .reapIdle, .advance call .go, .advance call (.order [0]), .advance call .go, .advance call .go]

theorem timely_of_calls (hk : w.calls call = some c) (other : ∀ now create, c ≠ .reaping now create)
    (quiet : ∀ ref stage, c = .serving ref stage → ends stage a = false) : Timely w (.advance call a) := by
  constructor
  · intro now create hf
    exact absurd (Option.some.inj (hk.symm.trans hf)) (other now create)
  · intro ref stage hf ending
    cases (quiet ref stage (Option.some.inj (hk.symm.trans hf))).symm.trans ending

theorem timely_of_recent (hk : w.calls call = some (.reaping now create))
    (recent : (w.shared.sessions.rows.all fun row => now - row.lastUsed < w.shared.idleTTL) = true) :
    Timely w (.advance call a) := by
  constructor
  · intro other create' hf ref session _ foundSession _
    cases hk.symm.trans hf
    have recent := all_eq_true.mp recent session (find?_eq_some.mp foundSession).1
    exact .inl (by simpa using recent)
  · intro ref stage hf
    cases hk.symm.trans hf

theorem executing_sessions_unreaped_update :
    ∃ w, ingressProgram.machine.run (.init (.new 600 900 3600 0))
      (updating 0 ++ [.start 1 .clock, .advance 1 (.tick 599)] ++
        reapingFirst 2) = some w ∧
      w.calls 0 = some (.serving 0 (.running .update)) ∧ ∀ session, w.shared.sessions.find? 0 = some session →
        session.place ≠ .reaped ∧ session.place ≠ .destroyed := by
  refine ⟨?w, ?run, ?serving, fun session => executing_sessions_unreaped ?_ ?run 0 0 _ session ?serving⟩
  case run => rfl
  case serving => rfl
  have quiet {stage : Stage} {a : FlightStep} (quiet : ends stage a = false) (ref : Nat) (other : Stage)
      (hs : FlightPhase.serving 0 stage = .serving ref other) : ends other a = false := by
    cases hs
    exact quiet
  refine .cons rfl trivial ?_
  iterate 3 refine .cons rfl (timely_of_calls rfl nofun nofun) ?_
  iterate 4 refine .cons rfl (timely_of_calls rfl nofun (quiet rfl)) ?_
  refine .cons rfl trivial ?_
  refine .cons rfl (timely_of_calls rfl nofun nofun) ?_
  refine .cons rfl trivial ?_
  refine .cons rfl (timely_of_calls rfl nofun nofun) ?_
  refine .cons rfl (timely_of_recent rfl rfl) ?_
  iterate 2 refine .cons rfl (timely_of_calls rfl nofun nofun) ?_
  trivial

theorem executing_session_reaped :
    ∃ w, ingressProgram.machine.run (.init (.new 600 900 3600 0))
      (updating 0 ++ [.start 1 .clock, .advance 1 (.tick 600)] ++
        reapingFirst 2 ++ [.advance 2 .go, .advance 2 .go, .advance 2 .go, .advance 2 .go, .advance 2 .go,
          .advance 2 .go]) =
        some w ∧
      w.calls 0 = some (.serving 0 (.running .update)) ∧ (w.shared.sessions.find? 0).map FlightClientSession.place =
        some .destroyed :=
  ⟨_, rfl, rfl, rfl⟩

end Duckgres.Proof.Ingress
