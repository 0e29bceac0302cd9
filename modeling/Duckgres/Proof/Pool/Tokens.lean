import Duckgres.Proof.Pool.Apart

/-!
# Claims and pending idle records

A claim in progress and a hot-idle record that is not persisted are tokens: each is for one worker
at one epoch. No worker in use is at the epoch of a token, and no claim is at the epoch of another
call's token; so a pending hot-idle record cannot reach the row of a worker that is in use.
-/

namespace Duckgres.Proof.Pool
open Base Duckgres.Store Duckgres.Pool Duckgres.Proof.Store

variable {s t : PoolState} {id epoch : Int} {ref : WorkerRef} {w old new : ManagedWorker}
  {phase after other : PoolPhase} {a : PoolStep}

def ClaimAt (phase : PoolPhase) (id epoch : Int) : Prop :=
  ∃ claim, claim? phase = some claim ∧ claim.record.workerID = id ∧ claim.record.ownerEpoch = epoch

def IdleAt (phase : PoolPhase) (id epoch : Int) : Prop :=
  ∃ record, pending? phase = some record ∧ isIdleState record.state = true ∧
    record.workerID = id ∧ record.ownerEpoch = epoch

theorem not_idleAt_of_claimAt (claim : ClaimAt phase id epoch) : ¬ IdleAt phase id epoch := by
  rintro ⟨record, pending, -⟩
  obtain ⟨claim, hcl, -⟩ := claim
  cases phase with
  | reserving | adopting | claiming => cases pending
  | _ => cases hcl

theorem not_claimAt (none : claim? phase = none) : ¬ ClaimAt phase id epoch := by
  rintro ⟨claim, hcl, -⟩
  rw [none] at hcl
  cases hcl

theorem not_idleAt (none : pending? phase = none) : ¬ IdleAt phase id epoch := by
  rintro ⟨record, pending, -⟩
  rw [none] at pending
  cases pending

inductive EntryMoves (s t : PoolState) (phase after : PoolPhase) (id : Int) (w' : ManagedWorker) :
    Prop
  | kept (w : ManagedWorker) (found : s.pool.workers.find? id = some w)
      (epoch : w'.ownerEpoch = w.ownerEpoch) (live : Live w' → Live w)
  | claimed (claim : ClaimAt phase id w'.ownerEpoch) (settled : ¬ Live w' ∨ ∀ id epoch, ¬ ClaimAt after id epoch)
  | refreshed (w : ManagedWorker) (row next : WorkerRecord)
      (found : s.pool.workers.find? id = some w) (foundRow : s.rows.find? id = some row)
      (later : t.rows.find? id = some next) (epoch : w.ownerEpoch = row.ownerEpoch)
      (newEpoch : w'.ownerEpoch = row.ownerEpoch + 1)
      (bumped : next.ownerEpoch = row.ownerEpoch + 1) (owner : next.owner = row.owner)
      (state : next.state = row.state) (live : Live w' → Live w)

structure FreshClaim (s t : PoolState) (id epoch : Int) : Prop where
  row : ∃ row, s.rows.find? id = some row ∧ epoch = row.ownerEpoch + 1
  later : ∃ record, t.rows.find? id = some record ∧ record.ownerEpoch = epoch ∧ isIdleState record.state = false
  map : t.pool = s.pool

structure FreshIdle (s t : PoolState) (id epoch : Int) : Prop where
  old : ∃ w, s.pool.workers.find? id = some w ∧ Live w ∧ w.ownerEpoch = epoch
  new : ∃ w, t.pool.workers.find? id = some w ∧ ¬ Live w

inductive RowMoves (s t : PoolState) (phase : PoolPhase) : Prop
  | same (rows : t.rows = s.rows)
  | foreign (op : StoreOp) (foreign : s.isForeign op = true) (rows : t.rows = (op.apply s.rows).1)
  | persists (record : WorkerRecord) (now : Nat) (pending : pending? phase = some record)
      (rows : t.rows = (s.rows.upsertWorkerRecord record now).1)

structure TokenMoves (s t : PoolState) (phase after : PoolPhase) : Prop where
  cp : t.pool.cpInstanceID = s.pool.cpInstanceID
  rows : RowMoves s t phase
  entries : ∀ id w, t.pool.workers.find? id = some w → EntryMoves s t phase after id w
  claims : ∀ id epoch, ClaimAt after id epoch → ClaimAt phase id epoch ∨ FreshClaim s t id epoch
  idles : ∀ id epoch, IdleAt after id epoch → FreshIdle s t id epoch

section Entries
variable {touched : Int}

theorem EntryMoves.same (hs : t.pool.workers = s.pool.workers) (hf : t.pool.workers.find? id = some w) :
    EntryMoves s t phase after id w :=
  .kept w (hs ▸ hf) rfl (·)

theorem EntryMoves.rewrites (hw : Rewrites s t touched old new)
    (epoch : new.ownerEpoch = old.ownerEpoch) (live : Live new → Live old)
    (hf : t.pool.workers.find? id = some w) : EntryMoves s t phase after id w := by
  by_cases isTouched : id = touched
  · subst isTouched
    rw [hw.rewritten] at hf
    cases hf
    exact .kept old hw.found epoch live
  · rw [hw.others id isTouched] at hf
    exact .kept w hf rfl (·)

theorem entries_removes (removes : Removes s t touched) (hf : t.pool.workers.find? id = some w) :
    EntryMoves s t phase after id w := by
  have ne : id ≠ touched := by
    rintro rfl
    rw [removes.removed] at hf
    cases hf
  rw [removes.others id ne] at hf
  exact .kept w hf rfl (·)

theorem entries_claimed (hw : Rewrites s t touched old new)
    (claim : ClaimAt phase touched new.ownerEpoch) (hse : ∀ id epoch, ¬ ClaimAt after id epoch)
    (hf : t.pool.workers.find? id = some w) : EntryMoves s t phase after id w := by
  by_cases isTouched : id = touched
  · subst isTouched
    rw [hw.rewritten] at hf
    cases hf
    exact .claimed claim (.inr hse)
  · rw [hw.others id isTouched] at hf
    exact .kept w hf rfl (·)

end Entries

section
variable (cp : t.pool.cpInstanceID = s.pool.cpInstanceID) (rows : RowMoves s t phase)
  (entries : ∀ id w, t.pool.workers.find? id = some w → EntryMoves s t phase after id w)
include cp rows entries

theorem TokenMoves.of_none (claim : claim? after = none) (pending : pending? after = none) :
    TokenMoves s t phase after :=
  ⟨cp, rows, entries, fun _ _ hc => absurd hc (not_claimAt claim), fun _ _ idle => absurd idle (not_idleAt pending)⟩

theorem TokenMoves.of_free (free : Free after) : TokenMoves s t phase after :=
  .of_none cp rows entries free.claim free.pending

theorem TokenMoves.of_goesOn {ref} {epoch : Int} (goesOn : GoesOn ref epoch after) :
    TokenMoves s t phase after := by
  refine ⟨cp, rows, entries, fun _ _ claim => absurd claim (not_claimAt goesOn.claim), ?_⟩
  rintro id epoch ⟨record, pending, idle, -⟩
  rw [(goesOn.pending record pending).2.2] at idle
  cases idle

theorem TokenMoves.of_claim {claim} (hcl : claim? phase = some claim) (kept : claim? after = some claim)
    (pending : pending? after = none) : TokenMoves s t phase after := by
  refine ⟨cp, rows, entries, ?_, fun _ _ idle => absurd idle (not_idleAt pending)⟩
  rintro id epoch ⟨claim', hf, at'⟩
  rw [kept] at hf
  cases hf
  exact .inl ⟨claim, hcl, at'⟩

end

theorem rowMoves_persist {record now reached} (rows : t.rows = (s.persist record now reached).rows)
    (upserts : reached = true → t.rows = (s.rows.upsertWorkerRecord record now).1 →
      RowMoves s t phase) : RowMoves s t phase := by
  unfold PoolState.persist at rows
  split at rows
  · rename_i isReached
    exact upserts isReached rows
  · exact .same rows

theorem isForeign_terminal {record now} (terminal : record.state = .retired ∨ record.state = .lost) :
    s.isForeign (.upsertWorkerRecord record now) = true := by
  rcases terminal with state | state <;> simp [PoolState.isForeign, state]

theorem rowMoves_of_moves (hv : PoolMoves s phase a t after) : RowMoves s t phase := by
  cases hv with
  | frees | shutsDown | seeks | points | checks | astray => exact .same rfl
  | claims _ foreign => exact .foreign _ foreign rfl
  | adopts _ rows | overwrites _ _ rows | reserves _ _ rows | counts _ _ rows
  | touches _ _ _ _ rows | reconnects _ _ _ rows | takes _ rows | releases _ rows
  | terminates _ rows => exact .same rows
  | refreshes _ foreign rows => exact .foreign _ foreign rows
  | @persists _ record now _ _ pending => exact rowMoves_persist rfl fun _ => .persists record now pending
  | retires _ _ terminal rows => exact rowMoves_persist rows fun _ => .foreign _ (isForeign_terminal terminal)
  | removes _ _ rows => exact .same rows
  | @retiresClaimed _ _ record target reason now =>
    exact .foreign (.markWorkerTerminalIfCurrent record target reason now) rfl rfl
  | stores foreign => exact .foreign _ foreign rfl

theorem tokenMoves_of_moves (hv : PoolMoves s phase a t after) (hat : Attached s phase) :
    TokenMoves s t phase after := by
  have rowMoves := rowMoves_of_moves hv
  cases hv with
  | frees _ free => exact .of_free rfl rowMoves (fun _ _ => .same rfl) free
  | shutsDown => exact .of_free rfl rowMoves (fun _ _ => .same rfl) ⟨rfl, rfl, rfl, rfl⟩
  | @claims _ _ _ record _ _ _ hcl _ _ pending claim =>
    refine ⟨rfl, rowMoves, fun _ _ => .same rfl, ?_, fun _ _ idle => absurd idle (not_idleAt pending)⟩
    rintro _ _ ⟨claim', hf, rfl, rfl⟩
    rw [claim claim' hf]
    obtain ⟨row, fresh, epoch, -⟩ := hcl.row
    refine .inr ⟨⟨row, fresh, epoch⟩, ⟨record, hcl.found, rfl, ?_⟩, rfl⟩
    rw [hcl.state]
    rfl
  | seeks => exact .of_claim rfl rowMoves (fun _ _ => .same rfl) rfl rfl rfl
  | points hcl => exact .of_claim rfl rowMoves (fun _ _ => .same rfl) hcl rfl rfl
  | @adopts claim _ _ adopts =>
    refine .of_claim adopts.cp rowMoves (fun id w hf => ?_) rfl rfl rfl
    by_cases isAdopted : id = claim.record.workerID
    · subst isAdopted
      rw [adopts.adopted] at hf
      cases hf
      exact .claimed ⟨claim, rfl, rfl, rfl⟩ (.inl fun live => live.1 rfl)
    · rw [adopts.others id isAdopted] at hf
      exact .kept w hf rfl (·)
  | checks =>
    exact .of_none rfl rowMoves (fun _ _ => .same rfl) rfl rfl
  | astray pointer detached =>
    obtain ⟨w, hf, -⟩ := hat _ pointer
    rw [detached] at hf
    cases hf
  | @overwrites claim _ _ _ _ _ _ _ hw _ _ state epoch free =>
    refine .of_free hw.cp rowMoves ?_ free
    rcases epoch with kept | hcl
    · exact fun _ _ => .rewrites hw kept (.congr state.symm)
    · refine fun _ _ => entries_claimed hw ⟨claim, rfl, rfl, hcl.symm⟩ ?_
      exact fun _ _ => not_claimAt free.claim
  | @reserves claim _ _ _ _ _ _ _ hw _ _ _ _ epoch goesOn =>
    refine .of_goesOn hw.cp rowMoves (fun _ _ => ?_) goesOn
    refine entries_claimed hw ⟨claim, rfl, rfl, epoch.symm⟩ ?_
    exact fun _ _ => not_claimAt goesOn.claim
  | touches used _ hf hw _ _ live epoch goesOn =>
    have entries (id : Int) (w : ManagedWorker) (hfl : t.pool.workers.find? id = some w) :
        EntryMoves s t phase after id w :=
      .rewrites hw epoch (fun _ => hat.live used hf) hfl
    rcases goesOn with free | goesOn
    · exact .of_free hw.cp rowMoves entries free
    · exact .of_goesOn hw.cp rowMoves entries goesOn
  | reconnects hf _ hw _ _ live epoch =>
    have wasLive : Live _ := hat.live rfl hf
    exact .of_none hw.cp rowMoves (fun _ _ => .rewrites hw epoch fun _ => wasLive) rfl rfl
  | counts _ hw _ _ state epoch | takes hw _ _ idle _ state epoch =>
    exact .of_none hw.cp rowMoves (fun _ _ => .rewrites hw epoch (.congr state.symm)) rfl rfl
  | @releases _ _ _ old new _ hw _ _ epoch goesOn =>
    rcases goesOn with ⟨free, state⟩ | ⟨record, rfl, hsi, hse, wasLive, isIdle⟩
    · exact .of_free hw.cp rowMoves (fun _ _ => .rewrites hw epoch (.congr state.symm)) free
    refine ⟨hw.cp, rowMoves, fun _ _ => .rewrites hw epoch fun _ => wasLive,
      fun _ _ claim => absurd claim (not_claimAt rfl), ?_⟩
    rintro _ _ ⟨record', ⟨⟩, -, rfl, rfl⟩
    rw [hsi, hse]
    exact ⟨⟨old, hw.found, wasLive, rfl⟩, ⟨new, hw.rewritten, isIdle⟩⟩
  | terminates hw _ _ state epoch =>
    exact .of_free hw.cp rowMoves (fun _ _ => .rewrites hw epoch (.congr state.symm)) ⟨rfl, rfl, rfl, rfl⟩
  | @refreshes touched op _ _ _ old new row next hw foreign rows sessions state hf later
      epoch newEpoch bumped owner rowState =>
      refine .of_free hw.cp rowMoves (fun id w hfl => ?_) ⟨rfl, rfl, rfl, rfl⟩
      by_cases isTouched : id = touched
      · subst isTouched
        rw [hw.rewritten] at hfl
        cases hfl
        exact .refreshed old row next hw.found hf later epoch newEpoch bumped owner rowState (.congr state.symm)
      · rw [hw.others id isTouched] at hfl
        exact .kept w hfl rfl (·)
  | @persists _ _ _ _ _ _ _ _ _ _ claim persisted =>
    exact .of_none (by rw [pool_persist]) rowMoves (fun _ _ => .same (by rw [pool_persist])) claim persisted
  | retires _ _ _ _ removes free | removes _ _ _ removes free =>
    exact .of_free removes.cp rowMoves (fun _ _ => entries_removes removes) free
  | retiresClaimed _ free => exact .of_free rfl rowMoves (fun _ _ => .same rfl) free
  | stores => exact .of_free rfl rowMoves (fun _ _ => .same rfl) ⟨rfl, rfl, rfl, rfl⟩

/-! ## What holds of tokens -/

theorem RowMoves.behind (hv : RowMoves s t phase) (behind : Behind s.rows id epoch) : Behind t.rows id epoch := by
  cases hv with
  | same rows => rwa [rows]
  | foreign op _ rows =>
    rw [rows]
    exact behind.succeed (.apply op)
  | persists record now _ rows =>
    rw [rows]
    exact behind.succeed (.apply (.upsertWorkerRecord record now))

theorem busy_foreign {op} (foreign : s.isForeign op = true)
    (behind : Behind s.rows id epoch) (busy : Busy s.pool.cpInstanceID s.rows id epoch) :
    Busy s.pool.cpInstanceID (op.apply s.rows).1 id epoch := by
  cases op with
  | upsertWorkerRecord _ now =>
    refine busy.upsert behind now fun _ _ owned => ?_
    simp only [PoolState.isForeign, owned, ne_eq, not_true_eq_false, decide_false, Bool.false_or,
      Bool.or_eq_true, decide_eq_true_eq] at foreign
    rcases foreign with state | state <;> rw [state] <;> rfl
  | _ =>
    refine busy.kept behind (.apply _) (rowsKept_apply _ ?_)
    simp

theorem RowMoves.busy (hv : RowMoves s t phase) (behind : Behind s.rows id epoch)
    (busy : Busy s.pool.cpInstanceID s.rows id epoch) (notIdle : ¬ IdleAt phase id epoch) :
    Busy s.pool.cpInstanceID t.rows id epoch := by
  cases hv with
  | same rows => rwa [rows]
  | foreign _ foreign rows =>
    rw [rows]
    exact busy_foreign foreign behind busy
  | persists record now pending rows =>
    rw [rows]
    refine busy.upsert behind now fun hsi hse _ => ?_
    by_contra idle
    exact notIdle ⟨record, pending, by simpa using idle, hsi.symm, hse⟩

def NotUsedAt (s : PoolState) (id epoch : Int) : Prop :=
  ∀ w, s.pool.workers.find? id = some w → Live w → w.ownerEpoch ≠ epoch

structure Entries (s : PoolState) : Prop where
  behind : ∀ id w, s.pool.workers.find? id = some w → Behind s.rows id w.ownerEpoch
  busy : ∀ id w, s.pool.workers.find? id = some w → Live w → Busy s.pool.cpInstanceID s.rows id w.ownerEpoch

structure OwnTokens (s : PoolState) (phase : PoolPhase) : Prop where
  claimBehind : ∀ id epoch, ClaimAt phase id epoch → Behind s.rows id epoch
  claimBusy : ∀ id epoch, ClaimAt phase id epoch → Busy s.pool.cpInstanceID s.rows id epoch
  claimUnused : ∀ id epoch, ClaimAt phase id epoch → NotUsedAt s id epoch
  idleBehind : ∀ id epoch, IdleAt phase id epoch → Behind s.rows id epoch
  idleUnused : ∀ id epoch, IdleAt phase id epoch → NotUsedAt s id epoch

def Exclusive (phase other : PoolPhase) : Prop :=
  ∀ id epoch, ClaimAt phase id epoch → ¬ ClaimAt other id epoch ∧ ¬ IdleAt other id epoch

theorem Entries.step (entries : Entries s) (own : OwnTokens s phase) (hv : TokenMoves s t phase after) : Entries t := by
  constructor
  · intro id w hf
    cases hv.entries id w hf with
    | kept old hfd epoch =>
      rw [epoch]
      exact hv.rows.behind (entries.behind id old hfd)
    | claimed claim => exact hv.rows.behind (own.claimBehind id _ claim)
    | refreshed _ _ next _ _ later _ newEpoch bumped => exact ⟨next, later, by rw [newEpoch, bumped]⟩
  · intro id w hf live
    rw [hv.cp]
    cases hv.entries id w hf with
    | kept old hfd epoch wasLive =>
      rw [epoch]
      refine hv.rows.busy (entries.behind id old hfd) (entries.busy id old hfd (wasLive live)) fun idle => ?_
      exact own.idleUnused id _ idle old hfd (wasLive live) rfl
    | claimed claim =>
      exact hv.rows.busy (own.claimBehind id _ claim) (own.claimBusy id _ claim) (not_idleAt_of_claimAt claim)
    | refreshed old row _ hfd fresh later epoch _ _ owner state wasLive =>
      intro row' hfr' _ owned
      rw [later] at hfr'
      cases hfr'
      rw [state]
      exact entries.busy id old hfd (wasLive live) row fresh epoch.symm (owner.symm.trans owned)

theorem NotUsedAt.step (hun : NotUsedAt s id epoch) (behind : Behind s.rows id epoch) (hv : TokenMoves s t phase after)
    (unsettled : ClaimAt phase id epoch → ¬ ∀ id epoch, ¬ ClaimAt after id epoch) :
    NotUsedAt t id epoch := by
  intro w hf live hs
  cases hv.entries id w hf with
  | kept old hfd hse wasLive => exact hun old hfd (wasLive live) (hse.symm.trans hs)
  | claimed claim settled =>
    rcases settled with notLive | none
    · exact notLive live
    · exact unsettled (hs ▸ claim) none
  | refreshed _ _ _ _ fresh =>
    obtain ⟨row', hfr', le⟩ := behind
    rw [fresh] at hfr'
    cases hfr'
    omega

theorem OwnTokens.step (own : OwnTokens s phase) (entries : Entries s)
    (hv : TokenMoves s t phase after) : OwnTokens t after where
  claimBehind id epoch claim := by
    rcases hv.claims id epoch claim with kept | fresh
    · exact hv.rows.behind (own.claimBehind id epoch kept)
    · obtain ⟨record, hf, hs, -⟩ := fresh.later
      exact ⟨record, hf, hs.ge⟩
  claimBusy id epoch claim := by
    rw [hv.cp]
    rcases hv.claims id epoch claim with kept | fresh
    · exact hv.rows.busy (own.claimBehind id epoch kept) (own.claimBusy id epoch kept) (not_idleAt_of_claimAt kept)
    obtain ⟨record, hf, -, busy⟩ := fresh.later
    intro row unused _ _
    rw [hf] at unused
    cases unused
    exact busy
  claimUnused id epoch claim := by
    rcases hv.claims id epoch claim with kept | fresh
    · exact (own.claimUnused id epoch kept).step (own.claimBehind id epoch kept) hv fun _ none => none id epoch claim
    intro w hf _ hs
    rw [fresh.map] at hf
    obtain ⟨row, unused, epochRow⟩ := fresh.row
    obtain ⟨row', hfr', le⟩ := entries.behind id w hf
    rw [unused] at hfr'
    cases hfr'
    omega
  idleBehind id epoch idle := by
    obtain ⟨w, hf, -, rfl⟩ := (hv.idles id epoch idle).old
    exact hv.rows.behind (entries.behind id w hf)
  idleUnused id epoch idle := by
    obtain ⟨w, hf, notLive⟩ := (hv.idles id epoch idle).new
    intro w' hf' live
    rw [hf] at hf'
    cases hf'
    exact absurd live notLive

theorem OwnTokens.step_other (tokens : OwnTokens s other) (exclusive : Exclusive phase other)
    (exclusive' : Exclusive other phase) (hv : TokenMoves s t phase after) :
    OwnTokens t other where
  claimBehind id epoch claim := hv.rows.behind (tokens.claimBehind id epoch claim)
  claimBusy id epoch claim := by
    rw [hv.cp]
    exact hv.rows.busy (tokens.claimBehind id epoch claim) (tokens.claimBusy id epoch claim)
      (exclusive' id epoch claim).2
  claimUnused id epoch claim := by
    exact (tokens.claimUnused id epoch claim).step (tokens.claimBehind id epoch claim) hv
      fun own => absurd claim (exclusive id epoch own).1
  idleBehind id epoch idle := hv.rows.behind (tokens.idleBehind id epoch idle)
  idleUnused id epoch idle := by
    exact (tokens.idleUnused id epoch idle).step (tokens.idleBehind id epoch idle) hv
      fun own => absurd idle (exclusive id epoch own).2

theorem FreshClaim.not_behind (fresh : FreshClaim s t id epoch) : ¬ Behind s.rows id epoch := by
  rintro ⟨row', hfr', le⟩
  obtain ⟨row, unused, hs⟩ := fresh.row
  rw [unused] at hfr'
  cases hfr'
  omega

theorem Exclusive.step (exclusive : Exclusive phase other) (tokens : OwnTokens s other)
    (hv : TokenMoves s t phase after) : Exclusive after other := by
  intro id epoch claim
  rcases hv.claims id epoch claim with kept | fresh
  · exact exclusive id epoch kept
  · exact ⟨fun ht => fresh.not_behind (tokens.claimBehind id epoch ht),
      fun idle => fresh.not_behind (tokens.idleBehind id epoch idle)⟩

theorem Exclusive.step_other (exclusive : Exclusive other phase) (tokens : OwnTokens s other)
    (hv : TokenMoves s t phase after) : Exclusive other after := by
  intro id epoch claim
  constructor
  · intro own
    rcases hv.claims id epoch own with kept | fresh
    · exact (exclusive id epoch claim).1 kept
    · exact fresh.not_behind (tokens.claimBehind id epoch claim)
  · intro idle
    obtain ⟨w, hf, live, hs⟩ := (hv.idles id epoch idle).old
    exact tokens.claimUnused id epoch claim w hf live hs

structure Tokens (w : PoolWorld) : Prop where
  apart : Apart w
  entries : Entries w.shared
  own : ∀ call c, w.calls call = some c → OwnTokens w.shared c.phase
  exclusive : ∀ first second c d, first ≠ second → w.calls first = some c →
    w.calls second = some d → Exclusive c.phase d.phase ∧ Exclusive d.phase c.phase

theorem ownTokens_of_none (claim : claim? phase = none) (pending : pending? phase = none) : OwnTokens s phase where
  claimBehind _ _ at' := absurd at' (not_claimAt claim)
  claimBusy _ _ at' := absurd at' (not_claimAt claim)
  claimUnused _ _ at' := absurd at' (not_claimAt claim)
  idleBehind _ _ at' := absurd at' (not_idleAt pending)
  idleUnused _ _ at' := absurd at' (not_idleAt pending)

theorem tokens_step {w later} {step} (tokens : Tokens w)
    (undisturbed : Undisturbed w step) (ha : poolProgram.machine.step w step = some later) :
    Tokens later := by
  have takes := Program.takes_of_step ha
  have hne := apart_takes tokens.apart undisturbed takes
  cases takes with
  | @start _ request =>
    have free : Free (poolProgram.start request).phase := by cases request <;> exact ⟨rfl, rfl, rfl, rfl⟩
    refine ⟨hne, tokens.entries, World.forall_calls_set
      (ownTokens_of_none free.claim free.pending) fun other d _ => tokens.own other d,
      World.forall_pairs_set (fun _ _ => And.symm) (fun other d _ _ => ?_) tokens.exclusive⟩
    exact ⟨fun _ _ claim => absurd claim (not_claimAt free.claim),
      fun _ _ _ => ⟨not_claimAt free.claim, not_idleAt free.pending⟩⟩
  | @advance call _ c _ _ hf hd =>
    have hv := tokenMoves_of_moves (moves_of_step hd).1 (tokens.apart.attached call c hf)
    have own := tokens.own call c hf
    have exclusive (other : Nat) (d : PoolCall) (ne : other ≠ call)
        (hfo : w.calls other = some d) :
        Exclusive c.phase d.phase ∧ Exclusive d.phase c.phase :=
      tokens.exclusive call other c d ne.symm hf hfo
    refine ⟨hne, tokens.entries.step own hv, ?_, ?_⟩
    · exact World.forall_calls_set (own.step tokens.entries hv) fun other d ne hfo =>
        (tokens.own other d hfo).step_other (exclusive other d ne hfo).1 (exclusive other d ne hfo).2 hv
    refine World.forall_pairs_set (fun _ _ => And.symm) (fun other d ne hfo => ?_) tokens.exclusive
    have others := tokens.own other d hfo
    exact ⟨(exclusive other d ne hfo).1.step others hv, (exclusive other d ne hfo).2.step_other others hv⟩

theorem tokens_init (fresh : s.Fresh) : Tokens (.init s) where
  apart := apart_init s
  entries := {
    behind := fresh.epoch
    busy := fun id w hf live => ((fresh.lifecycle id w hf).elim live.1 live.2).elim }
  own _ _ hf := by cases hf
  exclusive _ _ _ _ _ hf := by cases hf

end Duckgres.Proof.Pool
