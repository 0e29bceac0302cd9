import Duckgres.Proof.Process.Spawning

namespace Duckgres.Proof.Process
open Base Duckgres.Process ManagedWorker Table FlightWorkerPool World

variable {p q : FlightWorkerPool} {phase next : PoolPhase} {w after : PoolWorld} {id : Nat} {row later : ManagedWorker}

def holds (id : Nat) : PoolPhase → Bool
  | .holding held => held = id
  | _ => false

def uncounted : PoolPhase → Option Nat
  | .spawned id | .looking id | .claiming id => some id
  | _ => none

structure RowStep (phase next : PoolPhase) (id : Nat) (row later : ManagedWorker) : Prop where
  sessions : later.activeSessions + (holds id phase).toNat = row.activeSessions + (holds id next).toNat
  removed : row.place = .pooled →
    later.place = .pooled ∨ later.activeSessions = 0 ∧ (phase = .holding id ∨ row.lastUsed ≠ none)
  unused : row.lastUsed = none → later.lastUsed = none ∨ phase = .holding id
  exited : later.exited = row.exited ∨ phase = .exiting id
  starting : row.place = .starting → later.place = .starting ∨ spawner phase = some id
  pooled : later.place = .pooled → row.place = .pooled ∨ phase = .started id

theorem rowStep_refl (hs : holds id phase = holds id next) : RowStep phase next id row row :=
  ⟨by rw [hs], .inl, .inl, .inl rfl, .inl, .inl⟩

theorem rowStep_change {u hk} (held : ∀ other, other ≠ hk →
      holds other phase = holds other next)
    (own : ∀ row, p.workers.find? hk = some row → RowStep phase next hk row ((u.apply row).getD row))
    (hf : p.workers.find? id = some row) :
    ∃ later, (p.change hk u).workers.find? id = some later ∧ RowStep phase next id row later := by
  by_cases hs : id = hk
  · subst hs
    refine ⟨(u.apply row).getD row, ?_, own row hf⟩
    rw [change, find?_modify, hf]
    rfl
  · refine ⟨row, ?_, rowStep_refl (held id hs)⟩
    rw [change, find?_modify_of_ne _ _ hs, hf]

theorem holds_of_ne {held} (hne : id ≠ held) : holds id (.holding held) = false := by
  simp [holds, Ne.symm hne]

theorem eq_holding_of_holds (holding : holds id phase = true) : phase = .holding id := by
  cases phase with
  | holding held =>
    have hs : held = id := by simpa [holds] using holding
    rw [hs]
  | _ => cases holding

theorem taker_of_moves (moves : PoolMoves p phase q next) (holding : holds id next = true) :
    phase = .acquiring ∨ phase = .claiming id := by
  cases moves with
  | claims => exact .inl rfl
  | counts =>
    have hs := eq_holding_of_holds holding
    cases hs
    exact .inr rfl
  | _ => cases holding

theorem rowStep_reap (now : Int) (order : List Nat) (hf : p.workers.find? id = some row) :
    ∃ later, (p.reapIdleWorkers now order).workers.find? id = some later ∧ RowStep .reaping .returned id row later := by
  refine reapFrom_induction (P := fun q => ∃ later, q.workers.find? id = some later ∧
    RowStep .reaping .returned id row later) now ?_ order _ ⟨row, hf, rowStep_refl rfl⟩
  intro q hk reaped lastUsed ⟨later, hfl, step⟩ foundReaped idle used
  by_cases hs : id = hk
  · subst hs
    cases hfl.symm.trans foundReaped
    have wasUsed : row.lastUsed ≠ none := by
      intro none
      rcases step.unused none with hun | held
      · cases hun.symm.trans used
      · cases held
    by_cases pooled : reaped.place = .pooled
    · have hap : remove.apply reaped = some { reaped with place := .removed } :=
        Update.guarded_apply.mpr ⟨by simpa using pooled, rfl⟩
      refine ⟨_, find?_modify_of_apply foundReaped hap, step.sessions, fun _ => .inr ⟨idle, .inr wasUsed⟩,
        step.unused, step.exited, fun starting => ?_, nofun⟩
      rcases step.starting starting with still | spawns
      · cases pooled.symm.trans still
      · cases spawns
    · have missed : remove.apply reaped = none := by
        simp [remove, Update.guarded, pooled]
      refine ⟨reaped, ?_, step⟩
      rw [change, find?_modify, foundReaped, Option.map_some, missed]
      rfl
  · refine ⟨later, ?_, step⟩
    rw [change, find?_modify_of_ne _ _ hs, hfl]

/-! ## What a call relies on -/

def Fits (p : FlightWorkerPool) : PoolPhase → Prop
  | .started id =>
    ∃ row, p.workers.find? id = some row ∧ row.place = .starting ∧ row.exited = false ∧ row.lastUsed = none
  | .spawned id | .looking id | .claiming id =>
    ∃ row, p.workers.find? id = some row ∧ row.place = .pooled ∧ row.activeSessions = 0 ∧ row.lastUsed = none
  | .holding id => ∃ row, p.workers.find? id = some row ∧ row.place = .pooled
  | _ => True

theorem clean_eq_self (alive : ∀ row ∈ p.workers.rows, row.place = .pooled → row.exited = false) :
    p.cleanDeadWorkersLocked = p := by
  have hs : p.workers.updateAll cleanDead = p.workers := by
    apply ext
    refine (List.map_congr_left fun row hm => ?_).trans (List.map_id _)
    have missed : cleanDead.apply row = none := by
      simpa [cleanDead, Update.guarded] using alive row hm
    rw [missed]
    rfl
  rw [cleanDeadWorkersLocked, hs]

theorem rowStep_release {now retire} (pooled : row.place = .pooled) (hc : 0 < row.activeSessions) :
    RowStep (.holding id) .returned id row (((release now retire).apply row).getD row) := by
  have hap : ((release now retire).apply row).getD row =
      if retire && row.activeSessions - 1 = 0 then
        { row with activeSessions := row.activeSessions - 1, place := .removed }
      else { row with activeSessions := row.activeSessions - 1, lastUsed := some now } := by
    simp [release, Update.guarded, pooled]
  rw [hap]
  split
  · rename_i last
    have last : row.activeSessions - 1 = 0 := by simpa using (Bool.and_eq_true_iff.mp last).2
    refine ⟨?_, fun _ => .inr ⟨last, .inl rfl⟩, .inl, .inl rfl, fun starting => ?_, by rintro ⟨⟩⟩
    · simp [holds]
      omega
    · cases pooled.symm.trans starting
  · refine ⟨?_, .inl, fun _ => .inr rfl, .inl rfl, .inl, .inl⟩
    simp [holds]
    omega

theorem rowStep_retire (pooled : row.place = .pooled) (hc : 0 < row.activeSessions) :
    RowStep (.holding id) .returned id row ((retireIfNoSessions.apply row).getD row) := by
  have hap : (retireIfNoSessions.apply row).getD row =
      if row.activeSessions - 1 = 0 then { row with activeSessions := row.activeSessions - 1, place := .removed }
      else { row with activeSessions := row.activeSessions - 1 } := by
    simp [retireIfNoSessions, Update.guarded, pooled]
  rw [hap]
  split
  · rename_i last
    refine ⟨?_, fun _ => .inr ⟨last, .inl rfl⟩, .inl, .inl rfl, fun starting => ?_, by rintro ⟨⟩⟩
    · simp [holds]
      omega
    · cases pooled.symm.trans starting
  · refine ⟨?_, .inl, .inl, .inl rfl, .inl, .inl⟩
    simp [holds]
    omega

theorem rowStep_claim (before : holds id phase = false) : RowStep phase (.holding id) id row
    ((claim.apply row).getD row) := by
  change RowStep phase (.holding id) id row { row with activeSessions := row.activeSessions + 1 }
  refine ⟨?_, .inl, .inl, .inl rfl, .inl, .inl⟩
  rw [before]
  simp [holds]

theorem rowStep_of_moves (alive : ∀ row ∈ p.workers.rows, row.place = .pooled → row.exited = false)
    (suits : Suits p phase) (fits : Fits p phase)
    (hc : ∀ id row, phase = .holding id → p.workers.find? id = some row → 0 < row.activeSessions)
    (hor : ∀ id, phase ≠ .retiring id ∧ phase ≠ .checking id) (moves : PoolMoves p phase q next)
    (hf : p.workers.find? id = some row) :
    ∃ later, q.workers.find? id = some later ∧ RowStep phase next id row later := by
  cases moves with
  | claims =>
    rw [clean_eq_self alive]
    exact rowStep_change (fun other hne => (holds_of_ne hne).symm) (fun row _ => rowStep_claim rfl) hf
  | counts => exact rowStep_change (fun other hne => (holds_of_ne hne).symm) (fun row _ => rowStep_claim rfl) hf
  | spawns | retries =>
    rw [clean_eq_self alive]
    exact ⟨row, hf, rowStep_refl rfl⟩
  | starts hi => exact ⟨row, find?_insert_of_some hi hf, rowStep_refl rfl⟩
  | publishes =>
    refine rowStep_change (fun _ _ => rfl) (fun row _ => ?_) hf
    exact ⟨rfl, fun _ => .inl rfl, .inl, .inl rfl, fun _ => .inr rfl, fun _ => .inr rfl⟩
  | abandons =>
    obtain ⟨killed, foundKilled, starting⟩ := suits
    have starting : killed.place = .starting := by simpa [isStarting] using starting
    refine rowStep_change (fun _ _ => rfl) (fun row fresh => ?_) hf
    cases foundKilled.symm.trans fresh
    refine ⟨rfl, fun pooled => ?_, .inl, .inl rfl, fun _ => .inr rfl, by rintro ⟨⟩⟩
    cases starting.symm.trans pooled
  | @releases held =>
    obtain ⟨held', foundHeld, pooled⟩ := fits
    refine rowStep_change (fun other => holds_of_ne) (fun row fresh => ?_) hf
    cases foundHeld.symm.trans fresh
    exact rowStep_release pooled (hc held _ rfl foundHeld)
  | @retires held =>
    obtain ⟨held', foundHeld, pooled⟩ := fits
    refine rowStep_change (fun other => holds_of_ne) (fun row fresh => ?_) hf
    cases foundHeld.symm.trans fresh
    exact rowStep_retire pooled (hc held _ rfl foundHeld)
  | crashes gone =>
    obtain ⟨held, foundHeld, pooled⟩ := fits
    simp [FlightWorkerPool.pooled, foundHeld, pooled] at gone
  | reaps => exact rowStep_reap _ _ hf
  | @removes hk _ at' =>
    rcases at' with rfl | rfl
    · exact absurd rfl (hor hk).1
    · exact absurd rfl (hor hk).2
  | exits =>
    refine rowStep_change (fun _ _ => rfl) (fun row _ => ?_) hf
    exact ⟨rfl, .inl, .inl, .inr rfl, .inl, .inl⟩
  | _ => exact ⟨row, hf, rowStep_refl rfl⟩

/-! ## Runs without crashes -/

/-- A process exits only after its worker has been taken out of the pool or killed by its spawner. -/
def Ends (w : PoolWorld) (c : PoolPhase) : Prop :=
  ∀ id row, c = .exiting id → w.shared.workers.find? id = some row →
    row.place = .removed ∨ ∃ spawner, w.calls spawner = some (.killing id)

def Orderly (w : PoolWorld) : PoolWorldStep → Prop
  | .start _ (.retireWorker _) | .start _ (.healthCheck _) => False
  | .start _ _ => True
  | .advance call _ => ∀ c, w.calls call = some c → Ends w c

/-- No acquire takes a worker whose spawner has not yet counted its own session on it. -/
def TakesCounted (w : PoolWorld) : PoolWorldStep → Prop
  | .advance call (.choose id) => w.calls call = some .acquiring →
      ∀ other c, w.calls other = some c → uncounted c ≠ some id
  | _ => True

structure Held (w : PoolWorld) : Prop where
  spawning : Spawning w
  alive : ∀ row ∈ w.shared.workers.rows, row.place = .pooled → row.exited = false
  counted : ∀ id row, w.shared.workers.find? id = some row → row.activeSessions = (w.those (holds id)).ncard
  fits : ∀ call c, w.calls call = some c → Fits w.shared c
  orderly : ∀ call c, w.calls call = some c → ∀ id, c ≠ .retiring id ∧ c ≠ .checking id

theorem Held.pooled_of_holds (held : Held w) {call c} (hf : w.calls call = some c)
    (holding : holds id c = true) : ∃ row, w.shared.workers.find? id = some row ∧ row.place = .pooled := by
  have fits := held.fits call c hf
  rwa [eq_holding_of_holds holding] at fits

theorem Held.sessions_pos (held : Held w) {call c} (hf : w.calls call = some c)
    (holding : holds id c = true) (found : w.shared.workers.find? id = some row) : 0 < row.activeSessions := by
  have bound := held.spawning.finite.toNat_le_ncard (p := holds id) hf
  rw [holding, ← held.counted id row found] at bound
  exact bound

theorem Held.unheld (held : Held w) (id : Nat)
    (elsewhere : ∀ row, w.shared.workers.find? id = some row → row.place ≠ .pooled) :
    (w.those (holds id)).ncard = 0 := by
  rw [those_eq_empty, Set.ncard_empty]
  intro call c hf
  by_contra holding
  obtain ⟨row, fresh, pooled⟩ := held.pooled_of_holds hf (by simpa using holding)
  exact elsewhere row fresh pooled

theorem started_of_effect (effect : Effect p phase q next) (before : p.workers.find? id = none)
    (now : q.workers.find? id = some later) : later = ⟨id, .starting, false, 0, none⟩ ∧ next = .started id := by
  cases effect with
  | unharmed unharmed =>
    rw [(unharmed.unknown id).mpr before] at now
    cases now
  | @starts hk _ _ hi result then' =>
    subst result then'
    by_cases hs : id = hk
    · subst hs
      cases (find?_insert hi).symm.trans now
      exact ⟨rfl, rfl⟩
    · have unchanged := find?_insert_of_ne hi hs
      cases (unchanged.trans before).symm.trans now
  | settles _ _ _ _ result | exits _ result =>
    subst result
    rw [find?_change_eq_none.mpr before] at now
    cases now

section Step
variable {call : Nat} {c d : PoolPhase} (held : Held w) (hf : w.calls call = some c) (moves : PoolMoves w.shared c q d)
include held hf moves

theorem Held.rowStep (found : w.shared.workers.find? id = some row) :
    ∃ later, q.workers.find? id = some later ∧ RowStep c d id row later := by
  refine rowStep_of_moves held.alive (held.spawning.suits call c hf) (held.fits call c hf) ?_
    (held.orderly call c hf) moves found
  intro hk hc isHolding foundCounted
  exact held.sessions_pos hf (by simp [isHolding, holds]) foundCounted

theorem Held.counted_step (hfl : q.workers.find? id = some later) :
    later.activeSessions = ((w.set q call d).those (holds id)).ncard := by
  have balance := held.spawning.finite.ncard_those_set q call d (holds id)
  rw [hf, Option.any_some] at balance
  cases before : w.shared.workers.find? id with
  | none =>
    obtain ⟨new, started⟩ := started_of_effect (effect_of_moves held.spawning.known moves) before hfl
    have nobody := held.unheld id fun row fresh => by cases before.symm.trans fresh
    have idle : (w.those (holds id)).ncard + (holds id d).toNat = 0 := by
      rw [nobody, started]
      rfl
    rw [new]
    change 0 = _
    omega
  | some row =>
    obtain ⟨other, hfo, step⟩ := held.rowStep hf moves before
    cases hfl.symm.trans hfo
    have sessions := step.sessions
    rw [held.counted id row before] at sessions
    omega

theorem Held.alive_step
    (ends : Ends w c) (hfl : q.workers.find? id = some later) (pooled : later.place = .pooled) :
    later.exited = false := by
  cases before : w.shared.workers.find? id with
  | none =>
    obtain ⟨new, -⟩ := started_of_effect (effect_of_moves held.spawning.known moves) before hfl
    rw [new] at pooled
    cases pooled
  | some row =>
    obtain ⟨other, hfo, step⟩ := held.rowStep hf moves before
    cases hfl.symm.trans hfo
    have wasAlive : row.exited = false := by
      rcases step.pooled pooled with wasPooled | isStarted
      · exact held.alive row (find?_eq_some.mp before).1 wasPooled
      have fits := held.fits call c hf
      rw [isStarted] at fits
      obtain ⟨started, foundStarted, -, alive, -⟩ := fits
      cases before.symm.trans foundStarted
      exact alive
    rcases step.exited with hs | isExiting
    · exact hs.trans wasAlive
    exfalso
    have wasPooled : row.place = .pooled := by
      rcases step.pooled pooled with wasPooled | isStarted
      · exact wasPooled
      · cases isExiting.symm.trans isStarted
    rcases ends id row isExiting before with removed | ⟨spawner, killing⟩
    · cases wasPooled.symm.trans removed
    · obtain ⟨killed, foundKilled, starting⟩ := held.spawning.suits spawner _ killing
      cases before.symm.trans foundKilled
      simp [isStarting, wasPooled] at starting

theorem Held.fits_own : Fits q d := by
  have fits := held.fits call c hf
  cases moves with
  | @claims _ row fresh live =>
    have pooled : row.place = .pooled := by
      simpa using (Bool.and_eq_true_iff.mp live).1
    exact ⟨_, find?_modify_of_apply fresh rfl, pooled⟩
  | starts hi => exact ⟨_, find?_insert hi, rfl, rfl, rfl⟩
  | @publishes id =>
    obtain ⟨row, fresh, starting, -, hun⟩ := fits
    have nobody := held.unheld id fun other hfo pooled => by
      cases fresh.symm.trans hfo
      cases starting.symm.trans pooled
    rw [← held.counted id row fresh] at nobody
    exact ⟨_, find?_modify_of_apply fresh rfl, rfl, nobody, hun⟩
  | spawned | finds => exact fits
  | counts =>
    obtain ⟨row, fresh, pooled, -⟩ := fits
    exact ⟨_, find?_modify_of_apply fresh rfl, pooled⟩
  | _ => trivial

theorem Held.started_other (ends : Ends w c) {other} (hne : other ≠ call) (hfo : w.calls other = some (.started id)) :
    Fits q (.started id) := by
  obtain ⟨row, fresh, starting, alive, hun⟩ := held.fits other _ hfo
  obtain ⟨later, hfl, step⟩ := held.rowStep hf moves fresh
  refine ⟨later, hfl, ?_, ?_, ?_⟩
  · rcases step.starting starting with hs | spawns
    · exact hs
    · exact absurd rfl (held.spawning.apart call other c _ hne.symm hf hfo id spawns)
  · rcases step.exited with hs | isExiting
    · exact hs.trans alive
    · exfalso
      rcases ends id row isExiting fresh with removed | ⟨spawner, killing⟩
      · cases starting.symm.trans removed
      · have different : spawner ≠ other := by
          rintro rfl
          cases killing.symm.trans hfo
        exact absurd rfl (held.spawning.apart spawner other _ _ different killing hfo id rfl)
  · rcases step.unused hun with hs | isHolding
    · exact hs
    · obtain ⟨holding, foundHolding, pooled⟩ :=
        held.pooled_of_holds hf (show holds id c = true by simp [isHolding, holds])
      cases fresh.symm.trans foundHolding
      cases starting.symm.trans pooled

theorem Held.uncounted_other (takes : c = .acquiring → d ≠ .holding id) (spawns : spawner c ≠ some id)
    (found : w.shared.workers.find? id = some row) (pooled : row.place = .pooled) (idle : row.activeSessions = 0)
    (hun : row.lastUsed = none) :
    ∃ later, q.workers.find? id = some later ∧ later.place = .pooled ∧ later.activeSessions = 0 ∧
      later.lastUsed = none := by
  obtain ⟨later, hfl, step⟩ := held.rowStep hf moves found
  have before : holds id c = false := by
    by_contra holding
    have hc := held.sessions_pos hf (by simpa using holding) found
    omega
  have notHolding : c ≠ .holding id := by
    rintro rfl
    simp [holds] at before
  have afterwards : holds id d = false := by
    by_contra holding
    rcases taker_of_moves moves (by simpa using holding) with isAcquiring | isClaiming
    · exact takes isAcquiring (eq_holding_of_holds (by simpa using holding))
    · exact spawns (by rw [isClaiming]; rfl)
  have sessions := step.sessions
  rw [before, afterwards, idle] at sessions
  refine ⟨later, hfl, ?_, sessions, ?_⟩
  · rcases step.removed pooled with hs | ⟨-, isHolding | used⟩
    · exact hs
    · exact absurd isHolding notHolding
    · exact absurd hun used
  · rcases step.unused hun with hs | isHolding
    · exact hs
    · exact absurd isHolding notHolding

theorem Held.holding_other
    {other} (hne : other ≠ call) (hfo : w.calls other = some (.holding id)) : Fits q (.holding id) := by
  obtain ⟨row, fresh, pooled⟩ := held.fits other _ hfo
  obtain ⟨later, hfl, step⟩ := held.rowStep hf moves fresh
  refine ⟨later, hfl, ?_⟩
  rcases step.removed pooled with hs | ⟨idle, -⟩
  · exact hs
  exfalso
  have still : (w.set q call d).calls other = some (.holding id) := (calls_set_of_ne _ _ _ hne).trans hfo
  have finite : (w.set q call d).Finite := held.spawning.finite.set
  have bound := finite.toNat_le_ncard (p := holds id) still
  have hc := held.counted_step hf moves hfl
  simp only [holds, decide_true, Bool.toNat_true] at bound
  omega

theorem Held.fits_other
    (ends : Ends w c) (takes : ∀ id, c = .acquiring → d = .holding id → ∀ other e, w.calls other = some e →
      uncounted e ≠ some id) {other e} (hne : other ≠ call)
    (hfo : w.calls other = some e) : Fits q e := by
  have fits := held.fits other e hfo
  have spawns (id : Nat) (spawns : spawner e = some id) : spawner c ≠ some id :=
    held.spawning.apart other call e c hne hfo hf id spawns
  cases e with
  | started => exact held.started_other hf moves ends hne hfo
  | holding => exact held.holding_other hf moves hne hfo
  | spawned id | looking id | claiming id =>
    obtain ⟨row, fresh, pooled, idle, hun⟩ := fits
    exact held.uncounted_other hf moves (fun isAcquiring isHolding => takes id isAcquiring isHolding other _ hfo rfl)
      (spawns id rfl) fresh pooled idle hun
  | _ => trivial

end Step

theorem choice_of_holding {a} (hd : p.step .acquiring a = some (q, .holding id)) : a = .choose id := by
  cases a with
  | choose choice =>
    change p.acquireWorker choice = some (q, .holding id) at hd
    unfold acquireWorker beginSpawn at hd
    grind
  | _ => cases hd

theorem Held.step {step} (held : Held w) (hor : Orderly w step) (hc : TakesCounted w step)
    (ha : poolProgram.machine.step w step = some after) : Held after := by
  have spawning := held.spawning.step ha
  cases Program.takes_of_step ha with
  | @start call request hun =>
    refine ⟨spawning, held.alive, ?_, ?_, ?_⟩
    · intro id row fresh
      have balance := held.spawning.finite.ncard_those_set w.shared call (poolProgram.start request) (holds id)
      have idle : holds id (poolProgram.start request) = false := by cases request <;> rfl
      rw [hun, idle, Option.any_none, Nat.add_right_cancel_iff] at balance
      rw [balance]
      exact held.counted id row fresh
    · apply forall_calls_set
      · cases request <;> trivial
      · exact fun other e _ => held.fits other e
    · apply forall_calls_set
      · intro id
        cases request with
        | retireWorker | healthCheck => cases hor
        | _ => exact ⟨nofun, nofun⟩
      · exact fun other e _ => held.orderly other e
  | @advance _ _ c _ _ hf hd =>
    have moves := moves_of_step hd
    have ends : Ends w c := hor c hf
    refine ⟨spawning, ?_, ?_, ?_, ?_⟩
    · intro row hm pooled
      exact held.alive_step hf moves ends (find?_eq_some.mpr ⟨hm, rfl⟩) pooled
    · intro id row fresh
      exact held.counted_step hf moves fresh
    · apply forall_calls_set
      · exact held.fits_own hf moves
      · intro other e hne hfo
        refine held.fits_other hf moves ends ?_ hne hfo
        intro id isAcquiring isHolding
        subst isAcquiring isHolding
        have chosen := choice_of_holding hd
        subst chosen
        exact hc hf
    · apply forall_calls_set
      · cases moves <;> simp
      · exact fun other e _ => held.orderly other e

theorem held_prewarmed (minWorkers maxWorkers idleTimeout : Int) (retireOnSessionEnd : Bool) :
    Held (.init (prewarmed minWorkers maxWorkers idleTimeout retireOnSessionEnd)) := by
  refine ⟨spawning_prewarmed .., ?_, ?_, ?_, ?_⟩
  · intro row hm _
    rw [(mem_warmWorkers hm).2]
  · intro id row hf
    rw [those_eq_empty fun call c hf => (by cases hf), Set.ncard_empty,
      (mem_warmWorkers (find?_eq_some.mp hf).1).2]
  · nofun
  · nofun

theorem held_workers_pooled {minWorkers maxWorkers idleTimeout : Int} {retireOnSessionEnd : Bool}
    {steps : List PoolWorldStep}
    (obeys : poolProgram.machine.Obeys (fun w step => Orderly w step ∧ TakesCounted w step)
      (.init (prewarmed minWorkers maxWorkers idleTimeout retireOnSessionEnd)) steps)
    (run : poolProgram.machine.run
      (.init (prewarmed minWorkers maxWorkers idleTimeout retireOnSessionEnd)) steps = some w) :
    ∀ call id, w.calls call = some (.holding id) → w.shared.pooled id = true := by
  intro call id holding
  have hl : Held w := by
    refine poolProgram.machine.invariant_of_obeys Held ?_ (held_prewarmed ..) obeys run
    exact fun w step after hl legal ha => hl.step legal.1 legal.2 ha
  obtain ⟨row, hf, pooled⟩ := hl.fits call _ holding
  simp [FlightWorkerPool.pooled, hf, pooled]

def spawnedSession (call : Nat) : List PoolWorldStep :=
  [.start call .session, .advance call (.choose 0), .advance call (.result true), .advance call (.result true),
    .advance call .go, .advance call .go]

theorem ends_of_calls {call : Nat} {c} (hk : w.calls call = some c) (other : ∀ id, c ≠ .exiting id) :
    ∀ d, w.calls call = some d → Ends w d := by
  intro d hf id row isExiting
  cases hk.symm.trans hf
  exact absurd isExiting (other id)

theorem held_workers_pooled_shared : ∃ w, poolProgram.machine.run (.init (prewarmed 0 1 60 true)) (spawnedSession 0 ++
        [.advance 0 .go, .start 1 .session, .advance 1 (.choose 0), .advance 0 (.releaseWorker 7)]) = some w ∧
      w.calls 1 = some (.holding 0) ∧ w.shared.pooled 0 = true := by
  refine ⟨?w, ?run, ?holding, held_workers_pooled ?_ ?run 1 0 ?holding⟩
  case run => rfl
  case holding => rfl
  refine .cons rfl ⟨trivial, trivial⟩ ?_
  refine .cons rfl ⟨ends_of_calls rfl nofun, fun _ => ?_⟩ ?_
  · apply World.forall_calls_set
    · nofun
    · nofun
  iterate 5 refine .cons rfl ⟨ends_of_calls rfl nofun, trivial⟩ ?_
  refine .cons rfl ⟨trivial, trivial⟩ ?_
  refine .cons rfl ⟨ends_of_calls rfl nofun, fun _ => ?_⟩ ?_
  · apply World.forall_calls_set
    · nofun
    · intro other d hne hf
      rcases other with _ | _ | other
      · cases hf
        nofun
      · exact absurd rfl hne
      · cases hf
  refine .cons rfl ⟨ends_of_calls rfl nofun, trivial⟩ ?_
  trivial

theorem acquired_worker_removed : poolProgram.machine.Obeys Orderly (.init (prewarmed 0 1 60 true)) (spawnedSession 0 ++
        [.start 1 .session, .advance 1 (.choose 0), .advance 1 (.releaseWorker 7), .advance 0 .go]) ∧
      ∃ w, poolProgram.machine.run (.init (prewarmed 0 1 60 true)) (spawnedSession 0 ++
          [.start 1 .session, .advance 1 (.choose 0), .advance 1 (.releaseWorker 7), .advance 0 .go]) = some w ∧
        w.calls 0 = some (.holding 0) ∧ w.shared.pooled 0 = false := by
  refine ⟨?_, _, rfl, rfl, rfl⟩
  refine .cons rfl trivial ?_
  iterate 5 refine .cons rfl (ends_of_calls rfl nofun) ?_
  refine .cons rfl trivial ?_
  iterate 3 refine .cons rfl (ends_of_calls rfl nofun) ?_
  trivial

end Duckgres.Proof.Process
