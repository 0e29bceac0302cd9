import Duckgres.Proof.Pool.Tokens
import Duckgres.Proof.Pool.PodDeletion
import Mathlib.Data.Set.Card

namespace Duckgres.Proof.Pool
open Base Duckgres.Store Duckgres.Pool Duckgres.Proof.Store

variable {s t : PoolState} {id : Int} {ref : WorkerRef} {w old new : ManagedWorker}
  {phase after other : PoolPhase} {a : PoolStep}

def Bound (phase : PoolPhase) (id : Int) : Prop := ∃ ref, phase = .holding ref ∧ ref.id = id

theorem not_bound_of_session (none : session? phase = none) : ¬ Bound phase id := by
  rintro ⟨ref, rfl, -⟩
  cases none

theorem Bound.uses (bound : Bound phase id) : ∃ ref, uses phase = some ref ∧ ref.id = id := by
  obtain ⟨ref, rfl, hs⟩ := bound
  exact ⟨ref, rfl, hs⟩

inductive CountMoves (s : PoolState) (phase after : PoolPhase) (id : Int) (count : Nat) : Prop
  | keeps (w : ManagedWorker) (found : s.pool.workers.find? id = some w)
      (same : count = w.activeSessions) (bound : Bound after id ↔ Bound phase id)
  | adopts (absent : s.pool.workers.find? id = none) (zero : count = 0) (unbound : ¬ Bound after id)
  | opens (w : ManagedWorker) (found : s.pool.workers.find? id = some w)
      (more : count = w.activeSessions + 1) (unbound : ¬ Bound phase id) (bound : Bound after id)
  | closes (w : ManagedWorker) (found : s.pool.workers.find? id = some w)
      (less : count = w.activeSessions - 1) (bound : Bound phase id) (unbound : ¬ Bound after id)

theorem CountMoves.unbound (hf : s.pool.workers.find? id = some w)
    (before : session? phase = none) (later : session? after = none) :
    CountMoves s phase after id w.activeSessions :=
  .keeps w hf rfl (iff_of_false (not_bound_of_session later) (not_bound_of_session before))

theorem CountMoves.rewritten {touched} (hw : Rewrites s t touched old new)
    (hf : t.pool.workers.find? id = some w) (hs : new.activeSessions = old.activeSessions)
    (before : session? phase = none) (later : session? after = none) :
    CountMoves s phase after id w.activeSessions := by
  by_cases isTouched : id = touched
  · subst isTouched
    rw [hw.rewritten] at hf
    cases hf
    rw [hs]
    exact .unbound hw.found before later
  · rw [hw.others id isTouched] at hf
    exact .unbound hf before later

theorem CountMoves.removed {removed} (removes : Removes s t removed)
    (hf : t.pool.workers.find? id = some w) (before : session? phase = none)
    (later : session? after = none) : CountMoves s phase after id w.activeSessions := by
  have ne : id ≠ removed := by
    rintro rfl
    rw [removes.removed] at hf
    cases hf
  rw [removes.others id ne] at hf
  exact .unbound hf before later

theorem CountMoves.opened (hw : Rewrites s t ref.id old new)
    (hf : t.pool.workers.find? id = some w) (more : new.activeSessions = old.activeSessions + 1)
    (before : session? phase = none) :
    CountMoves s phase (.holding ref) id w.activeSessions := by
  by_cases isTouched : id = ref.id
  · subst isTouched
    rw [hw.rewritten] at hf
    cases hf
    exact .opens old hw.found more (not_bound_of_session before) ⟨ref, rfl, rfl⟩
  · rw [hw.others id isTouched] at hf
    refine .keeps w hf rfl (iff_of_false ?_ (not_bound_of_session before))
    rintro ⟨_, ⟨⟩, rfl⟩
    exact isTouched rfl

theorem CountMoves.closed (hw : Rewrites s t ref.id old new)
    (hf : t.pool.workers.find? id = some w) (less : new.activeSessions = old.activeSessions - 1)
    (later : session? after = none) : CountMoves s (.holding ref) after id w.activeSessions := by
  by_cases isTouched : id = ref.id
  · subst isTouched
    rw [hw.rewritten] at hf
    cases hf
    exact .closes old hw.found less ⟨ref, rfl, rfl⟩ (not_bound_of_session later)
  · rw [hw.others id isTouched] at hf
    refine .keeps w hf rfl (iff_of_false (not_bound_of_session later) ?_)
    rintro ⟨_, ⟨⟩, rfl⟩
    exact isTouched rfl

def Counting (s : PoolState) (phase : PoolPhase) (a : PoolStep) : Prop :=
  ∀ record ref stray w, phase = .concluding (some record) ref → a = .conclude stray →
    s.worker? ref = some w →
    w.sharedState.lifecycle ≠ .activating ∧ w.sharedState.lifecycle ≠ .hot

theorem session_of_claim {claim} (hcl : claim? phase = some claim) : session? phase = none := by
  cases phase with
  | holding => cases hcl
  | _ => rfl

theorem countMoves_of_moves (hv : PoolMoves s phase a t after) (hat : Attached s phase)
    (counting : Counting s phase a) (hf : t.pool.workers.find? id = some w) :
    CountMoves s phase after id w.activeSessions := by
  cases hv with
  | frees before free | retiresClaimed before free => exact .unbound hf before free.session
  | shutsDown | seeks | stores | checks => exact .unbound hf rfl rfl
  | claims before _ _ session => exact .unbound hf before session
  | points hcl => exact .unbound hf (session_of_claim hcl) rfl
  | astray pointer detached =>
    obtain ⟨w, foundOwn, -⟩ := hat _ pointer
    rw [detached] at foundOwn
    cases foundOwn
  | @adopts claim _ _ adopts =>
    by_cases isAdopted : id = claim.record.workerID
    · subst isAdopted
      rw [adopts.adopted] at hf
      cases hf
      exact .adopts adopts.absent rfl (not_bound_of_session rfl)
    · rw [adopts.others id isAdopted] at hf
      exact .unbound hf rfl rfl
  | overwrites _ hw _ sessions _ _ free => exact .rewritten hw hf sessions rfl free.session
  | reserves _ hw _ sessions _ _ _ goesOn => exact .rewritten hw hf sessions rfl goesOn.session
  | touches _ before _ hw _ sessions _ _ goesOn =>
    refine .rewritten hw hf sessions before ?_
    exact goesOn.elim Free.session GoesOn.session
  | reconnects foundOwn ready =>
    obtain ⟨notActivating, notHot⟩ := counting _ _ _ _ rfl rfl foundOwn
    exact (ready.elim notActivating notHot).elim
  | counts _ hw _ sessions => exact .opened hw hf sessions rfl
  | takes hw _ _ idle sessions =>
    have ht : Rewrites s t (s.ref _).id _ _ := hw
    refine .opened ht hf ?_ rfl
    rw [sessions, idle]
  | releases hw _ sessions _ goesOn =>
    refine .closed hw hf sessions ?_
    rcases goesOn with ⟨free, -⟩ | ⟨record, rfl, -⟩
    · exact free.session
    · rfl
  | terminates hw _ sessions
  | refreshes hw _ _ sessions => exact .rewritten hw hf sessions rfl rfl
  | persists _ before session =>
    rw [pool_persist] at hf
    exact .unbound hf before session
  | retires before _ _ _ removes free => exact .removed removes hf before free.session
  | removes before _ _ removes free => exact .removed removes hf before free.session

structure Counted (w : PoolWorld) : Prop where
  apart : Apart w
  count : ∀ id worker, w.shared.pool.workers.find? id = some worker →
    worker.activeSessions = 0 ∧ (∀ call, ¬ HoldsWorker w call id) ∨
      worker.activeSessions = 1 ∧ ∃ call, HoldsWorker w call id

variable {call : Nat} {c : PoolCall} {worker : ManagedWorker} {w : PoolWorld}

theorem holdsWorker_iff (hf : w.calls call = some c) : HoldsWorker w call id ↔ Bound c.phase id := by
  constructor
  · rintro ⟨d, ref, foundCall, holding, hs⟩
    rw [hf] at foundCall
    cases foundCall
    exact ⟨ref, holding, hs⟩
  · rintro ⟨ref, holding, hs⟩
    exact ⟨c, ref, hf, holding, hs⟩

theorem holdsWorker_set_of_ne {shared holder} (ne : holder ≠ call) :
    HoldsWorker (w.set shared call c) holder id ↔ HoldsWorker w holder id := by
  unfold HoldsWorker
  rw [World.calls_set_of_ne _ _ _ ne]

theorem Apart.holder_unique (hne : Apart w) {first second}
    (holdsFirst : HoldsWorker w first id) (holdsSecond : HoldsWorker w second id) :
    first = second := by
  obtain ⟨c, ref, foundFirst, holding, rfl⟩ := holdsFirst
  obtain ⟨d, ref', foundSecond, holding', hs⟩ := holdsSecond
  by_contra ne
  refine hne.distinct first second c d ne foundFirst foundSecond ref ref' ?_ ?_ hs.symm
  · rw [holding]
    rfl
  · rw [holding']
    rfl

theorem Apart.holder_found (hne : Apart w)
    (hh : HoldsWorker w call id) : ∃ worker, w.shared.pool.workers.find? id = some worker := by
  obtain ⟨c, ref, hf, holding, rfl⟩ := hh
  obtain ⟨worker, foundWorker, -⟩ := hne.attached call c hf ref (by rw [holding]; rfl)
  exact ⟨worker, (worker?_eq_some.mp foundWorker).2⟩

theorem count_start {request} (hc : Counted w) (fresh : w.calls call = none)
    (hf : w.shared.pool.workers.find? id = some worker) :
    worker.activeSessions = 0 ∧
        (∀ holder, ¬ HoldsWorker (w.set w.shared call (poolProgram.start request)) holder id) ∨
      worker.activeSessions = 1 ∧
        ∃ holder, HoldsWorker (w.set w.shared call (poolProgram.start request)) holder id := by
  have holders (holder : Nat) :
      HoldsWorker (w.set w.shared call (poolProgram.start request)) holder id ↔
        HoldsWorker w holder id := by
    by_cases own : holder = call
    · subst own
      rw [holdsWorker_iff (World.calls_set_self ..)]
      refine iff_of_false (not_bound_of_session (by cases request <;> rfl)) ?_
      rintro ⟨c, ref, foundCall, -⟩
      rw [fresh] at foundCall
      cases foundCall
    · exact holdsWorker_set_of_ne own
  simp only [holders]
  exact hc.count id worker hf

theorem count_step {next} (hc : Counted w) (apart : Apart (w.set t call next)) (hf : w.calls call = some c)
    (hv : CountMoves w.shared c.phase next.phase id worker.activeSessions) :
    worker.activeSessions = 0 ∧ (∀ holder, ¬ HoldsWorker (w.set t call next) holder id) ∨
      worker.activeSessions = 1 ∧ ∃ holder, HoldsWorker (w.set t call next) holder id := by
  have ownBefore : HoldsWorker w call id ↔ Bound c.phase id := holdsWorker_iff hf
  have ownAfter : HoldsWorker (w.set t call next) call id ↔ Bound next.phase id :=
    holdsWorker_iff (World.calls_set_self ..)
  cases hv with
  | keeps old hfd hs bound =>
    have holders (holder : Nat) :
        HoldsWorker (w.set t call next) holder id ↔ HoldsWorker w holder id := by
      by_cases own : holder = call
      · rw [own, ownAfter, ownBefore, bound]
      · exact holdsWorker_set_of_ne own
    simp only [holders, hs]
    exact hc.count id old hfd
  | adopts absent zero unbound =>
    refine .inl ⟨zero, fun holder hh => ?_⟩
    by_cases own : holder = call
    · exact unbound (ownAfter.mp (own ▸ hh))
    · obtain ⟨old, hfd⟩ := hc.apart.holder_found ((holdsWorker_set_of_ne own).mp hh)
      rw [absent] at hfd
      cases hfd
  | opens old hfd more unbound bound =>
    have hh := ownAfter.mpr bound
    rcases hc.count id old hfd with ⟨zero, -⟩ | ⟨-, holder, already⟩
    · exact .inr ⟨by rw [more, zero], call, hh⟩
    · have ne : holder ≠ call := by
        rintro rfl
        exact unbound (ownBefore.mp already)
      exact absurd (apart.holder_unique ((holdsWorker_set_of_ne ne).mpr already) hh) ne
  | closes old hfd less bound unbound =>
    have hl := ownBefore.mpr bound
    rcases hc.count id old hfd with ⟨-, nobody⟩ | ⟨one, -⟩
    · exact absurd hl (nobody call)
    · refine .inl ⟨by rw [less, one], fun holder hh => ?_⟩
      by_cases own : holder = call
      · exact unbound (ownAfter.mp (own ▸ hh))
      · exact own (hc.apart.holder_unique ((holdsWorker_set_of_ne own).mp hh) hl)

theorem disturbs_looking {id : Int} (disturbs : PoolPhase.looking.disturbs a = some id) :
    ∃ cfg, a = .look (some id) cfg := by
  cases a with
  | look _ cfg =>
    cases disturbs
    exact ⟨cfg, rfl⟩
  | _ => cases disturbs

variable {step : CallStep PoolStep PoolRequest}

theorem undisturbed_of_waits {later} (hc : Counted w) (takes : poolProgram.Takes w step later) (waits : Waits w step) :
    Undisturbed w step := by
  cases takes with
  | start => trivial
  | @advance _ _ c _ shared hf hd =>
    intro c' id hf' disturbs other d ref ne hfo pointer hs
    rw [hf] at hf'
    cases hf'
    rcases waits c id hf disturbs other d ref ne hfo pointer with
      hne | ⟨looking, holding⟩
    · exact hne hs
    · obtain ⟨⟨state, phase⟩, ha, -⟩ := Option.map_eq_some_iff.mp hd
      rw [looking] at disturbs ha
      obtain ⟨cfg, rfl⟩ := disturbs_looking disturbs
      have looked : w.shared.look c.orgID (some id) cfg = some (state, phase) := ha
      obtain ⟨worker, foundWorker, -, hun, -⟩ := look_idle looked
      rcases hc.count id worker foundWorker with ⟨-, nobody⟩ | ⟨one, -⟩
      · exact nobody other ⟨d, ref, hfo, holding, hs⟩
      · rw [hun] at one
        cases one

theorem counted_step {later} (hc : Counted w) (waits : Waits w step) (noReconnect : NoReconnect w step)
    (ha : poolProgram.machine.step w step = some later) : Counted later := by
  have takes := Program.takes_of_step ha
  have hne := apart_takes hc.apart (undisturbed_of_waits hc takes waits) takes
  cases takes with
  | @start _ _ fresh => refine ⟨hne, fun id worker => count_start hc fresh⟩
  | @advance call _ c _ _ hf hd =>
    refine ⟨hne, fun id worker foundWorker => count_step hc hne hf ?_⟩
    refine countMoves_of_moves (moves_of_step hd).1 (hc.apart.attached call c hf) ?_ foundWorker
    rintro record ref stray worker concluding rfl hat
    exact noReconnect c record ref worker hf concluding hat

theorem counted_init (hun : ∀ id w, s.pool.workers.find? id = some w → w.activeSessions = 0) :
    Counted (.init s) where
  apart := apart_init s
  count id worker hf := by
    refine .inl ⟨hun id worker hf, ?_⟩
    rintro call ⟨c, ref, ⟨⟩, -⟩

theorem Counted.ncard (hc : Counted w) (hf : w.shared.pool.workers.find? id = some worker) :
    {call | HoldsWorker w call id}.ncard = worker.activeSessions := by
  rcases hc.count id worker hf with ⟨zero, nobody⟩ | ⟨one, holder, hh⟩
  · rw [zero, Set.eq_empty_of_forall_notMem (s := {call | HoldsWorker w call id}) nobody, Set.ncard_empty]
  · rw [one, Set.ncard_eq_one]
    refine ⟨holder, Set.eq_singleton_iff_unique_mem.mpr ⟨hh, fun call hh' => ?_⟩⟩
    exact hc.apart.holder_unique hh' hh

theorem sessions_counted (s : PoolState)
    (unused : ∀ id worker, s.pool.workers.find? id = some worker → worker.activeSessions = 0)
    (steps : List (CallStep PoolStep PoolRequest)) (final : PoolWorld)
    (obeys : poolProgram.machine.Obeys (fun w step => Waits w step ∧ NoReconnect w step) (.init s) steps)
    (run : poolProgram.machine.run (.init s) steps = some final) :
    (∀ id worker, final.shared.pool.workers.find? id = some worker →
      {call | HoldsWorker final call id}.ncard = worker.activeSessions) ∧
    ∀ first second id, HoldsWorker final first id → HoldsWorker final second id →
      first = second := by
  have hc : Counted final :=
    poolProgram.machine.invariant_of_obeys Counted
      (fun _ _ _ hc legal ha => counted_step hc legal.1 legal.2 ha)
      (counted_init unused) obeys run
  exact ⟨fun id worker => hc.ncard, fun first second id => hc.apart.holder_unique⟩

def acmeConfig : OrgPoolConfig := ⟨0, ""⟩

def poolOfB (row : WorkerRecord) (workers : LocalWorkers) : PoolState :=
  ⟨oneRow row, { emptyPool "b" with workers := workers }, false, fun _ => 0⟩

def hotRow : WorkerRecord := { idleRow with state := .hot, orgID := "acme" }

def hotWorker : ManagedWorker := { hotIdleWorker with sharedState := ⟨.hot, some "acme", rfl⟩ }

def poolCall (call : Nat) (request : PoolRequest) (steps : List PoolStep) : List (CallStep PoolStep PoolRequest) :=
  .start call request :: steps.map (.advance call)

def twoHot : PoolState := poolOfB hotRow ⟨[hotWorker, { hotWorker with id := 2 }], by decide⟩

def twoSessions : List (CallStep PoolStep PoolRequest) :=
  poolCall 0 (.acquireWorker "acme") [.look (some 1) acmeConfig] ++
    poolCall 1 (.acquireWorker "acme") [.look (some 2) acmeConfig] ++
      [.advance 0 (.release 20), .advance 0 (.persist 20 true)]

theorem sessions_counted_released : ∃ w first second,
      poolProgram.machine.run (.init twoHot) twoSessions = some w ∧
      w.shared.pool.workers.find? 1 = some first ∧ w.shared.pool.workers.find? 2 = some second ∧
      first.activeSessions = 0 ∧ second.activeSessions = 1 ∧
      {call | HoldsWorker w call 1}.ncard = first.activeSessions ∧
      {call | HoldsWorker w call 2}.ncard = second.activeSessions := by
  have unused : ∀ worker ∈ twoHot.pool.workers.rows, worker.activeSessions = 0 := by decide
  have obeys : poolProgram.machine.Obeys (fun w step => Waits w step ∧ NoReconnect w step)
      (.init twoHot) twoSessions := by
    refine .cons rfl ⟨trivial, trivial⟩ (.cons rfl ⟨?_, trivial⟩ (.cons rfl ⟨trivial, trivial⟩
      (.cons rfl ⟨?_, trivial⟩ (.cons rfl ⟨by rintro c id ⟨⟩ ⟨⟩, trivial⟩
        (.cons rfl ⟨by rintro c id ⟨⟩ ⟨⟩, trivial⟩ trivial)))))
    all_goals rintro c id ⟨⟩ ⟨⟩ (_ | _ | other) d ref ne ⟨⟩ ⟨⟩
    exact .inl (by decide)
  have run : poolProgram.machine.run (.init twoHot) twoSessions = some _ := rfl
  have counted := (sessions_counted twoHot
    (fun _ _ hf => unused _ (Table.find?_eq_some.mp hf).1) twoSessions _ obeys run).1
  exact ⟨_, _, _, run, rfl, rfl, rfl, rfl, counted 1 _ rfl, counted 2 _ rfl⟩

def claimSteps : List PoolStep := [.look none acmeConfig, .claimHotIdle [] 10 true, .claimIdle 0 [] 10 true]

def activationSteps : List PoolStep :=
  [.reserve, .adopt true, .claim hotIdleWorker 10, .checkLiveness true, .enter hotIdleWorker,
    .prepare true hotIdleWorker 11, .persist 11 true, .activate true hotIdleWorker,
    .finish hotIdleWorker 12, .persist 12 true, .conclude hotIdleWorker]

theorem session_not_counted : (∃ w worker, poolProgram.machine.run (.init (poolOfB hotRow .empty))
        (poolCall 0 (.reconnectFlightWorker "acme" 1 3) (.takeOver "" 10 true :: activationSteps)) = some w ∧
      HoldsWorker w 0 1 ∧ w.shared.pool.workers.find? 1 = some worker ∧ worker.activeSessions = 0) ∧
    ∃ w, poolProgram.machine.run (.init (poolOfB idleRow .empty))
        (poolCall 0 (.acquireWorker "acme") (claimSteps ++ activationSteps) ++
          poolCall 1 (.acquireWorker "acme") [.look (some 1) acmeConfig] ++
          [.advance 0 (.count hotIdleWorker)]) = some w ∧
      HoldsWorker w 0 1 ∧ HoldsWorker w 1 1 := by
  constructor
  · exact ⟨_, _, rfl, ⟨_, _, rfl, rfl, rfl⟩, rfl, rfl⟩
  · exact ⟨_, rfl, ⟨_, _, rfl, rfl, rfl⟩, ⟨_, _, rfl, rfl, rfl⟩⟩

variable {rows : Workers} {row : WorkerRecord}

section
variable (hf : rows.find? id = some row)
include hf

theorem find?_modify_missed {workerID u}
    (missed : u.apply row = none) : (rows.modify workerID u).find? id = some row := by
  by_cases hs : id = workerID
  · subst hs
    rw [(modify_of_missed hf missed).2, hf]
  · rw [Table.find?_modify_of_ne _ _ hs, hf]

theorem find?_claimRow_missed {workerID u}
    (missed : u.apply row = none) : (rows.claimRow workerID u).1.find? id = some row := by
  unfold Workers.claimRow
  split
  · split
    · exact find?_modify_missed hf missed
    · exact hf
  · exact hf

theorem find?_claimHotIdle (busy : row.state ≠ .hotIdle)
    (owner orgID : String) (maxOrgWorkers : Int) (locked : List Int) (now : Nat) :
    (rows.claimHotIdleWorker owner orgID maxOrgWorkers locked now).1.find? id = some row := by
  unfold Workers.claimHotIdleWorker
  split
  · exact hf
  split
  · exact hf
  · exact find?_claimRow_missed hf (by simp [claimHotIdleUpdate, guardedBump, busy])

theorem find?_claimIdle (busy : row.state ≠ .idle)
    (owner orgID image : String) (maxOrgWorkers maxGlobalWorkers : Int) (locked : List Int)
    (now : Nat) :
    (rows.claimIdleWorker owner orgID image maxOrgWorkers maxGlobalWorkers locked now).1.find? id =
      some row := by
  unfold Workers.claimIdleWorker
  split
  · exact hf
  split
  · split <;> exact hf
  · exact find?_claimRow_missed hf (by simp [claimIdleUpdate, guardedBump, busy])

theorem find?_retireHotIdle (busy : row.state ≠ .hotIdle)
    (record : WorkerRecord) (now : Nat) :
    (rows.retireHotIdleWorker record now).1.find? id = some row := by
  unfold Workers.retireHotIdleWorker
  split
  · exact hf
  rename_i hotIdle
  replace hotIdle : record.state = .hotIdle := not_not.mp hotIdle
  refine find?_modify_missed hf ?_
  simp [terminalUpdate, Update.guarded, snapshotCurrent, hotIdle, busy]

end

theorem serving_rows_busy (s : PoolState) (fresh : s.Fresh)
    (steps : List (CallStep PoolStep PoolRequest)) (final : PoolWorld)
    (obeys : poolProgram.machine.Obeys Undisturbed (.init s) steps)
    (run : poolProgram.machine.run (.init s) steps = some final)
    (call : Nat) (id : Int) (worker : ManagedWorker) (row : WorkerRecord)
    (serving : HoldsWorker final call id)
    (found : final.shared.pool.workers.find? id = some worker)
    (foundRow : final.shared.rows.find? id = some row)
    (owner : row.owner = final.shared.pool.cpInstanceID)
    (epoch : row.ownerEpoch = worker.ownerEpoch) :
    (row.state ≠ .hotIdle ∧ row.state ≠ .idle) ∧
    (∀ cp orgID maxOrgWorkers locked now, (final.shared.rows.claimHotIdleWorker cp orgID
      maxOrgWorkers locked now).1.find? id = some row) ∧
    (∀ cp orgID image maxOrgWorkers maxGlobalWorkers locked now, (final.shared.rows.claimIdleWorker
      cp orgID image maxOrgWorkers maxGlobalWorkers locked now).1.find? id = some row) ∧
    ∀ record now, (final.shared.rows.retireHotIdleWorker record now).1.find? id = some row := by
  have tokens : Tokens final :=
    poolProgram.machine.invariant_of_obeys Tokens
      (fun _ _ _ => tokens_step)
      (tokens_init fresh) obeys run
  obtain ⟨c, ref, foundCall, holding, rfl⟩ := serving
  have live : Live worker := by
    obtain ⟨worker', hat, live⟩ := tokens.apart.attached call c foundCall ref (by rw [holding]; rfl)
    have hs := (worker?_eq_some.mp hat).2
    rw [found] at hs
    cases hs
    exact live (by rw [holding]; rfl)
  have busy := tokens.entries.busy ref.id worker found live row foundRow epoch owner
  have notHotIdle : row.state ≠ .hotIdle := fun state => by rw [state] at busy; cases busy
  have notIdle : row.state ≠ .idle := fun state => by rw [state] at busy; cases busy
  exact ⟨⟨notHotIdle, notIdle⟩, find?_claimHotIdle foundRow notHotIdle,
    find?_claimIdle foundRow notIdle, find?_retireHotIdle foundRow notHotIdle⟩

theorem fresh_of_empty {s : PoolState} (empty : s.pool.workers = .empty) : s.Fresh := by
  constructor <;> rw [empty] <;> nofun

theorem obeys_undisturbed (request : PoolRequest) (steps : List PoolStep) (s : PoolState) :
    poolProgram.machine.Obeys Undisturbed (.init s) (poolCall 0 request steps) := by
  refine ⟨trivial, fun w started => ?_⟩
  refine Program.obeys_alone (fun w a only c id _ _ other d ref ne hf => ?_) steps ?_
  · rw [only other ne] at hf
    cases hf
  · cases started
    exact fun other => World.calls_set_of_ne _ _ _

def acquireSteps : List (CallStep PoolStep PoolRequest) :=
  poolCall 0 (.acquireWorker "acme") (claimSteps ++ activationSteps ++ [.count hotIdleWorker])

theorem serving_rows_busy_activated :
    ∃ w worker row, poolProgram.machine.run (.init (poolOfB idleRow .empty)) acquireSteps =
        some w ∧
      HoldsWorker w 0 1 ∧ w.shared.pool.workers.find? 1 = some worker ∧
      w.shared.rows.find? 1 = some row ∧ row.owner = w.shared.pool.cpInstanceID ∧
      row.ownerEpoch = worker.ownerEpoch ∧ row.state ≠ .hotIdle ∧ row.state ≠ .idle := by
  refine ⟨?w, ?worker, ?row, ?run, ?serving, ?found, ?recorded, ?owner, ?epoch, (serving_rows_busy
    (poolOfB idleRow .empty) (fresh_of_empty rfl) acquireSteps _ (obeys_undisturbed _ _ _) ?run 0 1 _ _ ?serving
    ?found ?recorded ?owner ?epoch).1⟩
  case run => rfl
  case serving => exact ⟨_, _, rfl, rfl, rfl⟩
  case found => rfl
  case recorded => rfl
  all_goals rfl

theorem claims_exclusive {s : PoolState} {steps : List (CallStep PoolStep PoolRequest)} {w : PoolWorld}
    (fresh : s.Fresh)
    (obeys : poolProgram.machine.Obeys Undisturbed (.init s) steps)
    (run : poolProgram.machine.run (.init s) steps = some w) :
    (∀ id entry, w.shared.pool.workers.find? id = some entry → Behind w.shared.rows id entry.ownerEpoch) ∧
      ∀ first second c d, first ≠ second → w.calls first = some c → w.calls second = some d →
        ∀ id epoch, ClaimAt c.phase id epoch → ¬ ClaimAt d.phase id epoch := by
  have tokens := poolProgram.machine.invariant_of_obeys Tokens (fun _ _ _ => tokens_step) (tokens_init fresh) obeys run
  refine ⟨tokens.entries.behind, fun first second c d ne hf hfo id epoch claim => ?_⟩
  exact ((tokens.exclusive first second c d ne hf hfo).1 id epoch claim).1

def twoIdle : PoolState :=
  { poolOfB idleRow .empty with rows := ⟨[idleRow, { idleRow with workerID := 2 }], by decide⟩ }

def twoClaims : List (CallStep PoolStep PoolRequest) :=
  poolCall 0 (.acquireWorker "acme") claimSteps ++ poolCall 1 (.acquireWorker "acme") claimSteps ++
    [.advance 0 .reserve, .advance 0 (.adopt true)]

theorem claims_exclusive_two : ∃ w entry c d, poolProgram.machine.run (.init twoIdle) twoClaims = some w ∧
      w.shared.pool.workers.find? 1 = some entry ∧ w.calls 0 = some c ∧ w.calls 1 = some d ∧
      ClaimAt c.phase 1 4 ∧ ClaimAt d.phase 2 4 ∧ Behind w.shared.rows 1 entry.ownerEpoch ∧
      ¬ ClaimAt d.phase 1 4 := by
  have obeys : poolProgram.machine.Obeys Undisturbed (.init twoIdle) twoClaims := by
    refine .cons rfl trivial (.cons rfl ?_ (.cons rfl ?_ (.cons rfl ?_ (.cons rfl trivial (.cons rfl ?_ (.cons rfl ?_
      (.cons rfl ?_ (.cons rfl ?_ (.cons rfl ?_ trivial)))))))))
    all_goals rintro c id ⟨⟩ ⟨⟩
  have run : poolProgram.machine.run (.init twoIdle) twoClaims = some _ := rfl
  have claims := claims_exclusive (fresh_of_empty rfl) obeys run
  refine ⟨_, _, _, _, run, rfl, rfl, rfl, ?first, ⟨_, rfl, rfl, rfl⟩, claims.1 1 _ rfl,
    claims.2 0 1 _ _ (by decide) rfl rfl 1 4 ?first⟩
  exact ⟨_, rfl, rfl, rfl⟩

theorem serving_row_claimed : ∃ w worker row claimed, poolProgram.machine.run (.init (poolOfB idleRow .empty))
        (poolCall 0 (.acquireWorker "acme") (claimSteps ++ activationSteps) ++
          poolCall 1 (.acquireWorker "acme") [.look (some 1) acmeConfig, .release 20, .persist 20 true] ++
          [.advance 0 (.count hotIdleWorker)]) = some w ∧
      HoldsWorker w 0 1 ∧ w.shared.pool.workers.find? 1 = some worker ∧
      w.shared.rows.find? 1 = some row ∧ row.owner = w.shared.pool.cpInstanceID ∧
      row.ownerEpoch = worker.ownerEpoch ∧ row.state = .hotIdle ∧
      (w.shared.rows.claimHotIdleWorker "c" "acme" 0 [] 30).2 = .claimed claimed ∧
      claimed.workerID = 1 ∧ claimed.owner = "c" :=
  ⟨_, _, _, _, rfl, ⟨_, _, rfl, rfl, rfl⟩, rfl, rfl, rfl, rfl, rfl, rfl, rfl, rfl⟩

end Duckgres.Proof.Pool
