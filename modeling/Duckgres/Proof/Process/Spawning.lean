import Duckgres.Base.Tally
import Duckgres.Process.Pool

namespace Duckgres.Proof.Process
open Base Duckgres.Process ManagedWorker Table World FlightWorkerPool Option Bool Update

variable {p q : FlightWorkerPool} {phase next : PoolPhase} {a : PoolStep}

/-! ## Steps of one call -/

inductive PoolMoves (p : FlightWorkerPool) : PoolPhase → FlightWorkerPool → PoolPhase → Prop
  | refuses : PoolMoves p .acquiring p .returned
  | claims {id w} (found : p.cleanDeadWorkersLocked.workers.find? id = some w)
      (live : w.live = true) :
      PoolMoves p .acquiring (p.cleanDeadWorkersLocked.change id claim) (.holding id)
  | spawns (room : 0 < p.maxWorkers → p.cleanDeadWorkersLocked.liveWorkerCountLocked < p.maxWorkers) :
      PoolMoves p .acquiring p.cleanDeadWorkersLocked.beginSpawn.1 (.starting p.nextWorkerID)
  | retries : PoolMoves p .acquiring p.cleanDeadWorkersLocked .acquiring
  | starts {id workers}
      (inserted : p.workers.insert? ⟨id, .starting, false, 0, none⟩ = some workers) :
      PoolMoves p (.starting id) { p with workers := workers } (.started id)
  | aborts {id} : PoolMoves p (.starting id) p .failing
  | publishes {id} : PoolMoves p (.started id) (p.change id publish) (.spawned id)
  | kills {id} : PoolMoves p (.started id) p (.killing id)
  | abandons {id} : PoolMoves p (.killing id) (p.change id abandon) .failing
  | spawned {id} : PoolMoves p (.spawned id) { p with spawning := p.spawning - 1 } (.looking id)
  | failed : PoolMoves p .failing { p with spawning := p.spawning - 1 } .returned
  | finds {id} : PoolMoves p (.looking id) p (.claiming id)
  | misses {id} : PoolMoves p (.looking id) p .returned
  | counts {id} : PoolMoves p (.claiming id) (p.change id claim) (.holding id)
  | releases {id now} : PoolMoves p (.holding id) (p.change id (release now p.retireOnSessionEnd)) .returned
  | retires {id} : PoolMoves p (.holding id) (p.change id retireIfNoSessions) .returned
  | crashes {id} (gone : p.pooled id = false) : PoolMoves p (.holding id) p .returned
  | reaps {now order} : PoolMoves p .reaping (p.reapIdleWorkers now order) .returned
  | removes {id} {phase : PoolPhase} (at' : phase = .retiring id ∨ phase = .checking id) :
      PoolMoves p phase (p.change id remove) .returned
  | exits {id} : PoolMoves p (.exiting id) (p.change id exit) .returned

theorem moves_of_acquireWorker {choice} (hd : p.acquireWorker choice = some (q, next)) :
    PoolMoves p .acquiring q next := by
  unfold acquireWorker at hd
  split at hd
  · cases hd
    exact .refuses
  dsimp only at hd
  split at hd
  · split at hd
    · rename_i idle
      obtain ⟨w, hf, isIdle⟩ := (any_eq_true _ _).mp idle
      cases hd
      exact .claims hf (and_eq_true_iff.mp isIdle).1
    · cases hd
  · split at hd
    · rename_i room
      cases hd
      exact .spawns fun limited => room.resolve_left fun none => by
        change p.maxWorkers = 0 at none
        omega
    · split at hd
      · split at hd
        · rename_i least
          obtain ⟨w, hf, isLeast⟩ := (any_eq_true _ _).mp least
          cases hd
          exact .claims hf (and_eq_true_iff.mp isLeast).1
        · cases hd
      · split at hd
        · cases hd
          exact .retries
        · rename_i room
          cases hd
          exact .spawns fun limited => Int.not_le.mp fun full => room ⟨limited, full⟩

theorem moves_of_step (hd : p.step phase a = some (q, next)) : PoolMoves p phase q next := by
  unfold step at hd
  split at hd
  · exact moves_of_acquireWorker hd
  · obtain ⟨workers, hi, ⟨⟩⟩ := map_eq_some_iff.mp hd
    exact .starts hi
  · cases hd
    exact .aborts
  · cases hd
    exact .publishes
  · cases hd
    exact .kills
  · split at hd
    · cases hd
      exact .abandons
    · cases hd
  · cases hd
    exact .spawned
  · cases hd
    exact .failed
  · split at hd
    · cases hd
      exact .finds
    · cases hd
      exact .misses
  · cases hd
    exact .counts
  · cases hd
    exact .releases
  · cases hd
    exact .retires
  · split at hd
    · cases hd
    · rename_i gone
      cases hd
      exact .crashes (by simpa using gone)
  · split at hd
    · cases hd
      exact .reaps
    · cases hd
  · cases hd
    exact .removes (.inl rfl)
  · cases hd
    exact .removes (.inr rfl)
  · cases hd
    exact .exits
  · cases hd

variable {w after : PoolWorld} {id : Nat} {u : ManagedWorker.Change}

/-! ## Changes of workers -/

def isStarting (w : ManagedWorker) : Bool := w.place = .starting

def Mild (u : ManagedWorker.Change) : Prop :=
  ∀ row next, u.apply row = some next → next.running = row.running ∧ isStarting next = isStarting row

theorem mild_claim : Mild claim := by
  intro row next hap
  obtain ⟨-, rfl⟩ := guarded_apply.mp hap
  exact ⟨rfl, rfl⟩

theorem mild_remove : Mild remove := by
  intro row next hap
  obtain ⟨pooled, rfl⟩ := guarded_apply.mp hap
  have pooled : row.place = .pooled := by simpa using pooled
  simp [running, isStarting, pooled]

theorem mild_cleanDead : Mild cleanDead := by
  intro row next hap
  obtain ⟨dead, rfl⟩ := guarded_apply.mp hap
  have dead : row.place = .pooled ∧ row.exited = true := by simpa using dead
  simp [running, isStarting, dead.1]

theorem mild_release (now : Int) (retire : Bool) : Mild (release now retire) := by
  intro row next hap
  obtain ⟨pooled, rfl⟩ := guarded_apply.mp hap
  have pooled : row.place = .pooled := by simpa using pooled
  split <;> simp [running, isStarting, pooled]

theorem mild_retireIfNoSessions : Mild retireIfNoSessions := by
  intro row next hap
  obtain ⟨pooled, rfl⟩ := guarded_apply.mp hap
  have pooled : row.place = .pooled := by simpa using pooled
  split <;> simp [running, isStarting, pooled]

structure Unharmed (t later : Table ManagedWorker.id) : Prop where
  running : later.count ManagedWorker.running = t.count ManagedWorker.running
  starting : later.count isStarting = t.count isStarting
  unknown : ∀ id, later.find? id = none ↔ t.find? id = none
  kept : ∀ id row, t.find? id = some row → isStarting row = true →
    ∃ next, later.find? id = some next ∧ isStarting next = true

theorem Unharmed.refl (t : Table ManagedWorker.id) : Unharmed t t :=
  ⟨rfl, rfl, fun _ => Iff.rfl, fun _ row hf starting => ⟨row, hf, starting⟩⟩

theorem Unharmed.trans {t middle later} (first : Unharmed t middle)
    (second : Unharmed middle later) : Unharmed t later := by
  refine ⟨second.running.trans first.running, second.starting.trans first.starting,
    fun id => (second.unknown id).trans (first.unknown id), fun id row hf starting => ?_⟩
  obtain ⟨middle, foundMiddle, startingMiddle⟩ := first.kept id row hf starting
  exact second.kept id middle foundMiddle startingMiddle

theorem find?_change_eq_none {other} : (p.change id u).workers.find? other = none ↔ p.workers.find? other = none := by
  by_cases hs : other = id
  · subst hs
    rw [change, find?_modify, map_eq_none_iff]
  · rw [change, find?_modify_of_ne _ _ hs]

theorem unharmed_change (mild : Mild u) : Unharmed p.workers (p.change id u).workers := by
  refine ⟨count_modify_of_keeps _ _ fun row next hap => (mild row next hap).1,
    count_modify_of_keeps _ _ fun row next hap => (mild row next hap).2,
    fun other => find?_change_eq_none, fun other row hf starting => ?_⟩
  rcases find?_modify_cases id hf with hs | ⟨next, hap, hfn⟩
  · exact ⟨row, hs, starting⟩
  · exact ⟨next, hfn, (mild row next hap).2.trans starting⟩

theorem unharmed_clean (p : FlightWorkerPool) : Unharmed p.workers p.cleanDeadWorkersLocked.workers := by
  refine ⟨count_updateAll_of_keeps _ fun row next hap => (mild_cleanDead row next hap).1,
    count_updateAll_of_keeps _ fun row next hap => (mild_cleanDead row next hap).2, ?_, ?_⟩
  · intro id
    rw [cleanDeadWorkersLocked, find?_updateAll, map_eq_none_iff]
  · intro id row hf starting
    rw [cleanDeadWorkersLocked, find?_updateAll, hf, map_some]
    cases hap : cleanDead.apply row with
    | none => exact ⟨row, rfl, starting⟩
    | some next => exact ⟨next, rfl, (mild_cleanDead row next hap).2.trans starting⟩

theorem reapFrom_induction {P : FlightWorkerPool → Prop} (now : Int)
    (removes : ∀ p id row lastUsed, P p → p.workers.find? id = some row → row.activeSessions = 0 →
      row.lastUsed = some lastUsed → P (p.change id remove))
    (order : List Nat) (idleCount : Int) (start : P p) : P (reapFrom now order idleCount p) := by
  induction order generalizing idleCount p with
  | nil => exact start
  | cons id order ih =>
    unfold reapFrom
    split
    · exact start
    split
    · rename_i reapable
      obtain ⟨row, hf, hun⟩ := (any_eq_true _ _).mp reapable
      simp only [and_eq_true, decide_eq_true_eq, any_eq_true] at hun
      obtain ⟨idle, lastUsed, hk, -⟩ := hun
      exact ih _ (removes p id row lastUsed start hf idle hk)
    · exact ih _ start

theorem unharmed_reap (now : Int) (order : List Nat) : Unharmed p.workers (p.reapIdleWorkers now order).workers :=
  reapFrom_induction (P := fun q => Unharmed p.workers q.workers) now
    (fun _ _ _ _ unharmed _ _ _ => unharmed.trans (unharmed_change mild_remove)) order _ (.refl p.workers)

def spawner : PoolPhase → Option Nat
  | .starting id | .started id | .killing id | .spawned id | .looking id | .claiming id => some id
  | _ => none

def launching : PoolPhase → Bool
  | .starting _ => true
  | _ => false

def launched : PoolPhase → Bool
  | .started _ | .killing _ => true
  | _ => false

def concluding : PoolPhase → Bool
  | .spawned _ | .failing => true
  | _ => false

def Suits (p : FlightWorkerPool) : PoolPhase → Prop
  | .starting id => p.workers.find? id = none
  | .started id | .killing id => ∃ row, p.workers.find? id = some row ∧ isStarting row = true
  | _ => True

theorem Suits.unharmed (suits : Suits p phase) (unharmed : Unharmed p.workers q.workers) : Suits q phase := by
  cases phase with
  | starting id => exact (unharmed.unknown id).mpr suits
  | started id | killing id =>
    obtain ⟨row, hf, starting⟩ := suits
    exact unharmed.kept id row hf starting
  | _ => trivial

theorem Suits.change (suits : Suits p phase) (other : spawner phase ≠ some id) : Suits (p.change id u) phase := by
  have unchanged {hk : Nat} (hs : spawner phase = some hk) :
      (p.change id u).workers.find? hk = p.workers.find? hk := by
    apply find?_modify_of_ne
    rintro rfl
    exact other hs
  cases phase with
  | starting => exact (unchanged rfl).trans suits
  | started | killing =>
    obtain ⟨row, hf, starting⟩ := suits
    exact ⟨row, (unchanged rfl).trans hf, starting⟩
  | _ => trivial

inductive Effect (p : FlightWorkerPool) (phase : PoolPhase) (q : FlightWorkerPool) (next : PoolPhase) : Prop
  | unharmed (unharmed : Unharmed p.workers q.workers) (same : launched next = launched phase)
      (launches : launching next = true → phase = .acquiring) (suits : Suits p phase → Suits q next)
  | starts {id : Nat} {workers} (at' : phase = .starting id)
      (inserted : p.workers.insert? ⟨id, .starting, false, 0, none⟩ = some workers)
      (result : q = { p with workers := workers }) (then' : next = .started id)
  | settles {id : Nat} (u : ManagedWorker.Change) (at' : spawner phase = some id) (was : launched phase = true)
      (changes : ∀ row, ∃ later, u.apply row = some later ∧ later.running = row.running ∧ isStarting later = false)
      (result : q = p.change id u) (then' : launched next = false) (nothing : launching next = false)
  | exits {id : Nat} (at' : phase = .exiting id) (result : q = p.change id exit) (then' : next = .returned)

theorem effect_of_moves (hk : ∀ row ∈ p.workers.rows, row.id < p.nextWorkerID)
    (hv : PoolMoves p phase q next) : Effect p phase q next := by
  cases hv with
  | claims =>
    refine .unharmed ((unharmed_clean p).trans (unharmed_change mild_claim)) rfl nofun ?_
    exact fun _ => trivial
  | spawns =>
    refine .unharmed (unharmed_clean p) rfl (fun _ => rfl) fun _ => ?_
    refine ((unharmed_clean p).unknown p.nextWorkerID).mpr (find?_eq_none.mpr ?_)
    exact fun row hm hs => Nat.lt_irrefl _ (hs ▸ hk row hm)
  | retries => exact .unharmed (unharmed_clean p) rfl nofun fun _ => trivial
  | starts hi => exact .starts rfl hi rfl rfl
  | publishes => exact .settles publish rfl rfl (fun row => ⟨_, rfl, rfl, rfl⟩) rfl rfl rfl
  | kills => exact .unharmed (.refl _) rfl nofun id
  | abandons => exact .settles abandon rfl rfl (fun row => ⟨_, rfl, rfl, rfl⟩) rfl rfl rfl
  | counts => exact .unharmed (unharmed_change mild_claim) rfl nofun fun _ => trivial
  | releases => exact .unharmed (unharmed_change (mild_release _ _)) rfl nofun fun _ => trivial
  | retires => exact .unharmed (unharmed_change mild_retireIfNoSessions) rfl nofun fun _ => trivial
  | reaps => exact .unharmed (unharmed_reap ..) rfl nofun fun _ => trivial
  | removes at' =>
    rcases at' with rfl | rfl
    all_goals exact .unharmed (unharmed_change mild_remove) rfl nofun fun _ => trivial
  | exits => exact .exits rfl rfl rfl
  | _ => exact .unharmed (.refl _) rfl nofun fun _ => trivial

theorem reap_fields (now : Int) (order : List Nat) : (p.reapIdleWorkers now order).nextWorkerID = p.nextWorkerID ∧
    (p.reapIdleWorkers now order).spawning = p.spawning ∧ (p.reapIdleWorkers now order).maxWorkers = p.maxWorkers :=
  reapFrom_induction (P := fun q => q.nextWorkerID = p.nextWorkerID ∧ q.spawning = p.spawning ∧
    q.maxWorkers = p.maxWorkers) now (fun _ _ _ _ hs _ _ _ => hs) order _ ⟨rfl, rfl, rfl⟩

theorem maxWorkers_of_moves (hv : PoolMoves p phase q next) : q.maxWorkers = p.maxWorkers := by
  cases hv with
  | reaps => exact (reap_fields _ _).2.2
  | _ => rfl

theorem spawner_of_moves (hv : PoolMoves p phase q next) :
    (q.nextWorkerID = p.nextWorkerID ∧ ∀ id, spawner next = some id → spawner phase = some id) ∨
      (q.nextWorkerID = p.nextWorkerID + 1 ∧ spawner next = some p.nextWorkerID) := by
  cases hv with
  | spawns => exact .inr ⟨rfl, rfl⟩
  | reaps => exact .inl ⟨(reap_fields _ _).1, nofun⟩
  | starts | kills | publishes | spawned | finds => exact .inl ⟨rfl, fun id hs => hs⟩
  | _ => exact .inl ⟨rfl, nofun⟩

def inSpawn (phase : PoolPhase) : Nat := (launching phase).toNat + (launched phase).toNat + (concluding phase).toNat

theorem spawning_of_moves (hv : PoolMoves p phase q next) (enough : inSpawn phase ≤ p.spawning) :
    q.spawning + inSpawn phase = p.spawning + inSpawn next := by
  cases hv with
  | spawns => rfl
  | spawned | failed =>
    simp only [inSpawn, launching, launched, concluding, toNat_false, toNat_true] at enough ⊢
    omega
  | reaps => rw [(reap_fields _ _).2.1]; rfl
  | removes at' => rcases at' with rfl | rfl <;> rfl
  | _ => rfl

structure Spawning (w : PoolWorld) : Prop where
  finite : w.Finite
  known : ∀ row ∈ w.shared.workers.rows, row.id < w.shared.nextWorkerID
  issued : ∀ call c, w.calls call = some c → ∀ id, spawner c = some id → id < w.shared.nextWorkerID
  apart : ∀ first second c d, first ≠ second → w.calls first = some c → w.calls second = some d →
    ∀ id, spawner c = some id → spawner d ≠ some id
  suits : ∀ call c, w.calls call = some c → Suits w.shared c
  spawning : w.shared.spawning = (w.those launching).ncard + (w.those launched).ncard + (w.those concluding).ncard
  starting : w.shared.workers.count isStarting = (w.those launched).ncard

theorem known_of_effect (effect : Effect p phase q next) (later : p.nextWorkerID ≤ q.nextWorkerID)
    (issued : ∀ id, spawner phase = some id → id < p.nextWorkerID)
    (hk : ∀ row ∈ p.workers.rows, row.id < p.nextWorkerID) : ∀ row ∈ q.workers.rows, row.id < q.nextWorkerID := by
  intro row hm
  apply Nat.lt_of_lt_of_le _ later
  have unknown (old : p.workers.find? row.id ≠ none) : row.id < p.nextWorkerID := by
    obtain ⟨before, hf⟩ := ne_none_iff_exists'.mp old
    have bound := hk before (find?_eq_some.mp hf).1
    rwa [key_of_find? hf] at bound
  have hf := find?_eq_some.mpr ⟨hm, rfl⟩
  cases effect with
  | unharmed unharmed =>
    apply unknown
    intro none
    rw [(unharmed.unknown _).mpr none] at hf
    cases hf
  | @starts id _ at' hi result =>
    subst at' result
    rw [(insert?_eq_some hi).2] at hm
    rcases List.mem_append.mp hm with old | new
    · exact hk row old
    · rw [List.mem_singleton.mp new]
      exact issued id rfl
  | settles _ _ _ _ result | exits _ result =>
    subst result
    apply unknown
    intro none
    rw [find?_change_eq_none.mpr none] at hf
    cases hf

theorem mild_place_exit (row later : ManagedWorker) (hap : exit.apply row = some later) :
    isStarting later = isStarting row := by
  obtain ⟨-, rfl⟩ := guarded_apply.mp hap
  rfl

theorem Suits.exit (suits : Suits p phase) : Suits (p.change id exit) phase := by
  cases phase with
  | starting => exact find?_change_eq_none.mpr suits
  | started | killing =>
    obtain ⟨row, hf, starting⟩ := suits
    rcases find?_modify_cases id hf with hs | ⟨later, hap, hfl⟩
    · exact ⟨row, hs, starting⟩
    · exact ⟨later, hfl, (mild_place_exit row later hap).trans starting⟩
  | _ => trivial

theorem Suits.stable {other} (suits : Suits p other) (effect : Effect p phase q next)
    (hne : ∀ id, spawner phase = some id → spawner other ≠ some id) : Suits q other := by
  cases effect with
  | unharmed unharmed => exact suits.unharmed unharmed
  | @starts id workers at' hi result =>
    subst at' result
    have different := hne id rfl
    have unchanged {hk : Nat} (hs : spawner other = some hk) :
        workers.find? hk = p.workers.find? hk := by
      apply find?_insert_of_ne hi
      rintro rfl
      exact different hs
    cases other with
    | starting => exact (unchanged rfl).trans suits
    | started | killing =>
      obtain ⟨row, hf, starting⟩ := suits
      exact ⟨row, (unchanged rfl).trans hf, starting⟩
    | _ => trivial
  | settles _ at' _ _ result =>
    subst result
    exact suits.change (hne _ at')
  | exits _ result =>
    subst result
    exact suits.exit

theorem Suits.own (suits : Suits p phase) (effect : Effect p phase q next) : Suits q next := by
  cases effect with
  | unharmed _ _ _ own => exact own suits
  | starts _ hi result then' =>
    subst result then'
    exact ⟨_, find?_insert hi, rfl⟩
  | settles _ _ _ _ _ then' nothing =>
    cases next with
    | starting => cases nothing
    | started | killing => cases then'
    | _ => trivial
  | exits _ _ then' =>
    subst then'
    trivial

theorem starting_of_effect (suits : Suits p phase) (effect : Effect p phase q next) :
    q.workers.count isStarting + (launched phase).toNat = p.workers.count isStarting + (launched next).toNat := by
  cases effect with
  | unharmed unharmed hs => rw [unharmed.starting, hs]
  | starts at' hi result then' =>
    subst at' result then'
    exact count_insert hi isStarting
  | @settles id _ at' was changes result then' =>
    subst result
    obtain ⟨row, hf, starting⟩ : ∃ row, p.workers.find? id = some row ∧ isStarting row = true := by
      cases phase with
      | started | killing =>
        cases at'
        exact suits
      | _ => cases was
    obtain ⟨later, hap, -, hse⟩ := changes row
    have hc := count_modify hf hap isStarting
    rw [starting, hse] at hc
    rw [was, then']
    exact hc
  | exits at' result then' =>
    subst at' result then'
    rw [change, count_modify_of_keeps _ _ mild_place_exit]
    rfl

theorem running_of_effect (effect : Effect p phase q next) :
    launching next = true ∧ phase = .acquiring ∧ Unharmed p.workers q.workers ∨
      q.workers.count ManagedWorker.running + (launching next).toNat ≤
        p.workers.count ManagedWorker.running + (launching phase).toNat := by
  cases effect with
  | unharmed unharmed _ launches =>
    cases launch : launching next with
    | true => exact .inl ⟨rfl, launches launch, unharmed⟩
    | false =>
      rw [unharmed.running]
      exact .inr (Nat.le_add_right ..)
  | starts at' hi result then' =>
    subst at' result then'
    exact .inr (Nat.le_of_eq (count_insert hi ManagedWorker.running))
  | @settles id u _ _ changes result _ nothing =>
    subst result
    have hs : (p.workers.modify id u).count ManagedWorker.running = p.workers.count ManagedWorker.running := by
      apply count_modify_of_keeps
      intro row later hap
      obtain ⟨other, appliedOther, running, -⟩ := changes row
      cases hap.symm.trans appliedOther
      exact running
    rw [nothing, change, hs]
    exact .inr (Nat.le_add_right ..)
  | exits at' result then' =>
    subst at' result then'
    refine .inr (count_modify_le _ fun row later _ hap running => ?_)
    obtain ⟨-, rfl⟩ := guarded_apply.mp hap
    cases running

theorem Spawning.step {step} (spawning : Spawning w)
    (ha : poolProgram.machine.step w step = some after) : Spawning after := by
  have swapped (c d : PoolPhase) (hne : ∀ id, spawner c = some id → spawner d ≠ some id) :
      ∀ id, spawner d = some id → spawner c ≠ some id := fun id second first => hne id first second
  have finite := spawning.finite.step ha
  cases Program.takes_of_step ha with
  | @start call request hun =>
    have idle : spawner (poolProgram.start request) = none := by cases request <;> rfl
    have uncounted (f : PoolPhase → Bool) (none : f (poolProgram.start request) = false) :
        ((w.set w.shared call (poolProgram.start request)).those f).ncard = (w.those f).ncard := by
      have balance := spawning.finite.ncard_those_set w.shared call (poolProgram.start request) f
      rw [hun, none] at balance
      exact balance
    have launching' := uncounted launching (by cases request <;> rfl)
    have launched' := uncounted launched (by cases request <;> rfl)
    have concluding' := uncounted concluding (by cases request <;> rfl)
    refine ⟨finite, spawning.known, ?_, ?_, ?_, ?_, ?_⟩
    · apply forall_calls_set
      · simp [idle]
      · exact fun other d _ => spawning.issued other d
    · apply forall_pairs_set swapped
      · simp [idle]
      · exact spawning.apart
    · apply forall_calls_set
      · cases request <;> trivial
      · exact fun other d _ => spawning.suits other d
    · rw [launching', launched', concluding']
      exact spawning.spawning
    · rw [launched']
      exact spawning.starting
  | @advance call _ c d q hf hd =>
    have hv := moves_of_step hd
    have effect := effect_of_moves spawning.known hv
    have issued := spawning.issued call c hf
    have later : w.shared.nextWorkerID ≤ q.nextWorkerID := by
      rcases spawner_of_moves hv with ⟨hs, -⟩ | ⟨succ, -⟩
      · exact Nat.le_of_eq hs.symm
      · exact succ ▸ Nat.le_succ _
    have balance (f : PoolPhase → Bool) : ((w.set q call d).those f).ncard + (f c).toNat =
        (w.those f).ncard + (f d).toNat := by
      have balance := spawning.finite.ncard_those_set q call d f
      rwa [hf] at balance
    have launching' := balance launching
    have launched' := balance launched
    have concluding' := balance concluding
    refine ⟨finite, known_of_effect effect later issued spawning.known, ?_, ?_, ?_, ?_, ?_⟩
    · apply forall_calls_set
      · intro id spawns
        rcases spawner_of_moves hv with ⟨hs, own⟩ | ⟨succ, new⟩
        · exact Nat.lt_of_lt_of_le (issued id (own id spawns)) later
        · cases new.symm.trans spawns
          exact succ ▸ Nat.lt_succ_self _
      · exact fun other e _ hfo id spawns => Nat.lt_of_lt_of_le (spawning.issued other e hfo id spawns) later
    · apply forall_pairs_set swapped
      · intro other e hne hfo id spawns spawnsOther
        rcases spawner_of_moves hv with ⟨-, own⟩ | ⟨-, new⟩
        · exact spawning.apart call other c e hne.symm hf hfo id (own id spawns) spawnsOther
        · cases new.symm.trans spawns
          exact Nat.lt_irrefl _ (spawning.issued other e hfo _ spawnsOther)
      · exact spawning.apart
    · apply forall_calls_set
      · exact (spawning.suits call c hf).own effect
      · intro other e hne hfo
        exact (spawning.suits other e hfo).stable effect
          fun id spawns => spawning.apart call other c e hne.symm hf hfo id spawns
    · have enough : inSpawn c ≤ w.shared.spawning := by
        have first := spawning.finite.toNat_le_ncard (p := launching) hf
        have second := spawning.finite.toNat_le_ncard (p := launched) hf
        have third := spawning.finite.toNat_le_ncard (p := concluding) hf
        have hc := spawning.spawning
        unfold inSpawn
        omega
      have hd := spawning_of_moves hv enough
      have hc := spawning.spawning
      unfold inSpawn at hd
      rw [shared_set]
      omega
    · have hd := starting_of_effect (spawning.suits call c hf) effect
      have hc := spawning.starting
      rw [shared_set]
      omega

theorem mem_warmWorkers {count row} (hm : row ∈ (warmWorkers count).rows) :
    row.id < count ∧ row = ⟨row.id, .pooled, false, 0, none⟩ := by
  induction count with
  | zero => cases hm
  | succ count ih =>
    rcases mem_rows_upsert hm with new | old
    · rw [new]
      exact ⟨Nat.lt_succ_self _, rfl⟩
    · obtain ⟨bound, shape⟩ := ih old
      exact ⟨Nat.lt_succ_of_lt bound, shape⟩

theorem count_warmWorkers_le (count : Nat) (f : ManagedWorker → Bool) : (warmWorkers count).count f ≤ count := by
  induction count with
  | zero => exact Nat.le_refl _
  | succ count ih =>
    refine (count_upsert_le (warmWorkers count) _ f).trans ?_
    exact Nat.add_le_add ih (toNat_le _)

theorem spawning_prewarmed (minWorkers maxWorkers idleTimeout : Int) (retireOnSessionEnd : Bool) :
    Spawning (.init (prewarmed minWorkers maxWorkers idleTimeout retireOnSessionEnd)) := by
  have none (f : PoolPhase → Bool) :
      ((init (prewarmed minWorkers maxWorkers idleTimeout retireOnSessionEnd)).those f).ncard = 0 := by
    rw [those_eq_empty fun call c hf => (by cases hf), Set.ncard_empty]
  refine ⟨finite_init _, fun row hm => (mem_warmWorkers hm).1, ?_, ?_, ?_, ?_, ?_⟩
  · nofun
  · nofun
  · nofun
  · rw [none, none, none]
    rfl
  · rw [none]
    refine List.countP_eq_zero.mpr fun row hm => ?_
    rw [(mem_warmWorkers hm).2]
    simp [isStarting]

theorem spawns_accounted {minWorkers maxWorkers idleTimeout : Int} {retireOnSessionEnd : Bool}
    {steps : List PoolWorldStep}
    (run : poolProgram.machine.run (.init (prewarmed minWorkers maxWorkers idleTimeout retireOnSessionEnd)) steps =
      some w) : Spawning w :=
  poolProgram.machine.invariant_of_run Spawning (fun _ _ _ spawning => spawning.step) (spawning_prewarmed ..) run

theorem spawns_accounted_two : ∃ steps w, poolProgram.machine.run (.init (prewarmed 0 2 60 false)) steps = some w ∧
    w.shared.spawning = 2 ∧ Spawning w := by
  have run : poolProgram.machine.run (.init (prewarmed 0 2 60 false)) [.start 0 .session, .advance 0 (.choose 0),
    .start 1 .session, .advance 1 (.choose 0), .advance 0 (.result true)] = some _ := rfl
  exact ⟨_, _, run, rfl, spawns_accounted run⟩

/-- A worker is spawned only while no worker that has been taken out of the pool has a running process. -/
def SpawnsAfterExits (w : PoolWorld) : PoolWorldStep → Prop
  | .start .. => True
  | .advance call a => w.calls call = some .acquiring → ∀ q id, w.shared.step .acquiring a = some (q, .starting id) →
      ∀ row ∈ w.shared.workers.rows, row.place = .removed → row.exited = true

theorem count_live_clean (p : FlightWorkerPool) :
    p.cleanDeadWorkersLocked.workers.count live = p.workers.count live := by
  apply count_updateAll_of_keeps
  intro row later hap
  obtain ⟨dead, rfl⟩ := guarded_apply.mp hap
  have dead : row.place = .pooled ∧ row.exited = true := by simpa using dead
  simp [live, dead.2]

theorem running_le (exited : ∀ row ∈ p.workers.rows, row.place = .removed → row.exited = true) :
    p.workers.count ManagedWorker.running ≤
      p.workers.count live + p.workers.count isStarting := by
  apply count_le_add
  intro row hm running
  have alive : row.exited = false := by simpa [ManagedWorker.running] using running
  cases place : row.place with
  | starting => simp [isStarting, place]
  | pooled => simp [live, place, alive]
  | removed => cases alive.symm.trans (exited row hm place)

structure Within (w : PoolWorld) : Prop where
  spawning : Spawning w
  positive : 0 < w.shared.maxWorkers
  within : w.shared.workers.count running + (w.those launching).ncard ≤ w.shared.maxWorkers

theorem Within.step {step} (within : Within w) (alone : SpawnsAfterExits w step)
    (ha : poolProgram.machine.step w step = some after) : Within after := by
  have spawning := within.spawning.step ha
  cases Program.takes_of_step ha with
  | @start call request hun =>
    refine ⟨spawning, within.positive, ?_⟩
    have balance := within.spawning.finite.ncard_those_set w.shared call (poolProgram.start request) launching
    have idle : launching (poolProgram.start request) = false := by cases request <;> rfl
    rw [hun, idle, any_none, Nat.add_right_cancel_iff] at balance
    rw [balance]
    exact within.within
  | @advance call _ _ d q hf hd =>
    have hv := moves_of_step hd
    have limit := maxWorkers_of_moves hv
    refine ⟨spawning, limit ▸ within.positive, ?_⟩
    have balance := within.spawning.finite.ncard_those_set q call d launching
    rw [hf, any_some] at balance
    have before := within.within
    change (q.workers.count running + ((w.set q call d).those launching).ncard : Int) ≤ q.maxWorkers
    rcases running_of_effect (effect_of_moves within.spawning.known hv) with ⟨launch, isAcquiring, unharmed⟩ | fewer
    · subst isAcquiring
      cases hv with
      | spawns room =>
        have space := room within.positive
        have processes := running_le (alone hf _ _ hd)
        have waiting := within.spawning.spawning
        have starting := within.spawning.starting
        have hs := unharmed.running
        rw [liveWorkerCountLocked, count_live_clean] at space
        change (w.shared.spawning + w.shared.workers.count live : Nat) < w.shared.maxWorkers at space
        simp only [launching, toNat_true] at balance
        omega
      | _ => cases launch
    · rw [limit]
      omega

theorem within_prewarmed {minWorkers maxWorkers idleTimeout retireOnSessionEnd} (hpos : 0 < maxWorkers) :
    Within (.init (prewarmed minWorkers maxWorkers idleTimeout retireOnSessionEnd)) := by
  refine ⟨spawning_prewarmed .., hpos, ?_⟩
  have warm := count_warmWorkers_le (if minWorkers > maxWorkers then maxWorkers else minWorkers).toNat running
  rw [those_eq_empty fun call c hf => (by cases hf), Set.ncard_empty]
  change (((warmWorkers _).count running : Nat) : Int) + 0 ≤ maxWorkers
  omega

theorem worker_processes_limited {minWorkers maxWorkers idleTimeout : Int} {retireOnSessionEnd : Bool}
    {steps : List PoolWorldStep} (positive : 0 < maxWorkers)
    (obeys : poolProgram.machine.Obeys SpawnsAfterExits
      (.init (prewarmed minWorkers maxWorkers idleTimeout retireOnSessionEnd)) steps)
    (run : poolProgram.machine.run (.init (prewarmed minWorkers maxWorkers idleTimeout retireOnSessionEnd)) steps =
      some w) : w.shared.workers.count ManagedWorker.running ≤ maxWorkers := by
  have kept : Within w ∧ w.shared.maxWorkers = maxWorkers := by
    refine poolProgram.machine.invariant_of_obeys (fun w => Within w ∧ w.shared.maxWorkers = maxWorkers) ?_
      ⟨within_prewarmed positive, rfl⟩ obeys run
    intro w step after ⟨within, limit⟩ alone ha
    refine ⟨within.step alone ha, ?_⟩
    cases Program.takes_of_step ha with
    | start => exact limit
    | advance _ hd => exact (maxWorkers_of_moves (moves_of_step hd)).trans limit
  have within := kept.1.within
  omega

def retiredSession (call : Nat) : List PoolWorldStep :=
  [.start call .session, .advance call (.choose 0), .advance call (.releaseWorker 7)]

theorem worker_processes_limited_respawn :
    ∃ w, poolProgram.machine.run (.init (prewarmed 1 1 60 true)) (retiredSession 0 ++
        [.start 1 (.exit 0), .advance 1 .go, .start 2 .session, .advance 2 (.choose 0),
          .advance 2 (.result true)]) = some w ∧
      w.shared.workers.count ManagedWorker.running ≤ (1 : Int) := by
  refine ⟨?w, ?run, worker_processes_limited (by decide) ?_ ?run⟩
  case run => rfl
  refine .cons rfl trivial ?_
  refine .cons rfl nofun ?_
  refine .cons rfl nofun ?_
  refine .cons rfl trivial ?_
  refine .cons rfl nofun ?_
  refine .cons rfl trivial ?_
  refine .cons rfl (fun _ q id hd => by decide) ?_
  refine .cons rfl nofun ?_
  trivial

theorem worker_processes_exceed_limit :
    ∃ w, poolProgram.machine.run (.init (prewarmed 1 1 60 true)) (retiredSession 0 ++
        [.start 1 .session, .advance 1 (.choose 0), .advance 1 (.result true)]) = some w ∧
      w.shared.workers.count ManagedWorker.running = 2 :=
  ⟨_, rfl, rfl⟩

end Duckgres.Proof.Process
