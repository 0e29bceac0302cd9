import Duckgres.Proof.Store.Absorption
import Duckgres.Store.Transactions

/-!
# Counts kept below a cap

A check under a lock followed by a write keeps a count below its cap if every transaction that can
raise the count has passed the check and still holds the lock, and nothing else raises it. `CapRule`
states this for one count; the cap on all active workers is an instance.
-/

namespace Duckgres.Proof.Store
open Base Duckgres.Store List Function
open Option hiding map_map

variable {lockKey : String → Int} {s next : Database} {a : DatabaseStep} {t : Tx} {rows rows' : Workers}

inductive Moves (lockKey : String → Int) (s : Database) : DatabaseStep → Database → Prop
  | start (tx : Nat) (call : TxCall) : Moves lockKey s (.start tx call) (s.setPhase tx ⟨call, .begun⟩ .begun)
  | lock {tx} {t : Tx} {name phase locks}
      (known : s.txs tx = some t) (lock : t.lock? = some (name, phase))
      (keeps : ∀ other k, s.locks.Holds other k → locks.Holds other k)
      (taken : ∀ wanted ∈ name, locks.Holds tx (lockKey wanted)) :
      Moves lockKey s (.lock tx) { s.setPhase tx t phase with locks := locks }
  | read {tx} {t : Tx} {phase} (known : s.txs tx = some t)
      (read : t.read? s.rows = some (some phase)) :
      Moves lockKey s (.read tx) (s.setPhase tx t phase)
  | finish {a : DatabaseStep} (tx : Nat) : Moves lockKey s a (s.finish tx)
  | commit {tx} {t : Tx} {locked now} {rows : Workers}
      {created} (known : s.txs tx = some t)
      (write : t.write? s.rows locked now = some (rows, created)) :
      Moves lockKey s (.commit tx locked now) { (s.setRows rows).finish tx with created := created.toList ++ s.created }
  | other {op} (free : op.lockFree = true) : Moves lockKey s (.other op) (s.setRows (op.apply s.rows).1)

theorem databaseStep_moves (ha : (databaseMachine lockKey).step s a = some next) : Moves lockKey s a next := by
  cases a with
  | start tx call =>
    obtain ⟨-, ⟨⟩⟩ := ite_none_right_eq_some.mp ha
    exact .start tx call
  | lock =>
    obtain ⟨t, hk, ha⟩ := bind_eq_some_iff.mp ha
    obtain ⟨⟨name, phase⟩, lock, ha⟩ := bind_eq_some_iff.mp ha
    cases name with
    | none =>
      cases ha
      exact .lock hk lock (fun _ _ hh => hh) nofun
    | some name =>
      obtain ⟨locks, acquired, rfl⟩ := map_eq_some_iff.mp ha
      refine .lock hk lock (fun _ _ hh => hh.acquire acquired) ?_
      rintro _ ⟨⟩
      exact Locks.holds_acquire acquired
  | read tx =>
    obtain ⟨t, hk, ha⟩ := bind_eq_some_iff.mp ha
    obtain ⟨result, read, rfl⟩ := map_eq_some_iff.mp ha
    cases result with
    | none => exact .finish tx
    | some phase => exact .read hk read
  | commit =>
    obtain ⟨t, hk, ha⟩ := bind_eq_some_iff.mp ha
    obtain ⟨⟨rows, created⟩, write, rfl⟩ := map_eq_some_iff.mp ha
    exact .commit hk write
  | abort tx =>
    obtain ⟨t, -, rfl⟩ := map_eq_some_iff.mp ha
    exact .finish tx
  | other =>
    obtain ⟨free, ⟨⟩⟩ := ite_none_right_eq_some.mp ha
    exact .other free

/-! ## Locks of a transaction -/

def lockNames (t : Tx) : List String := match t.phase with
  | .begun => []
  | .firstLocked => t.call.firstLock.toList
  | _ => t.call.firstLock.toList ++ t.call.secondLock.toList

def LocksHeld (lockKey : String → Int) (s : Database) : Prop :=
  ∀ tx t, s.txs tx = some t → ∀ name ∈ lockNames t, s.locks.Holds tx (lockKey name)

theorem locksHeld_init (lockKey : String → Int) (first : Workers) : LocksHeld lockKey (.init first) := by nofun

variable {tx : Nat} {phase : TxPhase}

theorem txs_setPhase {other hf} (hk : (s.setPhase tx t phase).txs other = some hf) :
    other = tx ∧ hf = { t with phase := phase } ∨ other ≠ tx ∧ s.txs other = some hf := by
  by_cases hs : other = tx
  · subst hs
    simp only [Database.setPhase, update_self] at hk
    exact .inl ⟨rfl, (Option.some.inj hk).symm⟩
  · simp only [Database.setPhase, update_of_ne hs] at hk
    exact .inr ⟨hs, hk⟩

theorem txs_finish {other hf} (hk : (s.finish tx).txs other = some hf) : other ≠ tx ∧ s.txs other = some hf := by
  by_cases hs : other = tx
  · subst hs
    simp only [Database.finish, update_self] at hk
    cases hk
  · simp only [Database.finish, update_of_ne hs] at hk
    exact ⟨hs, hk⟩

theorem read_cases (read : t.read? rows = some (some phase)) :
    (t.phase = .locked ∧ phase = .targetPassed ∧ t.call.targetReached rows = false) ∨
    (∃ r, t.call = .slot r ∧ t.phase = .targetPassed ∧ phase = .globalPassed ∧ r.globalReached rows = false) ∨
    (∃ r, t.call = .slot r ∧ t.phase = .globalPassed ∧ phase = .numbered (nextWorkerID rows)) := by
  unfold Tx.read? at read
  split at read
  · rename_i current
    split at read <;> cases read
    exact .inl ⟨current, rfl, Bool.eq_false_of_not_eq_true ‹_›⟩
  · rename_i r current call
    split at read <;> cases read
    exact .inr (.inl ⟨r, call, current, rfl, Bool.eq_false_of_not_eq_true ‹_›⟩)
  · rename_i r current call
    cases read
    exact .inr (.inr ⟨r, call, current, rfl⟩)
  · cases read

theorem read_lockNames (read : t.read? rows = some (some phase)) :
    lockNames { t with phase := phase } = lockNames t := by
  rcases read_cases read with ⟨current, rfl, -⟩ | ⟨r, -, current, rfl, -⟩ | ⟨r, -, current, rfl⟩
  all_goals simp [lockNames, current]

theorem lock_phase {name} (lock : t.lock? = some (name, phase)) : phase = .firstLocked ∨ phase = .locked := by
  obtain ⟨call, current⟩ := t
  cases current <;> cases lock <;> simp

theorem lock_lockNames {name} (lock : t.lock? = some (name, phase)) :
    lockNames { t with phase := phase } = lockNames t ++ name.toList := by
  obtain ⟨call, current⟩ := t
  cases current <;> cases lock <;> rfl

theorem LocksHeld.finish (hl : LocksHeld lockKey s) (tx : Nat) : LocksHeld lockKey (s.finish tx) := by
  intro other hf hk name hm
  obtain ⟨ne, old⟩ := txs_finish hk
  exact (hl other hf old name hm).release ne

theorem LocksHeld.lock (hl : LocksHeld lockKey s) (hk : s.txs tx = some t) (name : Option String) {locks}
    (names : lockNames { t with phase := phase } = lockNames t ++ name.toList)
    (keeps : ∀ other k, s.locks.Holds other k → locks.Holds other k)
    (taken : ∀ new ∈ name, locks.Holds tx (lockKey new)) :
    LocksHeld lockKey { s.setPhase tx t phase with locks := locks } := by
  intro other hf later wanted hm
  rcases txs_setPhase later with ⟨rfl, rfl⟩ | ⟨-, old⟩
  · rw [names, mem_append] at hm
    rcases hm with old | new
    · exact keeps _ _ (hl other t hk wanted old)
    · exact taken wanted (mem_toList.mp new)
  · exact keeps _ _ (hl other hf old wanted hm)

theorem locksHeld_step (hl : LocksHeld lockKey s)
    (ha : (databaseMachine lockKey).step s a = some next) : LocksHeld lockKey next := by
  cases databaseStep_moves ha with
  | start =>
    intro other hf hk name hm
    rcases txs_setPhase hk with ⟨rfl, rfl⟩ | ⟨-, old⟩
    · cases hm
    · exact hl other hf old name hm
  | lock hk lock keeps ht => exact hl.lock hk _ (lock_lockNames lock) keeps ht
  | read hk read =>
    refine hl.lock hk none ?_ (fun _ _ hh => hh) nofun
    rw [read_lockNames read, toList_none, append_nil]
  | finish tx => exact hl.finish tx
  | commit => exact hl.finish _
  | other => exact hl

theorem rewrite_claimCandidate {u} (hk : StoreUpdate u)
    (candidate : Option WorkerRecord) : Rewrite rows (Tx.claimCandidate rows u candidate) := by
  cases candidate with
  | none => exact .same
  | some row =>
    change Rewrite rows (rows.claimRow row.workerID u).1
    rcases claimRow_table row.workerID u with hs | modified
    · rw [hs]
      exact .same
    · rw [modified]
      exact .update row.workerID hk

theorem write_cases {locked now created} (write : t.write? rows locked now = some (rows', created)) :
    (created = none ∧ rows' = rows) ∨
    (∃ r workerID, t = ⟨.slot r, .numbered workerID⟩ ∧ created = some workerID ∧
      rows.insert? (r.record workerID now) = some rows') ∨
    (∃ owner orgID image maxOrg maxGlobal,
      t = ⟨.claimIdle owner orgID image maxOrg maxGlobal, .targetPassed⟩ ∧ created = none ∧
        rows' = Tx.claimCandidate rows (claimIdleUpdate owner orgID now) (rows.idleCandidate image locked)) ∨
    (∃ owner orgID maxOrg, t = ⟨.claimHotIdle owner orgID maxOrg, .targetPassed⟩ ∧ created = none ∧
      rows' = Tx.claimCandidate rows (claimHotIdleUpdate owner orgID now)
        (rows.hotIdleCandidate orgID locked)) := by
  obtain ⟨call, phase⟩ := t
  unfold Tx.write? at write
  split at write
  · rename_i workerID r current slot
    cases current
    cases slot
    rcases insertRow_cases (r.record workerID now) .done with ⟨new, hi, hs⟩ | hs
    · rw [hs] at write
      cases write
      exact .inr (.inl ⟨r, workerID, rfl, rfl, hi⟩)
    · rw [hs] at write
      cases write
      exact .inl ⟨rfl, rfl⟩
  · rename_i owner orgID image maxOrg maxGlobal current claim
    cases current
    cases claim
    cases write
    exact .inr (.inr (.inl ⟨owner, orgID, image, maxOrg, maxGlobal, rfl, rfl, rfl⟩))
  · rename_i owner orgID maxOrg current claim
    cases current
    cases claim
    cases write
    exact .inr (.inr (.inr ⟨owner, orgID, maxOrg, rfl, rfl, rfl⟩))
  · cases write

theorem write_rewrite {locked now created} (write : t.write? rows locked now = some (rows', created)) :
    (created = none ∧ Rewrite rows rows') ∨
    (∃ r workerID, t = ⟨.slot r, .numbered workerID⟩ ∧ created = some workerID ∧
      rows.insert? (r.record workerID now) = some rows') := by
  rcases write_cases write with ⟨none, rfl⟩ | slot | ⟨owner, orgID, _, _, _, -, none, rfl⟩ |
    ⟨owner, orgID, _, -, none, rfl⟩
  · exact .inl ⟨none, .same⟩
  · exact .inr slot
  · exact .inl ⟨none, rewrite_claimCandidate (.claimIdle owner orgID now) _⟩
  · exact .inl ⟨none, rewrite_claimCandidate (.claimHotIdle owner orgID now) _⟩

theorem databaseStep_rows (ha : (databaseMachine lockKey).step s a = some next) :
    (next.rows = s.rows ∧ next.orgs = s.orgs) ∨
      Change s.rows next.rows ∧ next.orgs = Database.recordOrgs next.rows s.orgs := by
  cases databaseStep_moves ha with
  | start | lock | read | finish => exact .inl ⟨rfl, rfl⟩
  | commit _ write =>
    refine .inr ⟨?_, rfl⟩
    rcases write_rewrite write with ⟨-, rewritten⟩ | ⟨r, workerID, -, -, hi⟩
    · exact .rewrite rewritten
    · exact .insert hi
  | @other op => exact .inr ⟨apply_change op, rfl⟩

structure CapRule where
  measure : Workers → Nat
  cap : Int
  lock : String
  applies : TxCall → Prop
  -- the transaction has found room under the cap
  passed : Tx → Prop
  locked : ∀ t, passed t → lock ∈ lockNames t
  waiting : ∀ (t : Tx) name phase, t.lock? = some (name, phase) → ¬ passed { t with phase := phase }
  entered : ∀ rows t phase, applies t.call → t.read? rows = some (some phase) →
    passed { t with phase := phase } → passed t ∨ measure rows < cap
  written : ∀ rows rows' t locked now created, t.write? rows locked now = some (rows', created) →
    measure rows' ≤ measure rows ∨ passed t ∧ measure rows' ≤ measure rows + 1

structure Capped (rule : CapRule) (s : Database) : Prop where
  bound : rule.measure s.rows ≤ rule.cap
  room : ∀ tx t, s.txs tx = some t → rule.passed t → rule.measure s.rows < rule.cap
  applies : ∀ tx t, s.txs tx = some t → rule.applies t.call

variable {rule : CapRule}

theorem capped_init {first} (start : rule.measure first ≤ rule.cap) : Capped rule (.init first) where
  bound := start
  room _ _ hk := by cases hk
  applies _ _ hk := by cases hk

section
variable (capped : Capped rule s)
include capped

theorem Capped.finish (tx : Nat) : Capped rule (s.finish tx) where
  bound := capped.bound
  room other hf hk := capped.room other hf (txs_finish hk).2
  applies other hf hk := capped.applies other hf (txs_finish hk).2

theorem Capped.setPhase (applies : rule.applies t.call)
    (room : rule.passed { t with phase := phase } → rule.measure s.rows < rule.cap) :
    Capped rule (s.setPhase tx t phase) where
  bound := capped.bound
  room other hf hk passed := by
    rcases txs_setPhase hk with ⟨rfl, rfl⟩ | ⟨-, old⟩
    · exact room passed
    · exact capped.room other hf old passed
  applies other hf hk := by
    rcases txs_setPhase hk with ⟨rfl, rfl⟩ | ⟨-, old⟩
    · exact applies
    · exact capped.applies other hf old

theorem Capped.setRows (le : rule.measure rows ≤ rule.measure s.rows) :
    Capped rule (s.setRows rows) where
  bound := (Int.ofNat_le.mpr le).trans capped.bound
  room other hf hk passed := Int.lt_of_le_of_lt (Int.ofNat_le.mpr le) (capped.room other hf hk passed)
  applies := capped.applies

theorem Capped.commit (hl : LocksHeld lockKey s) (hk : s.txs tx = some t) (passed : rule.passed t)
    (le : rule.measure rows ≤ rule.measure s.rows + 1) :
    Capped rule ((s.setRows rows).finish tx) where
  bound := by
    have room := capped.room tx t hk passed
    show (rule.measure rows : Int) ≤ rule.cap
    omega
  room other hf later alsoPassed := by
    obtain ⟨ne, old⟩ := txs_finish later
    have mine := hl tx t hk rule.lock (rule.locked t passed)
    have theirs := hl other hf old rule.lock (rule.locked hf alsoPassed)
    exact absurd (theirs.unique mine) ne
  applies other hf later := capped.applies other hf (txs_finish later).2

theorem capped_step (hl : LocksHeld lockKey s)
    (starts : ∀ tx call, a = .start tx call → rule.applies call)
    (kept : ∀ op, a = .other op → op.lockFree = true → rule.measure (op.apply s.rows).1 ≤ rule.measure s.rows)
    (ha : (databaseMachine lockKey).step s a = some next) : Capped rule next := by
  cases databaseStep_moves ha with
  | start tx call =>
    refine capped.setPhase (starts tx call rfl) fun passed => ?_
    cases rule.locked _ passed
  | @lock tx t name phase _ hk lock =>
    have hd : Capped rule (s.setPhase tx t phase) :=
      capped.setPhase (capped.applies tx t hk) fun passed => absurd passed (rule.waiting t name phase lock)
    exact ⟨hd.bound, hd.room, hd.applies⟩
  | @read tx t phase hk read =>
    have applies := capped.applies tx t hk
    refine capped.setPhase applies fun passed => ?_
    rcases rule.entered s.rows t phase applies read passed with before | room
    · exact capped.room tx t hk before
    · exact room
  | finish tx => exact capped.finish tx
  | @commit tx t locked now rows created hk write =>
    have finished : Capped rule ((s.setRows rows).finish tx) := by
      rcases rule.written s.rows rows t locked now created write with le | ⟨passed, le⟩
      · exact (capped.setRows le).finish tx
      · exact capped.commit hl hk passed le
    exact ⟨finished.bound, finished.room, finished.applies⟩
  | @other op free => exact capped.setRows (kept op rfl free)

end

def activeCount (rows : Workers) : Nat := countActiveWorkers rows fun _ => true

theorem StoreUpdate.active {u row new} (hk : StoreUpdate u)
    (hap : u.apply row = some new) (active : new.state ∈ workerActiveStates) :
    row.state ∈ workerActiveStates := by
  have settles : Settles row new := hk.protected hap
  by_contra hin
  rw [active_iff, not_and_or, not_not, not_not] at hin
  rw [settles.terminal hin, active_iff] at active
  exact hin.elim active.1 active.2

theorem Rewrite.activeCount_le (rewritten : Rewrite rows rows') : activeCount rows' ≤ activeCount rows := by
  cases rewritten with
  | same => exact Nat.le_refl _
  | update _ hk =>
    refine Table.count_modify_le _ fun row new _ hap active => ?_
    simp only [Bool.and_true, decide_eq_true_eq] at active ⊢
    exact hk.active hap active

def globalPassed : Tx → Prop
  | ⟨.slot _, .globalPassed⟩ | ⟨.slot _, .numbered _⟩ => True
  | _ => False

def globalRule (cap : Int) (positive : 0 < cap) : CapRule where
  measure := activeCount
  cap := cap
  lock := globalLock
  applies
    | .slot r => r.maxGlobalWorkers = cap
    | _ => True
  passed := globalPassed
  locked t passed := by
    unfold globalPassed at passed
    split at passed
    · simp [lockNames, TxCall.secondLock]
    · simp [lockNames, TxCall.secondLock]
    · cases passed
  waiting t name phase lock := by
    rcases lock_phase lock with rfl | rfl <;> rcases t with ⟨_ | _ | _, _⟩ <;> exact id
  entered := by
    intro rows t phase applies read passed
    rcases read_cases read with ⟨-, rfl, -⟩ | ⟨r, call, -, rfl, room⟩ | ⟨r, call, current, rfl⟩
    · cases t with
      | mk call => cases call <;> exact passed.elim
    · right
      rw [call] at applies
      have room : ¬ (0 < r.maxGlobalWorkers ∧ r.maxGlobalWorkers ≤ activeCount rows) := of_decide_eq_false room
      have fixed : r.maxGlobalWorkers = cap := applies
      omega
    · left
      cases t with
      | mk =>
        cases call
        cases current
        trivial
  written := by
    intro rows rows' t locked now created write
    rcases write_rewrite write with ⟨-, rewritten⟩ | ⟨r, workerID, rfl, -, hi⟩
    · exact .inl rewritten.activeCount_le
    · exact .inr ⟨trivial, Table.count_insert_le hi _⟩

theorem Rewrite.ids (rewritten : Rewrite rows rows') :
    rows'.rows.map WorkerRecord.workerID = rows.rows.map WorkerRecord.workerID := by
  cases rewritten with
  | same => rfl
  | @update workerID u =>
    rw [Table.modify, map_map]
    exact map_congr_left fun row _ => Table.key_rewrite workerID u row

structure FreshIDs (first : Workers) (s : Database) : Prop where
  numbered : ∀ tx r workerID, s.txs tx = some ⟨.slot r, .numbered workerID⟩ →
    ∀ id ∈ s.rows.rows.map WorkerRecord.workerID, id < workerID
  nodup : s.created.Nodup
  present : ∀ id ∈ s.created, id ∈ s.rows.rows.map WorkerRecord.workerID
  new : ∀ id ∈ s.created, id ∉ first.rows.map WorkerRecord.workerID
  kept : ∀ id ∈ first.rows.map WorkerRecord.workerID, id ∈ s.rows.rows.map WorkerRecord.workerID

variable {first : Workers}

section
variable (fresh : FreshIDs first s)
include fresh

theorem FreshIDs.txs {txs : Nat → Option Tx} {locks}
    (numbered : ∀ tx r workerID, txs tx = some ⟨.slot r, .numbered workerID⟩ →
      ∀ id ∈ s.rows.rows.map WorkerRecord.workerID, id < workerID) :
    FreshIDs first { s with txs := txs, locks := locks } :=
  ⟨numbered, fresh.nodup, fresh.present, fresh.new, fresh.kept⟩

theorem FreshIDs.finish (tx : Nat) : FreshIDs first (s.finish tx) :=
  fresh.txs fun other r workerID hk => fresh.numbered other r workerID (txs_finish hk).2

theorem FreshIDs.setPhase {tx t phase}
    (above : ∀ workerID, phase = .numbered workerID → ∀ id ∈ s.rows.rows.map WorkerRecord.workerID, id < workerID) :
    FreshIDs first (s.setPhase tx t phase) := by
  refine fresh.txs fun other r workerID hk => ?_
  rcases txs_setPhase hk with ⟨-, hs⟩ | ⟨-, old⟩
  · exact above workerID (congrArg Tx.phase hs).symm
  · exact fresh.numbered other r workerID old

theorem FreshIDs.setRows (rewritten : Rewrite s.rows rows) :
    FreshIDs first (s.setRows rows) := by
  obtain ⟨numbered, nodup, present, new, kept⟩ := fresh
  rw [← rewritten.ids] at numbered present kept
  exact ⟨numbered, nodup, present, new, kept⟩

end

theorem nextWorkerID_above (rows : Workers) : ∀ id ∈ rows.rows.map WorkerRecord.workerID, id < nextWorkerID rows := by
  intro id hm
  obtain ⟨row, hf, rfl⟩ := mem_map.mp hm
  exact Int.lt_add_one_of_le (Table.le_maxKey hf)

theorem FreshIDs.commit (fresh : FreshIDs first s) (hl : LocksHeld lockKey s) {tx r workerID now}
    (hk : s.txs tx = some ⟨.slot r, .numbered workerID⟩)
    (hi : s.rows.insert? (r.record workerID now) = some rows) :
    FreshIDs first { (s.setRows rows).finish tx with created := workerID :: s.created } := by
  have ids : rows.rows.map WorkerRecord.workerID =
      s.rows.rows.map WorkerRecord.workerID ++ [workerID] := by
    rw [(Table.insert?_eq_some hi).2, map_append]
    rfl
  have above := fresh.numbered tx r workerID hk
  have notYet : workerID ∉ s.rows.rows.map WorkerRecord.workerID := fun hm => Int.lt_irrefl _ (above workerID hm)
  have grown : ∀ id ∈ s.rows.rows.map WorkerRecord.workerID, id ∈ rows.rows.map WorkerRecord.workerID :=
    fun id hm => by
      rw [ids]
      exact mem_append_left _ hm
  constructor
  · -- another transaction with a number would hold the global lock as well
    intro other r' workerID' later
    obtain ⟨ne, old⟩ := txs_finish later
    have mine := hl tx _ hk globalLock (by simp [lockNames, TxCall.secondLock])
    have theirs := hl other _ old globalLock (by simp [lockNames, TxCall.secondLock])
    exact absurd (theirs.unique mine) ne
  · exact nodup_cons.mpr ⟨fun hm => notYet (fresh.present _ hm), fresh.nodup⟩
  · intro id hm
    rcases mem_cons.mp hm with rfl | old
    · show id ∈ rows.rows.map WorkerRecord.workerID
      rw [ids]
      exact mem_append_right _ (mem_singleton_self _)
    · exact grown id (fresh.present id old)
  · intro id hm
    rcases mem_cons.mp hm with rfl | old
    · exact fun earlier => notYet (fresh.kept _ earlier)
    · exact fresh.new id old
  · exact fun id hm => grown id (fresh.kept id hm)

theorem freshIDs_step (fresh : FreshIDs first s) (hl : LocksHeld lockKey s)
    (existing : ∀ op, a = .other op → inserts s.rows op = false)
    (ha : (databaseMachine lockKey).step s a = some next) : FreshIDs first next := by
  cases databaseStep_moves ha with
  | start => exact fresh.setPhase nofun
  | @lock tx t _ phase _ _ lock =>
    have hd : FreshIDs first (s.setPhase tx t phase) := by
      refine fresh.setPhase ?_
      rintro workerID rfl
      rcases lock_phase lock with ⟨⟨⟩⟩ | ⟨⟨⟩⟩
    exact hd.txs hd.numbered
  | read _ read =>
    refine fresh.setPhase ?_
    rintro workerID rfl
    rcases read_cases read with ⟨-, ⟨⟩, -⟩ | ⟨r, -, -, ⟨⟩, -⟩ | ⟨r, -, -, ⟨⟩⟩
    exact nextWorkerID_above s.rows
  | finish tx => exact fresh.finish tx
  | commit hk write =>
    rcases write_rewrite write with ⟨rfl, rewritten⟩ | ⟨r, workerID, rfl, rfl, hi⟩
    · exact (fresh.setRows rewritten).finish _
    · exact fresh.commit hl hk hi
  | @other op => exact fresh.setRows (apply_rewrite op (existing op rfl))

def FixedGlobalCap (cap : Int) (s : Database) : DatabaseStep → Prop
  | .start _ (.slot r) => r.maxGlobalWorkers = cap
  | .other op => inserts s.rows op = false
  | _ => True

structure GloballyCapped (lockKey : String → Int) (rule : CapRule) (first : Workers) (s : Database) :
    Prop where
  held : LocksHeld lockKey s
  capped : Capped rule s
  fresh : FreshIDs first s

theorem globallyCapped_init {cap : Int} {positive : 0 < cap} (start : activeCount first ≤ cap) :
    GloballyCapped lockKey (globalRule cap positive) first (.init first) where
  held := locksHeld_init lockKey first
  capped := capped_init start
  fresh :=
    { numbered _ _ _ hk := by cases hk
      nodup := nodup_nil
      present _ hm := by cases hm
      new _ hm := by cases hm
      kept _ hm := hm }

theorem globallyCapped_step {cap} {positive : 0 < cap}
    (inv : GloballyCapped lockKey (globalRule cap positive) first s) (fixed : FixedGlobalCap cap s a)
    (ha : (databaseMachine lockKey).step s a = some next) :
    GloballyCapped lockKey (globalRule cap positive) first next where
  held := locksHeld_step inv.held ha
  capped := by
    refine capped_step inv.capped inv.held ?_ ?_ ha
    · rintro tx call rfl
      cases call with
      | slot => exact fixed
      | claimIdle => trivial
      | claimHotIdle => trivial
    · rintro op rfl -
      exact (apply_rewrite op fixed).activeCount_le
  fresh := by
    refine freshIDs_step inv.fresh inv.held ?_ ha
    rintro op rfl
    exact fixed

theorem active_workers_capped (lockKey : String → Int) (cap : Int) (positive : 0 < cap)
    (first : Workers) (start : countActiveWorkers first (fun _ => true) ≤ cap)
    (steps : List DatabaseStep) {final : Database}
    (fixed : (databaseMachine lockKey).Obeys (FixedGlobalCap cap) (.init first) steps)
    (run : (databaseMachine lockKey).run (.init first) steps = some final) :
    countActiveWorkers final.rows (fun _ => true) ≤ cap ∧ final.created.Nodup ∧
    (∀ id ∈ final.created, first.find? id = none) ∧
    (∀ tx r id, final.txs tx = some ⟨.slot r, .numbered id⟩ → final.rows.find? id = none) := by
  have inv : GloballyCapped lockKey (globalRule cap positive) first final :=
    (databaseMachine lockKey).invariant_of_obeys _
      (fun _ _ _ => globallyCapped_step)
      (globallyCapped_init start) fixed run
  refine ⟨inv.capped.bound, inv.fresh.nodup, fun id hm => ?_, fun tx r id hk => ?_⟩
  · refine Table.find?_eq_none.mpr fun row old hs => ?_
    exact inv.fresh.new id hm (List.mem_map.mpr ⟨row, old, hs⟩)
  · refine Table.find?_eq_none.mpr fun row old hs => ?_
    have above := inv.fresh.numbered tx r id hk row.workerID (List.mem_map.mpr ⟨row, old, rfl⟩)
    rw [hs] at above
    exact Int.lt_irrefl _ above

def neutralRequest (owner : String) : SlotRequest := ⟨.neutral 5, owner, "duckgres-worker", "duckgres:1", 1⟩

def contendedSteps : List DatabaseStep :=
  [.start 1 (.slot (neutralRequest "a")), .start 2 (.slot (neutralRequest "b")), .lock 1, .lock 1,
   .read 1, .read 1, .read 1, .commit 1 [] 10, .lock 2, .lock 2, .read 2, .read 2]

theorem active_workers_capped_contended :
    ∃ final, (databaseMachine fun name => name.length).run (.init .empty) contendedSteps = some final ∧
      countActiveWorkers final.rows (fun _ => true) ≤ 1 ∧ final.created = [1] := by
  refine ⟨_, rfl, ?_, rfl⟩
  have fixed : (databaseMachine fun name => name.length).Obeys (FixedGlobalCap 1) (.init .empty)
      contendedSteps := by
    refine Machine.obeys_of_forall _ (fun a hm s => ?_) _
    simp only [contendedSteps, List.mem_cons, List.not_mem_nil, or_false] at hm
    rcases hm with rfl | rfl | rfl | rfl | rfl | rfl | rfl | rfl | rfl | rfl | rfl | rfl <;> trivial
  exact Int.ofNat_le.mp (active_workers_capped _ 1 (by decide) .empty (by decide) _ fixed rfl).1

end Duckgres.Proof.Store
