import Duckgres.Proof.Store.Fencing
import Duckgres.Proof.Store.Capacity

namespace Duckgres.Proof.Store
open Base Duckgres.Store Table

variable {lockKey : String → Int} {s next : Database} {a : DatabaseStep} {rows rows' : Workers} {org : String}

def OrgsRecorded (s : Database) : Prop :=
  ∀ workerID epoch orgID, s.orgs workerID epoch = some orgID →
    ∃ row, s.rows.find? workerID = some row ∧ epoch ≤ row.ownerEpoch ∧ (epoch = row.ownerEpoch → orgID = row.orgID)

theorem orgsRecorded_init (first : Workers) : OrgsRecorded (.init first) := by
  intro workerID epoch orgID hk
  simp only [Database.init, Database.recordOrgs] at hk
  split at hk
  · rename_i row hf
    obtain ⟨rfl, ⟨⟩⟩ := Option.ite_none_right_eq_some.mp hk
    exact ⟨row, hf, Int.le_refl _, fun _ => rfl⟩
  · cases hk

theorem orgsRecorded_step (recorded : OrgsRecorded s)
    (ha : (databaseMachine lockKey).step s a = some next) : OrgsRecorded next := by
  rcases databaseStep_rows ha with ⟨sameRows, sameOrgs⟩ | ⟨change, orgs⟩
  · rwa [OrgsRecorded, sameRows, sameOrgs]
  intro workerID epoch orgID hk
  rw [orgs] at hk
  unfold Database.recordOrgs at hk
  split at hk
  · rename_i row hf
    split at hk
    · rename_i hs
      cases hk
      exact ⟨row, hf, Int.le_of_eq hs.symm, fun _ => rfl⟩
    rename_i other
    -- epochs only grow, so the entry of an earlier epoch stays below the row's
    obtain ⟨old, oldFound, le, -⟩ := recorded workerID epoch orgID hk
    obtain ⟨later, laterFound, grown, -⟩ := change.rowsSucceed workerID old oldFound
    cases hf.symm.trans laterFound
    exact ⟨row, hf, le.trans grown, fun hs => absurd hs.symm other⟩
  · rename_i gone
    obtain ⟨old, oldFound, -⟩ := recorded workerID epoch orgID hk
    obtain ⟨later, laterFound, -⟩ := change.rowsSucceed workerID old oldFound
    cases gone.symm.trans laterFound

inductive OrgKept (org : String) (t : Workers) : Workers → Prop
  | same : OrgKept org t t
  | update (workerID : Int) {u} (known : StoreUpdate u)
      (keeps : ∀ row new, t.find? workerID = some row → u.apply row = some new → new.orgID = org → row.orgID = org) :
      OrgKept org t (t.modify workerID u)
  | insert {record} {next : Workers} (inserted : t.insert? record = some next)
      (other : record.orgID ≠ org) :
      OrgKept org t next

theorem Made.orgKept {op} (made : Made op rows rows')
    (keeps : ∀ {u row new}, Makes op u → u.apply row = some new → new.orgID = row.orgID) :
    OrgKept org rows rows' := by
  cases made with
  | same => exact .same
  | update workerID makes =>
    exact .update workerID makes.storeUpdate fun row new _ hap hs => (keeps makes hap).symm.trans hs

def CarriesOrg (s : Database) : StoreOp → Prop
  | .upsertWorkerRecord record _ => record.orgID = (s.orgs record.workerID record.ownerEpoch).getD ""
  | .takeOverWorker workerID _ orgID epoch _ => s.orgs workerID epoch = some orgID
  | _ => True

variable {record : WorkerRecord}

theorem recorded_of_carries (recorded : OrgsRecorded s) (named : org ≠ "")
    {now} (carries : CarriesOrg s (.upsertWorkerRecord record now)) (hs : record.orgID = org) :
    ∃ row, s.rows.find? record.workerID = some row ∧ record.ownerEpoch ≤ row.ownerEpoch ∧
      (record.ownerEpoch = row.ownerEpoch → row.orgID = org) := by
  have carried : record.orgID = (s.orgs record.workerID record.ownerEpoch).getD "" := carries
  cases hk : s.orgs record.workerID record.ownerEpoch with
  | none =>
    rw [hk] at carried
    exact absurd (hs.symm.trans carried) named
  | some orgID =>
    rw [hk] at carried
    obtain ⟨row, hf, le, current⟩ := recorded _ _ _ hk
    exact ⟨row, hf, le, fun hre => (current hre).symm.trans (carried.symm.trans hs)⟩

theorem orgKept_upsert (recorded : OrgsRecorded s) (named : org ≠ "")
    {now} (carries : CarriesOrg s (.upsertWorkerRecord record now)) :
    OrgKept org s.rows (s.rows.upsertWorkerRecord record now).1 := by
  rcases upsertWorkerRecord_cases record now with ⟨next, hi, result⟩ | ⟨old, next, hf, hap, result⟩ | ⟨error, result⟩
  · rw [result]
    refine .insert hi fun hs => ?_
    obtain ⟨row, hf, -⟩ := recorded_of_carries recorded named carries hs
    cases (insert?_eq_some hi).1.symm.trans hf
  · rw [result]
    refine .update _ (.upsert _) fun old new oldFound hap hs => ?_
    obtain ⟨passed, rfl⟩ := Update.guarded_apply.mp hap
    obtain ⟨hre, reachedFound, le, current⟩ := recorded_of_carries recorded named carries hs
    cases oldFound.symm.trans reachedFound
    rcases (of_decide_eq_true passed).2 with newer | ⟨epoch, -⟩
    · exact absurd le (Int.not_le.mpr newer)
    · exact current epoch.symm
  · rw [result]
    exact .same

theorem orgKept_apply (recorded : OrgsRecorded s) (named : org ≠ "") (op : StoreOp)
    (free : op.lockFree = true) (carries : CarriesOrg s op) :
    OrgKept org s.rows (op.apply s.rows).1 := by
  cases op with
  | upsertWorkerRecord => exact orgKept_upsert recorded named carries
  | takeOverWorker workerID owner orgID epoch now =>
    obtain ⟨row, hf, -, hs⟩ := recorded _ _ _ carries
    simp only [StoreOp.apply, Workers.takeOverWorker, hf]
    split
    · exact .same
    rename_i current
    split
    · exact .same
    rcases claimRow_table workerID (takeOverUpdate owner orgID epoch now) with
      unchanged | ht
    · rw [unchanged]
      exact .same
    · rw [ht]
      refine .update _ (.takeOver owner orgID epoch now) fun old new oldFound hap ht => ?_
      cases hf.symm.trans oldFound
      obtain ⟨-, rfl⟩ := guardedBump_apply hap
      exact (hs (not_not.mp current).symm).symm.trans ht
  | bumpWorkerEpoch =>
    refine (apply_made _ rfl).orgKept fun makes hap => ?_
    cases makes
    obtain ⟨-, rfl⟩ := guardedBump_apply hap
    rfl
  | markWorkerTerminalIfCurrent | retireHotIdleWorker | retireIdleOrHotIdleWorker
  | retireOrphanWorker | markCredentialsRefreshed | markWorkerLostIfCurrentLease
  | markWorkerDraining | retireDrainingWorker =>
    refine (apply_made _ rfl).orgKept fun makes hap => ?_
    cases makes
    obtain ⟨-, rfl⟩ := Update.guarded_apply.mp hap
    rfl
  | _ => cases free

/-! ## The cap of one organisation -/

def orgCount (org : String) (rows : Workers) : Nat := countActiveWorkers rows fun row => row.orgID = org

theorem orgCount_modify {workerID u} (hk : StoreUpdate u)
    (keeps : ∀ row new, rows.find? workerID = some row → u.apply row = some new → new.orgID = org → row.orgID = org) :
    orgCount org (rows.modify workerID u) ≤ orgCount org rows := by
  refine count_modify_le _ fun row new hf hap hc => ?_
  simp only [Bool.and_eq_true, decide_eq_true_eq] at hc ⊢
  exact ⟨hk.active hap hc.1, keeps row new hf hap hc.2⟩

theorem orgCount_claimCandidate {u} (hk : StoreUpdate u)
    (keeps : ∀ row new, u.apply row = some new → new.orgID = org → row.orgID = org)
    (candidate : Option WorkerRecord) :
    orgCount org (Tx.claimCandidate rows u candidate) ≤ orgCount org rows := by
  cases candidate with
  | none => exact Nat.le_refl _
  | some row =>
    simp only [Tx.claimCandidate]
    rcases claimRow_table row.workerID u with unchanged | hcl
    · rw [unchanged]
    · rw [hcl]
      exact orgCount_modify hk fun old new _ => keeps old new

theorem orgCount_claimCandidate_succ (u : WorkerUpdate) (candidate : Option WorkerRecord) :
    orgCount org (Tx.claimCandidate rows u candidate) ≤ orgCount org rows + 1 := by
  cases candidate with
  | none => exact Nat.le_succ _
  | some row =>
    simp only [Tx.claimCandidate]
    rcases claimRow_table row.workerID u with unchanged | hcl
    · rw [unchanged]
      exact Nat.le_succ _
    · rw [hcl]
      exact count_modify_le_succ _

theorem orgCount_insert_of_ne (hi : rows.insert? record = some rows')
    (other : record.orgID ≠ org) : orgCount org rows' = orgCount org rows := by
  refine (count_insert hi _).trans ?_
  simp only [other, decide_false, Bool.and_false]
  rfl

theorem OrgKept.orgCount_le (kept : OrgKept org rows rows') : orgCount org rows' ≤ orgCount org rows := by
  cases kept with
  | same => exact Nat.le_refl _
  | update _ hk keeps => exact orgCount_modify hk keeps
  | insert hi other => exact Nat.le_of_eq (orgCount_insert_of_ne hi other)

def orgPassed (org : String) : Tx → Prop
  | ⟨.slot r, .targetPassed⟩ | ⟨.slot r, .globalPassed⟩ | ⟨.slot r, .numbered _⟩ => r.orgID = org
  | ⟨.claimIdle _ orgID _ _ _, .targetPassed⟩ => orgID = org
  | _ => False

def UsesOrgCap (org : String) (cap : Int) : TxCall → Prop
  | .slot r => ∀ epoch maxOrg, r.kind = .spawning org epoch maxOrg → maxOrg = cap
  | .claimIdle _ orgID _ maxOrg _ => orgID = org → maxOrg = cap
  | .claimHotIdle .. => True

section
variable (named : org ≠ "")
include named

theorem spawning_of_orgID {r : SlotRequest} (hs : r.orgID = org) :
    ∃ epoch maxOrg, r.kind = .spawning org epoch maxOrg := by
  unfold SlotRequest.orgID at hs
  split at hs
  · rename_i epoch maxOrg kind
    rw [hs] at kind
    exact ⟨epoch, maxOrg, kind⟩
  · exact absurd hs.symm named

theorem firstLock_of_named : TxCall.orgLock? org = some (orgLock org) := if_neg named

theorem orgPassed_locked {t : Tx} (passed : orgPassed org t) : orgLock org ∈ lockNames t := by
  have first : orgLock org ∈ t.call.firstLock.toList := by
    obtain ⟨call, hp⟩ := t
    cases call with
    | slot r =>
      have hs : r.orgID = org := by cases hp <;> first | exact passed | exact passed.elim
      obtain ⟨epoch, maxOrg, kind⟩ := spawning_of_orgID named hs
      simp [TxCall.firstLock, kind, firstLock_of_named named]
    | claimIdle _ orgID =>
      have hs : orgID = org := by cases hp <;> first | exact passed | exact passed.elim
      simp [TxCall.firstLock, hs, firstLock_of_named named]
    | claimHotIdle => cases hp <;> exact passed.elim
  obtain ⟨call, hp⟩ := t
  cases hp with
  | begun | firstLocked => cases call <;> exact passed.elim
  | _ => exact List.mem_append_left _ first

theorem room_of_not_reached {cap count} (hpos : 0 < cap)
    (room : Workers.orgCapReached org cap count = false) : count < cap := by
  have vacant : ¬ (org ≠ "" ∧ capReached cap count = true) := of_decide_eq_false room
  have below : ¬ (0 < cap ∧ cap ≤ count) := fun hre => vacant ⟨named, decide_eq_true hre⟩
  omega

theorem room_of_target {cap : Int} {t : Tx} (hpos : 0 < cap)
    (uses : UsesOrgCap org cap t.call) (passed : orgPassed org { t with phase := .targetPassed })
    (room : t.call.targetReached rows = false) : orgCount org rows < cap := by
  obtain ⟨call, phase⟩ := t
  cases call with
  | slot =>
    obtain ⟨epoch, maxOrg, kind⟩ := spawning_of_orgID named passed
    obtain rfl : maxOrg = cap := uses epoch maxOrg kind
    simp only [TxCall.targetReached, SlotRequest.targetReached, kind] at room
    exact room_of_not_reached named hpos room
  | claimIdle _ orgID _ maxOrg =>
    obtain rfl : orgID = org := passed
    obtain rfl : maxOrg = cap := uses rfl
    exact room_of_not_reached named hpos room
  | claimHotIdle => exact passed.elim

end

theorem orgPassed_written {t locked now created} (write : t.write? rows locked now = some (rows', created)) :
    orgCount org rows' ≤ orgCount org rows ∨
      orgPassed org t ∧ orgCount org rows' ≤ orgCount org rows + 1 := by
  rcases write_cases write with ⟨-, rfl⟩ | ⟨r, workerID, rfl, -, hi⟩ |
    ⟨owner, orgID, image, maxOrg, maxGlobal, rfl, -, rfl⟩ | ⟨owner, orgID, maxOrg, rfl, -, rfl⟩
  · exact .inl (Nat.le_refl _)
  · by_cases hs : r.orgID = org
    · exact .inr ⟨hs, count_insert_le hi _⟩
    · exact .inl (Nat.le_of_eq (orgCount_insert_of_ne hi hs))
  · by_cases hs : orgID = org
    · exact .inr ⟨hs, orgCount_claimCandidate_succ _ _⟩
    · refine .inl (orgCount_claimCandidate (.claimIdle owner orgID now) (fun row new hap kept => ?_) _)
      obtain ⟨-, rfl⟩ := guardedBump_apply hap
      exact absurd kept hs
  · -- the claimed row is hot-idle, so it was counted before
    refine .inl (orgCount_claimCandidate (.claimHotIdle owner orgID now) (fun row new hap kept => ?_) _)
    obtain ⟨-, rfl⟩ := guardedBump_apply hap
    exact kept

def orgRule (org : String) (named : org ≠ "") (cap : Int) (positive : 0 < cap) : CapRule where
  measure := orgCount org
  cap := cap
  lock := orgLock org
  applies := UsesOrgCap org cap
  passed := orgPassed org
  locked _ passed := orgPassed_locked named passed
  waiting t name phase lock := by
    rcases lock_phase lock with rfl | rfl <;> rcases t with ⟨_ | _ | _, _⟩ <;> exact id
  entered := by
    rintro rows ⟨call, current⟩ phase uses read passed
    rcases read_cases read with ⟨-, rfl, room⟩ | ⟨r, rfl, rfl, rfl, -⟩ | ⟨r, rfl, rfl, rfl⟩
    · exact .inr (room_of_target named positive uses passed room)
    · exact .inl passed
    · exact .inl passed
  written _ _ _ _ _ _ write := orgPassed_written write

def FixedOrgCap (org : String) (cap : Int) (s : Database) : DatabaseStep → Prop
  | .start _ call => UsesOrgCap org cap call
  | .other op => CarriesOrg s op
  | _ => True

structure OrgCapped (lockKey : String → Int) (rule : CapRule) (s : Database) : Prop where
  held : LocksHeld lockKey s
  capped : Capped rule s
  recorded : OrgsRecorded s

theorem orgCapped_step {named : org ≠ ""} {cap} {positive : 0 < cap}
    (inv : OrgCapped lockKey (orgRule org named cap positive) s) (fixed : FixedOrgCap org cap s a)
    (ha : (databaseMachine lockKey).step s a = some next) :
    OrgCapped lockKey (orgRule org named cap positive) next where
  held := locksHeld_step inv.held ha
  capped := by
    refine capped_step inv.capped inv.held ?_ ?_ ha
    · rintro tx call rfl
      exact fixed
    · rintro op rfl free
      exact (orgKept_apply inv.recorded named op free fixed).orgCount_le
  recorded := orgsRecorded_step inv.recorded ha

theorem org_workers_capped (lockKey : String → Int) (org : String) (named : org ≠ "") (cap : Int)
    (positive : 0 < cap) (first : Workers)
    (start : countActiveWorkers first (fun row => row.orgID = org) ≤ cap)
    (steps : List DatabaseStep) {final : Database}
    (fixed : (databaseMachine lockKey).Obeys (FixedOrgCap org cap) (.init first) steps)
    (run : (databaseMachine lockKey).run (.init first) steps = some final) :
    countActiveWorkers final.rows (fun row => row.orgID = org) ≤ cap := by
  have init : OrgCapped lockKey (orgRule org named cap positive) (.init first) :=
    ⟨locksHeld_init lockKey first, capped_init start, orgsRecorded_init first⟩
  have inv : OrgCapped lockKey (orgRule org named cap positive) final :=
    (databaseMachine lockKey).invariant_of_obeys _ (fun _ _ _ => orgCapped_step) init fixed run
  exact inv.capped.bound

def acmeSteps : List DatabaseStep :=
  [.start 1 (.claimIdle "b" "acme" "" 1 0), .lock 1, .lock 1, .read 1,
   .start 2 (.slot ⟨.spawning "acme" 1 1, "a", "duckgres-worker", "duckgres:1", 0⟩),
   .commit 1 [] 7, .lock 2, .lock 2, .read 2,
   .other (.upsertWorkerRecord { idleRow with
     state := .hot, orgID := "acme", ownerCPInstanceID := some "b", ownerEpoch := 4, updatedAt := 0 } 8),
   .other (.takeOverWorker 1 "c" "acme" 4 9)]

theorem org_workers_capped_contended :
    ∃ final, (databaseMachine fun name => name.length).run (.init (oneRow idleRow)) acmeSteps =
        some final ∧
      countActiveWorkers final.rows (fun row => row.orgID = "acme") ≤ 1 ∧
      (final.rows.find? 1).map WorkerRecord.owner = some "c" := by
  refine ⟨_, rfl, ?_, rfl⟩
  have fixed : (databaseMachine fun name => name.length).Obeys (FixedOrgCap "acme" 1)
      (.init (oneRow idleRow)) acmeSteps := by
    refine .cons rfl (fun _ => rfl) (.cons rfl trivial (.cons rfl trivial (.cons rfl trivial
      (.cons rfl ?_ (.cons rfl trivial (.cons rfl trivial (.cons rfl trivial (.cons rfl trivial
        (.cons rfl rfl (.cons rfl rfl trivial))))))))))
    rintro epoch maxOrg ⟨⟩
    rfl
  exact Int.ofNat_le.mp (org_workers_capped _ "acme" (by decide) 1 (by decide) (oneRow idleRow) (by decide) _ fixed rfl)

end Duckgres.Proof.Store
