import Duckgres.Lifecycle.Service
import Duckgres.Proof.Store.Absorption

namespace Duckgres.Proof.Lifecycle
open Base Duckgres.Store Duckgres.Lifecycle Duckgres.Proof.Store List Option

def callOp : LifecycleCall → StoreOp
  | .retireFromSnapshot snap target reason now => .markWorkerTerminalIfCurrent snap.record target reason now
  | .retireOrphanFromSnapshot snap reason liveCPs now => .retireOrphanWorker snap.record reason liveCPs now
  | .retireIdleVariantFromSnapshot snap reason now => .retireIdleOrHotIdleWorker snap.record reason now
  | .markLostFromLease lease reason now =>
    .markWorkerLostIfCurrentLease lease.workerID lease.ownerCPInstanceID lease.ownerEpoch reason now
  | .drain lease now => .markWorkerDraining lease.workerID lease.ownerCPInstanceID lease.ownerEpoch now
  | .retireDrained lease reason now =>
    .retireDrainingWorker lease.workerID lease.ownerCPInstanceID lease.ownerEpoch reason now

def callWorker : LifecycleCall → Int
  | .retireFromSnapshot snap _ _ _ | .retireOrphanFromSnapshot snap _ _ _
  | .retireIdleVariantFromSnapshot snap _ _ => snap.record.workerID
  | .markLostFromLease lease _ _ | .drain lease _ | .retireDrained lease _ _ => lease.workerID

def callTarget : LifecycleCall → WorkerState
  | .retireFromSnapshot _ target _ _ => target
  | .markLostFromLease _ _ _ => .lost
  | .drain _ _ => .draining
  | _ => .retired

variable {t : Workers} {l : Option WorkerLifecycle}

section Answer
variable {service : WorkerLifecycle} {snap : WorkerSnapshot} {reason : String}
  {miss : TransitionOutcomeReason} {answer : Workers × OpResult}

theorem snapshotTransition_rows : (snapshotTransition service snap reason miss answer).rows = answer.1 := by
  unfold snapshotTransition
  split <;> rfl

theorem snapshotTransition_transitioned
    (done : (snapshotTransition service snap reason miss answer).outcome.transitioned = true) :
    answer.2 = .changed true := by
  unfold snapshotTransition at done
  split at done
  · cases done
  · assumption
  · cases done

theorem snapshotTransition_cleanup {request}
    (asked : (snapshotTransition service snap reason miss answer).cleanup = some request) :
    (snapshotTransition service snap reason miss answer).outcome.transitioned = true ∧
      request.workerID = snap.record.workerID := by
  unfold snapshotTransition at asked ⊢
  split at asked
  · cases asked
  · obtain ⟨-, ⟨⟩⟩ := ite_none_right_eq_some.mp asked
    exact ⟨rfl, rfl⟩
  · cases asked

theorem leaseTransition_rows : (leaseTransition answer).rows = answer.1 := by
  unfold leaseTransition
  split <;> rfl

theorem leaseTransition_transitioned (done : (leaseTransition answer).outcome.transitioned = true) :
    answer.2 = .changed true := by
  unfold leaseTransition at done
  split at done
  · cases done
  · assumption
  · cases done

theorem leaseTransition_cleanup : (leaseTransition answer).cleanup = none := by
  unfold leaseTransition
  split <;> rfl

end Answer

theorem call_rows (c : LifecycleCall) : (c.apply l t).rows = t ∨ (c.apply l t).rows = ((callOp c).apply t).1 := by
  cases l with
  | none => cases c <;> exact .inl rfl
  | some service =>
    cases c with
    | retireFromSnapshot =>
      simp only [LifecycleCall.apply, retireFromSnapshot]
      split
      · exact .inl rfl
      · exact .inr snapshotTransition_rows
    | retireOrphanFromSnapshot | retireIdleVariantFromSnapshot => exact .inr snapshotTransition_rows
    | markLostFromLease | drain | retireDrained => exact .inr leaseTransition_rows

theorem rowsSettle_call (l : Option WorkerLifecycle) (c : LifecycleCall) : RowsSettle t (c.apply l t).rows := by
  rcases call_rows c with hs | hap
  · rw [hs]
    exact RowsSettle.refl t
  · rw [hap]
    exact .apply _

variable {c : LifecycleCall} {record : WorkerRecord} {target : WorkerState} {now : Nat}

theorem call_transitioned (done : (c.apply l t).outcome.transitioned = true) :
    ((callOp c).apply t).2 = .changed true ∧ (c.apply l t).rows = ((callOp c).apply t).1 := by
  cases l with
  | none => cases c <;> cases done
  | some service =>
    cases c with
    | retireFromSnapshot =>
      simp only [LifecycleCall.apply, retireFromSnapshot] at done ⊢
      split at done
      · cases done
      · rename_i supported
        rw [if_neg supported]
        exact ⟨snapshotTransition_transitioned done, snapshotTransition_rows⟩
    | retireOrphanFromSnapshot | retireIdleVariantFromSnapshot =>
      exact ⟨snapshotTransition_transitioned done, snapshotTransition_rows⟩
    | markLostFromLease | drain | retireDrained => exact ⟨leaseTransition_transitioned done, leaseTransition_rows⟩

theorem call_cleanup {request} (asked : (c.apply l t).cleanup = some request) :
    (c.apply l t).outcome.transitioned = true ∧ request.workerID = callWorker c ∧
      (callTarget c = .retired ∨ callTarget c = .lost) := by
  cases l with
  | none => cases c <;> cases asked
  | some service =>
    cases c with
    | retireFromSnapshot =>
      simp only [LifecycleCall.apply, retireFromSnapshot] at asked ⊢
      split at asked
      · cases asked
      · rename_i supported
        rw [if_neg supported]
        obtain ⟨done, hs⟩ := snapshotTransition_cleanup asked
        exact ⟨done, hs, terminal_of_supported supported⟩
    | retireOrphanFromSnapshot | retireIdleVariantFromSnapshot =>
      obtain ⟨done, hs⟩ := snapshotTransition_cleanup asked
      exact ⟨done, hs, .inl rfl⟩
    | markLostFromLease | drain | retireDrained => cases leaseTransition_cleanup.symm.trans asked

theorem find?_of_changed {workerID u} (changed : (t.fenced workerID u).2 = .changed true) :
    ∃ row next, t.find? workerID = some row ∧ u.apply row = some next ∧
      (t.fenced workerID u).1.find? workerID = some next := by
  have affected : t.affects workerID u = true := by
    simpa [Workers.fenced] using changed
  obtain ⟨row, next, hf, hap⟩ := Table.affects_iff.mp affected
  refine ⟨row, next, hf, hap, ?_⟩
  simp [Workers.fenced, Table.find?_modify, hf, hap]

theorem terminal_applied {row next} {reason}
    (hap : (terminalUpdate record target reason now).apply row = some next) :
    row.state ∈ workerActiveStates ∧ next.state = target := by
  obtain ⟨passed, rfl⟩ := Update.guarded_apply.mp hap
  refine ⟨?_, rfl⟩
  have eligible := (of_decide_eq_true passed).2
  unfold workerTerminalEligibleStates at eligible
  split at eligible
  · revert eligible
    cases row.state <;> decide
  · exact eligible

theorem terminal_changed {reason}
    (changed : (t.fenced record.workerID (terminalUpdate record target reason now)).2 = .changed true) :
    ∃ row next, t.find? record.workerID = some row ∧ row.state ∈ workerActiveStates ∧
      (t.fenced record.workerID (terminalUpdate record target reason now)).1.find? record.workerID =
        some next ∧ next.state = target := by
  obtain ⟨row, next, hf, hap, hu⟩ := find?_of_changed changed
  obtain ⟨active, hre⟩ := terminal_applied hap
  exact ⟨row, next, hf, active, hu, hre⟩

theorem markTerminal_changed {reason}
    (changed : (t.markWorkerTerminalIfCurrent record target reason now).2 = .changed true) :
    (target = .retired ∨ target = .lost) ∧
      ∃ row next, t.find? record.workerID = some row ∧ row.state ∈ workerActiveStates ∧
        (t.markWorkerTerminalIfCurrent record target reason now).1.find? record.workerID = some next ∧
          next.state = target := by
  unfold Workers.markWorkerTerminalIfCurrent at changed ⊢
  split at changed
  · cases changed
  · rename_i supported
    rw [if_neg supported]
    exact ⟨terminal_of_supported supported, terminal_changed changed⟩

theorem active_of_lostEligible {state} (eligible : state ∈ workerLostEligibleStates) : state ∈ workerActiveStates := by
  revert eligible
  cases state <;> decide

theorem transitioned_row (done : (c.apply l t).outcome.transitioned = true) :
    ∃ row next, t.find? (callWorker c) = some row ∧ row.state ∈ workerActiveStates ∧
      (c.apply l t).rows.find? (callWorker c) = some next ∧ next.state = callTarget c ∧
        callTarget c ∈ protectedStates := by
  have retiredProtected : WorkerState.retired ∈ protectedStates := by decide
  have lostProtected : WorkerState.lost ∈ protectedStates := by decide
  have drainingProtected : WorkerState.draining ∈ protectedStates := by decide
  obtain ⟨changed, rows⟩ := call_transitioned done
  rw [rows]
  cases c with
  | retireFromSnapshot =>
    obtain ⟨terminal, row, next, hf, active, hu, hre⟩ := markTerminal_changed changed
    refine ⟨row, next, hf, active, hu, hre, ?_⟩
    rcases terminal with rfl | rfl
    · exact retiredProtected
    · exact lostProtected
  | retireOrphanFromSnapshot =>
    simp only [callOp, StoreOp.apply, Workers.retireOrphanWorker] at changed ⊢
    split at changed
    · cases changed
    · rename_i expired
      rw [if_neg expired]
      obtain ⟨row, next, hf, active, hu, hre⟩ := terminal_changed changed
      exact ⟨row, next, hf, active, hu, hre, retiredProtected⟩
  | retireIdleVariantFromSnapshot =>
    simp only [callOp, StoreOp.apply, Workers.retireIdleOrHotIdleWorker] at changed ⊢
    split at changed
    · cases changed
    · rename_i idle
      rw [if_neg idle]
      obtain ⟨-, row, next, hf, active, hu, hre⟩ := markTerminal_changed changed
      exact ⟨row, next, hf, active, hu, hre, retiredProtected⟩
  | markLostFromLease =>
    obtain ⟨row, next, hf, hap, hu⟩ := find?_of_changed changed
    obtain ⟨passed, rfl⟩ := Update.guarded_apply.mp hap
    have eligible := (of_decide_eq_true passed).2
    exact ⟨row, _, hf, active_of_lostEligible eligible, hu, rfl, lostProtected⟩
  | drain =>
    obtain ⟨row, next, hf, hap, hu⟩ := find?_of_changed changed
    obtain ⟨passed, rfl⟩ := Update.guarded_apply.mp hap
    have eligible := (of_decide_eq_true passed).2
    exact ⟨row, _, hf, active_of_lostEligible eligible, hu, rfl, drainingProtected⟩
  | retireDrained =>
    obtain ⟨row, next, hf, hap, hu⟩ := find?_of_changed changed
    obtain ⟨passed, rfl⟩ := Update.guarded_apply.mp hap
    have draining := (of_decide_eq_true passed).2
    exact ⟨row, _, hf, by rw [draining]; decide, hu, rfl, retiredProtected⟩

variable {s seen middle next final : ServiceState} {a : ServiceStep} {workerID : Int} {row : WorkerRecord}

theorem serviceStep_settles (ha : serviceMachine.step s a = some next) : RowsSettle s.rows next.rows := by
  cases a with
  | store op =>
    cases ha
    exact .apply op
  | call l c =>
    cases ha
    exact rowsSettle_call l c
  | schedule =>
    obtain ⟨-, ⟨⟩⟩ := ite_none_right_eq_some.mp ha
    exact RowsSettle.refl _

def StampsLater (s : ServiceState) (a : ServiceStep) : Prop :=
  ∀ next, serviceMachine.step s a = some next → ∀ workerID row new,
    s.rows.find? workerID = some row → next.rows.find? workerID = some new → new ≠ row → row.updatedAt < new.updatedAt

def Since (row later : WorkerRecord) : Prop := later = row ∨ row.updatedAt < later.updatedAt

theorem since_step {first} (since : Since first row) (hf : s.rows.find? workerID = some row) (stamps : StampsLater s a)
    (ha : serviceMachine.step s a = some next) :
    ∃ later, next.rows.find? workerID = some later ∧ Since first later := by
  obtain ⟨later, laterFound, -⟩ := serviceStep_settles ha workerID row hf
  refine ⟨later, laterFound, ?_⟩
  by_cases hs : later = row
  · rwa [hs]
  · have newer := stamps next ha workerID row later hf laterFound hs
    rcases since with rfl | older
    · exact .inr newer
    · exact .inr (older.trans newer)

theorem since_run {steps}
    (hf : seen.rows.find? workerID = some row) (stamps : serviceMachine.Obeys StampsLater seen steps)
    (run : serviceMachine.run seen steps = some final) :
    ∃ later, final.rows.find? workerID = some later ∧ Since row later := by
  refine serviceMachine.invariant_of_obeys
    (fun s => ∃ later, s.rows.find? workerID = some later ∧ Since row later) ?_
    ⟨row, hf, .inl rfl⟩ stamps run
  rintro s a next ⟨later, laterFound, since⟩ legal ha
  exact since_step since laterFound legal ha

theorem unchanged_since {last before after} (hf : seen.rows.find? workerID = some row)
    (stamps : serviceMachine.Obeys StampsLater seen (before ++ after))
    (beforeRun : serviceMachine.run seen before = some middle)
    (afterRun : serviceMachine.run middle after = some final)
    (lastFound : final.rows.find? workerID = some last) (current : last.updatedAt ≤ row.updatedAt) :
    middle.rows.find? workerID = some row := by
  obtain ⟨mid, midFound, fromSnapshot⟩ := since_run hf stamps.left beforeRun
  obtain ⟨ended, endFound, fromMiddle⟩ := since_run midFound (stamps.right beforeRun) afterRun
  cases lastFound.symm.trans endFound
  rcases fromSnapshot with rfl | newer
  · exact midFound
  · rcases fromMiddle with rfl | newest <;> omega

theorem current_of_changed {t : Workers} {target : WorkerState} {reason : String}
    {now : Nat} (observed : row.updatedAt ≠ 0)
    (changed : (t.fenced row.workerID (terminalUpdate row target reason now)).2 = .changed true) :
    ∃ last, t.find? row.workerID = some last ∧ last.updatedAt ≤ row.updatedAt := by
  obtain ⟨last, new, hf, hap, -⟩ := find?_of_changed changed
  obtain ⟨passed, -⟩ := Update.guarded_apply.mp hap
  obtain ⟨-, -, -, stamp⟩ := of_decide_eq_true (of_decide_eq_true passed).1
  rcases stamp with zero | older
  · exact absurd zero observed
  · exact ⟨last, hf, older⟩

def Terminal (rows : Workers) (workerID : Int) : Prop :=
  ∃ row, rows.find? workerID = some row ∧ (row.state = .retired ∨ row.state = .lost)

theorem Terminal.settle {t later} (terminal : Terminal t workerID)
    (settle : RowsSettle t later) : Terminal later workerID := by
  obtain ⟨row, hf, hre⟩ := terminal
  obtain ⟨last, lastFound, settles⟩ := settle workerID row hf
  refine ⟨last, lastFound, ?_⟩
  rwa [settles.terminal hre]

structure CleanedOnce (s : ServiceState) : Prop where
  once : ((s.requested ++ s.scheduled).map CleanupRequest.workerID).Nodup
  terminal : ∀ request ∈ s.requested ++ s.scheduled, Terminal s.rows request.workerID

theorem CleanedOnce.rows {later} (cleaned : CleanedOnce s)
    (settle : RowsSettle s.rows later) : CleanedOnce { s with rows := later } :=
  ⟨cleaned.once, fun request hm => (cleaned.terminal request hm).settle settle⟩

theorem CleanedOnce.call (cleaned : CleanedOnce s) (l : Option WorkerLifecycle) (c : LifecycleCall) :
    CleanedOnce { s with rows := (c.apply l s.rows).rows
                         requested := (c.apply l s.rows).cleanup.toList ++ s.requested } := by
  have hd := cleaned.rows (rowsSettle_call l c)
  cases asked : (c.apply l s.rows).cleanup with
  | none => exact hd
  | some request =>
    obtain ⟨done, hs, target⟩ := call_cleanup asked
    obtain ⟨row, new, hf, active, hu, hre, -⟩ := transitioned_row done
    rw [← hs] at hf hu
    have fresh : request.workerID ∉ (s.requested ++ s.scheduled).map CleanupRequest.workerID := by
      intro hk
      -- the call found the row active, so nobody has asked before
      obtain ⟨old, hm, sameWorker⟩ := mem_map.mp hk
      obtain ⟨oldRow, oldFound, terminal⟩ := cleaned.terminal old hm
      rw [sameWorker] at oldFound
      cases hf.symm.trans oldFound
      obtain ⟨notRetired, notLost⟩ := active_iff.mp active
      exact terminal.elim notRetired notLost
    refine ⟨nodup_cons.mpr ⟨fresh, cleaned.once⟩, fun other hm => ?_⟩
    rcases mem_cons.mp hm with rfl | old
    · refine ⟨new, hu, ?_⟩
      rwa [hre]
    · exact hd.terminal other old

theorem CleanedOnce.schedule (cleaned : CleanedOnce s) {request} (hm : request ∈ s.requested) :
    CleanedOnce { s with requested := s.requested.erase request
                         scheduled := request :: s.scheduled } := by
  have hs : (s.requested.erase request ++ request :: s.scheduled).Perm
      (s.requested ++ s.scheduled) :=
    perm_middle.trans ((perm_cons_erase hm).symm.append_right s.scheduled)
  refine ⟨(hs.map CleanupRequest.workerID).nodup_iff.mpr cleaned.once, fun other hf => ?_⟩
  exact cleaned.terminal other (hs.mem_iff.mp hf)

theorem cleanedOnce_step (a : ServiceStep) (cleaned : CleanedOnce s)
    (ha : serviceMachine.step s a = some next) : CleanedOnce next := by
  cases a with
  | store op =>
    cases ha
    exact cleaned.rows (.apply op)
  | call l c =>
    cases ha
    exact cleaned.call l c
  | schedule =>
    obtain ⟨hm, ⟨⟩⟩ := ite_none_right_eq_some.mp ha
    exact cleaned.schedule hm

theorem cleanedOnce_run {steps} (start : s.requested = [] ∧ s.scheduled = [])
    (run : serviceMachine.run s steps = some final) : CleanedOnce final := by
  have cleaned : CleanedOnce s := by
    constructor <;> simp [start.1, start.2]
  exact serviceMachine.invariant_of_run CleanedOnce (fun _ a _ => cleanedOnce_step a) cleaned run

theorem snapshot_retirement_exact (s : ServiceState) (start : s.requested = [] ∧ s.scheduled = [])
    (early late : List ServiceStep) {seen final : ServiceState}
    (earlyRun : serviceMachine.run s early = some seen)
    (lateRun : serviceMachine.run seen late = some final)
    (stamps : serviceMachine.Obeys StampsLater seen late) (row : WorkerRecord)
    (found : seen.rows.find? row.workerID = some row) (observed : row.updatedAt ≠ 0) :
    (∀ target reason liveCPs now,
      (final.rows.markWorkerTerminalIfCurrent row target reason now).2 = .changed true ∨
        (final.rows.retireOrphanWorker row reason liveCPs now).2 = .changed true →
      ∀ before after middle, late = before ++ after → serviceMachine.run seen before = some middle →
        middle.rows.find? row.workerID = some row) ∧
    (final.scheduled.map CleanupRequest.workerID).Nodup ∧
    (∀ request ∈ final.scheduled, ∃ last, final.rows.find? request.workerID = some last ∧
      (last.state = .retired ∨ last.state = .lost)) := by
  have cleaned : CleanedOnce final :=
    cleanedOnce_run start (serviceMachine.run_append_eq_some.mpr ⟨seen, earlyRun, lateRun⟩)
  refine ⟨?_, ?_, fun request hm => cleaned.terminal request (List.mem_append_right _ hm)⟩
  · rintro target reason liveCPs now landed before after middle rfl beforeRun
    have fence : ∃ target', (final.rows.fenced row.workerID
        (terminalUpdate row target' reason now)).2 = .changed true := by
      rcases landed with terminal | orphan
      · unfold Workers.markWorkerTerminalIfCurrent at terminal
        split at terminal
        · cases terminal
        · exact ⟨target, terminal⟩
      · unfold Workers.retireOrphanWorker at orphan
        split at orphan
        · cases orphan
        · exact ⟨.retired, orphan⟩
    obtain ⟨target', changed⟩ := fence
    obtain ⟨last, lastFound, current⟩ := current_of_changed observed changed
    obtain ⟨hre, reachedRun, afterRun⟩ := serviceMachine.run_append_eq_some.mp lateRun
    cases beforeRun.symm.trans reachedRun
    exact unchanged_since found stamps beforeRun afterRun lastFound current
  · have once := cleaned.once
    rw [List.map_append] at once
    exact once.of_append_right

theorem StampsLater.of_rows (ha : serviceMachine.step s a = some next)
    (stamped : ∀ row ∈ s.rows.rows, ∀ new ∈ next.rows.rows, new.workerID = row.workerID →
      new ≠ row → row.updatedAt < new.updatedAt) : StampsLater s a := by
  intro other otherAction workerID row new hf newFound changed
  cases ha.symm.trans otherAction
  obtain ⟨hm, rfl⟩ := Table.find?_eq_some.mp hf
  obtain ⟨newMember, hs⟩ := Table.find?_eq_some.mp newFound
  exact stamped row hm new newMember hs changed

def secondRow : WorkerRecord := { idleRow with workerID := 2, podName := "duckgres-worker-2" }

theorem snapshot_retirement_exact_second :
    ∃ final : ServiceState, (final.rows.markWorkerTerminalIfCurrent idleRow .retired "orphaned" 9).2 =
        .changed true ∧
      final.rows.find? 1 = some idleRow ∧ (final.scheduled.map CleanupRequest.workerID).Nodup ∧
        final.scheduled = [⟨2, "duckgres-worker-2", "orphaned"⟩] := by
  let s : ServiceState := ⟨⟨[idleRow, secondRow], by decide⟩, [], []⟩
  let late : List ServiceStep :=
    [.call (some ⟨true⟩) (.retireFromSnapshot ⟨secondRow⟩ .retired "orphaned" 8),
     .schedule ⟨2, "duckgres-worker-2", "orphaned"⟩]
  have stamps : serviceMachine.Obeys StampsLater s late :=
    .cons rfl (.of_rows rfl (by decide)) (.cons rfl (.of_rows rfl (by decide)) trivial)
  obtain ⟨hs, once, -⟩ := snapshot_retirement_exact s ⟨rfl, rfl⟩ [] late rfl rfl stamps idleRow rfl (by decide)
  exact ⟨_, rfl, hs .retired "orphaned" [] 9 (.inl rfl) late [] _ rfl rfl, once, rfl⟩

end Duckgres.Proof.Lifecycle
