import Duckgres.Proof.Flight.Durable

namespace Duckgres.Proof.Flight
open Base Duckgres.Store Duckgres.Flight Duckgres.Proof.Store Duckgres.Proof.Lifecycle DurableState Option Function
  World Table Program Int

variable {s after : DurableState} {cp owner : String} {phase phase' : DurablePhase}
  {step : DurableStep} {id epoch : Int} {row next : WorkerRecord}

/-! ## Epochs in memory -/

theorem held_grant {worker granted} (held : (s.grant cp worker granted).held owner id = some epoch) :
    s.held owner id = some epoch ∨ id = worker ∧ epoch = granted := by
  simp only [grant] at held
  by_cases hs : owner = cp
  · subst hs
    rw [update_self] at held
    by_cases sameWorker : id = worker
    · subst sameWorker
      rw [update_self] at held
      exact .inr ⟨rfl, (Option.some.inj held).symm⟩
    · rw [update_of_ne sameWorker] at held
      exact .inl held
  · rw [update_of_ne hs] at held
    exact .inl held

variable {now : Nat}

theorem behind_inserted {t : Workers} {record : WorkerRecord} (gone : t.find? record.workerID = none)
    (done : (t.upsertWorkerRecord record now).2 = .done) :
    Behind (t.upsertWorkerRecord record now).1 record.workerID record.ownerEpoch := by
  unfold Workers.upsertWorkerRecord at done ⊢
  simp only [gone] at done ⊢
  rcases insertRow_cases (Workers.stamped record now) .done with
    ⟨next, hi, hs⟩ | hs
  · rw [hs]
    exact ⟨Workers.stamped record now, find?_insert hi, le_refl _⟩
  · rw [hs] at done
    cases done

theorem behind_granted {op : StoreOp} (hg : s.granted op (op.apply s.rows).2 = some (id, epoch)) :
    Behind (op.apply s.rows).1 id epoch := by
  unfold granted at hg
  split at hg
  · rename_i hcl
    cases hg
    obtain ⟨u, row, claim, hf, hap, kept⟩ := claimed_row hcl
    exact ⟨_, kept, le_refl _⟩
  · rename_i created
    cases hg
    exact ⟨_, created_row created, le_refl _⟩
  · rename_i record now done
    obtain ⟨gone, ⟨⟩⟩ := ite_none_right_eq_some.mp hg
    exact behind_inserted (isNone_iff_eq_none.mp gone) done
  · cases hg

theorem refresh_granted {rows granted} (held : s.held owner id = some epoch)
    (bumped : s.rows.bumpWorkerEpoch id owner epoch now = (rows, .newEpoch granted)) :
    s.refresh owner id now = grant { s with rows := rows } owner id granted := by
  simp [refresh, held, bumped]

theorem DurableMoves.held (hv : DurableMoves s cp phase step after phase') (held : after.held owner id = some epoch) :
    s.held owner id = some epoch ∨ Behind after.rows id epoch := by
  cases hv with
  | @takesOver record _ now rows row ht =>
    rcases held_grant held with old | ⟨rfl, rfl⟩
    · exact .inl old
    have hcl : ((StoreOp.takeOverWorker record.workerID cp record.orgID record.ownerEpoch
        now).apply s.rows).2 = .claimed row := congrArg Prod.snd ht
    obtain ⟨u, old, claim, hf, hap, kept⟩ := claimed_row hcl
    exact .inr ⟨row, (congrArg (fun answer => Table.find? answer.1 row.workerID) ht).symm.trans kept, le_refl _⟩
  | performs =>
    rw [rows_perform]
    unfold perform at held
    split at held
    · rename_i hg
      rcases held_grant held with old | ⟨rfl, rfl⟩
      · exact .inl old
      · exact .inr (behind_granted hg)
    · exact .inl held
  | refreshes =>
    unfold refresh at held
    split at held
    · exact .inl held
    rename_i heldBefore
    split at held
    · rename_i bumped
      rcases held_grant held with old | ⟨rfl, rfl⟩
      · exact .inl old
      · obtain ⟨row, next, -, later, -, newEpoch, raised, -⟩ := bump_newEpoch bumped
        rw [refresh_granted heldBefore bumped]
        exact .inr ⟨next, later, by omega⟩
    · exact .inl held
  | @retires _ _ _ hre => cases hre <;> exact .inl held
  | _ => exact .inl held

theorem epochsKnown_moves (hk : s.EpochsKnown) (hv : DurableMoves s cp phase step after phase') :
    after.EpochsKnown := by
  intro owner id epoch held
  rcases hv.held held with old | behind
  · have behind : Behind s.rows id epoch := hk owner id epoch old
    exact behind.succeed hv.rowsSucceed
  · exact behind

def Notes (s : DurableState) (c : DurableCall) : Prop :=
  ∀ record, c.phase = .upserting record → Behind s.rows record.workerID record.ownerEpoch

theorem notes_own {c next} (hk : s.EpochsKnown)
    (ha : durableProgram.step s c step = some (after, next)) : Notes after next := by
  have hv := moves_of_step ha
  intro record isUpserting
  rw [isUpserting] at hv
  generalize c.phase = phase at hv
  cases hv with
  | waits resting | fades _ resting => cases resting
  | records held => exact hk _ _ _ held

variable {w : DurableWorld}

theorem holds_known {steps} (hk : s.EpochsKnown) (run : durableProgram.machine.run (.init s) steps = some w) :
    w.Holds DurableState.EpochsKnown Notes := by
  refine holds_of_run _ _ ?_ ?_ ?_ (holds_init hk) run
  · intro s request _ record isUpserting
    cases request <;> cases isUpserting
  · intro s c step shared next hk _ ha
    exact ⟨epochsKnown_moves hk (moves_of_step ha), notes_own hk ha⟩
  · intro s c step shared next d _ _ ha notes record isUpserting
    exact (notes record isUpserting).succeed (moves_of_step ha).rowsSucceed

/-! ## The epoch of a hot worker -/

def EpochKept (row next : WorkerRecord) : Prop := next.ownerEpoch = row.ownerEpoch ∨ next.state = .reserved

theorem epochKept_apply {t} (op : StoreOp) (notUpsert : ∀ record now, op ≠ .upsertWorkerRecord record now)
    (notBump : ∀ worker owner epoch now, op ≠ .bumpWorkerEpoch worker owner epoch now) :
    Table.Related EpochKept t (op.apply t).1 := by
  refine apply_related op (fun _ => .inl rfl) fun makes hap => ?_
  cases makes with
  | upsert => exact absurd rfl (notUpsert _ _)
  | bump => exact absurd rfl (notBump _ _ _ _)
  | claimIdle | claimHotIdle | takeOver =>
    obtain ⟨-, rfl⟩ := guardedBump_apply hap
    exact .inr rfl
  | credentials | terminal | hotIdle | idleOrHotIdle | orphan | lost | draining | retireDraining =>
    obtain ⟨-, rfl⟩ := Update.guarded_apply.mp hap
    exact .inl rfl

theorem epoch_upsert {record} (hk : s.EpochsKnown) (legal : s.allows owner (.upsertWorkerRecord record now) = true)
    (hf : s.rows.find? id = some row)
    (hfn : (s.rows.upsertWorkerRecord record now).1.find? id = some next) :
    next.ownerEpoch = row.ownerEpoch := by
  rcases upsert_row record now hf with hs | ⟨⟨rfl, -⟩, next', hfn', -, -, puts⟩
  · cases hfn.symm.trans hs
    rfl
  cases hfn.symm.trans hfn'
  obtain ⟨later, hfl, succeeds⟩ := RowsSucceed.apply (.upsertWorkerRecord record now) record.workerID row hf
  cases hfn.symm.trans hfl
  simp only [allows, hf, isNone_some, Bool.false_or, Bool.and_eq_true, any_eq_true, decide_eq_true_eq] at legal
  obtain ⟨-, epoch, held, le⟩ := legal
  obtain ⟨old, hfd, behind⟩ := hk owner record.workerID epoch held
  cases hf.symm.trans hfd
  have grown := succeeds.1
  omega

theorem refresh_cases (owner : String) (worker : Int) (now : Nat) : (s.refresh owner worker now).rows = s.rows ∨
      ∃ epoch, s.held owner worker = some epoch ∧
        s.rows.affects worker (bumpUpdate owner epoch now) = true := by
  unfold refresh
  split
  · exact .inl rfl
  rename_i epoch held
  unfold Workers.bumpWorkerEpoch
  split
  · rename_i bumped
    split at bumped
    · rename_i affected
      exact .inr ⟨epoch, held, affected⟩
    · split at bumped <;> cases bumped
  · exact .inl rfl

theorem rows_refresh (held : s.held owner id = some epoch)
    (affected : s.rows.affects id (bumpUpdate owner epoch now) = true) :
    (s.refresh owner id now).rows = s.rows.modify id (bumpUpdate owner epoch now) := by
  have bumped : s.rows.bumpWorkerEpoch id owner epoch now =
      (s.rows.modify id (bumpUpdate owner epoch now), .newEpoch (epoch + 1)) := by
    simp [Workers.bumpWorkerEpoch, affected]
  rw [refresh_granted held bumped]
  rfl

theorem epoch_renewed (renews : s.Renews id step) (ha : s.next cp .environment step = some (after, phase'))
    (hf : s.rows.find? id = some row) (hfn : after.rows.find? id = some next) :
    next.ownerEpoch = row.ownerEpoch + 1 := by
  obtain ⟨owner, now, epoch, rfl, held, affected⟩ := renews
  obtain ⟨rfl, -⟩ := Prod.mk.inj (Option.some.inj ha)
  obtain ⟨old, bumped, hfd, hap⟩ := affects_iff.mp affected
  cases hf.symm.trans hfd
  rw [rows_refresh held affected, find?_modify_of_apply hf hap] at hfn
  obtain ⟨-, raised⟩ := guardedBump_apply hap
  rw [← Option.some.inj hfn, raised]

theorem epoch_of_moves (hk : s.EpochsKnown) (hv : DurableMoves s cp phase step after phase')
    (hf : s.rows.find? id = some row) (hfn : after.rows.find? id = some next)
    (hot : next.state = .hot) :
    next.ownerEpoch = row.ownerEpoch ∨ phase = .environment ∧ s.Renews id step := by
  have unchanged (hs : after.rows = s.rows) : next.ownerEpoch = row.ownerEpoch := by
    rw [hs, hf] at hfn
    rw [Option.some.inj hfn]
  have kept (op : StoreOp) (hap : after.rows = (op.apply s.rows).1)
      (notUpsert : ∀ record now, op ≠ .upsertWorkerRecord record now)
      (notBump : ∀ worker owner epoch now, op ≠ .bumpWorkerEpoch worker owner epoch now) :
      next.ownerEpoch = row.ownerEpoch := by
    obtain ⟨later, hfl, hs | reserved⟩ := epochKept_apply op notUpsert notBump id row hf
    · rw [← hap, hfn] at hfl
      rw [Option.some.inj hfl, hs]
    · rw [← hap, hfn] at hfl
      rw [Option.some.inj hfl, reserved] at hot
      cases hot
  cases hv with
  | @takesOver record _ now _ _ ht | @abandons record _ now _ _ ht =>
    exact .inl (kept (.takeOverWorker record.workerID cp record.orgID record.ownerEpoch now)
      (congrArg Prod.fst ht).symm (by simp) (by simp))
  | @retires snap _ now hre =>
    cases hre with
    | false => exact .inl (unchanged rfl)
    | true =>
      exact .inl (kept (.retireOrphanWorker snap.record janitorRetireReasonOrphaned
        s.instances.listLiveControlPlaneInstanceIDs now) snapshotTransition_rows (by simp) (by simp))
  | @performs _ op legal =>
    rw [rows_perform] at hfn
    cases op with
    | upsertWorkerRecord => exact .inl (epoch_upsert hk legal hf hfn)
    | bumpWorkerEpoch => cases legal
    | _ => exact .inl (kept _ (rows_perform _ _) (by simp) (by simp))
  | @refreshes owner worker now =>
    rcases refresh_cases owner worker now with hs | ⟨epoch, held, affected⟩
    · exact .inl (unchanged hs)
    by_cases hs : worker = id
    · subst hs
      exact .inr ⟨rfl, owner, now, epoch, rfl, held, affected⟩
    · rw [rows_refresh held affected, find?_modify_of_ne s.rows _ (fun equal => hs equal.symm), hf] at hfn
      exact .inl (by rw [Option.some.inj hfn])
  | _ => exact .inl (unchanged rfl)

variable {w' : DurableWorld} {call : Nat}

section Runs
variable {w final : DurableWorld} {ha : CallStep DurableStep DurableRequest}
  {steps : List (CallStep DurableStep DurableRequest)} {record : FlightSessionRecord}

theorem epoch_step (hk : w.shared.EpochsKnown) (ht : durableProgram.machine.step w ha = some w')
    (hf : w.shared.rows.find? id = some row) (hfn : w'.shared.rows.find? id = some next)
    (hot : next.state = .hot) :
    (¬ RefreshesWorker id w ha ∧ next.ownerEpoch = row.ownerEpoch) ∨
      RefreshesWorker id w ha ∧ next.ownerEpoch = row.ownerEpoch + 1 := by
  cases takes_of_step ht with
  | start =>
    rw [shared_set, hf] at hfn
    exact .inl ⟨fun refreshes => refreshes, by rw [Option.some.inj hfn]⟩
  | @advance _ step c _ shared foundCall stepped =>
    by_cases renews : c.phase = .environment ∧ w.shared.Renews id step
    · have ha := (next_of_step stepped).2
      rw [renews.1] at ha
      exact .inr ⟨⟨c, foundCall, renews⟩, epoch_renewed renews.2 ha hf hfn⟩
    rcases epoch_of_moves hk (moves_of_step stepped) hf hfn hot with hs | renewed
    · refine .inl ⟨?_, hs⟩
      rintro ⟨c', foundCall', refreshes⟩
      cases foundCall.symm.trans foundCall'
      exact renews refreshes
    · exact absurd renewed renews

theorem known_step (hk : w.shared.EpochsKnown)
    (ht : durableProgram.machine.step w ha = some w') : w'.shared.EpochsKnown := by
  cases takes_of_step ht with
  | start => exact hk
  | advance _ stepped => exact epochsKnown_moves hk (moves_of_step stepped)

theorem serves_first (run : durableProgram.machine.run w steps = some final)
    (serving : durableProgram.machine.Obeys (StillServing cp record) w steps)
    (serves : final.shared.ServesFor cp record.workerID) : w.shared.ServesFor cp record.workerID := by
  cases steps with
  | nil =>
    cases run
    exact serves
  | cons => exact serving.1.1

theorem epoch_run {last} (hk : w.shared.EpochsKnown) (run : durableProgram.machine.run w steps = some final)
    (serving : durableProgram.machine.Obeys (StillServing cp record) w steps)
    (serves : final.shared.ServesFor cp record.workerID)
    (hf : w.shared.rows.find? record.workerID = some row)
    (foundLast : final.shared.rows.find? record.workerID = some last) :
    row.ownerEpoch ≤ last.ownerEpoch ∧ (last.ownerEpoch = row.ownerEpoch ↔
      durableProgram.machine.Obeys (fun w step => ¬ RefreshesWorker record.workerID w step) w steps) := by
  induction steps generalizing w row with
  | nil =>
    cases run
    cases hf.symm.trans foundLast
    exact ⟨le_refl _, fun _ => trivial, fun _ => rfl⟩
  | cons ha steps ih =>
    obtain ⟨w', ht, rest⟩ := (Machine.run_cons_eq_some _).mp run
    obtain ⟨next, hfn, hot, -⟩ := serves_first rest (serving.2 w' ht) serves
    obtain ⟨grown, unchanged⟩ := ih (known_step hk ht) rest (serving.2 w' ht) hfn
    rcases epoch_step hk ht hf hfn hot with ⟨other, hs⟩ | ⟨refreshes, raised⟩
    · rw [hs] at grown unchanged
      refine ⟨grown, unchanged.trans ⟨fun obeys => .cons ht other obeys, ?_⟩⟩
      exact fun obeys => obeys.2 w' ht
    · refine ⟨by omega, fun equal => ?_, fun obeys => absurd refreshes obeys.1⟩
      omega

structure Tracks (record : FlightSessionRecord) (call : Nat) (w : DurableWorld) : Prop where
  stored : ∀ stored, w.shared.sessions.find? record.sessionToken = some stored →
    stored.workerID = record.workerID ∧ stored.ownerEpoch = record.ownerEpoch
  loaded : ∀ c loaded, w.calls call = some c → c.phase = .connecting loaded →
    loaded.sessionToken = record.sessionToken →
    loaded.workerID = record.workerID ∧ loaded.ownerEpoch = record.ownerEpoch

theorem tracks_step (tracks : Tracks record call w) (legal : ¬ RecordsSession record.sessionToken w ha)
    (ht : durableProgram.machine.step w ha = some w') : Tracks record call w' := by
  cases takes_of_step ht with
  | @start other request =>
    refine ⟨tracks.stored, fun c loaded hf isConnecting => ?_⟩
    by_cases hs : call = other
    · subst hs
      rw [calls_set_self] at hf
      cases hf
      cases request <;> cases isConnecting
    · rw [calls_set_of_ne _ _ _ hs] at hf
      exact tracks.loaded c loaded hf isConnecting
  | @advance other _ c _ shared foundCall stepped =>
    have hv := moves_of_step stepped
    refine ⟨fun stored hf => ?_, fun d loaded hf isConnecting sameToken => ?_⟩
    · rw [shared_set] at hf
      rcases hv.sessions with faded | ⟨puts, isUpsert, rfl, rfl⟩
      · obtain ⟨old, hfd, worker, epoch, -⟩ := faded _ stored hf
        obtain ⟨oldWorker, oldEpoch⟩ := tracks.stored old hfd
        exact ⟨worker.trans oldWorker, epoch.trans oldEpoch⟩
      have otherToken : record.sessionToken ≠ puts.sessionToken := by
        intro hs
        exact legal ⟨c.cp, puts, by rw [foundCall, ← isUpsert], hs.symm⟩
      exact tracks.stored stored ((find?_upsert_of_ne w.shared.sessions otherToken).symm.trans hf)
    · by_cases hs : call = other
      · subst hs
        rw [calls_set_self] at hf
        cases hf
        rw [isConnecting] at hv
        generalize c.phase = phase at hv
        cases hv with
        | waits resting | fades _ resting => cases resting
        | loads foundLoaded =>
          obtain rfl := key_of_find? foundLoaded
          rw [sameToken] at foundLoaded
          exact tracks.stored loaded foundLoaded
      · rw [calls_set_of_ne _ _ _ hs] at hf
        exact tracks.loaded d loaded hf isConnecting sameToken

theorem tracks_run (tracks : Tracks record call w)
    (serving : durableProgram.machine.Obeys (StillServing cp record) w steps)
    (run : durableProgram.machine.run w steps = some final) : Tracks record call final :=
  Machine.invariant_of_obeys _ (Tracks record call)
    (fun _ _ _ tracks legal ht => tracks_step tracks legal.2 ht) tracks serving run

end Runs

/-! ## The epoch check -/

theorem takeOver_hot {t : Workers} {orgID : String} (hf : t.find? id = some row) (hot : row.state = .hot) :
    (t.takeOverWorker id cp orgID epoch now).2 = .error .ownerEpochMismatch ↔
      row.ownerEpoch ≠ epoch := by
  unfold Workers.takeOverWorker
  simp only [hf]
  split
  · rename_i mismatch
    exact ⟨fun _ => mismatch, fun _ => rfl⟩
  rename_i current
  refine ⟨fun closed => ?_, fun mismatch => absurd mismatch current⟩
  unfold Workers.claimRow at closed
  split at closed
  · rename_i notHot
    exact absurd hot notHot
  · split at closed
    · split at closed <;> cases closed
    · cases closed

variable {loaded : FlightSessionRecord} {image : String}

theorem connect_closing_iff (hf : s.rows.find? loaded.workerID = some row) (hot : row.state = .hot) :
    (s.connect cp loaded image now true).2 = .closing loaded.sessionToken ↔
      row.ownerEpoch ≠ loaded.ownerEpoch := by
  rw [← takeOver_hot hf hot]
  unfold connect
  simp only [Bool.not_true, Bool.false_eq_true, if_false]
  split
  · rename_i hcl
    rw [hcl]
    refine ⟨fun closing => ?_, (by intro mismatch; cases mismatch)⟩
    split at closing <;> cases closing
  · rename_i mismatch
    rw [mismatch]
    exact ⟨fun _ => rfl, fun _ => rfl⟩
  · rename_i other
    refine ⟨(by intro closing; cases closing), fun mismatch => ?_⟩
    exact (other _ (Prod.ext rfl mismatch)).elim

theorem calls_connect {last} (connecting : w.calls call = some ⟨owner, .connecting loaded⟩)
    (connects : durableProgram.machine.step w (.advance call (.connect image now true)) = some last) :
    last.calls call = some ⟨owner, (w.shared.connect owner loaded image now true).2⟩ := by
  cases takes_of_step connects with
  | @advance _ _ _ _ _ hf hd =>
    cases connecting.symm.trans hf
    obtain ⟨sameCP, ha⟩ := next_of_step hd
    have phase := congrArg Prod.snd (Option.some.inj ha)
    rw [calls_set_self]
    exact congrArg some (congrArg₂ DurableCall.mk sameCP phase.symm)

theorem shared_upsert {recorded writer} {record}
    (writing : w.calls writer = some ⟨cp, .upserting record⟩)
    (puts : durableProgram.machine.step w (.advance writer (.upsert true)) = some recorded) :
    recorded.shared =
      { w.shared with sessions := w.shared.sessions.upsertFlightSessionRecord record } := by
  cases takes_of_step puts with
  | @advance _ _ _ _ _ hf hd =>
    cases writing.symm.trans hf
    exact (Prod.mk.inj (Option.some.inj (next_of_step hd).2)).1.symm

theorem reconnect_passes_iff_not_refreshed {s : DurableState} (known : s.EpochsKnown)
    {before after : List (CallStep DurableStep DurableRequest)} {recorded final last : DurableWorld}
    (first : durableProgram.machine.run (.init s) before = some w)
    {writer : Nat} {cp : String} {record : FlightSessionRecord}
    (writing : w.calls writer = some ⟨cp, .upserting record⟩)
    (written : durableProgram.machine.step w (.advance writer (.upsert true)) = some recorded)
    (run : durableProgram.machine.run recorded after = some final)
    (serving : durableProgram.machine.Obeys (StillServing cp record) recorded after)
    (serves : final.shared.ServesFor cp record.workerID) {other : String} (fresh : recorded.calls call = none)
    (connecting : final.calls call = some ⟨other, .connecting loaded⟩)
    (sameToken : loaded.sessionToken = record.sessionToken)
    (connects : durableProgram.machine.step final (.advance call (.connect image now true)) = some last) :
    last.calls call ≠ some ⟨other, .closing record.sessionToken⟩ ↔
      (∃ row, w.shared.rows.find? record.workerID = some row ∧ row.ownerEpoch = record.ownerEpoch) ∧
      durableProgram.machine.Obeys (fun w step => ¬ RefreshesWorker record.workerID w step)
        recorded after := by
  have hh := holds_known known first
  have stored := shared_upsert writing written
  have tracks : Tracks record call final := by
    refine tracks_run ⟨fun stored' hf => ?_, fun c loaded hf => ?_⟩ serving run
    · rw [stored] at hf
      cases (Table.find?_upsert w.shared.sessions record).symm.trans hf
      exact ⟨rfl, rfl⟩
    · rw [fresh] at hf
      cases hf
  obtain ⟨sameWorker, sameEpoch⟩ := tracks.loaded _ loaded connecting rfl sameToken
  obtain ⟨row, hf, le⟩ := hh.own writer _ writing record rfl
  have foundRecorded : recorded.shared.rows.find? record.workerID = some row := by
    rw [stored]
    exact hf
  obtain ⟨lastRow, foundLast, hot, -⟩ := id serves
  obtain ⟨grown, unchanged⟩ := epoch_run (known_step hh.shared written) run serving serves foundRecorded foundLast
  have passes : last.calls call ≠ some ⟨other, .closing record.sessionToken⟩ ↔
      lastRow.ownerEpoch = record.ownerEpoch := by
    rw [calls_connect connecting connects, ← sameToken, ← sameEpoch, Ne, Option.some.injEq,
      DurableCall.mk.injEq, connect_closing_iff (sameWorker ▸ foundLast) hot]
    simp
  rw [passes, ← unchanged]
  constructor
  · intro hs
    exact ⟨⟨row, hf, by omega⟩, by omega⟩
  · rintro ⟨⟨row', hf', hs⟩, kept⟩
    cases hf.symm.trans hf'
    exact kept.trans hs

def recording : List (CallStep DurableStep DurableRequest) :=
  [.start 0 (.getOrCreate "a" clientSession), .advance 0 (.create true 7)]

def reloading : List (CallStep DurableStep DurableRequest) :=
  [.start 1 (.reconnectByToken "b" "token"), .advance 1 (.load 9 true)]

theorem servingState_known {sessions} {keys : (sessions.map FlightSessionRecord.sessionToken).Nodup} :
    (servingState sessions keys).EpochsKnown := by
  intro owner id epoch held
  obtain ⟨⟨rfl, rfl⟩, ⟨⟩⟩ := ite_none_right_eq_some.mp held
  exact ⟨servingRow, rfl, le_refl _⟩

theorem reconnect_passes_iff_not_refreshed_loaded : ∃ w recorded final last : DurableWorld,
      durableProgram.machine.run (.init (servingState [] List.nodup_nil)) recording = some w ∧
      durableProgram.machine.step w (.advance 0 (.upsert true)) = some recorded ∧
      durableProgram.machine.run recorded reloading = some final ∧
      durableProgram.machine.step final (.advance 1 (.connect "" 10 true)) = some last ∧
      last.calls 1 ≠ some ⟨"b", .closing "token"⟩ := by
  have serves (s : DurableState) (served : s.rows.find? 1 = some servingRow) : s.ServesFor "a" 1 :=
    ⟨servingRow, served, rfl, rfl⟩
  let record := DurableState.durableRecord "a" clientSession 3 7
  refine ⟨?w, ?recorded, ?final, ?last, ?first, ?written, ?run, ?connects,
    (reconnect_passes_iff_not_refreshed servingState_known ?first ?writing ?written ?run ?serving (serves _ ?served)
      ?fresh ?connecting (rfl : _ = record.sessionToken) ?connects).mpr ⟨⟨servingRow, ?found, rfl⟩, ?unrefreshed⟩⟩
  case first => rfl
  case written => rfl
  case run => rfl
  case connects => rfl
  case serving => exact .cons rfl ⟨serves _ rfl, id⟩ (.cons rfl ⟨serves _ rfl, id⟩ trivial)
  case unrefreshed =>
    refine .cons rfl (·) (.cons rfl ?_ trivial)
    rintro ⟨c, -, -, owner, now, epoch, ⟨⟩, -⟩
  all_goals rfl

theorem reconnect_closes_after_refresh : ∃ recorded final : DurableWorld,
      durableProgram.machine.run (.init (servingState [] List.nodup_nil))
        (recording ++ [.advance 0 (.upsert true)]) = some recorded ∧
      durableProgram.machine.run recorded
        ([.start 2 .environment, .advance 2 (.refresh "a" 1 8)] ++ reloading ++
          [.advance 1 (.connect "" 10 true), .advance 1 (.close 11 true)]) = some final ∧
      (recorded.shared.sessions.find? "token").map (fun record => (record.state, record.expiresAt)) =
        some (.active, 100) ∧
      (final.shared.rows.find? 1).map (fun row => (row.state, row.ownerCPInstanceID)) = some (.hot, some "a") ∧
      (final.shared.sessions.find? "token").map FlightSessionRecord.state = some .closed :=
  ⟨_, _, rfl, rfl, rfl, rfl, rfl⟩

end Duckgres.Proof.Flight
