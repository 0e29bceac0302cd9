import Duckgres.Flight.DurableSessions
import Duckgres.Proof.Lifecycle.Snapshot
import Duckgres.Proof.Store.Fencing

namespace Duckgres.Proof.Flight
open Base Duckgres.Store Duckgres.Lifecycle Duckgres.Flight Duckgres.Proof.Store Duckgres.Proof.Lifecycle
  DurableState List Table

variable {s after : DurableState} {cp : String} {phase phase' : DurablePhase} {step : DurableStep} {t : FlightSessions}

theorem reclaimable_iff {id} :
    t.reclaimable id = true ↔ ∃ token record, t.find? token = some record ∧ record.workerID = id ∧
      record.state ∈ reclaimableSessionStates := by
  simp only [FlightSessions.reclaimable, any_eq_true, Bool.and_eq_true, decide_eq_true_eq]
  constructor
  · rintro ⟨record, hm, worker, state⟩
    exact ⟨_, record, find?_eq_some.mpr ⟨hm, rfl⟩, worker, state⟩
  · rintro ⟨token, record, hf, worker, state⟩
    exact ⟨record, (find?_eq_some.mp hf).1, worker, state⟩

def Faded (old record : FlightSessionRecord) : Prop :=
  record.workerID = old.workerID ∧ record.ownerEpoch = old.ownerEpoch ∧
    (record.state = old.state ∨ record.state ∉ reclaimableSessionStates) ∧
    (old.state = .closed → record.state = .closed)

def Fades (t later : FlightSessions) : Prop :=
  ∀ token record, later.find? token = some record → ∃ old, t.find? token = some old ∧ Faded old record

theorem Faded.refl (record : FlightSessionRecord) : Faded record record := ⟨rfl, rfl, .inl rfl, id⟩

theorem Fades.refl (t : FlightSessions) : Fades t t := fun _ record hf => ⟨record, hf, .refl record⟩

theorem Fades.reclaimable {later} (fades : Fades t later) {id}
    (reclaimable : later.reclaimable id = true) : t.reclaimable id = true := by
  obtain ⟨token, record, hf, worker, state⟩ := reclaimable_iff.mp reclaimable
  obtain ⟨old, hfd, sameWorker, -, kept | terminal, -⟩ := fades token record hf
  · exact reclaimable_iff.mpr ⟨token, old, hfd, sameWorker.symm.trans worker, kept ▸ state⟩
  · exact absurd state terminal

section Guarded
variable {guard : FlightSessionRecord → Bool} {set : FlightSessionRecord → FlightSessionRecord}
  {keepsToken : ∀ row, (set row).sessionToken = row.sessionToken}

theorem faded_guarded (faded : ∀ row, guard row = true → Faded row (set row)) (row : FlightSessionRecord) :
    Faded row (((Update.guarded guard set keepsToken).apply row).getD row) := by
  rcases Update.guarded_getD guard keepsToken row with same | ⟨passed, set⟩
  · rw [same]
    exact .refl row
  · rw [set]
    exact faded row passed

theorem fades_modify (token : String) (faded : ∀ row, guard row = true → Faded row (set row)) :
    Fades t (t.modify token (.guarded guard set keepsToken)) := by
  intro other record hf
  by_cases hs : other = token
  · subst hs
    rw [find?_modify] at hf
    obtain ⟨old, hfd, rfl⟩ := Option.map_eq_some_iff.mp hf
    exact ⟨old, hfd, faded_guarded faded old⟩
  · rw [find?_modify_of_ne t _ hs] at hf
    exact ⟨record, hf, .refl record⟩

theorem fades_updateAll (faded : ∀ row, guard row = true → Faded row (set row)) :
    Fades t (t.updateAll (.guarded guard set keepsToken)) := by
  intro token record hf
  rw [find?_updateAll] at hf
  obtain ⟨old, hfd, rfl⟩ := Option.map_eq_some_iff.mp hf
  exact ⟨old, hfd, faded_guarded faded old⟩

end Guarded

theorem fades_close (t : FlightSessions) (token : String) (now : Nat) :
    Fades t (t.closeFlightSessionRecord token now) :=
  fades_modify token fun _ _ => ⟨rfl, rfl, .inr (by simp [reclaimableSessionStates]), fun _ => rfl⟩

def rests : DurablePhase → Bool
  | .creating _ | .closing _ | .returned _ | .environment => true
  | _ => false

inductive DurableMoves (s : DurableState) (cp : String) :
    DurablePhase → DurableStep → DurableState → DurablePhase → Prop
  | waits {phase : DurablePhase} {step : DurableStep} {phase' : DurablePhase}
      (resting : rests phase' = true) : DurableMoves s cp phase step s phase'
  | records {session now epoch}
      (held : s.held cp session.workerID = some epoch) :
      DurableMoves s cp (.creating session) (.create true now) s (.upserting (durableRecord cp session epoch now))
  | upserts {record} :
      DurableMoves s cp (.upserting record) (.upsert true)
        { s with sessions := s.sessions.upsertFlightSessionRecord record } (.returned true)
  | loads {token now record}
      (found : s.sessions.find? token = some record) :
      DurableMoves s cp (.loading token) (.load now true) s (.connecting record)
  | takesOver {record image now rows row}
      (taken : s.rows.takeOverWorker record.workerID cp record.orgID record.ownerEpoch now = (rows, .claimed row)) :
      DurableMoves s cp (.connecting record) (.connect image now true)
        (grant { s with rows := rows } cp row.workerID row.ownerEpoch)
        (.creating (reconnected record))
  | abandons {record image now rows row}
      (taken : s.rows.takeOverWorker record.workerID cp record.orgID record.ownerEpoch now = (rows, .claimed row)) :
      DurableMoves s cp (.connecting record) (.connect image now true) { s with rows := rows } (.returned false)
  | fades {phase : DurablePhase} {step : DurableStep} {sessions}
      {phase' : DurablePhase} (faded : Fades s.sessions sessions) (resting : rests phase' = true) :
      DurableMoves s cp phase step { s with sessions := sessions } phase'
  | lists {before} :
      DurableMoves s cp (.listing before) (.list true) s
        (.retiring ((listOrphanedWorkers s.rows s.instances s.sessions before).map .mk))
  | retires {snap pending now reached} :
      DurableMoves s cp (.retiring (snap :: pending)) (.retire now reached)
        (s.retire snap now reached) (.retiring pending)
  | performs {owner op} (allowed : s.allows owner op = true) :
      DurableMoves s cp .environment (.store owner op) (s.perform owner op) .environment
  | refreshes {owner id now} :
      DurableMoves s cp .environment (.refresh owner id now) (s.refresh owner id now) .environment
  | hears {step : DurableStep} {instances} :
      DurableMoves s cp .environment step { s with instances := instances } .environment

theorem moves_create (session : ClientSession) (ok : Bool) (now : Nat) :
    DurableMoves s cp (.creating session) (.create ok now) s (s.create cp session ok now) := by
  unfold create
  cases ok with
  | false => exact .waits rfl
  | true =>
    cases hl : s.held cp session.workerID with
    | none => exact .waits rfl
    | some epoch => exact .records hl

theorem moves_load (token : String) (now : Nat) (reached : Bool) :
    DurableMoves s cp (.loading token) (.load now reached) s (s.load token now reached) := by
  unfold load
  cases reached with
  | false => exact .waits rfl
  | true =>
    cases hf : s.sessions.getFlightSessionRecord token with
    | none => exact .waits rfl
    | some record =>
      simp only [Bool.not_true, Bool.false_eq_true, if_false]
      split
      · exact .waits rfl
      · split
        · exact .waits rfl
        · exact .loads hf

theorem moves_connect (record : FlightSessionRecord) (image : String) (now : Nat) (reached : Bool) :
    DurableMoves s cp (.connecting record) (.connect image now reached)
      (s.connect cp record image now reached).1 (s.connect cp record image now reached).2 := by
  unfold connect
  cases reached with
  | false => exact .waits rfl
  | true =>
    simp only [Bool.not_true, Bool.false_eq_true, if_false]
    split
    · rename_i ht
      split
      · exact .abandons ht
      · exact .takesOver ht
    · exact .waits rfl
    · exact .waits rfl

theorem moves_of_next (ha : s.next cp phase step = some (after, phase')) :
    DurableMoves s cp phase step after phase' := by
  unfold DurableState.next at ha
  split at ha
  · cases ha
    exact moves_create _ _ _
  · rename_i hre
    cases ha
    cases hre with
    | false => exact .waits rfl
    | true => exact .upserts
  · cases ha
    exact moves_load _ _ _
  · obtain ⟨rfl, rfl⟩ := Prod.mk.inj (Option.some.inj ha)
    exact moves_connect _ _ _ _
  · rename_i hre
    cases ha
    cases hre with
    | false => exact .waits rfl
    | true => exact .fades (fades_close _ _ _) rfl
  · rename_i hre
    cases ha
    cases hre with
    | false => exact .waits rfl
    | true => exact .lists
  · cases ha
    exact .retires
  · obtain ⟨legal, ⟨⟩⟩ := Option.ite_none_right_eq_some.mp ha
    exact .performs legal
  · cases ha
    exact .refreshes
  · cases ha
    exact .fades (fades_modify _ fun _ _ => ⟨rfl, rfl, .inl rfl, id⟩) rfl
  · cases ha
    exact .fades (fades_close _ _ _) rfl
  · cases ha
    refine .fades (fades_updateAll fun row passed => ?_) rfl
    simp only [Bool.decide_and, Bool.and_eq_true, decide_eq_true_eq] at passed
    exact ⟨rfl, rfl, .inr (by simp [reclaimableSessionStates]), fun closed => absurd closed passed.2.1⟩
  iterate 3
    · cases ha
      exact .hears
  · cases ha

theorem next_of_step {c next} (ha : durableProgram.step s c step = some (after, next)) :
    next.cp = c.cp ∧ s.next c.cp c.phase step = some (after, next.phase) := by
  obtain ⟨⟨state, phase'⟩, hd, hs⟩ := Option.map_eq_some_iff.mp ha
  obtain ⟨rfl, rfl⟩ := Prod.mk.inj hs
  exact ⟨rfl, hd⟩

theorem moves_of_step {c next} (ha : durableProgram.step s c step = some (after, next)) :
    DurableMoves s c.cp c.phase step after next.phase :=
  moves_of_next (next_of_step ha).2

theorem rows_perform (owner : String) (op : StoreOp) : (s.perform owner op).rows = (op.apply s.rows).1 := by
  unfold perform
  split <;> rfl

section
variable (moves : DurableMoves s cp phase step after phase')
include moves

theorem DurableMoves.rows :
    after.rows = s.rows ∨ ∃ op : StoreOp, after.rows = (op.apply s.rows).1 := by
  cases moves with
  | @takesOver record _ now _ _ ht | @abandons record _ now _ _ ht =>
    exact .inr ⟨.takeOverWorker record.workerID cp record.orgID record.ownerEpoch now, (congrArg Prod.fst ht).symm⟩
  | @retires snap _ now hre =>
    cases hre with
    | false => exact .inl rfl
    | true =>
      exact .inr ⟨.retireOrphanWorker snap.record janitorRetireReasonOrphaned
        s.instances.listLiveControlPlaneInstanceIDs now, snapshotTransition_rows⟩
  | performs => exact .inr ⟨_, rows_perform _ _⟩
  | @refreshes owner id now =>
    unfold refresh
    split
    · exact .inl rfl
    · split
      · rename_i bumped
        exact .inr ⟨.bumpWorkerEpoch id owner _ now, (congrArg Prod.fst bumped).symm⟩
      · exact .inl rfl
  | _ => exact .inl rfl

theorem DurableMoves.rowsSucceed :
    RowsSucceed s.rows after.rows := by
  rcases moves.rows with hs | ⟨op, hap⟩
  · rw [hs]
    exact Table.Related.refl Succeeds.refl _
  · rw [hap]
    exact .apply op

theorem DurableMoves.sessions :
    Fades s.sessions after.sessions ∨ ∃ record, phase = .upserting record ∧ step = .upsert true ∧
      after = { s with sessions := s.sessions.upsertFlightSessionRecord record } := by
  cases moves with
  | upserts => exact .inr ⟨_, rfl, rfl, rfl⟩
  | fades faded => exact .inl faded
  | performs =>
    refine .inl ?_
    unfold perform
    split <;> exact .refl _
  | refreshes =>
    refine .inl ?_
    unfold refresh
    split
    · exact .refl _
    · split <;> exact .refl _
  | @retires _ _ _ hre => cases hre <;> exact .inl (.refl _)
  | _ => exact .inl (.refl _)

end

def servingRow : WorkerRecord := { idleRow with state := .hot, orgID := "acme" }

def clientSession : ClientSession := ⟨"token", "ada", "acme", 1, some 100⟩

def servingState (sessions : List FlightSessionRecord)
    (keys : (sessions.map FlightSessionRecord.sessionToken).Nodup) : DurableState where
  rows := oneRow servingRow
  sessions := ⟨sessions, keys⟩
  instances := ⟨[⟨"a", .expired, 5, none, some 6⟩], List.nodup_singleton _⟩
  held owner id := if owner = "a" ∧ id = 1 then some 3 else none

variable {snap : WorkerSnapshot}

structure Spared (s : DurableState) (snap : WorkerSnapshot) : Prop where
  behind : Behind s.rows snap.record.workerID snap.record.ownerEpoch
  unclaimed : ∀ row, s.rows.find? snap.record.workerID = some row →
    row.ownerEpoch = snap.record.ownerEpoch → s.sessions.reclaimable snap.record.workerID = false

def Sweeps (s : DurableState) (c : DurableCall) : Prop :=
  ∀ pending, c.phase = .retiring pending → ∀ snap ∈ pending, Spared s snap

theorem spared_listed {before} (listed : snap.record ∈ listOrphanedWorkers s.rows s.instances s.sessions before) :
    Spared s snap := by
  obtain ⟨hm, unclaimed⟩ := mem_listOrphanedWorkers listed
  exact ⟨⟨_, find?_eq_some.mpr ⟨hm, rfl⟩, Int.le_refl _⟩, fun _ _ _ => unclaimed⟩

theorem Spared.moves (spared : Spared s snap) (moves : DurableMoves s cp phase step after phase')
    (notListed : ∀ record, phase = .upserting record → step = .upsert true →
      snap.record.workerID = record.workerID → ∀ row, s.rows.find? record.workerID = some row →
        row.ownerEpoch ≠ snap.record.ownerEpoch) : Spared after snap := by
  refine ⟨spared.behind.succeed moves.rowsSucceed, fun next hfn sameNext => ?_⟩
  obtain ⟨row, hf, le⟩ := spared.behind
  obtain ⟨next', hfn', succeeds⟩ := moves.rowsSucceed _ row hf
  rw [hfn] at hfn'
  cases hfn'
  have hs : row.ownerEpoch = snap.record.ownerEpoch := by
    have grown := succeeds.1
    omega
  have unclaimed := spared.unclaimed row hf hs
  by_contra hcl
  rw [Bool.not_eq_false] at hcl
  rcases moves.sessions with faded | ⟨record, isUpsert, isStep, rfl⟩
  · rw [faded.reclaimable hcl] at unclaimed
    cases unclaimed
  obtain ⟨token, stored, foundStored, worker, state⟩ := reclaimable_iff.mp hcl
  by_cases puts : token = record.sessionToken
  · subst puts
    cases (find?_upsert s.sessions record).symm.trans foundStored
    exact notListed record isUpsert isStep worker.symm row (worker ▸ hf) hs
  · have hfd : s.sessions.find? token = some stored := (find?_upsert_of_ne s.sessions puts).symm.trans foundStored
    rw [reclaimable_iff.mpr ⟨token, stored, hfd, worker, state⟩] at unclaimed
    cases unclaimed

theorem sweeps_own {c next} (own : Sweeps s c)
    (ha : durableProgram.step s c step = some (after, next)) : Sweeps after next := by
  have moves := moves_of_step ha
  intro pending isRetiring snap hm
  rw [isRetiring] at moves
  generalize isPhase : c.phase = phase at moves
  cases moves with
  | waits resting | fades _ resting => cases resting
  | lists =>
    obtain ⟨record, listed, rfl⟩ := mem_map.mp hm
    exact spared_listed listed
  | retires =>
    have spared := own _ isPhase snap (mem_cons_of_mem _ hm)
    refine spared.moves (moves_of_step ha) fun record isUpsert => ?_
    rw [isPhase] at isUpsert
    cases isUpsert

theorem sweeps_stable {w call sweep c next d} (legal : NotListed w (.advance call step)) (hf : w.calls call = some c)
    (ha : durableProgram.step w.shared c step = some (after, next))
    (foundSweep : w.calls sweep = some d) (own : Sweeps w.shared d) : Sweeps after d := by
  have moves := moves_of_step ha
  intro pending isRetiring snap hm
  refine (own pending isRetiring snap hm).moves moves fun record isUpsert isStep worker row => ?_
  subst isStep
  exact legal c record hf isUpsert sweep d pending snap row foundSweep isRetiring hm worker

theorem retire_other {id} (now : Nat) (reached : Bool) (other : id ≠ snap.record.workerID) :
    (s.retire snap now reached).rows.find? id = s.rows.find? id := by
  cases reached with
  | false => rfl
  | true =>
    refine (congrArg (Table.find? · id) snapshotTransition_rows).trans ?_
    unfold Workers.retireOrphanWorker
    split
    · rfl
    · exact find?_modify_of_ne _ _ other

theorem retire_stale {row} (now : Nat) (reached : Bool) (hf : s.rows.find? snap.record.workerID = some row)
    (stale : snap.record.ownerEpoch < row.ownerEpoch) : (s.retire snap now reached).rows = s.rows := by
  cases reached with
  | false => rfl
  | true =>
    refine snapshotTransition_rows.trans ?_
    exact apply_stale (.retireOrphanWorker snap.record janitorRetireReasonOrphaned
      s.instances.listLiveControlPlaneInstanceIDs now) rfl hf stale

theorem Spared.retire (spared : Spared s snap) {id} (now : Nat) (reached : Bool)
    (hcl : s.sessions.reclaimable id = true) :
    (s.retire snap now reached).rows.find? id = s.rows.find? id := by
  by_cases hs : id = snap.record.workerID
  · subst hs
    obtain ⟨row, hf, le⟩ := spared.behind
    have stale : snap.record.ownerEpoch < row.ownerEpoch := by
      refine lt_of_le_of_ne le fun equal => ?_
      rw [spared.unclaimed row hf equal.symm] at hcl
      cases hcl
    rw [retire_stale now reached hf stale]
  · exact retire_other now reached hs

theorem sweep_spares_sessions (s : DurableState) {steps : List (CallStep DurableStep DurableRequest)}
    {w after : DurableWorld} (run : durableProgram.machine.run (.init s) steps = some w)
    (obeys : durableProgram.machine.Obeys NotListed (.init s) steps)
    {call now : Nat} {reached : Bool}
    (retires : durableProgram.machine.step w (.advance call (.retire now reached)) = some after)
    {id : Int} (claimed : w.shared.sessions.reclaimable id = true) :
    after.shared.rows.find? id = w.shared.rows.find? id := by
  have hh : w.Holds (fun _ => True) Sweeps := by
    refine Program.holds_of_obeys _ Sweeps ?_ ?_ ?_ (World.holds_init trivial) obeys run
    · intro w call request _ _ pending isRetiring
      cases request <;> cases isRetiring
    · intro w call step c shared next hh _ hf ha
      exact ⟨trivial, sweeps_own (hh.own call c hf) ha⟩
    · intro w call step c shared next sweep d hh legal hf ha _ foundSweep
      exact sweeps_stable legal hf ha foundSweep (hh.own sweep d foundSweep)
  cases Program.takes_of_step retires with
  | @advance _ _ c next _ hf hd =>
    have moves := moves_of_step hd
    have own := hh.own call c hf
    unfold Sweeps at own
    generalize c.phase = phase at moves own
    generalize next.phase = phase' at moves
    cases moves with
    | waits | fades | hears => rfl
    | retires => exact (own _ rfl _ List.mem_cons_self).retire now reached claimed

def reconnecting : List (CallStep DurableStep DurableRequest) :=
  [.start 1 (.reconnectByToken "b" "token"), .advance 1 (.load 8 true), .start 2 .environment,
    .advance 2 (.closeSession "token" 9), .start 0 (.sweep "c" 10), .advance 0 (.list true),
    .advance 1 (.connect "" 11 true), .advance 1 (.create true 12)]

def recordedState : DurableState := servingState [durableRecord "a" clientSession 3 7] (List.nodup_singleton _)

theorem obeys_reconnecting : durableProgram.machine.Obeys NotListed (.init recordedState)
      (reconnecting ++ [.advance 1 (.upsert true)]) := by
  refine Machine.Obeys.append (Machine.obeys_of_forall _ ?_ _) fun middle run => ?_
  · intro step hm w
    simp only [reconnecting, mem_cons, not_mem_nil, or_false] at hm
    rcases hm with rfl | rfl | rfl | rfl | rfl | rfl | rfl | rfl <;> trivial
  refine ⟨?_, fun _ _ => trivial⟩
  cases run
  intro c record hf isUpsert sweep d pending snap row foundSweep isRetiring hm worker fresh
  cases hf
  cases isUpsert
  cases fresh
  match sweep with
  | 0 =>
    cases foundSweep
    cases isRetiring
    cases mem_singleton.mp hm
    decide
  | 1 =>
    cases foundSweep
    cases isRetiring
  | 2 =>
    cases foundSweep
    cases isRetiring
  | _ + 3 => cases foundSweep

theorem sweep_spares_sessions_reconnected : ∃ w after : DurableWorld,
      durableProgram.machine.run (.init recordedState) (reconnecting ++ [.advance 1 (.upsert true)]) = some w ∧
      durableProgram.machine.step w (.advance 0 (.retire 13 true)) = some after ∧
      w.shared.sessions.reclaimable 1 = true ∧
      after.shared.rows.find? 1 = w.shared.rows.find? 1 := by
  refine ⟨?w, ?after, ?run, ?retires, ?claimed,
    sweep_spares_sessions recordedState ?run obeys_reconnecting ?retires ?claimed⟩
  case run => rfl
  case retires => rfl
  case claimed => rfl

theorem sweep_retires_recorded_session : ∃ w after : DurableWorld,
      durableProgram.machine.run (.init (servingState [] List.nodup_nil))
        [.start 0 (.sweep "b" 10), .advance 0 (.list true), .start 1 (.getOrCreate "a" clientSession),
          .advance 1 (.create true 11), .advance 1 (.upsert true)] = some w ∧
      durableProgram.machine.step w (.advance 0 (.retire 12 true)) = some after ∧
      w.shared.sessions.reclaimable 1 = true ∧
      (w.shared.rows.find? 1).map WorkerRecord.state = some .hot ∧
      (after.shared.rows.find? 1).map WorkerRecord.state = some .retired :=
  ⟨_, _, rfl, rfl, rfl, rfl, rfl⟩

end Duckgres.Proof.Flight
