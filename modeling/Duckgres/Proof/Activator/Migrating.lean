import Duckgres.Activator.Migration
import Duckgres.Proof.Activator.Acceptance

namespace Duckgres.Proof.Activator
open Base Duckgres.Activator MigrationMaps

variable {m n : MigrationMaps} {c next : MigrationCall} {a : MigrationStep} {request : TenantActivationPayload}

def Flagged (m : MigrationMaps) (c : MigrationCall) : Prop :=
  ∀ request, c.phase = .activating request → request.duckLake.migrate → m.isMigrating request.orgID

inductive Flags (m : MigrationMaps) (c next : MigrationCall) : MigrationStep → MigrationMaps → Prop
  | keeps {n : MigrationMaps} {a : MigrationStep} (kept : n.migrating = m.migrating)
      (outside : ∀ request, next.phase ≠ .activating request) : Flags m c next a n
  | blocks {request : TenantActivationPayload} (begins : next.phase = .activating request) :
      Flags m c next .block (m.block request)
  | unblocks {request : TenantActivationPayload} {ok} (ends : c.phase = .unblocking request ok)
      (outside : ∀ request, next.phase ≠ .activating request) :
      Flags m c next .unblock (m.unblock request)

theorem isMigrating_block_of (orgID : String) (set : m.isMigrating orgID) : (m.block request).isMigrating orgID := by
  unfold block
  split
  · by_cases hs : orgID = request.orgID <;> simp_all [setMigrating, isMigrating]
  · exact set

theorem isMigrating_unblock {orgID} (set : m.isMigrating orgID)
    (hne : request.duckLake.migrate → orgID ≠ request.orgID) :
    (m.unblock request).isMigrating orgID := by
  unfold unblock
  split
  · rename_i migrates
    simpa [isMigrating, clearMigrating, hne migrates] using set
  · exact set

theorem flags_of_step (hd : migrationProgram.step m c a = some (n, next)) : Flags m c next a n := by
  obtain ⟨⟨maps, after⟩, ha, ⟨⟩⟩ := Option.map_eq_some_iff.mp hd
  unfold MigrationMaps.next at ha
  split at ha
  · split at ha
    all_goals
      cases ha
      exact .keeps rfl (by simp)
  · cases ha
    exact .keeps rfl (by unfold load; split <;> simp)
  · cases ha
    exact .keeps (by unfold check; split <;> rfl) (by simp)
  · cases ha
    exact .blocks rfl
  · cases ha
    exact .keeps rfl (by simp)
  · rename_i ends
    cases ha
    exact .unblocks ends (by simp)
  · cases ha
    exact .keeps (by unfold record; split <;> rfl) (by simp)
  · cases ha

theorem Flagged.of_migrating {d} (flagged : Flagged m d) (kept : n.migrating = m.migrating) : Flagged n d := by
  intro request running migrates
  rw [isMigrating, kept]
  exact flagged request running migrates

theorem migrating_throughout (m : MigrationMaps) (steps : List (CallStep MigrationStep String)) (w : MigrationWorld)
    (obeys : migrationProgram.machine.Obeys UnblocksLast (World.init m) steps)
    (run : migrationProgram.machine.run (World.init m) steps = some w)
    (call : Nat) (orgID : String) (request : TenantActivationPayload)
    (running : w.calls call = some ⟨orgID, .activating request⟩)
    (migrates : request.duckLake.migrate) : w.shared.isMigrating request.orgID := by
  have start : (World.init m).Holds (fun _ => True) Flagged := World.holds_init trivial
  have hh := Program.holds_of_obeys (fun _ => True) Flagged ?_ ?_ ?_ start obeys run
  · exact hh.own call _ running request rfl migrates
  · intro w call orgID _ _ request running
    cases running
  · intro w call a c shared next _ _ _ hd
    refine ⟨trivial, fun request running migrates => ?_⟩
    cases flags_of_step hd with
    | keeps _ outside => exact absurd running (outside request)
    | blocks begins =>
      cases begins.symm.trans running
      simp [block, migrates, setMigrating, isMigrating]
    | unblocks _ outside => exact absurd running (outside request)
  · intro w call a c shared next other d hh legal hf hd hne hfo
    have flagged := hh.own other d hfo
    cases flags_of_step hd with
    | keeps kept => exact flagged.of_migrating kept
    | blocks =>
      intro request running migrates
      exact isMigrating_block_of _ (flagged request running migrates)
    | unblocks ends =>
      intro request running migrates
      refine isMigrating_unblock (flagged request running migrates) fun clears => ?_
      exact legal c _ _ hf ends clears other d request hne hfo running migrates

def noMigrations : MigrationMaps := ⟨fun _ => none, fun _ => false⟩

def acmeSts (accessKey : String) : StsAnswers := ⟨some (acmeCredentials accessKey), some (acmeCredentials accessKey)⟩

def firstMigration : List (CallStep MigrationStep String) :=
  [.start 0 "acme", .advance 0 (.build acmeSource (acmeSts "key-1")), .advance 0 .load,
    .advance 0 (.check (some true)), .advance 0 .block]

def secondMigration : List (CallStep MigrationStep String) :=
  [.start 1 "acme", .advance 1 (.build acmeSource (acmeSts "key-2")), .advance 1 .load, .advance 1 .block]

def acmeMigration (accessKey : String) : TenantActivationPayload :=
  (acmeRequest accessKey).withMigration (some true) none

theorem migrating_throughout_second : ∃ w, migrationProgram.machine.run (.init noMigrations)
        (firstMigration ++ secondMigration ++ [.advance 0 (.activate true)]) = some w ∧
      w.calls 1 = some ⟨"acme", .activating (acmeMigration "key-2")⟩ ∧
      w.shared.isMigrating "acme" := by
  refine ⟨_, rfl, rfl, ?_⟩
  refine migrating_throughout noMigrations
    (firstMigration ++ secondMigration ++ [.advance 0 (.activate true)]) _ ?_ rfl 1 "acme"
    (acmeMigration "key-2") rfl rfl
  exact ⟨trivial, fun _ _ => ⟨trivial, fun _ _ => ⟨trivial, fun _ _ => ⟨trivial, fun _ _ =>
    ⟨trivial, fun _ _ => ⟨trivial, fun _ _ => ⟨trivial, fun _ _ => ⟨trivial, fun _ _ =>
    ⟨trivial, fun _ _ => ⟨trivial, fun _ _ => trivial⟩⟩⟩⟩⟩⟩⟩⟩⟩⟩

theorem unblocked_by_first : ∃ w, migrationProgram.machine.run (.init noMigrations)
        (firstMigration ++ secondMigration ++ [.advance 0 (.activate true), .advance 0 .unblock]) = some w ∧
      w.calls 1 = some ⟨"acme", .activating (acmeMigration "key-2")⟩ ∧
      (acmeMigration "key-2").duckLake.migrate ∧ w.shared.isMigrating "acme" = false :=
  ⟨_, rfl, rfl, rfl, rfl⟩

end Duckgres.Proof.Activator
