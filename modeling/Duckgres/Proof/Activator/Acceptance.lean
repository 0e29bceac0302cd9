import Duckgres.Activator.Request
import Duckgres.Proof.Worker.Reactivation

namespace Duckgres.Proof.Activator
open Base Duckgres.Worker Duckgres.Activator Duckgres.Proof.Worker

def settled (c : DuckLakeConfig) : DuckLakeConfig :=
  { c with s3AccessKey := "", s3SecretKey := "", s3SessionToken := "", migrate := false }

theorem sameDuckLakeRuntime_iff {a b} (hs : settled a = settled b) :
    sameDuckLakeRuntime a b ↔ a.migrate = b.migrate := by
  have fields : sameDuckLakeRuntime (settled a) (settled b) = true := by
    rw [hs]
    simp [sameDuckLakeRuntime]
  simp only [sameDuckLakeRuntime, settled, Bool.and_eq_true, beq_iff_eq] at fields ⊢
  simp [fields, true_and, and_true]

section Build
variable (source : OrgSource) (a b c d : AssumedCredentials)

theorem fromDuckling_settled (lookup : Option DucklingStatus) :
    (source.buildDuckLakeConfigFromDuckling lookup (some a)).map (settled ·.1) =
      (source.buildDuckLakeConfigFromDuckling lookup (some b)).map (settled ·.1) := by
  unfold OrgSource.buildDuckLakeConfigFromDuckling OrgSource.assumeRole
  split
  · rfl
  split
  · rfl
  split
  · rfl
  rename_i status _ _
  cases source.ducklingMetadataStoreAddress status with
  | error => rfl
  | ok =>
    split
    · rfl
    · split <;> rfl

variable (warehouse : ManagedWarehouseConfig)

theorem fromConfigStore_settled : (source.buildDuckLakeConfigFromConfigStore warehouse (some a)).map settled =
      (source.buildDuckLakeConfigFromConfigStore warehouse (some b)).map settled := by
  unfold OrgSource.buildDuckLakeConfigFromConfigStore OrgSource.assumeRole
  split
  · rfl
  split
  · split <;> rfl
  split
  · split
    · rfl
    · split <;> rfl
  · rfl

theorem fromStore_settled : ((source.buildDuckLakeConfigFromConfigStore warehouse (some a)).map
        fun dl => (dl, (none : Option Nat))).map (settled ·.1) =
      ((source.buildDuckLakeConfigFromConfigStore warehouse (some b)).map
        fun dl => (dl, (none : Option Nat))).map (settled ·.1) := by
  have hs := fromConfigStore_settled source a b warehouse
  revert hs
  cases source.buildDuckLakeConfigFromConfigStore warehouse (some a) <;>
    cases source.buildDuckLakeConfigFromConfigStore warehouse (some b) <;> exact id

theorem buildDuckLakeConfig_settled : (source.buildDuckLakeConfig warehouse ⟨some a, some c⟩).map (settled ·.1) =
      (source.buildDuckLakeConfig warehouse ⟨some b, some d⟩).map (settled ·.1) := by
  unfold OrgSource.buildDuckLakeConfig
  split
  · exact fromStore_settled source c d warehouse
  rename_i lookup _
  -- whether the Duckling's part fails does not depend on the credentials
  have hs := fromDuckling_settled source a b lookup
  revert hs
  cases source.buildDuckLakeConfigFromDuckling lookup (some a) <;>
    cases source.buildDuckLakeConfigFromDuckling lookup (some b) <;> intro hs
  · exact fromStore_settled source c d warehouse
  · cases hs
  · cases hs
  · exact hs

end Build

variable {source : OrgSource} {orgID : String} {x y : TenantActivationPayload}

theorem buildActivationRequest_ok {sts} (built : source.buildActivationRequest orgID sts = .ok x) :
    ∃ warehouse dl expiresAt ic, source.warehouse = some warehouse ∧
      source.buildDuckLakeConfig warehouse sts = .ok (dl, expiresAt) ∧
      source.buildIcebergConfig warehouse.iceberg = .ok ic ∧
      x = ⟨orgID, { dl with specVersion := source.targetSpecVersion warehouse }, ic, expiresAt⟩ := by
  unfold OrgSource.buildActivationRequest at built
  split at built
  · cases built
  rename_i warehouse hf
  split at built
  · cases built
  revert built
  cases duckLake : source.buildDuckLakeConfig warehouse sts with
  | error => exact nofun
  | ok config =>
    cases iceberg : source.buildIcebergConfig warehouse.iceberg with
    | error => exact nofun
    | ok ic =>
      intro built
      cases built
      exact ⟨warehouse, config.1, config.2, ic, hf, duckLake, iceberg, rfl⟩

structure Agree (x y : TenantActivationPayload) : Prop where
  org : x.orgID = y.orgID
  duckLake : settled x.duckLake = settled y.duckLake
  iceberg : x.iceberg = y.iceberg

theorem agree_of_build {a b c d}
    (first : source.buildActivationRequest orgID ⟨some a, some c⟩ = .ok x)
    (second : source.buildActivationRequest orgID ⟨some b, some d⟩ = .ok y) : Agree x y := by
  obtain ⟨warehouse, dl, expiresAt, ic, hf, duckLake, iceberg, rfl⟩ := buildActivationRequest_ok first
  obtain ⟨_, dl', expiresAt', ic', hf', duckLake', iceberg', rfl⟩ := buildActivationRequest_ok second
  cases hf.symm.trans hf'
  cases iceberg.symm.trans iceberg'
  have hs := buildDuckLakeConfig_settled source a b c d warehouse
  rw [duckLake, duckLake'] at hs
  have settledSame : settled dl = settled dl' := Except.ok.inj hs
  exact ⟨rfl, congrArg (fun config : DuckLakeConfig =>
    { config with specVersion := source.targetSpecVersion warehouse }) settledSame, rfl⟩

theorem Agree.symm (agree : Agree x y) : Agree y x := ⟨agree.org.symm, agree.duckLake.symm, agree.iceberg.symm⟩

theorem Agree.trans {z} (first : Agree x y) (second : Agree y z) : Agree x z :=
  ⟨first.org.trans second.org, first.duckLake.trans second.duckLake, first.iceberg.trans second.iceberg⟩

theorem built_of_sends (sends : Sends source orgID x) :
    ∃ request first second, source.buildActivationRequest orgID ⟨some first, some second⟩ =
      .ok request ∧ Agree x request := by
  cases sends with
  | activateReservedWorker built cached needed =>
    refine ⟨_, _, _, built, ?_⟩
    unfold TenantActivationPayload.withMigration
    split <;> exact ⟨rfl, rfl, rfl⟩
  | refreshCredentials built => exact ⟨_, _, _, built, rfl, rfl, rfl⟩

theorem agree_of_sends (first : Sends source orgID x) (second : Sends source orgID y) : Agree x y := by
  obtain ⟨request, _, _, built, agree⟩ := built_of_sends first
  obtain ⟨other, _, _, builtOther, agreeOther⟩ := built_of_sends second
  exact agree.trans ((agree_of_build built builtOther).trans agreeOther.symm)

theorem Agree.runtime_iff (agree : Agree x y) {workerID epoch later cp other} :
    sameTenantActivationRuntime (x.toWorker workerID epoch cp) (y.toWorker workerID later other) ↔
      x.duckLake.migrate = y.duckLake.migrate := by
  have iceberg : sameIcebergRuntime y.iceberg y.iceberg = true := by simp [sameIcebergRuntime]
  simp only [sameTenantActivationRuntime, TenantActivationPayload.toWorker, agree.org,
    agree.iceberg, iceberg, beq_self_eq_true, Bool.true_and, Bool.and_true]
  exact sameDuckLakeRuntime_iff agree.duckLake

/-! ## A worker that gets only such requests -/

def SentTo (source : OrgSource) (orgID : String) (workerID : Int) (payload : ActivationPayload) : Prop :=
  payload.workerID = workerID ∧ ∃ request, Sends source orgID request ∧
    payload = request.toWorker workerID payload.ownerEpoch payload.cpInstanceID

def checked : ActivationPhase → Bool
  | .received | .admitted | .returned _ => false
  | _ => true

structure Pending (source : OrgSource) (orgID : String) (workerID : Int) (c : ActivationCall) :
    Prop where
  sent : SentTo source orgID workerID c.payload
  valid : checked c.phase = true → Valid c.payload

structure ServesSent (source : OrgSource) (orgID : String) (workerID : Int) (p : SessionPool) :
    Prop where
  mode : p.sharedWarmMode = true
  serves : ∀ current, p.activation = some current →
    Serves p current.payload ∧ SentTo source orgID workerID current.payload

variable {workerID : Int} {p q : SessionPool} {c : ActivationCall} {after : ActivationPhase} {a : ActivationStep}

theorem Pending.moves (pending : Pending source orgID workerID c) (moves : Moves p c.payload c.phase a q after) :
    Pending source orgID workerID ⟨c.payload, after⟩ := by
  obtain ⟨payload, hp⟩ := c
  refine ⟨pending.sent, fun passed => ?_⟩
  have valid := pending.valid
  cases moves with
  | reuses valid => exact valid
  | connects valid => exact valid
  | admits | fails | repeats | icebergFails | takesOver | losesOut | binds => cases passed
  | prepares | keepsSecret | replacesSecret | refreshed | opens | attaches => exact valid rfl

theorem ServesSent.sameOwner (serves : ServesSent source orgID workerID p) (hs : SameOwner p q) :
    ServesSent source orgID workerID q where
  mode := hs.mode.trans serves.mode
  serves current active := by
    obtain ⟨serving, sent⟩ := serves.serves current (hs.activation ▸ active)
    exact ⟨serving.sameOwner hs, sent⟩

theorem servesSent_installed {payload db} (mode : p.sharedWarmMode = true) (valid : Valid payload)
    (sent : SentTo source orgID workerID payload) :
    ServesSent source orgID workerID (installed p payload db) := by
  refine ⟨mode, fun current active => ?_⟩
  cases active
  exact ⟨⟨mode, ⟨_, rfl⟩, rfl, rfl, valid⟩, sent⟩

theorem ServesSent.moves (serves : ServesSent source orgID workerID p)
    (pending : Pending source orgID workerID c) (moves : Moves p c.payload c.phase a q after) :
    ServesSent source orgID workerID q := by
  obtain ⟨payload, hp⟩ := c
  cases moves with
  | takesOver | binds => exact servesSent_installed serves.mode (pending.valid rfl) pending.sent
  | attaches => exact serves.sameOwner sameOwner_attach
  | _ => exact serves.sameOwner ⟨rfl, rfl, rfl, rfl⟩

theorem servesSent_of_run {warmupDB fallbackDB cacheProxyS3Addr steps w}
    (obeys : activationProgram.machine.Obeys (OnlySent source orgID workerID)
      (.init (.warm warmupDB fallbackDB cacheProxyS3Addr)) steps)
    (run : activationProgram.machine.run (.init (.warm warmupDB fallbackDB cacheProxyS3Addr)) steps = some w) :
    ServesSent source orgID workerID w.shared := by
  have start : (World.init (.warm warmupDB fallbackDB cacheProxyS3Addr)).Holds
      (ServesSent source orgID workerID) fun _ => Pending source orgID workerID :=
    World.holds_init ⟨rfl, fun current active => by cases active⟩
  refine (Program.holds_of_obeys (ServesSent source orgID workerID)
    (fun _ => Pending source orgID workerID) ?_ ?_ ?_ start obeys run).shared
  · intro w call payload _ legal
    obtain ⟨request, ownerEpoch, cpInstanceID, sends, rfl⟩ := legal
    exact ⟨⟨rfl, request, sends, rfl⟩, nofun⟩
  · intro w call a c shared next hh _ hf hd
    obtain ⟨kept, moves⟩ := moves_of_step hd
    have pending := hh.own call c hf
    refine ⟨hh.shared.moves pending moves, ?_⟩
    have after := pending.moves moves
    rwa [← kept] at after
  · intro w call a c shared next other d hh _ _ _ _ hfo
    exact hh.own other d hfo

theorem reactivation_accepted_iff (source : OrgSource) (orgID : String) (workerID : Int)
    (warmupDB fallbackDB : Option Nat) (cacheProxyS3Addr : String)
    (steps : List (CallStep ActivationStep ActivationPayload)) (w : ActivationWorld)
    (obeys : activationProgram.machine.Obeys (OnlySent source orgID workerID)
      (.init (.warm warmupDB fallbackDB cacheProxyS3Addr)) steps)
    (run : activationProgram.machine.run (.init (.warm warmupDB fallbackDB cacheProxyS3Addr)) steps = some w)
    (current : ActivatedTenantRuntime) (active : w.shared.activation = some current)
    (request : TenantActivationPayload) (sends : Sends source orgID request)
    (ownerEpoch : Int) (newer : current.payload.ownerEpoch < ownerEpoch) (cpInstanceID : String)
    (env : ActivationEnv) :
    (w.shared.activateTenant (request.toWorker workerID ownerEpoch cpInstanceID) env).2 =
        .returned none ↔
      request.duckLake.migrate = current.payload.duckLake.migrate ∧
        RefreshWorks current.payload (request.toWorker workerID ownerEpoch cpInstanceID) env := by
  obtain ⟨serving, hs, first, sendsFirst, isFirst⟩ := (servesSent_of_run obeys run).serves current active
  have agree : Agree first request := agree_of_sends sendsFirst sends
  have renews : Renews current.payload (request.toWorker workerID ownerEpoch cpInstanceID) := by
    refine ⟨?_, hs.symm, newer⟩
    rw [isFirst]
    exact agree.org.symm
  rw [serving.accepts_iff renews]
  refine and_congr_left' ?_
  rw [isFirst]
  exact agree.runtime_iff.trans eq_comm

def acmeSource : OrgSource where
  warehouse := some {}
  secretRefsValid := true
  resolveDucklingStatus := some (some
    { endpoint := "meta", password := "secret", bucketName := "acme", iamRoleARN := "role" })
  stsBroker := true
  defaultSpecVersion := ""
  readSecretValue _ := none
  readS3Credentials _ := none
  splitHostPort _ := none

def acmeCredentials (accessKey : String) : AssumedCredentials := ⟨accessKey, "secret", "token", 60⟩

def acmeRequest (accessKey : String) : TenantActivationPayload :=
  ⟨"acme",
    { metadataStore := "postgres:host=meta port=5432 user= password=secret dbname="
      objectStore := "s3://acme/", s3Provider := "config", s3AccessKey := accessKey
      s3SecretKey := "secret", s3SessionToken := "token", s3UseSSL := true
      s3URLStyle := "vhost", specVersion := "1.0" }, {}, some 60⟩

theorem acmeRequest_built (accessKey : String) : acmeSource.buildActivationRequest "acme"
      ⟨some (acmeCredentials accessKey), some (acmeCredentials accessKey)⟩ =
      .ok (acmeRequest accessKey) := by
  rfl

def acmeFirst (needed : Bool) : List (CallStep ActivationStep ActivationPayload) :=
  callSteps 0 (((acmeRequest "key-1").withMigration none (some needed)).toWorker 7 1 "cp-a") bindSteps

theorem acmeFirst_sent (needed : Bool) (warmupDB : Option Nat) :
    activationProgram.machine.Obeys (OnlySent acmeSource "acme" 7) (.init (.warm warmupDB none ""))
      (acmeFirst needed) := by
  have sends : Sends acmeSource "acme" ((acmeRequest "key-1").withMigration none (some needed)) :=
    .activateReservedWorker (acmeRequest_built "key-1") none (some needed)
  exact ⟨⟨_, 1, "cp-a", sends, rfl⟩, fun _ _ => ⟨trivial, fun _ _ => ⟨trivial, fun _ _ =>
    ⟨trivial, fun _ _ => ⟨trivial, fun _ _ => ⟨trivial, fun _ _ => trivial⟩⟩⟩⟩⟩⟩

theorem reactivation_accepted_refreshed :
    ∃ w current, activationProgram.machine.run (.init (.warm (some 0) none "")) (acmeFirst false) =
        some w ∧ w.shared.activation = some current ∧
      (w.shared.activateTenant ((acmeRequest "key-2").toWorker 7 2 "cp-a")
        ⟨none, true, true, true, true⟩).2 = .returned none := by
  refine ⟨_, _, rfl, rfl, ?_⟩
  exact (reactivation_accepted_iff acmeSource "acme" 7 (some 0) none "" (acmeFirst false) _
    (acmeFirst_sent false (some 0)) rfl _ rfl (acmeRequest "key-2")
    (.refreshCredentials (acmeRequest_built "key-2") nofun) 2 (by decide) "cp-a" _).mpr
    ⟨rfl, fun _ => ⟨fun _ => rfl, fun _ => rfl⟩⟩

theorem refresh_rejected_after_migration :
    activationProgram.machine.Obeys (OnlySent acmeSource "acme" 7) (.init (.warm (some 0) none "")) (acmeFirst true) ∧
    ∃ w, activationProgram.machine.run (.init (.warm (some 0) none "")) (acmeFirst true) =
        some w ∧ (∃ current, w.shared.activation = some current ∧ current.payload.ownerEpoch < 2) ∧
      Sends acmeSource "acme" (acmeRequest "key-2") ∧
      (w.shared.activateTenant ((acmeRequest "key-2").toWorker 7 2 "cp-a")
        ⟨none, true, true, true, true⟩).2 = .returned (some (.alreadyActivated "acme")) :=
  ⟨acmeFirst_sent true (some 0), _, rfl, ⟨_, rfl, by decide⟩,
    .refreshCredentials (acmeRequest_built "key-2") nofun, rfl⟩

end Duckgres.Proof.Activator
