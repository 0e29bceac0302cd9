import Duckgres.Base.Calls
import Duckgres.Store.Operations

/-!
# Tenant activation on a worker

`doActivateTenant` (duckdbservice/flight_handler.go), `activateTenant` and `reuseExistingActivation`
(duckdbservice/activation.go) on a shared warm worker. A call is cut where the code takes and drops
`p.mu`. `createDBPair`, `activateDBConnection`, `RefreshS3Secret` and `RefreshIcebergSecret` are
calls of their own, the last three outside of the lock; what they return is in the label.
-/

namespace Duckgres.Worker
open Base Store

structure S3Credentials where
  accessKey : String
  secretKey : String
  sessionToken : String
  deriving DecidableEq

/-- `ducklake.Config`. The defaults are Go's zero values. -/
structure DuckLakeConfig where
  metadataStore : String := ""
  restrictClientSessions : Bool := false
  disableMetadataThreadLocalCache : Option Bool := none
  objectStore : String := ""
  dataPath : String := ""
  deltaCatalogEnabled : Bool := false
  deltaCatalogPath : String := ""
  s3Provider : String := ""
  s3Endpoint : String := ""
  s3AccessKey : String := ""
  s3SecretKey : String := ""
  s3SessionToken : String := ""
  s3Region : String := ""
  s3UseSSL : Bool := false
  s3URLStyle : String := ""
  s3Chain : String := ""
  s3Profile : String := ""
  azureProvider : String := ""
  azureAccountName : String := ""
  azureChain : String := ""
  azureClientID : String := ""
  httpProxy : String := ""
  checkpointInterval : Int := 0
  dataInliningRowLimit : Option Int := none
  migrate : Bool := false
  specVersion : String := ""
  viaPgBouncer : Bool := false
  applicationName : String := ""
  deriving DecidableEq

structure IcebergConfig where
  enabled : Bool := false
  backend : String := ""
  icebergNamespace : String := ""
  region : String := ""
  tableBucket : String := ""
  lakekeeperEndpoint : String := ""
  lakekeeperWarehouse : String := ""
  lakekeeperClientID : String := ""
  lakekeeperClientSecret : String := ""
  lakekeeperOAuth2ServerURI : String := ""
  deriving DecidableEq

structure ActivationPayload where
  workerID : Int
  ownerEpoch : Int
  cpInstanceID : String
  orgID : String
  duckLake : DuckLakeConfig
  iceberg : IcebergConfig
  deriving DecidableEq

def DuckLakeConfig.credentials (c : DuckLakeConfig) : S3Credentials := ⟨c.s3AccessKey, c.s3SecretKey, c.s3SessionToken⟩

def s3CredentialsChanged (a b : DuckLakeConfig) : Bool :=
  a.s3AccessKey != b.s3AccessKey || a.s3SecretKey != b.s3SecretKey || a.s3SessionToken != b.s3SessionToken

def s3ProviderForConfig (c : DuckLakeConfig) : String :=
  if c.s3Provider = "" then if c.s3AccessKey ≠ "" then "config" else "credential_chain"
  else c.s3Provider

def sameOwnerActivationAttempt (current next : ActivationPayload) : Bool :=
  current.workerID == next.workerID && current.cpInstanceID == next.cpInstanceID &&
    current.ownerEpoch == next.ownerEpoch

def sameDuckLakeRuntime (a b : DuckLakeConfig) : Bool :=
  a.metadataStore == b.metadataStore && a.objectStore == b.objectStore &&
    a.dataPath == b.dataPath && a.deltaCatalogEnabled == b.deltaCatalogEnabled &&
    a.deltaCatalogPath == b.deltaCatalogPath && a.s3Provider == b.s3Provider &&
    a.s3Endpoint == b.s3Endpoint && a.s3Region == b.s3Region && a.s3UseSSL == b.s3UseSSL &&
    a.s3URLStyle == b.s3URLStyle && a.s3Chain == b.s3Chain && a.s3Profile == b.s3Profile &&
    a.migrate == b.migrate && a.dataInliningRowLimit == b.dataInliningRowLimit &&
    a.checkpointInterval == b.checkpointInterval

def sameIcebergRuntime (a b : IcebergConfig) : Bool :=
  a.enabled == b.enabled && a.backend == b.backend && a.tableBucket == b.tableBucket &&
    a.region == b.region && a.icebergNamespace == b.icebergNamespace &&
    a.lakekeeperEndpoint == b.lakekeeperEndpoint &&
    a.lakekeeperWarehouse == b.lakekeeperWarehouse &&
    a.lakekeeperClientID == b.lakekeeperClientID &&
    a.lakekeeperOAuth2ServerURI == b.lakekeeperOAuth2ServerURI

def sameTenantActivationRuntime (current next : ActivationPayload) : Bool :=
  current.orgID == next.orgID && sameDuckLakeRuntime current.duckLake next.duckLake &&
    sameIcebergRuntime current.iceberg next.iceberg

/-- The guard that `reuseExistingActivation` makes in its first and again in its last phase. -/
def reuseAllowed (current payload : ActivationPayload) : Bool :=
  sameTenantActivationRuntime current payload &&
    !(current != payload && payload.ownerEpoch ≤ current.ownerEpoch && !sameOwnerActivationAttempt current payload)

def needsRefresh (current payload : ActivationPayload) : Bool :=
  (payload.duckLake.objectStore != "" || payload.iceberg.enabled) &&
    current.duckLake != payload.duckLake &&
    (s3CredentialsChanged current.duckLake payload.duckLake ||
      s3ProviderForConfig payload.duckLake == "aws_sdk" ||
      s3ProviderForConfig payload.duckLake == "credential_chain")

inductive ActivationError where
  | orgIDRequired
  | notEnabled
  | negativeOwnerEpoch
  | staleWorkerID (workerID current : Int)
  | alreadyActivated (orgID : String)
  | takeoverRequiresNewerEpoch (ownerEpoch current : Int)
  | staleOwnerEpoch (ownerEpoch current : Int)
  | createRuntime
  | metadataStoreRequired
  | activateRuntime
  deriving DecidableEq

structure ActivatedTenantRuntime where
  payload : ActivationPayload
  db : Nat

structure Attachment where
  db : Nat
  payload : ActivationPayload
  duckLake : DuckLakeConfig

structure SessionPool where
  sharedWarmMode : Bool
  activation : Option ActivatedTenantRuntime
  ownerEpoch : Int
  ownerCPInstanceID : String
  workerID : Int
  warmupDB : Option Nat
  fallbackDB : Option Nat
  cacheProxyS3Addr : String
  -- in DuckDB: the attachments made, newest first, and the source of the secret `ducklake_s3`
  attachments : List Attachment
  s3Secret : Option S3Credentials

def SessionPool.warm (warmupDB fallbackDB : Option Nat) (cacheProxyS3Addr : String) : SessionPool :=
  ⟨true, none, 0, "", 0, warmupDB, fallbackDB, cacheProxyS3Addr, [], none⟩

/-- What a call does next: `received` and `admitted` are at the read locks of `doActivateTenant` and
`activateTenant`, the next four in `reuseExistingActivation`, `connecting` to `committing` in the
part of `activateTenant` that binds the worker. -/
inductive ActivationPhase where
  | received
  | admitted
  | reusing
  | refreshingS3 (needsRefresh : Bool)
  | refreshingIceberg (needsRefresh : Bool)
  | committingReuse
  | connecting
  | attaching (db : Nat)
  | committing (db : Nat)
  | returned (error : Option ActivationError)
  deriving DecidableEq

/-- `created` is the database of a new pair, should `createDBPair` be needed; `secret` says that the
attachment came as far as `createS3Secret`. -/
inductive ActivationStep where
  | receive
  | check
  | prepareReuse
  | refreshS3 (ok : Bool)
  | refreshIceberg (ok : Bool)
  | commitReuse
  | connect (created : Option Nat)
  | attach (ok secret : Bool)
  | commit

namespace SessionPool
variable (p : SessionPool) (payload : ActivationPayload)

def receive : ActivationPhase :=
  if isBlank payload.orgID then .returned (some .orgIDRequired)
  else match p.activation with
    | some current =>
      if current.payload.orgID ≠ payload.orgID then
        .returned (some (.alreadyActivated current.payload.orgID))
      else .admitted
    | none => .admitted

def staleWorker : Bool := 0 < p.workerID && payload.workerID != p.workerID

def check : ActivationPhase :=
  if !p.sharedWarmMode then .returned (some .notEnabled)
  else if isBlank payload.orgID then .returned (some .orgIDRequired)
  else if payload.ownerEpoch < 0 then .returned (some .negativeOwnerEpoch)
  else if p.staleWorker payload then .returned (some (.staleWorkerID payload.workerID p.workerID))
  else match p.activation with
    | some current =>
      if !sameTenantActivationRuntime current.payload payload then
        .returned (some (.alreadyActivated current.payload.orgID))
      else if current.payload = payload then .returned none
      else if payload.ownerEpoch ≤ p.ownerEpoch &&
          !sameOwnerActivationAttempt current.payload payload then
        .returned (some (.takeoverRequiresNewerEpoch payload.ownerEpoch p.ownerEpoch))
      else .reusing
    -- the code makes this check for a worker with and without an owner
    | none =>
      if payload.ownerEpoch ≤ p.ownerEpoch then
        .returned (some (.staleOwnerEpoch payload.ownerEpoch p.ownerEpoch))
      else .connecting

def notReused : ActivationPhase := .returned (some (.alreadyActivated (p.activation.elim "" (·.payload.orgID))))

def prepareReuse : ActivationPhase := match p.activation with
  | some current =>
    if reuseAllowed current.payload payload then
      .refreshingS3 (needsRefresh current.payload payload)
    else p.notReused
  | none => p.notReused

def refreshS3 (needed ok : Bool) : SessionPool × ActivationPhase :=
  if needed && payload.duckLake.objectStore != "" then
    if ok then ({ p with s3Secret := some payload.duckLake.credentials }, .refreshingIceberg needed)
    else (p, p.notReused)
  else (p, .refreshingIceberg needed)

def refreshIceberg (needed ok : Bool) : ActivationPhase :=
  if needed && payload.iceberg.enabled && !ok then p.notReused else .committingReuse

def commitReuse : SessionPool × ActivationPhase := match p.activation with
  | some live =>
    if reuseAllowed live.payload payload then
      ({ p with activation := some { live with payload := payload }
                ownerEpoch := payload.ownerEpoch
                ownerCPInstanceID := payload.cpInstanceID
                workerID := payload.workerID }, .returned none)
    else (p, p.notReused)
  | none => (p, p.notReused)

def connect (created : Option Nat) : SessionPool × ActivationPhase := match p.warmupDB with
  | some db => (p, .attaching db)
  | none => match p.fallbackDB with
    | some db => ({ p with warmupDB := some db }, .attaching db)
    | none => match created with
      | some db => ({ p with warmupDB := some db, fallbackDB := some db }, .attaching db)
      | none => (p, .returned (some .createRuntime))

def overrideS3EndpointForCacheProxy (cfg : DuckLakeConfig) : DuckLakeConfig :=
  if p.cacheProxyS3Addr = "" then cfg
  else
    let region := if cfg.s3Region = "" then "us-east-1" else cfg.s3Region
    { cfg with
      s3Endpoint := if cfg.s3Endpoint = "" then "s3." ++ region ++ ".amazonaws.com" else cfg.s3Endpoint
      httpProxy := "http://" ++ p.cacheProxyS3Addr
      s3UseSSL := false }

def activationConfig : DuckLakeConfig :=
  let cfg := p.overrideS3EndpointForCacheProxy payload.duckLake
  if cfg.applicationName = "" then { cfg with applicationName := "duckgres/" ++ payload.orgID }
  else cfg

def attach (db : Nat) (ok secret : Bool) : SessionPool × ActivationPhase :=
  if payload.duckLake.metadataStore = "" then (p, .returned (some .metadataStoreRequired))
  else
    ({ p with
        attachments := ⟨db, payload, p.activationConfig payload⟩ :: p.attachments
        s3Secret := p.s3Secret.or <|
          if secret && payload.duckLake.objectStore != "" then some payload.duckLake.credentials
          else none },
      if ok then .committing db else .returned (some .activateRuntime))

def commit (db : Nat) : SessionPool × ActivationPhase :=
  if p.staleWorker payload then
    (p, .returned (some (.staleWorkerID payload.workerID p.workerID)))
  else if p.activation.any fun current =>
      sameTenantActivationRuntime current.payload payload && current.payload == payload then
    (p, .returned none)
  else if payload.ownerEpoch ≤ p.ownerEpoch then
    (p, .returned (some (.staleOwnerEpoch payload.ownerEpoch p.ownerEpoch)))
  else match p.activation with
    | some current => (p, .returned (some (.alreadyActivated current.payload.orgID)))
    | none =>
      ({ p with activation := some ⟨payload, db⟩
                ownerEpoch := payload.ownerEpoch
                ownerCPInstanceID := payload.cpInstanceID
                workerID := payload.workerID }, .returned none)

def next : ActivationPhase → ActivationStep → Option (SessionPool × ActivationPhase)
  | .received, .receive => some (p, p.receive payload)
  | .admitted, .check => some (p, p.check payload)
  | .reusing, .prepareReuse => some (p, p.prepareReuse payload)
  | .refreshingS3 needed, .refreshS3 ok => some (p.refreshS3 payload needed ok)
  | .refreshingIceberg needed, .refreshIceberg ok => some (p, p.refreshIceberg payload needed ok)
  | .committingReuse, .commitReuse => some (p.commitReuse payload)
  | .connecting, .connect created => some (p.connect created)
  | .attaching db, .attach ok secret => some (p.attach payload db ok secret)
  | .committing db, .commit => some (p.commit payload db)
  | _, _ => none

end SessionPool

structure ActivationCall where
  payload : ActivationPayload
  phase : ActivationPhase
  deriving DecidableEq

def activationProgram : Program SessionPool ActivationCall ActivationStep ActivationPayload where
  start payload := ⟨payload, .received⟩
  step p c a := (p.next c.payload c.phase a).map fun (pool, phase) => (pool, ⟨c.payload, phase⟩)

structure ActivationEnv where
  created : Option Nat
  attached : Bool
  secretCreated : Bool
  s3Refreshed : Bool
  icebergRefreshed : Bool

def ActivationPhase.step? (env : ActivationEnv) : ActivationPhase → Option ActivationStep
  | .received => some .receive
  | .admitted => some .check
  | .reusing => some .prepareReuse
  | .refreshingS3 _ => some (.refreshS3 env.s3Refreshed)
  | .refreshingIceberg _ => some (.refreshIceberg env.icebergRefreshed)
  | .committingReuse => some .commitReuse
  | .connecting => some (.connect env.created)
  | .attaching _ => some (.attach env.attached env.secretCreated)
  | .committing _ => some .commit
  | .returned _ => none

def SessionPool.finish (env : ActivationEnv) (payload : ActivationPayload) :
    Nat → SessionPool → ActivationPhase → SessionPool × ActivationPhase
  | 0, p, phase => (p, phase)
  | fuel + 1, p, phase =>
    match (phase.step? env).bind (p.next payload phase) with
    | some (q, after) => finish env payload fuel q after
    | none => (p, phase)

def SessionPool.activateTenant (p : SessionPool) (payload : ActivationPayload) (env : ActivationEnv) :
    SessionPool × ActivationPhase :=
  SessionPool.finish env payload 6 p .received

def RefreshWorks (current payload : ActivationPayload) (env : ActivationEnv) : Prop :=
  needsRefresh current payload →
    (payload.duckLake.objectStore ≠ "" → env.s3Refreshed) ∧ (payload.iceberg.enabled → env.icebergRefreshed)

abbrev ActivationWorld := World SessionPool ActivationCall

variable (w : ActivationWorld)

def Succeeded (call : Nat) (payload : ActivationPayload) : Prop := w.calls call = some ⟨payload, .returned none⟩

instance (w : ActivationWorld) (call : Nat) (payload : ActivationPayload) : Decidable (Succeeded w call payload) :=
  inferInstanceAs (Decidable (_ = _))

def ActivationPhase.refreshing : ActivationPhase → Bool
  | .refreshingS3 _ | .refreshingIceberg _ | .committingReuse => true
  | _ => false

/-- A call starts to refresh the secrets only while no other does, and the Iceberg secret is
replaced whenever the S3 secret was. -/
def RefreshesAlone : CallStep ActivationStep ActivationPayload → Prop
  | .advance call .prepareReuse => ∀ other c, other ≠ call → w.calls other = some c → c.phase.refreshing = false
  | .advance call (.refreshIceberg ok) =>
    ∀ payload, w.calls call = some ⟨payload, .refreshingIceberg true⟩ →
      payload.duckLake.objectStore ≠ "" → payload.iceberg.enabled → ok
  | _ => True

def SecretMatches (p : SessionPool) (payload : ActivationPayload) : Prop :=
  ∀ secret, p.s3Secret = some secret → payload.duckLake.objectStore ≠ "" ∧ secret = payload.duckLake.credentials

structure Activated (p : SessionPool) (current : ActivatedTenantRuntime) : Prop where
  active : p.activation = some current
  secret : SecretMatches p current.payload

def AllReturned : Prop := ∀ call c, w.calls call = some c → ∃ error, c.phase = .returned error

/-- Until the worker has a tenant, all calls are for one organisation. -/
def OneOrgUntilBound : CallStep ActivationStep ActivationPayload → Prop
  | .start _ payload => w.shared.activation = none → ∀ call c, w.calls call = some c → c.payload.orgID = payload.orgID
  | _ => True

end Duckgres.Worker
