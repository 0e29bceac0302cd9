import Duckgres.Worker.Activation

/-!
# Activation requests

`BuildActivationRequest` and what `ActivateReservedWorker` and `RefreshCredentials` send to a worker
(controlplane/shared_worker_activator.go). `OrgSource` holds everything that the lookups answer for
an organisation; only the session credentials that the STS broker mints are fresh for each request.
-/

namespace Duckgres.Activator
open Base Worker

structure SecretRef where
  secretNamespace : String := ""
  name : String := ""
  key : String := ""

structure ManagedWarehouseS3 where
  provider : String := ""
  region : String := ""
  bucket : String := ""
  pathPrefix : String := ""
  endpoint : String := ""
  useSSL : Bool := false
  urlStyle : String := ""
  deltaCatalogEnabled : Bool := false
  deltaCatalogPath : String := ""

structure ManagedWarehouseIceberg where
  enabled : Bool := false
  backend : String := ""
  icebergNamespace : String := ""
  region : String := ""
  tableBucketArn : String := ""
  lakekeeperEndpoint : String := ""
  lakekeeperWarehouse : String := ""
  lakekeeperClientID : String := ""
  lakekeeperOAuth2ServerURI : String := ""
  lakekeeperClientCredentials : SecretRef := {}

structure ManagedWarehouseMetadataStore where
  endpoint : String := ""
  port : Int := 0
  databaseName : String := ""
  username : String := ""

structure ManagedWarehouseConfig where
  duckLakeVersion : String := ""
  metadataStore : ManagedWarehouseMetadataStore := {}
  s3 : ManagedWarehouseS3 := {}
  iceberg : ManagedWarehouseIceberg := {}
  iamRoleARN : String := ""
  metadataStoreCredentials : SecretRef := {}
  s3Credentials : SecretRef := {}

structure DucklingStatus where
  endpoint : String := ""
  pgBouncerEndpoint : String := ""
  password : String := ""
  user : String := ""
  database : String := ""
  bucketName : String := ""
  s3Region : String := ""
  iamRoleARN : String := ""

structure AssumedCredentials where
  accessKeyID : String
  secretAccessKey : String
  sessionToken : String
  expiration : Nat

inductive RequestError where
  | noWarehouse
  | invalidSecretRefs
  | ducklingLookup
  | noMetadataPassword
  | noBucket
  | pgBouncerEndpoint (endpoint : String)
  | noMetadataEndpoint
  | noIAMRole
  | noSTSBroker
  | assumeRole
  | metadataStoreCredentials
  | s3Credentials
  | lakekeeperCredentials

structure OrgSource where
  warehouse : Option ManagedWarehouseConfig
  -- `ValidateManagedWarehouseSecretRefs`
  secretRefsValid : Bool
  -- `none`: no resolver is set; `some none`: the lookup fails
  resolveDucklingStatus : Option (Option DucklingStatus)
  stsBroker : Bool
  defaultSpecVersion : String
  readSecretValue : SecretRef → Option String
  readS3Credentials : SecretRef → Option S3Credentials
  -- `net.SplitHostPort` and `strconv.Atoi`
  splitHostPort : String → Option (String × Int)

/-- What `AssumeRole` answers in the two places that call it; `none` is an error. -/
structure StsAnswers where
  duckling : Option AssumedCredentials
  warehouse : Option AssumedCredentials

structure TenantActivationPayload where
  orgID : String
  duckLake : DuckLakeConfig
  iceberg : IcebergConfig
  s3CredentialsExpiresAt : Option Nat

def escapeChar (c : Char) : List Char :=
  if c = '\\' ∨ c = ' ' ∨ c = '\'' ∨ c = '"' then ['\\', c]
  else if c = '\t' then ['\\', 't']
  else if c = '\n' then ['\\', 'n']
  else if c = '\r' then ['\\', 'r']
  else [c]

def escapeDuckLakeConnStringValue (value : String) : String := String.ofList (value.toList.flatMap escapeChar)

def buildDuckLakeMetadataStoreDSN (host : String) (port : Int) (username password database : String) : String :=
  "postgres:host=" ++ escapeDuckLakeConnStringValue host ++ " port=" ++ toString port ++
    " user=" ++ escapeDuckLakeConnStringValue username ++
    " password=" ++ escapeDuckLakeConnStringValue password ++
    " dbname=" ++ escapeDuckLakeConnStringValue database

def trimSlashes (text : String) : String :=
  String.ofList (((text.toList.dropWhile (· = '/')).reverse.dropWhile (· = '/')).reverse)

def buildManagedWarehouseObjectStore (s3 : ManagedWarehouseS3) : String :=
  if s3.bucket = "" then ""
  else
    let pathPrefix := trimSlashes s3.pathPrefix
    if pathPrefix = "" then "s3://" ++ s3.bucket ++ "/"
    else "s3://" ++ s3.bucket ++ "/" ++ pathPrefix ++ "/"

/-- `strings.EqualFold(provider, "aws")`; the long s folds to s. -/
def isAws (provider : String) : Bool := match provider.toList with
  | [a, w, s] => (a = 'a' || a = 'A') && (w = 'w' || w = 'W') && (s = 's' || s = 'S' || s = 'ſ')
  | _ => false

def resolvedBackend (backend : String) : String := if backend = "" then "lakekeeper" else backend

def AssumedCredentials.grant (creds : AssumedCredentials) (dl : DuckLakeConfig) : DuckLakeConfig :=
  { dl with
    s3Provider := "config"
    s3AccessKey := creds.accessKeyID
    s3SecretKey := creds.secretAccessKey
    s3SessionToken := creds.sessionToken }

namespace OrgSource
variable (source : OrgSource)

def ducklingMetadataStoreAddress (status : DucklingStatus) : Except RequestError (String × Int × Bool) :=
  if status.pgBouncerEndpoint ≠ "" then
    match source.splitHostPort status.pgBouncerEndpoint with
    | some (host, port) => .ok (host, port, true)
    | none => .error (.pgBouncerEndpoint status.pgBouncerEndpoint)
  else if status.endpoint = "" then .error .noMetadataEndpoint
  else .ok (status.endpoint, 5432, false)

def assumeRole (roleARN : String) (answer : Option AssumedCredentials) : Except RequestError AssumedCredentials :=
  if roleARN = "" then .error .noIAMRole
  else if !source.stsBroker then .error .noSTSBroker
  else match answer with
    | some creds => .ok creds
    | none => .error .assumeRole

def buildDuckLakeConfigFromDuckling (lookup : Option DucklingStatus)
    (answer : Option AssumedCredentials) : Except RequestError (DuckLakeConfig × Option Nat) :=
  match lookup with
  | none => .error .ducklingLookup
  | some status =>
    if status.password = "" then .error .noMetadataPassword
    else if status.bucketName = "" then .error .noBucket
    else do
      let (host, port, viaPgBouncer) ← source.ducklingMetadataStoreAddress status
      let creds ← source.assumeRole status.iamRoleARN answer
      return (creds.grant
        { metadataStore := buildDuckLakeMetadataStoreDSN host port status.user status.password
            status.database
          viaPgBouncer := viaPgBouncer
          objectStore := "s3://" ++ status.bucketName ++ "/"
          s3Region := status.s3Region
          s3UseSSL := true
          s3URLStyle := "vhost" }, some creds.expiration)

variable (warehouse : ManagedWarehouseConfig)

def warehouseConfig (metadataPassword : String) : DuckLakeConfig :=
  { metadataStore := buildDuckLakeMetadataStoreDSN warehouse.metadataStore.endpoint
      warehouse.metadataStore.port warehouse.metadataStore.username metadataPassword
      warehouse.metadataStore.databaseName
    objectStore := buildManagedWarehouseObjectStore warehouse.s3
    s3Endpoint := warehouse.s3.endpoint
    s3Region := warehouse.s3.region
    s3UseSSL := warehouse.s3.useSSL
    s3URLStyle := warehouse.s3.urlStyle
    deltaCatalogEnabled := warehouse.s3.deltaCatalogEnabled
    deltaCatalogPath := warehouse.s3.deltaCatalogPath }

def buildDuckLakeConfigFromConfigStore (answer : Option AssumedCredentials) : Except RequestError DuckLakeConfig :=
  match source.readSecretValue warehouse.metadataStoreCredentials with
  | none => .error .metadataStoreCredentials
  | some metadataPassword =>
    let dl := warehouseConfig warehouse metadataPassword
    if warehouse.s3Credentials.name ≠ "" then
      match source.readS3Credentials warehouse.s3Credentials with
      | none => .error .s3Credentials
      | some creds =>
        .ok { dl with
          s3Provider := "config"
          s3AccessKey := creds.accessKey
          s3SecretKey := creds.secretKey
          s3SessionToken := creds.sessionToken }
    else if isAws warehouse.s3.provider then
      (source.assumeRole warehouse.iamRoleARN answer).map (·.grant dl)
    else .ok dl

def buildIcebergConfig (src : ManagedWarehouseIceberg) : Except RequestError IcebergConfig :=
  let ic : IcebergConfig :=
    { enabled := src.enabled, backend := src.backend, icebergNamespace := src.icebergNamespace
      region := src.region }
  if resolvedBackend src.backend = "lakekeeper" then
    let ic := { ic with
      lakekeeperEndpoint := src.lakekeeperEndpoint
      lakekeeperWarehouse := src.lakekeeperWarehouse
      lakekeeperClientID := src.lakekeeperClientID
      lakekeeperOAuth2ServerURI := src.lakekeeperOAuth2ServerURI }
    if src.lakekeeperClientCredentials.name ≠ "" then
      match source.readSecretValue src.lakekeeperClientCredentials with
      | none => .error .lakekeeperCredentials
      | some secret => .ok { ic with lakekeeperClientSecret := secret }
    else .ok ic
  else if resolvedBackend src.backend = "s3_tables" then
    .ok { ic with tableBucket := src.tableBucketArn }
  else .ok ic

def targetSpecVersion : String :=
  if warehouse.duckLakeVersion ≠ "" then warehouse.duckLakeVersion
  else if source.defaultSpecVersion ≠ "" then source.defaultSpecVersion
  else "1.0"

/-- A failed build from the Duckling falls back to the config store. -/
def buildDuckLakeConfig (sts : StsAnswers) : Except RequestError (DuckLakeConfig × Option Nat) :=
  let fromStore := (source.buildDuckLakeConfigFromConfigStore warehouse sts.warehouse).map fun dl => (dl, none)
  match source.resolveDucklingStatus with
  | none => fromStore
  | some lookup => match source.buildDuckLakeConfigFromDuckling lookup sts.duckling with
    | .ok built => .ok built
    | .error _ => fromStore

def buildActivationRequest (orgID : String) (sts : StsAnswers) : Except RequestError TenantActivationPayload :=
  match source.warehouse with
  | none => .error .noWarehouse
  | some warehouse =>
    if !source.secretRefsValid then .error .invalidSecretRefs
    else do
      let (dl, expiresAt) ← source.buildDuckLakeConfig warehouse sts
      let ic ← source.buildIcebergConfig warehouse.iceberg
      return ⟨orgID, { dl with specVersion := source.targetSpecVersion warehouse }, ic, expiresAt⟩

end OrgSource

/-- `cached` is the entry in `migrationChecked`, `needed` the answer of `CheckAndBackupMigration`. -/
def requestsMigration (cached needed : Option Bool) : Bool := cached.getD (needed.getD false)

def TenantActivationPayload.withMigration (request : TenantActivationPayload)
    (cached needed : Option Bool) : TenantActivationPayload :=
  if requestsMigration cached needed then
    { request with duckLake := { request.duckLake with migrate := true } }
  else request

def TenantActivationPayload.toWorker (request : TenantActivationPayload) (workerID ownerEpoch : Int)
    (cpInstanceID : String) : ActivationPayload :=
  ⟨workerID, ownerEpoch, cpInstanceID, request.orgID, request.duckLake, request.iceberg⟩

inductive Sends (source : OrgSource) (orgID : String) : TenantActivationPayload → Prop
  | activateReservedWorker {request first second}
      (built : source.buildActivationRequest orgID ⟨some first, some second⟩ = .ok request)
      (cached needed : Option Bool) : Sends source orgID (request.withMigration cached needed)
  | refreshCredentials {request first second}
      (built : source.buildActivationRequest orgID ⟨some first, some second⟩ = .ok request)
      (expires : request.s3CredentialsExpiresAt ≠ none) : Sends source orgID request

def OnlySent (source : OrgSource) (orgID : String) (workerID : Int) (_ : ActivationWorld) :
    CallStep ActivationStep ActivationPayload → Prop
  | .start _ payload => ∃ request ownerEpoch cpInstanceID, Sends source orgID request ∧
      payload = request.toWorker workerID ownerEpoch cpInstanceID
  | _ => True

end Duckgres.Activator
