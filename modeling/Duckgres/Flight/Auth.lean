import Duckgres.Base.Machine
import Mathlib.Logic.Function.Basic

/-!
# Bootstrap requests

`cpFlightCredentialValidator` (controlplane/control.go), the lookups of `ConfigStore` it uses, and
`orgRoutedSessionProvider.CreateSession` (controlplane/flight_ingress.go). A request validates its
credentials, writes the organisation into `userOrg`, and later reads `userOrg` back to find the stack
for its session; every step of every request can interleave with those of the others.
-/

namespace Duckgres.Flight
open Base

abbrev Label := List Char

inductive SNIRoutingMode where
  | enforce | passthrough | off

structure OrgUserKey where
  orgID : String
  username : String
  deriving DecidableEq

structure Snapshot where
  databaseName : String → Option Label
  hostnameAliasOrg : Label → Option String
  databaseOrg : Label → Option String
  orgUserPassword : List (OrgUserKey × String)
  keys_nodup : (orgUserPassword.map Prod.fst).Nodup

structure Validator where
  mode : SNIRoutingMode
  managedHostnameSuffixes : List Label
  snapshot : Option Snapshot
  -- `bcrypt.CompareHashAndPassword` without error
  compareHash : String → String → Bool

namespace Validator
variable (v : Validator)

def extractOrgFromSNI (sni : Label) : Option Label :=
  v.managedHostnameSuffixes.findSome? fun suffix =>
    if suffix.isSuffixOf sni then
      let label := sni.take (sni.length - suffix.length)
      if label = [] ∨ '.' ∈ label then none else some label
    else none

def databaseNameForSNIPrefix (label : Label) : Label :=
  if label = [] then []
  else match v.snapshot with
    | none => label
    | some snapshot =>
      match (snapshot.hostnameAliasOrg label).bind snapshot.databaseName with
      | some name => if name ≠ [] then name else label
      | none => label

def resolveDatabase (database : Label) : String :=
  (v.snapshot.bind fun snapshot => snapshot.databaseOrg database).getD ""

def validateOrgUser (orgID username password : String) : Bool :=
  match v.snapshot with
  | none => false
  | some snapshot =>
    match snapshot.orgUserPassword.lookup ⟨orgID, username⟩ with
    | none => false
    | some storedHash => v.compareHash storedHash password

variable (order : List (OrgUserKey × String))

/-- `order` is the order in which this call ranges over the map: the first key with the username
decides. -/
def findAndValidateUser (username password : String) : Option String :=
  match v.snapshot with
  | none => none
  | some _ =>
    match order.find? fun entry => entry.1.username = username with
    | none => none
    | some (key, storedHash) => if v.compareHash storedHash password then some key.orgID else none

def authForSNIPrefix (label : Label) (username password : String) : Option String :=
  let orgID := v.resolveDatabase (v.databaseNameForSNIPrefix label)
  if orgID = "" then none
  else if v.validateOrgUser orgID username password then some orgID
  else none

def authByScan (username password : String) : Option String := v.findAndValidateUser order username password

def validateCredentialsForSNI (sni : Label) (username password : String) : Option String :=
  match v.mode, v.extractOrgFromSNI sni with
  | .enforce, none => none
  | .enforce, some label => v.authForSNIPrefix label username password
  | .passthrough, some label => v.authForSNIPrefix label username password
  | .passthrough, none => v.authByScan order username password
  | .off, _ => v.authByScan order username password

def IsRangeOrder : Prop := order.Perm ((v.snapshot.map Snapshot.orgUserPassword).getD [])

instance (order : List (OrgUserKey × String)) : Decidable (v.IsRangeOrder order) :=
  inferInstanceAs (Decidable (List.Perm _ _))

end Validator

/-- What a request presented, and the organisation that accepted it. The code keeps the username
only; the rest is recorded here for the statements. -/
structure Login where
  username : String
  password : String
  orgID : String

inductive Phase where
  | idle
  -- accepted, `userOrg` not yet written; a request with a session token only authenticates
  | validated (login : Login) (bootstrap : Bool)
  -- before one of `attempts` calls of `CreateSession`
  | recorded (login : Login) (attempts : Nat)
  -- `CreateSession` has read `orgID` and found its stack; `attempts` calls can follow
  | routed (login : Login) (orgID : String) (attempts : Nat)
  | done

structure CreatedSession where
  request : Nat
  login : Login
  orgID : String

structure IngressState where
  userOrg : String → Option String
  phase : Nat → Phase
  orgStacks : List String
  sessions : List CreatedSession

inductive IngressStep where
  | validate (request : Nat) (bootstrap : Bool) (order : List (OrgUserKey × String)) (sni : Label)
      (username password : String)
  | record (request : Nat)
  | route (request : Nat)
  | create (request : Nat)
  | fail (request : Nat)
  | setStacks (orgStacks : List String)

namespace IngressState
variable (s : IngressState)

def init (orgStacks : List String) : IngressState := ⟨fun _ => none, fun _ => .idle, orgStacks, []⟩

def setPhase (request : Nat) (phase : Phase) : IngressState := { s with phase := Function.update s.phase request phase }

/-- `flightAuthSessionStore.Create` calls `CreateSession` a second time when the first call fails. -/
def retry (request : Nat) (login : Login) (attempts : Nat) : IngressState :=
  s.setPhase request (if attempts = 0 then .done else .recorded login attempts)

def step (v : Validator) : IngressStep → Option IngressState
  | .validate request bootstrap order sni username password =>
    match s.phase request with
    | .idle =>
      if v.IsRangeOrder order then
        match v.validateCredentialsForSNI order sni username password with
        | none => some (s.setPhase request .done)
        | some orgID => some (s.setPhase request (.validated ⟨username, password, orgID⟩ bootstrap))
      else none
    | _ => none
  | .record request =>
    match s.phase request with
    | .validated login bootstrap =>
      some { s.setPhase request (if bootstrap then .recorded login 2 else .done) with
        userOrg := Function.update s.userOrg login.username (some login.orgID) }
    | _ => none
  | .route request =>
    match s.phase request with
    | .recorded login attempts =>
      let orgID := (s.userOrg login.username).getD ""
      if orgID ∈ s.orgStacks then some (s.setPhase request (.routed login orgID (attempts - 1)))
      else some (s.retry request login (attempts - 1))
    | _ => none
  | .create request =>
    match s.phase request with
    | .routed login orgID _ =>
      some { s.setPhase request .done with sessions := s.sessions ++ [⟨request, login, orgID⟩] }
    | _ => none
  | .fail request =>
    match s.phase request with
    | .routed login _ attempts => some (s.retry request login attempts)
    | _ => none
  | .setStacks orgStacks => some { s with orgStacks := orgStacks }

end IngressState

def ingressMachine (v : Validator) : Machine IngressState IngressStep := ⟨fun s => s.step v⟩

def Phase.waiting : Phase → Option Login
  | .recorded login _ => some login
  | .routed login _ attempts => if attempts = 0 then none else some login
  | _ => none

def RecordsApart (s : IngressState) : IngressStep → Prop
  | .record request =>
    ∀ login bootstrap, s.phase request = .validated login bootstrap →
      ∀ other waiting, (s.phase other).waiting = some waiting →
        waiting.username = login.username → waiting.orgID = login.orgID
  | _ => True

end Duckgres.Flight
