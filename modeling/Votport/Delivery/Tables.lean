import Votport.Delivery.Jobs
import Votport.Session.StoredPaths
import Votport.Store.Principals
import Votport.Store.Uploads
import Votport.Trade.Credential

/-!
# The tables of deliveries

The tables that deliveries are made in, and the checks that read them: whether an actor may
still act, a storage or a trade route may still be used, an upload may be shared, a grant
may be created, and a worker may still export a job.
-/

namespace Votport

/-! ### Rows -/

/-- A row of `delivery_projects`. -/
structure ProjectRow where
  tenant : String
  project : Project

/-- The primary key of `delivery_projects`. -/
def ProjectRow.key (row : ProjectRow) : String × String := (row.tenant, row.project.id)

/-- What deliveries read of a row of `outbound_grants`. -/
structure DeliveryGrantRow where
  id : String
  tenant : String
  tokenHash : String
  linkId : String
  uploadId : String
  expiresAt : Int
  revokedAt : Option Int
  /-- The column `source` of the grant's rows in `outbound_grant_files`. -/
  sources : List String
deriving DecidableEq, Repr

/-- A row of `delivery_policy_cache`. -/
structure PolicyCacheRow where
  grantId : String
  isProtected : Bool
deriving DecidableEq, Repr

/-- What deliveries read of a storage connection. -/
structure Storage where
  id : String
  revision : Nat
  tenants : List String
  enabled : Bool
deriving DecidableEq, Repr

/-- What deliveries read of a row of `automation_tokens`. -/
structure AutomationToken where
  id : String
  tenant : String
  createdBy : String
  revokedAt : Option Int
  expiresAt : Int
  permissions : List String
  directory : Option String
deriving DecidableEq, Repr

/-- A row of `receive_workflows`. -/
structure ReceiveWorkflowRow where
  linkId : String
  workflow : ReceiveWorkflow

/-- The columns of `links` that tell whether it accepts routes. -/
structure LinkState where
  linkId : String
  isActive : Bool
  expiresAt : Option Int
deriving DecidableEq, Repr

/-- A row of `inbound_routes`. -/
structure InboundRoute where
  id : String
  tenant : String
  linkId : String
  source : SignedRoute
  ancestry : List RouteReceipt
  sessionId : Option String
  transport : Option String
  uploadId : Option String
  receipt : Option RouteReceipt
  revokedAt : Option Int
deriving DecidableEq

/-- A row of `route_uploads`. -/
structure RouteUpload where
  routeId : String
  uploadId : String
  isPartial : Bool
deriving DecidableEq, Repr

/-- A row of `outbound_routes`. -/
structure OutboundRoute where
  jobId : String
  destinationId : String
  origin : String
  routeId : String
  peerKey : String
  source : SignedRoute
  nextAttempt : Int
  attempts : Nat
  revocation : Option RouteRevocation
  ack : Option RouteRevoked
deriving DecidableEq

/-- The primary key of `outbound_routes`. -/
def OutboundRoute.key (row : OutboundRoute) : String × String := (row.jobId, row.destinationId)

/-! ### Tables -/

/-- The tables that deliveries read and that other parts of the store write. -/
structure Surroundings where
  tenants : List String
  projects : Table ProjectRow.key
  /-- The links that are trade endpoints. -/
  endpoints : List String
  linkStates : Table LinkState.linkId
  receiveWorkflows : Table ReceiveWorkflowRow.linkId
  storages : Table Storage.id
  tokens : Table AutomationToken.id
  principals : Principals

/-- The tables of deliveries and routes. -/
structure DeliveryDb extends Surroundings where
  jobs : Table JobRow.id
  grants : Table DeliveryGrantRow.id
  cache : Table PolicyCacheRow.grantId
  inbound : Table InboundRoute.id
  routeUploads : Table RouteUpload.uploadId
  /-- The rows of `receive_workflow_uploads`: a link and an upload. -/
  receiveUploads : List (String × String)
  outbound : Table OutboundRoute.key
  trade : Table TradeRow.id

/-- The tables of a port. -/
abbrev PortDb (δ : Type) := UploadDb δ DeliveryDb

/-- The documents of uploads and links, the crates that the checks use, and the key of the
port. -/
structure DeliveryEnv (δ : Type) where
  toJson : UploadRecord → δ
  parseUpload : δ → Except String UploadRecord
  parseEvents : δ → Except String Unit
  statements : StatementEnv
  /-- The port's public key. -/
  publicHex : String
  /-- The port's signature of a message, in hexadecimal digits. -/
  sign : List UInt8 → String
  keys : SubjectKeys
  /-- The normalization form KC, in upper case. -/
  foldPath : String → String
  /-- The text is a public key in hexadecimal digits. -/
  deviceKey : String → Bool
  /-- The length of the serialized route and its ancestry. -/
  evidenceBytes : SignedRoute → List RouteReceipt → Nat

/-- The error of a change to a workflow. -/
inductive WorkflowMutationError
  | invalid (message : String)
  | conflict (message : String)
  | operationConflict (message : String)
  | store (message : String)
deriving DecidableEq, Repr

/-- The text of an error. -/
def WorkflowMutationError.message : WorkflowMutationError → String
  | .invalid message | .conflict message | .operationConflict message | .store message => message

/-- The result, with the text of its error. -/
def textError {α : Type} (result : Except WorkflowMutationError α) : Except String α :=
  result.mapError WorkflowMutationError.message

theorem textError_eq_ok {α : Type} {result : Except WorkflowMutationError α} {a : α} :
  textError result = .ok a ↔ result = .ok a
  := by
  cases result <;> simp [textError, Except.mapError]

variable {δ : Type}

/-- Reads the documents of uploads. -/
def DeliveryEnv.documents (env : DeliveryEnv δ) : UploadEnv δ DeliveryDb where
  toJson := env.toJson
  parseUpload := env.parseUpload
  parseEvents := env.parseEvents
  completeRoute := fun db _ _ _ _ => .ok db.rest
  queueReceived := fun db _ _ _ => .ok db.rest

/-! ### Reading -/

/-- The text begins with the other one. -/
def beginsWith (value head : String) : Bool :=
  head.toList.isPrefixOf value.toList

/-- `project_in`. -/
def Surroundings.projectIn (db : Surroundings) (tenant id : String) : Option Project :=
  (db.projects.find? (tenant, id)).map ProjectRow.project

/-- `ensure_tenant`. -/
def Surroundings.ensureTenant (db : Surroundings) (tenant : String) :
    Except WorkflowMutationError Unit :=
  Fallible.require (tenant = "" ∨ tenant ∈ db.tenants) (.conflict "tenant missing")

/-- `principal_active`. -/
def Surroundings.principalActive (db : Surroundings) (keys : SubjectKeys) (actor : String)
    (credentialVersion : Nat) : Bool :=
  match db.principals.rows.find? actor with
  | some row => !row.blocked && decide (row.credentialVersion = credentialVersion)
  | none =>
      decide (credentialVersion = 1)
        && (db.principals.tombstones.find? (purgedPrincipalKey keys actor)).isNone

/-- The token may still create jobs in the directory. -/
def AutomationToken.createsJobs (token : AutomationToken) (tenant directory : String)
    (now : UInt64) : Bool :=
  decide (token.tenant = tenant) && token.revokedAt.isNone
    && decide (asI64 now.toNat < token.expiresAt) && token.permissions.contains "jobs:create"
    && token.directory.all fun d => decide (d = directory) || beginsWith directory (d ++ "/")

/-- The job was queued by the reception of its upload. -/
def Job.byReception (job : Job) (received : Received) : Bool :=
  decide (job.actor = "reception:" ++ received.linkId) && decide (job.credentialVersion = 0)
    && job.automationTokenId.isNone

/-- The identity that submitted the job is still authorized. -/
def Surroundings.identityActive (db : Surroundings) (keys : SubjectKeys) (job : Job)
    (now : UInt64) : Bool :=
  match job.automationTokenId with
  | some id =>
      (db.tokens.find? id).any fun token =>
        token.createsJobs job.tenant job.project.directory now
  | none => db.principalActive keys job.actor job.credentialVersion

/-- `actor_active`. -/
def Surroundings.actorActive (db : Surroundings) (keys : SubjectKeys) (job : Job)
    (now : UInt64) : Except WorkflowMutationError Unit :=
  match job.received with
  | some received =>
      if job.project.receive = false then
        .error (.conflict "project no longer accepts incoming workflows")
      else if job.byReception received then .ok ()
      else
        Fallible.require (db.identityActive keys job now = true)
          (.conflict "submitting identity is no longer authorized")
  | none =>
      Fallible.require (db.identityActive keys job now = true)
        (.conflict "submitting identity is no longer authorized")

/-! ### Storages and trade routes -/

/-- `check_storage`. -/
def Surroundings.checkStorage (db : Surroundings) (tenant id : String) (revision : Option Nat) :
    Except WorkflowMutationError Storage := do
  let config ← Fallible.present (db.storages.find? id) (.conflict "storage connection missing")
  Fallible.require (config.enabled = true ∧ tenant ∈ config.tenants
      ∧ some config.revision = revision)
    (.conflict "storage authorization changed; submit a new job")
  return config

/-- The route does not permit its receiver to forward what it delivers. -/
def InboundRoute.prohibitsForwarding (route : InboundRoute) : Bool :=
  route.source.document.permission.any fun permission => !permission.forwarding

/-- `trade::check_export`. -/
def DeliveryDb.checkExport (db : DeliveryDb) (job : Job) : Except WorkflowMutationError Unit :=
  match job.received with
  | some received =>
      Fallible.require (job.project.destinations = [] ∨ ¬ ∃ r ∈ db.inbound.rows,
          r.tenant = job.tenant ∧ r.uploadId = some received.uploadId
            ∧ r.prohibitsForwarding = true)
        (.conflict "source port does not permit managed forwarding")
  | none => .ok ()

/-- `trade::check_destination`. -/
def DeliveryDb.checkDestination (db : DeliveryDb) (job : Job) (id : String) :
    Except WorkflowMutationError Unit :=
  if job.checks.complete id then .ok ()
  else
    match db.trade.find? id with
    | none => .ok ()
    | some row => do
        let bound := db.outbound.find? (job.id, id)
        Fallible.require (bound.all fun r => r.revocation.isNone && r.ack.isNone)
          (.conflict
            "this delivery was permanently revoked; submit a new job for the resumed route")
        Fallible.require (row.route.tenant = job.tenant ∧ row.route.direction = .outgoing
            ∧ row.route.remoteGrant ≠ ""
            ∧ (row.route.state = .active ∨ bound.isSome ∧ row.route.cancelActive = false))
          (.conflict "trade route is not approved or has been paused or revoked")

/-- `check_job_source`. -/
def DeliveryDb.checkJobSource (db : DeliveryDb) (job : Job) :
    Except WorkflowMutationError Unit := do
  db.checkExport job
  match job.request.importFrom with
  | none => .ok ()
  | some source => do
      let _ ← db.checkStorage job.tenant source.storageId job.checks.importStorageRevision
      return ()

/-- `check_job_destination`. -/
def DeliveryDb.checkJobDestination (db : DeliveryDb) (job : Job) (destination : String) :
    Except WorkflowMutationError Storage := do
  Fallible.require (destination ∈ job.project.destinations)
    (.conflict "destination is not part of this job")
  db.checkDestination job destination
  db.checkStorage job.tenant destination (job.checks.destinationRevisions.get destination)

/-- `check_job_storage`. -/
def DeliveryDb.checkJobStorage (db : DeliveryDb) (job : Job) :
    Except WorkflowMutationError Unit := do
  db.checkJobSource job
  (job.project.destinations.filter fun id => !job.checks.complete id).forM fun id => do
    let _ ← db.checkJobDestination job id
    return ()

/-- `export_in`. -/
def DeliveryDb.exportIn (db : DeliveryDb) (keys : SubjectKeys) (id : String) (attempt : Nat)
    (now : UInt64) : Except String JobRow := do
  let row ← Fallible.present (db.jobs.find? id) "job missing"
  let project ← Fallible.present (db.projectIn row.job.tenant row.job.project.id)
    "project missing"
  Fallible.require (row.job.state = .exporting ∧ row.job.attempts = attempt
      ∧ row.job.project.sameDeliveryPolicy project
      ∧ (project.requireApproval = true → row.job.approvedBy.isSome = true))
    "export is no longer authorized"
  Fallible.require ((db.grants.find? id).any (fun g =>
      g.revokedAt.isNone && decide (asI64 now.toNat < g.expiresAt)) = true)
    "delivery was revoked or expired"
  textError (db.actorActive keys row.job now)
  textError (db.checkJobSource row.job)
  return row

/-- `require_delivery_destination`: a worker that sends the delivery asks for it first, and
again while it sends. -/
def DeliveryDb.requireDeliveryDestination (db : DeliveryDb) (keys : SubjectKeys) (id : String)
    (attempt : Nat) (destination : String) (now : UInt64) : Except String Storage := do
  let row ← db.exportIn keys id attempt now
  textError (db.checkJobDestination row.job destination)

/-! ### Sharing -/

/-- `require_shareable`. -/
def DeliveryDb.requireShareable (db : DeliveryDb) (uploadId : String) :
    Except WorkflowMutationError Unit :=
  Fallible.require (¬ ∃ u ∈ db.routeUploads.rows, ∃ r ∈ db.inbound.rows, r.id = u.routeId
      ∧ u.uploadId = uploadId ∧ (u.isPartial = true ∨ r.revokedAt.isSome = true))
    (.conflict "incoming route is incomplete or revoked")

/-- `received_requires_workflow`. -/
def receivedRequiresWorkflow (db : PortDb δ) (tenant linkId uploadId : String) : Prop :=
  (linkId, uploadId) ∈ db.rest.receiveUploads ∧ (db.link? tenant linkId).isSome = true

instance (db : PortDb δ) (tenant linkId uploadId : String) :
    Decidable (receivedRequiresWorkflow db tenant linkId uploadId) :=
  inferInstanceAs (Decidable (_ ∧ _))

/-- `receive_workflow_in`. -/
def receiveWorkflowIn (db : PortDb δ) (tenant linkId : String) : Option ReceiveWorkflow :=
  match db.link? tenant linkId with
  | none => none
  | some _ => (db.rest.receiveWorkflows.find? linkId).map ReceiveWorkflowRow.workflow

/-- A file of a grant. -/
structure GrantFile where
  source : String
  name : String
  bytes : Nat
deriving DecidableEq, Repr

/-- What is checked of a grant that is created. -/
structure OutboundGrant where
  id : String
  tenant : String
  tokenHash : String
  linkId : String
  uploadId : String
  expiresAt : UInt64
  files : List GrantFile
deriving DecidableEq, Repr

/-- `within`. -/
def within (env : DeliveryEnv δ) (directory path : String) : Bool :=
  decide (env.foldPath path = env.foldPath directory)
    || beginsWith (env.foldPath path) (env.foldPath directory ++ "/")

/-- The files of an upload that a received job delivers. -/
def receivedFiles (env : DeliveryEnv δ) (db : PortDb δ) (job : Job) (received : Received) :
    Except WorkflowMutationError (List FileRecord) :=
  match readUpload env.documents db job.tenant received.linkId received.uploadId with
  | .error e => .error (.store e)
  | .ok none => .error (.conflict "incoming upload missing")
  | .ok (some upload) =>
      if upload.isPartial = true ∨ upload.completedAt = 0 then
        .error (.conflict "incoming upload missing")
      else .ok (upload.files.filter fun file => !file.deleted)

/-- The source that a file of the job's grant has to have. -/
def Job.grantSource (job : Job) (received : Option (List FileRecord)) (file : GrantFile) :
    String :=
  match received with
  | some files =>
      match files.reverse.find? (fun f => f.path = file.name) with
      | some f => if f.bytes = file.bytes then "received:" ++ f.storedAs else ""
      | none => ""
  | none =>
      if job.usesSnapshot then "workflow:" ++ job.id ++ "/" ++ file.name
      else job.project.directory ++ "/" ++ file.name

/-- The files of a grant are those that its job delivers. -/
def checkGrantJob (env : DeliveryEnv δ) (db : PortDb δ) (grant : OutboundGrant) (job : Job) :
    Except WorkflowMutationError Unit := do
  let received ← match job.received with
    | none => pure none
    | some received => (receivedFiles env db job received).map some
  Fallible.require (job.tenant = grant.tenant ∧ job.id = grant.id ∧ grant.files ≠ []
      ∧ ∀ file ∈ grant.files, file.source = job.grantSource received file)
    (.conflict "delivery does not match its workflow")

/-- `check_grant_creation`. -/
def checkGrantCreation (env : DeliveryEnv δ) (db : PortDb δ) (grant : OutboundGrant)
    (job : Option Job) : Except WorkflowMutationError Unit := do
  db.rest.requireShareable grant.uploadId
  Fallible.require (grant.linkId = ""
      ∨ ¬ receivedRequiresWorkflow db grant.tenant grant.linkId grant.uploadId)
    (.conflict "these incoming files require their project delivery link")
  Fallible.require (∀ row ∈ db.rest.projects.rows, row.tenant = grant.tenant →
      (∃ file ∈ grant.files, within env row.project.directory file.source = true) →
      job.any (fun job => job.project.id = row.project.id) = true)
    (.conflict "this directory requires a delivery workflow")
  Fallible.require ((∃ file ∈ grant.files, beginsWith file.source "received:" = true) →
      job.any (fun job => job.received.isSome) = true)
    (.conflict "received sources require their owning workflow")
  match job with
  | none => .ok ()
  | some job => checkGrantJob env db grant job

end Votport
