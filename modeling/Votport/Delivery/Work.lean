import Votport.Delivery.Tables

/-!
# The work on deliveries

The operations that queue, claim, prepare, export, approve, cancel, retry and retire jobs.
Each is a transaction: it returns the tables it commits, or an error and leaves the tables
as they are.  A worker calls with the number of the attempt it has claimed.
-/

namespace Votport

variable {δ : Type}

/-! ### Jobs -/

/-- `save_job`, with the columns that are written besides. -/
def DeliveryDb.saveJob (db : DeliveryDb) (row : JobRow) : DeliveryDb :=
  { db with
    jobs := db.jobs.upsert { row with snapshotBytes := row.job.checks.snapshotColumn } }

/-- The rows have the same actor and operation. -/
def JobRow.sameOperation (row other : JobRow) : Prop :=
  row.job.tenant = other.job.tenant ∧ row.job.actor = other.job.actor
    ∧ row.job.request.operationId = other.job.request.operationId

instance (row other : JobRow) : Decidable (row.sameOperation other) :=
  inferInstanceAs (Decidable (_ ∧ _ ∧ _))

/-- Inserts a job, refused when its id or its operation is there. -/
def DeliveryDb.insertJob (db : DeliveryDb) (row : JobRow) :
    Except WorkflowMutationError DeliveryDb := do
  Fallible.require (¬ ∃ r ∈ db.jobs.rows, r.sameOperation row)
    (.store "UNIQUE constraint failed: delivery_jobs.tenant, delivery_jobs.actor, delivery_jobs.operation_id")
  let jobs ← Fallible.present (db.jobs.insert? row)
    (.store "UNIQUE constraint failed: delivery_jobs.id")
  return { db with jobs := jobs }

/-- The active jobs of a tenant. -/
def DeliveryDb.activeJobs (db : DeliveryDb) (tenant : String) : Nat :=
  db.jobs.rows.countP fun r => decide (r.job.tenant = tenant) && decide r.job.state.active

/-- `trade::snapshot`: the trade routes of the project's destinations. -/
def DeliveryDb.snapshot (db : DeliveryDb) (tenant : String) (project : Project) : Checks :=
  .new (project.destinations.foldl (fun routes id =>
    match db.trade.find? id with
    | none => routes
    | some row =>
        if row.route.tenant = tenant ∧ row.route.direction = .outgoing then
          routes.set id
            ⟨row.route.metadataKeys, row.route.peerKey, row.route.remoteGrant,
              row.route.forwarding⟩
        else routes) .empty)

/-! ### Queueing -/

/-- A job that has not been claimed. -/
def Job.new (id tenant actor : String) (credentialVersion : Nat)
    (automationTokenId actorHuman : Option String) (request : JobRequest) (project : Project)
    (checks : Checks) (now : UInt64) : Job where
  id := id
  tenant := tenant
  tokenGeneration := 0
  actor := actor
  credentialVersion := credentialVersion
  automationTokenId := automationTokenId
  actorHuman := actorHuman
  request := request
  project := project
  state := .queued
  manifest := none
  approvedBy := none
  attempts := 0
  createdAt := now
  updatedAt := now
  error := none
  checks := checks
  received := none
  reprocessedFrom := none
  reprocessedAs := none

/-- `enqueue_delivery_job` with the id `id`: the job that is queued, or was before. -/
def DeliveryDb.enqueueDeliveryJob (db : DeliveryDb) (keys : SubjectKeys) (id tenant actor : String)
    (credentialVersion : Nat) (automationTokenId : Option String) (project : Project)
    (request : JobRequest) (now : UInt64) : Except WorkflowMutationError (Job × DeliveryDb) := do
  db.ensureTenant tenant
  match db.jobs.rows.find? (fun r => r.job.tenant = tenant ∧ r.job.actor = actor
      ∧ r.job.request.operationId = request.operationId) with
  | some previous => do
      Fallible.require (previous.job.request = request)
        (.operationConflict "operation ID already used with a different request")
      return (previous.job, db)
  | none => do
      (project.validateJob request now).mapError .invalid
      Fallible.require (db.projectIn tenant project.id = some project)
        (.conflict "project changed; reload before submitting")
      Fallible.require (db.activeJobs tenant < 1000) (.conflict "active job limit reached")
      let actorHuman := automationTokenId.bind fun token =>
        ((db.tokens.find? token).filter (·.tenant = tenant)).map AutomationToken.createdBy
      let job := Job.new id tenant actor credentialVersion automationTokenId actorHuman request
        project (db.snapshot tenant project) now
      db.actorActive keys job now
      let db ← db.insertJob ⟨"", asI64 (request.notBefore.getD now).toNat, 0, job⟩
      return (job, db)

/-- The label of a received job. -/
def receivedLabel (project : Project) : String :=
  String.ofList (takeBytes 200 (project.label ++ " · received").toList)

/-- Why a received job fails as it is queued. -/
def DeliveryDb.receivedError (db : DeliveryDb) (tenant : String) (project : Project)
    (request : JobRequest) (now : UInt64) : Option String :=
  if 1000 ≤ db.activeJobs tenant then
    some "active job limit reached; retry after other jobs finish"
  else if project.receive = false then some "project no longer accepts incoming workflows"
  else
    match project.validateJob request now with
    | .ok () => none
    | .error e => some e

/-- The job of a received upload. -/
def DeliveryDb.receivedJob (db : DeliveryDb) (id tenant linkId : String) (project : Project)
    (workflow : ReceiveWorkflow) (uploadId : String) (now : UInt64) : Job :=
  let request := workflow.request uploadId (receivedLabel project)
  let error := db.receivedError tenant project request now
  { Job.new id tenant ("reception:" ++ linkId) 0 none none request project
      (db.snapshot tenant project) now with
    state := if error.isSome then .failed else .queued
    error := error
    received := some ⟨linkId, uploadId⟩ }

/-- The part of `queue_received` that queues the job, unless it is there. -/
def DeliveryDb.queueUpload (db : DeliveryDb) (id tenant linkId : String)
    (workflow : ReceiveWorkflow) (uploadId : String) (now : UInt64) :
    Except String DeliveryDb := do
  let project ← Fallible.present (db.projectIn tenant workflow.projectId)
    "receive project missing"
  if ∃ r ∈ db.jobs.rows, r.job.tenant = tenant ∧ r.job.actor = "reception:" ++ linkId
      ∧ r.job.request.operationId = uploadId then
    return db
  else
    textError (db.insertJob ⟨"", asI64 now.toNat, 0,
      db.receivedJob id tenant linkId project workflow uploadId now⟩)

/-- The cache after the grants of an upload are noted as protected. -/
def DeliveryDb.protectUpload (db : DeliveryDb) (tenant linkId uploadId : String) :
    Table PolicyCacheRow.grantId :=
  (db.grants.rows.filter fun g => g.tenant = tenant ∧ g.linkId = linkId
    ∧ g.uploadId = uploadId).foldl (fun cache g => cache.upsert ⟨g.id, true⟩) db.cache

/-- `queue_received`, with the id `id` for the job. -/
def queueReceived (db : PortDb δ) (id tenant linkId : String) (upload : UploadRecord)
    (now : UInt64) : Except String DeliveryDb :=
  match receiveWorkflowIn db tenant linkId with
  | none => .ok db.rest
  | some workflow =>
      let noted :=
        { db.rest with
          receiveUploads := (linkId, upload.id) :: db.rest.receiveUploads
          cache := db.rest.protectUpload tenant linkId upload.id }
      if upload.isPartial then .ok noted
      else noted.queueUpload id tenant linkId workflow upload.id now

/-! ### Claiming -/

/-- The other jobs that the owner has running for the tenant of a row. -/
def DeliveryDb.runningBeside (db : DeliveryDb) (owner : String) (row : JobRow) : Nat :=
  db.jobs.rows.countP fun r => decide (r.job.tenant = row.job.tenant)
    && decide (r.owner = owner) && decide r.job.state.running && decide (r.id ≠ row.id)

/-- The owner may claim the job. -/
def DeliveryDb.claimable (db : DeliveryDb) (owner : String) (now : UInt64) (row : JobRow) :
    Prop :=
  ((row.job.state = .queued ∨ row.job.state = .retrying) ∧ row.notBefore ≤ asI64 now.toNat
      ∨ row.job.state.running ∧ row.owner ≠ owner)
    ∧ db.runningBeside owner row < 2

instance (db : DeliveryDb) (owner : String) (now : UInt64) :
    DecidablePred (db.claimable owner now) :=
  fun _ => inferInstanceAs (Decidable (_ ∧ _))

/-- The job at its next attempt. -/
def Job.nextAttempt (job : Job) (now : UInt64) : Job :=
  { job with
    state := if job.manifest.isSome then .exporting else .preparing
    attempts := job.attempts + 1
    updatedAt := now
    error := none }

/-- The job of a claim: it runs, unless it has been claimed too often. -/
def Job.claimed (job : Job) (now : UInt64) : Job :=
  if 5 < retryAttempts (job.nextAttempt now) then
    { job.nextAttempt now with
      state := .failed, error := some "job recovery limit reached; retry explicitly" }
  else job.nextAttempt now

/-- `claim_delivery_job`: the row of the claimed job, none when there is no job to claim. -/
def DeliveryDb.claimDeliveryJob (db : DeliveryDb) (owner : String) (now : UInt64) :
    Option (JobRow × DeliveryDb) :=
  (((db.jobs.rows.filter (db.claimable owner now)).insertionSort fun r r' =>
      r.notBefore < r'.notBefore ∨ r.notBefore = r'.notBefore ∧ r.id ≤ r'.id).head?).map
    fun row =>
      let claimed := { row with owner := owner, job := row.job.claimed now }
      (claimed, db.saveJob claimed)

/-- The error as it is kept. -/
def keptError (error : String) : String := String.ofList (error.toList.take 500)

/-- The job after its attempt has failed. -/
def Job.afterFailure (job : Job) (error : String) (now : UInt64) : Job :=
  let retryAt := Saturating.add now (UInt64.ofNat (30 * 2 ^ min (retryAttempts job) 4))
  let again := job.state = .exporting ∧ retryAttempts job < 5
  { job with
    state := if again then .retrying else .failed
    checks :=
      { job.checks with
        retryAt := if again then some retryAt else job.checks.retryAt
        firstFailureAt := some (job.checks.firstFailureAt.getD now) }
    error := some (keptError error)
    updatedAt := now }

/-- `fail_delivery_job`. -/
def DeliveryDb.failDeliveryJob (db : DeliveryDb) (id : String) (attempt : Nat) (error : String)
    (now : UInt64) : DeliveryDb :=
  match db.jobs.find? id with
  | none => db
  | some row =>
      if ¬ row.job.state.running ∨ row.job.attempts ≠ attempt then db
      else
        let job := row.job.afterFailure error now
        let notBefore :=
          if job.state = .retrying then asI64 (job.checks.retryAt.getD 0).toNat
          else row.notBefore
        db.saveJob { row with notBefore := notBefore, job := job }

/-! ### Preparing -/

/-- What the other jobs of a tenant have reserved for their files. -/
def DeliveryDb.reservedBeside (db : DeliveryDb) (tenant id : String) : Nat :=
  ((db.jobs.rows.filter fun r => decide (r.job.tenant = tenant) && decide (r.id ≠ id)
    && decide (r.job.state ≠ .suspended)).map JobRow.snapshotBytes).sum

/-- `reserve_delivery_snapshot`. -/
def DeliveryDb.reserveDeliverySnapshot (db : DeliveryDb) (id : String) (attempt : Nat)
    (bytes limit : UInt64) : Except String DeliveryDb := do
  let row ← Fallible.present (db.jobs.find? id) "job missing"
  Fallible.require (row.job.state = .preparing ∧ row.job.attempts = attempt)
    "job changed during snapshot"
  Fallible.require
    (db.reservedBeside row.job.tenant id + bytes.toNat ≤ min limit.toNat i64Max)
    "delivery snapshot storage budget exhausted; wait for retention cleanup or increase VOTPORT_WORKFLOW_SNAPSHOT_BYTES"
  let checks := { row.job.checks with snapshotBytes := some bytes }
  return db.saveJob { row with job := { row.job with checks := checks } }

/-- What a worker has found while it prepared a job. -/
structure Preparation where
  source : Option (Option RouteReceipt × List RouteReceipt)
  importStorageRevision : Option Nat
  sequence : String
  media : String
  malwareScan : String
  tradeRoutes : Keyed RouteSnapshot
  destinationRevisions : Keyed Nat

/-- The part of `prepare` that writes the checks, over those the table holds. -/
def Checks.prepared (checks : Checks) (found : Preparation) : Checks :=
  { checks with
    sourceReceipt := (found.source.map (·.1)).getD checks.sourceReceipt
    sourceAncestry := (found.source.map fun s => some s.2).getD checks.sourceAncestry
    importStorageRevision := found.importStorageRevision.or checks.importStorageRevision
    metadata := some "passed"
    sequence := some found.sequence
    media := some found.media
    malwareScan := some found.malwareScan
    tradeRoutes := found.tradeRoutes
    destinationRevisions := found.destinationRevisions }

/-- The state of a job whose preparation has finished. -/
def Project.preparedState (project : Project) : JobState :=
  if project.requireApproval then .awaitingApproval
  else if project.destinations ≠ [] then .exporting
  else .ready

/-- `finish_job`: `job` is the worker's copy. -/
def DeliveryDb.finishJob (db : DeliveryDb) (keys : SubjectKeys) (job : Job) (manifest : String)
    (now : UInt64) : Except WorkflowMutationError DeliveryDb := do
  let row ← Fallible.present (db.jobs.find? job.id) (.conflict "job missing")
  Fallible.require (row.job.state = .preparing ∧ row.job.attempts = job.attempts
      ∧ row.job.project = job.project)
    (.conflict "job changed during preparation")
  let project ← Fallible.present (db.projectIn job.tenant job.project.id)
    (.conflict "project removed")
  Fallible.require (project.revision = job.project.revision)
    (.conflict "project policy changed; submit a new job")
  db.actorActive keys job now
  db.checkJobStorage job
  let releasedAt :=
    if project.requireApproval = false ∧ project.release = .localCopy then some now
    else job.checks.releasedAt
  let current :=
    { row.job with
      manifest := some manifest
      updatedAt := now
      state := project.preparedState
      checks := { job.checks with releasedAt := releasedAt } }
  return db.saveJob
    { row with
      owner := if current.state = .exporting then "" else row.owner
      job := current }

/-- The row of a grant. -/
def OutboundGrant.row (grant : OutboundGrant) : DeliveryGrantRow where
  id := grant.id
  tenant := grant.tenant
  tokenHash := grant.tokenHash
  linkId := grant.linkId
  uploadId := grant.uploadId
  expiresAt := min grant.expiresAt.toNat i64Max
  revokedAt := none
  sources := grant.files.map GrantFile.source

/-- Finishes the job of a grant, when it has one. -/
def DeliveryDb.finishGrantJob (db : DeliveryDb) (keys : SubjectKeys) (manifest : String)
    (now : UInt64) : Option Job → Except WorkflowMutationError DeliveryDb
  | none => .ok db
  | some job => db.finishJob keys job manifest now

/-- What `add_outbound_grant` does to deliveries: it checks the grant, finishes its job, and
inserts it. -/
def addOutboundGrant (env : DeliveryEnv δ) (db : PortDb δ) (grant : OutboundGrant)
    (job : Option Job) (manifest : String) (now : UInt64) :
    Except WorkflowMutationError DeliveryDb := do
  checkGrantCreation env db grant job
  let rest ← db.rest.finishGrantJob env.keys manifest now job
  let grants ← Fallible.present (rest.grants.insert? grant.row)
    (.store "UNIQUE constraint failed: outbound_grants.id")
  return { rest with grants := grants }

/-! ### Exporting -/

/-- `complete_delivery_export`. -/
def DeliveryDb.completeDeliveryExport (db : DeliveryDb) (keys : SubjectKeys) (id : String)
    (attempt : Nat) (destination location : String) (now : UInt64) : Except String DeliveryDb := do
  let row ← db.exportIn keys id attempt now
  let _ ← textError (db.checkJobDestination row.job destination)
  let checks :=
    { row.job.checks with
      destinations := row.job.checks.destinations.set destination (.complete location now) }
  let state :=
    if ∀ id ∈ row.job.project.destinations, checks.complete id = true then .ready
    else row.job.state
  return db.saveJob
    { row with job := { row.job with checks := checks, state := state, updatedAt := now } }

/-- `fail_delivery_destination`. -/
def DeliveryDb.failDeliveryDestination (db : DeliveryDb) (keys : SubjectKeys) (id : String)
    (attempt : Nat) (destination error : String) (now : UInt64) : Except String DeliveryDb := do
  let row ← db.exportIn keys id attempt now
  Fallible.require (destination ∈ row.job.project.destinations)
    "destination is not part of this job"
  let checks :=
    { row.job.checks with
      destinations := row.job.checks.destinations.set destination (.failed (keptError error)) }
  return db.saveJob { row with job := { row.job with checks := checks } }

/-- An update of the checks of a job that a worker exports at this attempt. -/
def DeliveryDb.updateExporting (db : DeliveryDb) (id : String) (attempt : Nat)
    (f : Checks → Checks) : Option DeliveryDb :=
  match db.jobs.find? id with
  | none => none
  | some row =>
      if row.job.state = .exporting ∧ row.job.attempts = attempt then
        some (db.saveJob { row with job := { row.job with checks := f row.job.checks } })
      else none

/-- `route_progress`. -/
def DeliveryDb.routeProgress (db : DeliveryDb) (id : String) (attempt : Nat)
    (destination : String) (moved : UInt64) : DeliveryDb :=
  (db.updateExporting id attempt fun checks =>
    { checks with destinations := checks.destinations.set destination (.sending moved) }).getD db

/-- `record_route_receipt`. -/
def DeliveryDb.recordRouteReceipt (db : DeliveryDb) (id : String) (attempt : Nat)
    (destination : String) (receipt : RouteReceipt) : Except String DeliveryDb :=
  Fallible.present (db.updateExporting id attempt fun checks =>
      { checks with routeReceipts := checks.routeReceipts.set destination receipt })
    "delivery changed while recording its peer receipt"

/-! ### Changing -/

/-- What is done to a job. -/
inductive JobAction
  | approve (manifest : Option String)
  | cancel
  | retry
deriving DecidableEq, Repr

/-- The refusal of an approver. -/
def approverRefusal : String := "approval requires a different authorized human operator"

/-- The part of `change_delivery_job` that approves. -/
def DeliveryDb.approveJob (db : DeliveryDb) (keys : SubjectKeys) (job : Job) (project : Project)
    (actor : String) (administrator : Bool) (manifest : Option String) (now : UInt64) :
    Except WorkflowMutationError Job := do
  Fallible.require (beginsWith actor "automation:" = false
      ∧ project.allows actor "approver" administrator = true)
    (.conflict approverRefusal)
  Fallible.require (actor ≠ job.actor) (.conflict approverRefusal)
  Fallible.require (job.actorHuman ≠ some actor)
    (.conflict (approverRefusal ++ ": " ++ actor ++ " submitted this delivery through "
      ++ job.actor))
  Fallible.require (job.state = .awaitingApproval ∧ job.manifest = manifest
      ∧ manifest.isSome = true ∧ project.revision = job.project.revision)
    (.conflict "approval does not match the pending manifest and policy")
  db.actorActive keys job now
  db.checkJobStorage job
  return { job with
    approvedBy := some actor
    checks :=
      { job.checks with
        releasedAt := if project.release = .localCopy then some now else job.checks.releasedAt }
    state := if project.destinations ≠ [] then .exporting else .ready }

/-- The part of `change_delivery_job` that cancels, none when the job is cancelled. -/
def cancelJob (job : Job) (project : Project) (actor : String) (administrator : Bool) :
    Except WorkflowMutationError (Option Job) := do
  Fallible.require (project.allows actor "sender" administrator = true ∨ actor = job.actor)
    (.conflict (permissionRefusal "sender"))
  Fallible.require (¬ job.state.isRetiring) (.conflict "delivery is retiring or retired")
  if job.state = .cancelled then return none
  else return some { job with state := .cancelled }

/-- The job with the present policy of its project, as a retry of a received job that was not
prepared takes it. -/
def retryPolicy (db : PortDb δ) (job : Job) (project : Project) (tenant : String) :
    Except WorkflowMutationError Job :=
  match job.received, job.manifest with
  | some received, none => do
      let workflow ← Fallible.present ((receiveWorkflowIn db tenant received.linkId).filter
          fun workflow => workflow.projectId = project.id)
        (.conflict "the receive request must still select this project")
      return { job with
        request :=
          { job.request with
            metadata := workflow.metadata
            recipients := workflow.recipients
            notifications := workflow.notifications }
        project := project
        checks := db.rest.snapshot tenant project }
  | _, _ => do
      Fallible.require (project.revision = job.project.revision)
        (.conflict "this delivery requires its original project policy")
      return job

/-- The part of `change_delivery_job` that retries. -/
def retryJob (env : DeliveryEnv δ) (db : PortDb δ) (job : Job) (project : Project)
    (tenant actor : String) (administrator : Bool) (now : UInt64) :
    Except WorkflowMutationError Job := do
  Fallible.require (project.allows actor "sender" administrator = true ∨ actor = job.actor)
    (.conflict (permissionRefusal "sender"))
  Fallible.require (job.state = .failed ∨ job.state = .retrying)
    (.conflict "only a failed job can retry")
  let job ← retryPolicy db job project tenant
  db.rest.actorActive env.keys job now
  (project.validateJob job.request job.createdAt).mapError .invalid
  return { job with
    attempts := job.attempts + 1
    checks :=
      { job.checks with
        retryBase := some (job.attempts + 1), firstFailureAt := none, retryAt := none }
    state := if job.manifest.isSome then .exporting else .queued }

/-- The job as an action changes it, none when there is nothing to change. -/
def changeJob (env : DeliveryEnv δ) (db : PortDb δ) (job : Job) (project : Project)
    (tenant actor : String) (administrator : Bool) (now : UInt64) :
    JobAction → Except WorkflowMutationError (Option Job)
  | .approve manifest =>
      (db.rest.approveJob env.keys job project actor administrator manifest now).map some
  | .cancel => cancelJob job project actor administrator
  | .retry => (retryJob env db job project tenant actor administrator now).map some

/-- `change_delivery_job`. -/
def changeDeliveryJob (env : DeliveryEnv δ) (db : PortDb δ) (tenant id actor : String)
    (administrator : Bool) (action : JobAction) (now : UInt64) :
    Except WorkflowMutationError DeliveryDb := do
  let row ← Fallible.present ((db.rest.jobs.find? id).filter fun r => r.job.tenant = tenant)
    (.conflict "job missing")
  let project ← Fallible.present (db.rest.projectIn tenant row.job.project.id)
    (.conflict "project missing")
  Fallible.require (row.job.state ≠ .suspended)
    (.conflict "delivery is held after restore; create a new job")
  let changed ← changeJob env db row.job project tenant actor administrator now action
  match changed with
  | none => return db.rest
  | some job =>
      return db.rest.saveJob
        { row with owner := "", job := { job with updatedAt := now, error := none } }

/-- `remove_delivery_recipient`. -/
def DeliveryDb.removeDeliveryRecipient (db : DeliveryDb) (tenant id actor : String)
    (administrator : Bool) (holder : String) (now : UInt64) :
    Except WorkflowMutationError DeliveryDb := do
  let row ← Fallible.present ((db.jobs.find? id).filter fun r => r.job.tenant = tenant)
    (.conflict "job missing")
  let project ← Fallible.present (db.projectIn tenant row.job.project.id)
    (.conflict "project missing")
  Fallible.require (row.job.state ≠ .suspended)
    (.conflict "delivery is held after restore; create a new job")
  Fallible.require (project.allows actor "sender" administrator = true ∨ actor = row.job.actor)
    (.conflict (permissionRefusal "sender"))
  Fallible.require (row.job.state ≠ .cancelled ∧ ¬ row.job.state.isRetiring)
    (.conflict ("a " ++ row.job.state.asStr ++ " delivery cannot change recipients"))
  Fallible.require (holder ∈ row.job.request.recipients)
    (.conflict "that device is not enrolled on this delivery")
  Fallible.require (¬ ∀ enrolled ∈ row.job.request.recipients, enrolled = holder)
    (.conflict "a delivery keeps at least one enrolled recipient; cancel it instead")
  let request :=
    { row.job.request with recipients := row.job.request.recipients.filter (· ≠ holder) }
  return db.saveJob { row with job := { row.job with request := request, updatedAt := now } }

/-! ### Retiring -/

/-- The grant of a job expired or was revoked before the cutoff. -/
def DeliveryDb.grantOver (db : DeliveryDb) (id : String) (cutoff : Int) : Bool :=
  (db.grants.find? id).any fun g =>
    decide (g.expiresAt ≤ cutoff) || g.revokedAt.any fun at' => decide (at' ≤ cutoff)

/-- The job may be retired. -/
def DeliveryDb.retirable (db : DeliveryDb) (cutoff : Int) (row : JobRow) : Prop :=
  row.job.state = .retiring
    ∨ (row.job.state = .failed ∨ row.job.state = .cancelled)
      ∧ asI64 row.job.updatedAt.toNat ≤ cutoff
      ∧ (row.job.checks.releasedAt = none ∨ db.grantOver row.id cutoff = true)
    ∨ (row.job.state = .ready ∨ row.job.state = .awaitingApproval)
      ∧ db.grantOver row.id cutoff = true

instance (db : DeliveryDb) (cutoff : Int) : DecidablePred (db.retirable cutoff) :=
  fun _ => inferInstanceAs (Decidable (_ ∨ _))

/-- When a retirement of the job was last tried. -/
def JobRow.retirementAttempt (row : JobRow) : Nat :=
  (row.job.checks.retirementAttemptAt.map UInt64.toNat).getD 0

/-- `claim_snapshot_retirement`, none when no job may be retired. -/
def DeliveryDb.claimSnapshotRetirement (db : DeliveryDb) (now : UInt64) : Option DeliveryDb :=
  let cutoff := asI64 (Saturating.sub now (7 * 86400)).toNat
  (((db.jobs.rows.filter (db.retirable cutoff)).insertionSort fun r r' =>
      r.retirementAttempt < r'.retirementAttempt
        ∨ r.retirementAttempt = r'.retirementAttempt ∧ r.id ≤ r'.id).head?).map fun row =>
    db.saveJob
      { row with
        job :=
          { row.job with
            state := .retiring
            checks :=
              { row.job.checks with
                retiredFrom :=
                  if row.job.state = .retiring then row.job.checks.retiredFrom
                  else some row.job.state
                retirementAttemptAt := some now } } }

/-- `complete_snapshot_retirement`. -/
def DeliveryDb.completeSnapshotRetirement (db : DeliveryDb) (id : String) (now : UInt64) :
    Except String DeliveryDb :=
  match db.jobs.find? id with
  | none => .ok db
  | some row => do
      Fallible.require (row.job.state = .retiring) "job is not retiring"
      return db.saveJob
        { row with
          job :=
            { row.job with
              state := .retired
              updatedAt := now
              checks :=
                { row.job.checks with
                  snapshotBytes := some 0, snapshotPurgedAt := some now } } }

/-! ### Reprocessing -/

/-- The eight bytes of a word, the highest first. -/
def be64 (n : Nat) : List UInt8 :=
  (List.range 8).reverse.map fun i => UInt8.ofNat (n / 256 ^ i)

/-- The bytes of a text, after their number. -/
def sizedText (text : String) : List UInt8 :=
  be64 text.utf8ByteSize ++ text.toUTF8.data.toList

/-- `route_protocol::manifest_digest` of an upload's files. -/
def manifestDigest (env : StatementEnv) (files : List FileRecord) : String :=
  let sorted := files.insertionSort fun a b => a.path ≤ b.path
  hexEncode (env.sha256 ("votport-delivery-files-v1\x00".toUTF8.data.toList
    ++ sorted.flatMap (fun file => sizedText file.path ++ sizedText file.suite
      ++ sizedText file.root ++ be64 file.bytes)
    ++ be64 files.length))

/-- An operator. -/
structure AdminIdentity where
  subject : String
  tenant : String
  role : String
  credentialVersion : Nat
deriving DecidableEq, Repr

/-- The checks of `reprocess_received_job`: the received upload, the present project and the
workflow of the upload's link. -/
def checkReprocess (env : DeliveryEnv δ) (db : PortDb δ) (identity : AdminIdentity)
    (original : Job) (received : Received) (project : Project) (manifest : String)
    (projectRevision : Nat) : Except WorkflowMutationError ReceiveWorkflow := do
  Fallible.require (original.state = .failed ∨ original.state = .retrying
      ∨ original.state = .awaitingApproval ∨ original.state = .ready)
    (.conflict "only an inactive prepared delivery can be reprocessed")
  Fallible.require (project.revision = projectRevision
      ∧ project.revision ≠ original.project.revision)
    (.conflict "project policy changed; reload before reprocessing")
  let workflow ← Fallible.present ((receiveWorkflowIn db identity.tenant received.linkId).filter
      fun workflow => workflow.projectId = project.id)
    (.conflict "the receive request must still select this project")
  Fallible.require
    (receivedRequiresWorkflow db identity.tenant received.linkId received.uploadId)
    (.conflict "incoming workflow ownership is missing")
  let upload ← (readUpload env.documents db identity.tenant received.linkId
    received.uploadId).mapError .store
  let upload ← Fallible.present (upload.filter fun upload => upload.isPartial = false
      ∧ upload.completedAt ≠ 0 ∧ upload.files ≠ [] ∧ ∀ file ∈ upload.files, file.deleted = false)
    (.conflict "incoming package is incomplete or unavailable")
  Fallible.require (manifestDigest env.statements upload.files = manifest)
    (.conflict "incoming inventory no longer matches the prepared delivery")
  db.rest.requireShareable received.uploadId
  return workflow

/-- The part of `reprocess_received_job` that writes: the job is cancelled and its grant
revoked, and another is queued with the id `newId`. -/
def DeliveryDb.replaceJob (db : DeliveryDb) (tenant : String) (original : JobRow)
    (replacement : Job) (now : UInt64) : Except WorkflowMutationError DeliveryDb := do
  let cancelled :=
    { original with
      owner := ""
      job :=
        { original.job with
          state := .cancelled, updatedAt := now, reprocessedAs := some replacement.id } }
  let db := db.saveJob cancelled
  Fallible.require (db.activeJobs tenant < 1000) (.conflict "active job limit reached")
  let grant ← Fallible.present ((db.grants.find? original.id).filter fun g => g.tenant = tenant)
    (.conflict "prepared delivery link is missing")
  let revoked :=
    { grant with revokedAt := some (grant.revokedAt.getD (asI64 now.toNat)) }
  { db with grants := db.grants.upsert revoked }.insertJob ⟨"", asI64 now.toNat, 0, replacement⟩

/-- `reprocess_received_job`, with the id `newId` for the other job: the job that replaces the
received one. -/
def reprocessReceivedJob (env : DeliveryEnv δ) (db : PortDb δ) (identity : AdminIdentity)
    (id newId manifest : String) (projectRevision : Nat) (now : UInt64) :
    Except WorkflowMutationError (Job × DeliveryDb) := do
  Fallible.require ((identity.role = "admin" ∨ identity.role = "viewer")
      ∧ beginsWith identity.subject "automation:" = false)
    (.conflict "reprocessing requires a human project sender")
  Fallible.require
    (db.rest.principalActive env.keys identity.subject identity.credentialVersion = true)
    (.conflict "submitting identity is no longer authorized")
  let original ← Fallible.present
    ((db.rest.jobs.find? id).filter fun r => r.job.tenant = identity.tenant)
    (.conflict "job missing")
  let received ← Fallible.present original.job.received
    (.conflict "only incoming deliveries can be reprocessed")
  let project ← Fallible.present (db.rest.projectIn identity.tenant original.job.project.id)
    (.conflict "project missing")
  Fallible.require (project.allows identity.subject "sender" (identity.role = "admin") = true)
    (.conflict (permissionRefusal "sender"))
  Fallible.require (original.job.manifest = some manifest ∧ manifest ≠ "")
    (.conflict "delivery manifest changed; reload before reprocessing")
  match original.job.reprocessedAs with
  | some replacement => do
      let row ← Fallible.present (db.rest.jobs.find? replacement)
        (.conflict "replacement delivery missing")
      return (row.job, db.rest)
  | none => do
      let workflow ← checkReprocess env db identity original.job received project manifest
        projectRevision
      let request := workflow.request ("reprocess_" ++ original.id) original.job.request.label
      (project.validateJob request now).mapError .invalid
      let replacement :=
        { Job.new newId identity.tenant identity.subject identity.credentialVersion none none
            request project (db.rest.snapshot identity.tenant project) now with
          received := some received
          reprocessedFrom := some original.id }
      db.rest.actorActive env.keys replacement now
      db.rest.checkJobSource replacement
      let rest ← db.rest.replaceJob identity.tenant original replacement now
      return (replacement, rest)

end Votport
