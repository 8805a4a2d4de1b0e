import Mathlib.Data.List.DropRight
import Votport.Foundation.Fallible
import Votport.Foundation.Fields
import Votport.Foundation.Table
import Votport.Foundation.Words
import Votport.Protocol.Routes

/-!
# Delivery jobs

A job delivers the files of a project: it is queued, prepared by a worker, approved where
the project asks for it, exported to the project's destinations, and retired when nobody
needs it any more.  The document of a job holds its request, the policy of its project when
it was made, its state with the number of the attempt, and what the checks found.
-/

namespace Votport

attribute [local instance] Fields.lawful_texts

/-! ### Projects -/

/-- A value under each key. -/
abbrev Keyed (α : Type) := Table (Prod.fst : String × α → String)

/-- The value under a key. -/
def Keyed.get {α : Type} (values : Keyed α) (key : String) : Option α :=
  (values.find? key).map Prod.snd

/-- The values with this one under the key. -/
def Keyed.set {α : Type} (values : Keyed α) (key : String) (value : α) : Keyed α :=
  values.upsert (key, value)

/-- A device that a project delivers to. -/
structure Recipient where
  email : String
  holder : String
deriving DecidableEq, Repr

/-- The numbered files a project asks for. -/
structure Sequence where
  namePrefix : String
  nameSuffix : String
  first : UInt32
  last : UInt32
  padding : Nat
deriving DecidableEq, Repr

/-- The video format a project asks for. -/
structure MediaCheck where
  videoCodec : Option String
  width : Option UInt32
  height : Option UInt32
  frameRate : Option String
deriving DecidableEq, Repr

/-- When a delivery is released. -/
inductive ReleaseWhen
  | allDestinations
  | localCopy
deriving DecidableEq, Repr

/-- A project. -/
structure Project where
  notificationRevision : Nat
  /-- The notification policy, as its document. -/
  notifications : Option String
  id : String
  revision : Nat
  label : String
  directory : String
  members : Metadata
  recipients : List Recipient
  allowedDomains : List String
  requireApproval : Bool
  requiredMetadata : List String
  sequence : Option Sequence
  media : Option MediaCheck
  scanRequired : Bool
  destinations : List String
  receive : Bool
  release : ReleaseWhen
deriving DecidableEq

/-- The projects agree but for their notifications. -/
def Project.sameDeliveryPolicy (project other : Project) : Prop :=
  { project with
    notifications := other.notifications
    notificationRevision := other.notificationRevision } = other

instance (project other : Project) : Decidable (project.sameDeliveryPolicy other) :=
  inferInstanceAs (Decidable (_ = _))

/-- The value of an entry. -/
def Metadata.get (metadata : Metadata) (key : String) : Option String :=
  (metadata.entries.find? (·.1 = key)).map Prod.snd

/-- The actor has the role. -/
def Project.allows (project : Project) (actor role : String) (administrator : Bool) : Bool :=
  administrator || (project.members.get actor).any fun allowed =>
    decide (allowed = role)
      || (decide (role = "viewer") && ["sender", "approver"].contains allowed)

/-- `permission_refusal`. -/
def permissionRefusal (access : String) : String :=
  "Ask an administrator for " ++ access ++ " access to this project."

/-! ### Requests -/

/-- A source in storage. -/
structure Import where
  storageId : String
  keyPrefix : String
deriving DecidableEq, Repr

/-- What a job is asked to deliver. -/
structure JobRequest where
  notifications : Option String
  operationId : String
  projectId : String
  label : String
  metadata : Metadata
  recipients : List String
  notBefore : Option UInt64
  deadline : Option UInt64
  expiresDays : UInt64
  importFrom : Option Import
deriving DecidableEq

/-- `valid_path`. -/
def validPath (value : String) : Bool :=
  decide (value ≠ "") && decide (value.utf8ByteSize ≤ 1024)
    && value.toList.all (fun c => decide (c ≠ '\\') && decide (c ≠ Char.ofNat 0))
    && (value.toList.splitOn '/').all fun part =>
      decide (part ≠ []) && decide (part ≠ ['.']) && decide (part ≠ ['.', '.'])

/-- `import_refusal_cause`. -/
def importRefusalCause (storageId keyPrefix : String) : String :=
  if isId storageId = false then
    "the storage ID must be 1-100 letters, digits, dashes or underscores"
  else if keyPrefix = "" then "the prefix is empty after trimming whitespace, slashes and dot segments"
  else if ['.', '.'] ∈ keyPrefix.toList.splitOn '/' then "the prefix contains a dot-dot segment"
  else if '\\' ∈ keyPrefix.toList ∨ Char.ofNat 0 ∈ keyPrefix.toList then
    "the prefix contains a backslash or NUL"
  else if 1024 < keyPrefix.utf8ByteSize then "the prefix exceeds 1024 bytes"
  else "the prefix must be a relative path with 1-1024 bytes and no empty or dot segments"

/-- `char::is_control`. -/
def isControl (c : Char) : Bool :=
  decide (c.toNat < 32) || decide (127 ≤ c.toNat ∧ c.toNat < 160)

/-- `trim`. -/
def trim (text : List Char) : List Char :=
  (text.dropWhile isWhiteSpace).rdropWhile isWhiteSpace

/-- Nothing is left to trim. -/
theorem trim_trim (text : List Char) : trim (trim text) = trim text := by
  have hdrop : (trim text).dropWhile isWhiteSpace = trim text := by
    rw [List.dropWhile_eq_self_iff]
    intro hl hhead
    have hprefix : trim text <+: text.dropWhile isWhiteSpace := List.rdropWhile_prefix _ _
    have hlength : 0 < (text.dropWhile isWhiteSpace).length :=
      Nat.lt_of_lt_of_le hl hprefix.length_le
    have hsame : (trim text)[0] = (text.dropWhile isWhiteSpace)[0] := hprefix.getElem hl
    rw [hsame] at hhead
    exact (List.dropWhile_get_zero_not isWhiteSpace text hlength) hhead
  rw [trim, hdrop, trim, List.rdropWhile_idempotent]

/-- `admit_label`. -/
def admitLabel (value : String) (limit : Nat) : Bool :=
  !trimIsEmpty value && decide (value.length ≤ limit) && value.toList.all fun c => !isControl c

/-- The schedule of a request that is submitted now. -/
def JobRequest.schedule (request : JobRequest) (now : UInt64) : Bool :=
  request.notBefore.all (fun t => decide (t ≤ Saturating.add now (365 * 86400)))
    && request.deadline.all fun t =>
      decide (max (request.notBefore.getD now) now < t)
        && decide (t ≤ Saturating.add now (366 * 86400))

/-- The metadata that a project asks for is there. -/
def Project.metadataComplete (project : Project) (metadata : Metadata) : Bool :=
  decide (metadata.entries.length ≤ 50)
    && metadata.entries.all (fun e => isId e.1 && decide (e.2.utf8ByteSize ≤ 4096))
    && project.requiredMetadata.all fun key => (metadata.get key).any fun v => !trimIsEmpty v

/-- The recipients are ones of the project. -/
def Project.recipientsEnrolled (project : Project) (recipients : List String) : Bool :=
  decide (recipients.length ≤ 500) && (project.recipients.isEmpty || !recipients.isEmpty)
    && recipients.all fun holder => project.recipients.any (·.holder = holder)

/-- The check of a request against its project. -/
def Project.validateJob (project : Project) (request : JobRequest) (now : UInt64) :
    Except String Unit := do
  Fallible.require (isId request.operationId = true ∧ request.projectId = project.id
      ∧ admitLabel request.label 200 = true ∧ 1 ≤ request.expiresDays
      ∧ request.expiresDays ≤ 365 ∧ request.schedule now = true)
    "invalid delivery operation, label, schedule or lifetime"
  Fallible.require (project.metadataComplete request.metadata = true)
    "required delivery metadata is missing or invalid"
  Fallible.require (project.recipientsEnrolled request.recipients = true)
    "choose enrolled project recipients"
  match request.importFrom with
  | none => .ok ()
  | some source =>
      Fallible.require (isId source.storageId = true ∧ validPath source.keyPrefix = true)
        ("invalid storage import (" ++ importRefusalCause source.storageId source.keyPrefix ++ ")")

/-- The workflow that a receive request selects. -/
structure ReceiveWorkflow where
  notifications : Option String
  projectId : String
  metadata : Metadata
  recipients : List String
deriving DecidableEq

/-- The request of a job for a received upload. -/
def ReceiveWorkflow.request (workflow : ReceiveWorkflow) (operationId label : String) :
    JobRequest where
  notifications := workflow.notifications
  operationId := operationId
  projectId := workflow.projectId
  label := label
  metadata := workflow.metadata
  recipients := workflow.recipients
  notBefore := none
  deadline := none
  expiresDays := 30
  importFrom := none

/-! ### Jobs -/

/-- Where a job stands. -/
inductive JobState
  | queued
  | preparing
  | awaitingApproval
  | exporting
  | retrying
  | ready
  | failed
  | cancelled
  | retiring
  | retired
  | suspended
deriving DecidableEq, Repr

/-- A worker is at work on the job. -/
def JobState.running (state : JobState) : Prop :=
  state = .preparing ∨ state = .exporting

instance (state : JobState) : Decidable state.running :=
  inferInstanceAs (Decidable (_ ∨ _))

/-- The files of the job are being removed, or have been. -/
def JobState.isRetiring (state : JobState) : Prop :=
  state = .retiring ∨ state = .retired

instance (state : JobState) : Decidable state.isRetiring :=
  inferInstanceAs (Decidable (_ ∨ _))

/-- The job counts against the tenant's limit of active jobs. -/
def JobState.active (state : JobState) : Prop :=
  state ∈ [.queued, .preparing, .awaitingApproval, .exporting, .retrying]

instance (state : JobState) : Decidable state.active :=
  inferInstanceAs (Decidable (state ∈ _))

/-- `JobState::as_str`. -/
def JobState.asStr : JobState → String
  | .queued => "queued"
  | .preparing => "preparing"
  | .awaitingApproval => "awaiting_approval"
  | .exporting => "exporting"
  | .retrying => "retrying"
  | .ready => "ready"
  | .failed => "failed"
  | .cancelled => "cancelled"
  | .retiring => "retiring"
  | .retired => "retired"
  | .suspended => "suspended"

/-- The upload that a job delivers. -/
structure Received where
  linkId : String
  uploadId : String
deriving DecidableEq, Repr

/-- What a job keeps of a trade route it delivers over. -/
structure RouteSnapshot where
  metadataKeys : List String
  permission : RoutePermission
deriving DecidableEq

/-- How the delivery to a destination stands. -/
inductive DestinationCheck
  | sending (transferred : UInt64)
  | complete (location : String) (completedAt : UInt64)
  | failed (error : String)
deriving DecidableEq, Repr

/-- How the revocation at a destination stands. -/
inductive RevocationStatus
  | claimed (attempts : Nat)
  | pending (attempts : Nat) (retryAt : UInt64) (error : Option String)
  | acknowledged (attempts : Nat) (acknowledgement : RouteRevoked)
deriving DecidableEq

/-- What the checks of a job found. -/
structure Checks where
  tradeRoutes : Keyed RouteSnapshot
  sourceReceipt : Option RouteReceipt
  sourceAncestry : Option (List RouteReceipt)
  importStorageRevision : Option Nat
  metadata : Option String
  sequence : Option String
  media : Option String
  malwareScan : Option String
  destinationRevisions : Keyed Nat
  destinations : Keyed DestinationCheck
  routeReceipts : Keyed RouteReceipt
  routeRevocations : Keyed RevocationStatus
  snapshotBytes : Option UInt64
  releasedAt : Option UInt64
  retryBase : Option Nat
  retryAt : Option UInt64
  firstFailureAt : Option UInt64
  sourceRevokedAt : Option UInt64
  retiredFrom : Option JobState
  retirementAttemptAt : Option UInt64
  snapshotPurgedAt : Option UInt64

/-- The checks of a new job. -/
def Checks.new (tradeRoutes : Keyed RouteSnapshot) : Checks where
  tradeRoutes := tradeRoutes
  sourceReceipt := none
  sourceAncestry := none
  importStorageRevision := none
  metadata := none
  sequence := none
  media := none
  malwareScan := none
  destinationRevisions := .empty
  destinations := .empty
  routeReceipts := .empty
  routeRevocations := .empty
  snapshotBytes := none
  releasedAt := none
  retryBase := none
  retryAt := none
  firstFailureAt := none
  sourceRevokedAt := none
  retiredFrom := none
  retirementAttemptAt := none
  snapshotPurgedAt := none

/-- The delivery to the destination is complete. -/
def Checks.complete (checks : Checks) (destination : String) : Bool :=
  match checks.destinations.get destination with
  | some (.complete _ _) => true
  | _ => false

/-- The document of a job. -/
structure Job where
  id : String
  tenant : String
  tokenGeneration : Nat
  actor : String
  credentialVersion : Nat
  automationTokenId : Option String
  actorHuman : Option String
  request : JobRequest
  project : Project
  state : JobState
  manifest : Option String
  approvedBy : Option String
  attempts : Nat
  createdAt : UInt64
  updatedAt : UInt64
  error : Option String
  checks : Checks
  received : Option Received
  reprocessedFrom : Option String
  reprocessedAs : Option String

/-- The files of the job are copied before they are delivered. -/
def Job.usesSnapshot (job : Job) : Bool :=
  job.received.isNone
    && (job.project.media.isSome || job.project.scanRequired || job.request.importFrom.isSome)

/-- The attempts since the last explicit retry. -/
def retryAttempts (job : Job) : Nat :=
  job.attempts - job.checks.retryBase.getD 0

/-- The delivery is released to its recipients. -/
def Job.released (job : Job) : Prop :=
  job.state = .ready
    ∨ job.checks.releasedAt.isSome = true ∧ job.state ∈ [.exporting, .retrying, .failed]

instance (job : Job) : Decidable job.released :=
  inferInstanceAs (Decidable (_ ∨ _))

/-- What the column `snapshot_bytes` mirrors. -/
def Checks.snapshotColumn (checks : Checks) : Nat :=
  match checks.snapshotBytes with
  | some bytes => if bytes.toNat ≤ i64Max then bytes.toNat else 0
  | none => 0

/-- A row of `delivery_jobs`.  The other columns that mirror the document are read from it. -/
structure JobRow where
  owner : String
  notBefore : Int
  snapshotBytes : Nat
  job : Job

/-- The id of a row. -/
def JobRow.id (row : JobRow) : String := row.job.id

end Votport
