import Votport.Delivery.Routes
import Votport.Foundation.Fields

/-!
# Projects and what they protect

A project owns a directory of the tenant's library: the files of the directory leave it by
the jobs of the project.  Saving a project checks it, and that no two projects of a tenant
share a directory.  Whether a grant without a job delivers protected files is cached until a
project is saved.
-/

namespace Votport

variable {δ : Type}

/-! ### Checks of a project -/

/-- The value of decimal digits, none without any or with another character. -/
def decimal : List Char → Option Nat
  | [] => none
  | cs =>
      if cs.all Char.isDigit then some (cs.foldl (fun n c => 10 * n + (c.toNat - '0'.toNat)) 0)
      else none

/-- `str::parse::<u32>`. -/
def parseU32 (cs : List Char) : Option Nat :=
  let digits :=
    match cs with
    | '+' :: rest => rest
    | cs => cs
  (decimal digits).filter fun n => n < 2 ^ 32

/-- `frame_rate`. -/
def frameRate (value : String) : Option (Nat × Nat) := do
  let parts ← Fields.splitOnce '/' value.toList
  let a ← parseU32 parts.1
  let b ← parseU32 parts.2
  if 0 < a ∧ 0 < b then some (a, b) else none

/-- `valid_holder`. -/
def DeliveryEnv.validHolder (env : DeliveryEnv δ) (holder : String) : Bool :=
  isDigest holder && env.deviceKey holder

/-- The text in lowercase ASCII letters. -/
def asciiLower (value : List Char) : List Char := value.map Char.toLower

/-- The domain is a lowercase DNS name. -/
def validDomain (domain : String) : Bool :=
  decide (domain ≠ "") && decide (domain.utf8ByteSize ≤ 253)
    && domain.toList.all fun c =>
      decide ('a' ≤ c ∧ c ≤ 'z') || c.isDigit || decide (c = '.') || decide (c = '-')

/-- The address is one of the permitted domains. -/
def validEmail (allowedDomains : List String) (email : String) : Bool :=
  decide (email.utf8ByteSize ≤ 254) && email.toList.all (fun c => !isWhiteSpace c)
    && (Fields.splitOnce '@' email.toList).any fun parts =>
      decide (parts.1 ≠ []) && decide ('@' ∉ parts.2) && decide (parts.2 ≠ [])
        && (allowedDomains.isEmpty
          || allowedDomains.any fun d => decide (asciiLower parts.2 = asciiLower d.toList))

/-- The check of the recipients. -/
def Project.recipientsValid (env : DeliveryEnv δ) (project : Project) : Bool :=
  decide (project.recipients.length ≤ 500)
    && project.recipients.all (fun r =>
      validEmail project.allowedDomains r.email && env.validHolder r.holder)
    && decide (project.recipients.map Recipient.holder).Nodup

/-- The check of a sequence. -/
def Sequence.valid (sequence : Sequence) : Bool :=
  decide (sequence.first ≤ sequence.last)
    && decide (sequence.last - sequence.first ≤ 1000000)
    && decide (1 ≤ sequence.padding ∧ sequence.padding ≤ 10)
    && validPath (sequence.namePrefix ++ "0" ++ sequence.nameSuffix)

/-- The check of a video format. -/
def MediaCheck.valid (media : MediaCheck) : Bool :=
  media.videoCodec.all isId && decide (media.width ≠ some 0) && decide (media.height ≠ some 0)
    && media.frameRate.all fun value => (Votport.frameRate value).isSome

/-- The roles of a project's members. -/
def roles : List String := ["sender", "approver", "viewer"]

/-- `Project::validate`. -/
def Project.validate (env : DeliveryEnv δ) (project : Project) : Except String Unit := do
  Fallible.require (isId project.id = true ∧ admitLabel project.label 200 = true
      ∧ validPath project.directory = true)
    "project needs a valid ID, label and relative library directory"
  Fallible.require (project.members.entries.length ≤ 500 ∧ ∀ e ∈ project.members.entries,
      e.1 ≠ "" ∧ e.1.utf8ByteSize ≤ 600 ∧ e.2 ∈ roles)
    "project members require sender, approver or viewer roles"
  Fallible.require (project.allowedDomains.length ≤ 100
      ∧ project.allowedDomains.all validDomain = true)
    "allowed domains must be lowercase DNS names"
  Fallible.require (project.recipientsValid env = true)
    "recipients need unique lowercase device public keys and permitted email domains"
  Fallible.require (project.allowedDomains ≠ [] → project.recipients ≠ [])
    "domain restrictions require enrolled recipients"
  Fallible.require (project.requiredMetadata.length ≤ 50
      ∧ project.requiredMetadata.all isId = true)
    "required metadata must contain at most 50 field IDs"
  Fallible.require (project.sequence.all Sequence.valid = true)
    "invalid sequence range or filename pattern"
  Fallible.require (project.destinations.length ≤ 16
      ∧ project.destinations.all isId = true ∧ project.destinations.Nodup)
    "choose at most 16 unique destinations"
  Fallible.require (project.media.all MediaCheck.valid = true) "invalid media check"

/-! ### Saving a project -/

/-- The directories of the projects contain one another. -/
def Project.overlaps (env : DeliveryEnv δ) (project other : Project) : Prop :=
  within env other.directory project.directory = true
    ∨ within env project.directory other.directory = true

instance (env : DeliveryEnv δ) (project other : Project) : Decidable (project.overlaps env other) :=
  inferInstanceAs (Decidable (_ ∨ _))

/-- The other projects of the tenant. -/
def Surroundings.otherProjects (db : Surroundings) (tenant id : String) : List ProjectRow :=
  db.projects.rows.filter fun row => row.tenant = tenant ∧ row.project.id ≠ id

/-- The receiving endpoints that a project's destinations name. -/
def DeliveryDb.destinationEndpoints (db : DeliveryDb) (tenant : String) (project : Project) :
    List (String × String) :=
  (db.trade.rows.filter fun row => row.route.tenant = tenant
    ∧ row.route.id ∈ project.destinations).map fun row => (row.route.peerKey, row.route.endpoint)

/-- The project as it is stored, with its next revision unless only its notifications have
changed. -/
def Project.nextRevision (current : Option Project) (project : Project) : Project :=
  { project with
    notificationRevision :=
      if current.any (fun p => decide (p.notifications ≠ project.notifications)) then
        project.notificationRevision + 1
      else project.notificationRevision
    revision :=
      if current.any (fun p => decide (p.notifications ≠ project.notifications)
          && decide (p.sameDeliveryPolicy project)) then
        project.revision
      else project.revision + 1 }

/-- The cache without the grants of a tenant. -/
def DeliveryDb.forgetPolicy (db : DeliveryDb) (tenant : String) : Table PolicyCacheRow.grantId :=
  db.cache.filter fun row => ¬ ∃ g ∈ db.grants.rows, g.id = row.grantId ∧ g.tenant = tenant

/-- `save_delivery_project`: the project as it is stored. -/
def DeliveryDb.saveDeliveryProject (db : DeliveryDb) (env : DeliveryEnv δ) (tenant : String)
    (project : Project) : Except WorkflowMutationError (Project × DeliveryDb) := do
  (project.validate env).mapError .invalid
  db.ensureTenant tenant
  let current := db.projectIn tenant project.id
  Fallible.require ((current.map Project.revision).getD 0 = project.revision
      ∧ (current.map Project.notificationRevision).getD 0 = project.notificationRevision)
    (.conflict "project changed; reload before saving")
  Fallible.require (∀ p ∈ current, p.directory = project.directory)
    (.conflict "a protected project's directory cannot change")
  Fallible.require (∀ row ∈ db.otherProjects tenant project.id,
      ¬ project.overlaps env row.project)
    (.conflict "project directories must not overlap")
  Fallible.require ((db.otherProjects tenant project.id).length < 100)
    (.conflict "project limit reached")
  Fallible.require (db.destinationEndpoints tenant project).Nodup
    (.invalid "two destinations deliver through the same peer endpoint; choose one route per receiving endpoint")
  let stored := project.nextRevision current
  return (stored,
    { db with
      projects := db.projects.upsert ⟨tenant, stored⟩
      cache := db.forgetPolicy tenant })

/-- A project that is saved is checked against the others. -/
theorem DeliveryDb.saveProject_eq_ok
    {db db' : DeliveryDb} {env : DeliveryEnv δ} {tenant : String} {project stored : Project}
    (h : db.saveDeliveryProject env tenant project = .ok (stored, db')) :
  ((db.projectIn tenant project.id).map Project.revision).getD 0 = project.revision
    ∧ (∀ p ∈ db.projectIn tenant project.id, p.directory = project.directory)
    ∧ (∀ row ∈ db.otherProjects tenant project.id, ¬ project.overlaps env row.project)
    ∧ stored = project.nextRevision (db.projectIn tenant project.id)
    ∧ db' = { db with
        projects := db.projects.upsert ⟨tenant, stored⟩
        cache := db.forgetPolicy tenant }
  := by
  obtain ⟨_, _, h⟩ := Fallible.bind_eq_ok.mp h
  obtain ⟨_, _, h⟩ := Fallible.bind_eq_ok.mp h
  obtain ⟨_, hrevision, h⟩ := Fallible.bind_eq_ok.mp h
  obtain ⟨_, hdirectory, h⟩ := Fallible.bind_eq_ok.mp h
  obtain ⟨_, hothers, h⟩ := Fallible.bind_eq_ok.mp h
  obtain ⟨_, _, h⟩ := Fallible.bind_eq_ok.mp h
  obtain ⟨_, _, h⟩ := Fallible.bind_eq_ok.mp h
  cases h
  exact ⟨(Fallible.require_eq_ok.mp hrevision).1, Fallible.require_eq_ok.mp hdirectory,
    Fallible.require_eq_ok.mp hothers, rfl, rfl⟩

/-! ### Access -/

/-- The job of a grant, when it is released under the present policy of its project. -/
def DeliveryDb.releasedJob (db : DeliveryDb) (job : Job) : Prop :=
  job.released
    ∧ (db.projectIn job.tenant job.project.id).map Project.revision = some job.project.revision

instance (db : DeliveryDb) (job : Job) : Decidable (db.releasedJob job) :=
  inferInstanceAs (Decidable (_ ∧ _))

/-- The grant delivers files of a project's directory, or an upload that a receive workflow
owns. -/
def protectsGrant (env : DeliveryEnv δ) (db : PortDb δ) (grant : DeliveryGrantRow) : Prop :=
  (∃ p ∈ db.rest.projects.rows, p.tenant = grant.tenant
      ∧ ∃ source ∈ grant.sources, within env p.project.directory source = true)
    ∨ receivedRequiresWorkflow db grant.tenant grant.linkId grant.uploadId

instance (env : DeliveryEnv δ) (db : PortDb δ) (grant : DeliveryGrantRow) :
    Decidable (protectsGrant env db grant) :=
  inferInstanceAs (Decidable (_ ∨ _))

/-- The error of a delivery that is not released. -/
def awaitingRelease : String := "delivery is awaiting release under the current project policy"

/-- What is found of a grant without a job. -/
def unlessProtected (isProtected : Bool) : Except String (Option Job) :=
  if isProtected then .error "delivery requires a project workflow" else .ok none

/-- `release_in`: the job of the grant.  What is found of a grant without a job is cached. -/
def releaseIn (env : DeliveryEnv δ) (db : PortDb δ) (grantId : String) :
    Except String (Option Job) × DeliveryDb :=
  match db.rest.jobs.find? grantId with
  | some row =>
      match db.rest.projectIn row.job.tenant row.job.project.id with
      | none => (.error "delivery project missing", db.rest)
      | some _ =>
          if db.rest.releasedJob row.job then (.ok (some row.job), db.rest)
          else (.error awaitingRelease, db.rest)
  | none =>
      match db.rest.cache.find? grantId with
      | some row => (unlessProtected row.isProtected, db.rest)
      | none =>
          match db.rest.grants.find? grantId with
          | none => (unlessProtected false, db.rest)
          | some grant =>
              let isProtected := decide (protectsGrant env db grant)
              (unlessProtected isProtected,
                { db.rest with cache := db.rest.cache.upsert ⟨grantId, isProtected⟩ })

/-- The grant is active, and is asked for with its token. -/
def DeliveryGrantRow.opens (grant : DeliveryGrantRow) (tokenHash : String) (now : UInt64) : Prop :=
  grant.tokenHash = tokenHash ∧ grant.revokedAt = none ∧ asI64 now.toNat < grant.expiresAt

instance (grant : DeliveryGrantRow) (tokenHash : String) (now : UInt64) :
    Decidable (grant.opens tokenHash now) :=
  inferInstanceAs (Decidable (_ ∧ _ ∧ _))

/-- `delivery_access_in`: the job of the grant that a recipient asks for with its token. -/
def deliveryAccessIn (env : DeliveryEnv δ) (db : PortDb δ) (grantId tokenHash : String)
    (now : UInt64) : Except String (Option Job) × DeliveryDb :=
  if (db.rest.grants.find? grantId).any (fun g => g.opens tokenHash now) then
    match db.rest.jobs.find? grantId with
    | some row =>
        if db.rest.releasedJob row.job then (.ok (some row.job), db.rest)
        else (.error awaitingRelease, db.rest)
    | none =>
        match db.rest.cache.find? grantId with
        | some row => (unlessProtected row.isProtected, db.rest)
        | none => releaseIn env db grantId
  else (.error "delivery link is inactive", db.rest)

end Votport
