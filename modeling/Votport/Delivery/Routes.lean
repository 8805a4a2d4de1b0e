import Votport.Delivery.Work

/-!
# The routes of deliveries

A delivery from another port comes in on a route that its issuer has signed: the port admits
the route, binds it to the session that uploads the files, and issues a custody receipt when
the upload is complete.  A delivery to another port goes out on a route that the port has
signed itself, and that it revokes by a request the other port acknowledges.
-/

namespace Votport

variable {δ : Type}

/-! ### Statements -/

/-- The digest of a route's id. -/
def routeDigest (env : StatementEnv) (id : String) : String :=
  hexEncode (env.sha256 id.toUTF8.data.toList)

/-- `RouteReceipt::sign`. -/
def DeliveryEnv.routeReceipt (env : DeliveryEnv δ) (source : SignedRoute) (uploadId : String)
    (receivedAt : UInt64) : RouteReceipt :=
  let document := ⟨source, env.publicHex, uploadId, receivedAt⟩
  ⟨document, env.sign ((Statement.receipt document).message env.statements)⟩

/-- `RouteRevocation::sign`. -/
def DeliveryEnv.revokeRoute (env : DeliveryEnv δ) (source : SignedRoute) (receiver id : String) :
    RouteRevocation :=
  let document := ⟨routeDigest env.statements id, source, receiver⟩
  ⟨document, env.sign ((Statement.revocation document).message env.statements)⟩

/-! ### Inbound routes -/

/-- The row is of this link, issuer and operation. -/
def InboundRoute.isOf (route : InboundRoute) (linkId : String) (source : SignedRoute) : Prop :=
  route.linkId = linkId ∧ route.source.document.issuer = source.document.issuer
    ∧ route.source.document.operationId = source.document.operationId

instance (route : InboundRoute) (linkId : String) (source : SignedRoute) :
    Decidable (route.isOf linkId source) :=
  inferInstanceAs (Decidable (_ ∧ _ ∧ _))

/-- The route of this link, issuer and operation. -/
def DeliveryDb.inboundOf (db : DeliveryDb) (linkId : String) (source : SignedRoute) :
    Option InboundRoute :=
  db.inbound.rows.find? fun r => r.isOf linkId source

/-- The keys of the metadata are ones that the route carries. -/
def TradeRoute.carries (route : TradeRoute) (source : SignedRoute) : Bool :=
  source.document.metadata.entries.all fun e => route.metadataKeys.contains e.1

/-- `trade::admit`. -/
def DeliveryDb.admitRoute (db : DeliveryDb) (env : StatementEnv) (source : SignedRoute)
    (ancestry : List RouteReceipt) (linkId : String) (credential : Option String)
    (existing : Bool) : Except String Unit :=
  if linkId ∉ db.endpoints then
    Fallible.require (source.document.permission = none)
      "route permission names an unmanaged endpoint"
  else do
    let permission ← Fallible.present source.document.permission
      "this endpoint requires an enrolled route"
    let row ← Fallible.present (db.trade.find? permission.grant) "route not found"
    let credential ← Fallible.present credential "route credential required"
    Fallible.require (row.credential = tradeSecretHash env credential
        ∧ row.route.direction = .incoming ∧ row.route.endpoint = linkId
        ∧ row.route.peerKey = source.document.issuer
        ∧ (row.route.state = .active ∨ existing = true)
        ∧ (permission.forwarding = true → row.route.forwarding = true)
        ∧ row.route.carries source = true
        ∧ ∀ receipt ∈ ancestry, row.route.carries receipt.document.source = true)
      "route permission, forwarding terms or metadata policy denied admission"

/-- The link is active. -/
def Surroundings.linkUsable (db : Surroundings) (linkId : String) (now : UInt64) : Bool :=
  (db.linkStates.find? linkId).any fun link =>
    link.isActive && link.expiresAt.all fun at' => decide (asI64 now.toNat < at')

/-- The most bytes of the evidence of a route without a trade route. -/
def maxUnpairedRouteBytes : Nat := 64 * 1024

/-- The most routes that a link without trade routes keeps. -/
def maxUnpairedRoutes : Nat := 1000

/-- The routes of a tenant that wait for their upload. -/
def pendingRoutes (db : PortDb δ) (tenant : String) (now : UInt64) : Nat :=
  db.rest.inbound.rows.countP fun r => decide (r.tenant = tenant) && r.receipt.isNone
    && r.revokedAt.isNone && (db.links.find? r.linkId).isSome && db.rest.linkUsable r.linkId now

/-- The part of `receive_route_authorized` for a route that is new: the row with the id `id`. -/
def insertRoute (env : DeliveryEnv δ) (db : PortDb δ) (id tenant linkId : String)
    (source : SignedRoute) (ancestry : List RouteReceipt) (now : UInt64) :
    Except String (InboundRoute × DeliveryDb) := do
  Fallible.require (db.rest.linkUsable linkId now = true)
    "request is no longer accepting routes"
  Fallible.require (source.document.permission = none →
      env.evidenceBytes source ancestry ≤ maxUnpairedRouteBytes)
    "receive request route evidence exceeds 64 KiB; use an enrolled trade route"
  Fallible.require (source.document.permission = none →
      db.rest.inbound.rows.countP (fun r => r.tenant = tenant ∧ r.linkId = linkId)
        < maxUnpairedRoutes)
    "receive request route limit reached; use an enrolled trade route or a new receive request"
  Fallible.require (pendingRoutes db tenant now < 1000) "incoming route limit reached"
  let route : InboundRoute :=
    { id := id, tenant := tenant, linkId := linkId, source := source, ancestry := ancestry
      sessionId := none, transport := none, uploadId := none, receipt := none
      revokedAt := none }
  let inbound ← Fallible.present (db.rest.inbound.insert? route)
    "UNIQUE constraint failed: inbound_routes.id"
  return (route, { db.rest with inbound := inbound })

/-- `receive_route_authorized`: the route that the tables hold. -/
def receiveRouteAuthorized (env : DeliveryEnv δ) (db : PortDb δ) (id tenant linkId : String)
    (source : SignedRoute) (ancestry : List RouteReceipt) (credential : Option String)
    (now : UInt64) : Except String (InboundRoute × DeliveryDb) := do
  Fallible.require (acceptsRoute env.statements env.publicHex source ancestry = true)
    "invalid route evidence, forwarding loop or hop limit"
  let _ ← Fallible.present (db.link? tenant linkId) "receive request missing"
  let previous := db.rest.inboundOf linkId source
  db.rest.admitRoute env.statements source ancestry linkId credential previous.isSome
  match previous with
  | some previous => do
      Fallible.require (previous.source = source ∧ previous.ancestry = ancestry)
        "route operation already names a different delivery"
      return (previous, db.rest)
  | none => insertRoute env db id tenant linkId source ancestry now

/-- `bind_route_session`: `route` is the caller's copy. -/
def DeliveryDb.bindRouteSession (db : DeliveryDb) (route : InboundRoute)
    (session transport : String) : Except String DeliveryDb := do
  let row ← Fallible.present (db.inbound.find? route.id)
    "route session changed or route was revoked"
  Fallible.require (row.linkId = route.linkId ∧ row.sessionId = route.sessionId
      ∧ row.receipt = none ∧ row.revokedAt = none)
    "route session changed or route was revoked"
  Fallible.require (∀ r ∈ db.inbound.rows, r.sessionId = some session → r.id = row.id)
    "UNIQUE constraint failed: inbound_routes.session_id"
  let bound := { row with sessionId := some session, transport := some transport }
  return { db with inbound := db.inbound.upsert bound }

/-- The part of `complete_route` for an upload that is not partial. -/
def DeliveryDb.issueReceipt (db : DeliveryDb) (env : DeliveryEnv δ) (route : InboundRoute)
    (upload : UploadRecord) : Except String DeliveryDb := do
  Fallible.require (route.revokedAt = none ∧ route.receipt = none
      ∧ manifestDigest env.statements upload.files = route.source.document.manifest)
    "incoming route is revoked, already complete or does not match its signed manifest"
  Fallible.require (∀ r ∈ db.inbound.rows, r.uploadId = some upload.id → r.id = route.id)
    "UNIQUE constraint failed: inbound_routes.upload_id"
  let receipt := env.routeReceipt route.source upload.id (UInt64.ofNat upload.completedAt)
  let received := { route with uploadId := some upload.id, receipt := some receipt }
  return { db with inbound := db.inbound.upsert received }

/-- `complete_route`. -/
def DeliveryDb.completeRoute (db : DeliveryDb) (env : DeliveryEnv δ)
    (tenant linkId session : String) (upload : UploadRecord) : Except String DeliveryDb :=
  match db.inbound.rows.find? (fun r => r.sessionId = some session) with
  | none => .ok db
  | some route => do
      Fallible.require (route.tenant = tenant ∧ route.linkId = linkId)
        "route belongs to a different receive request"
      let routeUploads ← Fallible.present
        (db.routeUploads.insert? ⟨route.id, upload.id, upload.isPartial⟩)
        "UNIQUE constraint failed: route_uploads.upload_id"
      let db := { db with routeUploads := routeUploads }
      if upload.isPartial then return db
      else db.issueReceipt env route upload

/-- What the commit of an upload does to the tables, with the id `jobId` for the job that it
queues. -/
def DeliveryEnv.uploads (env : DeliveryEnv δ) (jobId : String) (now : UInt64) :
    UploadEnv δ DeliveryDb :=
  { env.documents with
    completeRoute := fun db tenant linkId session upload =>
      db.rest.completeRoute env tenant linkId session upload
    queueReceived := fun db tenant linkId upload =>
      queueReceived db jobId tenant linkId upload now }

/-- The uploads that a route brought. -/
def DeliveryDb.uploadsOf (db : DeliveryDb) (routeId : String) : List String :=
  (db.routeUploads.rows.filter (·.routeId = routeId)).map RouteUpload.uploadId

/-- The job delivers an upload that the route brought. -/
def DeliveryDb.receives (db : DeliveryDb) (routeId : String) (job : Job) : Prop :=
  ∃ received, job.received = some received ∧ received.uploadId ∈ db.uploadsOf routeId

instance (db : DeliveryDb) (routeId : String) (job : Job) :
    Decidable (db.receives routeId job) :=
  match h : job.received with
  | none => isFalse fun ⟨_, h', _⟩ => by rw [h] at h'; cases h'
  | some received =>
      decidable_of_iff (received.uploadId ∈ db.uploadsOf routeId)
        ⟨fun hmem => ⟨received, h, hmem⟩, fun ⟨_, h', hmem⟩ => by
          rw [h] at h'; cases h'; exact hmem⟩

/-- The job after its source port has revoked the route. -/
def Job.sourceRevoked (job : Job) (now : UInt64) : Job :=
  { job with
    state := if job.state.isRetiring ∨ job.state = .suspended then job.state else .cancelled
    updatedAt := now
    error := some "Source port revoked this route"
    checks := { job.checks with sourceRevokedAt := some now } }

/-- The row after the revocation of a route. -/
def DeliveryDb.revokedRow (db : DeliveryDb) (routeId : String) (now : UInt64) (row : JobRow) :
    JobRow :=
  if db.receives routeId row.job then { row with job := row.job.sourceRevoked now } else row

theorem DeliveryDb.id_revokedRow (db : DeliveryDb) (routeId : String) (now : UInt64)
    (row : JobRow) :
  (db.revokedRow routeId now row).id = row.id
  := by
  rw [DeliveryDb.revokedRow]
  split <;> rfl

/-- The grant delivers an upload that the route brought. -/
def DeliveryDb.grantReceives (db : DeliveryDb) (routeId : String) (grant : DeliveryGrantRow) : Prop :=
  grant.uploadId ∈ db.uploadsOf routeId
    ∨ ∃ row ∈ db.jobs.rows, row.id = grant.id ∧ db.receives routeId row.job

instance (db : DeliveryDb) (routeId : String) (grant : DeliveryGrantRow) :
    Decidable (db.grantReceives routeId grant) :=
  inferInstanceAs (Decidable (_ ∨ _))

/-- The grant after the revocation of a route. -/
def DeliveryDb.revokedGrant (db : DeliveryDb) (routeId : String) (now : UInt64)
    (grant : DeliveryGrantRow) : DeliveryGrantRow :=
  if db.grantReceives routeId grant then
    { grant with revokedAt := some (grant.revokedAt.getD (asI64 now.toNat)) }
  else grant

theorem DeliveryDb.id_revokedGrant (db : DeliveryDb) (routeId : String) (now : UInt64)
    (grant : DeliveryGrantRow) :
  (db.revokedGrant routeId now grant).id = grant.id
  := by
  rw [DeliveryDb.revokedGrant]
  split <;> rfl

/-- The part of `revoke_inbound_route` that writes. -/
def DeliveryDb.revokeRow (db : DeliveryDb) (route : InboundRoute) (now : UInt64) : DeliveryDb :=
  { db with
    inbound := db.inbound.upsert { route with revokedAt := some (asI64 now.toNat) }
    grants := db.grants.map (db.revokedGrant route.id now) (db.id_revokedGrant route.id now)
    jobs := db.jobs.map (db.revokedRow route.id now) (db.id_revokedRow route.id now) }

/-- `revoke_inbound_route`. -/
def DeliveryDb.revokeInboundRoute (db : DeliveryDb) (env : DeliveryEnv δ) (id : String)
    (request : RouteRevocation) (now : UInt64) : Except String DeliveryDb := do
  Fallible.require (request.document.receiver = env.publicHex
      ∧ request.verify env.statements = true
      ∧ request.document.routeDigest = routeDigest env.statements id)
    "invalid route revocation proof"
  match db.inbound.find? id with
  | none => return db
  | some route => do
      Fallible.require (request.document.source = route.source) "invalid route revocation proof"
      if route.revokedAt.isSome then return db
      else return db.revokeRow route now

/-! ### Outbound routes -/

/-- The row is to be revoked with the trade route that it goes over. -/
def DeliveryDb.toCancel (db : DeliveryDb) (id : String) (row : OutboundRoute) : Prop :=
  row.destinationId = id ∧ row.revocation = none ∧ row.ack = none
    ∧ (db.trade.find? id).any (fun t => decide (t.route.direction = .outgoing)
        && decide (t.route.state ≠ .active) && t.route.cancelActive) = true
    ∧ (db.jobs.find? row.jobId).any (fun j => decide (j.job.state ≠ .suspended)
        && !j.job.checks.complete id) = true

instance (db : DeliveryDb) (id : String) : DecidablePred (db.toCancel id) :=
  fun _ => inferInstanceAs (Decidable (_ ∧ _ ∧ _ ∧ _ ∧ _))

/-- `queue_cancelled`. -/
def DeliveryDb.queueCancelled (db : DeliveryDb) (env : DeliveryEnv δ) (id : String) : DeliveryDb :=
  { db with
    outbound := db.outbound.map (fun row =>
      if db.toCancel id row then
        { row with
          revocation := some (env.revokeRoute row.source row.peerKey row.routeId)
          nextAttempt := 0 }
      else row) (by
        intro r
        split_ifs <;> rfl) }

/-- `bind_outbound_route`. -/
def DeliveryDb.bindOutboundRoute (db : DeliveryDb) (env : DeliveryEnv δ)
    (jobId destination origin route peerKey : String) (source : SignedRoute) :
    Except String DeliveryDb :=
  match db.outbound.find? (jobId, destination) with
  | some row => do
      Fallible.require (row.origin = origin ∧ row.routeId = route ∧ row.peerKey = peerKey
          ∧ row.source = source)
        "peer identity or route changed; delivery remains held"
      return db.queueCancelled env destination
  | none =>
      let row : OutboundRoute :=
        { jobId := jobId, destinationId := destination, origin := origin, routeId := route
          peerKey := peerKey, source := source, nextAttempt := 0, attempts := 0
          revocation := none, ack := none }
      .ok ({ db with outbound := db.outbound.upsert row }.queueCancelled env destination)

/-- The routes that a trade route brought and that have no receipt are revoked. -/
def DeliveryDb.cancelIncoming (db : DeliveryDb) (id : String) (now : UInt64) : DeliveryDb :=
  { db with
    inbound := db.inbound.map (fun r =>
      if r.receipt = none ∧ (r.source.document.permission.map (·.grant)) = some id then
        { r with revokedAt := some (r.revokedAt.getD (asI64 now.toNat)) }
      else r) (by
        intro r
        split_ifs <;> rfl) }

/-- `update_trade_route`. -/
def DeliveryDb.updateTradeRoute (db : DeliveryDb) (env : DeliveryEnv δ) (tenant id : String)
    (revision : Nat) (state : TradeState) (cancelActive : Bool) (now : UInt64) :
    Except String DeliveryDb := do
  let row ← Fallible.present (db.trade.find? id) "route not found"
  Fallible.require (row.route.tenant = tenant ∧ row.route.revision = revision)
    "route changed or unavailable; reload before saving"
  Fallible.require (row.route.state = .revoked → state = .revoked)
    "revoked routes require a new invitation"
  Fallible.require (¬ (row.route.direction = .outgoing ∧ row.route.remoteGrant = ""
      ∧ state = .active))
    "finish enrollment first"
  Fallible.require (state = .pendingApproval → row.route.state = .pendingApproval)
    "an existing approval cannot be changed back to pending"
  let route :=
    { row.route with
      revision := row.route.revision + 1, state := state, cancelActive := cancelActive }
  let db := { db with trade := db.trade.upsert { row with route := route } }
  let db := db.queueCancelled env id
  if route.direction = .incoming ∧ state ≠ .active ∧ cancelActive = true then
    return db.cancelIncoming id now
  else return db

/-- What a worker holds of a revocation that it has claimed. -/
structure OutboundControl where
  jobId : String
  destination : String
  origin : String
  routeId : String
  request : RouteRevocation
  attempts : Nat
deriving DecidableEq

/-- The delivery of an outbound route has come to nothing. -/
def DeliveryDb.abandoned (db : DeliveryDb) (row : OutboundRoute) (job : Job) (now : UInt64) :
    Prop :=
  job.state = .cancelled
    ∨ job.state.isRetiring ∧ job.checks.retiredFrom = some .cancelled
    ∨ job.checks.sourceRevokedAt.isSome = true
    ∨ job.checks.complete row.destinationId = false
      ∧ (job.state.isRetiring ∨ (db.grants.find? row.jobId).all fun g =>
          g.revokedAt.isSome || decide (g.expiresAt ≤ asI64 now.toNat))

instance (db : DeliveryDb) (row : OutboundRoute) (job : Job) (now : UInt64) :
    Decidable (db.abandoned row job now) :=
  inferInstanceAs (Decidable (_ ∨ _ ∨ _ ∨ _))

/-- The revocation of the route is due. -/
def DeliveryDb.revocationDue (db : DeliveryDb) (now : UInt64) (row : OutboundRoute) : Prop :=
  row.ack = none ∧ row.nextAttempt ≤ asI64 now.toNat
    ∧ match db.jobs.find? row.jobId with
      | none => False
      | some j =>
          j.job.state ≠ .suspended
            ∧ (row.revocation.isSome = true ∨ db.abandoned row j.job now)

instance (db : DeliveryDb) (now : UInt64) : DecidablePred (db.revocationDue now) :=
  fun row =>
    match h : db.jobs.find? row.jobId with
    | none => isFalse (by rintro ⟨_, _, hjob⟩; rw [h] at hjob; exact hjob)
    | some j =>
        decidable_of_iff (row.ack = none ∧ row.nextAttempt ≤ asI64 now.toNat
            ∧ j.job.state ≠ .suspended
            ∧ (row.revocation.isSome = true ∨ db.abandoned row j.job now))
          (by rw [DeliveryDb.revocationDue, h])

/-- The tables with this status of a revocation in the checks of its job. -/
def DeliveryDb.noteRevocation (db : DeliveryDb) (jobId destination : String)
    (status : RevocationStatus) : DeliveryDb :=
  match db.jobs.find? jobId with
  | none => db
  | some row =>
      let checks :=
        { row.job.checks with
          routeRevocations := row.job.checks.routeRevocations.set destination status }
      db.saveJob { row with job := { row.job with checks := checks } }

/-- `claim_route_revocation`, none when no revocation is due. -/
def DeliveryDb.claimRouteRevocation (db : DeliveryDb) (env : DeliveryEnv δ) (now : UInt64) :
    Option (OutboundControl × DeliveryDb) :=
  (((db.outbound.rows.filter (db.revocationDue now)).insertionSort fun r r' =>
      r.nextAttempt < r'.nextAttempt ∨ r.nextAttempt = r'.nextAttempt
        ∧ (r.jobId < r'.jobId ∨ r.jobId = r'.jobId ∧ r.destinationId ≤ r'.destinationId)).head?
    ).map fun row =>
      let request :=
        row.revocation.getD (env.revokeRoute row.source row.peerKey row.routeId)
      let attempts := row.attempts + 1
      let claimed :=
        { row with
          revocation := some request
          nextAttempt := asI64 (Saturating.add now 300).toNat
          attempts := attempts }
      (⟨row.jobId, row.destinationId, row.origin, row.routeId, request, attempts⟩,
        { db with outbound := db.outbound.upsert claimed }.noteRevocation row.jobId
          row.destinationId (.claimed attempts))

/-- `finish_route_revocation`. -/
def DeliveryDb.finishRouteRevocation (db : DeliveryDb) (env : DeliveryEnv δ)
    (control : OutboundControl) (acknowledgement : Option RouteRevoked) (error : Option String)
    (now : UInt64) : Except String DeliveryDb := do
  Fallible.require (∀ ack ∈ acknowledgement, ack.verify env.statements control.request = true)
    "invalid destination revocation acknowledgement"
  let next := Saturating.add now (UInt64.ofNat (min (30 * 2 ^ min control.attempts 7) 3600))
  match db.outbound.find? (control.jobId, control.destination) with
  | none => return db
  | some row =>
      if row.ack = none ∧ row.attempts = control.attempts then
        let finished := { row with ack := acknowledgement, nextAttempt := asI64 next.toNat }
        let status :=
          match acknowledgement with
          | some ack => .acknowledged control.attempts ack
          | none => .pending control.attempts next error
        return { db with outbound := db.outbound.upsert finished }.noteRevocation control.jobId
          control.destination status
      else return db

/-! ### Grants -/

/-- `extend_outbound_grant`. -/
def DeliveryDb.extendOutboundGrant (db : DeliveryDb) (tenant id : String)
    (seconds now : UInt64) : Except String DeliveryDb := do
  Fallible.require (¬ ∃ r ∈ db.jobs.rows, r.id = id ∧ r.job.tenant = tenant
      ∧ (r.job.state.isRetiring ∨ r.job.state = .suspended))
    "delivery is no longer active; create a new job"
  match db.grants.find? id with
  | none => return db
  | some grant =>
      if grant.tenant = tenant ∧ grant.revokedAt = none
          ∧ (min now.toNat i64Max : Int) < grant.expiresAt then
        let expiresAt := min ((max grant.expiresAt 0).toNat + seconds.toNat) i64Max
        return { db with grants := db.grants.upsert { grant with expiresAt := expiresAt } }
      else return db

/-- `revoke_outbound_grant`. -/
def DeliveryDb.revokeOutboundGrant (db : DeliveryDb) (tenant id : String) (at' : UInt64) :
    DeliveryDb :=
  match db.grants.find? id with
  | none => db
  | some grant =>
      if grant.tenant = tenant ∧ grant.revokedAt = none then
        { db with
          grants := db.grants.upsert { grant with revokedAt := some (min at'.toNat i64Max) } }
      else db

/-- `purge_expired_revoked_grants`. -/
def DeliveryDb.purgeExpiredRevokedGrants (db : DeliveryDb) (now : UInt64) : DeliveryDb :=
  let kept := db.grants.filter fun g =>
    ¬ (g.revokedAt.isSome = true ∧ g.expiresAt ≤ (min now.toNat i64Max : Int)
      ∧ ¬ ∃ r ∈ db.jobs.rows, r.id = g.id ∧ r.job.state ≠ .retired)
  if kept.rows.length = db.grants.rows.length then db
  else
    { db with
      grants := kept
      cache := db.cache.filter fun row => (kept.find? row.grantId).isSome = true }

/-! ### Restoring -/

/-- The row of a job after its tables were restored from a backup. -/
def JobRow.held (row : JobRow) : JobRow :=
  if row.job.state = .suspended then row
  else
    { row with
      owner := ""
      job :=
        { row.job with
          state := .suspended
          error := some
            "Held after restoring a backup. Create a new job to deliver these files." } }

theorem JobRow.id_held (row : JobRow) :
  row.held.id = row.id
  := by
  rw [JobRow.held]
  split <;> rfl

/-- The row of a trade route after its tables were restored. -/
def TradeRow.held (row : TradeRow) : TradeRow where
  route := { row.route with state := .revoked, cancelActive := false }
  credential := ""

/-- The tables as the restoring of a historical backup leaves them: what was shared is
revoked, and every job is held. -/
def DeliveryDb.hold (db : DeliveryDb) (now : UInt64) : DeliveryDb :=
  let at' : Int := min now.toNat i64Max
  { db with
    jobs := db.jobs.map JobRow.held JobRow.id_held
    grants := db.grants.map
      (fun grant => { grant with revokedAt := some (grant.revokedAt.getD at') }) fun _ => rfl
    inbound := db.inbound.map
      (fun route => { route with revokedAt := some (route.revokedAt.getD at') }) fun _ => rfl
    trade := db.trade.map TradeRow.held fun _ => rfl }

end Votport
