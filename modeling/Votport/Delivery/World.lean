import Votport.Delivery.Projects
import Votport.Foundation.Runs

/-!
# Ports that deliver

A port at work: its tables, the jobs that its workers hold copies of, the revocations that
they have claimed, and the time.  Operations come in any order, from any number of workers
and operators; one that fails leaves the tables as they are.  The claims and the explicit
retries are noted, the last one first.
-/

namespace Votport

variable {δ : Type}

/-! ### Operations -/

/-- What is noted of a claim or an explicit retry. -/
inductive JobEvent
  /-- The job was claimed and runs. -/
  | claimed (id : String)
  /-- The job was claimed and has failed, because it had been claimed too often. -/
  | exhausted (id : String)
  | retried (id : String)
deriving DecidableEq, Repr

/-- The job of an event. -/
def JobEvent.id : JobEvent → String
  | .claimed id | .exhausted id | .retried id => id

/-- A worker that has claimed a job. -/
structure DeliveryWorker where
  /-- Its copy of the job. -/
  job : Job
  /-- It has read the checks of the job again, after it copied the files. -/
  inspected : Bool

/-- A port at work. -/
structure DeliveryWorld (δ : Type) where
  db : PortDb δ
  workers : List DeliveryWorker
  controls : List OutboundControl
  log : List JobEvent
  now : UInt64

/-- An operation. -/
inductive DeliveryOp (δ : Type)
  | enqueue (id tenant actor : String) (credentialVersion : Nat)
      (automationTokenId : Option String) (project : Project) (request : JobRequest)
  | claim (owner : String)
  /-- A worker is about to copy the files of its job. -/
  | reserve (worker : Nat) (bytes limit : UInt64)
  | prepare (worker : Nat) (found : Preparation)
  /-- A worker finishes the preparation of its job with a grant. -/
  | finish (worker : Nat) (grant : OutboundGrant) (manifest : String)
  | completeExport (id : String) (attempt : Nat) (destination location : String)
  | failDestination (id : String) (attempt : Nat) (destination error : String)
  | failJob (id : String) (attempt : Nat) (error : String)
  | routeProgress (id : String) (attempt : Nat) (destination : String) (moved : UInt64)
  | recordReceipt (id : String) (attempt : Nat) (destination : String) (receipt : RouteReceipt)
  | change (tenant id actor : String) (administrator : Bool) (action : JobAction)
  | removeRecipient (tenant id actor : String) (administrator : Bool) (holder : String)
  | claimRetirement
  | completeRetirement (id : String)
  | reprocess (identity : AdminIdentity) (id newId manifest : String) (projectRevision : Nat)
  /-- An operator shares files without a job. -/
  | share (grant : OutboundGrant)
  | extendGrant (tenant id : String) (seconds : UInt64)
  | revokeGrant (tenant id : String)
  | purgeGrants
  | receive (id tenant linkId : String) (source : SignedRoute) (ancestry : List RouteReceipt)
      (credential : Option String)
  | bindSession (route : InboundRoute) (session transport : String)
  /-- A session commits its upload; `jobId` is for the job that it queues. -/
  | commit (tenant linkId session : String) (upload : UploadRecord) (jobId : String)
  | revokeInbound (id : String) (request : RouteRevocation)
  /-- A worker that exports its job has learnt the route of a destination. -/
  | bindOutbound (worker : Nat) (destination origin route peerKey : String)
      (source : SignedRoute)
  | updateTradeRoute (tenant id : String) (revision : Nat) (state : TradeState)
      (cancelActive : Bool)
  /-- Another change to a trade route, or a new one. -/
  | trade (row : TradeRow)
  | saveProject (tenant : String) (project : Project)
  /-- The release of a grant is asked for. -/
  | release (grantId : String)
  | claimRevocation
  | finishRevocation (control : Nat) (acknowledgement : Option RouteRevoked)
      (error : Option String)
  /-- The port starts over from a backup of its tables. -/
  | hold
  /-- The other tables change. -/
  | surround (tables : UploadDb δ Surroundings)
  | tick (now : UInt64)

/-- The id of an upload is new when its commit writes the upload: it is made at random. -/
def DeliveryDb.freshUpload (db : DeliveryDb) (upload : UploadRecord) : Prop :=
  upload.isPartial = true ∨ db.routeUploads.find? upload.id = none

instance (db : DeliveryDb) (upload : UploadRecord) : Decidable (db.freshUpload upload) :=
  inferInstanceAs (Decidable (_ ∨ _))

/-! ### Steps -/

/-- The world with these tables of deliveries. -/
def DeliveryWorld.withRest (w : DeliveryWorld δ) (rest : DeliveryDb) : DeliveryWorld δ :=
  { w with db := { w.db with rest := rest } }

/-- The world after a transaction. -/
def DeliveryWorld.commits {ε : Type} (w : DeliveryWorld δ) (result : Except ε DeliveryDb) :
    DeliveryWorld δ :=
  match result with
  | .ok rest => w.withRest rest
  | .error _ => w

/-- The world after a claim by the owner. -/
def DeliveryWorld.claim (w : DeliveryWorld δ) (owner : String) : DeliveryWorld δ :=
  match w.db.rest.claimDeliveryJob owner w.now with
  | none => w
  | some (row, rest) =>
      if row.job.state.running then
        { w.withRest rest with
          workers := w.workers ++ [⟨row.job, false⟩], log := .claimed row.id :: w.log }
      else { w.withRest rest with log := .exhausted row.id :: w.log }

/-- The world after an operator's action. -/
def DeliveryWorld.change (env : DeliveryEnv δ) (w : DeliveryWorld δ) (tenant id actor : String)
    (administrator : Bool) (action : JobAction) : DeliveryWorld δ :=
  match changeDeliveryJob env w.db tenant id actor administrator action w.now with
  | .error _ => w
  | .ok rest =>
      { w.withRest rest with
        log := if action = .retry then .retried id :: w.log else w.log }

/-- The world after a worker has read the checks of its job again and written what it has
found to its copy. -/
def DeliveryWorld.prepare (w : DeliveryWorld δ) (worker : Nat) (found : Preparation) :
    DeliveryWorld δ :=
  match w.workers[worker]? with
  | none => w
  | some claimed =>
      match w.db.rest.jobs.find? claimed.job.id with
      | none => w
      | some row =>
          { w with
            workers := w.workers.set worker
              ⟨{ claimed.job with checks := row.job.checks.prepared found }, true⟩ }

/-- A worker copies the files of its job before it reads the checks again. -/
def DeliveryWorker.copies (worker : DeliveryWorker) : Prop :=
  worker.inspected = false
    ∧ (worker.job.usesSnapshot = true ∨ worker.job.request.importFrom.isSome = true)

instance (worker : DeliveryWorker) : Decidable worker.copies :=
  inferInstanceAs (Decidable (_ ∧ _))

/-- The world after one operation. -/
def DeliveryWorld.step (env : DeliveryEnv δ) (w : DeliveryWorld δ) :
    DeliveryOp δ → DeliveryWorld δ
  | .enqueue id tenant actor credentialVersion automationTokenId project request =>
      w.commits ((w.db.rest.enqueueDeliveryJob env.keys id tenant actor credentialVersion
        automationTokenId project request w.now).map Prod.snd)
  | .claim owner => w.claim owner
  | .reserve worker bytes limit =>
      match w.workers[worker]? with
      | none => w
      | some claimed =>
          if claimed.copies then
            w.commits (w.db.rest.reserveDeliverySnapshot claimed.job.id claimed.job.attempts bytes
              limit)
          else w
  | .prepare worker found => w.prepare worker found
  | .finish worker grant manifest =>
      match w.workers[worker]? with
      | none => w
      | some claimed =>
          if claimed.inspected then
            w.commits (addOutboundGrant env w.db grant (some claimed.job) manifest w.now)
          else w
  | .completeExport id attempt destination location =>
      w.commits (w.db.rest.completeDeliveryExport env.keys id attempt destination location w.now)
  | .failDestination id attempt destination error =>
      w.commits (w.db.rest.failDeliveryDestination env.keys id attempt destination error w.now)
  | .failJob id attempt error =>
      w.withRest (w.db.rest.failDeliveryJob id attempt error w.now)
  | .routeProgress id attempt destination moved =>
      w.withRest (w.db.rest.routeProgress id attempt destination moved)
  | .recordReceipt id attempt destination receipt =>
      w.commits (w.db.rest.recordRouteReceipt id attempt destination receipt)
  | .change tenant id actor administrator action =>
      w.change env tenant id actor administrator action
  | .removeRecipient tenant id actor administrator holder =>
      w.commits (w.db.rest.removeDeliveryRecipient tenant id actor administrator holder w.now)
  | .claimRetirement =>
      match w.db.rest.claimSnapshotRetirement w.now with
      | none => w
      | some rest => w.withRest rest
  | .completeRetirement id => w.commits (w.db.rest.completeSnapshotRetirement id w.now)
  | .reprocess identity id newId manifest projectRevision =>
      w.commits ((reprocessReceivedJob env w.db identity id newId manifest projectRevision
        w.now).map Prod.snd)
  | .share grant =>
      -- The id of a grant without a job is made at random.
      if (w.db.rest.jobs.find? grant.id).isSome then w
      else w.commits (addOutboundGrant env w.db grant none "" w.now)
  | .extendGrant tenant id seconds =>
      w.commits (w.db.rest.extendOutboundGrant tenant id seconds w.now)
  | .revokeGrant tenant id => w.withRest (w.db.rest.revokeOutboundGrant tenant id w.now)
  | .purgeGrants => w.withRest (w.db.rest.purgeExpiredRevokedGrants w.now)
  | .receive id tenant linkId source ancestry credential =>
      w.commits ((receiveRouteAuthorized env w.db id tenant linkId source ancestry credential
        w.now).map Prod.snd)
  | .bindSession route session transport =>
      w.commits (w.db.rest.bindRouteSession route session transport)
  | .commit tenant linkId session upload jobId =>
      if w.db.rest.freshUpload upload then
        match appendUpload (env.uploads jobId w.now) w.db tenant linkId upload (some session) with
        | .error _ => w
        | .ok (_, db) => { w with db := db }
      else w
  | .revokeInbound id request =>
      w.commits (w.db.rest.revokeInboundRoute env id request w.now)
  | .bindOutbound worker destination origin route peerKey source =>
      match w.workers[worker]? with
      | none => w
      | some claimed =>
          if claimed.job.manifest.isSome then
            w.commits (w.db.rest.bindOutboundRoute env claimed.job.id destination origin route
              peerKey source)
          else w
  | .updateTradeRoute tenant id revision state cancelActive =>
      w.commits (w.db.rest.updateTradeRoute env tenant id revision state cancelActive w.now)
  | .trade row => w.withRest { w.db.rest with trade := w.db.rest.trade.upsert row }
  | .saveProject tenant project =>
      w.commits ((w.db.rest.saveDeliveryProject env tenant project).map Prod.snd)
  | .release grantId => w.withRest (releaseIn env w.db grantId).2
  | .claimRevocation =>
      match w.db.rest.claimRouteRevocation env w.now with
      | none => w
      | some (control, rest) => { w.withRest rest with controls := w.controls ++ [control] }
  | .finishRevocation control acknowledgement error =>
      match w.controls[control]? with
      | none => w
      | some control =>
          w.commits (w.db.rest.finishRouteRevocation env control acknowledgement error w.now)
  | .hold => w.withRest (w.db.rest.hold w.now)
  | .surround tables =>
      { w with
        db :=
          { tables with
            rest :=
              { w.db.rest with
                toSurroundings := { tables.rest with projects := w.db.rest.projects } } } }
  | .tick now => if w.now ≤ now then { w with now := now } else w

/-- The world after some operations. -/
def DeliveryWorld.run (env : DeliveryEnv δ) (w : DeliveryWorld δ) (ops : List (DeliveryOp δ)) :
    DeliveryWorld δ :=
  ops.foldl (DeliveryWorld.step env) w

/-- A port that has not delivered anything. -/
def DeliveryWorld.begin (tables : UploadDb δ Surroundings) (now : UInt64) : DeliveryWorld δ where
  db :=
    { tables with
      rest :=
        { tables.rest with
          jobs := .empty, grants := .empty, cache := .empty, inbound := .empty
          routeUploads := .empty, receiveUploads := [], outbound := .empty, trade := .empty } }
  workers := []
  controls := []
  log := []
  now := now

/-- The job and the number of the attempt that a worker carries in an operation. -/
def DeliveryWorld.carries (w : DeliveryWorld δ) : DeliveryOp δ → Option (String × Nat)
  | .reserve worker _ _ | .finish worker _ _ =>
      (w.workers[worker]?).map fun claimed => (claimed.job.id, claimed.job.attempts)
  | .completeExport id attempt _ _ => some (id, attempt)
  | .failDestination id attempt _ _ => some (id, attempt)
  | .failJob id attempt _ => some (id, attempt)
  | .routeProgress id attempt _ _ => some (id, attempt)
  | .recordReceipt id attempt _ _ => some (id, attempt)
  | _ => none

end Votport
