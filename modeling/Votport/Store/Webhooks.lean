import Votport.Foundation.Table
import Votport.Store.Evidence
import Mathlib.Data.List.Sort

/-!
# The webhook queue

A tenant's webhook follows the event log with a cursor.  A pass queues the next events
after it as attempts of the webhook's revision; a claimer sends the due attempts and
finishes each of them; an operator may replay an event.  A finish is fenced by the number
of attempts the claimer has read, and a replay sets that number back to zero.
-/

namespace Votport

variable {π : Type*}

/-- A row of `delivery_webhooks`. -/
structure DeliveryWebhook where
  tenant : String
  url : String
  secret : String
  revision : Nat
  enabled : Bool
  cursor : Int
deriving DecidableEq, Repr

/-- How an attempt stands. -/
inductive AttemptStatus
  | pending
  | delivered
  | dead
  | superseded
deriving DecidableEq, Repr

/-- A row of `delivery_webhook_attempts`. -/
structure WebhookAttempt where
  id : Nat
  tenant : String
  eventId : Int
  revision : Nat
  status : AttemptStatus
  attempts : Nat
  nextTry : Int
  error : Option String
deriving DecidableEq, Repr

/-- The columns under the unique index. -/
def WebhookAttempt.key (a : WebhookAttempt) : String × Int × Nat :=
  (a.tenant, a.eventId, a.revision)

/-- The tables of the webhooks with the event log. -/
structure WebhookDb where
  tenants : List String
  hooks : Table DeliveryWebhook.tenant
  attempts : Table WebhookAttempt.key
  attemptSequence : Nat
  log : EventLog

/-! ### Saving -/

/-- The ids of the events of a tenant. -/
def WebhookDb.eventIds (db : WebhookDb) (tenant : String) : List Int :=
  (db.log.ofTenant tenant).map EventRow.id

/-- A pending attempt of a webhook whose configuration has changed. -/
def supersede (tenant : String) (a : WebhookAttempt) : WebhookAttempt :=
  if a.tenant = tenant ∧ a.status = .pending then
    { a with status := .superseded, error := some "webhook configuration changed" }
  else a

theorem key_supersede (tenant : String) (a : WebhookAttempt) :
  (supersede tenant a).key = a.key
  := by
  rw [supersede]
  split <;> rfl

/-- The revision of the tenant's webhook, zero without one. -/
def WebhookDb.revision (db : WebhookDb) (tenant : String) : Nat :=
  ((db.hooks.find? tenant).map DeliveryWebhook.revision).getD 0

/-- The webhook a save writes. -/
def WebhookDb.nextHook
    (db : WebhookDb) (tenant url secret : String) (enabled : Bool) (revision : Nat) :
    DeliveryWebhook where
  tenant := tenant
  url := url
  secret := secret
  revision := revision + 1
  enabled := enabled
  cursor := ((db.eventIds tenant).getLast?).getD 0

/-- Saves a tenant's webhook at the revision the caller has seen. -/
def WebhookDb.saveDeliveryWebhook
    (env : EventEnv π) (changed : String → Nat → Bool → π) (db : WebhookDb)
    (tenant actor url secret : String) (enabled : Bool) (revision : Nat) (now : UInt64) :
    Except String (DeliveryWebhook × WebhookDb) :=
  if ¬ (tenant = "" ∨ tenant ∈ db.tenants) then .error "tenant missing"
  else if db.revision tenant ≠ revision then
    .error "webhook changed; reload before saving"
  else
    match deliveryEvent env db.log tenant "" "webhook_changed"
        (changed actor (revision + 1) enabled) now with
    | none => .error "database or disk is full"
    | some log =>
        .ok (db.nextHook tenant url secret enabled revision,
          { db with
            hooks := db.hooks.upsert (db.nextHook tenant url secret enabled revision)
            attempts := db.attempts.map (supersede tenant) (key_supersede tenant)
            log := log })

/-! ### Queueing -/

/-- The ids of the tenant's events after a webhook's cursor. -/
def WebhookDb.beyond (db : WebhookDb) (hook : DeliveryWebhook) : List Int :=
  (db.eventIds hook.tenant).filter (hook.cursor < ·)

/-- A new attempt. -/
def newAttempt (id : Nat) (hook : DeliveryWebhook) (eventId : Int) (now : Nat) :
    WebhookAttempt where
  id := id
  tenant := hook.tenant
  eventId := eventId
  revision := hook.revision
  status := .pending
  attempts := 0
  nextTry := asI64 now
  error := none

/-- Inserts an attempt for an event unless the webhook's revision has one.  An id is given either
way. -/
def WebhookDb.queueEvent (hook : DeliveryWebhook) (now : Nat) (db : WebhookDb) (eventId : Int) :
    WebhookDb :=
  match db.attempts.insert? (newAttempt (db.attemptSequence + 1) hook eventId now) with
  | none => { db with attemptSequence := db.attemptSequence + 1 }
  | some attempts =>
      { db with attempts := attempts, attemptSequence := db.attemptSequence + 1 }

/-- Queues up to `limit` events of a webhook and moves its cursor to the last of them. -/
def WebhookDb.queueHook (limit now : Nat) (db : WebhookDb) (hook : DeliveryWebhook) :
    WebhookDb :=
  let batch := (db.beyond hook).take limit
  let queued := batch.foldl (WebhookDb.queueEvent hook now) db
  { queued with
    hooks := queued.hooks.map
      (fun h =>
        if h.tenant = hook.tenant then { h with cursor := max h.cursor (batch.getLast?.getD 0) }
        else h)
      (by intro h; split <;> rfl) }

/-- The number of events a pass queues for a webhook. -/
def queueLimit : Nat := 100

/-- A queueing pass with a batch of `limit` events for each enabled webhook. -/
def WebhookDb.queueDeliveryWebhooks (limit : Nat) (db : WebhookDb) (now : Nat) : WebhookDb :=
  (db.hooks.rows.filter DeliveryWebhook.enabled).foldl (WebhookDb.queueHook limit now) db

/-! ### Sending -/

/-- The attempt is pending, due, and of an enabled webhook's revision. -/
def WebhookDb.due (db : WebhookDb) (now : Nat) (a : WebhookAttempt) : Bool :=
  ((db.hooks.find? a.tenant).any fun hook => hook.enabled && hook.revision == a.revision)
    && a.status = .pending && decide (a.nextTry ≤ asI64 now)

/-- The attempt comes before another one that is due. -/
def WebhookAttempt.before (a b : WebhookAttempt) : Bool :=
  decide (a.nextTry < b.nextTry ∨ a.nextTry = b.nextTry ∧ a.eventId ≤ b.eventId)

/-- The first due attempts. -/
def WebhookDb.dueDeliveryWebhooks (db : WebhookDb) (now : Nat) : List WebhookAttempt :=
  ((db.attempts.rows.filter (db.due now)).mergeSort WebhookAttempt.before).take 16

/-- How long an attempt waits after the ones before it. -/
def webhookRetryDelay (attempt : Nat) : Nat :=
  min (5 * 2 ^ min attempt 7) 600

/-- An attempt after it was sent with this outcome. -/
def WebhookAttempt.finished (a : WebhookAttempt) (count : Nat) (error : Option String)
    (now : Nat) : WebhookAttempt :=
  { a with
    status := if error.isNone then .delivered else if 12 ≤ count then .dead else .pending
    attempts := count
    nextTry := asI64 (min (now + webhookRetryDelay count) (2 ^ 64 - 1))
    error := error }

/-- The stored attempt is still the one that was claimed. -/
def WebhookAttempt.claimedAs (stored claimed : WebhookAttempt) : Prop :=
  stored.key = claimed.key ∧ stored.status = .pending ∧ stored.attempts = claimed.attempts

instance (claimed : WebhookAttempt) : DecidablePred (WebhookAttempt.claimedAs · claimed) :=
  fun _ => inferInstanceAs (Decidable (_ ∧ _ ∧ _))

/-- Records the outcome of a claimed attempt. -/
def WebhookDb.finishDeliveryWebhook
    (db : WebhookDb) (attempt : WebhookAttempt) (error : Option String) (now : Nat) :
    WebhookDb :=
  { db with
    attempts := db.attempts.map
      (fun a =>
        if a.claimedAs attempt then a.finished (attempt.attempts + 1) error now else a)
      (by intro a; split <;> rfl) }

/-- An attempt that starts again. -/
def WebhookAttempt.replayed (a : WebhookAttempt) (now : Nat) : WebhookAttempt :=
  { a with status := .pending, attempts := 0, nextTry := asI64 now, error := none }

/-- Queues an event of an enabled webhook again, from its first attempt on, and tells
whether there is one. -/
def WebhookDb.replayDeliveryWebhook (db : WebhookDb) (tenant : String) (id : Int) (now : Nat) :
    Bool × WebhookDb :=
  match db.hooks.find? tenant with
  | none => (false, db)
  | some hook =>
      if hook.enabled ∧ id ∈ db.eventIds tenant then
        match db.attempts.find? (tenant, id, hook.revision) with
        | some a =>
            (true, { db with
              attempts := db.attempts.upsert (a.replayed now)
              attemptSequence := db.attemptSequence + 1 })
        | none => (true, db.queueEvent hook now id)
      else (false, db)

/-! ### Runs -/

/-- What a claimer holds: the attempt as it read it, and whether the stored one has been
written, and replayed, since. -/
structure WebhookClaim where
  attempt : WebhookAttempt
  written : Bool
  replayed : Bool

/-- The tables, what the claimers hold, and the cursors the webhooks were saved with. -/
structure WebhookWorld where
  db : WebhookDb
  claims : List WebhookClaim
  saved : String → Int

/-- An operation on the queue. -/
inductive WebhookOp (π : Type*)
  /-- Any other operation that appends an event. -/
  | append (tenant grantId kind : String) (payload : π) (now : UInt64)
  | save (tenant actor url secret : String) (enabled : Bool) (revision : Nat) (now : UInt64)
  | queue (limit now : Nat)
  | claim (now : Nat)
  /-- The finish of the claim at a place of the list. -/
  | finish (claim : Nat) (error : Option String) (now : Nat)
  | replay (tenant : String) (id : Int) (now : Nat)

/-- The claim after writes of the attempts under the keys `p`. -/
def WebhookClaim.wrote (p : String × Int × Nat → Bool) (isReplay : Bool) (c : WebhookClaim) :
    WebhookClaim :=
  if p c.attempt.key then
    { c with written := true, replayed := c.replayed || isReplay }
  else c

/-- The save writes the pending attempts of its tenant. -/
def WebhookDb.savePending (db : WebhookDb) (tenant : String) (key : String × Int × Nat) : Bool :=
  (db.attempts.find? key).any fun a => a.tenant = tenant && a.status = .pending

/-- The finish writes the stored attempt when it is the one that was claimed. -/
def WebhookDb.finishes (db : WebhookDb) (attempt : WebhookAttempt)
    (key : String × Int × Nat) : Bool :=
  (db.attempts.find? key).any fun a => a.claimedAs attempt

/-- The replay writes the attempt of the webhook's revision for its event. -/
def WebhookDb.replays (db : WebhookDb) (tenant : String) (id : Int)
    (key : String × Int × Nat) : Bool :=
  (db.hooks.find? tenant).any fun hook =>
    hook.enabled && decide (id ∈ db.eventIds tenant) && key == (tenant, id, hook.revision)

/-- One operation, none when it is refused. -/
def WebhookWorld.step (env : EventEnv π) (changed : String → Nat → Bool → π)
    (w : WebhookWorld) : WebhookOp π → Option WebhookWorld
  | .append tenant grantId kind payload now =>
      (deliveryEvent env w.db.log tenant grantId kind payload now).map fun log =>
        { w with db := { w.db with log := log } }
  | .save tenant actor url secret enabled revision now =>
      match w.db.saveDeliveryWebhook env changed tenant actor url secret enabled revision now with
      | .error _ => none
      | .ok (hook, db) =>
          some
            { db := db
              claims := w.claims.map (WebhookClaim.wrote (w.db.savePending tenant) false)
              saved := fun t => if t = tenant then hook.cursor else w.saved t }
  | .queue limit now => some { w with db := w.db.queueDeliveryWebhooks limit now }
  | .claim now =>
      some { w with
        claims := w.claims ++ (w.db.dueDeliveryWebhooks now).map (⟨·, false, false⟩) }
  | .finish i error now =>
      (w.claims[i]?).map fun c =>
        { w with
          db := w.db.finishDeliveryWebhook c.attempt error now
          claims := w.claims.map (WebhookClaim.wrote (w.db.finishes c.attempt) false) }
  | .replay tenant id now =>
      some { w with
        db := (w.db.replayDeliveryWebhook tenant id now).2
        claims := w.claims.map (WebhookClaim.wrote (w.db.replays tenant id) true) }

/-- The queue before the first webhook. -/
def WebhookWorld.start (tenants : List String) : WebhookWorld where
  db := ⟨tenants, .empty, .empty, 0, .empty⟩
  claims := []
  saved _ := 0

end Votport
