import Votport.Delivery.Projects

/-!
# The removal of links and tenants

Removing a link deletes the rows that depend on it, unless a delivery or a peer still needs
the link.  Removing a tenant deletes the rows of its deliveries, unless the tenant still has
links or a revocation of it is still to be delivered.  The foreign keys of the store are off,
so every table is named.
-/

namespace Votport

variable {δ : Type}

/-- `DELETE FROM files` of the rows that satisfy `p`, none when a trigger fails. -/
def QuotaDb.deleteFiles (db : QuotaDb) (p : FileRow → Prop) [DecidablePred p] : Option QuotaDb :=
  (db.files.rows.filter p).foldlM (fun db row => db.deleteFile row.key) db

/-! ### Links -/

/-- `receive_pending`: a delivery of an upload to the link is not over. -/
def DeliveryDb.receivePending (db : DeliveryDb) (tenant linkId : String) : Prop :=
  ∃ r ∈ db.jobs.rows, r.job.tenant = tenant
    ∧ r.job.received.any (fun received => received.linkId = linkId) = true
    ∧ r.job.state ≠ .retired ∧ r.job.state ≠ .suspended

instance (db : DeliveryDb) (tenant linkId : String) :
    Decidable (db.receivePending tenant linkId) :=
  inferInstanceAs (Decidable (∃ r ∈ _, _))

/-- The route of a peer that delivers to the link. -/
def TradeRow.deliversTo (tenant linkId : String) (row : TradeRow) : Prop :=
  row.route.tenant = tenant ∧ row.route.endpoint = linkId ∧ row.route.direction = .incoming

instance (tenant linkId : String) : DecidablePred (TradeRow.deliversTo tenant linkId) :=
  fun _ => inferInstanceAs (Decidable (_ ∧ _))

/-- The tables of deliveries without the rows that depend on a link. -/
def DeliveryDb.withoutLink (db : DeliveryDb) (tenant id : String) : DeliveryDb :=
  { db with
    endpoints := db.endpoints.filter (· ≠ id)
    linkStates := db.linkStates.filter (·.linkId ≠ id)
    receiveWorkflows := db.receiveWorkflows.filter (·.linkId ≠ id)
    receiveUploads := db.receiveUploads.filter (·.1 ≠ id)
    routeUploads := db.routeUploads.filter fun u =>
      ¬ ∃ r ∈ db.inbound.rows, r.id = u.routeId ∧ r.tenant = tenant ∧ r.linkId = id
    inbound := db.inbound.filter fun r => ¬ (r.tenant = tenant ∧ r.linkId = id)
    trade := db.trade.filter fun row => ¬ row.deliversTo tenant id }

/-- The part of `remove_link` that deletes. -/
def deleteLink (db : PortDb δ) (tenant id : String) : Except String (PortDb δ) := do
  let quota ← Fallible.present
    (db.quota.deleteFiles fun row => row.tenant = tenant ∧ row.key.linkId = id)
    "CHECK constraint failed: tenant_quota_usage"
  return {
    links := db.links.filter fun link => ¬ (link.tenant = tenant ∧ link.id = id)
    uploads := db.uploads.filter fun row => ¬ (row.tenant = tenant ∧ row.linkId = id)
    quota := quota
    sessions := db.sessions.filter fun row => ¬ (row.tenant = tenant ∧ row.linkId = id)
    sessionFiles := db.sessionFiles.filter fun file =>
      ¬ ∃ row ∈ db.sessions.rows, row.id = file.sessionId ∧ row.tenant = tenant ∧ row.linkId = id
    rest := db.rest.withoutLink tenant id }

/-- `remove_link`: whether there was such a link. -/
def removeLink (db : PortDb δ) (tenant id : String) : Except String (Bool × PortDb δ) :=
  match db.link? tenant id with
  | none => .ok (false, db)
  | some _ => do
      Fallible.require (¬ db.rest.receivePending tenant id)
        "incoming workflows still use this request; wait for their deliveries to be archived before deleting it"
      Fallible.require (¬ ∃ row ∈ db.rest.trade.rows, row.deliversTo tenant id
          ∧ row.route.state ≠ .revoked)
        "trade routes still deliver to this request; revoke them under Trade routes before deleting it"
      let db ← deleteLink db tenant id
      return (true, db)

/-! ### Tenants -/

/-- What `remove_tenant` reports. -/
inductive TenantRemoval
  | deleted
  | absent
  | hasLinks
  | hasRoutes
deriving DecidableEq, Repr

/-- The revocation of the outbound route is still to be delivered. -/
def DeliveryDb.routePending (db : DeliveryDb) (key : String) (r : OutboundRoute) : Prop :=
  ∃ j ∈ db.jobs.rows, j.id = r.jobId ∧ j.job.tenant = key ∧ j.job.state ≠ .suspended
    ∧ r.ack = none
    ∧ (r.revocation.isSome = true ∨ j.job.state = .cancelled
      ∨ j.job.state.isRetiring ∧ j.job.checks.retiredFrom = some .cancelled
      ∨ j.job.checks.sourceRevokedAt.isSome = true
      ∨ j.job.checks.complete r.destinationId = false)

instance (db : DeliveryDb) (key : String) (r : OutboundRoute) : Decidable (db.routePending key r) :=
  inferInstanceAs (Decidable (∃ j ∈ _, _))

/-- `remove_storage_tenant`. -/
def Storage.withoutTenant (storage : Storage) (key : String) : Storage :=
  if key ∈ storage.tenants then
    { storage with
      tenants := storage.tenants.filter (· ≠ key), revision := storage.revision + 1 }
  else storage

theorem Storage.id_withoutTenant (storage : Storage) (key : String) :
  (storage.withoutTenant key).id = storage.id
  := by
  rw [Storage.withoutTenant]
  split <;> rfl

/-- The tables of deliveries without the rows of a tenant. -/
def DeliveryDb.withoutTenant (db : DeliveryDb) (key : String) : DeliveryDb :=
  { db with
    tenants := db.tenants.filter (· ≠ key)
    projects := db.projects.filter (·.tenant ≠ key)
    storages := (db.storages.filter fun storage =>
        ¬ ∃ row ∈ db.trade.rows, row.id = storage.id ∧ row.route.tenant = key
          ∧ row.route.direction = .outgoing).map
      (fun storage => storage.withoutTenant key) fun storage => storage.id_withoutTenant key
    tokens := db.tokens.filter (·.tenant ≠ key)
    jobs := db.jobs.filter (·.job.tenant ≠ key)
    grants := db.grants.filter (·.tenant ≠ key)
    cache := db.cache.filter fun row =>
      ¬ ∃ g ∈ db.grants.rows, g.id = row.grantId ∧ g.tenant = key
    inbound := db.inbound.filter (·.tenant ≠ key)
    routeUploads := db.routeUploads.filter fun u =>
      ¬ ∃ r ∈ db.inbound.rows, r.id = u.routeId ∧ r.tenant = key
    outbound := db.outbound.filter fun r =>
      ¬ ∃ j ∈ db.jobs.rows, j.id = r.jobId ∧ j.job.tenant = key
    trade := db.trade.filter (·.route.tenant ≠ key) }

/-- The bytes of the tenant are to be counted again. -/
def QuotaDb.markDirty (db : QuotaDb) (key : String) : QuotaDb :=
  match db.usage.find? key with
  | none => db
  | some row => { db with usage := db.usage.upsert { row with state := .dirty } }

/-- The part of `remove_tenant` that deletes. -/
def deleteTenant (db : PortDb δ) (key : String) : Except String (PortDb δ) := do
  let quota ← Fallible.present
    ((db.quota.markDirty key).deleteFiles fun row => row.tenant = key)
    "CHECK constraint failed: tenant_quota_usage"
  return {
    links := db.links
    uploads := db.uploads.filter (·.tenant ≠ key)
    quota :=
      { quota with
        usage := quota.usage.erase key, tenants := quota.tenants.filter (· ≠ key) }
    sessions := db.sessions.filter (·.tenant ≠ key)
    sessionFiles := db.sessionFiles.filter fun file =>
      ¬ ∃ row ∈ db.sessions.rows, row.id = file.sessionId ∧ row.tenant = key
    rest :=
      { db.rest.withoutTenant key with
        endpoints := db.rest.endpoints.filter fun id => (db.link? key id).isNone } }

/-- `remove_tenant`. -/
def removeTenant (db : PortDb δ) (key : String) : Except String (TenantRemoval × PortDb δ) :=
  if ∃ r ∈ db.rest.outbound.rows, db.rest.routePending key r then .ok (.hasRoutes, db)
  else if key ∈ db.rest.tenants then
    if ∃ link ∈ db.links.rows, link.tenant = key then .ok (.hasLinks, db)
    else (deleteTenant db key).map fun db => (.deleted, db)
  else (deleteTenant db key).map fun db => (.absent, db)

/-! ### What removals do -/

/-- The rows of a link are deleted, or nothing is. -/
theorem removeLink_eq_ok
    {db db' : PortDb δ} {tenant id : String} {removed : Bool}
    (h : removeLink db tenant id = .ok (removed, db')) :
  db' = db ∨ db'.rest = db.rest.withoutLink tenant id
    ∧ db'.links = db.links.filter fun link => ¬ (link.tenant = tenant ∧ link.id = id)
  := by
  rw [removeLink] at h
  split at h
  · cases h
    exact Or.inl rfl
  · obtain ⟨_, _, h⟩ := Fallible.bind_eq_ok.mp h
    obtain ⟨_, _, h⟩ := Fallible.bind_eq_ok.mp h
    obtain ⟨deleted, hdeleted, h⟩ := Fallible.bind_eq_ok.mp h
    cases h
    obtain ⟨_, _, hdeleted⟩ := Fallible.bind_eq_ok.mp hdeleted
    cases hdeleted
    exact Or.inr ⟨rfl, rfl⟩

theorem deleteTenant_eq_ok
    {db db' : PortDb δ} {key : String} (h : deleteTenant db key = .ok db') :
  (∃ endpoints, db'.rest = { db.rest.withoutTenant key with endpoints := endpoints })
    ∧ db'.links = db.links
  := by
  obtain ⟨_, _, h⟩ := Fallible.bind_eq_ok.mp h
  cases h
  exact ⟨⟨_, rfl⟩, rfl⟩

/-- The rows of a tenant are deleted, or nothing is. -/
theorem removeTenant_eq_ok
    {db db' : PortDb δ} {key : String} {removal : TenantRemoval}
    (h : removeTenant db key = .ok (removal, db')) :
  db' = db ∨ (∃ endpoints, db'.rest = { db.rest.withoutTenant key with endpoints := endpoints })
    ∧ db'.links = db.links
  := by
  rw [removeTenant] at h
  split_ifs at h
  · cases h
    exact Or.inl rfl
  · cases h
    exact Or.inl rfl
  · obtain ⟨deleted, hdeleted, heq⟩ := Fallible.map_eq_ok.mp h
    cases heq
    exact Or.inr (deleteTenant_eq_ok hdeleted)
  · obtain ⟨deleted, hdeleted, heq⟩ := Fallible.map_eq_ok.mp h
    cases heq
    exact Or.inr (deleteTenant_eq_ok hdeleted)

end Votport
