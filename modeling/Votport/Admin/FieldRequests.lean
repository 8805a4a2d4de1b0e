import Votport.Admin.Fields

/-!
# Requests that change fields

A request reads its row, computes the row that it wants and writes it, each by itself, with any
number of other requests between.  One that is about branding keeps its tenant from being removed;
one that is about the row of a tenant does not.
-/

namespace Votport.Admin

/-- What an administrator asks for. -/
inductive FieldsRequest
  | updateTenant (key : String) (patch : TenantPatch)
  | putBranding (key : String) (request : BrandingRequest)
  | putBrandingLogo (key declared : String) (bytes : List UInt8)
  | deleteBrandingLogo (key : String)
deriving DecidableEq, Repr

/-- The step that a request is about to do.  It is done with a refusal or without. -/
inductive FieldsPhase
  | begin
  | row (tenant : String)
  | read (tenant : String)
  | writeTenant (read row : Tenant)
  | writeBranding (tenant : String) (now : Nat) (read : Option Branding) (row : Branding)
  | done (refusal : Option ApiError)
deriving DecidableEq, Repr

/-- A request of an administrator, and the tenants that it keeps from being removed.  The last is
not in the code: the incarnation of the tenant that the request was accepted for. -/
structure FieldsCall where
  id : Nat
  request : FieldsRequest
  identity : AdminIdentity
  phase : FieldsPhase
  held : List String
  incarnation : Option String
deriving DecidableEq, Repr

/-- The rows of `tenants` and `branding`. -/
structure FieldsDb where
  tenants : Table Tenant.key
  branding : Table Branding.tenant

/-- What happened to the rows. -/
inductive FieldsEvent
  | created (tenant : Tenant)
  | removed (key : String)
  | accepted (id : Nat) (request : FieldsRequest) (tenant : String) (now : Nat)
deriving DecidableEq, Repr

/-- The rows, the tenants that are being removed, the time and the requests.  The last is not in the
code: what happened to the rows, the latest first. -/
structure FieldsWorld where
  db : FieldsDb
  pinned : List String
  now : Nat
  calls : Table FieldsCall.id
  log : List FieldsEvent

/-! ### The steps of a request -/

/-- The request ends. -/
def FieldsCall.ends (t : FieldsCall) (refusal : Option ApiError) : FieldsCall :=
  { t with phase := .done refusal, held := [] }

/-- `admit_tenant_ref`. -/
def admitTenantRef (env : FieldsEnv) (key : String) : Except ApiError String :=
  match env.admitDest key with
  | .error message => .error ⟨422, message⟩
  | .ok key =>
      if key = "" ∨ key = "default" then .error ⟨422, "that tenant key is reserved"⟩ else .ok key

/-- The identity has the role of an administrator in the tenant. -/
def AdminIdentity.administers (identity : AdminIdentity) (tenant : String) : Bool :=
  identity.grants.any fun grant => grant.role = "admin" ∧ grant.tenant = tenant

/-- The checks of `require_operator_write` and the first ones of `branding_tenant`. -/
def brandingTenant (env : FieldsEnv) (identity : AdminIdentity) (key : String) :
    Except ApiError String := do
  Fallible.require (identity.role ≠ "auditor") ⟨403, "audit-only session"⟩
  Fallible.require (identity.role = "admin") ⟨403, "read-only session"⟩
  let tenant ← if key = "default" then .ok "" else admitTenantRef env key
  Fallible.require
    (if identity.tenant = "" then identity.administers ""
      else tenant = identity.tenant ∧ identity.administers tenant)
    ⟨403, "no admin access to that tenant"⟩
  return tenant

/-- The end of `branding_tenant`: the identity was given access to this incarnation. -/
def grantedTenant (identity : AdminIdentity) (current : Tenant) : Bool :=
  identity.subject = "local" || identity.administers ""
    || identity.grants.any fun grant => grant.tenant = current.key ∧ grant.role = "admin"
      ∧ grant.incarnation = some current.incarnation

/-- The key that a request names. -/
def FieldsRequest.key : FieldsRequest → String
  | .updateTenant key _ | .putBranding key _ | .putBrandingLogo key _ _
  | .deleteBrandingLogo key => key

/-- The row of `branding` that a request wants, computed from the one that it has read. -/
def FieldsRequest.wanted (env : FieldsEnv) (request : FieldsRequest) (tenant : String) (now : Nat)
    (row : Option Branding) : Except ApiError Branding :=
  match request with
  | .putBranding _ request => request.apply env tenant now row
  | .putBrandingLogo _ declared bytes =>
      (admitLogoBody declared bytes).map fun ext => putLogo tenant ext now row
  | .deleteBrandingLogo _ => deleteLogo now row
  | .updateTenant _ _ => .error ⟨404, "not found"⟩

/-- The steps of `update_tenant`. -/
def updateTenantStep (w : FieldsWorld) (t : FieldsCall) (key : String) (patch : TenantPatch) :
    Option (FieldsWorld × FieldsCall) :=
  match t.phase with
  | .begin =>
      if t.identity.tenant ≠ "" ∨ t.identity.role ≠ "admin" then
        some (w, t.ends (some ⟨403, "default-tenant admin required"⟩))
      else some (w, { t with phase := .read key })
  | .read key =>
      match w.db.tenants.find? key with
      | none => some (w, t.ends (some ⟨404, "not found"⟩))
      | some tenant =>
          match patch.apply tenant with
          | .error refusal => some (w, t.ends (some refusal))
          | .ok row =>
              some (w, { t with
                phase := .writeTenant tenant row, incarnation := some tenant.incarnation })
  | .writeTenant _ row =>
      match w.db.tenants.find? row.key with
      | none => some (w, t.ends (some ⟨404, "not found"⟩))
      | some current =>
          some ({ w with
              db := { w.db with tenants := w.db.tenants.upsert (current.withColumns row) }
              log := .accepted t.id t.request row.key w.now :: w.log },
            t.ends none)
  | _ => none

/-- The steps of the requests about branding. -/
def brandingStep (env : FieldsEnv) (w : FieldsWorld) (t : FieldsCall) :
    Option (FieldsWorld × FieldsCall) :=
  match t.phase with
  | .begin =>
      match brandingTenant env t.identity t.request.key with
      | .error refusal => some (w, t.ends (some refusal))
      | .ok tenant =>
          if tenant ∈ w.pinned then
            some (w, t.ends (some ⟨409, "tenant deletion is in progress"⟩))
          else some (w, { t with phase := .row tenant, held := [tenant] })
  | .row tenant =>
      if tenant = "" then some (w, { t with phase := .read tenant })
      else
        match w.db.tenants.find? tenant with
        | none => some (w, t.ends (some ⟨404, "not found"⟩))
        | some current =>
            if grantedTenant t.identity current then
              some (w, { t with
                phase := .read tenant, incarnation := some current.incarnation })
            else some (w, t.ends (some ⟨401, "not signed in"⟩))
  | .read tenant =>
      match t.request.wanted env tenant w.now (w.db.branding.find? tenant) with
      | .error refusal => some (w, t.ends (some refusal))
      | .ok row =>
          some (w, { t with
            phase := .writeBranding tenant w.now (w.db.branding.find? tenant) row })
  | .writeBranding tenant now _ row =>
      some ({ w with
          db := { w.db with branding := w.db.branding.upsert row }
          log := .accepted t.id t.request tenant now :: w.log },
        t.ends none)
  | _ => none

/-- One step of a request. -/
def fieldsStep (env : FieldsEnv) (w : FieldsWorld) (t : FieldsCall) :
    Option (FieldsWorld × FieldsCall) :=
  match t.request with
  | .updateTenant key patch => updateTenantStep w t key patch
  | _ => brandingStep env w t

/-! ### All requests -/

/-- What happens: a request comes, goes on or fails; a tenant is made, or removed in three steps;
time passes. -/
inductive FieldsOp
  | call (id : Nat) (identity : AdminIdentity) (request : FieldsRequest)
  | advance (id : Nat)
  | fail (id : Nat) (refusal : ApiError)
  | createTenant (tenant : Tenant)
  | pin (key : String)
  | removeTenant (key : String)
  | unpin (key : String)
  | wait (secs : Nat)

/-- One step. -/
def FieldsWorld.step (env : FieldsEnv) (w : FieldsWorld) : FieldsOp → Option FieldsWorld
  | .call id identity request =>
      (w.calls.insert? ⟨id, request, identity, .begin, [], none⟩).map fun calls => { w with calls }
  | .advance id =>
      (w.calls.find? id).bind fun t => (fieldsStep env w t).map fun result =>
        { result.1 with calls := w.calls.upsert result.2 }
  | .fail id refusal =>
      (w.calls.find? id).bind fun t =>
        match t.phase with
        | .done _ => none
        | _ => some { w with calls := w.calls.upsert (t.ends (some refusal)) }
  | .createTenant tenant =>
      if tenant.key = "" then none
      else (w.db.tenants.insert? tenant.stored).map fun tenants =>
        { w with db := { w.db with tenants }, log := .created tenant.stored :: w.log }
  | .pin key =>
      if key = "" ∨ key ∈ w.pinned then none else some { w with pinned := key :: w.pinned }
  | .removeTenant key =>
      if key ∉ w.pinned ∨ w.calls.rows.any fun t => key ∈ t.held then none
      else
        some { w with
          db := { tenants := w.db.tenants.erase key, branding := w.db.branding.erase key }
          log := .removed key :: w.log }
  | .unpin key => some { w with pinned := w.pinned.filter (· ≠ key) }
  | .wait secs => some { w with now := w.now + secs }

/-! ### One after another -/

/-- The normal form of a URL. -/
def normalUrl (env : FieldsEnv) (url : String) : String :=
  if trim url = "" then "" else ((env.parseUrl (trim url)).map ParsedUrl.text).getD (trim url)

/-- A request on the row of a tenant sets the fields that it carries, as they are stored. -/
def TenantPatch.set (patch : TenantPatch) (tenant : Tenant) : Tenant :=
  { tenant with
    label := (patch.label.map trim).getD tenant.label
    adminGroup := (patch.adminGroup.map fun group =>
      (group.filter fun value => !trimIsEmpty value).map trim).getD tenant.adminGroup
    maxTotalBytes := patch.maxTotalBytes.getD tenant.maxTotalBytes
    maxLinks := patch.maxLinks.getD tenant.maxLinks
    maxSessions := patch.maxSessions.getD tenant.maxSessions
    retentionDays := (patch.retentionDays.map fun days => days.map storedDays).getD
      tenant.retentionDays }

/-- A request about branding sets the fields that it carries, and when that was. -/
def FieldsRequest.setBranding (env : FieldsEnv) (request : FieldsRequest) (tenant : String)
    (now : Nat) (row : Branding) : Branding :=
  match request with
  | .putBranding _ request =>
      { row with
        tenant, name := trim request.name, color := request.color
        footerText := (request.footerText.map trim).getD row.footerText
        footerLinkLabel := (request.footerLinkLabel.map trim).getD row.footerLinkLabel
        footerLinkUrl := (request.footerLinkUrl.map (normalUrl env)).getD row.footerLinkUrl
        updatedAt := now }
  | .putBrandingLogo _ declared bytes =>
      match admitLogoBody declared bytes with
      | .ok ext => { row with tenant, logoExt := ext, updatedAt := now }
      | .error _ => row
  | .deleteBrandingLogo _ => { row with tenant, logoExt := "", updatedAt := now }
  | .updateTenant _ _ => row

/-- The rows after something happened to them. -/
def FieldsEvent.replay (env : FieldsEnv) (event : FieldsEvent) (db : FieldsDb) : FieldsDb :=
  match event with
  | .created tenant => { db with tenants := db.tenants.upsert tenant }
  | .removed key => { tenants := db.tenants.erase key, branding := db.branding.erase key }
  | .accepted _ (.updateTenant _ patch) tenant _ =>
      match db.tenants.find? tenant with
      | none => db
      | some row => { db with tenants := db.tenants.upsert (patch.set row) }
  | .accepted _ request tenant now =>
      { db with
        branding := db.branding.upsert
          (request.setBranding env tenant now ((db.branding.find? tenant).getD .empty)) }

/-- The rows after all that happened, one after another. -/
def replay (env : FieldsEnv) (log : List FieldsEvent) (db : FieldsDb) : FieldsDb :=
  log.foldr (FieldsEvent.replay env) db

end Votport.Admin
