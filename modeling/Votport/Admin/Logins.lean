import Votport.Admin.Identity

/-!
# Logins, changes of the password and switches of the tenant

A login reads the hash of the password, takes its time to check the password against it, and issues
a cookie with the version of the credential that there is then.  Who has a cookie uses it, switches
the tenant or changes the password: the cookie is verified, the principal looked up, the tenant kept
from being removed, and the grants are taken from the tenants that there are.  The model takes any
number of such calls step by step, while tenants are made and removed.
-/

namespace Votport.Admin

/-- What a client asks for. -/
inductive AdminRequest
  | login (password : String)
  | ssoLogin (subject role : String) (groups : List String) (requireProvisioning : Bool)
  | use (cookie : AdminCookie)
  | switchTenant (cookie : AdminCookie) (tenant : String)
  | changePassword (cookie : AdminCookie) (current new : String)
deriving DecidableEq, Repr

/-- The step that a call is about to do. -/
inductive AdminPhase
  | ssoGrants
  | ssoPrincipal (grants : List TenantGrant)
  | verify
  | principal
  | operation
  | grants
  | target
  | row (grant : TenantGrant)
  | hash
  | password (hash : String)
  | commit
  | issue (identity : AdminIdentity) (expiresAt : Option Nat)
  | done (accepted : Bool)
deriving DecidableEq, Repr

/-- A call with what it has read: the session, the identity of the first of two checks, and the
tenants that it keeps from being removed.  The last three are not in the code: at which change the
password was presented that led to it, at which it last read what it verified, and whether there was
a change between a check and what was done on it. -/
structure AdminCall where
  id : Nat
  request : AdminRequest
  phase : AdminPhase
  session : Option (AdminIdentity × Nat)
  first : Option AdminIdentity
  held : List String
  presented : Option Nat
  seen : Nat
  straddled : Bool
deriving DecidableEq, Repr

/-- The stored hash, the tenants and the ones that are being removed, the principals, how long a
session lasts, the time, the calls and the cookies that were issued.  The last two are not in the
code: how often the password was changed, and the versions that the credential had. -/
structure AdminWorld where
  passwordHash : Option String
  tenants : Table Tenant.key
  pinned : List String
  principals : Principals
  ssoSessionSecs : Nat
  now : Nat
  calls : Table AdminCall.id
  cookies : List AdminCookie
  epoch : Nat
  versions : List String

/-- The largest number of 64 bits. -/
def maxSecs : Nat := 2 ^ 64 - 1

/-! ### The parts of the calls -/

/-- `admin_hash`. -/
def adminHash (env : AdminEnv) (w : AdminWorld) : String :=
  w.passwordHash.getD env.adminPasswordHash

/-- `admin_token_phc`. -/
def adminTokenPhc (env : AdminEnv) (w : AdminWorld) : String :=
  w.passwordHash.getD env.adminTokenTag

/-- `verify_admin_token`, for a cookie that was issued. -/
def verifyAdminToken (env : AdminEnv) (w : AdminWorld) (cookie : AdminCookie) :
    Option (AdminIdentity × Nat) :=
  if w.now ≥ cookie.expires then none
  else if cookie.version ≠ adminTokenPhc env w then none
  else some (cookie.identity, cookie.expires)

/-- When a cookie ends that `issue_admin_cookie` issues. -/
def cookieExpires (w : AdminWorld) (identity : AdminIdentity) (expiresAt : Option Nat) : Nat :=
  let ttl := if identity.subject = "local" then 7 * 24 * 3600 else w.ssoSessionSecs
  min (expiresAt.getD maxSecs) (min (w.now + ttl) maxSecs)

/-- `issue_admin_cookie` for a call, none when the cookie is too long. -/
def issueAdminCookie (env : AdminEnv) (w : AdminWorld) (t : AdminCall) (identity : AdminIdentity)
    (expiresAt : Option Nat) : Option AdminCookie :=
  if env.fits identity then
    some {
      identity
      version := adminTokenPhc env w
      expires := cookieExpires w identity expiresAt
      presented := t.presented
      issued := w.epoch
      straddled := t.straddled || decide (t.seen ≠ w.epoch) }
  else none

/-- The cookie that a request comes with. -/
def AdminRequest.cookie? : AdminRequest → Option AdminCookie
  | .login _ | .ssoLogin _ _ _ _ => none
  | .use cookie | .switchTenant cookie _ | .changePassword cookie _ _ => some cookie

/-- The call ends. -/
def AdminCall.ends (t : AdminCall) (accepted : Bool) : AdminCall :=
  { t with phase := .done accepted, held := [] }

/-- What a call does when the check of its session is over. -/
def AdminCall.checked (env : AdminEnv) (t : AdminCall) (identity : AdminIdentity) (expires : Nat) :
    AdminCall :=
  match t.request with
  | .use _ => t.ends true
  | .switchTenant _ _ => { t with phase := .target, session := some (identity, expires) }
  | .changePassword _ _ new =>
      match t.first with
      | none =>
          if identity.role ≠ "admin" then t.ends false
          else { t with phase := .verify, first := some identity }
      | some first =>
          if first.tenant ≠ "" ∨ first.role ≠ "admin" then t.ends false
          else if new.length < env.minAdminPasswordChars then t.ends false
          else
            { t with phase := .hash, session := some (first, expires), held := t.held.drop 1 }
  | .login _ | .ssoLogin _ _ _ _ => t.ends false

/-- The identity that `switch_tenant` issues a cookie for. -/
def switched (identity : AdminIdentity) (grant : TenantGrant) : AdminIdentity where
  subject := identity.subject
  tenant := grant.tenant
  role := grant.role
  grants := if identity.subject = "local" then [] else identity.grants
  credentialVersion := identity.credentialVersion

/-- The identity that `admin_change_password` issues a cookie for, and when that ends. -/
def reissued (identity : AdminIdentity) (expires : Nat) : AdminIdentity × Option Nat :=
  if identity.subject = "local" then (.localAdmin, none) else (identity, some expires)

/-! ### The steps of a call -/

/-- The steps of `finish_sso_login`. -/
def ssoStep (env : AdminEnv) (w : AdminWorld) (t : AdminCall) (subject role : String)
    (groups : List String) (requireProvisioning : Bool) : Option (AdminWorld × AdminCall) :=
  match t.phase with
  | .ssoGrants =>
      if subject = "local" then some (w, t.ends false)
      else if requireProvisioning ∧ (principal w.principals subject).isNone then
        some (w, t.ends false)
      else
        some (w, { t with
          phase := .ssoPrincipal (ssoGrants w.tenants.rows role groups)
          presented := none, seen := w.epoch })
  | .ssoPrincipal grants =>
      let (row, principals) := upsertSsoPrincipal env.keys w.principals subject
        (env.groupsJson groups) (env.grantsJson grants) w.now
      if row.blocked then some ({ w with principals }, t.ends false)
      else
        some ({ w with principals },
          { t with
            phase := .issue
              { subject, tenant := "", role, grants, credentialVersion := row.credentialVersion }
              none })
  | _ => none

/-- The steps of `require_admin_session`. -/
def sessionStep (env : AdminEnv) (w : AdminWorld) (t : AdminCall) (cookie : AdminCookie) :
    Option (AdminWorld × AdminCall) :=
  match t.phase with
  | .verify =>
      match verifyAdminToken env w cookie with
      | none => some (w, t.ends false)
      | some session =>
          some (w, { t with
            phase := .principal, session := some session, presented := cookie.presented
            seen := w.epoch, straddled := cookie.straddled })
  | .principal =>
      match t.session with
      | none => none
      | some (identity, _) =>
          if identity.subject ≠ "local"
              ∧ principalAllows env.keys w.principals identity.subject identity.credentialVersion
                = false then
            some (w, t.ends false)
          else some (w, { t with phase := .operation })
  | .operation =>
      match t.session with
      | none => none
      | some (identity, _) =>
          if identity.tenant ∈ w.pinned then some (w, t.ends false)
          else some (w, { t with phase := .grants, held := identity.tenant :: t.held })
  | .grants =>
      match t.session with
      | none => none
      | some (identity, expires) =>
          match identity.resolve w.tenants with
          | none => some (w, t.ends false)
          | some identity => some (w, t.checked env identity expires)
  | _ => none

/-- The steps of `switch_tenant` after the check of the session. -/
def switchStep (w : AdminWorld) (t : AdminCall) (tenant : String) :
    Option (AdminWorld × AdminCall) :=
  match t.phase, t.session with
  | .target, some (identity, _) =>
      match identity.grants.find? (·.tenant = tenant) with
      | none => some (w, t.ends false)
      | some grant =>
          if grant.tenant ∈ w.pinned then some (w, t.ends false)
          else some (w, { t with phase := .row grant, held := grant.tenant :: t.held })
  | .row grant, some (identity, expires) =>
      if grant.tenant = "" then
        some (w, { t with phase := .issue (switched identity grant) (some expires) })
      else
        match w.tenants.find? grant.tenant with
        | none => some (w, t.ends false)
        | some current =>
            if grant.incarnation ≠ some current.incarnation then some (w, t.ends false)
            else some (w, { t with phase := .issue (switched identity grant) (some expires) })
  | _, _ => none

/-- The steps of `admin_change_password` after the checks of the session.  The hash of the new
password is salted, and no other one's. -/
def changeStep (env : AdminEnv) (w : AdminWorld) (t : AdminCall) (current new fresh : String) :
    Option (AdminWorld × AdminCall) :=
  match t.phase, t.session with
  | .hash, _ =>
      some (w, { t with
        phase := .password (adminHash env w), presented := some w.epoch, seen := w.epoch
        straddled := false })
  | .password hash, _ =>
      if env.verifyPassword current hash then some (w, { t with phase := .commit })
      else some (w, t.ends false)
  | .commit, some (identity, expires) =>
      if fresh ∈ w.versions ∨ env.verifyPassword new fresh = false then none
      else
        some ({ w with
            passwordHash := some fresh, epoch := w.epoch + 1, versions := fresh :: w.versions },
          { t with
            phase := .issue (reissued identity expires).1 (reissued identity expires).2
            presented := if identity.subject = "local" then some (w.epoch + 1) else none
            seen := w.epoch + 1
            -- The current password was checked against the hash that was read before.
            straddled := decide (t.seen ≠ w.epoch) })
  | _, _ => none

/-- The steps of `admin_login`. -/
def loginStep (env : AdminEnv) (w : AdminWorld) (t : AdminCall) (password : String) :
    Option (AdminWorld × AdminCall) :=
  match t.phase with
  | .hash =>
      some (w, { t with
        phase := .password (adminHash env w), presented := some w.epoch, seen := w.epoch })
  | .password hash =>
      if env.verifyPassword password hash then
        some (w, { t with phase := .issue .localAdmin none })
      else some (w, t.ends false)
  | _ => none

/-- The cookie is issued, and the call is over. -/
def issueStep (env : AdminEnv) (w : AdminWorld) (t : AdminCall) (identity : AdminIdentity)
    (expiresAt : Option Nat) : AdminWorld × AdminCall :=
  match issueAdminCookie env w t identity expiresAt with
  | none => (w, t.ends false)
  | some cookie => ({ w with cookies := cookie :: w.cookies }, t.ends true)

/-- One step of a call; `fresh` is the hash that it computes of a new password. -/
def goStep (env : AdminEnv) (w : AdminWorld) (t : AdminCall) (fresh : String) :
    Option (AdminWorld × AdminCall) :=
  match t.phase with
  | .done _ => none
  | .issue identity expiresAt => some (issueStep env w t identity expiresAt)
  | .verify | .principal | .operation | .grants => t.request.cookie?.bind (sessionStep env w t)
  | _ =>
      match t.request with
      | .login password => loginStep env w t password
      | .ssoLogin subject role groups requireProvisioning =>
          ssoStep env w t subject role groups requireProvisioning
      | .switchTenant _ tenant => switchStep w t tenant
      | .changePassword _ current new => changeStep env w t current new fresh
      | .use _ => none

/-! ### All calls -/

/-- The phase in which a request begins. -/
def AdminRequest.first : AdminRequest → AdminPhase
  | .login _ => .hash
  | .ssoLogin _ _ _ _ => .ssoGrants
  | .use _ | .switchTenant _ _ | .changePassword _ _ _ => .verify

/-- What happens: a call comes with a cookie that was issued, goes on or fails; a tenant is made,
changed or removed, in three steps; a principal, the length of sessions or the time changes. -/
inductive AdminOp
  | call (id : Nat) (request : AdminRequest)
  | advance (id : Nat) (fresh : String)
  | fail (id : Nat)
  | createTenant (tenant : Tenant)
  | updateTenant (key : String) (label : String) (adminGroup : Option String)
  | pin (key : String)
  | removeTenant (key : String)
  | unpin (key : String)
  | principal (op : PrincipalOp)
  | overlay (ssoSessionSecs : Nat)
  | wait (secs : Nat)

/-- One step. -/
def AdminWorld.step (env : AdminEnv) (w : AdminWorld) : AdminOp → Option AdminWorld
  | .call id request =>
      if request.cookie?.all (· ∈ w.cookies) then
        (w.calls.insert? ⟨id, request, request.first, none, none, [], none, w.epoch, false⟩).map
          fun calls => { w with calls }
      else none
  | .advance id fresh =>
      (w.calls.find? id).bind fun t => (goStep env w t fresh).map fun result =>
        { result.1 with calls := w.calls.upsert result.2 }
  | .fail id =>
      (w.calls.find? id).map fun t => { w with calls := w.calls.upsert (t.ends false) }
  | .createTenant tenant =>
      if tenant.key = "" then none
      else (w.tenants.insert? tenant).map fun tenants => { w with tenants }
  | .updateTenant key label adminGroup =>
      some { w with
        tenants := w.tenants.map
          (fun tenant => if tenant.key = key then { tenant with label, adminGroup } else tenant)
          fun tenant => by split_ifs <;> rfl }
  | .pin key =>
      if key = "" ∨ key ∈ w.pinned then none else some { w with pinned := key :: w.pinned }
  | .removeTenant key =>
      if key ∉ w.pinned ∨ w.calls.rows.any fun t => key ∈ t.held then none
      else some { w with tenants := w.tenants.erase key }
  | .unpin key => some { w with pinned := w.pinned.filter (· ≠ key) }
  | .principal op => some { w with principals := w.principals.apply env.keys op }
  | .overlay ssoSessionSecs => some { w with ssoSessionSecs }
  | .wait secs => some { w with now := w.now + secs }

end Votport.Admin
