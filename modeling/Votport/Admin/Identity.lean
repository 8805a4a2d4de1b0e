import Votport.Foundation.Runs
import Votport.Store.Principals

/-!
# Who a session of an administrator stands for

A cookie carries an identity: who, in which tenant and with which role, and the tenants that it may
switch to.  It is bound to the version of the credential by a MAC.  The grants of the local
administrator are taken from the tenants that there are; those of the others are in the cookie, with
the incarnation of the tenant that they were given for.
-/

namespace Votport.Admin

/-- One tenant that a principal may act in, with its role. -/
structure TenantGrant where
  incarnation : Option String
  tenant : String
  role : String
deriving DecidableEq, Repr

/-- The principal that a cookie stands for. -/
structure AdminIdentity where
  subject : String
  tenant : String
  role : String
  grants : List TenantGrant
  credentialVersion : Nat
deriving DecidableEq, Repr

/-- `AdminIdentity::local_admin`. -/
def AdminIdentity.localAdmin : AdminIdentity where
  subject := "local"
  tenant := ""
  role := "admin"
  grants := [⟨none, "", "admin"⟩]
  credentialVersion := 1

/-- A row of `tenants`. -/
structure Tenant where
  key : String
  incarnation : String
  label : String
  adminGroup : Option String
  maxTotalBytes : Option Nat
  maxLinks : Option Nat
  maxSessions : Option Nat
  retentionDays : Option Nat
  createdAt : Nat
deriving DecidableEq, Repr

/-- A tenant without limits. -/
def acme (incarnation : String) : Tenant where
  key := "acme"
  incarnation := incarnation
  label := "Acme"
  adminGroup := none
  maxTotalBytes := none
  maxLinks := none
  maxSessions := none
  retentionDays := none
  createdAt := 0

/-- `local_admin_grants`. -/
def localAdminGrants (tenants : List Tenant) : List TenantGrant :=
  ⟨none, "", "admin"⟩ :: tenants.map fun tenant => ⟨some tenant.incarnation, tenant.key, "admin"⟩

/-- The grant is for the default tenant, or for the tenant that there is. -/
def TenantGrant.live (tenants : Table Tenant.key) (grant : TenantGrant) : Bool :=
  if grant.tenant = "" then grant.incarnation = none
  else
    match grant.incarnation, tenants.find? grant.tenant with
    | some generation, some tenant => tenant.incarnation = generation
    | _, _ => false

/-- The grants that an identity has among the tenants that there are. -/
def AdminIdentity.liveGrants (tenants : Table Tenant.key) (identity : AdminIdentity) :
    List TenantGrant :=
  if identity.subject = "local" then localAdminGrants tenants.rows
  else identity.grants.filter (TenantGrant.live tenants)

/-- The end of `require_admin_session`: the identity with its live grants, none when it has none for
the tenant and role that it acts in.  The local administrator acts in the default tenant then. -/
def AdminIdentity.resolve (tenants : Table Tenant.key) (identity : AdminIdentity) :
    Option AdminIdentity :=
  let grants := identity.liveGrants tenants
  if identity.subject = "local" then
    if grants.any (·.tenant = identity.tenant) then some { identity with grants }
    else some { identity with grants, tenant := "", role := "admin" }
  else if grants.any fun grant => grant.tenant = identity.tenant ∧ grant.role = identity.role then
    some { identity with grants }
  else none

/-- The grants of `finish_sso_login`. -/
def ssoGrants (tenants : List Tenant) (role : String) (groups : List String) : List TenantGrant :=
  ⟨none, "", role⟩ :: tenants.filterMap fun tenant =>
    match tenant.adminGroup with
    | none => none
    | some required =>
        if required ∈ groups then some ⟨some tenant.incarnation, tenant.key, "admin"⟩ else none

/-- A cookie.  The last three are not in the code: at which change of the password its login
presented the password, none for a principal that signed in elsewhere; at which change it was
issued; and whether the password was changed between a check that led to it and its issue. -/
structure AdminCookie where
  identity : AdminIdentity
  version : String
  expires : Nat
  presented : Option Nat
  issued : Nat
  straddled : Bool
deriving DecidableEq, Repr

/-- What the code takes from elsewhere: the check of a password against a hash, the hash and the tag
of the password that the environment sets, the least length of a new password, the names of
principals, and how an identity is written into a cookie and a row. -/
structure AdminEnv where
  verifyPassword : String → String → Bool
  adminPasswordHash : String
  adminTokenTag : String
  minAdminPasswordChars : Nat
  keys : SubjectKeys
  fits : AdminIdentity → Bool
  groupsJson : List String → String
  grantsJson : List TenantGrant → String

/-! ### Live grants -/

section Live

variable {tenants : Table Tenant.key} {identity resolved : AdminIdentity} {grant : TenantGrant}

theorem TenantGrant.live_iff :
  grant.live tenants = true
    ↔ grant.tenant = "" ∧ grant.incarnation = none
      ∨ grant.tenant ≠ "" ∧ ∃ row, tenants.find? grant.tenant = some row
        ∧ grant.incarnation = some row.incarnation
  := by
  rw [live]
  split_ifs with htenant
  · simp [htenant]
  · cases hgrant : grant.incarnation <;> cases hrow : tenants.find? grant.tenant <;>
      simp [htenant, eq_comm]

/-- The live grants of the local administrator: the default tenant and every tenant. -/
theorem mem_localAdminGrants :
  grant ∈ localAdminGrants tenants.rows
    ↔ grant = ⟨none, "", "admin"⟩
      ∨ ∃ row, tenants.find? grant.tenant = some row
        ∧ grant.incarnation = some row.incarnation ∧ grant.role = "admin"
  := by
  rw [localAdminGrants, List.mem_cons, List.mem_map]
  apply or_congr_right
  constructor
  · rintro ⟨row, hrow, rfl⟩
    exact ⟨row, Table.find?_key hrow, rfl, rfl⟩
  · rintro ⟨row, hrow, hincarnation, hrole⟩
    obtain ⟨hmem, hkey⟩ := Table.find?_eq_some.mp hrow
    refine ⟨row, hmem, ?_⟩
    obtain ⟨incarnation, tenant, role⟩ := grant
    cases hkey
    cases hincarnation
    cases hrole
    rfl

/-- What resolving an identity keeps, and that it acts in a tenant with a role that it has. -/
theorem AdminIdentity.resolve_eq_some (h : identity.resolve tenants = some resolved) :
  resolved.subject = identity.subject
  ∧ resolved.credentialVersion = identity.credentialVersion
  ∧ resolved.grants = identity.liveGrants tenants
  ∧ (identity.subject ≠ "local" → resolved.tenant = identity.tenant
    ∧ resolved.role = identity.role ∧ ∃ grant ∈ identity.liveGrants tenants,
      grant.tenant = identity.tenant ∧ grant.role = identity.role)
  := by
  rw [resolve] at h
  split_ifs at h with hlocal htenant hgrant
  · cases h
    exact ⟨rfl, rfl, rfl, fun hne => absurd hlocal hne⟩
  · cases h
    exact ⟨rfl, rfl, rfl, fun hne => absurd hlocal hne⟩
  · cases h
    obtain ⟨grant, hmem, hboth⟩ := List.any_eq_true.mp hgrant
    obtain ⟨htenant, hrole⟩ := of_decide_eq_true hboth
    exact ⟨rfl, rfl, rfl, fun _ => ⟨rfl, rfl, grant, hmem, htenant, hrole⟩⟩

/-- A principal that signs in elsewhere has one grant at most for each tenant. -/
theorem ssoGrants_nodup (hkeys : ∀ row ∈ tenants.rows, row.key ≠ "") (role : String)
    (groups : List String) :
  ((ssoGrants tenants.rows role groups).map TenantGrant.tenant).Nodup
  := by
  have hsub : ((tenants.rows.filterMap fun tenant =>
      match tenant.adminGroup with
      | none => none
      | some required =>
          if required ∈ groups then
            some (⟨some tenant.incarnation, tenant.key, "admin"⟩ : TenantGrant) else none).map
        TenantGrant.tenant).Sublist (tenants.rows.map Tenant.key) := by
    induction tenants.rows with
    | nil => exact List.Sublist.slnil
    | cons row rows ih =>
        rw [List.filterMap_cons]
        cases row.adminGroup with
        | none => exact ih.cons _
        | some required =>
            dsimp only
            split_ifs with hmem
            · exact ih.cons_cons _
            · exact ih.cons _
  rw [ssoGrants, List.map_cons, List.nodup_cons]
  refine ⟨?_, hsub.nodup tenants.nodup⟩
  intro hmem
  obtain ⟨row, hrow, hkey⟩ := List.mem_map.mp (hsub.subset hmem)
  exact hkeys row hrow hkey

end Live

end Votport.Admin
