import Votport.Admin.Logins

/-!
# What a step of a call does

All that one step of a call of an administrator can do, with what was checked before.
-/

namespace Votport.Admin

variable {env : AdminEnv} {w w' : AdminWorld} {t t' : AdminCall} {fresh : String}

/-- All that a step of a call does. -/
inductive AdminCall.Goes (env : AdminEnv) (w : AdminWorld) (t : AdminCall) :
    AdminWorld → AdminCall → Prop
  /-- It ends; the principal may have been looked up. -/
  | ends (principals : Principals) (accepted : Bool)
      (haccepted : accepted = true → ∃ cookie identity resolved expires, t.request = .use cookie
        ∧ t.phase = .grants ∧ t.session = some (identity, expires)
        ∧ identity.resolve w.tenants = some resolved) :
      Goes env w t { w with principals } (t.ends accepted)
  /-- The tenants are looked through for the groups of a principal. -/
  | groups (subject role : String) (groups : List String) (provisioning : Bool)
      (hrequest : t.request = .ssoLogin subject role groups provisioning)
      (hsubject : subject ≠ "local") :
      Goes env w t w
        { t with
          phase := .ssoPrincipal (ssoGrants w.tenants.rows role groups)
          presented := none, seen := w.epoch }
  /-- The principal has signed in. -/
  | signs (subject role : String) (groups : List String) (provisioning : Bool)
      (grants : List TenantGrant) (principals : Principals) (version : Nat)
      (hrequest : t.request = .ssoLogin subject role groups provisioning)
      (hphase : t.phase = .ssoPrincipal grants) :
      Goes env w t { w with principals }
        { t with phase := .issue ⟨subject, "", role, grants, version⟩ none }
  /-- The cookie is verified. -/
  | verifies (cookie : AdminCookie) (hcookie : t.request.cookie? = some cookie)
      (hversion : cookie.version = adminTokenPhc env w) (hexpires : w.now < cookie.expires) :
      Goes env w t w
        { t with
          phase := .principal, session := some (cookie.identity, cookie.expires)
          presented := cookie.presented, seen := w.epoch, straddled := cookie.straddled }
  /-- The principal is allowed. -/
  | allows (hphase : t.phase = .principal) : Goes env w t w { t with phase := .operation }
  /-- The tenant is kept from being removed. -/
  | holds (identity : AdminIdentity) (expires : Nat) (hphase : t.phase = .operation)
      (hsession : t.session = some (identity, expires)) :
      Goes env w t w { t with phase := .grants, held := identity.tenant :: t.held }
  /-- The first of two checks is over. -/
  | rechecks (cookie : AdminCookie) (current new : String) (identity resolved : AdminIdentity)
      (expires : Nat) (hrequest : t.request = .changePassword cookie current new)
      (hphase : t.phase = .grants) (hsession : t.session = some (identity, expires))
      (hresolve : identity.resolve w.tenants = some resolved) :
      Goes env w t w { t with phase := .verify, first := some resolved }
  /-- Both checks are over. -/
  | admits (cookie : AdminCookie) (current new : String) (first : AdminIdentity)
      (identity : AdminIdentity) (expires : Nat)
      (hrequest : t.request = .changePassword cookie current new) (hphase : t.phase = .grants)
      (hfirst : t.first = some first) (hsession : t.session = some (identity, expires)) :
      Goes env w t w
        { t with phase := .hash, session := some (first, expires), held := t.held.drop 1 }
  /-- The check before a switch is over. -/
  | switches (cookie : AdminCookie) (tenant : String) (identity resolved : AdminIdentity)
      (expires : Nat) (hrequest : t.request = .switchTenant cookie tenant)
      (hphase : t.phase = .grants) (hsession : t.session = some (identity, expires))
      (hresolve : identity.resolve w.tenants = some resolved) :
      Goes env w t w { t with phase := .target, session := some (resolved, expires) }
  /-- The tenant to switch to is kept from being removed. -/
  | targets (cookie : AdminCookie) (tenant : String) (identity : AdminIdentity) (expires : Nat)
      (grant : TenantGrant) (hrequest : t.request = .switchTenant cookie tenant)
      (hphase : t.phase = .target) (hsession : t.session = some (identity, expires))
      (hgrant : grant ∈ identity.grants) :
      Goes env w t w { t with phase := .row grant, held := grant.tenant :: t.held }
  /-- The tenant to switch to is there. -/
  | rows (cookie : AdminCookie) (tenant : String) (identity : AdminIdentity) (expires : Nat)
      (grant : TenantGrant) (hrequest : t.request = .switchTenant cookie tenant)
      (hphase : t.phase = .row grant) (hsession : t.session = some (identity, expires))
      (hrow : grant.tenant ≠ "" → ∃ row, w.tenants.find? grant.tenant = some row
        ∧ grant.incarnation = some row.incarnation) :
      Goes env w t w { t with phase := .issue (switched identity grant) (some expires) }
  /-- A login reads the hash. -/
  | reads (password hash : String) (hrequest : t.request = .login password) :
      Goes env w t w
        { t with phase := .password hash, presented := some w.epoch, seen := w.epoch }
  /-- The hash is read that the current password is checked against. -/
  | rereads (cookie : AdminCookie) (current new hash : String)
      (hrequest : t.request = .changePassword cookie current new) :
      Goes env w t w
        { t with
          phase := .password hash, presented := some w.epoch, seen := w.epoch, straddled := false }
  /-- The password is right. -/
  | logs (password : String) (hrequest : t.request = .login password) :
      Goes env w t w { t with phase := .issue .localAdmin none }
  /-- The current password is right. -/
  | agrees (cookie : AdminCookie) (current new : String)
      (hrequest : t.request = .changePassword cookie current new) :
      Goes env w t w { t with phase := .commit }
  /-- The password is changed. -/
  | commits (cookie : AdminCookie) (current new fresh : String) (identity : AdminIdentity)
      (expires : Nat) (hrequest : t.request = .changePassword cookie current new)
      (hsession : t.session = some (identity, expires)) (hfresh : fresh ∉ w.versions) :
      Goes env w t
        { w with
          passwordHash := some fresh, epoch := w.epoch + 1, versions := fresh :: w.versions }
        { t with
          phase := .issue (reissued identity expires).1 (reissued identity expires).2
          presented := if identity.subject = "local" then some (w.epoch + 1) else none
          seen := w.epoch + 1
          straddled := decide (t.seen ≠ w.epoch) }
  /-- A cookie is issued. -/
  | issues (identity : AdminIdentity) (expiresAt : Option Nat) (cookie : AdminCookie)
      (hphase : t.phase = .issue identity expiresAt)
      (hcookie : issueAdminCookie env w t identity expiresAt = some cookie) :
      Goes env w t { w with cookies := cookie :: w.cookies } (t.ends true)

theorem AdminCall.Goes.refuses : t.Goes env w w (t.ends false) := .ends w.principals false nofun

theorem ssoStep_goes
    {subject role : String} {groups : List String} {provisioning : Bool}
    (hrequest : t.request = .ssoLogin subject role groups provisioning)
    (h : ssoStep env w t subject role groups provisioning = some (w', t')) :
  t.Goes env w w' t'
  := by
  unfold ssoStep at h
  split at h
  · split_ifs at h with hlocal
    · cases h
      exact .refuses
    · cases h
      exact .refuses
    · cases h
      exact .groups subject role groups provisioning hrequest hlocal
  · next grants hphase =>
      dsimp only at h
      split_ifs at h
      · cases h
        exact .ends _ false nofun
      · cases h
        exact .signs subject role groups provisioning grants _ _ hrequest hphase
  · cases h

theorem verifyAdminToken_eq_some
    {cookie : AdminCookie} {session : AdminIdentity × Nat}
    (h : verifyAdminToken env w cookie = some session) :
  session = (cookie.identity, cookie.expires) ∧ cookie.version = adminTokenPhc env w
    ∧ w.now < cookie.expires
  := by
  rw [verifyAdminToken] at h
  split_ifs at h with hexpires hversion
  cases h
  exact ⟨rfl, not_not.mp hversion, Nat.lt_of_not_le hexpires⟩

theorem checked_goes
    {identity resolved : AdminIdentity} {expires : Nat} (hphase : t.phase = .grants)
    (hsession : t.session = some (identity, expires))
    (hresolve : identity.resolve w.tenants = some resolved) :
  t.Goes env w w (t.checked env resolved expires)
  := by
  rw [AdminCall.checked]
  split
  · next cookie hrequest =>
      exact .ends w.principals true
        fun _ => ⟨cookie, identity, resolved, expires, hrequest, hphase, hsession, hresolve⟩
  · next cookie tenant hrequest =>
      exact .switches cookie tenant identity resolved expires hrequest hphase hsession hresolve
  · next cookie current new hrequest =>
      split
      · split_ifs
        · exact .refuses
        · exact .rechecks cookie current new identity resolved expires hrequest hphase hsession
            hresolve
      · next first hfirst =>
          split_ifs
          · exact .refuses
          · exact .refuses
          · exact .admits cookie current new first identity expires hrequest hphase hfirst hsession
  · exact .refuses
  · exact .refuses

theorem sessionStep_goes
    {cookie : AdminCookie} (hcookie : t.request.cookie? = some cookie)
    (h : sessionStep env w t cookie = some (w', t')) :
  t.Goes env w w' t'
  := by
  unfold sessionStep at h
  split at h
  · cases hverify : verifyAdminToken env w cookie with
    | none =>
        rw [hverify] at h
        cases h
        exact .refuses
    | some session =>
        rw [hverify] at h
        cases h
        obtain ⟨rfl, hversion, hexpires⟩ := verifyAdminToken_eq_some hverify
        exact .verifies cookie hcookie hversion hexpires
  · next hphase =>
      split at h
      · cases h
      · split_ifs at h
        · cases h
          exact .refuses
        · cases h
          exact .allows hphase
  · next hphase =>
      split at h
      · cases h
      · next identity expires hsession =>
          split_ifs at h
          · cases h
            exact .refuses
          · cases h
            exact .holds identity expires hphase hsession
  · next hphase =>
      split at h
      · cases h
      · next identity expires hsession =>
          cases hresolve : identity.resolve w.tenants with
          | none =>
              rw [hresolve] at h
              cases h
              exact .refuses
          | some resolved =>
              rw [hresolve] at h
              cases h
              exact checked_goes hphase hsession hresolve
  · cases h

theorem switchStep_goes
    {cookie : AdminCookie} {tenant : String} (hrequest : t.request = .switchTenant cookie tenant)
    (h : switchStep w t tenant = some (w', t')) :
  t.Goes env w w' t'
  := by
  unfold switchStep at h
  split at h
  · next identity expires hphase hsession =>
      cases hgrant : identity.grants.find? (·.tenant = tenant) with
      | none =>
          rw [hgrant] at h
          cases h
          exact .refuses
      | some grant =>
          rw [hgrant] at h
          dsimp only at h
          split_ifs at h
          · cases h
            exact .refuses
          · cases h
            exact .targets cookie tenant identity expires grant hrequest hphase hsession
              (List.mem_of_find?_eq_some hgrant)
  · next grant identity expires hphase hsession =>
      split_ifs at h with htenant
      · cases h
        exact .rows cookie tenant identity expires grant hrequest hphase hsession
          fun hne => absurd htenant hne
      · cases hrow : w.tenants.find? grant.tenant with
        | none =>
            rw [hrow] at h
            cases h
            exact .refuses
        | some row =>
            rw [hrow] at h
            dsimp only at h
            split_ifs at h with hincarnation
            · cases h
              exact .refuses
            · cases h
              exact .rows cookie tenant identity expires grant hrequest hphase hsession
                fun _ => ⟨row, hrow, not_not.mp hincarnation⟩
  · cases h

theorem changeStep_goes
    {cookie : AdminCookie} {current new : String}
    (hrequest : t.request = .changePassword cookie current new)
    (h : changeStep env w t current new fresh = some (w', t')) :
  t.Goes env w w' t'
  := by
  unfold changeStep at h
  split at h
  · cases h
    exact .rereads cookie current new _ hrequest
  · split_ifs at h
    · cases h
      exact .agrees cookie current new hrequest
    · cases h
      exact .refuses
  · next identity expires hphase hsession =>
      by_cases hfresh : fresh ∈ w.versions ∨ env.verifyPassword new fresh = false
      · rw [if_pos hfresh] at h
        cases h
      · rw [if_neg hfresh] at h
        obtain ⟨rfl, rfl⟩ := Prod.mk.inj (Option.some.inj h)
        exact .commits cookie current new fresh identity expires hrequest hsession
          fun hmem => hfresh (.inl hmem)
  · cases h

theorem loginStep_goes
    {password : String} (hrequest : t.request = .login password)
    (h : loginStep env w t password = some (w', t')) :
  t.Goes env w w' t'
  := by
  unfold loginStep at h
  split at h
  · cases h
    exact .reads password _ hrequest
  · split_ifs at h
    · cases h
      exact .logs password hrequest
    · cases h
      exact .refuses
  · cases h

/-- What a step of a call does. -/
theorem goStep_goes (h : goStep env w t fresh = some (w', t')) : t.Goes env w w' t' := by
  unfold goStep at h
  split at h
  · cases h
  · next identity expiresAt hphase =>
      rw [issueStep] at h
      cases hcookie : issueAdminCookie env w t identity expiresAt with
      | none =>
          rw [hcookie] at h
          cases h
          exact .refuses
      | some cookie =>
          rw [hcookie] at h
          cases h
          exact .issues identity expiresAt cookie hphase hcookie
  · obtain ⟨cookie, hcookie, h⟩ := Option.bind_eq_some_iff.mp h
    exact sessionStep_goes hcookie h
  · obtain ⟨cookie, hcookie, h⟩ := Option.bind_eq_some_iff.mp h
    exact sessionStep_goes hcookie h
  · obtain ⟨cookie, hcookie, h⟩ := Option.bind_eq_some_iff.mp h
    exact sessionStep_goes hcookie h
  · obtain ⟨cookie, hcookie, h⟩ := Option.bind_eq_some_iff.mp h
    exact sessionStep_goes hcookie h
  · split at h
    · next password hrequest => exact loginStep_goes hrequest h
    · next subject role groups provisioning hrequest => exact ssoStep_goes hrequest h
    · next cookie tenant hrequest => exact switchStep_goes hrequest h
    · next cookie current new hrequest => exact changeStep_goes hrequest h
    · cases h

end Votport.Admin
