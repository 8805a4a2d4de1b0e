import Votport.Admin.Steps

/-!
# A change of the password ends the sessions before it

A cookie is bound to the version of the credential that there was when it was issued, so no cookie
is accepted after the next change.  A login checks the password against the hash that it has read,
and issues a cookie with the version that there is then: when the password is changed between, the
new cookie is a session of somebody who presented the old password.

A switch gives what one of the live grants gives, and no more time.  The grants of principals that
sign in elsewhere name the incarnation of the tenant; the local administrator acts in whatever
tenant has the name.
-/

namespace Votport.Admin

variable {env : AdminEnv} {w w' : AdminWorld} {t t' s : AdminCall} {c : AdminCookie}

/-! ### What holds of a call -/

/-- Unless the password was changed in between, what led to the call presented the password that
there was when the call last verified something. -/
def AdminCall.Presents (t : AdminCall) : Prop :=
  t.straddled = false → ∀ epoch, t.presented = some epoch → epoch = t.seen

/-- The identity has the subject of the cookie, and no grants that the cookie has not. -/
def AdminCookie.Gives (c : AdminCookie) (identity : AdminIdentity) : Prop :=
  identity.subject = c.identity.subject
  ∧ (identity.subject ≠ "local" → identity.grants.Sublist c.identity.grants)

/-- What a call has read of its session. -/
structure AdminCall.Sessions (t : AdminCall) : Prop where
  session : ∀ c, t.request.cookie? = some c → ∀ identity expires,
    t.session = some (identity, expires) → expires = c.expires ∧ c.Gives identity
  checking : ∀ c, t.request.cookie? = some c →
    t.phase = .principal ∨ t.phase = .operation ∨ t.phase = .grants →
    t.session = some (c.identity, c.expires)
  first : ∀ c, t.request.cookie? = some c → ∀ identity, t.first = some identity → c.Gives identity

/-- The grant is one that the local administrator has, or one that the cookie has. -/
def AdminCookie.Grants (c : AdminCookie) (grant : TenantGrant) : Prop :=
  (grant.tenant = "" → grant.incarnation = none)
  ∧ if c.identity.subject = "local" then grant.role = "admin" else grant ∈ c.identity.grants

/-- A cookie is about to be issued that a grant gives, for a tenant that is there. -/
structure AdminCall.Switches (w : AdminWorld) (t : AdminCall) (c : AdminCookie)
    (identity : AdminIdentity) (expiresAt : Option Nat) : Prop where
  expires : expiresAt = some c.expires
  gives : c.Gives identity
  grant : ∃ grant, c.Grants grant ∧ identity.tenant = grant.tenant ∧ identity.role = grant.role
    ∧ (grant.tenant ≠ "" → grant.tenant ∈ t.held ∧ ∃ row, w.tenants.find? grant.tenant = some row
      ∧ grant.incarnation = some row.incarnation)

/-- What holds of a call that switches the tenant. -/
structure AdminCall.Switching (w : AdminWorld) (t : AdminCall) : Prop where
  target : ∀ c tenant, t.request = .switchTenant c tenant → t.phase = .target →
    ∀ identity expires, t.session = some (identity, expires) → ∀ grant ∈ identity.grants,
    c.Grants grant
  row : ∀ c tenant, t.request = .switchTenant c tenant → ∀ grant, t.phase = .row grant →
    c.Grants grant ∧ grant.tenant ∈ t.held
  issue : ∀ c tenant, t.request = .switchTenant c tenant → ∀ identity expiresAt,
    t.phase = .issue identity expiresAt → t.Switches w c identity expiresAt

/-- No two of the grants are for one tenant. -/
def OneEach (grants : List TenantGrant) : Prop := (grants.map TenantGrant.tenant).Nodup

/-- A principal that signs in elsewhere gets one grant at most for each tenant. -/
structure AdminCall.Granting (t : AdminCall) : Prop where
  grants : ∀ grants, t.phase = .ssoPrincipal grants → OneEach grants
  issue : ∀ identity expiresAt, t.phase = .issue identity expiresAt →
    identity.subject ≠ "local" → OneEach identity.grants

/-! ### The step of a call -/

section Step

variable (h : t.Goes env w w' t')
include h

theorem AdminCall.Goes.id_eq : t'.id = t.id := by
  cases h <;> rfl

theorem AdminCall.Goes.request_eq : t'.request = t.request := by
  cases h <;> rfl

theorem AdminCall.Goes.tenants_eq : w'.tenants = w.tenants := by
  cases h <;> rfl

theorem AdminCall.Goes.calls_eq : w'.calls = w.calls := by
  cases h <;> rfl

/-- The version of the credential is the same, or the password is changed. -/
theorem AdminCall.Goes.version :
  w'.passwordHash = w.passwordHash ∧ w'.epoch = w.epoch ∧ w'.versions = w.versions
  ∨ ∃ fresh, fresh ∉ w.versions ∧ w'.passwordHash = some fresh ∧ w'.epoch = w.epoch + 1
    ∧ w'.versions = fresh :: w.versions ∧ w'.cookies = w.cookies
  := by
  cases h with
  | commits _ _ _ fresh _ _ _ _ hfresh => exact .inr ⟨fresh, hfresh, rfl, rfl, rfl, rfl⟩
  | _ => exact .inl ⟨rfl, rfl, rfl⟩

/-- A cookie is issued by a call that was about to. -/
theorem AdminCall.Goes.cookies :
  w'.cookies = w.cookies
  ∨ ∃ identity expiresAt cookie, t.phase = .issue identity expiresAt
    ∧ issueAdminCookie env w t identity expiresAt = some cookie
    ∧ w'.cookies = cookie :: w.cookies ∧ w'.epoch = w.epoch ∧ w'.passwordHash = w.passwordHash
    ∧ w'.versions = w.versions
  := by
  cases h with
  | issues identity expiresAt cookie hphase hcookie =>
      exact .inr ⟨identity, expiresAt, cookie, hphase, hcookie, rfl, rfl, rfl, rfl⟩
  | _ => exact .inl rfl

/-- What a call has presented is kept up with its last check. -/
theorem AdminCall.Goes.presents
    (ht : t.Presents) (hcookie : ∀ c, t.request.cookie? = some c →
      c.version = adminTokenPhc env w → c.straddled = false →
      ∀ epoch, c.presented = some epoch → epoch = w.epoch) :
  t'.Presents
  := by
  cases h with
  | groups => exact fun _ _ hpresented => nomatch hpresented
  | verifies cookie hcookie' hversion => exact hcookie cookie hcookie' hversion
  | reads => exact fun _ _ hpresented => (Option.some.inj hpresented).symm
  | rereads => exact fun _ _ hpresented => (Option.some.inj hpresented).symm
  | commits _ _ _ _ identity =>
      intro _ epoch hpresented
      dsimp only at hpresented ⊢
      split_ifs at hpresented
      exact (Option.some.inj hpresented).symm
  | _ => exact ht

/-- What a call has read of its session is that of its cookie. -/
theorem AdminCall.Goes.sessions (ht : t.Sessions) : t'.Sessions := by
  have hresolved : ∀ c, t.request.cookie? = some c → ∀ identity expires,
      t.session = some (identity, expires) → ∀ resolved,
      identity.resolve w.tenants = some resolved → expires = c.expires ∧ c.Gives resolved := by
    intro c hcookie identity expires hsession resolved hresolve
    obtain ⟨hexpires, hsubject, hgrants⟩ := ht.session c hcookie identity expires hsession
    obtain ⟨hsubject', _, hgrants', _⟩ := AdminIdentity.resolve_eq_some hresolve
    refine ⟨hexpires, hsubject'.trans hsubject, fun hne => ?_⟩
    rw [hsubject'] at hne
    rw [hgrants', AdminIdentity.liveGrants, if_neg hne]
    exact List.filter_sublist.trans (hgrants hne)
  cases h with
  | verifies cookie hcookie =>
      refine ⟨?_, ?_, ht.first⟩
      · intro c hcookie' identity expires hsession
        cases hcookie.symm.trans hcookie'
        cases hsession
        exact ⟨rfl, rfl, fun _ => List.Sublist.refl _⟩
      · intro c hcookie' _
        cases hcookie.symm.trans hcookie'
        rfl
  | allows hphase => exact ⟨ht.session, fun c hc _ => ht.checking c hc (.inl hphase), ht.first⟩
  | holds _ _ hphase =>
      exact ⟨ht.session, fun c hc _ => ht.checking c hc (.inr (.inl hphase)), ht.first⟩
  | rechecks cookie current new identity resolved expires hrequest hphase hsession hresolve =>
      refine ⟨ht.session, ?_, ?_⟩
      · intro c _ hchecking
        rcases hchecking with h | h | h <;> cases h
      · intro c hcookie identity' hfirst
        cases hfirst
        exact (hresolved c hcookie identity expires hsession resolved hresolve).2
  | admits cookie current new first identity expires hrequest hphase hfirst hsession =>
      refine ⟨?_, ?_, ht.first⟩
      · intro c hcookie identity' expires' hsession'
        cases hsession'
        exact ⟨(ht.session c hcookie identity expires hsession).1, ht.first c hcookie first hfirst⟩
      · intro c _ hchecking
        rcases hchecking with h | h | h <;> cases h
  | switches cookie tenant identity resolved expires hrequest hphase hsession hresolve =>
      refine ⟨?_, ?_, ht.first⟩
      · intro c hcookie identity' expires' hsession'
        cases hsession'
        exact hresolved c hcookie identity expires hsession resolved hresolve
      · intro c _ hchecking
        rcases hchecking with h | h | h <;> cases h
  | ends | groups | signs | targets | rows | reads | rereads | logs | agrees | commits | issues =>
      refine ⟨ht.session, ?_, ht.first⟩
      intro c _ hchecking
      rcases hchecking with h | h | h <;> cases h

end Step

/-- The grants that a session resolves to are ones that its cookie gives. -/
theorem AdminCookie.Grants.of_resolve
    {identity resolved : AdminIdentity} {grant : TenantGrant} (hgives : c.Gives identity)
    (hresolve : identity.resolve w.tenants = some resolved) (hgrant : grant ∈ resolved.grants)
    (hkeys : ∀ row ∈ w.tenants.rows, row.key ≠ "") :
  c.Grants grant
  := by
  obtain ⟨_, _, hgrants, _⟩ := AdminIdentity.resolve_eq_some hresolve
  rw [hgrants, AdminIdentity.liveGrants] at hgrant
  split_ifs at hgrant with hlocal
  · have hlocal' : c.identity.subject = "local" := hgives.1.symm.trans hlocal
    rcases mem_localAdminGrants.mp hgrant with rfl | ⟨row, hrow, _, hrole⟩
    · exact ⟨fun _ => rfl, by rw [if_pos hlocal']⟩
    · obtain ⟨hmem, hkey⟩ := Table.find?_eq_some.mp hrow
      exact ⟨fun hempty => absurd (hkey.trans hempty) (hkeys row hmem), by rwa [if_pos hlocal']⟩
  · have hlocal' : ¬ c.identity.subject = "local" := fun h => hlocal (hgives.1.trans h)
    obtain ⟨hmem, hlive⟩ := List.mem_filter.mp hgrant
    refine ⟨?_, ?_⟩
    · intro hempty
      rcases TenantGrant.live_iff.mp hlive with ⟨_, hnone⟩ | ⟨hne, _⟩
      · exact hnone
      · exact absurd hempty hne
    · rw [if_neg hlocal']
      exact (hgives.2 hlocal).subset hmem

/-- A switch goes on with a grant that its cookie gives. -/
theorem AdminCall.Goes.switching
    (h : t.Goes env w w' t') (ht : t.Switching w) (hsessions : t.Sessions)
    (hkeys : ∀ row ∈ w.tenants.rows, row.key ≠ "") :
  t'.Switching w'
  := by
  cases h with
  | switches cookie tenant identity resolved expires hrequest hphase hsession hresolve =>
      refine ⟨?_, fun _ _ _ _ hphase' => (nomatch hphase'), fun _ _ _ _ _ hphase' => (nomatch hphase')⟩
      intro c tenant' hrequest' _ identity' expires' hsession' grant hgrant
      cases hsession'
      have hcookie : t.request.cookie? = some c := by
        rw [show t.request = .switchTenant c tenant' from hrequest']
        rfl
      obtain ⟨_, hgives⟩ := hsessions.session c hcookie identity expires hsession
      exact .of_resolve hgives hresolve hgrant hkeys
  | targets cookie tenant identity expires grant hrequest hphase hsession hgrant =>
      refine ⟨fun _ _ _ hphase' => (nomatch hphase'), ?_, fun _ _ _ _ _ hphase' => (nomatch hphase')⟩
      intro c tenant' hrequest' grant' hphase'
      cases hphase'
      exact ⟨ht.target c tenant' hrequest' hphase identity expires hsession grant hgrant,
        List.mem_cons_self⟩
  | rows cookie tenant identity expires grant hrequest hphase hsession hrow =>
      refine ⟨fun _ _ _ hphase' => (nomatch hphase'), fun _ _ _ _ hphase' => (nomatch hphase'), ?_⟩
      intro c tenant' hrequest' identity' expiresAt hphase'
      cases hphase'
      have hcookie : t.request.cookie? = some c := by
        rw [show t.request = .switchTenant c tenant' from hrequest']
        rfl
      obtain ⟨hexpires, hgives⟩ := hsessions.session c hcookie identity expires hsession
      obtain ⟨hgrants, hheld⟩ := ht.row c tenant' hrequest' grant hphase
      refine ⟨congrArg some hexpires, ⟨hgives.1, ?_⟩, grant, hgrants, rfl, rfl,
        fun hne => ⟨hheld, hrow hne⟩⟩
      intro hne
      have hsubject : identity.subject ≠ "local" := hne
      rw [switched]
      dsimp only
      rw [if_neg hsubject]
      exact hgives.2 hsubject
  | signs _ _ _ _ _ _ _ hrequest | logs _ hrequest | commits _ _ _ _ _ _ hrequest =>
      refine ⟨fun _ _ _ hphase' => (nomatch hphase'), fun _ _ _ _ hphase' => (nomatch hphase'), ?_⟩
      intro c tenant' hrequest'
      exact nomatch hrequest.symm.trans hrequest'
  | ends | groups | verifies | allows | holds | rechecks | admits | reads | rereads | agrees
    | issues =>
      exact ⟨fun _ _ _ hphase' => (nomatch hphase'), fun _ _ _ _ hphase' => (nomatch hphase'),
        fun _ _ _ _ _ hphase' => (nomatch hphase')⟩

/-- Who signs in elsewhere, or changes the password, is issued one grant at most for each tenant. -/
theorem AdminCall.Goes.granting
    (h : t.Goes env w w' t') (ht : t.Granting) (hsessions : t.Sessions)
    (hkeys : ∀ row ∈ w.tenants.rows, row.key ≠ "")
    (hcookie : ∀ c, t.request.cookie? = some c → c.identity.subject ≠ "local" →
      OneEach c.identity.grants) :
  t'.Granting
  := by
  have hgives : ∀ c, t.request.cookie? = some c → ∀ identity, c.Gives identity →
      identity.subject ≠ "local" → OneEach identity.grants := by
    intro c hc identity hgives hne
    exact ((hgives.2 hne).map _).nodup (hcookie c hc (hgives.1 ▸ hne))
  cases h with
  | groups subject role groups provisioning hrequest hsubject =>
      refine ⟨?_, fun _ _ hphase => (nomatch hphase)⟩
      intro grants hphase
      cases hphase
      exact ssoGrants_nodup hkeys role groups
  | signs subject role groups provisioning grants principals version hrequest hphase =>
      refine ⟨fun _ hphase' => (nomatch hphase'), ?_⟩
      intro identity expiresAt hphase' _
      cases hphase'
      exact ht.grants grants hphase
  | rows cookie tenant identity expires grant hrequest hphase hsession hrow =>
      refine ⟨fun _ hphase' => (nomatch hphase'), ?_⟩
      intro identity' expiresAt hphase' hne
      cases hphase'
      have hc : t.request.cookie? = some cookie := by rw [hrequest]; rfl
      have hsubject : identity.subject ≠ "local" := hne
      rw [switched]
      dsimp only
      rw [if_neg hsubject]
      exact hgives cookie hc identity (hsessions.session cookie hc identity expires hsession).2
        hsubject
  | logs =>
      refine ⟨fun _ hphase' => (nomatch hphase'), ?_⟩
      intro identity expiresAt hphase' hne
      cases hphase'
      exact absurd rfl hne
  | commits cookie current new fresh identity expires hrequest hsession =>
      refine ⟨fun _ hphase' => (nomatch hphase'), ?_⟩
      intro identity' expiresAt hphase' hne
      have hc : t.request.cookie? = some cookie := by rw [hrequest]; rfl
      rw [reissued] at hphase'
      split_ifs at hphase' with hlocal
      · cases hphase'
        exact absurd rfl hne
      · cases hphase'
        exact hgives cookie hc identity (hsessions.session cookie hc identity expires hsession).2
          hlocal
  | ends | verifies | allows | holds | rechecks | admits | switches | targets | reads | rereads
    | agrees | issues =>
      exact ⟨fun _ hphase => (nomatch hphase), fun _ _ hphase => (nomatch hphase)⟩

/-! ### All calls -/

/-- What holds of a cookie: it is accepted only until the password is changed, it is a session of
who presented the password unless that was changed in between, and it has one grant at most for each
tenant. -/
structure AdminCookie.Kept (env : AdminEnv) (w : AdminWorld) (c : AdminCookie) : Prop where
  version : c.version ∈ w.versions
  current : c.version = adminTokenPhc env w → c.issued = w.epoch
  presented : c.straddled = false → ∀ epoch, c.presented = some epoch → epoch = c.issued
  grants : c.identity.subject ≠ "local" → OneEach c.identity.grants

/-- What holds of a call. -/
structure AdminCall.Kept (w : AdminWorld) (t : AdminCall) : Prop where
  presents : t.Presents
  sessions : t.Sessions
  switching : t.Switching w
  granting : t.Granting
  cookie : ∀ c, t.request.cookie? = some c → c ∈ w.cookies

/-- What holds of the cookies, the calls and the tenants. -/
structure AdminWorld.Kept (env : AdminEnv) (w : AdminWorld) : Prop where
  cookies : ∀ c ∈ w.cookies, c.Kept env w
  calls : ∀ t ∈ w.calls.rows, t.Kept w
  version : adminTokenPhc env w ∈ w.versions
  keys : ∀ row ∈ w.tenants.rows, row.key ≠ ""

/-- Tenants that are not removed while a call keeps them from it are there for it. -/
theorem AdminCall.Switching.tenants
    (ht : t.Switching w) (h : ∀ key ∈ t.held, ∀ row, w.tenants.find? key = some row →
      ∃ row', w'.tenants.find? key = some row' ∧ row'.incarnation = row.incarnation) :
  t.Switching w'
  := by
  refine ⟨ht.target, ht.row, ?_⟩
  intro c tenant hrequest identity expiresAt hphase
  obtain ⟨hexpires, hgives, grant, hgrants, htenant, hrole, hheld⟩ :=
    ht.issue c tenant hrequest identity expiresAt hphase
  refine ⟨hexpires, hgives, grant, hgrants, htenant, hrole, ?_⟩
  intro hne
  obtain ⟨hmem, row, hrow, hincarnation⟩ := hheld hne
  obtain ⟨row', hrow', hsame⟩ := h grant.tenant hmem row hrow
  exact ⟨hmem, row', hrow', hincarnation.trans (congrArg some hsame.symm)⟩

/-- The tenants change while no call is in the way, and what holds is kept. -/
theorem AdminWorld.Kept.tenants
    (hw : w.Kept env) (tenants : Table Tenant.key) (hkeys : ∀ row ∈ tenants.rows, row.key ≠ "")
    (h : ∀ t ∈ w.calls.rows, ∀ key ∈ t.held, ∀ row, w.tenants.find? key = some row →
      ∃ row', tenants.find? key = some row' ∧ row'.incarnation = row.incarnation) :
  AdminWorld.Kept env { w with tenants }
  where
    cookies c hc := ⟨(hw.cookies c hc).version, (hw.cookies c hc).current,
      (hw.cookies c hc).presented, (hw.cookies c hc).grants⟩
    calls t ht := ⟨(hw.calls t ht).presents, (hw.calls t ht).sessions,
      (hw.calls t ht).switching.tenants (h t ht), (hw.calls t ht).granting, (hw.calls t ht).cookie⟩
    version := hw.version
    keys := hkeys

/-- Calls come and go, and what holds is kept. -/
theorem AdminWorld.Kept.with_calls
    (hw : w.Kept env) (calls : Table AdminCall.id) (h : ∀ t ∈ calls.rows, t.Kept w) :
  AdminWorld.Kept env { w with calls }
  where
    cookies c hc := ⟨(hw.cookies c hc).version, (hw.cookies c hc).current,
      (hw.cookies c hc).presented, (hw.cookies c hc).grants⟩
    calls t ht := ⟨(h t ht).presents, (h t ht).sessions, ⟨(h t ht).switching.target,
      (h t ht).switching.row, fun c tenant hrequest identity expiresAt hphase =>
        ⟨((h t ht).switching.issue c tenant hrequest identity expiresAt hphase).expires,
          ((h t ht).switching.issue c tenant hrequest identity expiresAt hphase).gives,
          ((h t ht).switching.issue c tenant hrequest identity expiresAt hphase).grant⟩⟩,
      (h t ht).granting, (h t ht).cookie⟩
    version := hw.version
    keys := hw.keys

/-- A call that ends keeps what holds of it. -/
theorem AdminCall.Kept.ends (ht : t.Kept w) (accepted : Bool) : (t.ends accepted).Kept w where
  presents := ht.presents
  sessions := by
    refine ⟨ht.sessions.session, ?_, ht.sessions.first⟩
    intro _ _ h
    rcases h with h | h | h <;> cases h
  switching := ⟨fun _ _ _ h => (nomatch h), fun _ _ _ _ h => (nomatch h),
    fun _ _ _ _ _ h => (nomatch h)⟩
  granting := ⟨fun _ h => (nomatch h), fun _ _ h => (nomatch h)⟩
  cookie := ht.cookie

/-- A cookie that is kept stays so when a call does a step. -/
theorem AdminCookie.Kept.goes (hc : c.Kept env w) (h : t.Goes env w w' t') : c.Kept env w' := by
  rcases h.version with ⟨hhash, hepoch, hversions⟩ | ⟨fresh, hfresh, hhash, hepoch, hversions, _⟩
  · refine ⟨hversions ▸ hc.version, ?_, hc.presented, hc.grants⟩
    rw [adminTokenPhc, hhash, hepoch]
    exact hc.current
  · refine ⟨?_, ?_, hc.presented, hc.grants⟩
    · rw [hversions]
      exact List.mem_cons_of_mem _ hc.version
    · rw [adminTokenPhc, hhash, Option.getD_some]
      intro hsame
      exact absurd (hsame ▸ hc.version) hfresh

/-- The cookie that a call issues. -/
theorem AdminCall.Kept.issued
    (ht : t.Kept w) (hversion : adminTokenPhc env w ∈ w.versions) {identity : AdminIdentity}
    {expiresAt : Option Nat} (hphase : t.phase = .issue identity expiresAt)
    (hcookie : issueAdminCookie env w t identity expiresAt = some c) :
  c.Kept env w
  := by
  rw [issueAdminCookie] at hcookie
  split_ifs at hcookie
  cases hcookie
  refine ⟨hversion, fun _ => rfl, ?_, ht.granting.issue identity expiresAt hphase⟩
  intro hstraddled epoch hpresented
  obtain ⟨hbefore, hseen⟩ := Bool.or_eq_false_iff.mp hstraddled
  rw [ht.presents hbefore epoch hpresented]
  exact not_not.mp (of_decide_eq_false hseen)

/-- A step of a call keeps what holds. -/
theorem AdminWorld.Kept.goes
    (hw : w.Kept env) (ht : t ∈ w.calls.rows) (h : t.Goes env w w' t') :
  AdminWorld.Kept env { w' with calls := w.calls.upsert t' }
  := by
  have hkept := hw.calls t ht
  have hcookies : ∀ c ∈ w.cookies, c ∈ w'.cookies := by
    intro c hc
    rcases h.cookies with he | ⟨_, _, _, _, _, he, _⟩
    · exact he ▸ hc
    · exact he ▸ List.mem_cons_of_mem _ hc
  have hsame : ∀ key row, w.tenants.find? key = some row →
      ∃ row', w'.tenants.find? key = some row' ∧ row'.incarnation = row.incarnation :=
    fun _ row hrow => ⟨row, h.tenants_eq ▸ hrow, rfl⟩
  have hw' : AdminWorld.Kept env { w' with calls := .empty } := by
    refine ⟨?_, fun _ hs => (nomatch hs), ?_, ?_⟩
    · intro c hc
      have hc' : c.Kept env w' := by
        rcases h.cookies with he | ⟨identity, expiresAt, cookie, hphase, hcookie, he, _⟩
        · exact (hw.cookies c (he ▸ hc)).goes h
        · have hc : c ∈ w'.cookies := hc
          rw [he] at hc
          rcases List.mem_cons.mp hc with rfl | hc
          · exact (hkept.issued hw.version hphase hcookie).goes h
          · exact (hw.cookies c hc).goes h
      exact ⟨hc'.version, hc'.current, hc'.presented, hc'.grants⟩
    · rcases h.version with ⟨hhash, _, hversions⟩ | ⟨fresh, _, hhash, _, hversions, _⟩
      · have := hw.version
        rw [adminTokenPhc] at this ⊢
        rwa [hhash, hversions]
      · rw [adminTokenPhc, hhash, hversions]
        exact List.mem_cons_self
    · exact h.tenants_eq.symm ▸ hw.keys
  refine hw'.with_calls (w.calls.upsert t') ?_
  intro s hs
  rcases Table.mem_upsert.mp hs with rfl | ⟨hs, _⟩
  · refine ⟨?_, h.sessions hkept.sessions, ?_, ?_, ?_⟩
    · apply h.presents hkept.presents
      intro c hc hversion hstraddled epoch hpresented
      have hmem := hkept.cookie c hc
      rw [(hw.cookies c hmem).presented hstraddled epoch hpresented]
      exact (hw.cookies c hmem).current hversion
    · exact (h.switching hkept.switching hkept.sessions hw.keys).tenants fun _ _ row hrow =>
        ⟨row, hrow, rfl⟩
    · exact h.granting hkept.granting hkept.sessions hw.keys
        fun c hc => (hw.cookies c (hkept.cookie c hc)).grants
    · intro c hc
      exact hcookies c (hkept.cookie c (h.request_eq ▸ hc))
  · have hs' := hw.calls s hs
    exact ⟨hs'.presents, hs'.sessions, hs'.switching.tenants fun key _ => hsame key, hs'.granting,
      fun c hc => hcookies c (hs'.cookie c hc)⟩

/-- Every step keeps what holds. -/
theorem AdminWorld.kept_step {op : AdminOp} (hw : w.Kept env) (h : w.step env op = some w') :
  w'.Kept env
  := by
  have hsame : ∀ t ∈ w.calls.rows, ∀ key ∈ t.held, ∀ row, w.tenants.find? key = some row →
      ∃ row', w.tenants.find? key = some row' ∧ row'.incarnation = row.incarnation :=
    fun _ _ _ _ row hrow => ⟨row, hrow, rfl⟩
  cases op with
  | call id request =>
      rw [step] at h
      split_ifs at h with hcookie
      obtain ⟨calls, hcalls, rfl⟩ := Option.map_eq_some_iff.mp h
      refine hw.with_calls calls ?_
      intro t ht
      rw [(Table.insert?_eq_some.mp hcalls).2] at ht
      rcases List.mem_cons.mp ht with rfl | ht
      · have hfirst : request.first = .hash ∨ request.first = .ssoGrants
            ∨ request.first = .verify := by
          cases request <;> simp [AdminRequest.first]
        refine ⟨fun _ _ h => (nomatch h), ⟨fun _ _ _ _ h => (nomatch h), ?_,
          fun _ _ _ h => (nomatch h)⟩, ⟨?_, ?_, ?_⟩, ⟨?_, ?_⟩, ?_⟩
        · intro _ _ hphase
          rcases hfirst with hf | hf | hf <;> rcases hphase with h | h | h <;>
            exact nomatch hf.symm.trans h
        · intro _ _ _ hphase
          rcases hfirst with hf | hf | hf <;> exact nomatch hf.symm.trans hphase
        · intro _ _ _ _ hphase
          rcases hfirst with hf | hf | hf <;> exact nomatch hf.symm.trans hphase
        · intro _ _ _ _ _ hphase
          rcases hfirst with hf | hf | hf <;> exact nomatch hf.symm.trans hphase
        · intro _ hphase
          rcases hfirst with hf | hf | hf <;> exact nomatch hf.symm.trans hphase
        · intro _ _ hphase
          rcases hfirst with hf | hf | hf <;> exact nomatch hf.symm.trans hphase
        · intro c hc
          have hc : request.cookie? = some c := hc
          rw [hc] at hcookie
          exact of_decide_eq_true hcookie
      · exact hw.calls t ht
  | advance id fresh =>
      obtain ⟨t, hfind, h⟩ := Option.bind_eq_some_iff.mp h
      obtain ⟨⟨v, t'⟩, hgo, rfl⟩ := Option.map_eq_some_iff.mp h
      exact hw.goes (Table.find?_eq_some.mp hfind).1 (goStep_goes hgo)
  | fail id =>
      obtain ⟨t, hfind, rfl⟩ := Option.map_eq_some_iff.mp h
      refine hw.with_calls (w.calls.upsert (t.ends false)) ?_
      intro s hs
      rcases Table.mem_upsert.mp hs with rfl | ⟨hs, _⟩
      · exact (hw.calls t (Table.find?_eq_some.mp hfind).1).ends false
      · exact hw.calls s hs
  | createTenant tenant =>
      rw [step] at h
      split_ifs at h with hkey
      obtain ⟨tenants, htenants, rfl⟩ := Option.map_eq_some_iff.mp h
      obtain ⟨_, hrows⟩ := Table.insert?_eq_some.mp htenants
      refine hw.tenants tenants ?_ ?_
      · intro row hrow
        rw [hrows] at hrow
        rcases List.mem_cons.mp hrow with rfl | hrow
        · exact hkey
        · exact hw.keys row hrow
      · intro _ _ key _ row hrow
        obtain ⟨hmem, hkey⟩ := Table.find?_eq_some.mp hrow
        exact ⟨row, Table.find?_eq_some.mpr ⟨hrows ▸ List.mem_cons_of_mem _ hmem, hkey⟩, rfl⟩
  | updateTenant key label adminGroup =>
      cases h
      refine hw.tenants _ ?_ ?_
      · intro row hrow
        obtain ⟨row, hmem, rfl⟩ := Table.mem_map.mp hrow
        split_ifs
        · exact hw.keys row hmem
        · exact hw.keys row hmem
      · intro _ _ key' _ row hrow
        refine ⟨_, (Table.find?_map _ _).trans (congrArg _ hrow), ?_⟩
        dsimp only
        split_ifs <;> rfl
  | pin key =>
      rw [step] at h
      split_ifs at h
      cases h
      exact ⟨fun c hc => ⟨(hw.cookies c hc).version, (hw.cookies c hc).current,
        (hw.cookies c hc).presented, (hw.cookies c hc).grants⟩, fun t ht =>
        ⟨(hw.calls t ht).presents, (hw.calls t ht).sessions,
          (hw.calls t ht).switching.tenants (hsame t ht), (hw.calls t ht).granting,
          (hw.calls t ht).cookie⟩, hw.version, hw.keys⟩
  | removeTenant key =>
      rw [step] at h
      split_ifs at h with hbusy
      cases h
      refine hw.tenants _ (fun row hrow => hw.keys row (Table.mem_erase.mp hrow).1) ?_
      intro t ht key' hkey' row hrow
      have hne : key' ≠ key := by
        rintro rfl
        apply hbusy
        right
        exact List.any_eq_true.mpr ⟨t, ht, decide_eq_true hkey'⟩
      exact ⟨row, (Table.find?_erase _ _ _).trans ((if_neg hne).trans hrow), rfl⟩
  | unpin _ | principal _ | overlay _ | wait _ =>
      cases h
      exact ⟨fun c hc => ⟨(hw.cookies c hc).version, (hw.cookies c hc).current,
        (hw.cookies c hc).presented, (hw.cookies c hc).grants⟩, fun t ht =>
        ⟨(hw.calls t ht).presents, (hw.calls t ht).sessions,
          (hw.calls t ht).switching.tenants (hsame t ht), (hw.calls t ht).granting,
          (hw.calls t ht).cookie⟩, hw.version, hw.keys⟩

end Votport.Admin
