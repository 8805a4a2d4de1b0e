import Votport.Admin.Eviction

/-!
# Who is left after the password was changed

In every run of logins, changes of the password, switches and uses, with tenants that are removed
and made again: which cookies are accepted, and what a switch gives.
-/

namespace Votport.Admin

variable {env : AdminEnv} {w w' : AdminWorld} {t t' : AdminCall} {c : AdminCookie}

/-- No cookie was issued yet. -/
structure AdminWorld.Begins (env : AdminEnv) (w : AdminWorld) : Prop where
  calls : w.calls.rows = []
  cookies : w.cookies = []
  versions : w.versions = [adminTokenPhc env w]
  keys : ∀ row ∈ w.tenants.rows, row.key ≠ ""

theorem AdminWorld.Begins.kept (h₀ : w.Begins env) : w.Kept env where
  cookies c hc := nomatch (h₀.cookies ▸ hc : c ∈ [])
  calls t ht := nomatch (h₀.calls ▸ ht : t ∈ [])
  version := h₀.versions ▸ List.mem_cons_self
  keys := h₀.keys

/-- What holds of the cookies, the calls and the tenants holds in every run. -/
theorem AdminWorld.kept_run
    {w₀ : AdminWorld} {ops : List AdminOp} (h₀ : w₀.Begins env)
    (h : Runs.run (AdminWorld.step env) w₀ ops = some w) :
  w.Kept env
  := Runs.run_invariant (fun _ _ _ hw hstep => kept_step hw hstep) h₀.kept h

theorem AdminWorld.step_advance
    {id : Nat} {fresh : String} (hfind : w.calls.find? id = some t)
    (hstep : w.step env (.advance id fresh) = some w') :
  ∃ v t', t.Goes env w v t' ∧ goStep env w t fresh = some (v, t')
    ∧ w' = { v with calls := w.calls.upsert t' } ∧ w'.calls.find? id = some t'
  := by
  obtain ⟨s, hs, h⟩ := Option.bind_eq_some_iff.mp hstep
  cases hs.symm.trans hfind
  obtain ⟨⟨v, t'⟩, hgo, rfl⟩ := Option.map_eq_some_iff.mp h
  have hgoes := goStep_goes hgo
  refine ⟨v, t', hgoes, hgo, rfl, ?_⟩
  obtain ⟨_, rfl⟩ := Table.find?_eq_some.mp hfind
  rw [← hgoes.id_eq]
  exact (Table.find?_upsert _ _ _).trans (if_pos rfl)

/-- A cookie that is verified was issued since the password was changed last, and unless that was
in the middle of the login or of a switch after it, it is a session of who presented the password
that there is. -/
theorem AdminWorld.Kept.verified
    (hw : w.Kept env) (hc : c ∈ w.cookies) {session : AdminIdentity × Nat}
    (h : verifyAdminToken env w c = some session) :
  c.issued = w.epoch
  ∧ (c.straddled = false → ∀ epoch, c.presented = some epoch → epoch = w.epoch)
  ∧ w.now < c.expires
  := by
  obtain ⟨_, hversion, hexpires⟩ := verifyAdminToken_eq_some h
  have hissued := (hw.cookies c hc).current hversion
  refine ⟨hissued, ?_, hexpires⟩
  intro hstraddled epoch hpresented
  exact ((hw.cookies c hc).presented hstraddled epoch hpresented).trans hissued

/-- What a switch gives: one of the live grants of the principal, and no more time. -/
theorem AdminCall.Switches.live
    {identity : AdminIdentity} {expiresAt : Option Nat}
    (h : t.Switches w c identity expiresAt) {cookie : AdminCookie}
    (hcookie : issueAdminCookie env w t identity expiresAt = some cookie) :
  cookie.expires ≤ c.expires ∧ cookie.identity.subject = c.identity.subject
  ∧ ∃ grant ∈ c.identity.liveGrants w.tenants,
    grant.tenant = cookie.identity.tenant ∧ grant.role = cookie.identity.role
  := by
  rw [issueAdminCookie] at hcookie
  split_ifs at hcookie
  cases hcookie
  obtain ⟨rfl, hgives, grant, hgrants, htenant, hrole, hheld⟩ := h
  refine ⟨Nat.min_le_left _ _, hgives.1, grant, ?_, htenant.symm, hrole.symm⟩
  rw [AdminIdentity.liveGrants]
  obtain ⟨hempty, hgrant⟩ := hgrants
  split_ifs with hlocal
  · rw [if_pos hlocal] at hgrant
    rw [mem_localAdminGrants]
    by_cases hdefault : grant.tenant = ""
    · left
      obtain ⟨incarnation, tenant, role⟩ := grant
      cases hempty hdefault
      cases hdefault
      cases hgrant
      rfl
    · obtain ⟨_, row, hrow, hincarnation⟩ := hheld hdefault
      exact .inr ⟨row, hrow, hincarnation, hgrant⟩
  · rw [if_neg hlocal] at hgrant
    refine List.mem_filter.mpr ⟨hgrant, ?_⟩
    rw [TenantGrant.live_iff]
    by_cases hdefault : grant.tenant = ""
    · exact .inl ⟨hdefault, hempty hdefault⟩
    · obtain ⟨_, row, hrow, hincarnation⟩ := hheld hdefault
      exact .inr ⟨hdefault, row, hrow, hincarnation⟩

/-- A principal that signed in elsewhere acts in the incarnation of the tenant that its cookie was
given for. -/
theorem AdminCookie.Kept.incarnation
    (hc : c.Kept env w) (hsubject : c.identity.subject ≠ "local") {resolved : AdminIdentity}
    (hresolve : c.identity.resolve w.tenants = some resolved) :
  resolved.tenant = c.identity.tenant ∧ resolved.role = c.identity.role
  ∧ (resolved.tenant ≠ "" → ∃ row, w.tenants.find? resolved.tenant = some row
    ∧ ∀ grant ∈ c.identity.grants, grant.tenant = resolved.tenant →
      grant.incarnation = some row.incarnation)
  := by
  obtain ⟨_, _, _, hacts⟩ := AdminIdentity.resolve_eq_some hresolve
  obtain ⟨htenant, hrole, grant, hgrant, hsame, _⟩ := hacts hsubject
  refine ⟨htenant, hrole, ?_⟩
  intro hne
  rw [AdminIdentity.liveGrants, if_neg hsubject] at hgrant
  obtain ⟨hmem, hlive⟩ := List.mem_filter.mp hgrant
  rcases TenantGrant.live_iff.mp hlive with ⟨hempty, _⟩ | ⟨_, row, hrow, hincarnation⟩
  · exact absurd (htenant.trans (hsame.symm.trans hempty)) hne
  · refine ⟨row, by rw [htenant, ← hsame, hrow], ?_⟩
    intro other hother hothertenant
    have heq : other = grant := by
      apply List.inj_on_of_nodup_map (hc.grants hsubject) hother hmem
      rw [hothertenant, htenant, hsame]
    rw [heq, hincarnation]

/-- The local administrator acts in the tenant that has the name now, or in the default tenant. -/
theorem AdminIdentity.resolve_local
    {identity resolved : AdminIdentity} {tenants : Table Tenant.key}
    (hlocal : identity.subject = "local") (h : identity.resolve tenants = some resolved) :
  resolved.tenant = identity.tenant
      ∧ (resolved.tenant = "" ∨ ∃ row, tenants.find? resolved.tenant = some row)
    ∨ resolved.tenant = "" ∧ tenants.find? identity.tenant = none
  := by
  rw [resolve, if_pos hlocal, liveGrants, if_pos hlocal] at h
  split_ifs at h with hgrant
  · cases h
    obtain ⟨grant, hmem, hsame⟩ := List.any_eq_true.mp hgrant
    replace hsame : grant.tenant = identity.tenant := of_decide_eq_true hsame
    refine .inl ⟨rfl, ?_⟩
    rcases mem_localAdminGrants.mp hmem with rfl | ⟨row, hrow, _⟩
    · exact .inl hsame.symm
    · exact .inr ⟨row, hsame ▸ hrow⟩
  · cases h
    refine .inr ⟨rfl, Table.find?_eq_none.mpr ?_⟩
    intro row hrow hkey
    apply hgrant
    rw [List.any_eq_true]
    refine ⟨⟨some row.incarnation, row.key, "admin"⟩, mem_localAdminGrants.mpr ?_,
      decide_eq_true hkey⟩
    exact .inr ⟨row, Table.find?_key hrow, rfl, rfl⟩

/-- In every run, a call goes on after its cookie was verified only if the cookie was issued since
the password was changed last; and unless the password was changed in the middle of the login, of a
switch or of a change that led to it, it is a session of who presented the password that there is.
A switch issues a cookie that ends no later and gives what one of the live grants of the principal
gives.  For a principal that signed in elsewhere a call goes on only if the tenant is the
incarnation that the cookie was given for; the local administrator acts in the tenant that has the
name now, or in the default tenant. -/
theorem change_password_evicts
    {w₀ : AdminWorld} {ops : List AdminOp} (h₀ : w₀.Begins env)
    (h : Runs.run (AdminWorld.step env) w₀ ops = some w) {id : Nat} {fresh : String}
    (hfind : w.calls.find? id = some t) (hstep : w.step env (.advance id fresh) = some w') :
  (t.phase = .verify → (∀ t', w'.calls.find? id = some t' → t'.phase ≠ .done false) →
    ∀ c, t.request.cookie? = some c → c.issued = w.epoch
    ∧ (c.straddled = false → ∀ epoch, c.presented = some epoch → epoch = w.epoch))
  ∧ (∀ c tenant identity expiresAt, t.request = .switchTenant c tenant →
    t.phase = .issue identity expiresAt → w'.cookies = w.cookies
    ∨ ∃ cookie, w'.cookies = cookie :: w.cookies ∧ cookie.expires ≤ c.expires
      ∧ cookie.identity.subject = c.identity.subject
      ∧ ∃ grant ∈ c.identity.liveGrants w.tenants,
        grant.tenant = cookie.identity.tenant ∧ grant.role = cookie.identity.role)
  ∧ (t.phase = .grants → (∀ t', w'.calls.find? id = some t' → t'.phase ≠ .done false) →
    ∀ c, t.request.cookie? = some c → c.identity.subject ≠ "local" → c.identity.tenant ≠ "" →
    ∃ row, w.tenants.find? c.identity.tenant = some row
      ∧ ∀ grant ∈ c.identity.grants, grant.tenant = c.identity.tenant →
        grant.incarnation = some row.incarnation)
  ∧ (t.phase = .grants → (∀ t', w'.calls.find? id = some t' → t'.phase ≠ .done false) →
    ∀ c, t.request.cookie? = some c → ∃ resolved,
      w'.calls.find? id = some (t.checked env resolved c.expires)
      ∧ resolved.subject = c.identity.subject
      ∧ (c.identity.subject = "local" →
        resolved.tenant = c.identity.tenant
          ∧ (resolved.tenant = "" ∨ ∃ row, w.tenants.find? resolved.tenant = some row)
        ∨ resolved.tenant = "" ∧ w.tenants.find? c.identity.tenant = none))
  := by
  have hw := AdminWorld.kept_run h₀ h
  have ht := hw.calls t (Table.find?_eq_some.mp hfind).1
  obtain ⟨v, t', hgoes, hgo, rfl, hfind'⟩ := AdminWorld.step_advance hfind hstep
  refine ⟨?_, ?_, ?_, ?_⟩
  · intro hphase hon c hc
    rw [goStep, hphase, hc] at hgo
    replace hgo : sessionStep env w t c = some (v, t') := hgo
    rw [sessionStep, hphase] at hgo
    dsimp only at hgo
    split at hgo
    · cases hgo
      exact absurd rfl (hon _ hfind')
    · next session hverify =>
        obtain ⟨hissued, hpresented, _⟩ := hw.verified (ht.cookie c hc) hverify
        exact ⟨hissued, hpresented⟩
  · intro c tenant identity expiresAt hrequest hphase
    have hswitches := ht.switching.issue c tenant hrequest identity expiresAt hphase
    rcases hgoes.cookies with hsame | ⟨_, _, cookie, hphase', hcookie, hcookies, _⟩
    · exact .inl hsame
    · cases hphase'.symm.trans hphase
      exact .inr ⟨cookie, hcookies, hswitches.live hcookie⟩
  · intro hphase hon c hc hsubject htenant
    rw [goStep, hphase, hc] at hgo
    replace hgo : sessionStep env w t c = some (v, t') := hgo
    rw [sessionStep, hphase, ht.sessions.checking c hc (.inr (.inr hphase))] at hgo
    dsimp only at hgo
    split at hgo
    · cases hgo
      exact absurd rfl (hon _ hfind')
    · next resolved hresolve =>
        obtain ⟨hsame, _, hrow⟩ := (hw.cookies c (ht.cookie c hc)).incarnation hsubject hresolve
        rw [← hsame]
        exact hrow (hsame ▸ htenant)
  · intro hphase hon c hc
    rw [goStep, hphase, hc] at hgo
    replace hgo : sessionStep env w t c = some (v, t') := hgo
    rw [sessionStep, hphase, ht.sessions.checking c hc (.inr (.inr hphase))] at hgo
    dsimp only at hgo
    split at hgo
    · cases hgo
      exact absurd rfl (hon _ hfind')
    · next resolved hresolve =>
        cases hgo
        exact ⟨resolved, hfind', (AdminIdentity.resolve_eq_some hresolve).1,
          fun hlocal => AdminIdentity.resolve_local hlocal hresolve⟩

/-- A server whose hashes are the passwords, with the password `old` from the environment. -/
def plainEnv : AdminEnv where
  verifyPassword password hash := hash = password
  adminPasswordHash := "old"
  adminTokenTag := "tag"
  minAdminPasswordChars := 3
  keys := ⟨id, id⟩
  fits _ := true
  groupsJson _ := ""
  grantsJson _ := ""

/-- Nobody has signed in yet. -/
def freshServer : AdminWorld where
  passwordHash := none
  tenants := .empty
  pinned := []
  principals := ⟨.empty, .empty, none⟩
  ssoSessionSecs := 3600
  now := 0
  calls := .empty
  cookies := []
  epoch := 0
  versions := ["tag"]

theorem freshServer_begins : freshServer.Begins plainEnv where
  calls := rfl
  cookies := rfl
  versions := rfl
  keys _ h := nomatch h

/-- The cookie of the first login. -/
def loginCookie : AdminCookie where
  identity := .localAdmin
  version := "tag"
  expires := 604800
  presented := some 0
  issued := 0
  straddled := false

/-- Somebody logs in. -/
def loggedIn (id : Nat) : List AdminOp :=
  .call id (.login "old") :: List.replicate 3 (.advance id "")

/-- A tenant that a group administers. -/
def groupTenant : Tenant := { acme "one" with adminGroup := some "ops" }

/-- The cookie that the change of the password gives. -/
def changedCookie : AdminCookie :=
  { loginCookie with version := "new", presented := some 1, issued := 1 }

/-- The cookie of a principal that signs in elsewhere, in the default tenant. -/
def memberCookie : AdminCookie where
  identity := ⟨"bob", "", "viewer", [⟨none, "", "viewer"⟩, ⟨some "one", "acme", "admin"⟩], 1⟩
  version := "new"
  expires := 3600
  presented := none
  issued := 1
  straddled := false

/-- Somebody logs in and changes the password, and somebody signs in elsewhere. -/
def changedPassword : List AdminOp :=
  .createTenant groupTenant :: loggedIn 1
    ++ .call 2 (.changePassword loginCookie "old" "new") :: List.replicate 12 (.advance 2 "new")
    ++ .call 3 (.ssoLogin "bob" "viewer" ["ops"] false) :: List.replicate 3 (.advance 3 "")

/-- The principal switches to the tenant, and the tenant is removed before the local administrator
uses a cookie for it. -/
def switchedTenant (cookie : AdminCookie) : List AdminOp :=
  changedPassword ++ .wait 10 :: .call 4 (.switchTenant cookie "acme")
    :: List.replicate 6 (.advance 4 "")

/-- A switched cookie is used, up to the last step of the check. -/
def usedCookie (cookie switched : AdminCookie) (between : List AdminOp) : List AdminOp :=
  switchedTenant cookie ++ .advance 4 "" :: between ++ .call 5 (.use switched)
    :: List.replicate 3 (.advance 5 "")

/-- Removes the tenant and makes it again. -/
def tenantAgain : List AdminOp :=
  [.pin "acme", .removeTenant "acme", .unpin "acme", .createTenant (acme "two")]

/-- The cookie of the local administrator after a switch. -/
def switchedCookie : AdminCookie :=
  { changedCookie with identity := ⟨"local", "acme", "admin", [], 1⟩ }

/-- The cookie of the principal after a switch. -/
def switchedMember : AdminCookie :=
  { memberCookie with identity := { memberCookie.identity with tenant := "acme", role := "admin" } }

/-- A run ends before a step of a call of which a property can be computed. -/
theorem exists_advance
    {ops : List AdminOp} (id : Nat) (p : AdminWorld → AdminCall → AdminWorld → Bool)
    (h : (Runs.run (AdminWorld.step plainEnv) freshServer ops).any (fun w =>
      (w.calls.find? id).any fun t => (w.step plainEnv (.advance id "")).any (p w t)) = true) :
  ∃ w t w', Runs.run (AdminWorld.step plainEnv) freshServer ops = some w
    ∧ w.calls.find? id = some t ∧ w.step plainEnv (.advance id "") = some w' ∧ p w t w' = true
  := by
  obtain ⟨w, hw, h⟩ := (Option.any_eq_true _ _).mp h
  obtain ⟨t, hfind, h⟩ := (Option.any_eq_true _ _).mp h
  obtain ⟨w', hstep, h⟩ := (Option.any_eq_true _ _).mp h
  exact ⟨w, t, w', hw, hfind, hstep, h⟩

/-- The call comes with the cookie, is about to do the step, and goes on. -/
def goesOn (phase : AdminPhase) (cookie : AdminCookie) (id : Nat) (_ : AdminWorld)
    (t : AdminCall) (w' : AdminWorld) : Bool :=
  decide (t.phase = phase ∧ t.request = .use cookie)
    && (w'.calls.find? id).all fun t => t.phase ≠ .done false

theorem goesOn_eq
    {phase : AdminPhase} {id : Nat} (h : goesOn phase c id w t w' = true) :
  t.phase = phase ∧ t.request.cookie? = some c
    ∧ ∀ t', w'.calls.find? id = some t' → t'.phase ≠ .done false
  := by
  obtain ⟨ht, hon⟩ := Bool.and_eq_true_iff.mp h
  obtain ⟨hphase, hrequest⟩ := of_decide_eq_true ht
  refine ⟨hphase, by rw [hrequest]; rfl, ?_⟩
  intro t' hfind'
  rw [hfind'] at hon
  exact of_decide_eq_true hon

theorem change_password_evicts_switched :
  (∃ w, Runs.run (AdminWorld.step plainEnv) freshServer
      (changedPassword ++ [.call 5 (.use changedCookie)]) = some w
    ∧ 1 = w.epoch ∧ ∀ epoch, changedCookie.presented = some epoch → epoch = w.epoch)
  ∧ (∃ w w' cookie, Runs.run (AdminWorld.step plainEnv) freshServer
      (switchedTenant memberCookie) = some w
    ∧ w.step plainEnv (.advance 4 "") = some w' ∧ w'.cookies = cookie :: w.cookies
    ∧ cookie.expires ≤ 3600 ∧ cookie.identity.subject = "bob"
    ∧ ∃ grant ∈ memberCookie.identity.liveGrants w.tenants,
      grant.tenant = cookie.identity.tenant ∧ grant.role = cookie.identity.role)
  ∧ (∃ w row, Runs.run (AdminWorld.step plainEnv) freshServer
      (usedCookie memberCookie switchedMember []) = some w
    ∧ w.tenants.find? "acme" = some row ∧ some "one" = some row.incarnation)
  ∧ ∃ (w w' : AdminWorld) (t : AdminCall) (resolved : AdminIdentity),
    Runs.run (AdminWorld.step plainEnv) freshServer
      (usedCookie changedCookie switchedCookie tenantAgain) = some w
    ∧ w.step plainEnv (.advance 5 "") = some w'
    ∧ w'.calls.find? 5 = some (t.checked plainEnv resolved switchedCookie.expires)
    ∧ resolved.tenant = "acme"
  := by
  refine ⟨?_, ?_, ?_, ?_⟩
  · obtain ⟨w, t, w', hw, hfind, hstep, hon⟩ := exists_advance 5
      (goesOn .verify changedCookie 5)
      (show (Runs.run (AdminWorld.step plainEnv) freshServer
        (changedPassword ++ [.call 5 (.use changedCookie)])).any _ = true by decide +kernel)
    obtain ⟨hphase, hcookie, hon⟩ := goesOn_eq hon
    obtain ⟨hissued, hpresented⟩ := (change_password_evicts freshServer_begins hw hfind hstep).1
      hphase hon changedCookie hcookie
    exact ⟨w, hw, hissued, hpresented rfl⟩
  · obtain ⟨w, t, w', hw, hfind, hstep, hfacts⟩ := exists_advance 4
      (fun w t w' => decide (t.request = .switchTenant memberCookie "acme"
        ∧ t.phase = .issue switchedMember.identity (some 3600)
        ∧ w'.cookies.length = w.cookies.length + 1))
      (show (Runs.run (AdminWorld.step plainEnv) freshServer
        (switchedTenant memberCookie)).any _ = true by decide +kernel)
    obtain ⟨hrequest, hphase, hlength⟩ := of_decide_eq_true hfacts
    rcases (change_password_evicts freshServer_begins hw hfind hstep).2.1
      memberCookie "acme" _ _ hrequest hphase with hsame | ⟨cookie, hcookies, hgives⟩
    · rw [hsame] at hlength
      omega
    · exact ⟨w, w', cookie, hw, hstep, hcookies, hgives⟩
  · obtain ⟨w, t, w', hw, hfind, hstep, hon⟩ := exists_advance 5
      (goesOn .grants switchedMember 5)
      (show (Runs.run (AdminWorld.step plainEnv) freshServer
        (usedCookie memberCookie switchedMember [])).any _ = true by decide +kernel)
    obtain ⟨hphase, hcookie, hon⟩ := goesOn_eq hon
    obtain ⟨row, hrow, hgrants⟩ := (change_password_evicts freshServer_begins hw hfind hstep).2.2.1
      hphase hon switchedMember hcookie (by decide) (by decide)
    exact ⟨w, row, hw, hrow, hgrants ⟨some "one", "acme", "admin"⟩ (by decide) rfl⟩
  · obtain ⟨w, t, w', hw, hfind, hstep, hfacts⟩ := exists_advance 5
      (fun w t w' => goesOn .grants switchedCookie 5 w t w'
        && decide (w.tenants.find? "acme" = some (acme "two")))
      (show (Runs.run (AdminWorld.step plainEnv) freshServer
        (usedCookie changedCookie switchedCookie tenantAgain)).any _ = true by decide +kernel)
    obtain ⟨hon, hrow⟩ := Bool.and_eq_true_iff.mp hfacts
    obtain ⟨hphase, hcookie, hon⟩ := goesOn_eq hon
    obtain ⟨resolved, hfind', _, hlocal⟩ :=
      (change_password_evicts freshServer_begins hw hfind hstep).2.2.2
        hphase hon switchedCookie hcookie
    refine ⟨w, w', t, resolved, hw, hstep, hfind', ?_⟩
    rcases hlocal rfl with ⟨hsame, _⟩ | ⟨_, hnone⟩
    · exact hsame
    · exact nomatch hnone.symm.trans (of_decide_eq_true hrow)

/-- The cookie of a login during which the password was changed. -/
def lateCookie : AdminCookie :=
  { loginCookie with version := "new", issued := 1, straddled := true }

/-- A login checks the old password, the password is changed, and then the login issues its cookie,
which is used. -/
def straddlingLogin : List AdminOp :=
  .call 1 (.login "old") :: List.replicate 2 (.advance 1 "") ++ loggedIn 2
    ++ .call 3 (.changePassword loginCookie "old" "new") :: List.replicate 11 (.advance 3 "new")
    ++ .advance 1 "" :: .call 4 (.use lateCookie) :: List.replicate 4 (.advance 4 "")

/-- The cookie of the local administrator after a switch. -/
def acmeCookie : AdminCookie :=
  { loginCookie with identity := ⟨"local", "acme", "admin", [], 1⟩ }

/-- The local administrator switches to a tenant. -/
def switchedLocal : List AdminOp :=
  .createTenant (acme "one") :: loggedIn 1
    ++ .call 2 (.switchTenant loginCookie "acme") :: List.replicate 7 (.advance 2 "")

/-- The tenant is removed and made again, and the cookie is used. -/
def madeAgain : List AdminOp :=
  [.pin "acme", .removeTenant "acme", .unpin "acme", .createTenant (acme "two"),
    .call 3 (.use acmeCookie)] ++ List.replicate 4 (.advance 3 "")

/-- A cookie is accepted of a login that presented the password before the last change, and a cookie
that the local administrator got in one incarnation of a tenant is accepted in another. -/
theorem straddling_login_accepted :
  (∃ w t, Runs.run (AdminWorld.step plainEnv) freshServer straddlingLogin = some w
    ∧ w.epoch = 1 ∧ w.calls.find? 4 = some t ∧ t.request = .use lateCookie
    ∧ t.phase = .done true ∧ lateCookie.presented = some 0)
  ∧ ∃ w₁ w₂ t resolved, Runs.run (AdminWorld.step plainEnv) freshServer switchedLocal = some w₁
    ∧ acmeCookie ∈ w₁.cookies ∧ w₁.tenants.find? "acme" = some (acme "one")
    ∧ Runs.run (AdminWorld.step plainEnv) w₁ madeAgain = some w₂
    ∧ w₂.calls.find? 3 = some t ∧ t.phase = .done true
    ∧ w₂.tenants.find? "acme" = some (acme "two")
    ∧ acmeCookie.identity.resolve w₂.tenants = some resolved ∧ resolved.tenant = "acme"
  := by
  constructor
  · obtain ⟨w, hw, hfacts⟩ := (Option.any_eq_true _ _).mp
      (show (Runs.run (AdminWorld.step plainEnv) freshServer straddlingLogin).any (fun w =>
          w.epoch = 1 ∧ (w.calls.find? 4).any fun t =>
            t.request = .use lateCookie ∧ t.phase = .done true) = true
        by decide +kernel)
    obtain ⟨hepoch, hcall⟩ := of_decide_eq_true hfacts
    obtain ⟨t, hfind, ht⟩ := (Option.any_eq_true _ _).mp hcall
    obtain ⟨hrequest, hphase⟩ := of_decide_eq_true ht
    exact ⟨w, t, hw, hepoch, hfind, hrequest, hphase, rfl⟩
  · obtain ⟨w₁, hw₁, hfacts⟩ := (Option.any_eq_true _ _).mp
      (show (Runs.run (AdminWorld.step plainEnv) freshServer switchedLocal).any (fun w₁ =>
          acmeCookie ∈ w₁.cookies ∧ w₁.tenants.find? "acme" = some (acme "one")
          ∧ (Runs.run (AdminWorld.step plainEnv) w₁ madeAgain).any fun w₂ =>
            (w₂.calls.find? 3).any (fun t => t.phase = .done true)
            ∧ w₂.tenants.find? "acme" = some (acme "two")
            ∧ (acmeCookie.identity.resolve w₂.tenants).any fun resolved =>
              resolved.tenant = "acme") = true
        by decide +kernel)
    obtain ⟨hmem, hone, hrest⟩ := of_decide_eq_true hfacts
    obtain ⟨w₂, hw₂, hfacts⟩ := (Option.any_eq_true _ _).mp hrest
    obtain ⟨hcall, htwo, hresolve⟩ := of_decide_eq_true hfacts
    obtain ⟨t, hfind, hphase⟩ := (Option.any_eq_true _ _).mp hcall
    obtain ⟨resolved, hresolved, htenant⟩ := (Option.any_eq_true _ _).mp hresolve
    exact ⟨w₁, w₂, t, resolved, hw₁, hmem, hone, hw₂, hfind, of_decide_eq_true hphase, htwo,
      hresolved, of_decide_eq_true htenant⟩

end Votport.Admin
