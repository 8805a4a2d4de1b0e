import Votport.Admin.FieldRequests

/-!
# Requests one after another

What one step of a request does, and that a row that was computed from an earlier one is the row
that setting the fields now would give, when no field that the request does not carry has changed.
-/

namespace Votport.Admin

variable {env : FieldsEnv} {w w' : FieldsWorld} {t t' : FieldsCall}

/-! ### Setting fields -/

theorem patchedQuota_eq_ok
    {field : String} {carried : Option (Option Nat)} {present value : Option Nat}
    (h : patchedQuota field carried present = .ok value) :
  value = carried.getD present
  := by
  unfold patchedQuota patchQuota at h
  split at h
  · cases h
    rfl
  · split at h
    · cases h
      rfl
    · cases h
    · cases h
      rfl

theorem storedDays_storedDays (days : Nat) : storedDays (storedDays days) = storedDays days :=
  min_eq_left (min_le_right _ _)

/-- Days that were stored are read back. -/
theorem map_storedDays (days : Option Nat) :
  (days.map storedDays).map storedDays = days.map storedDays
  := by
  rw [Option.map_map]
  congr 1
  funext days
  exact storedDays_storedDays days

theorem Tenant.stored_stored (tenant : Tenant) : tenant.stored.stored = tenant.stored := by
  rw [stored, stored, map_storedDays]

/-- The row that `update_tenant` computes has the fields set, when it is stored. -/
theorem TenantPatch.apply_eq_ok
    {patch : TenantPatch} {tenant row : Tenant} (h : patch.apply tenant = .ok row)
    (hstored : tenant.stored = tenant) :
  row.stored = patch.set tenant
  := by
  have hdays : tenant.retentionDays.map storedDays = tenant.retentionDays :=
    congrArg Tenant.retentionDays hstored
  unfold apply at h
  obtain ⟨maxTotalBytes, htotal, h⟩ := Fallible.bind_eq_ok.mp h
  obtain ⟨maxLinks, hlinks, h⟩ := Fallible.bind_eq_ok.mp h
  obtain ⟨maxSessions, hsessions, h⟩ := Fallible.bind_eq_ok.mp h
  obtain ⟨retentionDays, hretention, h⟩ := Fallible.bind_eq_ok.mp h
  cases h
  have hcarried : (patch.retentionDays.getD tenant.retentionDays).map storedDays
      = (patch.retentionDays.map fun days => days.map storedDays).getD tenant.retentionDays := by
    cases patch.retentionDays with
    | none => exact hdays
    | some days => rfl
  rw [Tenant.stored, set, patchedQuota_eq_ok htotal, patchedQuota_eq_ok hlinks,
    patchedQuota_eq_ok hsessions, patchedQuota_eq_ok hretention, ← hcarried]
  cases patch.adminGroup <;> rfl

/-- What is stored of a footer is as it would be stored again. -/
structure Branding.Normal (env : FieldsEnv) (row : Branding) : Prop where
  text : trim row.footerText = row.footerText
  label : trim row.footerLinkLabel = row.footerLinkLabel
  url : trim row.footerLinkUrl = row.footerLinkUrl
  parsed : row.footerLinkUrl = "" ∨ ∃ u, env.parseUrl row.footerLinkUrl = some u
    ∧ u.text = row.footerLinkUrl

theorem trim_empty : trim "" = "" := rfl

theorem Branding.normal_empty : Branding.empty.Normal env :=
  ⟨trim_empty, trim_empty, trim_empty, .inl rfl⟩

/-- A row is as it would be stored again when its branding is. -/
theorem Branding.Normal.getD {row : Option Branding} (h : ∀ b, row = some b → b.Normal env) :
  (row.getD .empty).Normal env
  := by
  cases row with
  | none => exact normal_empty
  | some b => exact h b rfl

theorem Branding.Normal.normalUrl {row : Branding} (h : row.Normal env) :
  normalUrl env row.footerLinkUrl = row.footerLinkUrl
  := by
  rw [Admin.normalUrl, h.url]
  rcases h.parsed with hempty | ⟨u, hparse, htext⟩
  · rw [if_pos hempty, hempty]
  · split_ifs with hempty
    · exact hempty.symm
    · rw [hparse]
      exact htext

/-- What a normal form of a URL is. -/
theorem normalUrl_normal
    (henv : env.Lawful) {url : String}
    (hparse : trim url ≠ "" → ∃ u, env.parseUrl (trim url) = some u) :
  trim (normalUrl env url) = normalUrl env url
  ∧ (normalUrl env url = "" ∨ ∃ u, env.parseUrl (normalUrl env url) = some u
    ∧ u.text = normalUrl env url)
  := by
  by_cases hempty : trim url = ""
  · rw [normalUrl, if_pos hempty]
    exact ⟨trim_empty, .inl rfl⟩
  · obtain ⟨u, hu⟩ := hparse hempty
    rw [normalUrl, if_neg hempty, hu]
    refine ⟨?_, .inr ⟨u, henv.parse_text _ u hu, rfl⟩⟩
    rw [Option.map_some, Option.getD_some, trim, henv.trim_text _ u hu, String.ofList_toList]

/-- A footer that is admitted has no link, or one that can be parsed. -/
theorem admitFooter_eq_ok {row : Branding} {u : Unit} (h : admitFooter env row = .ok u) :
  row.footerLinkUrl = "" ∨ ∃ u, env.parseUrl row.footerLinkUrl = some u
  := by
  obtain ⟨_, _, h⟩ := Fallible.bind_eq_ok.mp h
  obtain ⟨_, _, h⟩ := Fallible.bind_eq_ok.mp h
  rcases Fallible.require_eq_ok.mp h with hempty | hurl
  · exact .inl hempty
  · right
    rw [footerUrl] at hurl
    cases hparse : env.parseUrl row.footerLinkUrl with
    | none =>
        rw [hparse] at hurl
        cases hurl
    | some u => exact ⟨u, rfl⟩

/-- A field of a footer that the request carries, or the one that is stored. -/
theorem getD_of_normal
    {normal : String → String} {carried : Option String} {stored : String}
    (h : normal stored = stored) :
  normal (carried.getD stored) = (carried.map normal).getD stored
  := by
  cases carried with
  | none => exact h
  | some value => rfl

/-- The row that `put_branding` computes is the one with the fields set, and is stored as it would
be stored again. -/
theorem BrandingRequest.apply_eq_ok
    (henv : env.Lawful) {request : BrandingRequest} {key tenant : String} {now : Nat}
    {previous : Option Branding} (hprevious : (previous.getD .empty).Normal env) {row : Branding}
    (h : request.apply env tenant now previous = .ok row) :
  row = (FieldsRequest.putBranding key request).setBranding env tenant now (previous.getD .empty)
  ∧ row.Normal env
  := by
  unfold apply at h
  obtain ⟨_, _, h⟩ := Fallible.bind_eq_ok.mp h
  obtain ⟨_, hfooter, h⟩ := Fallible.bind_eq_ok.mp h
  have hparsed := admitFooter_eq_ok hfooter
  have hrow : row = { (previous.getD .empty) with
      tenant, name := trim request.name, color := request.color
      footerText := trim (request.footerText.getD (previous.getD .empty).footerText)
      footerLinkLabel :=
        trim (request.footerLinkLabel.getD (previous.getD .empty).footerLinkLabel)
      footerLinkUrl :=
        normalUrl env (request.footerLinkUrl.getD (previous.getD .empty).footerLinkUrl)
      updatedAt := now } := by
    dsimp only at h hparsed
    rw [normalUrl]
    split at h
    · next hnone =>
        cases h
        rcases hparsed with hempty | ⟨u, hu⟩
        · rw [if_pos hempty, hempty]
        · exact nomatch hnone.symm.trans hu
    · next url hurl =>
        split_ifs at h with hempty
        · cases h
          rw [if_pos hempty, hempty]
        · obtain ⟨_, _, h⟩ := Fallible.bind_eq_ok.mp h
          cases h
          rw [if_neg hempty, hurl]
          rfl
  subst hrow
  constructor
  · rw [FieldsRequest.setBranding, getD_of_normal hprevious.text, getD_of_normal hprevious.label,
      getD_of_normal hprevious.normalUrl]
  · obtain ⟨htrim, hnormal⟩ := normalUrl_normal henv (fun hne => hparsed.resolve_left hne)
    exact ⟨trim_trim _, trim_trim _, htrim, hnormal⟩

/-- The row that a request about branding wants is the one with the fields set, and is stored as it
would be stored again. -/
theorem FieldsRequest.wanted_eq_ok
    (henv : env.Lawful) {request : FieldsRequest} {tenant : String} {now : Nat}
    {read : Option Branding} (hread : ∀ b, read = some b → b.Normal env ∧ b.tenant = tenant)
    {row : Branding} (h : request.wanted env tenant now read = .ok row) :
  row = request.setBranding env tenant now (read.getD .empty) ∧ row.Normal env
    ∧ row.tenant = tenant
  := by
  have hnormal : (read.getD .empty).Normal env := .getD fun b hb => (hread b hb).1
  cases request with
  | updateTenant key patch => cases h
  | putBranding key request =>
      have hset : row = (putBranding key request).setBranding env tenant now (read.getD .empty)
          ∧ row.Normal env := BrandingRequest.apply_eq_ok henv hnormal h
      obtain ⟨rfl, hrow⟩ := hset
      exact ⟨rfl, hrow, rfl⟩
  | putBrandingLogo key declared bytes =>
      obtain ⟨ext, hext, rfl⟩ := Fallible.map_eq_ok.mp h
      rw [setBranding, hext]
      exact ⟨rfl, ⟨hnormal.text, hnormal.label, hnormal.url, hnormal.parsed⟩, rfl⟩
  | deleteBrandingLogo key =>
      rw [wanted, deleteLogo] at h
      cases hfilter : read.filter fun branding => branding.logoExt ≠ "" with
      | none =>
          rw [hfilter] at h
          cases h
      | some branding =>
          rw [hfilter] at h
          cases h
          obtain ⟨hb, _⟩ := Option.filter_eq_some_iff.mp hfilter
          obtain ⟨hbranding, rfl⟩ := hread branding hb
          rw [setBranding, hb]
          exact ⟨rfl, ⟨hbranding.text, hbranding.label, hbranding.url, hbranding.parsed⟩, rfl⟩

/-! ### Fields that a request does not carry -/

/-- The tenant is the same one, and the fields that the request does not carry are the same. -/
structure TenantPatch.Agrees (patch : TenantPatch) (read current : Tenant) : Prop where
  incarnation : current.incarnation = read.incarnation
  label : patch.label = none → current.label = read.label
  adminGroup : patch.adminGroup = none → current.adminGroup = read.adminGroup
  maxTotalBytes : patch.maxTotalBytes = none → current.maxTotalBytes = read.maxTotalBytes
  maxLinks : patch.maxLinks = none → current.maxLinks = read.maxLinks
  maxSessions : patch.maxSessions = none → current.maxSessions = read.maxSessions
  retentionDays : patch.retentionDays = none → current.retentionDays = read.retentionDays

instance (patch : TenantPatch) (read current : Tenant) : Decidable (patch.Agrees read current) :=
  decidable_of_iff (current.incarnation = read.incarnation
      ∧ (patch.label = none → current.label = read.label)
      ∧ (patch.adminGroup = none → current.adminGroup = read.adminGroup)
      ∧ (patch.maxTotalBytes = none → current.maxTotalBytes = read.maxTotalBytes)
      ∧ (patch.maxLinks = none → current.maxLinks = read.maxLinks)
      ∧ (patch.maxSessions = none → current.maxSessions = read.maxSessions)
      ∧ (patch.retentionDays = none → current.retentionDays = read.retentionDays))
    ⟨fun ⟨h₁, h₂, h₃, h₄, h₅, h₆, h₇⟩ => ⟨h₁, h₂, h₃, h₄, h₅, h₆, h₇⟩,
      fun ⟨h₁, h₂, h₃, h₄, h₅, h₆, h₇⟩ => ⟨h₁, h₂, h₃, h₄, h₅, h₆, h₇⟩⟩

/-- A field is set to what the request carries, in whichever row. -/
theorem getD_congr {α : Type*} {carried : Option α} {a b : α} (h : carried = none → a = b) :
  carried.getD a = carried.getD b
  := by
  cases carried with
  | none => exact h rfl
  | some value => rfl

theorem map_eq_none_of {α β : Type*} {f : α → β} {carried : Option α} (h : carried.map f = none) :
  carried = none
  := Option.map_eq_none_iff.mp h

/-- The columns are those of a row as it is read back. -/
theorem Tenant.withColumns_stored (current row : Tenant) :
  current.withColumns row = { row.stored with
    key := current.key, incarnation := current.incarnation, createdAt := current.createdAt }
  := rfl

/-- The columns that were computed from an earlier row are the ones with the fields set now. -/
theorem TenantPatch.Agrees.withColumns
    {patch : TenantPatch} {read current row : Tenant} (h : patch.Agrees read current)
    (hrow : patch.apply read = .ok row) (hread : read.stored = read) :
  current.withColumns row = patch.set current
  := by
  rw [Tenant.withColumns_stored, apply_eq_ok hrow hread, set, set]
  dsimp only
  rw [getD_congr fun hnone => h.label (map_eq_none_of hnone),
    getD_congr fun hnone => h.adminGroup (map_eq_none_of hnone), getD_congr h.maxTotalBytes,
    getD_congr h.maxLinks, getD_congr h.maxSessions,
    getD_congr fun hnone => h.retentionDays (map_eq_none_of hnone)]

/-- The fields of the branding that the request does not carry are the same. -/
def FieldsRequest.Agrees (request : FieldsRequest) (read current : Branding) : Prop :=
  match request with
  | .putBranding _ request =>
      current.logoExt = read.logoExt
      ∧ (request.footerText = none → current.footerText = read.footerText)
      ∧ (request.footerLinkLabel = none → current.footerLinkLabel = read.footerLinkLabel)
      ∧ (request.footerLinkUrl = none → current.footerLinkUrl = read.footerLinkUrl)
  | .putBrandingLogo _ _ _ | .deleteBrandingLogo _ =>
      current.name = read.name ∧ current.color = read.color
      ∧ current.footerText = read.footerText ∧ current.footerLinkLabel = read.footerLinkLabel
      ∧ current.footerLinkUrl = read.footerLinkUrl
  | .updateTenant _ _ => True

instance (request : FieldsRequest) (read current : Branding) :
    Decidable (request.Agrees read current) := by
  unfold FieldsRequest.Agrees
  split <;> infer_instance

/-- The row that was wanted of an earlier one is the one with the fields set now. -/
theorem FieldsRequest.Agrees.setBranding
    {request : FieldsRequest} {read current : Branding} (h : request.Agrees read current)
    {tenant : String} {now : Nat} {row₀ : Option Branding} {row : Branding}
    (hwanted : request.wanted env tenant now row₀ = .ok row) :
  request.setBranding env tenant now current = request.setBranding env tenant now read
  := by
  obtain ⟨_, _, _, _, _, _, _, _⟩ := read
  obtain ⟨_, _, _, _, _, _, _, _⟩ := current
  cases request with
  | updateTenant key patch => cases hwanted
  | putBranding key request =>
      obtain ⟨hlogo, htext, hlabel, hurl⟩ := h
      cases hlogo
      rw [FieldsRequest.setBranding, FieldsRequest.setBranding]
      dsimp only
      rw [getD_congr fun hnone => htext (map_eq_none_of hnone),
        getD_congr fun hnone => hlabel (map_eq_none_of hnone),
        getD_congr fun hnone => hurl (map_eq_none_of hnone)]
  | putBrandingLogo key declared bytes =>
      obtain ⟨ext, hext, _⟩ := Fallible.map_eq_ok.mp hwanted
      obtain ⟨hname, hcolor, htext, hlabel, hurl⟩ := h
      cases hname
      cases hcolor
      cases htext
      cases hlabel
      cases hurl
      rw [FieldsRequest.setBranding, FieldsRequest.setBranding, hext]
  | deleteBrandingLogo key =>
      obtain ⟨hname, hcolor, htext, hlabel, hurl⟩ := h
      cases hname
      cases hcolor
      cases htext
      cases hlabel
      cases hurl
      rfl

/-! ### One step -/

/-- All that a step of a request does. -/
inductive FieldsCall.Goes (env : FieldsEnv) (w : FieldsWorld) (t : FieldsCall) :
    FieldsWorld → FieldsCall → Prop
  /-- It is refused. -/
  | refuses (refusal : ApiError) (hphase : ∀ refusal, t.phase ≠ .done refusal) :
      Goes env w t w (t.ends (some refusal))
  /-- It may change the row of a tenant. -/
  | reads (key : String) (patch : TenantPatch) (hrequest : t.request = .updateTenant key patch)
      (hphase : t.phase = .begin) : Goes env w t w { t with phase := .read key }
  /-- It keeps its tenant from being removed. -/
  | holds (tenant : String) (hrequest : ∀ key patch, t.request ≠ .updateTenant key patch)
      (hphase : t.phase = .begin) :
      Goes env w t w { t with phase := .row tenant, held := [tenant] }
  /-- It is about the default tenant. -/
  | defaults (hrequest : ∀ key patch, t.request ≠ .updateTenant key patch)
      (hphase : t.phase = .row "") : Goes env w t w { t with phase := .read "" }
  /-- The tenant is there. -/
  | finds (tenant : String) (current : Tenant)
      (hrequest : ∀ key patch, t.request ≠ .updateTenant key patch) (hphase : t.phase = .row tenant)
      (hcurrent : w.db.tenants.find? tenant = some current) :
      Goes env w t w { t with phase := .read tenant, incarnation := some current.incarnation }
  /-- It computes the row of a tenant. -/
  | copies (key : String) (patch : TenantPatch) (read row : Tenant)
      (hrequest : t.request = .updateTenant key patch) (hphase : ∃ key, t.phase = .read key)
      (hread : read ∈ w.db.tenants.rows) (hrow : patch.apply read = .ok row) :
      Goes env w t w
        { t with phase := .writeTenant read row, incarnation := some read.incarnation }
  /-- It computes a row of branding. -/
  | wants (tenant : String) (row : Branding)
      (hrequest : ∀ key patch, t.request ≠ .updateTenant key patch)
      (hphase : t.phase = .read tenant)
      (hrow : t.request.wanted env tenant w.now (w.db.branding.find? tenant) = .ok row) :
      Goes env w t w
        { t with phase := .writeBranding tenant w.now (w.db.branding.find? tenant) row }
  /-- It writes the row of a tenant. -/
  | writesTenant (key : String) (patch : TenantPatch) (read row current : Tenant)
      (hrequest : t.request = .updateTenant key patch) (hphase : t.phase = .writeTenant read row)
      (hcurrent : w.db.tenants.find? row.key = some current) :
      Goes env w t
        { w with
          db := { w.db with tenants := w.db.tenants.upsert (current.withColumns row) }
          log := .accepted t.id t.request row.key w.now :: w.log }
        (t.ends none)
  /-- It writes a row of branding. -/
  | writesBranding (tenant : String) (now : Nat) (read : Option Branding) (row : Branding)
      (hrequest : ∀ key patch, t.request ≠ .updateTenant key patch)
      (hphase : t.phase = .writeBranding tenant now read row) :
      Goes env w t
        { w with
          db := { w.db with branding := w.db.branding.upsert row }
          log := .accepted t.id t.request tenant now :: w.log }
        (t.ends none)

theorem updateTenantStep_goes
    {key : String} {patch : TenantPatch} (hrequest : t.request = .updateTenant key patch)
    (h : updateTenantStep w t key patch = some (w', t')) :
  t.Goes env w w' t'
  := by
  unfold updateTenantStep at h
  split at h
  · next hphase =>
      split_ifs at h
      · cases h
        exact .refuses _ (by rw [hphase]; nofun)
      · cases h
        exact .reads key patch hrequest hphase
  · next key' hphase =>
      split at h
      · cases h
        exact .refuses _ (by rw [hphase]; nofun)
      · next read hread =>
          split at h
          · cases h
            exact .refuses _ (by rw [hphase]; nofun)
          · next row hrow =>
              cases h
              exact .copies key patch read row hrequest ⟨key', hphase⟩
                (Table.find?_eq_some.mp hread).1 hrow
  · next read row hphase =>
      split at h
      · cases h
        exact .refuses _ (by rw [hphase]; nofun)
      · next current hcurrent =>
          cases h
          exact .writesTenant key patch read row current hrequest hphase hcurrent
  · cases h

theorem brandingStep_goes
    (hrequest : ∀ key patch, t.request ≠ .updateTenant key patch)
    (h : brandingStep env w t = some (w', t')) :
  t.Goes env w w' t'
  := by
  unfold brandingStep at h
  split at h
  · next hphase =>
      split at h
      · cases h
        exact .refuses _ (fun _ he => by rw [hphase] at he; cases he)
      · next tenant _ =>
          split_ifs at h
          · cases h
            exact .refuses _ (fun _ he => by rw [hphase] at he; cases he)
          · cases h
            exact .holds tenant hrequest hphase
  · next tenant hphase =>
      split_ifs at h with hempty
      · cases h
        subst hempty
        exact .defaults hrequest hphase
      · split at h
        · cases h
          exact .refuses _ (fun _ he => by rw [hphase] at he; cases he)
        · next current hcurrent =>
            split_ifs at h
            · cases h
              exact .finds tenant current hrequest hphase hcurrent
            · cases h
              exact .refuses _ (fun _ he => by rw [hphase] at he; cases he)
  · next tenant hphase =>
      split at h
      · cases h
        exact .refuses _ (fun _ he => by rw [hphase] at he; cases he)
      · next row hrow =>
          cases h
          exact .wants tenant row hrequest hphase hrow
  · next tenant now read row hphase =>
      cases h
      exact .writesBranding tenant now read row hrequest hphase
  · cases h

/-- What a step of a request does. -/
theorem fieldsStep_goes (h : fieldsStep env w t = some (w', t')) : t.Goes env w w' t' := by
  unfold fieldsStep at h
  split at h
  · next key patch hrequest => exact updateTenantStep_goes hrequest h
  · next hrequest => exact brandingStep_goes (fun key patch he => hrequest key patch he) h

end Votport.Admin
