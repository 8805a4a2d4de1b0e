import Votport.Admin.Serial

/-!
# Every run of requests that change fields

Where no field that a request does not carry has changed between its reading and its writing, the
rows are those of the accepted requests one after another.  Two requests that read one row before
either writes it are not: the second takes the field back that the first has set.  A request about
branding never changes a later incarnation of its tenant, since it keeps the tenant from being
removed; one about the row of a tenant may.
-/

namespace Votport.Admin

variable {env : FieldsEnv} {w w' : FieldsWorld} {t t' s : FieldsCall} {db₀ : FieldsDb}

/-! ### What holds -/

/-- The request that was accepted. -/
def FieldsEvent.id? : FieldsEvent → Option Nat
  | .accepted id _ _ _ => some id
  | _ => none

/-- What holds of a request: what it is about to write is what it wants of what it has read, and
the tenant of one about branding is there. -/
structure FieldsCall.Kept (env : FieldsEnv) (w : FieldsWorld) (t : FieldsCall) : Prop where
  tenant : ∀ read row, t.phase = .writeTenant read row → ∃ key patch,
    t.request = .updateTenant key patch ∧ patch.apply read = .ok row
    ∧ t.incarnation = some read.incarnation ∧ read.stored = read
  branding : ∀ tenant now read row, t.phase = .writeBranding tenant now read row →
    t.request.wanted env tenant now read = .ok row
    ∧ ∀ b, read = some b → b.Normal env ∧ b.tenant = tenant
  held : ∀ tenant, t.phase = .row tenant → tenant ∈ t.held
  found : ∀ tenant, (∀ key patch, t.request ≠ .updateTenant key patch) →
    t.phase = .read tenant ∨ (∃ now read row, t.phase = .writeBranding tenant now read row) →
    tenant ≠ "" → tenant ∈ t.held ∧ ∃ row, w.db.tenants.find? tenant = some row
      ∧ t.incarnation = some row.incarnation

/-- What holds of the rows, the requests and what happened. -/
structure FieldsWorld.Kept (env : FieldsEnv) (db₀ : FieldsDb) (w : FieldsWorld) : Prop where
  db : w.db = replay env w.log db₀
  stored : ∀ tenant ∈ w.db.tenants.rows, tenant.stored = tenant
  normal : ∀ b ∈ w.db.branding.rows, b.Normal env
  calls : ∀ t ∈ w.calls.rows, t.Kept env w
  logged : ∀ t ∈ w.calls.rows, t.phase = .done none ↔ t.id ∈ w.log.filterMap FieldsEvent.id?
  known : ∀ id request tenant now, .accepted id request tenant now ∈ w.log →
    ∃ t ∈ w.calls.rows, t.id = id ∧ t.request = request
  nodup : (w.log.filterMap FieldsEvent.id?).Nodup

/-- The row that a request is about to write was computed from one in which the fields that it does
not carry are as they are now. -/
def FieldsCall.Meets (w : FieldsWorld) (t : FieldsCall) : Prop :=
  match t.phase, t.request with
  | .writeTenant read row, .updateTenant _ patch =>
      ∀ current, w.db.tenants.find? row.key = some current → patch.Agrees read current
  | .writeBranding tenant _ read _, request =>
      request.Agrees (read.getD .empty) ((w.db.branding.find? tenant).getD .empty)
  | _, _ => True

/-- What a request writes next, it has computed from the fields as they are. -/
def FieldsWorld.Meets (w : FieldsWorld) : FieldsOp → Prop
  | .advance id => ∀ t, w.calls.find? id = some t → t.Meets w
  | _ => True

instance : Decidable (t.Meets w) := by
  unfold FieldsCall.Meets
  split
  · exact inferInstanceAs (Decidable (∀ current ∈ w.db.tenants.find? _, _))
  · infer_instance
  · exact .isTrue trivial

instance (op : FieldsOp) : Decidable (w.Meets op) :=
  match op with
  | .advance id => inferInstanceAs (Decidable (∀ t ∈ w.calls.find? id, t.Meets w))
  | .call _ _ _ | .fail _ _ | .createTenant _ | .pin _ | .removeTenant _ | .unpin _ | .wait _ =>
      .isTrue trivial

/-! ### One step of a request -/

section Step

variable (h : t.Goes env w w' t')
include h

theorem FieldsCall.Goes.id_eq : t'.id = t.id := by
  cases h <;> rfl

theorem FieldsCall.Goes.request_eq : t'.request = t.request := by
  cases h <;> rfl

theorem FieldsCall.Goes.calls_eq : w'.calls = w.calls := by
  cases h <;> rfl

/-- What happened: nothing, or the request is accepted. -/
theorem FieldsCall.Goes.log :
  w'.log = w.log ∧ t'.phase ≠ .done none ∧ w'.db = w.db ∧ (∀ refusal, t.phase ≠ .done refusal)
  ∨ ∃ tenant now, w'.log = .accepted t.id t.request tenant now :: w.log ∧ t'.phase = .done none
    ∧ ∀ refusal, t.phase ≠ .done refusal
  := by
  cases h with
  | refuses refusal hphase => exact .inl ⟨rfl, nofun, rfl, hphase⟩
  | reads key patch hrequest hphase =>
      exact .inl ⟨rfl, nofun, rfl, fun _ he => nomatch hphase.symm.trans he⟩
  | holds tenant hrequest hphase =>
      exact .inl ⟨rfl, nofun, rfl, fun _ he => nomatch hphase.symm.trans he⟩
  | defaults hrequest hphase =>
      exact .inl ⟨rfl, nofun, rfl, fun _ he => nomatch hphase.symm.trans he⟩
  | finds tenant current hrequest hphase =>
      exact .inl ⟨rfl, nofun, rfl, fun _ he => nomatch hphase.symm.trans he⟩
  | copies key patch read row hrequest hphase =>
      obtain ⟨key, hphase⟩ := hphase
      exact .inl ⟨rfl, nofun, rfl, fun _ he => nomatch hphase.symm.trans he⟩
  | wants tenant row hrequest hphase =>
      exact .inl ⟨rfl, nofun, rfl, fun _ he => nomatch hphase.symm.trans he⟩
  | writesTenant key patch read row current hrequest hphase =>
      exact .inr ⟨_, _, rfl, rfl, fun _ he => nomatch hphase.symm.trans he⟩
  | writesBranding tenant now read row hrequest hphase =>
      exact .inr ⟨_, _, rfl, rfl, fun _ he => nomatch hphase.symm.trans he⟩

/-- A tenant keeps its incarnation. -/
theorem FieldsCall.Goes.tenants {key : String} {row : Tenant}
    (hrow : w.db.tenants.find? key = some row) :
  ∃ row', w'.db.tenants.find? key = some row' ∧ row'.incarnation = row.incarnation
  := by
  cases h with
  | writesTenant key' patch read columns current hrequest hphase hcurrent =>
      by_cases hkey : key = current.key
      · obtain ⟨_, hcurrentKey⟩ := Table.find?_eq_some.mp hcurrent
        refine ⟨current.withColumns columns, (Table.find?_upsert _ _ _).trans (if_pos hkey), ?_⟩
        rw [hkey, hcurrentKey] at hrow
        cases hrow.symm.trans hcurrent
        rfl
      · exact ⟨row, (Table.find?_upsert _ _ _).trans ((if_neg hkey).trans hrow), rfl⟩
  | _ => exact ⟨row, hrow, rfl⟩

omit h in
/-- A request that reads next, or is over, has nothing to write. -/
theorem FieldsCall.Kept.of_phase
    (hwrites : ∀ read row, t.phase ≠ .writeTenant read row)
    (hwrites' : ∀ tenant now read row, t.phase ≠ .writeBranding tenant now read row)
    (hheld : ∀ tenant, t.phase = .row tenant → tenant ∈ t.held)
    (hfound : ∀ tenant, (∀ key patch, t.request ≠ .updateTenant key patch) →
      t.phase = .read tenant → tenant ≠ "" → tenant ∈ t.held ∧ ∃ row,
        w.db.tenants.find? tenant = some row ∧ t.incarnation = some row.incarnation) :
  t.Kept env w
  := by
  refine ⟨fun read row he => absurd he (hwrites read row),
    fun tenant now read row he => absurd he (hwrites' tenant now read row), hheld, ?_⟩
  intro tenant hrequest hphase hne
  rcases hphase with hphase | ⟨now, read, row, hphase⟩
  · exact hfound tenant hrequest hphase hne
  · exact absurd hphase (hwrites' tenant now read row)

/-- What holds of a request is kept by its own step. -/
theorem FieldsCall.Kept.own
    (ht : t.Kept env w) (hstored : ∀ tenant ∈ w.db.tenants.rows, tenant.stored = tenant)
    (hnormal : ∀ b ∈ w.db.branding.rows, b.Normal env) :
  t'.Kept env w'
  := by
  cases h with
  | holds tenant =>
      apply FieldsCall.Kept.of_phase
      · intro _ _ hphase
        cases hphase
      · intro _ _ _ _ hphase
        cases hphase
      · intro tenant' hphase
        cases hphase
        exact List.mem_cons_self
      · intro tenant' _ hphase
        cases hphase
  | defaults =>
      apply FieldsCall.Kept.of_phase
      · intro _ _ hphase
        cases hphase
      · intro _ _ _ _ hphase
        cases hphase
      · intro tenant' hphase
        cases hphase
      · intro tenant' _ hphase hne
        cases hphase
        exact absurd rfl hne
  | finds tenant current hrequest hphase hcurrent =>
      apply FieldsCall.Kept.of_phase
      · intro _ _ hphase
        cases hphase
      · intro _ _ _ _ hphase
        cases hphase
      · intro tenant' hphase
        cases hphase
      · intro tenant' _ hphase' _
        cases hphase'
        exact ⟨ht.held tenant hphase, current, hcurrent, rfl⟩
  | copies key patch read row hrequest hphase hread hrow =>
      constructor
      · intro read' row' hphase'
        cases hphase'
        exact ⟨key, patch, hrequest, hrow, rfl, hstored read hread⟩
      · intro _ _ _ _ hphase'
        cases hphase'
      · intro _ hphase'
        cases hphase'
      · intro tenant' _ hphase'
        rcases hphase' with hphase' | ⟨_, _, _, hphase'⟩ <;> cases hphase'
  | reads key patch hrequest =>
      apply FieldsCall.Kept.of_phase
      · intro _ _ hphase
        cases hphase
      · intro _ _ _ _ hphase
        cases hphase
      · intro tenant' hphase
        cases hphase
      · intro tenant' hne _
        exact absurd hrequest (hne key patch)
  | wants tenant row hrequest hphase hrow =>
      constructor
      · intro _ _ hphase'
        cases hphase'
      · intro tenant' now' read' row' hphase'
        cases hphase'
        refine ⟨hrow, ?_⟩
        intro b hb
        obtain ⟨hmem, hkey⟩ := Table.find?_eq_some.mp hb
        exact ⟨hnormal b hmem, hkey⟩
      · intro _ hphase'
        cases hphase'
      · intro tenant' _ hphase' hne
        rcases hphase' with hphase' | ⟨_, _, _, hphase'⟩
        · cases hphase'
        · cases hphase'
          exact ht.found tenant hrequest (.inl hphase) hne
  | refuses | writesTenant | writesBranding =>
      apply FieldsCall.Kept.of_phase
      · intro _ _ hphase
        cases hphase
      · intro _ _ _ _ hphase
        cases hphase
      · intro tenant' hphase
        cases hphase
      · intro tenant' _ hphase
        cases hphase

/-- What holds of a request is kept by the step of another. -/
theorem FieldsCall.Kept.other (hs : s.Kept env w) : s.Kept env w' := by
  refine ⟨hs.tenant, hs.branding, hs.held, ?_⟩
  intro tenant hrequest hphase hne
  obtain ⟨hheld, row, hrow, hincarnation⟩ := hs.found tenant hrequest hphase hne
  obtain ⟨row', hrow', hsame⟩ := h.tenants hrow
  exact ⟨hheld, row', hrow', hincarnation.trans (congrArg some hsame.symm)⟩

end Step

/-- The accepted request about branding sets its fields. -/
theorem FieldsEvent.replay_branding
    {id : Nat} {request : FieldsRequest} {tenant : String} {now : Nat} {db : FieldsDb}
    (h : ∀ key patch, request ≠ .updateTenant key patch) :
  (FieldsEvent.accepted id request tenant now).replay env db
    = { db with
        branding := db.branding.upsert
          (request.setBranding env tenant now ((db.branding.find? tenant).getD .empty)) }
  := by
  cases request with
  | updateTenant key patch => exact absurd rfl (h key patch)
  | putBranding | putBrandingLogo | deleteBrandingLogo => rfl

/-- A request that is accepted sets its fields in the rows as they are. -/
theorem FieldsCall.Goes.replayed
    (h : t.Goes env w w' t') (henv : env.Lawful) (ht : t.Kept env w) {id : Nat}
    (hfind : w.calls.find? id = some t) (hmeets : w.Meets (.advance id))
    (hdb : w.db = replay env w.log db₀) :
  w'.db = replay env w'.log db₀
  := by
  have hmeets : t.Meets w := hmeets t hfind
  cases h with
  | writesTenant key patch read row current hrequest hphase hcurrent =>
      rw [FieldsCall.Meets, hphase, hrequest] at hmeets
      have hagrees : patch.Agrees read current := hmeets current hcurrent
      obtain ⟨key', patch', hrequest', hrow, _, hread⟩ := ht.tenant read row hphase
      cases hrequest'.symm.trans hrequest
      have hset : current.withColumns row = patch.set current := hagrees.withColumns hrow hread
      rw [replay, List.foldr_cons, ← replay, ← hdb, hrequest]
      rw [FieldsEvent.replay, hcurrent, hset]
  | writesBranding tenant now read row hrequest hphase =>
      rw [FieldsCall.Meets, hphase] at hmeets
      have hagrees : t.request.Agrees (read.getD .empty)
          ((w.db.branding.find? tenant).getD .empty) := by
        cases hcase : t.request with
        | updateTenant key patch => exact absurd hcase (hrequest key patch)
        | putBranding | putBrandingLogo | deleteBrandingLogo =>
            rw [hcase] at hmeets
            exact hmeets
      obtain ⟨hwanted, hread⟩ := ht.branding tenant now read row hphase
      obtain ⟨hrow, _⟩ := FieldsRequest.wanted_eq_ok henv hread hwanted
      rw [replay, List.foldr_cons, ← replay, ← hdb, FieldsEvent.replay_branding hrequest,
        hagrees.setBranding hwanted, ← hrow]
  | _ => exact hdb

/-! ### Every step -/

theorem FieldsCall.Kept.of_tenants
    (hs : s.Kept env w) (h : ∀ tenant ∈ s.held, ∀ row, w.db.tenants.find? tenant = some row →
      ∃ row', w'.db.tenants.find? tenant = some row' ∧ row'.incarnation = row.incarnation) :
  s.Kept env w'
  := by
  refine ⟨hs.tenant, hs.branding, hs.held, ?_⟩
  intro tenant hrequest hphase hne
  obtain ⟨hheld, row, hrow, hincarnation⟩ := hs.found tenant hrequest hphase hne
  obtain ⟨row', hrow', hsame⟩ := h tenant hheld row hrow
  exact ⟨hheld, row', hrow', hincarnation.trans (congrArg some hsame.symm)⟩

theorem FieldsCall.Kept.of_db (hs : s.Kept env w) (h : w'.db = w.db) : s.Kept env w' :=
  hs.of_tenants fun _ _ row hrow => ⟨row, h.symm ▸ hrow, rfl⟩

/-- The rows of branding stay as they would be stored again. -/
theorem FieldsCall.Goes.normal
    (h : t.Goes env w w' t') (henv : env.Lawful) (ht : t.Kept env w)
    (hnormal : ∀ b ∈ w.db.branding.rows, b.Normal env) :
  ∀ b ∈ w'.db.branding.rows, b.Normal env
  := by
  cases h with
  | writesBranding tenant now read row hrequest hphase =>
      intro b hb
      obtain ⟨hwanted, hread⟩ := ht.branding tenant now read row hphase
      rcases Table.mem_upsert.mp hb with rfl | ⟨hb, _⟩
      · exact (FieldsRequest.wanted_eq_ok henv hread hwanted).2.1
      · exact hnormal b hb
  | _ => exact hnormal

/-- The rows of tenants stay as they are read back. -/
theorem FieldsCall.Goes.stored
    (h : t.Goes env w w' t') (hstored : ∀ tenant ∈ w.db.tenants.rows, tenant.stored = tenant) :
  ∀ tenant ∈ w'.db.tenants.rows, tenant.stored = tenant
  := by
  cases h with
  | writesTenant key patch read row current hrequest hphase hcurrent =>
      intro tenant htenant
      rcases Table.mem_upsert.mp htenant with rfl | ⟨htenant, _⟩
      · rw [Tenant.stored, Tenant.withColumns, map_storedDays]
      · exact hstored tenant htenant
  | _ => exact hstored

/-- A step of a request that sets its fields in the rows as they are keeps what holds. -/
theorem FieldsWorld.Kept.goes
    (hw : w.Kept env db₀) (henv : env.Lawful) {id : Nat} (hfind : w.calls.find? id = some t)
    (h : t.Goes env w w' t') (hdb : w'.db = replay env w'.log db₀) :
  FieldsWorld.Kept env db₀ { w' with calls := w.calls.upsert t' }
  := by
  have ht : t ∈ w.calls.rows := (Table.find?_eq_some.mp hfind).1
  have hkept := hw.calls t ht
  have hids : w'.log.filterMap FieldsEvent.id? = w.log.filterMap FieldsEvent.id?
        ∧ t'.phase ≠ .done none
      ∨ w'.log.filterMap FieldsEvent.id? = t.id :: w.log.filterMap FieldsEvent.id?
        ∧ t'.phase = .done none := by
    rcases h.log with ⟨hlog, hphase, _⟩ | ⟨tenant, now, hlog, hphase, _⟩
    · exact .inl ⟨by rw [hlog], hphase⟩
    · exact .inr ⟨by rw [hlog]; rfl, hphase⟩
  have hfresh : t.id ∉ w.log.filterMap FieldsEvent.id? := by
    rw [← hw.logged t ht]
    rcases h.log with ⟨_, _, _, hphase⟩ | ⟨_, _, _, _, hphase⟩ <;> exact hphase none
  refine ⟨hdb, h.stored hw.stored, h.normal henv hkept hw.normal, ?_, ?_, ?_, ?_⟩
  · intro s hs
    rcases Table.mem_upsert.mp hs with rfl | ⟨hs, _⟩
    · exact (FieldsCall.Kept.own h hkept hw.stored hw.normal).of_db rfl
    · exact (FieldsCall.Kept.other h (hw.calls s hs)).of_db rfl
  · intro s hs
    rcases Table.mem_upsert.mp hs with rfl | ⟨hs, hne⟩
    · rw [h.id_eq]
      rcases hids with ⟨hlog, hphase⟩ | ⟨hlog, hphase⟩
      · exact ⟨fun he => absurd he hphase, fun he => absurd (hlog ▸ he) hfresh⟩
      · refine ⟨fun _ => ?_, fun _ => hphase⟩
        change t.id ∈ w'.log.filterMap FieldsEvent.id?
        rw [hlog]
        exact List.mem_cons_self
    · rw [h.id_eq] at hne
      rw [hw.logged s hs]
      change _ ↔ s.id ∈ w'.log.filterMap FieldsEvent.id?
      rcases hids with ⟨hlog, _⟩ | ⟨hlog, _⟩
      · rw [hlog]
      · rw [hlog, List.mem_cons, or_iff_right hne]
  · intro id' request tenant now hmem
    have hkeep : ∀ s ∈ w.calls.rows, s.id = id' → s.request = request →
        ∃ s ∈ (w.calls.upsert t').rows, s.id = id' ∧ s.request = request := by
      intro s hs hid hrequest
      by_cases hsame : s.id = t'.id
      · have heq : s = t := w.calls.eq_of_key_eq hs ht (hsame.trans h.id_eq)
        subst heq
        exact ⟨t', Table.mem_upsert.mpr (.inl rfl), h.id_eq.trans hid, h.request_eq.trans hrequest⟩
      · exact ⟨s, Table.mem_upsert.mpr (.inr ⟨hs, hsame⟩), hid, hrequest⟩
    have hmem : .accepted id' request tenant now ∈ w'.log := hmem
    rcases h.log with ⟨hlog, _⟩ | ⟨tenant', now', hlog, _⟩
    · rw [hlog] at hmem
      obtain ⟨s, hs, hid, hrequest⟩ := hw.known id' request tenant now hmem
      exact hkeep s hs hid hrequest
    · rw [hlog] at hmem
      rcases List.mem_cons.mp hmem with he | hmem
      · cases he
        exact hkeep t ht rfl rfl
      · obtain ⟨s, hs, hid, hrequest⟩ := hw.known id' request tenant now hmem
        exact hkeep s hs hid hrequest
  · change (w'.log.filterMap FieldsEvent.id?).Nodup
    rcases hids with ⟨hlog, _⟩ | ⟨hlog, _⟩
    · rw [hlog]
      exact hw.nodup
    · rw [hlog]
      exact List.nodup_cons.mpr ⟨hfresh, hw.nodup⟩

/-- Every step keeps what holds, when no field that a request does not carry has changed. -/
theorem FieldsWorld.kept_step
    {op : FieldsOp} (henv : env.Lawful) (hw : w.Kept env db₀) (hmeets : w.Meets op)
    (h : w.step env op = some w') :
  w'.Kept env db₀
  := by
  cases op with
  | call id identity request =>
      obtain ⟨calls, hcalls, rfl⟩ := Option.map_eq_some_iff.mp h
      obtain ⟨habsent, hrows⟩ := Table.insert?_eq_some.mp hcalls
      have hfresh : id ∉ w.log.filterMap FieldsEvent.id? := by
        intro hmem
        obtain ⟨event, hevent, hid⟩ := List.mem_filterMap.mp hmem
        cases event with
        | accepted id' request' tenant now =>
            cases hid
            obtain ⟨s, hs, hsid, _⟩ := hw.known _ request' tenant now hevent
            exact Table.find?_eq_none.mp habsent s hs hsid
        | created _ | removed _ => cases hid
      refine ⟨hw.db, hw.stored, hw.normal, ?_, ?_, ?_, hw.nodup⟩
      · intro s hs
        rw [hrows] at hs
        rcases List.mem_cons.mp hs with rfl | hs
        · apply FieldsCall.Kept.of_phase
          · intro _ _ hphase
            cases hphase
          · intro _ _ _ _ hphase
            cases hphase
          · intro _ hphase
            cases hphase
          · intro _ _ hphase
            cases hphase
        · exact (hw.calls s hs).of_db rfl
      · intro s hs
        rw [hrows] at hs
        rcases List.mem_cons.mp hs with rfl | hs
        · exact ⟨fun he => (nomatch he), fun he => absurd he hfresh⟩
        · exact hw.logged s hs
      · intro id' request' tenant now hmem
        obtain ⟨s, hs, hboth⟩ := hw.known id' request' tenant now hmem
        exact ⟨s, hrows ▸ List.mem_cons_of_mem _ hs, hboth⟩
  | advance id =>
      obtain ⟨t, hfind, h⟩ := Option.bind_eq_some_iff.mp h
      obtain ⟨⟨v, t'⟩, hgo, rfl⟩ := Option.map_eq_some_iff.mp h
      have hgoes := fieldsStep_goes hgo
      have ht := hw.calls t (Table.find?_eq_some.mp hfind).1
      exact hw.goes henv hfind hgoes (hgoes.replayed henv ht hfind hmeets hw.db)
  | fail id refusal =>
      obtain ⟨t, hfind, h⟩ := Option.bind_eq_some_iff.mp h
      have hend : (∀ r, t.phase ≠ .done r)
          ∧ w' = { w with calls := w.calls.upsert (t.ends (some refusal)) } := by
        split at h
        · cases h
        · next hphase =>
            cases h
            exact ⟨fun r he => hphase r he, rfl⟩
      obtain ⟨hphase, rfl⟩ := hend
      exact hw.goes henv hfind (.refuses refusal hphase) hw.db
  | createTenant tenant =>
      rw [step] at h
      split_ifs at h
      obtain ⟨tenants, htenants, rfl⟩ := Option.map_eq_some_iff.mp h
      obtain ⟨habsent, hrows⟩ := Table.insert?_eq_some.mp htenants
      refine ⟨?_, ?_, hw.normal, ?_, hw.logged, ?_, hw.nodup⟩
      · have heq : tenants = w.db.tenants.upsert tenant.stored := by
          apply Table.ext
          rw [hrows, Table.rows_upsert, Table.erase_of_absent habsent]
        rw [replay, List.foldr_cons, ← replay, ← hw.db, FieldsEvent.replay, heq]
      · intro row hrow
        rw [hrows] at hrow
        rcases List.mem_cons.mp hrow with rfl | hrow
        · exact tenant.stored_stored
        · exact hw.stored row hrow
      · intro s hs
        refine (hw.calls s hs).of_tenants fun key _ row hrow => ⟨row, ?_, rfl⟩
        obtain ⟨hmem, hkey⟩ := Table.find?_eq_some.mp hrow
        exact Table.find?_eq_some.mpr ⟨hrows ▸ List.mem_cons_of_mem _ hmem, hkey⟩
      · intro id request key now hmem
        rcases List.mem_cons.mp hmem with he | hmem
        · cases he
        · exact hw.known id request key now hmem
  | pin key =>
      rw [step] at h
      split_ifs at h
      cases h
      exact ⟨hw.db, hw.stored, hw.normal, fun s hs => (hw.calls s hs).of_db rfl, hw.logged,
        hw.known, hw.nodup⟩
  | removeTenant key =>
      rw [step] at h
      split_ifs at h with hbusy
      cases h
      refine ⟨?_, fun row hrow => hw.stored row (Table.mem_erase.mp hrow).1,
        fun b hb => hw.normal b (Table.mem_erase.mp hb).1, ?_, hw.logged, ?_, hw.nodup⟩
      · rw [replay, List.foldr_cons, ← replay, ← hw.db, FieldsEvent.replay]
      · intro s hs
        refine (hw.calls s hs).of_tenants fun key' hkey' row hrow => ⟨row, ?_, rfl⟩
        have hne : key' ≠ key := by
          rintro rfl
          apply hbusy
          right
          exact List.any_eq_true.mpr ⟨s, hs, decide_eq_true hkey'⟩
        exact (Table.find?_erase _ _ _).trans ((if_neg hne).trans hrow)
      · intro id request key' now hmem
        rcases List.mem_cons.mp hmem with he | hmem
        · cases he
        · exact hw.known id request key' now hmem
  | unpin _ | wait _ =>
      cases h
      exact ⟨hw.db, hw.stored, hw.normal, fun s hs => (hw.calls s hs).of_db rfl, hw.logged,
        hw.known, hw.nodup⟩

/-! ### Every run -/

/-- Nothing was asked for yet. -/
structure FieldsWorld.Begins (env : FieldsEnv) (w : FieldsWorld) : Prop where
  calls : w.calls.rows = []
  log : w.log = []
  stored : ∀ tenant ∈ w.db.tenants.rows, tenant.stored = tenant
  normal : ∀ b ∈ w.db.branding.rows, b.Normal env

theorem FieldsWorld.Begins.kept (h₀ : w.Begins env) : w.Kept env w.db where
  db := by rw [h₀.log]; rfl
  stored := h₀.stored
  normal := h₀.normal
  calls t ht := nomatch (h₀.calls ▸ ht : t ∈ [])
  logged t ht := nomatch (h₀.calls ▸ ht : t ∈ [])
  known id request tenant now hmem :=
    nomatch (h₀.log ▸ hmem : FieldsEvent.accepted id request tenant now ∈ [])
  nodup := by rw [h₀.log]; exact List.nodup_nil

/-- In every run in which each request writes a row that it has computed from one in which the
fields that it does not carry are as they are then, the rows are those of what happened one after
another, where an accepted request sets the fields that it carries; each accepted request is one of
them; and it changes the incarnation of the tenant that it has read. -/
theorem fields_serial
    {w₀ : FieldsWorld} {ops : List FieldsOp} (henv : env.Lawful) (h₀ : w₀.Begins env)
    (hmeets : Runs.Along (FieldsWorld.step env) FieldsWorld.Meets w₀ ops)
    (h : Runs.run (FieldsWorld.step env) w₀ ops = some w) :
  w.db = replay env w.log w₀.db
  ∧ (∀ t ∈ w.calls.rows, t.phase = .done none
    ↔ ∃ tenant now, .accepted t.id t.request tenant now ∈ w.log)
  ∧ (w.log.filterMap FieldsEvent.id?).Nodup
  ∧ ∀ id t w' tenant now, w.calls.find? id = some t → w.Meets (.advance id) →
    w.step env (.advance id) = some w' → w'.log = .accepted id t.request tenant now :: w.log →
    tenant ≠ "" → ∃ row, w.db.tenants.find? tenant = some row
      ∧ t.incarnation = some row.incarnation
  := by
  have hw : w.Kept env w₀.db := Runs.run_invariant_along
    (fun _ _ _ hmeets hw hstep => FieldsWorld.kept_step henv hw hmeets hstep) hmeets h₀.kept h
  refine ⟨hw.db, ?_, hw.nodup, ?_⟩
  · intro t ht
    rw [hw.logged t ht, List.mem_filterMap]
    constructor
    · rintro ⟨event, hevent, hid⟩
      cases event with
      | accepted id request tenant now =>
          obtain ⟨s, hs, hsid, hrequest⟩ := hw.known id request tenant now hevent
          cases hid
          have heq : s = t := w.calls.eq_of_key_eq hs ht hsid
          subst heq
          exact ⟨tenant, now, hrequest ▸ hevent⟩
      | created _ | removed _ => cases hid
    · rintro ⟨tenant, now, hevent⟩
      exact ⟨_, hevent, rfl⟩
  · intro id t w' tenant now hfind hmeets hstep hlog hne
    obtain ⟨s, hs, hstep⟩ := Option.bind_eq_some_iff.mp hstep
    cases hs.symm.trans hfind
    obtain ⟨⟨v, t'⟩, hgo, rfl⟩ := Option.map_eq_some_iff.mp hstep
    have ht := hw.calls t (Table.find?_eq_some.mp hfind).1
    replace hlog : v.log = .accepted id t.request tenant now :: w.log := hlog
    have hgoes := fieldsStep_goes hgo
    cases hgoes with
    | writesTenant key patch read row current hrequest hphase hcurrent =>
        cases hlog
        obtain ⟨_, _, _, _, hincarnation, _⟩ := ht.tenant read row hphase
        have hmeets : t.Meets w := hmeets t hfind
        rw [FieldsCall.Meets, hphase, hrequest] at hmeets
        have hagrees : patch.Agrees read current := hmeets current hcurrent
        exact ⟨current, hcurrent, hincarnation.trans (congrArg some hagrees.incarnation.symm)⟩
    | writesBranding tenant' now' read row hrequest hphase =>
        cases hlog
        exact (ht.found tenant hrequest (.inr ⟨now, read, row, hphase⟩) hne).2
    | _ => exact (List.ne_cons_self hlog).elim

/-- A server to which no URL is one. -/
def bareEnv : FieldsEnv where
  parseUrl _ := none
  admitDest := .ok

theorem bareEnv_lawful : bareEnv.Lawful where
  parse_text _ _ h := nomatch h
  trim_text _ _ h := nomatch h

/-- One tenant, and no requests yet. -/
def oneTenant : FieldsWorld where
  db := { tenants := ⟨[acme "one"], List.nodup_singleton _⟩, branding := .empty }
  pinned := []
  now := 0
  calls := .empty
  log := []

theorem oneTenant_begins : oneTenant.Begins bareEnv where
  calls := rfl
  log := rfl
  stored := by decide
  normal _ h := nomatch h

/-- A new label. -/
def labelPatch : TenantPatch := ⟨some "New", none, none, none, none, none⟩

/-- A limit on the links, and days that are more than a column holds. -/
def linksPatch : TenantPatch := ⟨none, none, none, some (some 7), none, some (some (2 ^ 63))⟩

/-- Two requests are called. -/
def twoPatches : List FieldsOp :=
  [.call 1 .localAdmin (.updateTenant "acme" labelPatch),
    .call 2 .localAdmin (.updateTenant "acme" linksPatch)]

/-- The requests on the row of the tenant come one after the other, between the steps of one that
changes its branding. -/
def oneBetween : List FieldsOp :=
  twoPatches ++ [.call 3 .localAdmin (.putBranding "acme" ⟨"Acme", "", none, none, none⟩),
      .advance 3, .advance 1, .advance 3, .advance 1, .advance 3, .advance 1]
    ++ List.replicate 3 (.advance 2) ++ [.advance 3]

theorem fields_serial_twice :
  ∃ w, Runs.run (FieldsWorld.step bareEnv) oneTenant oneBetween = some w
    ∧ w.db = replay bareEnv w.log oneTenant.db
    ∧ (∀ t ∈ w.calls.rows, ∃ tenant now, .accepted t.id t.request tenant now ∈ w.log)
    ∧ w.db.tenants.find? "acme" = some { acme "one" with
      label := "New", maxLinks := some 7, retentionDays := some (2 ^ 63 - 1) }
    ∧ (w.db.branding.find? "acme").map Branding.name = some "Acme"
  := by
  obtain ⟨w, hw, hfacts⟩ := (Option.any_eq_true _ _).mp
    (show (Runs.run (FieldsWorld.step bareEnv) oneTenant oneBetween).any (fun w =>
        (w.calls.rows.all fun t => t.phase = .done none)
        && decide (w.db.tenants.find? "acme" = some { acme "one" with
          label := "New", maxLinks := some 7, retentionDays := some (2 ^ 63 - 1) })
        && decide ((w.db.branding.find? "acme").map Branding.name = some "Acme")) = true
      by decide)
  simp only [Bool.and_eq_true, List.all_eq_true, decide_eq_true_eq] at hfacts
  obtain ⟨⟨hdone, hrow⟩, hname⟩ := hfacts
  have hmeets : Runs.Along (FieldsWorld.step bareEnv) FieldsWorld.Meets oneTenant oneBetween := by
    decide
  obtain ⟨hdb, haccepted, _⟩ := fields_serial bareEnv_lawful oneTenant_begins hmeets hw
  exact ⟨w, hw, hdb, fun t ht => (haccepted t ht).mp (hdone t ht), hrow, hname⟩

/-- Both requests read the row before either writes it. -/
def bothRead : List FieldsOp :=
  twoPatches ++ List.replicate 2 (.advance 1) ++ List.replicate 2 (.advance 2)
    ++ [.advance 1, .advance 2]

/-- The tenant is removed and made again after a request has read its row. -/
def readBefore : List FieldsOp :=
  [.call 1 .localAdmin (.updateTenant "acme" labelPatch), .advance 1, .advance 1, .pin "acme",
    .removeTenant "acme", .unpin "acme", .createTenant (acme "two"), .advance 1]

/-- A logo is stored after a request has read the row of the branding and before it writes it. -/
def logoBetween : List FieldsOp :=
  [.call 1 .localAdmin (.putBranding "default" ⟨"Acme", "", none, none, none⟩),
    .call 2 .localAdmin (.putBrandingLogo "default" "image/svg+xml" [0])]
    ++ List.replicate 3 (.advance 1) ++ List.replicate 4 (.advance 2) ++ [.advance 1]

/-- Two accepted requests leave the row of neither order; a request that was accepted for one
incarnation of a tenant changes the next; and a logo that was stored is gone after another request
changed the name. -/
theorem updates_lost :
  (∃ w row, Runs.run (FieldsWorld.step bareEnv) oneTenant bothRead = some w
    ∧ (w.calls.find? 1).map FieldsCall.phase = some (.done none)
    ∧ (w.calls.find? 2).map FieldsCall.phase = some (.done none)
    ∧ w.db.tenants.find? "acme" = some row
    ∧ row ≠ linksPatch.set (labelPatch.set (acme "one"))
    ∧ row ≠ labelPatch.set (linksPatch.set (acme "one")))
  ∧ (∃ w t row, Runs.run (FieldsWorld.step bareEnv) oneTenant readBefore = some w
    ∧ w.calls.find? 1 = some t ∧ t.phase = .done none ∧ t.incarnation = some "one"
    ∧ w.db.tenants.find? "acme" = some row ∧ row.incarnation = "two" ∧ row.label = "New")
  ∧ ∃ w row, Runs.run (FieldsWorld.step bareEnv) oneTenant logoBetween = some w
    ∧ (w.calls.find? 1).map FieldsCall.phase = some (.done none)
    ∧ (w.calls.find? 2).map FieldsCall.phase = some (.done none)
    ∧ w.db.branding.find? "" = some row ∧ row.logoExt = ""
  := by
  refine ⟨?_, ?_, ?_⟩
  · obtain ⟨w, hw, hfacts⟩ := (Option.any_eq_true _ _).mp
      (show (Runs.run (FieldsWorld.step bareEnv) oneTenant bothRead).any (fun w =>
          (w.calls.find? 1).map FieldsCall.phase = some (.done none)
          ∧ (w.calls.find? 2).map FieldsCall.phase = some (.done none)
          ∧ (w.db.tenants.find? "acme").any fun row =>
            row ≠ linksPatch.set (labelPatch.set (acme "one"))
            ∧ row ≠ labelPatch.set (linksPatch.set (acme "one"))) = true
        by decide)
    obtain ⟨hfirst, hsecond, hrow⟩ := of_decide_eq_true hfacts
    obtain ⟨row, hfind, hne⟩ := (Option.any_eq_true _ _).mp hrow
    obtain ⟨hne₁, hne₂⟩ := of_decide_eq_true hne
    exact ⟨w, row, hw, hfirst, hsecond, hfind, hne₁, hne₂⟩
  · obtain ⟨w, hw, hfacts⟩ := (Option.any_eq_true _ _).mp
      (show (Runs.run (FieldsWorld.step bareEnv) oneTenant readBefore).any (fun w =>
          (w.calls.find? 1).any (fun t => t.phase = .done none ∧ t.incarnation = some "one")
          && (w.db.tenants.find? "acme").any fun row =>
            row.incarnation = "two" ∧ row.label = "New") = true
        by decide)
    obtain ⟨hcall, hrow⟩ := Bool.and_eq_true_iff.mp hfacts
    obtain ⟨t, hfind, ht⟩ := (Option.any_eq_true _ _).mp hcall
    obtain ⟨row, hrow, hnew⟩ := (Option.any_eq_true _ _).mp hrow
    obtain ⟨hphase, hincarnation⟩ := of_decide_eq_true ht
    obtain ⟨htwo, hlabel⟩ := of_decide_eq_true hnew
    exact ⟨w, t, row, hw, hfind, hphase, hincarnation, hrow, htwo, hlabel⟩
  · obtain ⟨w, hw, hfacts⟩ := (Option.any_eq_true _ _).mp
      (show (Runs.run (FieldsWorld.step bareEnv) oneTenant logoBetween).any (fun w =>
          (w.calls.find? 1).map FieldsCall.phase = some (.done none)
          ∧ (w.calls.find? 2).map FieldsCall.phase = some (.done none)
          ∧ (w.db.branding.find? "").any fun row => row.logoExt = "") = true
        by decide)
    obtain ⟨hfirst, hsecond, hrow⟩ := of_decide_eq_true hfacts
    obtain ⟨row, hfind, hlogo⟩ := (Option.any_eq_true _ _).mp hrow
    exact ⟨w, row, hw, hfirst, hsecond, hfind, of_decide_eq_true hlogo⟩

end Votport.Admin
