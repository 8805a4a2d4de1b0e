import Votport.Delivery.Policy

/-!
# The cache of policies

Whether a grant without a job delivers protected files is cached by whoever asks first.  Each
operation that can make a grant protected forgets or rewrites what is cached of it, so the
cache never says of a protected grant that it is not, and nobody is given the files of such a
grant without a released job.
-/

namespace Votport

variable {δ : Type} {env : DeliveryEnv δ} {db db' : PortDb δ}

/-! ### Coherence -/

/-- What is cached of a grant that is there does not leave it unprotected. -/
structure PolicyCoherent (env : DeliveryEnv δ) (db : PortDb δ) : Prop where
  live : ∀ c ∈ db.rest.cache.rows, ∃ g ∈ db.rest.grants.rows, g.id = c.grantId
  cached : ∀ c ∈ db.rest.cache.rows, ∀ g ∈ db.rest.grants.rows, g.id = c.grantId →
    protectsGrant env db g → c.isProtected = true
  /-- The uploads that a workflow owns are ones of links that are there. -/
  owned : ∀ p ∈ db.rest.receiveUploads, (db.links.find? p.1).isSome = true

/-- A grant that was protected before: the projects and the uploads that protect it were
there. -/
theorem protectsGrant.before
    {g g' : DeliveryGrantRow} (h : protectsGrant env db' g') (hsame : g.SameFiles g')
    (hprojects : ∀ p ∈ db'.rest.projects.rows, p.tenant = g.tenant → p ∈ db.rest.projects.rows)
    (hreceived : receivedRequiresWorkflow db' g.tenant g.linkId g.uploadId →
      receivedRequiresWorkflow db g.tenant g.linkId g.uploadId) :
  protectsGrant env db g
  := by
  rcases h with ⟨p, hp, htenant, source, hsource, hwithin⟩ | hrequires
  · rw [hsame.tenant] at htenant
    rw [hsame.sources] at hsource
    exact Or.inl ⟨p, hprojects p hp htenant, htenant, source, hsource, hwithin⟩
  · rw [hsame.tenant, hsame.linkId, hsame.uploadId] at hrequires
    exact Or.inr (hreceived hrequires)

/-- The cache stays coherent where what it keeps of the grants was so before. -/
theorem PolicyCoherent.shrink
    (h : PolicyCoherent env db)
    (hcache : ∀ c ∈ db'.rest.cache.rows, c ∈ db.rest.cache.rows
      ∧ ∃ g' ∈ db'.rest.grants.rows, g'.id = c.grantId)
    (hgrants : ∀ c ∈ db'.rest.cache.rows, ∀ g' ∈ db'.rest.grants.rows, g'.id = c.grantId →
      protectsGrant env db' g' → ∃ g ∈ db.rest.grants.rows, g.id = g'.id ∧ protectsGrant env db g)
    (howned : ∀ p ∈ db'.rest.receiveUploads, (db'.links.find? p.1).isSome = true) :
  PolicyCoherent env db'
  := by
  refine ⟨fun c hc => (hcache c hc).2, ?_, howned⟩
  intro c hc g' hg' hid hprotects
  obtain ⟨g, hg, hsame, hprotects⟩ := hgrants c hc g' hg' hid hprotects
  exact h.cached c (hcache c hc).1 g hg (hsame.trans hid) hprotects

theorem PolicyCoherent.keeps
    {w w' : DeliveryWorld δ} (h : PolicyCoherent env w.db) (hkeeps : w.KeepsPolicy w') :
  PolicyCoherent env w'.db
  := by
  have hlinks := hkeeps.links
  have hreceive := hkeeps.receiveUploads
  apply h.shrink
  · intro c hc
    rw [hkeeps.cache] at hc
    obtain ⟨g, hg, hid⟩ := h.live c hc
    obtain ⟨g', hg', hsame⟩ := hkeeps.grants.kept g hg
    exact ⟨hc, g', hg', hsame.trans hid⟩
  · intro c hc g' hg' hid hprotects
    rw [hkeeps.cache] at hc
    rcases hkeeps.grants.origin g' hg' with ⟨g, hg, hsame⟩ | habsent
    · refine ⟨g, hg, hsame.id.symm, hprotects.before hsame ?_ ?_⟩
      · intro p hp _
        rw [← hkeeps.projects]
        exact hp
      · rw [receivedRequiresWorkflow, receivedRequiresWorkflow, UploadDb.link?, UploadDb.link?,
          hlinks, hreceive]
        exact id
    · -- Nothing is cached of a grant that is new.
      obtain ⟨g, hg, hgid⟩ := h.live c hc
      have hfound := Table.find?_key hg
      rw [hgid.trans hid.symm, habsent] at hfound
      cases hfound
  · intro p hp
    rw [hreceive] at hp
    rw [hlinks]
    exact h.owned p hp

/-! ### Writers -/

theorem PolicyCoherent.saveProject
    {tenant : String} {project stored : Project} {rest : DeliveryDb}
    (h : PolicyCoherent env db)
    (hsave : db.rest.saveDeliveryProject env tenant project = .ok (stored, rest)) :
  PolicyCoherent env { db with rest := rest }
  := by
  obtain ⟨_, _, _, _, rfl⟩ := DeliveryDb.saveProject_eq_ok hsave
  apply h.shrink
  · intro c hc
    have hc := (Table.mem_filter.mp hc).1
    exact ⟨hc, h.live c hc⟩
  · intro c hc g hg hid hprotects
    have hother : g.tenant ≠ tenant := by
      intro htenant
      exact (Table.mem_filter.mp hc).2 ⟨g, hg, hid, htenant⟩
    refine ⟨g, hg, rfl, hprotects.before (.refl g) ?_ id⟩
    intro p hp htenant
    rcases Table.mem_upsert.mp hp with rfl | ⟨hp, _⟩
    · exact absurd htenant.symm hother
    · exact hp
  · exact h.owned

/-- What is cached after the grants of an upload are noted. -/
theorem DeliveryDb.mem_protectUpload
    {db : DeliveryDb} {tenant linkId uploadId : String} {c : PolicyCacheRow}
    (hc : c ∈ (db.protectUpload tenant linkId uploadId).rows) :
  c.isProtected = true ∧ (∃ g ∈ db.grants.rows, g.id = c.grantId)
    ∨ c ∈ db.cache.rows ∧ ∀ g ∈ db.grants.rows, g.tenant = tenant → g.linkId = linkId →
      g.uploadId = uploadId → g.id ≠ c.grantId
  := by
  have hfold : ∀ (grants : List DeliveryGrantRow) (cache : Table PolicyCacheRow.grantId),
      c ∈ (grants.foldl (fun cache g => cache.upsert ⟨g.id, true⟩) cache).rows →
      (∃ g ∈ grants, c = ⟨g.id, true⟩) ∨ c ∈ cache.rows ∧ ∀ g ∈ grants, g.id ≠ c.grantId := by
    intro grants
    induction grants with
    | nil =>
        intro cache hc
        refine Or.inr ⟨hc, ?_⟩
        intro g hg
        cases hg
    | cons g grants ih =>
        intro cache hc
        rcases ih _ hc with ⟨s, hs, heq⟩ | ⟨hc, hne⟩
        · exact Or.inl ⟨s, List.mem_cons_of_mem _ hs, heq⟩
        · rcases Table.mem_upsert.mp hc with heq | ⟨hc, hkey⟩
          · exact Or.inl ⟨g, List.mem_cons_self, heq⟩
          · refine Or.inr ⟨hc, ?_⟩
            intro s hs
            rcases List.mem_cons.mp hs with rfl | hs
            · exact Ne.symm hkey
            · exact hne s hs
  rcases hfold _ _ hc with ⟨g, hg, rfl⟩ | ⟨hc, hne⟩
  · exact Or.inl ⟨rfl, g, (List.mem_filter.mp hg).1, rfl⟩
  · refine Or.inr ⟨hc, ?_⟩
    intro g hg htenant hlink hupload
    apply hne g
    rw [List.mem_filter, decide_eq_true_iff]
    exact ⟨hg, htenant, hlink, hupload⟩

theorem PolicyCoherent.commit
    {jobId tenant linkId session : String} {upload : UploadRecord} {now : UInt64}
    {uploadId : Option String} (h : PolicyCoherent env db)
    (hcommit : appendUpload (env.uploads jobId now) db tenant linkId upload (some session)
      = .ok (uploadId, db')) :
  PolicyCoherent env db'
  := by
  obtain ⟨hlinks, hprojects, hgrants, ⟨hreceive, hcache⟩ | ⟨hlink, hreceive, hcache⟩⟩ :=
    appendUpload_policy hcommit
  · apply h.shrink
    · intro c hc
      rw [hcache] at hc
      rw [hgrants]
      exact ⟨hc, h.live c hc⟩
    · intro c _ g hg _ hprotects
      rw [hgrants] at hg
      refine ⟨g, hg, rfl, hprotects.before (.refl g) ?_ ?_⟩
      · rw [hprojects]
        exact fun p hp _ => hp
      · rw [receivedRequiresWorkflow, receivedRequiresWorkflow, UploadDb.link?, UploadDb.link?,
          hlinks, hreceive]
        exact id
    · rw [hreceive, hlinks]
      exact h.owned
  · constructor
    · intro c hc
      rw [hcache] at hc
      rw [hgrants]
      rcases DeliveryDb.mem_protectUpload hc with ⟨_, hg⟩ | ⟨hc, _⟩
      · exact hg
      · exact h.live c hc
    · intro c hc g hg hid hprotects
      rw [hcache] at hc
      rw [hgrants] at hg
      rcases DeliveryDb.mem_protectUpload hc with ⟨hprotected, _⟩ | ⟨hc, hnot⟩
      · exact hprotected
      · apply h.cached c hc g hg hid
        apply hprotects.before (.refl g)
        · rw [hprojects]
          exact fun p hp _ => hp
        · rintro ⟨hmem, hsome⟩
          rw [UploadDb.link?, hlinks] at hsome
          rw [hreceive] at hmem
          rcases List.mem_cons.mp hmem with heq | hmem
          · -- The grant of the upload is noted by the commit.
            obtain ⟨rfl, hupload⟩ := Prod.mk.inj heq
            obtain ⟨link, hsome⟩ := Option.isSome_iff_exists.mp hsome
            obtain ⟨row, hrow⟩ := Option.isSome_iff_exists.mp hlink
            obtain ⟨hfound, htenant⟩ := Option.filter_eq_some_iff.mp hsome
            obtain ⟨hfound', htenant'⟩ := Option.filter_eq_some_iff.mp hrow
            rw [hfound] at hfound'
            cases hfound'
            exact absurd hid (hnot g hg
              ((of_decide_eq_true htenant).symm.trans (of_decide_eq_true htenant')) rfl
                hupload)
          · exact ⟨hmem, hsome⟩
    · intro p hp
      rw [hreceive] at hp
      rw [hlinks]
      rcases List.mem_cons.mp hp with rfl | hp
      · obtain ⟨row, hrow⟩ := Option.isSome_iff_exists.mp hlink
        rw [(Option.filter_eq_some_iff.mp hrow).1]
        rfl
      · exact h.owned p hp

theorem PolicyCoherent.purge (h : PolicyCoherent env db) (now : UInt64) :
  PolicyCoherent env { db with rest := db.rest.purgeExpiredRevokedGrants now }
  := by
  rcases db.rest.purge_eq now with hrest | ⟨kept, hkept, hrest⟩
  · rw [hrest]
    exact h
  · rw [hrest]
    apply h.shrink
    · intro c hc
      obtain ⟨hc, hsome⟩ := Table.mem_filter.mp hc
      obtain ⟨g, hg⟩ := Option.isSome_iff_exists.mp hsome
      exact ⟨hc, g, Table.find?_eq_some.mp hg⟩
    · intro c _ g hg _ hprotects
      exact ⟨g, hkept g hg, rfl, hprotects⟩
    · exact h.owned

theorem PolicyCoherent.release (h : PolicyCoherent env db) (grantId : String) :
  PolicyCoherent env { db with rest := (releaseIn env db grantId).2 }
  := by
  rcases releaseIn_cache env db grantId with hrest | ⟨grant, hgrant, hrest⟩
  · rw [hrest]
    exact h
  · rw [hrest]
    obtain ⟨hmem, hid⟩ := Table.find?_eq_some.mp hgrant
    constructor
    · intro c hc
      rcases Table.mem_upsert.mp hc with rfl | ⟨hc, _⟩
      · exact ⟨grant, hmem, hid⟩
      · exact h.live c hc
    · intro c hc g hg hgid hprotects
      rcases Table.mem_upsert.mp hc with rfl | ⟨hc, _⟩
      · cases db.rest.grants.eq_of_key_eq hg hmem (hgid.trans hid.symm)
        exact decide_eq_true hprotects
      · exact h.cached c hc g hg hgid hprotects
    · exact h.owned

theorem PolicyCoherent.access
    (h : PolicyCoherent env db) (grantId tokenHash : String) (now : UInt64) :
  PolicyCoherent env { db with rest := (deliveryAccessIn env db grantId tokenHash now).2 }
  := by
  rcases deliveryAccessIn_cache env db grantId tokenHash now with hrest | hrest
  · rw [hrest]
    exact h
  · rw [hrest]
    exact h.release grantId

theorem PolicyCoherent.removeLink
    {tenant id : String} {removed : Bool} (h : PolicyCoherent env db)
    (hremove : Votport.removeLink db tenant id = .ok (removed, db')) :
  PolicyCoherent env db'
  := by
  rcases removeLink_eq_ok hremove with rfl | ⟨hrest, hlinks⟩
  · exact h
  · have hfound : ∀ linkId link, db'.links.find? linkId = some link →
        db.links.find? linkId = some link := by
      intro linkId link hfind
      rw [hlinks, Table.find?_filter, Option.filter_eq_some_iff] at hfind
      exact hfind.1
    apply h.shrink
    · intro c hc
      rw [hrest] at hc ⊢
      exact ⟨hc, h.live c hc⟩
    · intro c _ g hg _ hprotects
      rw [hrest] at hg
      refine ⟨g, hg, rfl, hprotects.before (.refl g) ?_ ?_⟩
      · rw [hrest]
        exact fun p hp _ => hp
      · rintro ⟨hmem, hsome⟩
        rw [hrest] at hmem
        refine ⟨(List.mem_filter.mp hmem).1, ?_⟩
        obtain ⟨link, hlink⟩ := Option.isSome_iff_exists.mp hsome
        obtain ⟨hfind, htenant⟩ := Option.filter_eq_some_iff.mp hlink
        rw [UploadDb.link?, hfound _ _ hfind, Option.filter_some, if_pos htenant]
        rfl
    · intro p hp
      rw [hrest] at hp
      obtain ⟨hp, hother⟩ := List.mem_filter.mp hp
      obtain ⟨link, hlink⟩ := Option.isSome_iff_exists.mp (h.owned p hp)
      rw [hlinks, Table.find?_filter, hlink, Option.filter_some, if_pos]
      · rfl
      · have hid : link.id = p.1 := (Table.find?_eq_some.mp hlink).2
        simp only [decide_eq_true_iff, ne_eq] at hother ⊢
        rw [hid]
        exact fun hboth => hother hboth.2

theorem PolicyCoherent.removeTenant
    {key : String} {removal : TenantRemoval} (h : PolicyCoherent env db)
    (hremove : Votport.removeTenant db key = .ok (removal, db')) :
  PolicyCoherent env db'
  := by
  rcases removeTenant_eq_ok hremove with rfl | ⟨⟨endpoints, hrest⟩, hlinks⟩
  · exact h
  · apply h.shrink
    · intro c hc
      rw [hrest] at hc ⊢
      obtain ⟨hc, hother⟩ := Table.mem_filter.mp hc
      obtain ⟨g, hg, hid⟩ := h.live c hc
      refine ⟨hc, g, Table.mem_filter.mpr ⟨hg, ?_⟩, hid⟩
      exact fun htenant => hother ⟨g, hg, hid, htenant⟩
    · intro c _ g hg _ hprotects
      rw [hrest] at hg
      refine ⟨g, (Table.mem_filter.mp hg).1, rfl, hprotects.before (.refl g) ?_ ?_⟩
      · intro p hp _
        rw [hrest] at hp
        exact (Table.mem_filter.mp hp).1
      · rw [receivedRequiresWorkflow, receivedRequiresWorkflow, UploadDb.link?, UploadDb.link?,
          hlinks, hrest]
        exact id
    · intro p hp
      rw [hrest] at hp
      rw [hlinks]
      exact h.owned p hp

/-- A link is inserted, or the one with its id and tenant is written. -/
def saveLink (db : PortDb δ) (link : LinkRow δ) : PortDb δ :=
  if (db.links.find? link.id).all fun row => row.tenant = link.tenant then
    { db with links := db.links.upsert link }
  else db

theorem PolicyCoherent.saveLink (h : PolicyCoherent env db) (link : LinkRow δ) :
  PolicyCoherent env (saveLink db link)
  := by
  rw [Votport.saveLink]
  split
  · rename_i hsame
    apply h.shrink
    · intro c hc
      exact ⟨hc, h.live c hc⟩
    · intro c _ g hg _ hprotects
      refine ⟨g, hg, rfl, hprotects.before (.refl g) (fun p hp _ => hp) ?_⟩
      rintro ⟨hmem, hsome⟩
      refine ⟨hmem, ?_⟩
      obtain ⟨row, hrow⟩ := Option.isSome_iff_exists.mp (h.owned _ hmem)
      obtain ⟨found, hfound⟩ := Option.isSome_iff_exists.mp hsome
      obtain ⟨hfind, htenant⟩ := Option.filter_eq_some_iff.mp hfound
      rw [Table.find?_upsert] at hfind
      rw [UploadDb.link?, hrow, Option.filter_some, if_pos]
      · rfl
      · split at hfind
        · -- The link of the upload was there before it was written.
          rename_i hid
          cases hfind
          rw [hid] at hrow
          rw [hrow, Option.all_some] at hsame
          rw [decide_eq_true_iff] at hsame htenant ⊢
          exact hsame.trans htenant
        · rw [hrow] at hfind
          cases hfind
          exact htenant
    · intro p hp
      rw [Table.find?_upsert]
      split
      · rfl
      · exact h.owned p hp
  · exact h

/-! ### Runs -/

/-- An operation of a port whose links and tenants come and go. -/
inductive PolicyOp (δ : Type)
  | deliver (op : DeliveryOp δ)
  /-- A recipient asks for a grant with its token. -/
  | access (grantId tokenHash : String)
  | saveLink (link : LinkRow δ)
  | removeLink (tenant id : String)
  | removeTenant (key : String)

/-- The operation of a port, which does not change the links. -/
def DeliveryOp.besideLinks (links : Table (@LinkRow.id δ)) : DeliveryOp δ → DeliveryOp δ
  | .surround tables => .surround { tables with links := links }
  | op => op

theorem DeliveryOp.besideLinks_of_not_touches
    {op : DeliveryOp δ} (h : ¬ op.touchesPolicy) {links : Table (@LinkRow.id δ)} :
  op.besideLinks links = op
  := by
  cases op with
  | surround tables => exact absurd trivial h
  | _ => rfl

/-- The world after one operation. -/
def DeliveryWorld.policyStep (env : DeliveryEnv δ) (w : DeliveryWorld δ) :
    PolicyOp δ → DeliveryWorld δ
  | .deliver op => w.step env (op.besideLinks w.db.links)
  | .access grantId tokenHash =>
      w.withRest (deliveryAccessIn env w.db grantId tokenHash w.now).2
  | .saveLink link => { w with db := Votport.saveLink w.db link }
  | .removeLink tenant id =>
      match Votport.removeLink w.db tenant id with
      | .error _ => w
      | .ok (_, db) => { w with db := db }
  | .removeTenant key =>
      match Votport.removeTenant w.db key with
      | .error _ => w
      | .ok (_, db) => { w with db := db }

theorem PolicyCoherent.step
    {w : DeliveryWorld δ} (h : PolicyCoherent env w.db) (op : PolicyOp δ) :
  PolicyCoherent env (w.policyStep env op).db
  := by
  cases op with
  | access grantId tokenHash => exact h.access grantId tokenHash w.now
  | saveLink link => exact h.saveLink link
  | removeLink tenant id =>
      dsimp only [DeliveryWorld.policyStep]
      split
      · exact h
      · rename_i hremove
        exact h.removeLink hremove
  | removeTenant key =>
      dsimp only [DeliveryWorld.policyStep]
      split
      · exact h
      · rename_i hremove
        exact h.removeTenant hremove
  | deliver op =>
      by_cases htouches : op.touchesPolicy
      · cases op with
        | saveProject tenant project =>
            dsimp only [DeliveryWorld.policyStep, DeliveryOp.besideLinks, DeliveryWorld.step]
            cases hsave : w.db.rest.saveDeliveryProject env tenant project with
            | error e => exact h
            | ok result => exact h.saveProject hsave
        | release grantId => exact h.release grantId
        | purgeGrants => exact h.purge w.now
        | commit =>
            dsimp only [DeliveryWorld.policyStep, DeliveryOp.besideLinks, DeliveryWorld.step]
            split
            · split
              · exact h
              · rename_i hcommit
                exact h.commit hcommit
            · exact h
        | surround tables =>
            have hkeeps : w.KeepsPolicy
                (w.step env (.surround { tables with links := w.db.links })) :=
              ⟨⟨rfl, rfl, rfl, .refl _⟩, rfl⟩
            exact h.keeps hkeeps
        | _ => exact absurd htouches not_false
      · dsimp only [DeliveryWorld.policyStep]
        rw [DeliveryOp.besideLinks_of_not_touches htouches]
        exact h.keeps (w.keepsPolicy_step env htouches)

theorem PolicyCoherent.run
    {w : DeliveryWorld δ} (h : PolicyCoherent env w.db) (ops : List (PolicyOp δ)) :
  PolicyCoherent env (ops.foldl (DeliveryWorld.policyStep env) w).db
  := by
  induction ops generalizing w with
  | nil => exact h
  | cons op ops ih => exact ih (h.step op)

theorem PolicyCoherent.begin (tables : UploadDb δ Surroundings) (now : UInt64) :
  PolicyCoherent env (DeliveryWorld.begin tables now).db
  := by
  constructor
  · intro c hc
    cases hc
  · intro c hc
    cases hc
  · intro p hp
    cases hp

/-! ### What is given to recipients -/

/-- The job that was found is the one of the grant, and it is released. -/
def DeliveryDb.FoundReleased (db : DeliveryDb) (grantId : String) (found : Option Job) : Prop :=
  ∃ row, db.jobs.find? grantId = some row ∧ found = some row.job ∧ db.releasedJob row.job

/-- A protected grant without a released job is refused, and both functions tell the same of
a grant. -/
structure PolicyEnforced (env : DeliveryEnv δ) (db : PortDb δ) : Prop where
  cached : ∀ c ∈ db.rest.cache.rows, ∀ g ∈ db.rest.grants.rows, g.id = c.grantId →
    protectsGrant env db g → c.isProtected = true
  released : ∀ g ∈ db.rest.grants.rows, protectsGrant env db g → ∀ found,
    (releaseIn env db g.id).1 = .ok found → db.rest.FoundReleased g.id found
  accessed : ∀ g ∈ db.rest.grants.rows, protectsGrant env db g → ∀ tokenHash now found,
    (deliveryAccessIn env db g.id tokenHash now).1 = .ok found → db.rest.FoundReleased g.id found
  /-- They differ only in the text of their refusal, where the job's project is gone. -/
  agree : ∀ g ∈ db.rest.grants.rows, ∀ tokenHash now, g.opens tokenHash now →
    deliveryAccessIn env db g.id tokenHash now = releaseIn env db g.id
      ∨ (∃ row, db.rest.jobs.find? g.id = some row
          ∧ db.rest.projectIn row.job.tenant row.job.project.id = none)
        ∧ ∃ e e', deliveryAccessIn env db g.id tokenHash now = (.error e, db.rest)
          ∧ releaseIn env db g.id = (.error e', db.rest)

theorem unlessProtected_eq_ok {isProtected : Bool} {found : Option Job}
    (h : unlessProtected isProtected = .ok found) :
  isProtected = false
  := by
  cases isProtected with
  | false => rfl
  | true => cases h

/-- A protected grant is released only with its job. -/
theorem PolicyCoherent.released
    (h : PolicyCoherent env db) {g : DeliveryGrantRow} (hg : g ∈ db.rest.grants.rows)
    (hprotects : protectsGrant env db g) {found : Option Job}
    (hrelease : (releaseIn env db g.id).1 = .ok found) :
  db.rest.FoundReleased g.id found
  := by
  rw [releaseIn] at hrelease
  split at hrelease
  · rename_i row hrow
    split at hrelease
    · cases hrelease
    · split at hrelease
      · rename_i hreleased
        cases hrelease
        exact ⟨row, hrow, rfl, hreleased⟩
      · cases hrelease
  · exfalso
    split at hrelease
    · rename_i c hc
      obtain ⟨hc, hid⟩ := Table.find?_eq_some.mp hc
      have hprotected := h.cached c hc g hg hid.symm hprotects
      rw [unlessProtected_eq_ok hrelease] at hprotected
      cases hprotected
    · rw [Table.find?_key hg] at hrelease
      dsimp only at hrelease
      exact of_decide_eq_false (unlessProtected_eq_ok hrelease) hprotects

theorem PolicyCoherent.accessed
    (h : PolicyCoherent env db) {g : DeliveryGrantRow} (hg : g ∈ db.rest.grants.rows)
    (hprotects : protectsGrant env db g) {tokenHash : String} {now : UInt64} {found : Option Job}
    (haccess : (deliveryAccessIn env db g.id tokenHash now).1 = .ok found) :
  db.rest.FoundReleased g.id found
  := by
  rw [deliveryAccessIn] at haccess
  split at haccess
  · split at haccess
    · rename_i row hrow
      split at haccess
      · rename_i hreleased
        cases haccess
        exact ⟨row, hrow, rfl, hreleased⟩
      · cases haccess
    · split at haccess
      · rename_i c hc
        obtain ⟨hc, hid⟩ := Table.find?_eq_some.mp hc
        have hprotected := h.cached c hc g hg hid.symm hprotects
        rw [unlessProtected_eq_ok haccess] at hprotected
        cases hprotected
      · exact h.released hg hprotects haccess
  · cases haccess

/-- Both functions tell the same of a grant that is asked for with its token. -/
theorem access_agrees
    {g : DeliveryGrantRow} (hg : g ∈ db.rest.grants.rows) {tokenHash : String} {now : UInt64}
    (hopens : g.opens tokenHash now) :
  deliveryAccessIn env db g.id tokenHash now = releaseIn env db g.id
    ∨ (∃ row, db.rest.jobs.find? g.id = some row
        ∧ db.rest.projectIn row.job.tenant row.job.project.id = none)
      ∧ ∃ e e', deliveryAccessIn env db g.id tokenHash now = (.error e, db.rest)
        ∧ releaseIn env db g.id = (.error e', db.rest)
  := by
  rw [deliveryAccessIn, Table.find?_key hg, Option.any_some, decide_eq_true hopens, if_pos rfl]
  cases hjob : db.rest.jobs.find? g.id with
  | none =>
      left
      dsimp only
      cases hcache : db.rest.cache.find? g.id with
      | none => rfl
      | some c => rw [releaseIn, hjob, hcache]
  | some row =>
      dsimp only
      cases hproject : db.rest.projectIn row.job.tenant row.job.project.id with
      | none =>
          have hreleased : ¬ db.rest.releasedJob row.job := by
            rintro ⟨_, hrevision⟩
            rw [hproject] at hrevision
            cases hrevision
          refine Or.inr ⟨⟨row, rfl, hproject⟩, awaitingRelease, "delivery project missing", ?_, ?_⟩
          · rw [if_neg hreleased]
          · rw [releaseIn, hjob]
            dsimp only
            rw [hproject]
      | some project =>
          left
          rw [releaseIn, hjob]
          dsimp only
          rw [hproject]

end Votport
