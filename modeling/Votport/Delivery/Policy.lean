import Votport.Delivery.Steps
import Votport.Delivery.Removal

/-!
# What operations do to policies

Whether a grant without a job delivers protected files depends on the projects of its tenant,
on the files of the grant, and on the workflows of received uploads.  Few operations change
any of these, or what is cached of them.
-/

namespace Votport

variable {δ : Type} {env : DeliveryEnv δ} {w : DeliveryWorld δ}

/-! ### What operations keep -/

/-- The grants deliver the same files. -/
structure DeliveryGrantRow.SameFiles (g g' : DeliveryGrantRow) : Prop where
  id : g'.id = g.id
  tenant : g'.tenant = g.tenant
  linkId : g'.linkId = g.linkId
  uploadId : g'.uploadId = g.uploadId
  sources : g'.sources = g.sources

theorem DeliveryGrantRow.SameFiles.refl (g : DeliveryGrantRow) : g.SameFiles g :=
  ⟨rfl, rfl, rfl, rfl, rfl⟩

/-- The grants stay, and deliver the same files, but for new ones. -/
structure GrantsKept (grants grants' : Table DeliveryGrantRow.id) : Prop where
  kept : ∀ g ∈ grants.rows, ∃ g' ∈ grants'.rows, g'.id = g.id
  origin : ∀ g' ∈ grants'.rows, (∃ g ∈ grants.rows, g.SameFiles g') ∨ grants.find? g'.id = none

theorem GrantsKept.refl (grants : Table DeliveryGrantRow.id) : GrantsKept grants grants :=
  ⟨fun g hg => ⟨g, hg, rfl⟩, fun g hg => Or.inl ⟨g, hg, .refl g⟩⟩

theorem GrantsKept.map
    {grants : Table DeliveryGrantRow.id} {f : DeliveryGrantRow → DeliveryGrantRow}
    (hf : ∀ g, (f g).id = g.id) (h : ∀ g : DeliveryGrantRow, g.SameFiles (f g)) :
  GrantsKept grants (grants.map f hf)
  := by
  constructor
  · intro g hg
    exact ⟨f g, Table.mem_map.mpr ⟨g, hg, rfl⟩, hf g⟩
  · intro g' hg'
    obtain ⟨g, hg, rfl⟩ := Table.mem_map.mp hg'
    exact Or.inl ⟨g, hg, h g⟩

theorem GrantsKept.upsert
    {grants : Table DeliveryGrantRow.id} {g g' : DeliveryGrantRow}
    (hg : grants.find? g.id = some g) (h : g.SameFiles g') :
  GrantsKept grants (grants.upsert g')
  := by
  constructor
  · intro s hs
    by_cases hid : s.id = g'.id
    · exact ⟨g', Table.mem_upsert.mpr (Or.inl rfl), hid.symm⟩
    · exact ⟨s, Table.mem_upsert.mpr (Or.inr ⟨hs, hid⟩), rfl⟩
  · intro s hs
    rcases Table.mem_upsert.mp hs with rfl | ⟨hs, _⟩
    · exact Or.inl ⟨g, (Table.find?_eq_some.mp hg).1, h⟩
    · exact Or.inl ⟨s, hs, .refl s⟩

theorem GrantsKept.insert
    {grants grants' : Table DeliveryGrantRow.id} {g : DeliveryGrantRow}
    (h : grants.insert? g = some grants') :
  GrantsKept grants grants'
  := by
  obtain ⟨habsent, hrows⟩ := Table.insert?_eq_some.mp h
  constructor
  · intro s hs
    rw [hrows]
    exact ⟨s, List.mem_cons_of_mem _ hs, rfl⟩
  · intro s hs
    rw [hrows] at hs
    rcases List.mem_cons.mp hs with rfl | hs
    · exact Or.inr habsent
    · exact Or.inl ⟨s, hs, .refl s⟩

/-- What is protected stays so, and what is cached of it too. -/
structure DeliveryDb.KeepsPolicy (db db' : DeliveryDb) : Prop where
  projects : db'.projects = db.projects
  receiveUploads : db'.receiveUploads = db.receiveUploads
  cache : db'.cache = db.cache
  grants : GrantsKept db.grants db'.grants

theorem DeliveryDb.KeepsPolicy.refl (db : DeliveryDb) : db.KeepsPolicy db :=
  ⟨rfl, rfl, rfl, .refl _⟩

/-- The worlds' policies are the same, and their links. -/
structure DeliveryWorld.KeepsPolicy (w w' : DeliveryWorld δ) : Prop
    extends w.db.rest.KeepsPolicy w'.db.rest where
  links : w'.db.links = w.db.links

theorem DeliveryWorld.KeepsPolicy.refl (w : DeliveryWorld δ) : w.KeepsPolicy w := ⟨.refl _, rfl⟩

theorem DeliveryWorld.keepsPolicy_withRest
    {rest : DeliveryDb} (h : w.db.rest.KeepsPolicy rest) :
  w.KeepsPolicy (w.withRest rest)
  := ⟨h, rfl⟩

theorem DeliveryWorld.keepsPolicy_commits
    {ε : Type} {result : Except ε DeliveryDb}
    (h : ∀ rest, result = .ok rest → w.db.rest.KeepsPolicy rest) :
  w.KeepsPolicy (w.commits result)
  := by
  cases hresult : result with
  | error e => exact .refl w
  | ok rest => exact DeliveryWorld.keepsPolicy_withRest (h rest hresult)

theorem DeliveryWorld.keepsPolicy_commits_map
    {ε α : Type} {result : Except ε (α × DeliveryDb)}
    (h : ∀ a rest, result = .ok (a, rest) → w.db.rest.KeepsPolicy rest) :
  w.KeepsPolicy (w.commits (result.map Prod.snd))
  := by
  apply DeliveryWorld.keepsPolicy_commits
  intro rest hrest
  obtain ⟨⟨a, rest'⟩, hresult, rfl⟩ := Fallible.map_eq_ok.mp hrest
  exact h a rest' hresult

theorem DeliveryDb.keepsPolicy_noteRevocation
    (db : DeliveryDb) (jobId destination : String) (status : RevocationStatus) :
  db.KeepsPolicy (db.noteRevocation jobId destination status)
  := by
  rw [DeliveryDb.noteRevocation]
  split
  · exact .refl db
  · exact ⟨rfl, rfl, rfl, .refl _⟩

/-- A grant is added, with its job or without. -/
theorem keepsPolicy_addOutboundGrant
    {db : PortDb δ} {db' : DeliveryDb} {grant : OutboundGrant} {job : Option Job}
    {manifest : String} {now : UInt64}
    (h : addOutboundGrant env db grant job manifest now = .ok db') :
  db.rest.KeepsPolicy db'
  := by
  obtain ⟨_, rest, grants, hrest, hinsert, rfl⟩ := addOutboundGrant_eq_ok h
  cases job with
  | none =>
      cases hrest
      exact ⟨rfl, rfl, rfl, .insert hinsert⟩
  | some job =>
      obtain ⟨_, _, _, _, _, _, _, _, _, _, rfl⟩ := DeliveryDb.finishJob_eq_ok hrest
      exact ⟨rfl, rfl, rfl, .insert hinsert⟩

theorem keepsPolicy_revokeInboundRoute
    {db db' : DeliveryDb} {id : String} {request : RouteRevocation} {now : UInt64}
    (h : db.revokeInboundRoute env id request now = .ok db') :
  db.KeepsPolicy db'
  := by
  obtain ⟨_, _, h⟩ := Fallible.bind_eq_ok.mp h
  split at h
  · cases h
    exact .refl db
  · rename_i route _
    obtain ⟨_, _, h⟩ := Fallible.bind_eq_ok.mp h
    split at h
    · cases h
      exact .refl db
    · cases h
      refine ⟨rfl, rfl, rfl, .map (db.id_revokedGrant _ _) ?_⟩
      intro g
      rw [DeliveryDb.revokedGrant]
      split
      · exact ⟨rfl, rfl, rfl, rfl, rfl⟩
      · exact .refl g

/-- The operation may change what is protected, or what is cached of it. -/
def DeliveryOp.touchesPolicy : DeliveryOp δ → Prop
  | .saveProject _ _ | .release _ | .purgeGrants | .commit _ _ _ _ _ | .surround _ => True
  | _ => False

/-- The other operations keep the policies. -/
theorem DeliveryWorld.keepsPolicy_step
    (env : DeliveryEnv δ) (w : DeliveryWorld δ) {op : DeliveryOp δ} (h : ¬ op.touchesPolicy) :
  w.KeepsPolicy (w.step env op)
  := by
  cases op with
  | saveProject | release | purgeGrants | commit | surround => exact absurd trivial h
  | enqueue =>
      apply DeliveryWorld.keepsPolicy_commits_map
      intro job rest h
      rcases DeliveryDb.enqueue_eq_ok h with
        ⟨_, _, _, _, _, _, rfl⟩ | ⟨_, _, _, _, _, _, _, _, rfl⟩
      · exact .refl _
      · exact ⟨rfl, rfl, rfl, .refl _⟩
  | claim owner =>
      dsimp only [DeliveryWorld.step, DeliveryWorld.claim]
      split
      · exact .refl w
      · rename_i row rest h
        obtain ⟨_, _, _, _, rfl⟩ := DeliveryDb.claim_eq_some h
        split
        · exact ⟨⟨rfl, rfl, rfl, .refl _⟩, rfl⟩
        · exact ⟨⟨rfl, rfl, rfl, .refl _⟩, rfl⟩
  | reserve =>
      dsimp only [DeliveryWorld.step]
      split
      · exact .refl w
      · split
        · apply DeliveryWorld.keepsPolicy_commits
          intro rest h
          obtain ⟨_, _, _, _, _, rfl⟩ := DeliveryDb.reserve_eq_ok h
          exact ⟨rfl, rfl, rfl, .refl _⟩
        · exact .refl w
  | prepare =>
      dsimp only [DeliveryWorld.step, DeliveryWorld.prepare]
      split
      · exact .refl w
      · split
        · exact .refl w
        · exact ⟨.refl _, rfl⟩
  | finish =>
      dsimp only [DeliveryWorld.step]
      split
      · exact .refl w
      · split
        · apply DeliveryWorld.keepsPolicy_commits
          intro rest h
          exact keepsPolicy_addOutboundGrant h
        · exact .refl w
  | completeExport =>
      apply DeliveryWorld.keepsPolicy_commits
      intro rest h
      obtain ⟨_, _, _, _, _, _, rfl⟩ := DeliveryDb.complete_eq_ok h
      exact ⟨rfl, rfl, rfl, .refl _⟩
  | failDestination =>
      apply DeliveryWorld.keepsPolicy_commits
      intro rest h
      obtain ⟨_, _, rfl⟩ := DeliveryDb.failDestination_eq_ok h
      exact ⟨rfl, rfl, rfl, .refl _⟩
  | failJob =>
      apply DeliveryWorld.keepsPolicy_withRest
      rw [DeliveryDb.failDeliveryJob]
      split
      · exact .refl _
      · split
        · exact .refl _
        · exact ⟨rfl, rfl, rfl, .refl _⟩
  | routeProgress id attempt destination moved =>
      apply DeliveryWorld.keepsPolicy_withRest
      rw [DeliveryDb.routeProgress]
      cases hupdate : w.db.rest.updateExporting id attempt _ with
      | none => exact .refl _
      | some rest =>
          obtain ⟨_, _, _, _, rfl⟩ := DeliveryDb.updateExporting_eq_some hupdate
          exact ⟨rfl, rfl, rfl, .refl _⟩
  | recordReceipt =>
      apply DeliveryWorld.keepsPolicy_commits
      intro rest h
      obtain ⟨_, _, _, _, rfl⟩ :=
        DeliveryDb.updateExporting_eq_some (Fallible.present_eq_ok.mp h)
      exact ⟨rfl, rfl, rfl, .refl _⟩
  | change =>
      dsimp only [DeliveryWorld.step, DeliveryWorld.change]
      split
      · exact .refl w
      · rename_i rest h
        obtain ⟨_, _, changed, _, _, _, _, _, rfl⟩ := changeDeliveryJob_eq_ok h
        cases changed with
        | none => exact ⟨.refl _, rfl⟩
        | some job => exact ⟨⟨rfl, rfl, rfl, .refl _⟩, rfl⟩
  | removeRecipient =>
      apply DeliveryWorld.keepsPolicy_commits
      intro rest h
      obtain ⟨_, _, _, rfl⟩ := DeliveryDb.removeRecipient_eq_ok h
      exact ⟨rfl, rfl, rfl, .refl _⟩
  | claimRetirement =>
      dsimp only [DeliveryWorld.step]
      split
      · exact .refl w
      · rename_i rest h
        obtain ⟨_, _, _, _, _, rfl, _⟩ := DeliveryDb.claimRetirement_eq_some h
        exact ⟨⟨rfl, rfl, rfl, .refl _⟩, rfl⟩
  | completeRetirement =>
      apply DeliveryWorld.keepsPolicy_commits
      intro rest h
      rcases DeliveryDb.completeRetirement_eq_ok h with rfl | ⟨_, _, _, _, rfl, _⟩
      · exact .refl _
      · exact ⟨rfl, rfl, rfl, .refl _⟩
  | reprocess =>
      apply DeliveryWorld.keepsPolicy_commits_map
      intro job rest h
      obtain ⟨_, _, ⟨_, _, _, _, rfl⟩ | ⟨_, _, _, _, hreplaced⟩⟩ := reprocess_eq_ok h
      · exact .refl _
      · obtain ⟨grant, _, hgrant, _, _, _, rfl⟩ := hreplaced.written
        rw [← (Table.find?_eq_some.mp hgrant).2] at hgrant
        exact ⟨rfl, rfl, rfl, .upsert hgrant ⟨rfl, rfl, rfl, rfl, rfl⟩⟩
  | share =>
      dsimp only [DeliveryWorld.step]
      split
      · exact .refl w
      · apply DeliveryWorld.keepsPolicy_commits
        intro rest h
        exact keepsPolicy_addOutboundGrant h
  | extendGrant =>
      apply DeliveryWorld.keepsPolicy_commits
      intro rest h
      rcases DeliveryDb.extendGrant_eq_ok h with rfl | ⟨grant, _, hgrant, _, _, rfl⟩
      · exact .refl _
      · rw [← (Table.find?_eq_some.mp hgrant).2] at hgrant
        exact ⟨rfl, rfl, rfl, .upsert hgrant ⟨rfl, rfl, rfl, rfl, rfl⟩⟩
  | revokeGrant =>
      apply DeliveryWorld.keepsPolicy_withRest
      rw [DeliveryDb.revokeOutboundGrant]
      split
      · exact .refl _
      · rename_i grant hgrant
        split
        · rw [← (Table.find?_eq_some.mp hgrant).2] at hgrant
          exact ⟨rfl, rfl, rfl, .upsert hgrant ⟨rfl, rfl, rfl, rfl, rfl⟩⟩
        · exact .refl _
  | receive =>
      apply DeliveryWorld.keepsPolicy_commits
      intro rest h
      obtain ⟨⟨route, rest'⟩, hreceive, rfl⟩ := Fallible.map_eq_ok.mp h
      rcases receiveRoute_eq_ok hreceive with
        ⟨_, _, _, rfl⟩ | ⟨_, _, _, _, _, _, _, _, _, _, _, rfl⟩
      · exact .refl _
      · exact ⟨rfl, rfl, rfl, .refl _⟩
  | bindSession =>
      apply DeliveryWorld.keepsPolicy_commits
      intro rest h
      obtain ⟨_, _, _, _, _, rfl⟩ := DeliveryDb.jobs_bindSession h
      exact ⟨rfl, rfl, rfl, .refl _⟩
  | revokeInbound =>
      apply DeliveryWorld.keepsPolicy_commits
      intro rest h
      exact keepsPolicy_revokeInboundRoute h
  | bindOutbound =>
      dsimp only [DeliveryWorld.step]
      split
      · exact .refl w
      · split
        · apply DeliveryWorld.keepsPolicy_commits
          intro rest h
          rcases DeliveryDb.bindOutbound_eq_ok h with ⟨_, _, rfl⟩ | ⟨_, _, _, _, _, rfl⟩
          · exact ⟨rfl, rfl, rfl, .refl _⟩
          · exact ⟨rfl, rfl, rfl, .refl _⟩
        · exact .refl w
  | updateTradeRoute =>
      apply DeliveryWorld.keepsPolicy_commits
      intro rest h
      obtain ⟨_, _, rfl | rfl⟩ := DeliveryDb.updateTradeRoute_eq_ok h
      · exact ⟨rfl, rfl, rfl, .refl _⟩
      · exact ⟨rfl, rfl, rfl, .refl _⟩
  | trade => exact ⟨⟨rfl, rfl, rfl, .refl _⟩, rfl⟩
  | claimRevocation =>
      dsimp only [DeliveryWorld.step]
      split
      · exact .refl w
      · rename_i control rest h
        obtain ⟨_, _, _, _, _, rfl⟩ := DeliveryDb.claimRevocation_eq_some h
        obtain ⟨hprojects, hreceive, hcache, hgrants⟩ :=
          DeliveryDb.keepsPolicy_noteRevocation _ _ _ _
        exact ⟨⟨hprojects, hreceive, hcache, hgrants⟩, rfl⟩
  | finishRevocation =>
      dsimp only [DeliveryWorld.step]
      split
      · exact .refl w
      · apply DeliveryWorld.keepsPolicy_commits
        intro rest h
        obtain ⟨_, rfl | ⟨_, _, _, _, _, _, rfl⟩⟩ := DeliveryDb.jobs_finishRevocation h
        · exact .refl _
        · obtain ⟨hprojects, hreceive, hcache, hgrants⟩ :=
            DeliveryDb.keepsPolicy_noteRevocation _ _ _ _
          exact ⟨hprojects, hreceive, hcache, hgrants⟩
  | hold =>
      refine ⟨⟨rfl, rfl, rfl, ?_⟩, rfl⟩
      apply GrantsKept.map
      · intro g
        rfl
      · intro g
        exact ⟨rfl, rfl, rfl, rfl, rfl⟩
  | tick =>
      dsimp only [DeliveryWorld.step]
      split
      · exact ⟨.refl _, rfl⟩
      · exact .refl w

/-! ### The operations that may change policies -/

/-- A received upload is noted, with the grants that deliver it. -/
theorem queueReceived_policy
    {db : PortDb δ} {db' : DeliveryDb} {id tenant linkId : String} {upload : UploadRecord}
    {now : UInt64} (h : queueReceived db id tenant linkId upload now = .ok db') :
  db'.projects = db.rest.projects ∧ db'.grants = db.rest.grants
    ∧ (db'.receiveUploads = db.rest.receiveUploads ∧ db'.cache = db.rest.cache
      ∨ (db.link? tenant linkId).isSome = true
        ∧ db'.receiveUploads = (linkId, upload.id) :: db.rest.receiveUploads
        ∧ db'.cache = db.rest.protectUpload tenant linkId upload.id)
  := by
  rw [queueReceived] at h
  split at h
  · cases h
    exact ⟨rfl, rfl, Or.inl ⟨rfl, rfl⟩⟩
  · rename_i workflow hworkflow
    have hlink : (db.link? tenant linkId).isSome = true := by
      rw [receiveWorkflowIn] at hworkflow
      split at hworkflow
      · cases hworkflow
      · rename_i hlink
        rw [hlink]
        rfl
    dsimp only at h
    split_ifs at h
    · cases h
      exact ⟨rfl, rfl, Or.inr ⟨hlink, rfl, rfl⟩⟩
    · obtain ⟨project, _, h⟩ := Fallible.bind_eq_ok.mp h
      split at h
      · cases h
        exact ⟨rfl, rfl, Or.inr ⟨hlink, rfl, rfl⟩⟩
      · obtain ⟨_, jobs, _, rfl⟩ := DeliveryDb.insertJob_eq_ok (textError_eq_ok.mp h)
        exact ⟨rfl, rfl, Or.inr ⟨hlink, rfl, rfl⟩⟩

/-- A commit notes its upload when a receive workflow owns it. -/
theorem appendUpload_policy
    {db db' : PortDb δ} {jobId tenant linkId session : String} {upload : UploadRecord}
    {now : UInt64} {id : Option String}
    (h : appendUpload (env.uploads jobId now) db tenant linkId upload (some session)
      = .ok (id, db')) :
  db'.links = db.links ∧ db'.rest.projects = db.rest.projects ∧ db'.rest.grants = db.rest.grants
    ∧ (db'.rest.receiveUploads = db.rest.receiveUploads ∧ db'.rest.cache = db.rest.cache
      ∨ (db.link? tenant linkId).isSome = true
        ∧ db'.rest.receiveUploads = (linkId, upload.id) :: db.rest.receiveUploads
        ∧ db'.rest.cache = db.rest.protectUpload tenant linkId upload.id)
  := by
  rcases appendUpload_rest h with ⟨hrest, hlinks⟩ | ⟨mid, hcomplete, hqueue, hmidlinks, hlinks⟩
  · rw [hrest]
    exact ⟨hlinks, rfl, rfl, Or.inl ⟨rfl, rfl⟩⟩
  · obtain ⟨hprojects, hgrants, hreceive⟩ := queueReceived_policy hqueue
    have hmid : mid.rest.projects = db.rest.projects ∧ mid.rest.grants = db.rest.grants
        ∧ mid.rest.receiveUploads = db.rest.receiveUploads
        ∧ mid.rest.cache = db.rest.cache := by
      rcases DeliveryDb.completeRoute_eq_ok hcomplete with
        ⟨hmid, _⟩ | ⟨_, _, _, _, _, _, _, ⟨_, hmid⟩ | ⟨_, _, _, _, hmid⟩⟩
      · rw [hmid]
        exact ⟨rfl, rfl, rfl, rfl⟩
      · rw [hmid]
        exact ⟨rfl, rfl, rfl, rfl⟩
      · rw [hmid]
        exact ⟨rfl, rfl, rfl, rfl⟩
    obtain ⟨hmidprojects, hmidgrants, hmidreceive, hmidcache⟩ := hmid
    rw [UploadDb.link?, hmidlinks, DeliveryDb.protectUpload, hmidgrants, hmidreceive, hmidcache]
      at hreceive
    exact ⟨hlinks, hprojects.trans hmidprojects, hgrants.trans hmidgrants, hreceive⟩

theorem DeliveryDb.purge_eq (db : DeliveryDb) (now : UInt64) :
  db.purgeExpiredRevokedGrants now = db ∨ ∃ kept : Table DeliveryGrantRow.id,
    (∀ g ∈ kept.rows, g ∈ db.grants.rows)
      ∧ db.purgeExpiredRevokedGrants now = { db with
          grants := kept
          cache := db.cache.filter fun row => (kept.find? row.grantId).isSome = true }
  := by
  rw [DeliveryDb.purgeExpiredRevokedGrants]
  split
  · exact Or.inl rfl
  · refine Or.inr ⟨_, ?_, rfl⟩
    intro g hg
    exact (Table.mem_filter.mp hg).1

/-- What the release of a grant caches. -/
theorem releaseIn_cache (env : DeliveryEnv δ) (db : PortDb δ) (grantId : String) :
  (releaseIn env db grantId).2 = db.rest
    ∨ ∃ grant, db.rest.grants.find? grantId = some grant
      ∧ (releaseIn env db grantId).2 = { db.rest with
          cache := db.rest.cache.upsert ⟨grantId, decide (protectsGrant env db grant)⟩ }
  := by
  rw [releaseIn]
  split
  · split
    · exact Or.inl rfl
    · split
      · exact Or.inl rfl
      · exact Or.inl rfl
  · split
    · exact Or.inl rfl
    · split
      · exact Or.inl rfl
      · rename_i grant hgrant
        exact Or.inr ⟨grant, hgrant, rfl⟩

theorem deliveryAccessIn_cache
    (env : DeliveryEnv δ) (db : PortDb δ) (grantId tokenHash : String) (now : UInt64) :
  (deliveryAccessIn env db grantId tokenHash now).2 = db.rest
    ∨ (deliveryAccessIn env db grantId tokenHash now).2 = (releaseIn env db grantId).2
  := by
  rw [deliveryAccessIn]
  split
  · split
    · split
      · exact Or.inl rfl
      · exact Or.inl rfl
    · split
      · exact Or.inl rfl
      · exact Or.inr rfl
  · exact Or.inl rfl

/-- Only the saving of a project changes the projects. -/
theorem DeliveryWorld.projects_step (env : DeliveryEnv δ) (w : DeliveryWorld δ) (op : DeliveryOp δ) :
  (w.step env op).db.rest.projects = w.db.rest.projects
    ∨ ∃ tenant project, op = .saveProject tenant project
  := by
  by_cases htouches : op.touchesPolicy
  · cases op with
    | saveProject tenant project => exact Or.inr ⟨tenant, project, rfl⟩
    | release grantId =>
        left
        dsimp only [DeliveryWorld.step, DeliveryWorld.withRest]
        rcases releaseIn_cache env w.db grantId with hrest | ⟨_, _, hrest⟩
        · rw [hrest]
        · rw [hrest]
    | purgeGrants =>
        left
        dsimp only [DeliveryWorld.step, DeliveryWorld.withRest]
        rcases w.db.rest.purge_eq w.now with hrest | ⟨_, _, hrest⟩
        · rw [hrest]
        · rw [hrest]
    | commit =>
        left
        dsimp only [DeliveryWorld.step]
        split
        · split
          · rfl
          · rename_i h
            exact (appendUpload_policy h).2.1
        · rfl
    | surround => exact Or.inl rfl
    | _ => exact absurd htouches not_false
  · exact Or.inl (w.keepsPolicy_step env htouches).projects

end Votport
