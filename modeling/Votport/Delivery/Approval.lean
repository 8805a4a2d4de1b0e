import Votport.Delivery.Fencing
import Votport.Delivery.Policy

/-!
# Approval cannot be bypassed

A job whose project asks for approval is exported, or released to its recipients, only after
another human than its submitter has approved the manifest that it has, under the policy that
it was made with.  Once the policy has changed the job is neither exported nor released.
-/

namespace Votport

variable {δ : Type} {env : DeliveryEnv δ} {w : DeliveryWorld δ}

/-! ### The policy of a project -/

/-- The other project is a later one: its policy is the same at the same revision. -/
structure Project.Precedes (project later : Project) : Prop where
  directory : later.directory = project.directory
  revision : project.revision ≤ later.revision
  policy : project.revision = later.revision → project.sameDeliveryPolicy later

theorem Project.Precedes.refl (project : Project) : project.Precedes project :=
  ⟨rfl, le_refl _, fun _ => rfl⟩

theorem Project.sameDeliveryPolicy.trans
    {project mid later : Project} (h : project.sameDeliveryPolicy mid)
    (h' : mid.sameDeliveryPolicy later) :
  project.sameDeliveryPolicy later
  := by
  rw [Project.sameDeliveryPolicy] at h h'
  rw [Project.sameDeliveryPolicy, ← h', ← h]

theorem Project.Precedes.trans
    {project mid later : Project} (h : project.Precedes mid) (h' : mid.Precedes later) :
  project.Precedes later
  := by
  have hle := h.revision
  have hle' := h'.revision
  refine ⟨h'.directory.trans h.directory, hle.trans hle', ?_⟩
  intro hsame
  exact (h.policy (by omega)).trans (h'.policy (by omega))

/-- A policy that is another stays another. -/
theorem Project.Precedes.changed
    {project mid later : Project} (h : project.Precedes mid) (h' : mid.Precedes later)
    (hchanged : ¬ project.sameDeliveryPolicy mid) :
  project.revision ≠ later.revision
  := by
  have hle := h.revision
  have hle' := h'.revision
  intro hsame
  exact hchanged (h.policy (by omega))

/-- The stored project is a later one. -/
theorem Project.precedes_nextRevision
    {current project : Project} (h : current.revision = project.revision)
    (hdirectory : current.directory = project.directory) :
  current.Precedes (project.nextRevision (some current))
  := by
  rw [Project.nextRevision]
  constructor
  · exact hdirectory.symm
  · dsimp only
    split <;> omega
  · dsimp only
    intro hrevision
    split at hrevision
    · rename_i hsame
      have hpolicy := hsame
      rw [Option.any_some, Bool.and_eq_true, decide_eq_true_iff, decide_eq_true_iff] at hpolicy
      rw [if_pos hsame]
      generalize (if (some current).any (fun p => decide (p.notifications ≠ project.notifications))
        = true then project.notificationRevision + 1 else project.notificationRevision) = n
      exact congrArg (fun p : Project => { p with notificationRevision := n }) hpolicy.2
    · omega

/-- A project that is there stays there, or is followed by a later one. -/
theorem DeliveryWorld.step_projectIn
    (env : DeliveryEnv δ) (op : DeliveryOp δ) {tenant id : String} {project : Project}
    (h : w.db.rest.projectIn tenant id = some project) :
  ∃ later, (w.step env op).db.rest.projectIn tenant id = some later ∧ project.Precedes later
  := by
  rcases DeliveryWorld.projects_step env w op with hsame | ⟨tenant', saved, rfl⟩
  · refine ⟨project, ?_, .refl project⟩
    rw [Surroundings.projectIn, hsame]
    exact h
  · dsimp only [DeliveryWorld.step]
    cases hresult : w.db.rest.saveDeliveryProject env tenant' saved with
    | error e => exact ⟨project, h, .refl project⟩
    | ok result =>
        obtain ⟨stored, rest⟩ := result
        obtain ⟨hrevision, hdirectory, _, rfl, rfl⟩ := DeliveryDb.saveProject_eq_ok hresult
        dsimp only [Except.map, DeliveryWorld.commits, DeliveryWorld.withRest]
        by_cases hkey : (tenant, id) = (tenant', saved.id)
        · obtain ⟨rfl, rfl⟩ := Prod.mk.inj hkey
          rw [h, Option.map_some, Option.getD_some] at hrevision
          refine ⟨_, ?_, Project.precedes_nextRevision hrevision (hdirectory project h)⟩
          rw [Surroundings.projectIn, Table.find?_upsert, if_pos, h]
          · rfl
          · rfl
        · refine ⟨project, ?_, .refl project⟩
          rw [Surroundings.projectIn, Table.find?_upsert, if_neg]
          · exact h
          · exact hkey

/-- The project of a job is there, at the job's revision or a later one. -/
def JobRow.Follows (tables : Surroundings) (r : JobRow) : Prop :=
  ∃ project, tables.projectIn r.job.tenant r.job.project.id = some project
    ∧ r.job.project.Precedes project

/-! ### What a row keeps -/

variable {may : Permits} {event : Option JobEvent} {r r' : JobRow}

/-- The job has been prepared. -/
def JobState.prepared (state : JobState) : Prop :=
  state ∈ [.awaitingApproval, .exporting, .retrying, .ready]

/-- A job that has been prepared has a manifest. -/
theorem RowMoved.prepared
    (h : RowMoved may event r r') (hgood : r.Good)
    (hr : r.job.state.prepared → r.job.manifest.isSome = true) (hr' : r'.job.state.prepared) :
  r'.job.manifest.isSome = true
  := by
  have hkeep : r.job.state.prepared → r'.job.manifest.isSome = true := by
    intro hprepared
    rcases h.manifest with hsame | ⟨hpreparing, _⟩
    · rw [hsame]
      exact hr hprepared
    · simp [hpreparing, JobState.prepared] at hprepared
  cases h.change with
  | stay _ hstate => exact hkeep (hstate ▸ hr')
  | stop _ _ hstate =>
      rcases hstate with hfailed | ⟨hexporting, _⟩
      · simp [hfailed, JobState.prepared] at hr'
      · exact hkeep (by simp [hexporting, JobState.prepared])
  | prepared _ _ _ _ _ hmanifest => exact hmanifest
  | approve _ _ hawaiting => exact hkeep (by simp [hawaiting, JobState.prepared])
  | cancel _ _ hstate | suspend _ hstate | retire _ _ _ hstate | retired _ _ hstate
  | exhaust _ _ hstate =>
      simp [hstate, JobState.prepared] at hr'
  | retry _ _ hstate | claim _ _ hstate =>
      rcases hstate with ⟨_, hmanifest⟩ | ⟨hstate, _⟩
      · rcases h.manifest with hsame | ⟨hpreparing, _⟩
        · rw [hsame]
          exact hmanifest
        · rw [hgood.prepares hpreparing] at hmanifest
          cases hmanifest
      · simp [hstate, JobState.prepared] at hr'

/-- The job is neither waiting for an approval nor stopped. -/
def JobState.goesOn (state : JobState) : Prop :=
  state ≠ .awaitingApproval ∧ ¬ state.stopped

/-- A job whose project asks for approval keeps its manifest while it goes on. -/
theorem RowMoved.keeps_manifest
    (h : RowMoved may event r r') (hgood : r.Good)
    (hskip : may.skip r → r'.job.project.requireApproval = false)
    (hrequires : r'.job.project.requireApproval = true) (hgoes : r'.job.state.goesOn) :
  r'.job.manifest = r.job.manifest
  := by
  rcases h.manifest with hsame | ⟨hpreparing, hprepared⟩
  · exact hsame
  · exfalso
    cases h.change with
    | stay _ hstate => simp [hstate, hpreparing] at hprepared
    | stop _ _ hstate =>
        rcases hstate with hfailed | ⟨hexporting, _⟩
        · simp [hfailed] at hprepared
        · cases hpreparing.symm.trans hexporting
    | prepared _ _ hstate =>
        rcases hstate with hawaiting | ⟨_, hmay⟩
        · exact hgoes.1 hawaiting
        · rw [hskip hmay] at hrequires
          cases hrequires
    | approve _ _ hawaiting => cases hpreparing.symm.trans hawaiting
    | cancel _ _ hstate | suspend _ hstate | retire _ _ _ hstate | retired _ _ hstate
    | exhaust _ _ hstate =>
        simp [hstate] at hprepared
    | retry _ hfailed => rcases hfailed with h | h <;> cases hpreparing.symm.trans h
    | claim _ _ hstate =>
        rcases hstate with ⟨_, hmanifest⟩ | ⟨hstate, _⟩
        · rw [hgood.prepares hpreparing] at hmanifest
          cases hmanifest
        · simp [hstate] at hprepared

/-- A prepared job that goes on was approved, or went on before. -/
theorem RowMoved.approve_or_goesOn
    (h : RowMoved may event r r') (hgood : r.Good) (hmanifest : r.job.manifest.isSome = true)
    (hgoes : r'.job.state.goesOn) :
  may.approve r ∨ r.job.state.goesOn
  := by
  have hof : ∀ {state : JobState}, state ∈ [.queued, .retrying, .preparing, .exporting, .failed] →
      state.goesOn := by
    intro state hstate
    simp only [List.mem_cons, List.not_mem_nil, or_false] at hstate
    rcases hstate with rfl | rfl | rfl | rfl | rfl <;> simp [JobState.goesOn, JobState.stopped]
  cases h.change with
  | stay _ hstate => exact Or.inr (hstate ▸ hgoes)
  | stop _ hrunning => exact Or.inr (hof (by rcases hrunning with h | h <;> simp [h]))
  | prepared _ hpreparing =>
      rw [hgood.prepares hpreparing] at hmanifest
      cases hmanifest
  | approve _ hmay => exact Or.inl hmay
  | cancel _ _ hstate | suspend _ hstate | retire _ _ _ hstate | retired _ _ hstate =>
      exact absurd (by simp [hstate, JobState.stopped]) hgoes.2
  | retry _ hfailed => exact Or.inr (hof (by rcases hfailed with h | h <;> simp [h]))
  | claim _ hclaimable | exhaust _ hclaimable =>
      right
      apply hof
      simp only [List.mem_cons, List.not_mem_nil, or_false] at hclaimable ⊢
      tauto

/-! ### Approvals -/

/-- In this state the call approves the job of the row: another human than the one who
submitted it, who may approve for its project, names the manifest that it has, under the
policy that it was made with. -/
structure DeliveryWorld.Approves (env : DeliveryEnv δ) (w : DeliveryWorld δ) (row : JobRow)
    (actor : String) (administrator : Bool) : Prop where
  human : beginsWith actor "automation:" = false
  submitter : actor ≠ row.job.actor
  actorHuman : row.job.actorHuman ≠ some actor
  prepared : row.job.manifest.isSome = true
  approver : ∃ project, w.db.rest.projectIn row.job.tenant row.job.project.id = some project
    ∧ project.revision = row.job.project.revision
    ∧ project.allows actor "approver" administrator = true
  pending : ∃ r, w.db.rest.jobs.find? row.id = some r ∧ r.job.state = .awaitingApproval
    ∧ r.job.manifest = row.job.manifest ∧ r.job.project = row.job.project
  accepted : ∃ rest, changeDeliveryJob env w.db row.job.tenant row.id actor administrator
    (.approve row.job.manifest) w.now = .ok rest

/-- The job of the row was approved by one of the operations. -/
def DeliveryWorld.ApprovedIn (env : DeliveryEnv δ) (w : DeliveryWorld δ)
    (ops : List (DeliveryOp δ)) (row : JobRow) : Prop :=
  ∃ before after actor administrator,
    ops = before ++ .change row.job.tenant row.id actor administrator
        (.approve row.job.manifest) :: after
      ∧ (w.run env before).Approves env row actor administrator

theorem DeliveryWorld.ApprovedIn.moved
    {ops : List (DeliveryOp δ)} (h : w.ApprovedIn env ops r) (hmoved : r.SameSubmission r')
    (hproject : r'.job.project = r.job.project) (hmanifest : r'.job.manifest = r.job.manifest)
    (op : DeliveryOp δ) :
  w.ApprovedIn env (ops ++ [op]) r'
  := by
  obtain ⟨before, after, actor, administrator, rfl, happroves⟩ := h
  refine ⟨before, after ++ [op], actor, administrator, ?_, ?_⟩
  · rw [hmoved.id, hmoved.tenant, hmanifest, List.append_assoc, List.cons_append]
  · constructor
    · exact happroves.human
    · rw [hmoved.actor]
      exact happroves.submitter
    · rw [hmoved.actorHuman]
      exact happroves.actorHuman
    · rw [hmanifest]
      exact happroves.prepared
    · rw [hmoved.tenant, hproject]
      exact happroves.approver
    · rw [hmoved.id, hmanifest, hproject]
      exact happroves.pending
    · rw [hmoved.id, hmoved.tenant, hmanifest]
      exact happroves.accepted

/-! ### Runs -/

@[simp]
theorem DeliveryWorld.run_concat (env : DeliveryEnv δ) (w : DeliveryWorld δ)
    (ops : List (DeliveryOp δ)) (op : DeliveryOp δ) :
  w.run env (ops ++ [op]) = (w.run env ops).step env op
  := List.foldl_concat _ _ _ _

/-- What is known of a job after some operations. -/
structure JobRow.Traced (env : DeliveryEnv δ) (start : DeliveryWorld δ)
    (ops : List (DeliveryOp δ)) (r : JobRow) : Prop where
  follows : r.Follows (start.run env ops).db.rest.toSurroundings
  prepared : r.job.state.prepared → r.job.manifest.isSome = true
  approved : r.job.project.requireApproval = true → r.job.manifest.isSome = true →
    r.job.state.goesOn → start.ApprovedIn env ops r
  /-- The human who made the token that submitted the job is known. -/
  minted : ∀ id, r.job.automationTokenId = some id → ∃ before after token, ops = before ++ after
    ∧ (start.run env before).db.rest.tokens.find? id = some token
    ∧ r.job.actorHuman = some token.createdBy

theorem Project.Precedes.follows
    {project : Project} {op : DeliveryOp δ} (hproject : w.db.rest.projectIn r.job.tenant r.job.project.id
      = some project) (h : r.job.project.Precedes project) :
  r.Follows (w.step env op).db.rest.toSurroundings
  := by
  obtain ⟨later, hlater, hprecedes⟩ := DeliveryWorld.step_projectIn env op hproject
  exact ⟨later, hlater, h.trans hprecedes⟩

theorem RowMoved.follows
    {op : DeliveryOp δ} (h : RowMoved (w.permits env op) event r r')
    (hr : r.Follows w.db.rest.toSurroundings) :
  r'.Follows (w.step env op).db.rest.toSurroundings
  := by
  rcases h.project with hsame | ⟨_, hhas⟩
  · obtain ⟨project, hproject, hprecedes⟩ := hr
    rw [← hsame, ← h.tenant] at hproject
    rw [← hsame] at hprecedes
    exact hprecedes.follows hproject
  · exact (Project.Precedes.refl _).follows hhas

/-- An operation asks for no approval only when the project of the job asks for none. -/
theorem RowMoved.skip
    {op : DeliveryOp δ} (h : RowMoved (w.permits env op) event r r')
    (hr : r.Follows w.db.rest.toSurroundings) (hskip : (w.permits env op).skip r) :
  r'.job.project.requireApproval = false
  := by
  obtain ⟨project, hproject, hrevision, hnone⟩ := hskip
  rcases h.project with hsame | ⟨_, hhas⟩
  · obtain ⟨stored, hstored, hprecedes⟩ := hr
    rw [hproject] at hstored
    cases hstored
    have hpolicy := congrArg Project.requireApproval (hprecedes.policy hrevision.symm)
    rw [hsame]
    exact hpolicy.trans hnone
  · have hstored : w.db.rest.projectIn r'.job.tenant r'.job.project.id = some r'.job.project := hhas
    rw [h.tenant, h.projectId, hproject] at hstored
    cases hstored
    exact hnone

theorem JobRow.Traced.step
    {start : DeliveryWorld δ} {ops : List (DeliveryOp δ)} {op : DeliveryOp δ}
    (h : r.Traced env start ops) (hgood : r.Good)
    (hmoved : RowMoved ((start.run env ops).permits env op) event r r') :
  r'.Traced env start (ops ++ [op])
  := by
  constructor
  · rw [DeliveryWorld.run_concat]
    exact hmoved.follows h.follows
  · exact hmoved.prepared hgood h.prepared
  · intro hrequires hsome hgoes
    have hmanifest := hmoved.keeps_manifest hgood (hmoved.skip h.follows) hrequires hgoes
    rw [hmanifest] at hsome
    have hproject : r'.job.project = r.job.project := by
      rcases hmoved.project with hsame | ⟨hnone, _⟩
      · exact hsame
      · rw [hnone] at hsome
        cases hsome
    rcases hmoved.approve_or_goesOn hgood hsome hgoes with hmay | hbefore
    · -- The job is approved by this operation.
      obtain ⟨actor, administrator, project, rest, rfl, hr, hstored, happrovable, haccepted⟩ := hmay
      refine ⟨ops, [], actor, administrator, ?_, ?_⟩
      · rw [hmoved.id, hmoved.tenant, hmanifest]
      · constructor
        · exact happrovable.human
        · rw [hmoved.actor]
          exact happrovable.submitter
        · rw [hmoved.actorHuman]
          exact happrovable.actorHuman
        · rw [hmanifest]
          exact hsome
        · rw [hmoved.tenant, hproject]
          exact ⟨project, hstored, happrovable.revision, happrovable.approver⟩
        · rw [hmoved.id, hmanifest, hproject]
          exact ⟨r, hr, happrovable.awaiting, rfl, rfl⟩
        · rw [hmoved.id, hmoved.tenant, hmanifest]
          exact ⟨rest, haccepted⟩
    · rw [hproject] at hrequires
      exact (h.approved hrequires hsome hbefore).moved hmoved.toSameSubmission hproject hmanifest op
  · intro id hid
    rw [hmoved.automationTokenId] at hid
    obtain ⟨before, after, token, rfl, hfound, hhuman⟩ := h.minted id hid
    refine ⟨before, after ++ [op], token, List.append_assoc _ _ _, hfound, ?_⟩
    rw [hmoved.actorHuman]
    exact hhuman

theorem JobRow.Unclaimed.traced
    {start : DeliveryWorld δ} {ops : List (DeliveryOp δ)} (op : DeliveryOp δ)
    (h : r.Unclaimed (start.run env ops).db.rest.toSurroundings) :
  r.Traced env start (ops ++ [op])
  := by
  constructor
  · rw [DeliveryWorld.run_concat]
    exact (Project.Precedes.refl _).follows h.project
  · intro hprepared
    rcases h.state with hstate | hstate <;> simp [hstate, JobState.prepared] at hprepared
  · intro _ hsome
    rw [h.manifest] at hsome
    cases hsome
  · intro id hid
    obtain ⟨token, hfound, hhuman⟩ := h.human id hid
    exact ⟨ops, [op], token, rfl, hfound, hhuman⟩

/-- Every job is traced after any operations. -/
theorem DeliveryWorld.traced_run
    {start : DeliveryWorld δ} (hgood : start.Good) (hstart : start.db.rest.jobs.rows = [])
    (ops : List (DeliveryOp δ)) :
  ∀ r ∈ (start.run env ops).db.rest.jobs.rows, r.Traced env start ops
  := by
  induction ops using List.reverseRecOn with
  | nil =>
      intro r hr
      have hr : r ∈ start.db.rest.jobs.rows := hr
      rw [hstart] at hr
      cases hr
  | append_singleton ops op ih =>
      intro r' hr'
      rw [DeliveryWorld.run_concat] at hr'
      have hgood : (start.run env ops).Good := hgood.run ops
      obtain ⟨event, _, hmoved⟩ := DeliveryWorld.step_moved env hgood.copies op
      rcases hmoved.origin r' hr' with ⟨r, hr, hmoved⟩ | hinserted
      · exact (ih r hr).step (hgood.rows r hr) hmoved
      · exact hinserted.toUnclaimed.traced op

/-! ### What is refused -/

/-- The policy of the job's project has changed since the job was made. -/
def DeliveryDb.PolicyChanged (db : DeliveryDb) (row : JobRow) : Prop :=
  ∃ project, db.projectIn row.job.tenant row.job.project.id = some project
    ∧ ¬ row.job.project.sameDeliveryPolicy project

/-- No worker may export the job, and no recipient is given its files. -/
structure DeliveryWorld.Withheld (env : DeliveryEnv δ) (w : DeliveryWorld δ) (id : String) :
    Prop where
  exported : ∀ attempt row, w.db.rest.exportIn env.keys id attempt w.now ≠ .ok row
  accessed : ∀ tokenHash job, (deliveryAccessIn env w.db id tokenHash w.now).1 ≠ .ok job
  released : ∀ job, (releaseIn env w.db id).1 ≠ .ok job

theorem JobRow.Follows.withheld
    (h : r.Follows w.db.rest.toSurroundings) (hr : r ∈ w.db.rest.jobs.rows)
    (hchanged : w.db.rest.PolicyChanged r) :
  w.Withheld env r.id
  := by
  obtain ⟨project, hproject, hprecedes⟩ := h
  obtain ⟨stored, hstored, hother⟩ := hchanged
  rw [hproject] at hstored
  cases hstored
  have hfound := Table.find?_key hr
  have hrevision : r.job.project.revision ≠ project.revision :=
    hprecedes.changed (.refl project) hother
  have hreleased : ¬ w.db.rest.releasedJob r.job := by
    rintro ⟨_, hsame⟩
    rw [hproject] at hsame
    exact hrevision (Option.some.inj hsame).symm
  constructor
  · intro attempt row hok
    obtain ⟨hrow, _, _, ⟨p, hp, hsame⟩, _⟩ := DeliveryDb.exportIn_eq_ok hok
    rw [hfound] at hrow
    cases hrow
    rw [hproject] at hp
    cases hp
    exact hother hsame
  · intro tokenHash job hok
    rw [deliveryAccessIn] at hok
    split at hok
    · rw [hfound] at hok
      dsimp only at hok
      rw [if_neg hreleased] at hok
      cases hok
    · cases hok
  · intro job hok
    rw [releaseIn, hfound] at hok
    dsimp only at hok
    rw [hproject] at hok
    dsimp only at hok
    rw [if_neg hreleased] at hok
    cases hok

/-! ### Every state -/

/-- What was prepared keeps its manifest and its project. -/
theorem DeliveryWorld.Good.prepared_run
    (h : w.Good) (env : DeliveryEnv δ) (ops : List (DeliveryOp δ)) {id : String} {row : JobRow}
    (hrow : w.db.rest.jobs.find? id = some row) (hmanifest : row.job.manifest.isSome = true) :
  ∃ row', (w.run env ops).db.rest.jobs.find? id = some row'
    ∧ row'.job.tenant = row.job.tenant ∧ row'.job.manifest = row.job.manifest
    ∧ row'.job.project = row.job.project
  := by
  induction ops using List.reverseRecOn with
  | nil => exact ⟨row, hrow, rfl, rfl, rfl⟩
  | append_singleton ops op ih =>
      obtain ⟨r, hr, htenant, hsame, hproject⟩ := ih
      have hgood : (w.run env ops).Good := h.run ops
      obtain ⟨event, _, hmoved⟩ := DeliveryWorld.step_moved env hgood.copies op
      obtain ⟨r', hr', hmoved⟩ := hmoved.find? hr
      rw [DeliveryWorld.run_concat]
      refine ⟨r', hr', hmoved.tenant.trans htenant, ?_, ?_⟩
      · rcases hmoved.manifest with heq | ⟨hpreparing, _⟩
        · rw [heq, hsame]
        · have hnone := (hgood.rows r (Table.find?_eq_some.mp hr).1).prepares hpreparing
          rw [← hsame, hnone] at hmanifest
          cases hmanifest
      · rcases hmoved.project with heq | ⟨hnone, _⟩
        · rw [heq, hproject]
        · rw [← hsame, hnone] at hmanifest
          cases hmanifest

theorem DeliveryWorld.run_append (env : DeliveryEnv δ) (w : DeliveryWorld δ)
    (ops later : List (DeliveryOp δ)) :
  w.run env (ops ++ later) = (w.run env ops).run env later
  := List.foldl_append

theorem DeliveryWorld.projectIn_run
    (env : DeliveryEnv δ) (ops : List (DeliveryOp δ)) {tenant id : String} {project : Project}
    (h : w.db.rest.projectIn tenant id = some project) :
  ∃ later, (w.run env ops).db.rest.projectIn tenant id = some later ∧ project.Precedes later
  := by
  induction ops using List.reverseRecOn with
  | nil => exact ⟨project, h, .refl project⟩
  | append_singleton ops op ih =>
      obtain ⟨mid, hmid, hprecedes⟩ := ih
      obtain ⟨later, hlater, hnext⟩ := DeliveryWorld.step_projectIn env op hmid
      rw [DeliveryWorld.run_concat]
      exact ⟨later, hlater, hprecedes.trans hnext⟩

theorem Project.sameDeliveryPolicy.revision
    {project other : Project} (h : project.sameDeliveryPolicy other) :
  project.revision = other.revision
  := by
  rw [Project.sameDeliveryPolicy] at h
  rw [← h]

/-- A policy that has changed once is never again the one that the job was made with. -/
theorem JobRow.Follows.policyChanged_run
    (h : r.Follows w.db.rest.toSurroundings) (hchanged : w.db.rest.PolicyChanged r)
    (env : DeliveryEnv δ) (ops : List (DeliveryOp δ)) :
  (w.run env ops).db.rest.PolicyChanged r
  := by
  obtain ⟨project, hproject, hprecedes⟩ := h
  obtain ⟨stored, hstored, hother⟩ := hchanged
  rw [hproject] at hstored
  cases hstored
  obtain ⟨later, hlater, hnext⟩ := DeliveryWorld.projectIn_run env ops hproject
  refine ⟨later, hlater, ?_⟩
  intro hsame
  exact hprecedes.changed hnext hother hsame.revision

/-- Approval was not bypassed by these operations. -/
structure DeliveryWorld.Approved (env : DeliveryEnv δ) (start : DeliveryWorld δ)
    (ops : List (DeliveryOp δ)) : Prop where
  /-- A job whose project asks for approval is exported or released only once it was
  approved. -/
  approved : ∀ row ∈ (start.run env ops).db.rest.jobs.rows,
    row.job.project.requireApproval = true →
    row.job.state = .exporting ∨ row.job.state = .ready ∨ row.job.released →
    start.ApprovedIn env ops row
  /-- The human who made the token that submitted the job is known. -/
  minted : ∀ row ∈ (start.run env ops).db.rest.jobs.rows, ∀ id,
    row.job.automationTokenId = some id → ∃ before after token, ops = before ++ after
      ∧ (start.run env before).db.rest.tokens.find? id = some token
      ∧ row.job.actorHuman = some token.createdBy
  /-- Under another policy than its own a job is withheld. -/
  withheld : ∀ row ∈ (start.run env ops).db.rest.jobs.rows,
    (start.run env ops).db.rest.PolicyChanged row → (start.run env ops).Withheld env row.id
  /-- Once the policy has changed after the preparation of the job, the job is withheld
  whatever comes next. -/
  forever : ∀ row ∈ (start.run env ops).db.rest.jobs.rows, row.job.manifest.isSome = true →
    ∀ between later, (start.run env (ops ++ between)).db.rest.PolicyChanged row →
    (start.run env (ops ++ between ++ later)).Withheld env row.id

theorem JobRow.Traced.released
    {start : DeliveryWorld δ} {ops : List (DeliveryOp δ)} (h : r.Traced env start ops)
    (hgood : r.Good) (hrequires : r.job.project.requireApproval = true)
    (hstate : r.job.state = .exporting ∨ r.job.state = .ready ∨ r.job.released) :
  start.ApprovedIn env ops r
  := by
  have hready : r.job.state = .exporting ∨ r.job.state = .ready → start.ApprovedIn env ops r := by
    intro hstate
    apply h.approved hrequires
    · apply h.prepared
      rcases hstate with hstate | hstate <;> simp [hstate, JobState.prepared]
    · rcases hstate with hstate | hstate <;> simp [hstate, JobState.goesOn, JobState.stopped]
  rcases hstate with hstate | hstate | hstate | ⟨hreleased, hstate⟩
  · exact hready (Or.inl hstate)
  · exact hready (Or.inr hstate)
  · exact hready (Or.inr hstate)
  · have hmanifest : r.job.manifest.isSome = true := by
      rw [Option.isSome_iff_ne_none]
      intro hnone
      rw [hgood.unreleased hnone] at hreleased
      cases hreleased
    apply h.approved hrequires hmanifest
    simp only [List.mem_cons, List.not_mem_nil, or_false] at hstate
    rcases hstate with hstate | hstate | hstate <;>
      simp [hstate, JobState.goesOn, JobState.stopped]

/-- Approval is not bypassed in any run of a port. -/
theorem approval_not_bypassed
    (env : DeliveryEnv δ) (tables : UploadDb δ Surroundings) (now : UInt64)
    (ops : List (DeliveryOp δ)) :
  (DeliveryWorld.begin tables now).Approved env ops
  := by
  have hgood : (DeliveryWorld.begin tables now).Good := DeliveryWorld.good_begin tables now
  have htraced : ∀ ops, ∀ row ∈ ((DeliveryWorld.begin tables now).run env ops).db.rest.jobs.rows,
      row.Traced env (DeliveryWorld.begin tables now) ops :=
    DeliveryWorld.traced_run hgood rfl
  constructor
  · intro row hrow hrequires hstate
    exact (htraced ops row hrow).released ((hgood.run ops).rows row hrow) hrequires hstate
  · intro row hrow
    exact (htraced ops row hrow).minted
  · intro row hrow
    exact (htraced ops row hrow).follows.withheld hrow
  · intro row hrow hmanifest between later hchanged
    obtain ⟨mid, hmid, htenant, hkept, hproject⟩ :=
      (hgood.run ops).prepared_run env between (Table.find?_key hrow) hmanifest
    rw [← DeliveryWorld.run_append] at hmid
    obtain ⟨hmidmem, hid⟩ := Table.find?_eq_some.mp hmid
    have hmidchanged :
        ((DeliveryWorld.begin tables now).run env (ops ++ between)).db.rest.PolicyChanged mid := by
      rw [DeliveryDb.PolicyChanged, htenant, hproject]
      exact hchanged
    rw [← hkept] at hmanifest
    obtain ⟨last, hlast, htenant', _, hproject'⟩ :=
      (hgood.run (ops ++ between)).prepared_run env later hmid hmanifest
    have hlastchanged :=
      (htraced _ mid hmidmem).follows.policyChanged_run hmidchanged env later
    rw [DeliveryDb.PolicyChanged, ← htenant', ← hproject'] at hlastchanged
    rw [← DeliveryWorld.run_append] at hlast hlastchanged
    obtain ⟨hlastmem, hlastid⟩ := Table.find?_eq_some.mp hlast
    rw [← hlastid]
    exact (htraced _ last hlastmem).follows.withheld hlastmem hlastchanged

end Votport
