import Votport.Delivery.World

/-!
# What an operation does to the jobs

Every operation changes each row of `delivery_jobs` in one of a few ways, or leaves it, and
puts in rows of jobs that were never claimed.  What holds of jobs in every run is derived
from these ways, and not from the operations.
-/

namespace Votport

variable {δ : Type}

/-! ### The ways a row changes -/

/-- The tenant has the project. -/
def Surroundings.HasProject (tables : Surroundings) (tenant : String) (project : Project) : Prop :=
  tables.projectIn tenant project.id = some project

theorem Surroundings.hasProject
    {tables : Surroundings} {tenant id : String} {project : Project}
    (h : tables.projectIn tenant id = some project) :
  project.id = id ∧ tables.HasProject tenant project
  := by
  obtain ⟨row, hrow, rfl⟩ := Option.map_eq_some_iff.mp h
  have hid : row.project.id = id := congrArg Prod.snd (Table.find?_eq_some.mp hrow).2
  refine ⟨hid, ?_⟩
  rw [Surroundings.HasProject, hid]
  exact h

/-- What an operation may do to the rows. -/
structure Permits where
  /-- The delivery to the destination may complete. -/
  complete : JobRow → String → Prop
  /-- The job is approved. -/
  approve : JobRow → Prop
  /-- The project of the job asks for no approval. -/
  skip : JobRow → Prop
  /-- A worker reserves the bytes. -/
  reserve : JobRow → UInt64 → Prop
  /-- The tables that the projects are read from. -/
  tables : Surroundings
  /-- The recipients of the job change. -/
  recipients : JobRow → Prop
  /-- The job is replaced by the one with the id. -/
  replace : JobRow → String → Prop

/-- The numbers of the attempt are the same. -/
structure JobRow.SameAttempt (r r' : JobRow) : Prop where
  attempts : r'.job.attempts = r.job.attempts
  retryBase : r'.job.checks.retryBase = r.job.checks.retryBase

/-- How the state, the attempt and the owner of a row change, with what is noted of it. -/
inductive JobChange (may : Permits) (event : Option JobEvent) (r r' : JobRow) : Prop
  /-- Neither changes. -/
  | stay (hevent : ∀ e ∈ event, e.id ≠ r.id) (hstate : r'.job.state = r.job.state)
      (howner : r'.owner = r.owner) (hsame : r.SameAttempt r')
  /-- A worker stops. -/
  | stop (hevent : event = none) (hrunning : r.job.state.running)
      (hstate : r'.job.state = .failed
        ∨ r.job.state = .exporting ∧ r'.job.state ∈ [.ready, .retrying])
      (howner : r'.owner = r.owner) (hsame : r.SameAttempt r')
  /-- The job is prepared, and is exported by another attempt. -/
  | prepared (hevent : event = none) (hpreparing : r.job.state = .preparing)
      (hstate : r'.job.state = .awaitingApproval
        ∨ (r'.job.state = .exporting ∨ r'.job.state = .ready) ∧ may.skip r)
      (howner : r'.job.state = .exporting → r'.owner = "") (hsame : r.SameAttempt r')
      (hmanifest : r'.job.manifest.isSome = true)
  /-- The job is approved. -/
  | approve (hevent : event = none) (hmay : may.approve r)
      (hawaiting : r.job.state = .awaitingApproval)
      (hstate : r'.job.state = .exporting ∨ r'.job.state = .ready) (howner : r'.owner = "")
      (hsame : r.SameAttempt r')
  /-- The job is cancelled. -/
  | cancel (hevent : event = none) (hretiring : ¬ r.job.state.isRetiring)
      (hstate : r'.job.state = .cancelled) (hsame : r.SameAttempt r')
      (hsuspended : r.job.state ≠ .suspended)
  /-- The job is held. -/
  | suspend (hevent : event = none) (hstate : r'.job.state = .suspended) (howner : r'.owner = "")
      (hsame : r.SameAttempt r')
  /-- The retirement begins, or is tried again. -/
  | retire (hevent : event = none) (hrunning : ¬ r.job.state.running)
      (hretired : r.job.state ≠ .retired) (hstate : r'.job.state = .retiring)
      (howner : r'.owner = r.owner) (hsame : r.SameAttempt r')
      (hsuspended : r.job.state ≠ .suspended)
  /-- The retirement ends. -/
  | retired (hevent : event = none) (hretiring : r.job.state = .retiring)
      (hstate : r'.job.state = .retired) (howner : r'.owner = r.owner) (hsame : r.SameAttempt r')
      (hbytes : r'.job.checks.snapshotBytes = some 0)
  /-- The job is retried. -/
  | retry (hevent : event = some (.retried r.id))
      (hfailed : r.job.state = .failed ∨ r.job.state = .retrying)
      (hstate : r'.job.state = .exporting ∧ r.job.manifest.isSome = true
        ∨ r'.job.state = .queued ∧ r.job.manifest = none) (howner : r'.owner = "")
      (hattempts : r'.job.attempts = r.job.attempts + 1)
      (hbase : r'.job.checks.retryBase = some (r.job.attempts + 1))
  /-- The job is claimed, and runs. -/
  | claim (hevent : event = some (.claimed r.id))
      (hclaimable : r.job.state ∈ [.queued, .retrying, .preparing, .exporting])
      (hstate : r'.job.state = .exporting ∧ r.job.manifest.isSome = true
        ∨ r'.job.state = .preparing ∧ r.job.manifest = none)
      (hattempts : r'.job.attempts = r.job.attempts + 1)
      (hbase : r'.job.checks.retryBase = r.job.checks.retryBase)
      (hlimit : retryAttempts r'.job ≤ 5)
  /-- The job has been claimed too often. -/
  | exhaust (hevent : event = some (.exhausted r.id))
      (hclaimable : r.job.state ∈ [.queued, .retrying, .preparing, .exporting])
      (hstate : r'.job.state = .failed) (hattempts : r'.job.attempts = r.job.attempts + 1)
      (hbase : r'.job.checks.retryBase = r.job.checks.retryBase)

/-- The rows are of the same submission. -/
structure JobRow.SameSubmission (r r' : JobRow) : Prop where
  id : r'.id = r.id
  tenant : r'.job.tenant = r.job.tenant
  actor : r'.job.actor = r.job.actor
  automationTokenId : r'.job.automationTokenId = r.job.automationTokenId
  actorHuman : r'.job.actorHuman = r.job.actorHuman
  operationId : r'.job.request.operationId = r.job.request.operationId
  importFrom : r'.job.request.importFrom = r.job.request.importFrom
  received : r'.job.received = r.job.received
  reprocessedFrom : r'.job.reprocessedFrom = r.job.reprocessedFrom
  projectId : r'.job.project.id = r.job.project.id

/-- How a row changes. -/
structure RowMoved (may : Permits) (event : Option JobEvent) (r r' : JobRow) : Prop
    extends r.SameSubmission r' where
  manifest : r'.job.manifest = r.job.manifest
    ∨ r.job.state = .preparing ∧ r'.job.state ∈ [.awaitingApproval, .exporting, .ready]
  prepares : r'.job.state = .preparing → r'.job.manifest = r.job.manifest
  project : r'.job.project = r.job.project
    ∨ r.job.manifest = none ∧ may.tables.HasProject r'.job.tenant r'.job.project
  request : r'.job.request = r.job.request ∨ may.recipients r
    ∨ r.job.received.isSome = true ∧ r.job.manifest = none
  complete : ∀ d, r'.job.checks.complete d = true →
    r.job.checks.complete d = true ∨ r.job.state = .preparing ∨ may.complete r d
  released : r'.job.checks.releasedAt.isSome = true → r.job.checks.releasedAt.isSome = true
    ∨ r'.job.manifest.isSome = true ∧ (may.approve r ∨ r.job.state = .preparing ∧ may.skip r)
  /-- The reservation stays, or is made, or ends with the job. -/
  bytes : r'.job.checks.snapshotBytes = r.job.checks.snapshotBytes
    ∨ (∃ bytes, r'.job.checks.snapshotBytes = some bytes ∧ may.reserve r bytes)
    ∨ r'.job.state = .retired ∧ r'.job.checks.snapshotBytes = some 0
    ∨ r.job.received.isSome = true ∧ r'.job.attempts ≠ r.job.attempts
      ∧ r'.job.checks.snapshotBytes = none
  column : r.snapshotBytes = r.job.checks.snapshotColumn →
    r'.snapshotBytes = r'.job.checks.snapshotColumn
  reprocessed : r'.job.reprocessedAs = r.job.reprocessedAs
    ∨ r.job.reprocessedAs = none ∧ ∃ id, r'.job.reprocessedAs = some id ∧ may.replace r id
  change : JobChange may event r r'

/-- A row of a job that was never claimed. -/
structure JobRow.Unclaimed (tables : Surroundings) (r : JobRow) : Prop where
  owner : r.owner = ""
  snapshotBytes : r.snapshotBytes = 0
  state : r.job.state = .queued ∨ r.job.state = .failed
  attempts : r.job.attempts = 0
  checks : ∃ tradeRoutes, r.job.checks = .new tradeRoutes
  manifest : r.job.manifest = none
  importFrom : r.job.received.isSome = true → r.job.request.importFrom = none
  reprocessedAs : r.job.reprocessedAs = none
  project : tables.HasProject r.job.tenant r.job.project
  human : ∀ id, r.job.automationTokenId = some id → ∃ token, tables.tokens.find? id = some token
    ∧ r.job.actorHuman = some token.createdBy

/-- A row that has come into the table: no other has its operation, and the job that it
replaces is cancelled. -/
structure JobRow.Inserted (may : Permits) (jobs jobs' : Table JobRow.id) (r : JobRow) : Prop
    extends r.Unclaimed may.tables where
  absent : jobs.find? r.id = none
  operation : ∀ s ∈ jobs'.rows, s.sameOperation r → s.id = r.id
  replaces : ∀ id, r.job.reprocessedFrom = some id → ∃ s ∈ jobs'.rows, s.id = id
    ∧ s.job.reprocessedAs = some r.id ∧ s.job.state = .cancelled

/-- How the table changes. -/
structure JobsMoved (may : Permits) (event : Option JobEvent) (jobs jobs' : Table JobRow.id) :
    Prop where
  moved : ∀ r ∈ jobs.rows, ∃ r' ∈ jobs'.rows, RowMoved may event r r'
  origin : ∀ r' ∈ jobs'.rows, (∃ r ∈ jobs.rows, RowMoved may event r r')
    ∨ r'.Inserted may jobs jobs'
  event : ∀ e ∈ event, ∃ r ∈ jobs.rows, r.id = e.id

variable {may : Permits} {event : Option JobEvent}

theorem JobRow.SameAttempt.refl (r : JobRow) : r.SameAttempt r := ⟨rfl, rfl⟩

theorem JobRow.SameSubmission.refl (r : JobRow) : r.SameSubmission r
  := ⟨rfl, rfl, rfl, rfl, rfl, rfl, rfl, rfl, rfl, rfl⟩

theorem JobRow.SameSubmission.sameOperation {r r' s : JobRow} (h : r.SameSubmission r') :
  r'.sameOperation s ↔ r.sameOperation s
  := by
  rw [JobRow.sameOperation, JobRow.sameOperation, h.tenant, h.actor, h.operationId]

/-- A row moves by staying as it is. -/
theorem RowMoved.refl {r : JobRow} (hevent : ∀ e ∈ event, e.id ≠ r.id) :
  RowMoved may event r r
  where
    toSameSubmission := .refl r
    manifest := Or.inl rfl
    prepares := fun _ => rfl
    project := Or.inl rfl
    request := Or.inl rfl
    complete := fun _ => Or.inl
    released := Or.inl
    bytes := Or.inl rfl
    column := id
    reprocessed := Or.inl rfl
    change := .stay hevent rfl rfl (.refl r)

/-- The checks tell the same of what is complete, released and reserved. -/
structure Checks.Kept (checks checks' : Checks) : Prop where
  complete : ∀ d, checks'.complete d = true → checks.complete d = true
  releasedAt : checks'.releasedAt = checks.releasedAt
  snapshotBytes : checks'.snapshotBytes = checks.snapshotBytes

theorem Checks.Kept.refl (checks : Checks) : checks.Kept checks := ⟨fun _ => id, rfl, rfl⟩

/-- The row is saved with the state, the attempt and the checks of its job changed. -/
theorem RowMoved.save
    {r : JobRow} {owner : String} {notBefore : Int} {state : JobState} {attempts : Nat}
    {updatedAt : UInt64} {error approvedBy : Option String} {checks : Checks}
    (hchecks : r.job.checks.Kept checks)
    (hchange : JobChange may event r
      { owner := owner
        notBefore := notBefore
        snapshotBytes := checks.snapshotColumn
        job :=
          { r.job with
            state := state, attempts := attempts, updatedAt := updatedAt, error := error
            approvedBy := approvedBy, checks := checks } }) :
  RowMoved may event r
    { owner := owner
      notBefore := notBefore
      snapshotBytes := checks.snapshotColumn
      job :=
        { r.job with
          state := state, attempts := attempts, updatedAt := updatedAt, error := error
          approvedBy := approvedBy, checks := checks } }
  where
    toSameSubmission := ⟨rfl, rfl, rfl, rfl, rfl, rfl, rfl, rfl, rfl, rfl⟩
    manifest := Or.inl rfl
    prepares := fun _ => rfl
    project := Or.inl rfl
    request := Or.inl rfl
    complete := fun d hd => Or.inl (hchecks.complete d hd)
    released := fun h => Or.inl (hchecks.releasedAt ▸ h)
    bytes := Or.inl hchecks.snapshotBytes
    column := fun _ => rfl
    reprocessed := Or.inl rfl
    change := hchange

theorem JobsMoved.refl (jobs : Table JobRow.id) :
  JobsMoved may none jobs jobs
  where
    moved := fun r hr => ⟨r, hr, .refl (by simp)⟩
    origin := fun r hr => Or.inl ⟨r, hr, .refl (by simp)⟩
    event := by simp

/-- One row moves. -/
theorem JobsMoved.save
    {jobs : Table JobRow.id} {id : String} {r r' : JobRow} (hr : jobs.find? id = some r)
    (hmoved : RowMoved may event r r') (hevent : ∀ e ∈ event, e.id = r.id) :
  JobsMoved may event jobs (jobs.upsert r')
  := by
  have hmem : r ∈ jobs.rows := (Table.find?_eq_some.mp hr).1
  have hother : ∀ s ∈ jobs.rows, s.id ≠ r.id → RowMoved may event s s := by
    intro s _ hne
    apply RowMoved.refl
    intro e he h
    exact hne (h.symm.trans (hevent e he))
  constructor
  · intro s hs
    by_cases hid : s.id = r.id
    · cases jobs.eq_of_key_eq hs hmem hid
      exact ⟨r', Table.mem_upsert.mpr (Or.inl rfl), hmoved⟩
    · refine ⟨s, Table.mem_upsert.mpr (Or.inr ⟨hs, ?_⟩), hother s hs hid⟩
      rw [hmoved.id]
      exact hid
  · intro s hs
    rcases Table.mem_upsert.mp hs with rfl | ⟨hs, hne⟩
    · exact Or.inl ⟨r, hmem, hmoved⟩
    · rw [hmoved.id] at hne
      exact Or.inl ⟨s, hs, hother s hs hne⟩
  · intro e he
    exact ⟨r, hmem, (hevent e he).symm⟩

/-- A job that was never claimed is put in after the others have moved. -/
theorem JobsMoved.insert
    {jobs mid jobs' : Table JobRow.id} {r : JobRow} (hmid : JobsMoved may event jobs mid)
    (hold : ∀ s ∈ mid.rows, ∃ t ∈ jobs.rows, RowMoved may event t s)
    (h : mid.insert? r = some jobs') (hr : r.Unclaimed may.tables)
    (hoperation : ∀ s ∈ mid.rows, ¬ s.sameOperation r)
    (hreplaces : ∀ id, r.job.reprocessedFrom = some id → ∃ s ∈ mid.rows, s.id = id
      ∧ s.job.reprocessedAs = some r.id ∧ s.job.state = .cancelled) :
  JobsMoved may event jobs jobs'
  := by
  obtain ⟨habsent, hrows⟩ := Table.insert?_eq_some.mp h
  constructor
  · intro s hs
    obtain ⟨s', hs', hmoved⟩ := hmid.moved s hs
    refine ⟨s', ?_, hmoved⟩
    rw [hrows]
    exact List.mem_cons_of_mem r hs'
  · intro s hs
    rw [hrows, List.mem_cons] at hs
    rcases hs with rfl | hs
    · refine Or.inr ⟨hr, ?_, ?_, ?_⟩
      · rw [Table.find?_eq_none] at habsent ⊢
        intro t ht he
        obtain ⟨t', ht', hmoved⟩ := hmid.moved t ht
        exact habsent t' ht' (hmoved.id.trans he)
      · intro t ht hsame
        rw [hrows, List.mem_cons] at ht
        rcases ht with rfl | ht
        · rfl
        · exact absurd hsame (hoperation t ht)
      · intro id hid
        obtain ⟨t, ht, hreplaced⟩ := hreplaces id hid
        refine ⟨t, ?_, hreplaced⟩
        rw [hrows]
        exact List.mem_cons_of_mem _ ht
    · exact Or.inl (hold s hs)
  · exact hmid.event

/-- Several rows move at once. -/
theorem JobsMoved.map
    {jobs : Table JobRow.id} {f : JobRow → JobRow} (hf : ∀ r, (f r).id = r.id)
    (h : ∀ r ∈ jobs.rows, RowMoved may none r (f r)) :
  JobsMoved may none jobs (jobs.map f hf)
  := by
  constructor
  · intro r hr
    exact ⟨f r, Table.mem_map.mpr ⟨r, hr, rfl⟩, h r hr⟩
  · intro r' hr'
    obtain ⟨r, hr, rfl⟩ := Table.mem_map.mp hr'
    exact Or.inl ⟨r, hr, h r hr⟩
  · simp

theorem JobsMoved.find?
    {jobs jobs' : Table JobRow.id} (h : JobsMoved may event jobs jobs') {id : String}
    {r : JobRow} (hr : jobs.find? id = some r) :
  ∃ r', jobs'.find? id = some r' ∧ RowMoved may event r r'
  := by
  obtain ⟨hmem, rfl⟩ := Table.find?_eq_some.mp hr
  obtain ⟨r', hr', hmoved⟩ := h.moved r hmem
  exact ⟨r', Table.find?_eq_some.mpr ⟨hr', hmoved.id⟩, hmoved⟩

/-! ### Queueing -/

theorem DeliveryDb.insertJob_eq_ok
    {db db' : DeliveryDb} {row : JobRow} (h : db.insertJob row = .ok db') :
  (∀ s ∈ db.jobs.rows, ¬ s.sameOperation row)
    ∧ ∃ jobs, db.jobs.insert? row = some jobs ∧ db' = { db with jobs := jobs }
  := by
  obtain ⟨_, hsame, h⟩ := Fallible.bind_eq_ok.mp h
  obtain ⟨jobs, hjobs, h⟩ := Fallible.bind_eq_ok.mp h
  refine ⟨?_, jobs, Fallible.present_eq_ok.mp hjobs, (Except.ok.inj h).symm⟩
  intro s hs hoperation
  exact Fallible.require_eq_ok.mp hsame ⟨s, hs, hoperation⟩

/-- A job comes into the table without another that it replaces. -/
structure DeliveryDb.Queued (db : DeliveryDb) (row : JobRow) (jobs : Table JobRow.id) : Prop
    extends row.Unclaimed db.toSurroundings where
  inserted : db.jobs.insert? row = some jobs
  operation : ∀ s ∈ db.jobs.rows, ¬ s.sameOperation row
  replaces : row.job.reprocessedFrom = none

theorem DeliveryDb.Queued.moved
    {db : DeliveryDb} {row : JobRow} {jobs : Table JobRow.id} (h : db.Queued row jobs)
    (htables : may.tables = db.toSurroundings) :
  JobsMoved may none db.jobs jobs
  := by
  refine .insert (.refl _) (fun s hs => ⟨s, hs, .refl (by simp)⟩) h.inserted ?_ h.operation ?_
  · rw [htables]
    exact h.toUnclaimed
  · intro id hid
    rw [h.replaces] at hid
    cases hid

/-- The automation token that submits a job is one of the job's tenant. -/
theorem Surroundings.actorActive_token
    {db : Surroundings} {keys : SubjectKeys} {job : Job} {now : UInt64} {id : String}
    (h : db.actorActive keys job now = .ok ()) (hreceived : job.received = none)
    (htoken : job.automationTokenId = some id) :
  ∃ token, db.tokens.find? id = some token ∧ token.tenant = job.tenant
  := by
  rw [Surroundings.actorActive, hreceived] at h
  have hactive := Fallible.require_eq_ok.mp h
  rw [Surroundings.identityActive, htoken] at hactive
  obtain ⟨token, hfound, hcreates⟩ := (Option.any_eq_true _ _).mp hactive
  simp only [AutomationToken.createsJobs, Bool.and_eq_true, decide_eq_true_iff] at hcreates
  exact ⟨token, hfound, hcreates.1.1.1.1⟩

/-- A job is queued, or there is one already. -/
theorem DeliveryDb.enqueue_eq_ok
    {db db' : DeliveryDb} {keys : SubjectKeys} {id tenant actor : String}
    {credentialVersion : Nat} {automationTokenId : Option String} {project : Project}
    {request : JobRequest} {now : UInt64} {job : Job}
    (h : db.enqueueDeliveryJob keys id tenant actor credentialVersion automationTokenId project
      request now = .ok (job, db')) :
  (∃ previous ∈ db.jobs.rows, previous.job = job ∧ job.tenant = tenant ∧ job.actor = actor
      ∧ job.request = request ∧ db' = db)
    ∨ ∃ row jobs, db.Queued row jobs ∧ row.job = job ∧ job.tenant = tenant ∧ job.actor = actor
      ∧ job.request = request ∧ job.received = none ∧ db' = { db with jobs := jobs }
  := by
  obtain ⟨_, _, h⟩ := Fallible.bind_eq_ok.mp h
  split at h
  · rename_i previous hprevious
    obtain ⟨_, hrequest, h⟩ := Fallible.bind_eq_ok.mp h
    cases h
    have hfound := List.find?_some hprevious
    rw [decide_eq_true_iff] at hfound
    exact Or.inl ⟨previous, List.mem_of_find?_eq_some hprevious, rfl, hfound.1, hfound.2.1,
      Fallible.require_eq_ok.mp hrequest, rfl⟩
  · obtain ⟨_, _, h⟩ := Fallible.bind_eq_ok.mp h
    obtain ⟨_, hproject, h⟩ := Fallible.bind_eq_ok.mp h
    obtain ⟨_, _, h⟩ := Fallible.bind_eq_ok.mp h
    obtain ⟨_, hactive, h⟩ := Fallible.bind_eq_ok.mp h
    obtain ⟨db₁, hinsert, h⟩ := Fallible.bind_eq_ok.mp h
    cases h
    have hproject := Fallible.require_eq_ok.mp hproject
    obtain ⟨hsame, jobs, hjobs, rfl⟩ := DeliveryDb.insertJob_eq_ok hinsert
    refine Or.inr ⟨_, jobs, ⟨⟨rfl, rfl, Or.inl rfl, rfl, ⟨_, rfl⟩, rfl, ?_, rfl, ?_, ?_⟩, hjobs,
      hsame, rfl⟩, rfl, rfl, rfl, rfl, rfl, rfl⟩
    · intro hreceived
      cases hreceived
    · exact hproject
    · intro token htoken
      obtain ⟨row, hrow, htenant⟩ := Surroundings.actorActive_token hactive rfl htoken
      refine ⟨row, hrow, ?_⟩
      have htoken : automationTokenId = some token := htoken
      have hfilter : (some row).filter (fun t : AutomationToken => decide (t.tenant = tenant))
          = some row := if_pos (decide_eq_true htenant)
      dsimp only [Job.new]
      rw [htoken, Option.bind_some, hrow, hfilter]
      rfl

/-- A received upload is noted, and its job queued unless it was before. -/
theorem queueReceived_eq_ok
    {db : PortDb δ} {db' : DeliveryDb} {id tenant linkId : String} {upload : UploadRecord}
    {now : UInt64} (h : queueReceived db id tenant linkId upload now = .ok db') :
  ∃ receiveUploads cache, db' = { db.rest with receiveUploads := receiveUploads, cache := cache }
    ∨ upload.isPartial = false ∧ ∃ row jobs, db.rest.Queued row jobs
        ∧ row.job.received = some ⟨linkId, upload.id⟩
        ∧ db' = { db.rest with receiveUploads := receiveUploads, cache := cache, jobs := jobs }
  := by
  rw [queueReceived] at h
  split at h
  · exact ⟨db.rest.receiveUploads, db.rest.cache, Or.inl (Except.ok.inj h).symm⟩
  · refine ⟨(linkId, upload.id) :: db.rest.receiveUploads,
      db.rest.protectUpload tenant linkId upload.id, ?_⟩
    dsimp only at h
    split_ifs at h with hwhole
    · exact Or.inl (Except.ok.inj h).symm
    · obtain ⟨project, hproject, h⟩ := Fallible.bind_eq_ok.mp h
      split at h
      · exact Or.inl (Except.ok.inj h).symm
      · obtain ⟨hsame, jobs, hjobs, rfl⟩ := DeliveryDb.insertJob_eq_ok (textError_eq_ok.mp h)
        refine Or.inr ⟨by simpa using hwhole, _, jobs, ⟨⟨rfl, rfl, ?_, rfl, ⟨_, rfl⟩, rfl,
          fun _ => rfl, rfl, ?_, ?_⟩, hjobs, hsame, rfl⟩, rfl, rfl⟩
        · dsimp only [DeliveryDb.receivedJob]
          split
          · exact Or.inr rfl
          · exact Or.inl rfl
        · exact (Surroundings.hasProject (Fallible.present_eq_ok.mp hproject)).2
        · intro token htoken
          cases htoken

/-! ### Working -/

/-- A saved job is there. -/
theorem DeliveryDb.find?_saveJob (db : DeliveryDb) (row : JobRow) :
  (db.saveJob row).jobs.find? row.id
    = some { row with snapshotBytes := row.job.checks.snapshotColumn }
  := Table.find?_eq_some.mpr ⟨Table.mem_upsert.mpr (Or.inl rfl), rfl⟩

/-- A claim takes a row that the owner may claim. -/
theorem DeliveryDb.claim_eq_some
    {db db' : DeliveryDb} {owner : String} {now : UInt64} {row' : JobRow}
    (h : db.claimDeliveryJob owner now = some (row', db')) :
  ∃ row, db.jobs.find? row.id = some row ∧ db.claimable owner now row
    ∧ row' = { row with owner := owner, job := row.job.claimed now } ∧ db' = db.saveJob row'
  := by
  obtain ⟨row, hhead, hrow⟩ := Option.map_eq_some_iff.mp h
  have hmem := List.mem_of_mem_head? hhead
  rw [List.mem_insertionSort, List.mem_filter, decide_eq_true_iff] at hmem
  obtain ⟨rfl, rfl⟩ := Prod.mk.inj hrow
  exact ⟨row, Table.find?_key hmem.1, hmem.2, rfl, rfl⟩

theorem DeliveryDb.reserve_eq_ok
    {db db' : DeliveryDb} {id : String} {attempt : Nat} {bytes limit : UInt64}
    (h : db.reserveDeliverySnapshot id attempt bytes limit = .ok db') :
  ∃ row, db.jobs.find? id = some row ∧ row.job.state = .preparing ∧ row.job.attempts = attempt
    ∧ db.reservedBeside row.job.tenant id + bytes.toNat ≤ min limit.toNat i64Max
    ∧ db' = db.saveJob { row with
        job := { row.job with checks := { row.job.checks with snapshotBytes := some bytes } } }
  := by
  obtain ⟨row, hrow, h⟩ := Fallible.bind_eq_ok.mp h
  obtain ⟨_, hstate, h⟩ := Fallible.bind_eq_ok.mp h
  obtain ⟨_, hlimit, h⟩ := Fallible.bind_eq_ok.mp h
  obtain ⟨hstate, hattempts⟩ := Fallible.require_eq_ok.mp hstate
  exact ⟨row, Fallible.present_eq_ok.mp hrow, hstate, hattempts, Fallible.require_eq_ok.mp hlimit,
    (Except.ok.inj h).symm⟩

theorem DeliveryDb.finishJob_eq_ok
    {db db' : DeliveryDb} {keys : SubjectKeys} {job : Job} {manifest : String} {now : UInt64}
    (h : db.finishJob keys job manifest now = .ok db') :
  ∃ row project releasedAt, db.jobs.find? job.id = some row ∧ row.job.state = .preparing
    ∧ row.job.attempts = job.attempts ∧ row.job.project = job.project
    ∧ db.projectIn job.tenant job.project.id = some project
    ∧ project.revision = job.project.revision
    ∧ (releasedAt = job.checks.releasedAt ∨ project.requireApproval = false)
    ∧ db' = db.saveJob { row with
        owner := if project.preparedState = .exporting then "" else row.owner
        job :=
          { row.job with
            manifest := some manifest
            updatedAt := now
            state := Project.preparedState project
            checks := { job.checks with releasedAt := releasedAt } } }
  := by
  obtain ⟨row, hrow, h⟩ := Fallible.bind_eq_ok.mp h
  obtain ⟨_, hstate, h⟩ := Fallible.bind_eq_ok.mp h
  obtain ⟨project, hproject, h⟩ := Fallible.bind_eq_ok.mp h
  obtain ⟨_, hrevision, h⟩ := Fallible.bind_eq_ok.mp h
  obtain ⟨_, _, h⟩ := Fallible.bind_eq_ok.mp h
  obtain ⟨_, _, h⟩ := Fallible.bind_eq_ok.mp h
  obtain ⟨hstate, hattempts, hsame⟩ := Fallible.require_eq_ok.mp hstate
  refine ⟨row, project, _, Fallible.present_eq_ok.mp hrow, hstate, hattempts, hsame,
    Fallible.present_eq_ok.mp hproject, Fallible.require_eq_ok.mp hrevision, ?_,
    (Except.ok.inj h).symm⟩
  split
  · rename_i hlocal
    exact Or.inr hlocal.1
  · exact Or.inl rfl

/-- A grant is created, and the job that it has is finished. -/
theorem addOutboundGrant_eq_ok
    {env : DeliveryEnv δ} {db : PortDb δ} {db' : DeliveryDb} {grant : OutboundGrant}
    {job : Option Job} {manifest : String} {now : UInt64}
    (h : addOutboundGrant env db grant job manifest now = .ok db') :
  checkGrantCreation env db grant job = .ok ()
    ∧ ∃ rest grants, db.rest.finishGrantJob env.keys manifest now job = .ok rest
      ∧ rest.grants.insert? grant.row = some grants ∧ db' = { rest with grants := grants }
  := by
  obtain ⟨_, hcheck, h⟩ := Fallible.bind_eq_ok.mp h
  obtain ⟨rest, hrest, h⟩ := Fallible.bind_eq_ok.mp h
  obtain ⟨grants, hgrants, h⟩ := Fallible.bind_eq_ok.mp h
  exact ⟨hcheck, rest, grants, hrest, Fallible.present_eq_ok.mp hgrants, (Except.ok.inj h).symm⟩

/-- A worker may export a job only at its present attempt, while the grant is in force. -/
theorem DeliveryDb.exportIn_eq_ok
    {db : DeliveryDb} {keys : SubjectKeys} {id : String} {attempt : Nat} {now : UInt64}
    {row : JobRow} (h : db.exportIn keys id attempt now = .ok row) :
  db.jobs.find? id = some row ∧ row.job.state = .exporting ∧ row.job.attempts = attempt
    ∧ (∃ project, db.projectIn row.job.tenant row.job.project.id = some project
      ∧ row.job.project.sameDeliveryPolicy project)
    ∧ ∃ g, db.grants.find? id = some g ∧ g.revokedAt = none ∧ asI64 now.toNat < g.expiresAt
  := by
  obtain ⟨row', hrow, h⟩ := Fallible.bind_eq_ok.mp h
  obtain ⟨project, hproject, h⟩ := Fallible.bind_eq_ok.mp h
  obtain ⟨_, hstate, h⟩ := Fallible.bind_eq_ok.mp h
  obtain ⟨_, hgrant, h⟩ := Fallible.bind_eq_ok.mp h
  obtain ⟨_, _, h⟩ := Fallible.bind_eq_ok.mp h
  obtain ⟨_, _, h⟩ := Fallible.bind_eq_ok.mp h
  cases Except.ok.inj h
  obtain ⟨hstate, hattempts, hpolicy, _⟩ := Fallible.require_eq_ok.mp hstate
  obtain ⟨g, hg, hlive⟩ := (Option.any_eq_true _ _).mp (Fallible.require_eq_ok.mp hgrant)
  rw [Bool.and_eq_true, Option.isNone_iff_eq_none, decide_eq_true_iff] at hlive
  exact ⟨Fallible.present_eq_ok.mp hrow, hstate, hattempts,
    ⟨project, Fallible.present_eq_ok.mp hproject, hpolicy⟩, g, hg, hlive⟩

theorem DeliveryDb.complete_eq_ok
    {db db' : DeliveryDb} {keys : SubjectKeys} {id : String} {attempt : Nat}
    {destination location : String} {now : UInt64}
    (h : db.completeDeliveryExport keys id attempt destination location now = .ok db') :
  ∃ row storage state, db.exportIn keys id attempt now = .ok row
    ∧ db.requireDeliveryDestination keys id attempt destination now = .ok storage
    ∧ (state = .ready ∨ state = row.job.state) ∧ db' = db.saveJob { row with
      job :=
        { row.job with
          checks :=
            { row.job.checks with
              destinations :=
                row.job.checks.destinations.set destination (.complete location now) }
          state := state
          updatedAt := now } }
  := by
  obtain ⟨row, hrow, h⟩ := Fallible.bind_eq_ok.mp h
  obtain ⟨storage, hstorage, h⟩ := Fallible.bind_eq_ok.mp h
  refine ⟨row, storage, _, hrow, Fallible.bind_eq_ok.mpr ⟨row, hrow, hstorage⟩, ?_,
    (Except.ok.inj h).symm⟩
  split_ifs
  · exact Or.inl rfl
  · exact Or.inr rfl

theorem DeliveryDb.failDestination_eq_ok
    {db db' : DeliveryDb} {keys : SubjectKeys} {id : String} {attempt : Nat}
    {destination error : String} {now : UInt64}
    (h : db.failDeliveryDestination keys id attempt destination error now = .ok db') :
  ∃ row, db.exportIn keys id attempt now = .ok row ∧ db' = db.saveJob { row with
    job :=
      { row.job with
        checks :=
          { row.job.checks with
            destinations :=
              row.job.checks.destinations.set destination (.failed (keptError error)) } } }
  := by
  obtain ⟨row, hrow, h⟩ := Fallible.bind_eq_ok.mp h
  obtain ⟨_, _, h⟩ := Fallible.bind_eq_ok.mp h
  exact ⟨row, hrow, (Except.ok.inj h).symm⟩

theorem DeliveryDb.updateExporting_eq_some
    {db db' : DeliveryDb} {id : String} {attempt : Nat} {f : Checks → Checks}
    (h : db.updateExporting id attempt f = some db') :
  ∃ row, db.jobs.find? id = some row ∧ row.job.state = .exporting ∧ row.job.attempts = attempt
    ∧ db' = db.saveJob { row with job := { row.job with checks := f row.job.checks } }
  := by
  rw [DeliveryDb.updateExporting] at h
  split at h
  · cases h
  · rename_i row hrow
    split_ifs at h with hstate
    exact ⟨row, hrow, hstate.1, hstate.2, (Option.some.inj h).symm⟩

/-! ### Changing -/

/-- The actor may approve the job: another human than the one who submitted it, and an approver
of the project, who names the manifest that the job has. -/
structure Job.ApprovableBy (job : Job) (project : Project) (actor : String)
    (administrator : Bool) (manifest : Option String) : Prop where
  human : beginsWith actor "automation:" = false
  approver : project.allows actor "approver" administrator = true
  submitter : actor ≠ job.actor
  actorHuman : job.actorHuman ≠ some actor
  awaiting : job.state = .awaitingApproval
  prepared : manifest.isSome = true
  manifest : job.manifest = manifest
  revision : project.revision = job.project.revision

theorem DeliveryDb.approve_eq_ok
    {db : DeliveryDb} {keys : SubjectKeys} {job job' : Job} {project : Project} {actor : String}
    {administrator : Bool} {manifest : Option String} {now : UInt64}
    (h : db.approveJob keys job project actor administrator manifest now = .ok job') :
  job.ApprovableBy project actor administrator manifest ∧ ∃ releasedAt, job' = { job with
    approvedBy := some actor
    checks := { job.checks with releasedAt := releasedAt }
    state := if project.destinations ≠ [] then .exporting else .ready }
  := by
  obtain ⟨_, hactor, h⟩ := Fallible.bind_eq_ok.mp h
  obtain ⟨_, hsubmitter, h⟩ := Fallible.bind_eq_ok.mp h
  obtain ⟨_, hhuman, h⟩ := Fallible.bind_eq_ok.mp h
  obtain ⟨_, hstate, h⟩ := Fallible.bind_eq_ok.mp h
  obtain ⟨_, _, h⟩ := Fallible.bind_eq_ok.mp h
  obtain ⟨_, _, h⟩ := Fallible.bind_eq_ok.mp h
  obtain ⟨hautomation, happrover⟩ := Fallible.require_eq_ok.mp hactor
  obtain ⟨hawaiting, hmanifest, hprepared, hrevision⟩ := Fallible.require_eq_ok.mp hstate
  exact ⟨⟨hautomation, happrover, Fallible.require_eq_ok.mp hsubmitter,
    Fallible.require_eq_ok.mp hhuman, hawaiting, hprepared, hmanifest, hrevision⟩, _,
    (Except.ok.inj h).symm⟩

theorem cancelJob_eq_ok
    {job : Job} {job' : Option Job} {project : Project} {actor : String} {administrator : Bool}
    (h : cancelJob job project actor administrator = .ok job') :
  ¬ job.state.isRetiring ∧ (job' = none ∨ job' = some { job with state := .cancelled })
  := by
  obtain ⟨_, _, h⟩ := Fallible.bind_eq_ok.mp h
  obtain ⟨_, hretiring, h⟩ := Fallible.bind_eq_ok.mp h
  refine ⟨Fallible.require_eq_ok.mp hretiring, ?_⟩
  split at h
  · exact Or.inl (Except.ok.inj h).symm
  · exact Or.inr (Except.ok.inj h).symm

/-- A retry keeps the policy of the job, unless it takes a received one that was not prepared. -/
theorem retryPolicy_eq_ok
    {db : PortDb δ} {job job' : Job} {project : Project} {tenant : String}
    (h : retryPolicy db job project tenant = .ok job') :
  job' = job ∨ job.received.isSome = true ∧ job.manifest = none ∧ ∃ request tradeRoutes,
    request.operationId = job.request.operationId ∧ request.importFrom = job.request.importFrom
      ∧ job' = { job with request := request, project := project, checks := .new tradeRoutes }
  := by
  rw [retryPolicy] at h
  split at h
  · rename_i hreceived hmanifest
    obtain ⟨workflow, _, h⟩ := Fallible.bind_eq_ok.mp h
    refine Or.inr ⟨by rw [hreceived]; rfl, hmanifest, _, _, ?_, ?_, (Except.ok.inj h).symm⟩
    · rfl
    · rfl
  · obtain ⟨_, _, h⟩ := Fallible.bind_eq_ok.mp h
    exact Or.inl (Except.ok.inj h).symm

theorem retryJob_eq_ok
    {env : DeliveryEnv δ} {db : PortDb δ} {job job' : Job} {project : Project}
    {tenant actor : String} {administrator : Bool} {now : UInt64}
    (h : retryJob env db job project tenant actor administrator now = .ok job') :
  (job.state = .failed ∨ job.state = .retrying) ∧ ∃ policy, retryPolicy db job project tenant
      = .ok policy
    ∧ job' = { policy with
        attempts := policy.attempts + 1
        checks :=
          { policy.checks with
            retryBase := some (policy.attempts + 1), firstFailureAt := none, retryAt := none }
        state := if policy.manifest.isSome then .exporting else .queued }
  := by
  obtain ⟨_, _, h⟩ := Fallible.bind_eq_ok.mp h
  obtain ⟨_, hstate, h⟩ := Fallible.bind_eq_ok.mp h
  obtain ⟨policy, hpolicy, h⟩ := Fallible.bind_eq_ok.mp h
  obtain ⟨_, _, h⟩ := Fallible.bind_eq_ok.mp h
  obtain ⟨_, _, h⟩ := Fallible.bind_eq_ok.mp h
  exact ⟨Fallible.require_eq_ok.mp hstate, policy, hpolicy, (Except.ok.inj h).symm⟩

/-- An action changes the job that it names, and no other, unless it is cancelled already. -/
theorem changeDeliveryJob_eq_ok
    {env : DeliveryEnv δ} {db : PortDb δ} {db' : DeliveryDb} {tenant id actor : String}
    {administrator : Bool} {action : JobAction} {now : UInt64}
    (h : changeDeliveryJob env db tenant id actor administrator action now = .ok db') :
  ∃ row project changed, db.rest.jobs.find? id = some row ∧ row.job.tenant = tenant
    ∧ row.job.state ≠ .suspended
    ∧ db.rest.projectIn tenant row.job.project.id = some project
    ∧ changeJob env db row.job project tenant actor administrator now action = .ok changed
    ∧ db' = match changed with
      | none => db.rest
      | some job =>
          db.rest.saveJob
            { row with owner := "", job := { job with updatedAt := now, error := none } }
  := by
  obtain ⟨row, hrow, h⟩ := Fallible.bind_eq_ok.mp h
  obtain ⟨project, hproject, h⟩ := Fallible.bind_eq_ok.mp h
  obtain ⟨_, hstate, h⟩ := Fallible.bind_eq_ok.mp h
  obtain ⟨changed, hchanged, h⟩ := Fallible.bind_eq_ok.mp h
  obtain ⟨hrow, htenant⟩ := Option.filter_eq_some_iff.mp (Fallible.present_eq_ok.mp hrow)
  refine ⟨row, project, changed, hrow, of_decide_eq_true htenant,
    Fallible.require_eq_ok.mp hstate, Fallible.present_eq_ok.mp hproject, hchanged, ?_⟩
  cases changed with
  | none => exact (Except.ok.inj h).symm
  | some job => exact (Except.ok.inj h).symm

theorem DeliveryDb.removeRecipient_eq_ok
    {db db' : DeliveryDb} {tenant id actor : String} {administrator : Bool} {holder : String}
    {now : UInt64}
    (h : db.removeDeliveryRecipient tenant id actor administrator holder now = .ok db') :
  ∃ row recipients, db.jobs.find? id = some row ∧ db' = db.saveJob { row with
    job :=
      { row.job with
        request := { row.job.request with recipients := recipients }
        updatedAt := now } }
  := by
  obtain ⟨row, hrow, h⟩ := Fallible.bind_eq_ok.mp h
  obtain ⟨_, _, h⟩ := Fallible.bind_eq_ok.mp h
  obtain ⟨_, _, h⟩ := Fallible.bind_eq_ok.mp h
  obtain ⟨_, _, h⟩ := Fallible.bind_eq_ok.mp h
  obtain ⟨_, _, h⟩ := Fallible.bind_eq_ok.mp h
  obtain ⟨_, _, h⟩ := Fallible.bind_eq_ok.mp h
  obtain ⟨_, _, h⟩ := Fallible.bind_eq_ok.mp h
  obtain ⟨hrow, _⟩ := Option.filter_eq_some_iff.mp (Fallible.present_eq_ok.mp hrow)
  exact ⟨row, _, hrow, (Except.ok.inj h).symm⟩

theorem DeliveryDb.claimRetirement_eq_some
    {db db' : DeliveryDb} {now : UInt64} (h : db.claimSnapshotRetirement now = some db') :
  ∃ row cutoff checks, db.jobs.find? row.id = some row ∧ db.retirable cutoff row
    ∧ db' = db.saveJob
      { row with job := { row.job with state := .retiring, checks := checks } }
    ∧ checks.retryBase = row.job.checks.retryBase ∧ row.job.checks.Kept checks
  := by
  obtain ⟨row, hhead, rfl⟩ := Option.map_eq_some_iff.mp h
  have hmem := List.mem_of_mem_head? hhead
  rw [List.mem_insertionSort, List.mem_filter, decide_eq_true_iff] at hmem
  exact ⟨row, _, _, Table.find?_key hmem.1, hmem.2, rfl, rfl, fun _ => id, rfl, rfl⟩

theorem DeliveryDb.completeRetirement_eq_ok
    {db db' : DeliveryDb} {id : String} {now : UInt64}
    (h : db.completeSnapshotRetirement id now = .ok db') :
  db' = db ∨ ∃ row checks, db.jobs.find? id = some row ∧ row.job.state = .retiring
    ∧ db' = db.saveJob
      { row with
        job := { row.job with state := .retired, updatedAt := now, checks := checks } }
    ∧ checks.retryBase = row.job.checks.retryBase
    ∧ checks.destinations = row.job.checks.destinations
    ∧ checks.releasedAt = row.job.checks.releasedAt ∧ checks.snapshotBytes = some 0
  := by
  rw [DeliveryDb.completeSnapshotRetirement] at h
  split at h
  · exact Or.inl (Except.ok.inj h).symm
  · rename_i row hrow
    obtain ⟨_, hstate, h⟩ := Fallible.bind_eq_ok.mp h
    exact Or.inr ⟨row, _, hrow, Fallible.require_eq_ok.mp hstate, (Except.ok.inj h).symm, rfl, rfl,
      rfl, rfl⟩

/-- The job is replaced: it is cancelled, its grant revoked, and another job queued. -/
structure DeliveryDb.Replaced (db db' : DeliveryDb) (row new : JobRow) (upload : Received)
    (now : UInt64) : Prop extends new.Unclaimed db.toSurroundings where
  inactive : row.job.state ∈ [.failed, .retrying, .awaitingApproval, .ready]
  received : row.job.received = some upload
  shareable : db.requireShareable upload.uploadId = .ok ()
  unreplaced : row.job.reprocessedAs = none
  newReceived : new.job.received = some upload
  replaces : new.job.reprocessedFrom = some row.id
  written : ∃ grant jobs, db.grants.find? row.id = some grant
    ∧ (db.jobs.upsert { row with
        owner := ""
        snapshotBytes := row.job.checks.snapshotColumn
        job :=
          { row.job with
            state := .cancelled, updatedAt := now, reprocessedAs := some new.id } }).insert? new
      = some jobs
    ∧ (∀ s ∈ db.jobs.rows, s.id ≠ row.id → ¬ s.sameOperation new) ∧ ¬ row.sameOperation new
    ∧ db' = { db with
        jobs := jobs
        grants := db.grants.upsert
          { grant with revokedAt := some (grant.revokedAt.getD (asI64 now.toNat)) } }

theorem DeliveryDb.replaceJob_eq_ok
    {db db' : DeliveryDb} {tenant : String} {row : JobRow} {replacement : Job} {now : UInt64}
    (h : db.replaceJob tenant row replacement now = .ok db') :
  ∃ grant new jobs, new.job = replacement ∧ new.owner = "" ∧ new.snapshotBytes = 0
    ∧ db.grants.find? row.id = some grant
    ∧ (db.jobs.upsert { row with
        owner := ""
        snapshotBytes := row.job.checks.snapshotColumn
        job :=
          { row.job with
            state := .cancelled, updatedAt := now, reprocessedAs := some new.id } }).insert? new
      = some jobs
    ∧ (∀ s ∈ db.jobs.rows, s.id ≠ row.id → ¬ s.sameOperation new) ∧ ¬ row.sameOperation new
    ∧ db' = { db with
        jobs := jobs
        grants := db.grants.upsert
          { grant with revokedAt := some (grant.revokedAt.getD (asI64 now.toNat)) } }
  := by
  obtain ⟨_, _, h⟩ := Fallible.bind_eq_ok.mp h
  obtain ⟨grant, hgrant, h⟩ := Fallible.bind_eq_ok.mp h
  obtain ⟨hsame, jobs, hjobs, rfl⟩ := DeliveryDb.insertJob_eq_ok h
  obtain ⟨hgrant, _⟩ := Option.filter_eq_some_iff.mp (Fallible.present_eq_ok.mp hgrant)
  refine ⟨grant, _, jobs, rfl, rfl, rfl, hgrant, hjobs, ?_, ?_, rfl⟩
  · intro s hs hne
    exact hsame s (Table.mem_upsert.mpr (Or.inr ⟨hs, hne⟩))
  · intro hoperation
    exact hsame _ (Table.mem_upsert.mpr (Or.inl rfl)) hoperation

theorem checkReprocess_eq_ok
    {env : DeliveryEnv δ} {db : PortDb δ} {identity : AdminIdentity} {original : Job}
    {received : Received} {project : Project} {manifest : String} {projectRevision : Nat}
    {workflow : ReceiveWorkflow}
    (h : checkReprocess env db identity original received project manifest projectRevision
      = .ok workflow) :
  original.state ∈ [.failed, .retrying, .awaitingApproval, .ready]
    ∧ db.rest.requireShareable received.uploadId = .ok ()
  := by
  obtain ⟨_, hstate, h⟩ := Fallible.bind_eq_ok.mp h
  obtain ⟨_, _, h⟩ := Fallible.bind_eq_ok.mp h
  obtain ⟨_, _, h⟩ := Fallible.bind_eq_ok.mp h
  obtain ⟨_, _, h⟩ := Fallible.bind_eq_ok.mp h
  obtain ⟨_, _, h⟩ := Fallible.bind_eq_ok.mp h
  obtain ⟨_, _, h⟩ := Fallible.bind_eq_ok.mp h
  obtain ⟨_, _, h⟩ := Fallible.bind_eq_ok.mp h
  obtain ⟨_, hshare, _⟩ := Fallible.bind_eq_ok.mp h
  refine ⟨?_, hshare⟩
  simpa using Fallible.require_eq_ok.mp hstate

/-- A received job is replaced, or was before. -/
theorem reprocess_eq_ok
    {env : DeliveryEnv δ} {db : PortDb δ} {db' : DeliveryDb} {identity : AdminIdentity}
    {id newId manifest : String} {projectRevision : Nat} {now : UInt64} {job : Job}
    (h : reprocessReceivedJob env db identity id newId manifest projectRevision now
      = .ok (job, db')) :
  ∃ row, db.rest.jobs.find? id = some row
    ∧ ((∃ replacement, row.job.reprocessedAs = some replacement.id
        ∧ db.rest.jobs.find? replacement.id = some replacement ∧ job = replacement.job
        ∧ db' = db.rest)
      ∨ ∃ new received, new.job = job ∧ new.id = newId
        ∧ db.rest.Replaced db' row new received now)
  := by
  obtain ⟨_, _, h⟩ := Fallible.bind_eq_ok.mp h
  obtain ⟨_, _, h⟩ := Fallible.bind_eq_ok.mp h
  obtain ⟨row, hrow, h⟩ := Fallible.bind_eq_ok.mp h
  obtain ⟨received, hreceived, h⟩ := Fallible.bind_eq_ok.mp h
  obtain ⟨project, hproject, h⟩ := Fallible.bind_eq_ok.mp h
  obtain ⟨_, _, h⟩ := Fallible.bind_eq_ok.mp h
  obtain ⟨_, _, h⟩ := Fallible.bind_eq_ok.mp h
  obtain ⟨hrow, _⟩ := Option.filter_eq_some_iff.mp (Fallible.present_eq_ok.mp hrow)
  refine ⟨row, hrow, ?_⟩
  split at h
  · rename_i replacementId hreplaced
    obtain ⟨replacement, hreplacement, h⟩ := Fallible.bind_eq_ok.mp h
    cases h
    have hfound := Fallible.present_eq_ok.mp hreplacement
    have hid := (Table.find?_eq_some.mp hfound).2
    rw [← hid] at hreplaced hfound
    exact Or.inl ⟨replacement, hreplaced, hfound, rfl, rfl⟩
  · rename_i hunreplaced
    obtain ⟨workflow, hcheck, h⟩ := Fallible.bind_eq_ok.mp h
    obtain ⟨_, _, h⟩ := Fallible.bind_eq_ok.mp h
    obtain ⟨_, _, h⟩ := Fallible.bind_eq_ok.mp h
    obtain ⟨_, _, h⟩ := Fallible.bind_eq_ok.mp h
    obtain ⟨rest, hreplace, h⟩ := Fallible.bind_eq_ok.mp h
    cases h
    obtain ⟨hinactive, hshareable⟩ := checkReprocess_eq_ok hcheck
    obtain ⟨grant, new, jobs, hjob, howner, hbytes, hgrant, hinsert, hothers, hrowSame, hrest⟩ :=
      DeliveryDb.replaceJob_eq_ok hreplace
    refine Or.inr ⟨new, received, hjob, ?_, ⟨howner, hbytes, ?_, ?_, ?_, ?_, ?_, ?_, ?_, ?_⟩,
      hinactive, Fallible.present_eq_ok.mp hreceived, hshareable, hunreplaced, ?_, ?_,
      ⟨grant, jobs, hgrant, hinsert, hothers, hrowSame, hrest⟩⟩
    · rw [JobRow.id, hjob]
      rfl
    · rw [hjob]
      exact Or.inl rfl
    · rw [hjob]
      rfl
    · rw [hjob]
      exact ⟨_, rfl⟩
    · rw [hjob]
      rfl
    · rw [hjob]
      exact fun _ => rfl
    · rw [hjob]
      rfl
    · rw [hjob]
      exact (Surroundings.hasProject (Fallible.present_eq_ok.mp hproject)).2
    · rw [hjob]
      intro token htoken
      cases htoken
    · rw [hjob]
    · rw [hjob]

end Votport
