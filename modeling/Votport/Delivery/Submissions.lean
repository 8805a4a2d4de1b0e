import Votport.Delivery.Fencing

/-!
# Submissions happen once

A job is submitted under an operation of its actor: the operation has one job, however often
it is submitted.  A received job that is reprocessed has one replacement, and asking again
returns it.
-/

namespace Votport

variable {δ : Type} {env : DeliveryEnv δ} {w : DeliveryWorld δ}

/-! ### The invariant -/

/-- The operations and the replacements of jobs. -/
structure DeliveryDb.Submitted (db : DeliveryDb) : Prop where
  /-- An operation has one job. -/
  operation : ∀ r ∈ db.jobs.rows, ∀ s ∈ db.jobs.rows, r.sameOperation s → r.id = s.id
  /-- What replaces a job is known to the job. -/
  replaces : ∀ r ∈ db.jobs.rows, ∀ id, r.job.reprocessedFrom = some id →
    ∃ s, db.jobs.find? id = some s ∧ s.job.reprocessedAs = some r.id
  /-- A job that was replaced does not run again, and its replacement is there. -/
  replaced : ∀ s ∈ db.jobs.rows, ∀ id, s.job.reprocessedAs = some id →
    s.job.state.stopped
      ∧ ∃ r, db.jobs.find? id = some r ∧ r.job.reprocessedFrom = some s.id

theorem DeliveryDb.Submitted.begin
    {db : DeliveryDb} (h : db.jobs.rows = []) :
  db.Submitted
  := by
  constructor
  · intro r hr
    rw [h] at hr
    cases hr
  · intro r hr
    rw [h] at hr
    cases hr
  · intro r hr
    rw [h] at hr
    cases hr

variable {may : Permits} {event : Option JobEvent}

theorem JobRow.sameOperation.symm {r s : JobRow} (h : r.sameOperation s) :
  s.sameOperation r
  := ⟨h.1.symm, h.2.1.symm, h.2.2.symm⟩

/-- An operation keeps one job as the jobs move. -/
theorem JobsMoved.operation
    {jobs jobs' : Table JobRow.id} (h : JobsMoved may event jobs jobs')
    (hjobs : ∀ r ∈ jobs.rows, ∀ s ∈ jobs.rows, r.sameOperation s → r.id = s.id) :
  ∀ r ∈ jobs'.rows, ∀ s ∈ jobs'.rows, r.sameOperation s → r.id = s.id
  := by
  intro r' hr' s' hs' hsame
  rcases h.origin r' hr' with ⟨r, hr, hmoved⟩ | hinserted
  · rcases h.origin s' hs' with ⟨s, hs, hsmoved⟩ | hinserted
    · rw [hmoved.id, hsmoved.id]
      apply hjobs r hr s hs
      rw [hmoved.sameOperation] at hsame
      exact ((hsmoved.sameOperation).mp hsame.symm).symm
    · exact hinserted.operation r' hr' hsame
  · exact (hinserted.operation s' hs' hsame.symm).symm

theorem JobsMoved.replaces
    {jobs jobs' : Table JobRow.id} (h : JobsMoved may event jobs jobs')
    (hjobs : ∀ r ∈ jobs.rows, ∀ id, r.job.reprocessedFrom = some id →
      ∃ s, jobs.find? id = some s ∧ s.job.reprocessedAs = some r.id) :
  ∀ r ∈ jobs'.rows, ∀ id, r.job.reprocessedFrom = some id →
    ∃ s, jobs'.find? id = some s ∧ s.job.reprocessedAs = some r.id
  := by
  intro r' hr' id hid
  rcases h.origin r' hr' with ⟨r, hr, hmoved⟩ | hinserted
  · rw [hmoved.reprocessedFrom] at hid
    obtain ⟨s, hs, hreplaced⟩ := hjobs r hr id hid
    obtain ⟨s', hs', hsmoved⟩ := h.find? hs
    refine ⟨s', hs', ?_⟩
    rw [hmoved.id]
    rcases hsmoved.reprocessed with hsame | ⟨hnone, _⟩
    · rw [hsame, hreplaced]
    · rw [hreplaced] at hnone
      cases hnone
  · obtain ⟨s, hs, rfl, hreplaced, _⟩ := hinserted.replaces id hid
    exact ⟨s, Table.find?_key hs, hreplaced⟩

/-! ### Steps -/

theorem DeliveryWorld.step_reprocess
    {identity : AdminIdentity} {id newId manifest : String} {projectRevision : Nat} {job : Job}
    {rest : DeliveryDb}
    (h : reprocessReceivedJob env w.db identity id newId manifest projectRevision w.now
      = .ok (job, rest)) :
  (w.step env (.reprocess identity id newId manifest projectRevision)).db.rest = rest
  := by
  dsimp only [DeliveryWorld.step]
  rw [h]
  rfl

/-- The replacement of a job is in the table after it, and the job is cancelled. -/
theorem DeliveryDb.Replaced.found
    {db db' : DeliveryDb} {row new : JobRow} {upload : Received} {now : UInt64}
    (h : db.Replaced db' row new upload now) :
  db'.jobs.find? new.id = some new
    ∧ (∃ row', db'.jobs.find? row.id = some row' ∧ row'.job.state = .cancelled
      ∧ row'.job.reprocessedAs = some new.id)
    ∧ ∃ g, db'.grants.find? row.id = some g ∧ g.revokedAt.isSome = true
  := by
  obtain ⟨grant, jobs, hgrant, hinsert, _, hsame, rfl⟩ := h.written
  generalize hrow' : ({ row with
        owner := ""
        snapshotBytes := row.job.checks.snapshotColumn
        job :=
          { row.job with
            state := .cancelled, updatedAt := now, reprocessedAs := some new.id } } : JobRow)
    = row' at hinsert
  have hid' : row.id = row'.id := by
    rw [← hrow']
    rfl
  obtain ⟨habsent, _⟩ := Table.insert?_eq_some.mp hinsert
  have hne : row.id ≠ new.id := by
    intro heq
    rw [Table.find?_upsert, if_pos (heq.symm.trans hid')] at habsent
    cases habsent
  have hid : grant.id = row.id := (Table.find?_eq_some.mp hgrant).2
  refine ⟨?_, ?_, ?_⟩
  · rw [Table.find?_insert? hinsert, if_pos rfl]
  · refine ⟨row', ?_, ?_⟩
    · rw [Table.find?_insert? hinsert, if_neg hne, Table.find?_upsert, if_pos hid']
    · rw [← hrow']
      exact ⟨rfl, rfl⟩
  · refine ⟨{ grant with revokedAt := some (grant.revokedAt.getD (asI64 now.toNat)) }, ?_, rfl⟩
    rw [Table.find?_upsert]
    exact if_pos hid.symm

theorem DeliveryWorld.Good.submitted_step
    (h : w.Good) (hsubmitted : w.db.rest.Submitted) (op : DeliveryOp δ) :
  (w.step env op).db.rest.Submitted
  := by
  obtain ⟨event, _, hmoved⟩ := DeliveryWorld.step_moved env h.copies op
  refine ⟨hmoved.operation hsubmitted.operation, hmoved.replaces hsubmitted.replaces, ?_⟩
  intro s' hs' id hid
  rcases hmoved.origin s' hs' with ⟨s, hs, hsmoved⟩ | hinserted
  · rcases hsmoved.reprocessed with hsame | ⟨hnone, id', hid', hmay⟩
    · rw [hsame] at hid
      obtain ⟨hstopped, r, hr, hfrom⟩ := hsubmitted.replaced s hs id hid
      obtain ⟨r', hr', hrmoved⟩ := hmoved.find? hr
      refine ⟨hsmoved.stopped hstopped, r', hr', ?_⟩
      rw [hrmoved.reprocessedFrom, hfrom, hsmoved.id]
    · -- The job is replaced by this operation.
      rw [hid] at hid'
      cases hid'
      obtain ⟨identity, manifest, projectRevision, job, rest, hresult, rfl⟩ := hmay
      have hrest := DeliveryWorld.step_reprocess hresult
      obtain ⟨row, hrow, hcase⟩ := reprocess_eq_ok hresult
      rw [Table.find?_key hs] at hrow
      cases hrow
      rcases hcase with ⟨_, hsome, _⟩ | ⟨new, upload, _, hnew, hreplaced⟩
      · rw [hnone] at hsome
        cases hsome
      · obtain ⟨hfound, ⟨row', hrow', hcancelled, _⟩, _⟩ := hreplaced.found
        rw [← hrest] at hfound hrow'
        have hs'' := Table.find?_key hs'
        rw [hsmoved.id] at hs''
        rw [hs''] at hrow'
        cases hrow'
        refine ⟨?_, new, ?_, ?_⟩
        · rw [hcancelled]
          simp [JobState.stopped]
        · rw [hnew] at hfound
          exact hfound
        · rw [hreplaced.replaces, hsmoved.id]
  · rw [hinserted.reprocessedAs] at hid
    cases hid

theorem DeliveryWorld.Good.submitted_run
    (h : w.Good) (hsubmitted : w.db.rest.Submitted) (ops : List (DeliveryOp δ)) :
  (w.run env ops).db.rest.Submitted
  := by
  induction ops generalizing w with
  | nil => exact hsubmitted
  | cons op ops ih => exact ih (h.step op) (h.submitted_step hsubmitted op)

/-! ### Repeated submissions -/

/-- The tenant is there. -/
def Surroundings.HasTenant (db : Surroundings) (tenant : String) : Prop :=
  tenant = "" ∨ tenant ∈ db.tenants

/-- An operation that has a job is submitted again. -/
theorem DeliveryDb.Submitted.enqueue_again
    {db : DeliveryDb} (h : db.Submitted) {row : JobRow} {request : JobRequest}
    (hrow : row ∈ db.jobs.rows) (hoperation : row.job.request.operationId = request.operationId)
    (htenant : db.HasTenant row.job.tenant) (keys : SubjectKeys) (id : String)
    (credentialVersion : Nat) (automationTokenId : Option String) (project : Project)
    (now : UInt64) :
  db.enqueueDeliveryJob keys id row.job.tenant row.job.actor credentialVersion automationTokenId
      project request now
    = if row.job.request = request then .ok (row.job, db)
      else .error (.operationConflict "operation ID already used with a different request")
  := by
  have hfound : db.jobs.rows.find? (fun r => r.job.tenant = row.job.tenant
      ∧ r.job.actor = row.job.actor ∧ r.job.request.operationId = request.operationId)
      = some row := by
    cases hfind : db.jobs.rows.find? (fun r => r.job.tenant = row.job.tenant
        ∧ r.job.actor = row.job.actor ∧ r.job.request.operationId = request.operationId) with
    | none =>
        have hnone := List.find?_eq_none.mp hfind row hrow
        exact absurd (decide_eq_true ⟨rfl, rfl, hoperation⟩) hnone
    | some r =>
        have hr := List.find?_some hfind
        rw [decide_eq_true_iff] at hr
        have hmem := List.mem_of_find?_eq_some hfind
        have hid := h.operation r hmem row hrow ⟨hr.1, hr.2.1, hr.2.2.trans hoperation.symm⟩
        rw [db.jobs.eq_of_key_eq hmem hrow hid]
  have htenant : db.ensureTenant row.job.tenant = .ok () := Fallible.require_eq_ok.mpr htenant
  rw [DeliveryDb.enqueueDeliveryJob, htenant, hfound]
  dsimp only [bind, Except.bind, Fallible.require]
  by_cases hrequest : row.job.request = request
  · rw [if_pos hrequest, if_pos hrequest]
    rfl
  · rw [if_neg hrequest, if_neg hrequest]

/-- A request whose operation has a job for its upload queues no other. -/
theorem queueReceived_again
    {db : PortDb δ} {db' : DeliveryDb} {id tenant linkId : String} {upload : UploadRecord}
    {now : UInt64} (h : queueReceived db id tenant linkId upload now = .ok db')
    (hthere : ∃ r ∈ db.rest.jobs.rows, r.job.tenant = tenant
      ∧ r.job.actor = "reception:" ++ linkId ∧ r.job.request.operationId = upload.id) :
  db'.jobs = db.rest.jobs
  := by
  rw [queueReceived] at h
  split at h
  · cases h
    rfl
  · dsimp only at h
    split_ifs at h
    · cases h
      rfl
    · obtain ⟨project, _, h⟩ := Fallible.bind_eq_ok.mp h
      rw [if_pos hthere] at h
      cases h
      rfl

/-- What is submitted is there afterwards, and submitting it again returns it. -/
theorem DeliveryDb.enqueue_stores
    {db db' : DeliveryDb} {keys : SubjectKeys} {id tenant actor : String}
    {credentialVersion : Nat} {automationTokenId : Option String} {project : Project}
    {request : JobRequest} {now : UInt64} {job : Job}
    (h : db.enqueueDeliveryJob keys id tenant actor credentialVersion automationTokenId project
      request now = .ok (job, db')) :
  (∃ row ∈ db'.jobs.rows, row.job = job) ∧ job.tenant = tenant ∧ job.actor = actor
    ∧ job.request = request ∧ db'.HasTenant tenant
  := by
  obtain ⟨_, htenant, _⟩ := Fallible.bind_eq_ok.mp h
  have htenant : tenant = "" ∨ tenant ∈ db.tenants := Fallible.require_eq_ok.mp htenant
  rcases DeliveryDb.enqueue_eq_ok h with ⟨previous, hprevious, hjob, hsame, hactor, hrequest, rfl⟩
    | ⟨row, jobs, hqueued, hjob, hsame, hactor, hrequest, _, rfl⟩
  · exact ⟨⟨previous, hprevious, hjob⟩, hsame, hactor, hrequest, htenant⟩
  · refine ⟨⟨row, ?_, hjob⟩, hsame, hactor, hrequest, htenant⟩
    rw [(Table.insert?_eq_some.mp hqueued.inserted).2]
    exact List.mem_cons_self

/-- The job of a received upload. -/
def JobRow.receives (row : JobRow) (tenant linkId uploadId : String) : Prop :=
  row.job.tenant = tenant ∧ row.job.actor = "reception:" ++ linkId
    ∧ row.job.request.operationId = uploadId

/-- A complete upload of a request that selects a workflow has its job afterwards. -/
theorem queueReceived_stores
    {db : PortDb δ} {db' : DeliveryDb} {id tenant linkId : String} {upload : UploadRecord}
    {now : UInt64} {workflow : ReceiveWorkflow}
    (h : queueReceived db id tenant linkId upload now = .ok db')
    (hworkflow : receiveWorkflowIn db tenant linkId = some workflow)
    (hwhole : upload.isPartial = false) :
  ∃ row ∈ db'.jobs.rows, row.receives tenant linkId upload.id
  := by
  rw [queueReceived, hworkflow] at h
  dsimp only at h
  rw [if_neg (by rw [hwhole]; exact Bool.false_ne_true)] at h
  obtain ⟨project, _, h⟩ := Fallible.bind_eq_ok.mp h
  split at h
  · rename_i hthere
    cases h
    exact hthere
  · obtain ⟨_, jobs, hjobs, rfl⟩ := DeliveryDb.insertJob_eq_ok (textError_eq_ok.mp h)
    obtain ⟨_, hrows⟩ := Table.insert?_eq_some.mp hjobs
    exact ⟨_, hrows.symm ▸ List.mem_cons_self, rfl, rfl, rfl⟩

/-- A session commits a complete upload: what it queues is in the tables. -/
theorem appendUpload_stores
    {tenant linkId session jobId : String} {upload : UploadRecord} {uploadId : Option String}
    {db' : PortDb δ} {workflow : ReceiveWorkflow}
    (h : appendUpload (env.uploads jobId w.now) w.db tenant linkId upload (some session)
      = .ok (uploadId, db'))
    (hfresh : committedUpload w.db tenant linkId (some session) = .ok none)
    (hworkflow : receiveWorkflowIn w.db tenant linkId = some workflow)
    (hwhole : upload.isPartial = false) :
  ∃ row ∈ db'.rest.jobs.rows, row.receives tenant linkId upload.id
  := by
  rw [appendUpload, hfresh] at h
  dsimp only [bind, Except.bind] at h
  split at h
  · rename_i hlink
    rw [receiveWorkflowIn, hlink] at hworkflow
    cases hworkflow
  · obtain ⟨_, _, h⟩ := Fallible.bind_eq_ok.mp h
    obtain ⟨db₁, happend, h⟩ := Fallible.bind_eq_ok.mp h
    cases h
    rw [appendToLink, if_neg (by simp [hwhole])] at happend
    obtain ⟨mid, hcomplete, hqueue, hlinks, _⟩ := appendFresh_rest happend
    refine queueReceived_stores hqueue (show _ = some workflow from ?_) hwhole
    have hmid : mid.rest.toSurroundings = w.db.rest.toSurroundings := by
      rcases DeliveryDb.completeRoute_eq_ok hcomplete with
        ⟨hmid, _⟩ | ⟨_, _, _, _, _, _, _, ⟨_, hmid⟩ | ⟨_, _, _, _, hmid⟩⟩
      · rw [hmid]
      · rw [hmid]
      · rw [hmid]
    rw [← hworkflow, receiveWorkflowIn, receiveWorkflowIn, UploadDb.link?, UploadDb.link?, hlinks,
      show mid.rest.receiveWorkflows = w.db.rest.receiveWorkflows from
        congrArg Surroundings.receiveWorkflows hmid]

/-- The operator may reprocess the job. -/
structure JobRow.ReprocessableBy (env : DeliveryEnv δ) (db : DeliveryDb) (row : JobRow)
    (identity : AdminIdentity) (manifest : String) : Prop where
  role : identity.role = "admin" ∨ identity.role = "viewer"
  human : beginsWith identity.subject "automation:" = false
  active : db.principalActive env.keys identity.subject identity.credentialVersion = true
  tenant : row.job.tenant = identity.tenant
  received : row.job.received.isSome = true
  sender : ∃ project, db.projectIn identity.tenant row.job.project.id = some project
    ∧ project.allows identity.subject "sender" (identity.role = "admin") = true
  manifest : row.job.manifest = some manifest ∧ manifest ≠ ""

/-- A job that was replaced is reprocessed again. -/
theorem DeliveryDb.Submitted.reprocess_again
    {db : PortDb δ} (h : db.rest.Submitted) {row : JobRow} {id : String}
    (hrow : db.rest.jobs.find? id = some row) {replacement : String}
    (hreplaced : row.job.reprocessedAs = some replacement) {identity : AdminIdentity}
    {manifest : String} (hmay : row.ReprocessableBy env db.rest identity manifest)
    (newId : String) (projectRevision : Nat) (now : UInt64) :
  ∃ r, db.rest.jobs.find? replacement = some r
    ∧ reprocessReceivedJob env db identity id newId manifest projectRevision now
      = .ok (r.job, db.rest)
  := by
  obtain ⟨_, r, hr, _⟩ := h.replaced row (Table.find?_eq_some.mp hrow).1 replacement hreplaced
  obtain ⟨project, hproject, hallows⟩ := hmay.sender
  obtain ⟨received, hreceived⟩ := Option.isSome_iff_exists.mp hmay.received
  refine ⟨r, hr, ?_⟩
  refine Fallible.bind_eq_ok.mpr ⟨(), Fallible.require_eq_ok.mpr ⟨hmay.role, hmay.human⟩, ?_⟩
  refine Fallible.bind_eq_ok.mpr ⟨(), Fallible.require_eq_ok.mpr hmay.active, ?_⟩
  refine Fallible.bind_eq_ok.mpr ⟨row, Fallible.present_eq_ok.mpr ?_, ?_⟩
  · exact Option.filter_eq_some_iff.mpr ⟨hrow, decide_eq_true hmay.tenant⟩
  refine Fallible.bind_eq_ok.mpr ⟨received, Fallible.present_eq_ok.mpr hreceived, ?_⟩
  refine Fallible.bind_eq_ok.mpr ⟨project, Fallible.present_eq_ok.mpr hproject, ?_⟩
  refine Fallible.bind_eq_ok.mpr ⟨(), Fallible.require_eq_ok.mpr hallows, ?_⟩
  refine Fallible.bind_eq_ok.mpr ⟨(), Fallible.require_eq_ok.mpr hmay.manifest, ?_⟩
  dsimp only
  rw [hreplaced]
  exact Fallible.bind_eq_ok.mpr ⟨r, Fallible.present_eq_ok.mpr hr, rfl⟩

/-! ### Runs -/

/-- What submits a job, or an upload that queues one, is refused. -/
def DeliveryWorld.Refuses (env : DeliveryEnv δ) (w : DeliveryWorld δ) : DeliveryOp δ → Prop
  | .enqueue id tenant actor credentialVersion automationTokenId project request =>
      ∃ e, w.db.rest.enqueueDeliveryJob env.keys id tenant actor credentialVersion
        automationTokenId project request w.now = .error e
  | .commit tenant linkId session upload jobId =>
      ∃ e, appendUpload (env.uploads jobId w.now) w.db tenant linkId upload (some session)
        = .error e
  | .reprocess identity id newId manifest projectRevision =>
      ∃ e, reprocessReceivedJob env w.db identity id newId manifest projectRevision w.now
        = .error e
  | _ => False

/-- Jobs are submitted and replaced once. -/
structure DeliveryWorld.ExactlyOnce (env : DeliveryEnv δ) (w : DeliveryWorld δ) : Prop where
  /-- An operation has one job. -/
  operation : ∀ r ∈ w.db.rest.jobs.rows, ∀ s ∈ w.db.rest.jobs.rows, r.sameOperation s → r = s
  /-- The operation of a job that is submitted again returns the job, and is refused with
  another request. -/
  enqueued : ∀ row ∈ w.db.rest.jobs.rows, w.db.rest.HasTenant row.job.tenant →
    ∀ id credentialVersion automationTokenId project request,
      row.job.request.operationId = request.operationId →
        w.db.rest.enqueueDeliveryJob env.keys id row.job.tenant row.job.actor credentialVersion
            automationTokenId project request w.now
          = if row.job.request = request then .ok (row.job, w.db.rest)
            else .error
              (.operationConflict "operation ID already used with a different request")
  /-- What is submitted is in the tables after the step, with the request, and in them submitting
  the operation again returns it, or is refused with another request. -/
  submits : ∀ id tenant actor credentialVersion automationTokenId project request job rest,
    w.db.rest.enqueueDeliveryJob env.keys id tenant actor credentialVersion automationTokenId
        project request w.now = .ok (job, rest) →
      (w.step env (.enqueue id tenant actor credentialVersion automationTokenId project
          request)).db.rest = rest
        ∧ (∃ row ∈ rest.jobs.rows, row.job = job) ∧ job.tenant = tenant ∧ job.actor = actor
        ∧ job.request = request
        ∧ ∀ id' credentialVersion' automationTokenId' project' request' now',
          request'.operationId = request.operationId →
            rest.enqueueDeliveryJob env.keys id' tenant actor credentialVersion'
                automationTokenId' project' request' now'
              = if request = request' then .ok (job, rest)
                else .error
                  (.operationConflict "operation ID already used with a different request")
  /-- The request of a job that was not received stays the one it was submitted with, but for
  the recipients that are removed. -/
  request : ∀ op id row, w.db.rest.jobs.find? id = some row → row.job.received = none →
    (∀ tenant actor administrator holder,
      op ≠ .removeRecipient tenant id actor administrator holder) →
    ∃ row', (w.step env op).db.rest.jobs.find? id = some row'
      ∧ row'.job.request = row.job.request
  /-- An upload whose job is queued queues no other. -/
  queued : ∀ id tenant linkId upload rest,
    queueReceived w.db id tenant linkId upload w.now = .ok rest →
    (∃ r ∈ w.db.rest.jobs.rows, r.job.tenant = tenant ∧ r.job.actor = "reception:" ++ linkId
      ∧ r.job.request.operationId = upload.id) →
    rest.jobs = w.db.rest.jobs
  /-- A complete upload of a request that selects a workflow has its job in the tables, when it is
  queued and when its session commits it. -/
  stores : ∀ jobId tenant linkId upload workflow,
    receiveWorkflowIn w.db tenant linkId = some workflow → upload.isPartial = false →
    (∀ rest, queueReceived w.db jobId tenant linkId upload w.now = .ok rest →
      ∃ row ∈ rest.jobs.rows, row.receives tenant linkId upload.id)
    ∧ ∀ session uploadId db,
      appendUpload (env.uploads jobId w.now) w.db tenant linkId upload (some session)
        = .ok (uploadId, db) →
      committedUpload w.db tenant linkId (some session) = .ok none →
        ∃ row ∈ db.rest.jobs.rows, row.receives tenant linkId upload.id
  /-- A job has one replacement. -/
  replacement : ∀ r ∈ w.db.rest.jobs.rows, ∀ s ∈ w.db.rest.jobs.rows, ∀ id,
    r.job.reprocessedFrom = some id → s.job.reprocessedFrom = some id → r = s
  /-- A job that was replaced is cancelled for good, and asking again returns the
  replacement. -/
  reprocessed : ∀ id row replacement, w.db.rest.jobs.find? id = some row →
    row.job.reprocessedAs = some replacement →
    row.job.state.stopped
      ∧ ∃ r, w.db.rest.jobs.find? replacement = some r ∧ r.job.reprocessedFrom = some id
        ∧ ∀ identity newId manifest projectRevision,
          row.ReprocessableBy env w.db.rest identity manifest →
            reprocessReceivedJob env w.db identity id newId manifest projectRevision w.now
              = .ok (r.job, w.db.rest)
  /-- The step that replaces a job cancels it and revokes its grant. -/
  replaces : ∀ identity id newId manifest projectRevision job rest row,
    reprocessReceivedJob env w.db identity id newId manifest projectRevision w.now
        = .ok (job, rest) →
    w.db.rest.jobs.find? id = some row → row.job.reprocessedAs = none →
    (∃ new, rest.jobs.find? newId = some new ∧ new.job = job
        ∧ new.job.reprocessedFrom = some id)
      ∧ (∃ row', rest.jobs.find? id = some row' ∧ row'.job.state = .cancelled
        ∧ row'.job.reprocessedAs = some newId)
      ∧ ∃ g, rest.grants.find? id = some g ∧ g.revokedAt.isSome = true
  /-- What is refused changes nothing. -/
  refused : ∀ op, w.Refuses env op → w.step env op = w

theorem DeliveryWorld.step_refused {op : DeliveryOp δ} (h : w.Refuses env op) :
  w.step env op = w
  := by
  cases op with
  | enqueue =>
      obtain ⟨e, he⟩ := h
      dsimp only [DeliveryWorld.step]
      rw [he]
      rfl
  | commit =>
      obtain ⟨e, he⟩ := h
      dsimp only [DeliveryWorld.step]
      rw [he]
      exact ite_self w
  | reprocess =>
      obtain ⟨e, he⟩ := h
      dsimp only [DeliveryWorld.step]
      rw [he]
      rfl
  | _ => exact h.elim

theorem DeliveryWorld.Good.exactlyOnce (h : w.Good) (hsubmitted : w.db.rest.Submitted) :
  w.ExactlyOnce env
  := by
  constructor
  · intro r hr s hs hsame
    exact w.db.rest.jobs.eq_of_key_eq hr hs (hsubmitted.operation r hr s hs hsame)
  · intro row hrow htenant id credentialVersion automationTokenId project request hoperation
    exact hsubmitted.enqueue_again hrow hoperation htenant env.keys id credentialVersion
      automationTokenId project w.now
  · intro id tenant actor credentialVersion automationTokenId project request job rest hok
    have hstep : (w.step env (.enqueue id tenant actor credentialVersion automationTokenId project
        request)).db.rest = rest := by
      dsimp only [DeliveryWorld.step]
      rw [hok]
      rfl
    obtain ⟨⟨row, hrow, rfl⟩, rfl, rfl, rfl, hthere⟩ := DeliveryDb.enqueue_stores hok
    refine ⟨hstep, ⟨row, hrow, rfl⟩, rfl, rfl, rfl, ?_⟩
    intro id' credentialVersion' automationTokenId' project' request' now' hoperation
    have hafter : (w.step env (.enqueue id row.job.tenant row.job.actor credentialVersion
        automationTokenId project row.job.request)).db.rest.Submitted :=
      h.submitted_step hsubmitted _
    rw [hstep] at hafter
    exact hafter.enqueue_again hrow hoperation.symm hthere env.keys id' credentialVersion'
      automationTokenId' project' now'
  · intro op id row hrow hreceived hkeeps
    obtain ⟨event, _, hmoved⟩ := DeliveryWorld.step_moved env h.copies op
    obtain ⟨row', hrow', hmoved⟩ := hmoved.find? hrow
    refine ⟨row', hrow', ?_⟩
    rcases hmoved.request with hsame | ⟨tenant, actor, administrator, holder, hop⟩ | ⟨hsome, _⟩
    · exact hsame
    · have hid : row.id = id := (Table.find?_eq_some.mp hrow).2
      rw [hid] at hop
      exact absurd hop (hkeeps tenant actor administrator holder)
    · rw [hreceived] at hsome
      cases hsome
  · intro id tenant linkId upload rest hok hthere
    exact queueReceived_again hok hthere
  · intro jobId tenant linkId upload workflow hworkflow hwhole
    constructor
    · intro rest hok
      exact queueReceived_stores hok hworkflow hwhole
    · intro session uploadId db hok hfresh
      exact appendUpload_stores hok hfresh hworkflow hwhole
  · intro r hr s hs id hrid hsid
    obtain ⟨o, ho, hro⟩ := hsubmitted.replaces r hr id hrid
    obtain ⟨o', ho', hso⟩ := hsubmitted.replaces s hs id hsid
    rw [ho] at ho'
    cases ho'
    rw [hro] at hso
    exact w.db.rest.jobs.eq_of_key_eq hr hs (Option.some.inj hso)
  · intro id row replacement hrow hreplaced
    obtain ⟨hmem, hid⟩ := Table.find?_eq_some.mp hrow
    obtain ⟨hstopped, r, hr, hfrom⟩ := hsubmitted.replaced row hmem replacement hreplaced
    refine ⟨hstopped, r, hr, ?_, ?_⟩
    · rw [hfrom]
      exact congrArg some hid
    · intro identity newId manifest projectRevision hmay
      obtain ⟨r', hr', hok⟩ :=
        hsubmitted.reprocess_again hrow hreplaced hmay newId projectRevision w.now
      rw [hr] at hr'
      cases hr'
      exact hok
  · intro identity id newId manifest projectRevision job rest row hok hrow hnone
    have hid : row.id = id := (Table.find?_eq_some.mp hrow).2
    obtain ⟨row', hrow', hcase⟩ := reprocess_eq_ok hok
    rw [hrow] at hrow'
    cases hrow'
    rcases hcase with ⟨_, hsome, _⟩ | ⟨new, upload, hjob, hnew, hreplaced⟩
    · rw [hnone] at hsome
      cases hsome
    · obtain ⟨hfound, hcancelled, hrevoked⟩ := hreplaced.found
      have hfrom := hreplaced.replaces
      rw [hid] at hcancelled hrevoked hfrom
      rw [hnew] at hfound hcancelled
      exact ⟨⟨new, hfound, hjob, hfrom⟩, hcancelled, hrevoked⟩
  · intro op
    exact DeliveryWorld.step_refused

/-- Jobs are submitted and replaced once in every state that a port reaches. -/
theorem submissions_exactly_once
    (env : DeliveryEnv δ) (tables : UploadDb δ Surroundings) (now : UInt64)
    (ops : List (DeliveryOp δ)) :
  ((DeliveryWorld.begin tables now).run env ops).ExactlyOnce env
  := by
  have hgood := DeliveryWorld.good_begin tables now
  exact (hgood.run ops).exactlyOnce (hgood.submitted_run (.begin rfl) ops)

end Votport
