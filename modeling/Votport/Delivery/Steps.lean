import Votport.Delivery.Moves

/-!
# Every operation moves the jobs

The tables after an operation are those before it with the rows of jobs moved in the ways
that the operation permits.
-/

namespace Votport

variable {δ : Type}

/-! ### What an operation permits -/

/-- What an operation may do to the rows of jobs. -/
def DeliveryWorld.permits (env : DeliveryEnv δ) (w : DeliveryWorld δ) (op : DeliveryOp δ) :
    Permits where
  complete r destination := ∃ attempt storage,
    w.db.rest.requireDeliveryDestination env.keys r.id attempt destination w.now = .ok storage
  approve r := ∃ actor administrator project rest,
    op = .change r.job.tenant r.id actor administrator (.approve r.job.manifest)
      ∧ w.db.rest.jobs.find? r.id = some r
      ∧ w.db.rest.projectIn r.job.tenant r.job.project.id = some project
      ∧ r.job.ApprovableBy project actor administrator r.job.manifest
      ∧ changeDeliveryJob env w.db r.job.tenant r.id actor administrator
        (.approve r.job.manifest) w.now = .ok rest
  skip r := ∃ project, w.db.rest.projectIn r.job.tenant r.job.project.id = some project
    ∧ project.revision = r.job.project.revision ∧ project.requireApproval = false
  reserve r bytes := ∃ worker limit claimed, op = .reserve worker bytes limit
    ∧ w.workers[worker]? = some claimed ∧ claimed.copies ∧ claimed.job.id = r.id
    ∧ claimed.job.attempts = r.job.attempts ∧ w.db.rest.jobs.find? r.id = some r
    ∧ r.job.state = .preparing
    ∧ w.db.rest.reservedBeside r.job.tenant r.id + bytes.toNat ≤ min limit.toNat i64Max
  tables := w.db.rest.toSurroundings
  recipients r := ∃ tenant actor administrator holder,
    op = .removeRecipient tenant r.id actor administrator holder
  replace r newId := ∃ identity manifest projectRevision job rest,
    reprocessReceivedJob env w.db identity r.id newId manifest projectRevision w.now
        = .ok (job, rest)
      ∧ op = .reprocess identity r.id newId manifest projectRevision

/-- What a worker's copy tells of a job at the same attempt. -/
structure DeliveryWorker.Present (worker : DeliveryWorker) (row : JobRow) : Prop where
  retryBase : worker.job.checks.retryBase = row.job.checks.retryBase
  releasedAt : row.job.state = .preparing → worker.job.checks.releasedAt = none
  snapshotBytes : row.job.state = .preparing → worker.inspected = true →
    worker.job.checks.snapshotBytes = row.job.checks.snapshotBytes

/-- A worker's copy of a job that may have gone on since. -/
structure DeliveryWorker.CopyOf (worker : DeliveryWorker) (row : JobRow) : Prop where
  attempts : worker.job.attempts ≤ row.job.attempts
  tenant : worker.job.tenant = row.job.tenant
  received : worker.job.received = row.job.received
  importFrom : worker.job.request.importFrom = row.job.request.importFrom
  manifest : worker.job.manifest.isSome = true → row.job.manifest.isSome = true
  present : worker.job.attempts = row.job.attempts → worker.Present row

/-- The job of a worker's copy is there. -/
def DeliveryDb.CopyKept (db : DeliveryDb) (worker : DeliveryWorker) : Prop :=
  ∃ row, db.jobs.find? worker.job.id = some row ∧ worker.CopyOf row

/-- The worlds are those before and after an operation, as far as the jobs tell. -/
def DeliveryWorld.Moved (may : Permits) (w w' : DeliveryWorld δ) : Prop :=
  ∃ event, w'.log = event.toList ++ w.log
    ∧ JobsMoved may event w.db.rest.jobs w'.db.rest.jobs

variable {env : DeliveryEnv δ} {w : DeliveryWorld δ} {may : Permits}

theorem DeliveryWorld.Moved.of_jobs
    {w' : DeliveryWorld δ} (hlog : w'.log = w.log) (h : w'.db.rest.jobs = w.db.rest.jobs) :
  DeliveryWorld.Moved may w w'
  := by
  refine ⟨none, hlog, ?_⟩
  rw [h]
  apply JobsMoved.refl

theorem DeliveryWorld.moved_withRest
    {rest : DeliveryDb} (h : JobsMoved may none w.db.rest.jobs rest.jobs) :
  DeliveryWorld.Moved may w (w.withRest rest)
  := ⟨none, rfl, h⟩

theorem DeliveryWorld.moved_commits
    {ε : Type} {result : Except ε DeliveryDb}
    (h : ∀ rest, result = .ok rest → JobsMoved may none w.db.rest.jobs rest.jobs) :
  DeliveryWorld.Moved may w (w.commits result)
  := by
  cases hresult : result with
  | error e => exact .of_jobs rfl rfl
  | ok rest => exact DeliveryWorld.moved_withRest (h rest hresult)

/-- A transaction that leaves the jobs. -/
theorem DeliveryWorld.moved_commits_jobs
    {ε : Type} {result : Except ε DeliveryDb}
    (h : ∀ rest, result = .ok rest → rest.jobs = w.db.rest.jobs) :
  DeliveryWorld.Moved may w (w.commits result)
  := by
  apply DeliveryWorld.moved_commits
  intro rest hrest
  rw [h rest hrest]
  apply JobsMoved.refl

/-- A transaction that returns something besides the tables. -/
theorem DeliveryWorld.moved_commits_map
    {ε α : Type} {result : Except ε (α × DeliveryDb)}
    (h : ∀ a rest, result = .ok (a, rest) → JobsMoved may none w.db.rest.jobs rest.jobs) :
  DeliveryWorld.Moved may w (w.commits (result.map Prod.snd))
  := by
  apply DeliveryWorld.moved_commits
  intro rest hrest
  obtain ⟨⟨a, rest'⟩, hresult, rfl⟩ := Fallible.map_eq_ok.mp hrest
  exact h a rest' hresult

/-! ### Claims and actions -/

/-- What a claim makes of a job. -/
structure Job.ClaimedAs (job job' : Job) : Prop where
  same : ∃ state attempts updatedAt error, job' = { job with
    state := state, attempts := attempts, updatedAt := updatedAt, error := error }
  attempts : job'.attempts = job.attempts + 1
  outcome : (job'.state = .exporting ∧ job.manifest.isSome = true
      ∨ job'.state = .preparing ∧ job.manifest = none) ∧ retryAttempts job' ≤ 5
    ∨ job'.state = .failed

theorem Job.claimed_as (job : Job) (now : UInt64) :
  job.ClaimedAs (job.claimed now)
  := by
  rw [Job.claimed]
  split
  · exact ⟨⟨_, _, _, _, rfl⟩, rfl, Or.inr rfl⟩
  · rename_i hlimit
    refine ⟨⟨_, _, _, _, rfl⟩, rfl, Or.inl ⟨?_, Nat.not_lt.mp hlimit⟩⟩
    dsimp only [Job.nextAttempt]
    split
    · rename_i hmanifest
      exact Or.inl ⟨rfl, hmanifest⟩
    · rename_i hmanifest
      exact Or.inr ⟨rfl, by simpa using hmanifest⟩

theorem DeliveryWorld.moved_claim (owner : String) :
  DeliveryWorld.Moved may w (w.claim owner)
  := by
  rw [DeliveryWorld.claim]
  cases hclaim : w.db.rest.claimDeliveryJob owner w.now with
  | none => exact .of_jobs rfl rfl
  | some claimed =>
      obtain ⟨row', rest⟩ := claimed
      obtain ⟨row, hrow, hclaimable, rfl, rfl⟩ := DeliveryDb.claim_eq_some hclaim
      have hstate : row.job.state ∈ [.queued, .retrying, .preparing, .exporting] := by
        rcases hclaimable.1 with ⟨h | h, _⟩ | ⟨h | h, _⟩ <;> simp [h]
      obtain ⟨⟨state, attempts, updatedAt, error, hjob⟩, hattempts, houtcome⟩ :=
        row.job.claimed_as w.now
      rw [hjob] at hattempts houtcome ⊢
      dsimp only at hattempts houtcome ⊢
      split
      · rename_i hrunning
        have hlimit := houtcome.resolve_right (by
          rintro rfl
          rcases hrunning with h | h <;> cases h)
        refine ⟨some (.claimed row.id), rfl, .save hrow (.save (.refl _) ?_) ?_⟩
        · exact .claim rfl hstate hlimit.1 hattempts rfl hlimit.2
        · intro e he
          cases he
          rfl
      · rename_i hrunning
        have hfailed : state = .failed := by
          rcases houtcome with ⟨⟨h, _⟩ | ⟨h, _⟩, _⟩ | h
          · exact absurd (Or.inr h) hrunning
          · exact absurd (Or.inl h) hrunning
          · exact h
        refine ⟨some (.exhausted row.id), rfl, .save hrow (.save (.refl _) ?_) ?_⟩
        · exact .exhaust rfl hstate hfailed hattempts rfl
        · intro e he
          cases he
          rfl

/-- An approval moves the job. -/
theorem RowMoved.approved
    {row : JobRow} {project : Project} {actor : String} {administrator : Bool}
    {manifest : Option String} {releasedAt : Option UInt64} {updatedAt : UInt64}
    (happrove : row.job.ApprovableBy project actor administrator manifest)
    (hmay : may.approve row) {checks : Checks}
    (hchecks : checks = { row.job.checks with releasedAt := releasedAt }) :
  RowMoved may none row { row with
    owner := ""
    snapshotBytes := checks.snapshotColumn
    job :=
      { row.job with
        approvedBy := some actor
        checks := checks
        state := if project.destinations ≠ [] then .exporting else .ready
        updatedAt := updatedAt
        error := none } }
  := by
  subst hchecks
  refine ⟨⟨rfl, rfl, rfl, rfl, rfl, rfl, rfl, rfl, rfl, rfl⟩, Or.inl rfl, fun _ => rfl, Or.inl rfl,
    Or.inl rfl, fun _ => Or.inl, fun _ => Or.inr ⟨?_, Or.inl hmay⟩, Or.inl rfl, fun _ => rfl,
    Or.inl rfl, .approve rfl hmay happrove.awaiting ?_ rfl ⟨rfl, rfl⟩⟩
  · dsimp only
    rw [happrove.manifest]
    exact happrove.prepared
  · dsimp only
    split_ifs
    · exact Or.inl rfl
    · exact Or.inr rfl

/-- A retry moves the job. -/
theorem RowMoved.retried
    (may : Permits) (updatedAt : UInt64) {db : PortDb δ} {row : JobRow} {project : Project}
    {tenant : String} {policy : Job} (htables : may.tables = db.rest.toSurroundings)
    (htenant : row.job.tenant = tenant)
    (hproject : db.rest.projectIn tenant row.job.project.id = some project)
    (hstate : row.job.state = .failed ∨ row.job.state = .retrying)
    (hpolicy : retryPolicy db row.job project tenant = .ok policy) {checks : Checks}
    (hchecks : checks =
      { policy.checks with
        retryBase := some (policy.attempts + 1), firstFailureAt := none, retryAt := none }) :
  RowMoved may (some (.retried row.id)) row { row with
    owner := ""
    snapshotBytes := checks.snapshotColumn
    job :=
      { policy with
        attempts := policy.attempts + 1
        checks := checks
        state := if policy.manifest.isSome then .exporting else .queued
        updatedAt := updatedAt
        error := none } }
  := by
  have hnext : ∀ manifest : Option String,
      (if manifest.isSome then JobState.exporting else .queued) = .exporting
          ∧ manifest.isSome = true
        ∨ (if manifest.isSome then JobState.exporting else .queued) = .queued
          ∧ manifest = none := by
    intro manifest
    cases manifest with
    | none => exact Or.inr ⟨rfl, rfl⟩
    | some _ => exact Or.inl ⟨rfl, rfl⟩
  subst hchecks
  rcases retryPolicy_eq_ok hpolicy with
    rfl | ⟨hreceived, hmanifest, request, tradeRoutes, hoperation, himport, rfl⟩
  · refine ⟨⟨rfl, rfl, rfl, rfl, rfl, rfl, rfl, rfl, rfl, rfl⟩, Or.inl rfl, fun _ => rfl, Or.inl rfl,
      Or.inl rfl, fun _ => Or.inl, Or.inl, Or.inl rfl, fun _ => rfl, Or.inl rfl,
      .retry rfl hstate (hnext _) rfl rfl rfl⟩
  · obtain ⟨hid, hhas⟩ := Surroundings.hasProject hproject
    have hhas : may.tables.HasProject row.job.tenant project := by
      rw [htables, htenant]
      exact hhas
    refine ⟨⟨rfl, rfl, rfl, rfl, rfl, hoperation, himport, rfl, rfl, hid⟩, Or.inl rfl, fun _ => rfl,
      Or.inr ⟨hmanifest, hhas⟩, Or.inr (Or.inr ⟨hreceived, hmanifest⟩), ?_, ?_,
      Or.inr (Or.inr (Or.inr ⟨hreceived, Nat.succ_ne_self _, rfl⟩)), fun _ => rfl, Or.inl rfl,
      .retry rfl hstate (hnext _) rfl rfl rfl⟩
    · intro d hd
      cases hd
    · intro hreleased
      cases hreleased

theorem DeliveryWorld.moved_change
    (tenant id actor : String) (administrator : Bool) (action : JobAction) :
  DeliveryWorld.Moved (w.permits env (.change tenant id actor administrator action)) w
    (w.change env tenant id actor administrator action)
  := by
  rw [DeliveryWorld.change]
  cases hok : changeDeliveryJob env w.db tenant id actor administrator action w.now with
  | error e => exact .of_jobs rfl rfl
  | ok rest =>
      obtain ⟨row, project, changed, hrow, htenant, hsuspended, hproject, hchanged, rfl⟩ :=
        changeDeliveryJob_eq_ok hok
      have hid : row.id = id := (Table.find?_eq_some.mp hrow).2
      cases action with
      | approve manifest =>
          obtain ⟨job', hjob', rfl⟩ := Fallible.map_eq_ok.mp hchanged
          obtain ⟨happrovable, releasedAt, rfl⟩ := DeliveryDb.approve_eq_ok hjob'
          refine ⟨none, rfl, .save hrow (.approved happrovable ?_ rfl) (by simp)⟩
          have hmanifest := happrovable.manifest
          rw [← hmanifest] at happrovable
          rw [← hmanifest] at hok
          obtain ⟨rest, hrest⟩ : ∃ rest, changeDeliveryJob env w.db row.job.tenant row.id actor
              administrator (.approve row.job.manifest) w.now = .ok rest := by
            rw [hid, htenant]
            exact ⟨_, hok⟩
          refine ⟨actor, administrator, project, rest, ?_, ?_, ?_, happrovable, hrest⟩
          · rw [hid, htenant, hmanifest]
          · rw [hid]
            exact hrow
          · rw [htenant]
            exact hproject
      | cancel =>
          obtain ⟨hretiring, rfl | rfl⟩ := cancelJob_eq_ok hchanged
          · exact ⟨none, rfl, .refl _⟩
          · exact ⟨none, rfl, .save hrow
              (.save (.refl _) (.cancel rfl hretiring rfl ⟨rfl, rfl⟩ hsuspended)) (by simp)⟩
      | retry =>
          obtain ⟨job', hjob', rfl⟩ := Fallible.map_eq_ok.mp hchanged
          obtain ⟨hstate, policy, hpolicy, rfl⟩ := retryJob_eq_ok hjob'
          have hmoved := RowMoved.retried
            (w.permits env (.change tenant id actor administrator .retry)) w.now rfl htenant
            hproject hstate hpolicy rfl
          refine ⟨some (.retried row.id), ?_, .save hrow hmoved ?_⟩
          · rw [hid]
            rfl
          · intro e he
            cases he
            rfl

/-! ### Work -/

/-- A finished preparation moves the job of the worker's copy. -/
theorem DeliveryDb.moved_finish
    {db db' : DeliveryDb} {keys : SubjectKeys} {worker : DeliveryWorker} {manifest : String}
    {now : UInt64} (hcopy : db.CopyKept worker) (hinspected : worker.inspected = true)
    (hskip : ∀ row project, db.projectIn row.job.tenant row.job.project.id = some project →
      project.revision = row.job.project.revision → project.requireApproval = false →
        may.skip row)
    (h : db.finishJob keys worker.job manifest now = .ok db') :
  JobsMoved may none db.jobs db'.jobs
  := by
  obtain ⟨row, project, releasedAt, hrow, hstate, hattempts, hsame, hproject, hrevision,
    hreleased, rfl⟩ := DeliveryDb.finishJob_eq_ok h
  obtain ⟨row', hrow', hcopy⟩ := hcopy
  rw [hrow] at hrow'
  cases hrow'
  have hpresent := hcopy.present hattempts.symm
  have hmay : project.requireApproval = false → may.skip row := by
    apply hskip row project
    · rw [← hcopy.tenant, hsame]
      exact hproject
    · rw [hsame]
      exact hrevision
  refine .save hrow ⟨⟨rfl, rfl, rfl, rfl, rfl, rfl, rfl, rfl, rfl, rfl⟩, Or.inr ⟨hstate, ?_⟩, ?_, Or.inl rfl,
    Or.inl rfl, fun _ _ => Or.inr (Or.inl hstate), ?_,
    Or.inl (hpresent.snapshotBytes hstate hinspected), fun _ => rfl, Or.inl rfl,
    .prepared rfl hstate ?_ ?_ ⟨rfl, hpresent.retryBase⟩ rfl⟩ (by simp)
  · dsimp only [Project.preparedState]
    split_ifs <;> simp
  · dsimp only [Project.preparedState]
    intro hpreparing
    split_ifs at hpreparing
  · intro hsome
    rcases hreleased with rfl | hskips
    · dsimp only at hsome
      rw [hpresent.releasedAt hstate] at hsome
      cases hsome
    · exact Or.inr ⟨rfl, Or.inr ⟨hstate, hmay hskips⟩⟩
  · dsimp only [Project.preparedState]
    split
    · exact Or.inl rfl
    · rename_i hskips
      right
      refine ⟨?_, hmay (by simpa using hskips)⟩
      split
      · exact Or.inl rfl
      · exact Or.inr rfl
  · intro hexporting
    exact if_pos hexporting

/-- A row moves with its job at the same attempt, at the same stage. -/
theorem RowMoved.edit
    {row : JobRow} {checks : Checks} {recipients : List String} {updatedAt : UInt64}
    (hbase : checks.retryBase = row.job.checks.retryBase)
    (hrecipients : { row.job.request with recipients := recipients } = row.job.request
      ∨ may.recipients row)
    (hcomplete : ∀ d, checks.complete d = true →
      row.job.checks.complete d = true ∨ row.job.state = .preparing ∨ may.complete row d)
    (hreleased : checks.releasedAt = row.job.checks.releasedAt)
    (hbytes : checks.snapshotBytes = row.job.checks.snapshotBytes
      ∨ ∃ bytes, checks.snapshotBytes = some bytes ∧ may.reserve row bytes) :
  RowMoved may none row { row with
    snapshotBytes := checks.snapshotColumn
    job :=
      { row.job with
        checks := checks
        request := { row.job.request with recipients := recipients }
        updatedAt := updatedAt } }
  where
    toSameSubmission := ⟨rfl, rfl, rfl, rfl, rfl, rfl, rfl, rfl, rfl, rfl⟩
    manifest := Or.inl rfl
    prepares := fun _ => rfl
    project := Or.inl rfl
    request := hrecipients.imp_right Or.inl
    complete := hcomplete
    released := fun h => Or.inl (hreleased ▸ h)
    bytes := hbytes.imp_right Or.inl
    column := fun _ => rfl
    reprocessed := Or.inl rfl
    change := .stay (by simp) rfl rfl ⟨rfl, hbase⟩

theorem Checks.complete_set
    {checks : Checks} {d d' : String} {value : DestinationCheck}
    (h : { checks with destinations := checks.destinations.set d value }.complete d' = true) :
  checks.complete d' = true ∨ d' = d ∧ ∃ location at', value = .complete location at'
  := by
  rw [Checks.complete, Keyed.get, Keyed.set, Table.find?_upsert] at h
  by_cases hd : d' = d
  · right
    rw [if_pos hd] at h
    dsimp only [Option.map_some] at h
    split at h
    · rename_i location at' hvalue
      exact ⟨hd, location, at', Option.some.inj hvalue⟩
    · cases h
  · left
    rw [if_neg hd] at h
    exact h

theorem DeliveryDb.moved_updateExporting
    {db db' : DeliveryDb} {id : String} {attempt : Nat} {f : Checks → Checks}
    (hbase : ∀ c, (f c).retryBase = c.retryBase) (hkept : ∀ c : Checks, c.Kept (f c))
    (h : db.updateExporting id attempt f = some db') :
  JobsMoved may none db.jobs db'.jobs
  := by
  obtain ⟨row, hrow, _, _, rfl⟩ := DeliveryDb.updateExporting_eq_some h
  exact .save hrow (.save (hkept _) (.stay (by simp) rfl rfl ⟨rfl, hbase _⟩)) (by simp)

theorem DeliveryDb.moved_failJob
    {db : DeliveryDb} (id : String) (attempt : Nat) (error : String) (now : UInt64) :
  JobsMoved may none db.jobs (db.failDeliveryJob id attempt error now).jobs
  := by
  rw [DeliveryDb.failDeliveryJob]
  split
  · exact .refl _
  · rename_i row hrow
    split_ifs with hrunning
    · exact .refl _
    · have hstate : (row.job.afterFailure error now).state = .failed
          ∨ row.job.state = .exporting
            ∧ (row.job.afterFailure error now).state ∈ [.ready, .retrying] := by
        dsimp only [Job.afterFailure]
        split_ifs with hagain
        · exact Or.inr ⟨hagain.1, by simp⟩
        · exact Or.inl rfl
      refine .save hrow (.save ⟨fun _ hd => hd, rfl, rfl⟩ ?_) (by simp)
      exact .stop rfl (not_not.mp (not_or.mp hrunning).1) hstate rfl ⟨rfl, rfl⟩

theorem DeliveryDb.moved_noteRevocation
    {db : DeliveryDb} {jobs : Table JobRow.id} (hjobs : db.jobs = jobs)
    (jobId destination : String) (status : RevocationStatus) :
  JobsMoved may none jobs (db.noteRevocation jobId destination status).jobs
  := by
  rw [← hjobs, DeliveryDb.noteRevocation]
  split
  · exact .refl _
  · rename_i row hrow
    exact .save hrow (.save ⟨fun _ => id, rfl, rfl⟩ (.stay (by simp) rfl rfl ⟨rfl, rfl⟩)) (by simp)

theorem DeliveryDb.moved_revokeInbound
    {db db' : DeliveryDb} {env : DeliveryEnv δ} {id : String} {request : RouteRevocation}
    {now : UInt64} (h : db.revokeInboundRoute env id request now = .ok db') :
  JobsMoved may none db.jobs db'.jobs
  := by
  obtain ⟨_, _, h⟩ := Fallible.bind_eq_ok.mp h
  split at h
  · cases h
    exact .refl _
  · obtain ⟨_, _, h⟩ := Fallible.bind_eq_ok.mp h
    split at h
    · cases h
      exact .refl _
    · cases h
      apply JobsMoved.map (db.id_revokedRow _ now)
      intro r _
      rw [DeliveryDb.revokedRow]
      split_ifs with hreceives
      · have hchange : JobChange may none r { r with job := r.job.sourceRevoked now } := by
          by_cases hkeep : r.job.state.isRetiring ∨ r.job.state = .suspended
          · exact .stay (by simp) (if_pos hkeep) rfl ⟨rfl, rfl⟩
          · exact .cancel rfl (not_or.mp hkeep).1 (if_neg hkeep) ⟨rfl, rfl⟩ (not_or.mp hkeep).2
        exact ⟨⟨rfl, rfl, rfl, rfl, rfl, rfl, rfl, rfl, rfl, rfl⟩, Or.inl rfl, fun _ => rfl, Or.inl rfl,
          Or.inl rfl, fun _ => Or.inl, Or.inl, Or.inl rfl, fun hcolumn => hcolumn, Or.inl rfl,
          hchange⟩
      · exact .refl (by simp)

/-- A received job is replaced by another. -/
theorem DeliveryDb.Replaced.moved
    {db db' : DeliveryDb} {row new : JobRow} {upload : Received} {now : UInt64}
    (h : db.Replaced db' row new upload now) {id : String} (hrow : db.jobs.find? id = some row)
    (htables : may.tables = db.toSurroundings) (hmay : may.replace row new.id) :
  JobsMoved may none db.jobs db'.jobs
  := by
  obtain ⟨grant, jobs, _, hinsert, hothers, hsame, rfl⟩ := h.written
  have hretiring : ¬ row.job.state.isRetiring := by
    have hinactive := h.inactive
    rintro (hstate | hstate) <;> simp [hstate] at hinactive
  have hsuspended : row.job.state ≠ .suspended := by
    have hinactive := h.inactive
    intro hstate
    simp [hstate] at hinactive
  generalize hrow' : ({ row with
        owner := ""
        snapshotBytes := row.job.checks.snapshotColumn
        job :=
          { row.job with
            state := .cancelled, updatedAt := now, reprocessedAs := some new.id } } : JobRow)
    = row' at hinsert
  have hmoved : RowMoved may none row row' := by
    rw [← hrow']
    exact ⟨⟨rfl, rfl, rfl, rfl, rfl, rfl, rfl, rfl, rfl, rfl⟩, Or.inl rfl, fun _ => rfl, Or.inl rfl,
      Or.inl rfl, fun _ => Or.inl, Or.inl, Or.inl rfl, fun _ => rfl,
      Or.inr ⟨h.unreplaced, new.id, rfl, hmay⟩, .cancel rfl hretiring rfl ⟨rfl, rfl⟩ hsuspended⟩
  have hsaved := JobsMoved.save hrow hmoved (by simp)
  refine .insert hsaved ?_ hinsert (htables ▸ h.toUnclaimed) ?_ ?_
  · intro s hs
    rcases Table.mem_upsert.mp hs with rfl | ⟨hs, _⟩
    · exact ⟨row, (Table.find?_eq_some.mp hrow).1, hmoved⟩
    · exact ⟨s, hs, .refl (by simp)⟩
  · intro s hs
    rcases Table.mem_upsert.mp hs with rfl | ⟨hs, hne⟩
    · rw [hmoved.sameOperation]
      exact hsame
    · rw [hmoved.id] at hne
      exact hothers s hs hne
  · intro id' hid
    rw [h.replaces] at hid
    cases hid
    refine ⟨row', Table.mem_upsert.mpr (Or.inl rfl), hmoved.id, ?_, ?_⟩
    · rw [← hrow']
    · rw [← hrow']

/-! ### Commits -/

theorem appendFresh_rest
    {env : UploadEnv δ DeliveryDb} {db db' : PortDb δ} {tenant linkId session : String}
    {upload : UploadRecord}
    (h : appendFresh env db tenant linkId upload (some session) = .ok db') :
  ∃ mid : PortDb δ,
    env.completeRoute { db with uploads := mid.uploads } tenant linkId session upload
      = .ok mid.rest
    ∧ env.queueReceived mid tenant linkId upload = .ok db'.rest
    ∧ mid.links = db.links ∧ db'.links = db.links
  := by
  rw [appendFresh] at h
  split at h
  · cases h
  · rename_i uploads _
    obtain ⟨rest, hrest, h⟩ := Fallible.bind_eq_ok.mp h
    obtain ⟨quota, _, h⟩ := Fallible.bind_eq_ok.mp h
    obtain ⟨rest', hrest', h⟩ := Fallible.bind_eq_ok.mp h
    refine ⟨{ db with uploads := uploads, rest := rest, quota := quota }, hrest, ?_⟩
    rw [commitFresh] at h
    split at h
    · cases h
      exact ⟨hrest', rfl, rfl⟩
    · rw [commitSession] at h
      split at h
      · cases h
      · cases h
        exact ⟨hrest', rfl, rfl⟩

/-- A commit leaves the tables of deliveries, or completes the route of its session and
queues its job. -/
theorem appendUpload_rest
    {env : UploadEnv δ DeliveryDb} {db db' : PortDb δ} {tenant linkId session : String}
    {upload : UploadRecord} {id : Option String}
    (h : appendUpload env db tenant linkId upload (some session) = .ok (id, db')) :
  db'.rest = db.rest ∧ db'.links = db.links ∨ ∃ mid : PortDb δ,
    env.completeRoute { db with uploads := mid.uploads } tenant linkId session upload
      = .ok mid.rest
    ∧ env.queueReceived mid tenant linkId upload = .ok db'.rest
    ∧ mid.links = db.links ∧ db'.links = db.links
  := by
  obtain ⟨committed, _, h⟩ := Fallible.bind_eq_ok.mp h
  cases committed with
  | some committed =>
      cases h
      exact Or.inl ⟨rfl, rfl⟩
  | none =>
      dsimp only at h
      split at h
      · cases h
        exact Or.inl ⟨rfl, rfl⟩
      · obtain ⟨_, _, h⟩ := Fallible.bind_eq_ok.mp h
        obtain ⟨db₁, happend, h⟩ := Fallible.bind_eq_ok.mp h
        cases h
        rw [appendToLink] at happend
        split at happend
        · rename_i hwhole
          obtain ⟨previous, _, happend⟩ := Fallible.bind_eq_ok.mp happend
          cases previous with
          | none => exact Or.inr (appendFresh_rest happend)
          | some previous =>
              dsimp only at happend
              rw [if_pos (hwhole.resolve_right (by simp))] at happend
              obtain ⟨merged, _, happend⟩ := Fallible.bind_eq_ok.mp happend
              obtain ⟨quota, _, happend⟩ := Fallible.bind_eq_ok.mp happend
              cases happend
              left
              dsimp only [writeUpload]
              split <;> exact ⟨rfl, rfl⟩
        · exact Or.inr (appendFresh_rest happend)

/-- The route of a session is noted with its upload, and gets its receipt when the upload is
complete. -/
theorem DeliveryDb.completeRoute_eq_ok
    {db db' : DeliveryDb} {env : DeliveryEnv δ} {tenant linkId session : String}
    {upload : UploadRecord} (h : db.completeRoute env tenant linkId session upload = .ok db') :
  db' = db ∧ (∀ r ∈ db.inbound.rows, r.sessionId ≠ some session)
    ∨ ∃ route routeUploads, route ∈ db.inbound.rows ∧ route.sessionId = some session
      ∧ route.tenant = tenant ∧ route.linkId = linkId
      ∧ db.routeUploads.insert? ⟨route.id, upload.id, upload.isPartial⟩ = some routeUploads
      ∧ (upload.isPartial = true ∧ db' = { db with routeUploads := routeUploads }
        ∨ upload.isPartial = false ∧ route.revokedAt = none ∧ route.receipt = none
          ∧ manifestDigest env.statements upload.files = route.source.document.manifest
          ∧ db' = { db with
              routeUploads := routeUploads
              inbound := db.inbound.upsert
                { route with
                  uploadId := some upload.id
                  receipt := some (env.routeReceipt route.source upload.id
                    (UInt64.ofNat upload.completedAt)) } })
  := by
  rw [DeliveryDb.completeRoute] at h
  split at h
  · rename_i hnone
    refine Or.inl ⟨(Except.ok.inj h).symm, ?_⟩
    intro r hr hsession
    simpa [hsession] using List.find?_eq_none.mp hnone r hr
  · rename_i route hroute
    obtain ⟨_, hbelongs, h⟩ := Fallible.bind_eq_ok.mp h
    obtain ⟨routeUploads, hinsert, h⟩ := Fallible.bind_eq_ok.mp h
    obtain ⟨htenant, hlink⟩ := Fallible.require_eq_ok.mp hbelongs
    refine Or.inr ⟨route, routeUploads, List.mem_of_find?_eq_some hroute,
      by simpa using List.find?_some hroute, htenant, hlink, Fallible.present_eq_ok.mp hinsert, ?_⟩
    dsimp only at h
    split at h
    · rename_i hwhole
      exact Or.inl ⟨hwhole, (Except.ok.inj h).symm⟩
    · rename_i hwhole
      obtain ⟨_, hcheck, h⟩ := Fallible.bind_eq_ok.mp h
      obtain ⟨_, _, h⟩ := Fallible.bind_eq_ok.mp h
      obtain ⟨hrevoked, hreceipt, hmanifest⟩ := Fallible.require_eq_ok.mp hcheck
      exact Or.inr ⟨by simpa using hwhole, hrevoked, hreceipt, hmanifest,
        (Except.ok.inj h).symm⟩

/-- A commit puts a job in at most. -/
theorem DeliveryWorld.moved_commit
    {jobId tenant linkId session : String} {upload : UploadRecord} {id : Option String}
    {db' : PortDb δ} (htables : may.tables = w.db.rest.toSurroundings)
    (h : appendUpload (env.uploads jobId w.now) w.db tenant linkId upload (some session)
      = .ok (id, db')) :
  JobsMoved may none w.db.rest.jobs db'.rest.jobs
  := by
  rcases appendUpload_rest h with ⟨hrest, _⟩ | ⟨mid, hcomplete, hqueue, _⟩
  · rw [hrest]
    exact .refl _
  · have hmid : mid.rest.jobs = w.db.rest.jobs
        ∧ mid.rest.toSurroundings = w.db.rest.toSurroundings := by
      rcases DeliveryDb.completeRoute_eq_ok hcomplete with
        ⟨hmid, _⟩ | ⟨_, _, _, _, _, _, _, ⟨_, hmid⟩ | ⟨_, _, _, _, hmid⟩⟩
      · rw [hmid]
        exact ⟨rfl, rfl⟩
      · rw [hmid]
        exact ⟨rfl, rfl⟩
      · rw [hmid]
        exact ⟨rfl, rfl⟩
    rw [← hmid.1]
    obtain ⟨receiveUploads, cache, hrest | ⟨_, row, jobs, hqueued, _, hrest⟩⟩ :=
      queueReceived_eq_ok hqueue
    · rw [hrest]
      exact .refl _
    · rw [hrest]
      exact hqueued.moved (htables.trans hmid.2.symm)

theorem DeliveryDb.jobs_bindSession
    {db db' : DeliveryDb} {route : InboundRoute} {session transport : String}
    (h : db.bindRouteSession route session transport = .ok db') :
  ∃ row, db.inbound.find? route.id = some row ∧ row.receipt = none ∧ row.revokedAt = none
    ∧ (∀ r ∈ db.inbound.rows, r.sessionId = some session → r.id = row.id)
    ∧ db' = { db with
        inbound := db.inbound.upsert
          { row with sessionId := some session, transport := some transport } }
  := by
  obtain ⟨row, hrow, h⟩ := Fallible.bind_eq_ok.mp h
  obtain ⟨_, hsame, h⟩ := Fallible.bind_eq_ok.mp h
  obtain ⟨_, hunique, h⟩ := Fallible.bind_eq_ok.mp h
  obtain ⟨_, _, hreceipt, hrevoked⟩ := Fallible.require_eq_ok.mp hsame
  exact ⟨row, Fallible.present_eq_ok.mp hrow, hreceipt, hrevoked,
    Fallible.require_eq_ok.mp hunique, (Except.ok.inj h).symm⟩

/-- A route is received: the one that is there, or a new one. -/
theorem receiveRoute_eq_ok
    {env : DeliveryEnv δ} {db : PortDb δ} {id tenant linkId : String} {source : SignedRoute}
    {ancestry : List RouteReceipt} {credential : Option String} {now : UInt64}
    {route : InboundRoute} {db' : DeliveryDb}
    (h : receiveRouteAuthorized env db id tenant linkId source ancestry credential now
      = .ok (route, db')) :
  db.rest.inboundOf linkId source = some route ∧ route.source = source
      ∧ route.ancestry = ancestry ∧ db' = db.rest
    ∨ db.rest.inboundOf linkId source = none ∧ route.id = id ∧ route.linkId = linkId
      ∧ route.source = source ∧ route.ancestry = ancestry ∧ route.sessionId = none
      ∧ route.uploadId = none ∧ route.receipt = none ∧ route.revokedAt = none
      ∧ ∃ inbound, db.rest.inbound.insert? route = some inbound
        ∧ db' = { db.rest with inbound := inbound }
  := by
  obtain ⟨_, _, h⟩ := Fallible.bind_eq_ok.mp h
  obtain ⟨_, _, h⟩ := Fallible.bind_eq_ok.mp h
  obtain ⟨_, _, h⟩ := Fallible.bind_eq_ok.mp h
  cases hprevious : db.rest.inboundOf linkId source with
  | some previous =>
      rw [hprevious] at h
      obtain ⟨_, hsame, h⟩ := Fallible.bind_eq_ok.mp h
      cases h
      exact Or.inl ⟨rfl, (Fallible.require_eq_ok.mp hsame).1, (Fallible.require_eq_ok.mp hsame).2,
        rfl⟩
  | none =>
      rw [hprevious] at h
      obtain ⟨_, _, h⟩ := Fallible.bind_eq_ok.mp h
      obtain ⟨_, _, h⟩ := Fallible.bind_eq_ok.mp h
      obtain ⟨_, _, h⟩ := Fallible.bind_eq_ok.mp h
      obtain ⟨_, _, h⟩ := Fallible.bind_eq_ok.mp h
      obtain ⟨inbound, hinbound, h⟩ := Fallible.bind_eq_ok.mp h
      cases h
      exact Or.inr ⟨rfl, rfl, rfl, rfl, rfl, rfl, rfl, rfl, rfl, inbound,
        Fallible.present_eq_ok.mp hinbound, rfl⟩

theorem DeliveryDb.bindOutbound_eq_ok
    {db db' : DeliveryDb} {env : DeliveryEnv δ} {jobId destination origin route peerKey : String}
    {source : SignedRoute}
    (h : db.bindOutboundRoute env jobId destination origin route peerKey source = .ok db') :
  (∃ row, db.outbound.find? (jobId, destination) = some row
      ∧ db' = db.queueCancelled env destination)
    ∨ db.outbound.find? (jobId, destination) = none
      ∧ ∃ row : OutboundRoute, row.key = (jobId, destination) ∧ row.revocation = none
        ∧ row.ack = none
        ∧ db' = DeliveryDb.queueCancelled { db with outbound := db.outbound.upsert row } env
            destination
  := by
  rw [DeliveryDb.bindOutboundRoute] at h
  split at h
  · rename_i row hrow
    obtain ⟨_, _, h⟩ := Fallible.bind_eq_ok.mp h
    exact Or.inl ⟨row, hrow, (Except.ok.inj h).symm⟩
  · rename_i hnone
    exact Or.inr ⟨hnone, _, rfl, rfl, rfl, (Except.ok.inj h).symm⟩

/-- The state of a trade route changes, its deliveries are revoked when that is asked for,
and so are the routes that it brought. -/
theorem DeliveryDb.updateTradeRoute_eq_ok
    {db db' : DeliveryDb} {env : DeliveryEnv δ} {tenant id : String} {revision : Nat}
    {state : TradeState} {cancelActive : Bool} {now : UInt64}
    (h : db.updateTradeRoute env tenant id revision state cancelActive now = .ok db') :
  ∃ row, row.id = id ∧ (db' = { db with trade := db.trade.upsert row }.queueCancelled env id
      ∨ db' = ({ db with trade := db.trade.upsert row }.queueCancelled env id).cancelIncoming
          id now)
  := by
  obtain ⟨row, hrow, h⟩ := Fallible.bind_eq_ok.mp h
  obtain ⟨_, _, h⟩ := Fallible.bind_eq_ok.mp h
  obtain ⟨_, _, h⟩ := Fallible.bind_eq_ok.mp h
  obtain ⟨_, _, h⟩ := Fallible.bind_eq_ok.mp h
  obtain ⟨_, _, h⟩ := Fallible.bind_eq_ok.mp h
  have hid : row.id = id := (Table.find?_eq_some.mp (Fallible.present_eq_ok.mp hrow)).2
  refine ⟨{ row with route :=
    { row.route with
      revision := row.route.revision + 1, state := state, cancelActive := cancelActive } }, hid, ?_⟩
  dsimp only at h
  split at h
  · exact Or.inr (Except.ok.inj h).symm
  · exact Or.inl (Except.ok.inj h).symm

theorem DeliveryDb.jobs_finishRevocation
    {db db' : DeliveryDb} {env : DeliveryEnv δ} {control : OutboundControl}
    {acknowledgement : Option RouteRevoked} {error : Option String} {now : UInt64}
    (h : db.finishRouteRevocation env control acknowledgement error now = .ok db') :
  (∀ ack ∈ acknowledgement, ack.verify env.statements control.request = true)
    ∧ (db' = db ∨ ∃ row nextAttempt status,
      db.outbound.find? (control.jobId, control.destination) = some row ∧ row.ack = none
      ∧ row.attempts = control.attempts
      ∧ db' = DeliveryDb.noteRevocation
          { db with
            outbound := db.outbound.upsert
              { row with ack := acknowledgement, nextAttempt := nextAttempt } }
          control.jobId control.destination status)
  := by
  obtain ⟨_, hverify, h⟩ := Fallible.bind_eq_ok.mp h
  refine ⟨Fallible.require_eq_ok.mp hverify, ?_⟩
  dsimp only at h
  split at h
  · exact Or.inl (Except.ok.inj h).symm
  · rename_i row hrow
    split at h
    · rename_i hfresh
      exact Or.inr ⟨row, _, _, hrow, hfresh.1, hfresh.2, (Except.ok.inj h).symm⟩
    · exact Or.inl (Except.ok.inj h).symm

/-- A revocation is claimed: the request is the one stored, or is made now. -/
theorem DeliveryDb.claimRevocation_eq_some
    {db db' : DeliveryDb} {env : DeliveryEnv δ} {now : UInt64} {control : OutboundControl}
    (h : db.claimRouteRevocation env now = some (control, db')) :
  ∃ row nextAttempt, db.outbound.find? row.key = some row ∧ db.revocationDue now row
    ∧ control = ⟨row.jobId, row.destinationId, row.origin, row.routeId,
      row.revocation.getD (env.revokeRoute row.source row.peerKey row.routeId),
      row.attempts + 1⟩
    ∧ db' = DeliveryDb.noteRevocation
        { db with
          outbound := db.outbound.upsert
            { row with
              revocation := some control.request
              nextAttempt := nextAttempt
              attempts := control.attempts } }
        row.jobId row.destinationId (.claimed control.attempts)
  := by
  obtain ⟨row, hhead, hrow⟩ := Option.map_eq_some_iff.mp h
  have hmem := List.mem_of_mem_head? hhead
  rw [List.mem_insertionSort, List.mem_filter, decide_eq_true_iff] at hmem
  obtain ⟨rfl, rfl⟩ := Prod.mk.inj hrow
  exact ⟨row, _, Table.find?_key hmem.1, hmem.2, rfl, rfl⟩

theorem DeliveryDb.extendGrant_eq_ok
    {db db' : DeliveryDb} {tenant id : String} {seconds now : UInt64}
    (h : db.extendOutboundGrant tenant id seconds now = .ok db') :
  db' = db ∨ ∃ grant expiresAt, db.grants.find? id = some grant ∧ grant.revokedAt = none
    ∧ (min now.toNat i64Max : Int) < grant.expiresAt
    ∧ db' = { db with grants := db.grants.upsert { grant with expiresAt := expiresAt } }
  := by
  obtain ⟨_, _, h⟩ := Fallible.bind_eq_ok.mp h
  split at h
  · exact Or.inl (Except.ok.inj h).symm
  · rename_i grant hgrant
    split at h
    · rename_i hlive
      exact Or.inr ⟨grant, _, hgrant, hlive.2.1, hlive.2.2, (Except.ok.inj h).symm⟩
    · exact Or.inl (Except.ok.inj h).symm

/-! ### Every operation -/

/-- What was asked for of a grant without a job is not noted of a job. -/
theorem jobs_releaseIn (env : DeliveryEnv δ) (db : PortDb δ) (grantId : String) :
  ∃ cache, (releaseIn env db grantId).2 = { db.rest with cache := cache }
  := by
  rw [releaseIn]
  split
  · split
    · exact ⟨db.rest.cache, rfl⟩
    · split
      · exact ⟨db.rest.cache, rfl⟩
      · exact ⟨db.rest.cache, rfl⟩
  · split
    · exact ⟨db.rest.cache, rfl⟩
    · split
      · exact ⟨db.rest.cache, rfl⟩
      · exact ⟨_, rfl⟩

theorem DeliveryDb.jobs_revokeGrant (db : DeliveryDb) (tenant id : String) (at' : UInt64) :
  (db.revokeOutboundGrant tenant id at').jobs = db.jobs
  := by
  rw [DeliveryDb.revokeOutboundGrant]
  split
  · rfl
  · split <;> rfl

theorem DeliveryDb.jobs_purgeGrants (db : DeliveryDb) (now : UInt64) :
  (db.purgeExpiredRevokedGrants now).jobs = db.jobs
  := by
  rw [DeliveryDb.purgeExpiredRevokedGrants]
  split <;> rfl

/-- The jobs move by every operation, in the ways that it permits. -/
theorem DeliveryWorld.step_moved
    (env : DeliveryEnv δ) (hcopies : ∀ worker ∈ w.workers, w.db.rest.CopyKept worker)
    (op : DeliveryOp δ) :
  DeliveryWorld.Moved (w.permits env op) w (w.step env op)
  := by
  cases op with
  | enqueue =>
      apply DeliveryWorld.moved_commits_map
      intro job rest h
      rcases DeliveryDb.enqueue_eq_ok h with
        ⟨_, _, _, _, _, _, rfl⟩ | ⟨row, jobs, hqueued, _, _, _, _, _, rfl⟩
      · exact .refl _
      · exact hqueued.moved rfl
  | claim owner => exact DeliveryWorld.moved_claim owner
  | reserve worker bytes limit =>
      dsimp only [DeliveryWorld.step]
      split
      · exact .of_jobs rfl rfl
      · rename_i claimed hclaimed
        split
        · rename_i hcopiesFiles
          apply DeliveryWorld.moved_commits
          intro rest h
          obtain ⟨row, hrow, hpreparing, hattempts, hlimit, rfl⟩ := DeliveryDb.reserve_eq_ok h
          have hid : row.id = claimed.job.id := (Table.find?_eq_some.mp hrow).2
          refine .save hrow (.edit rfl (Or.inl rfl) (fun _ => Or.inl) rfl
            (Or.inr ⟨bytes, rfl, worker, limit, claimed, rfl, hclaimed, hcopiesFiles, hid.symm,
              hattempts.symm, ?_, hpreparing, ?_⟩)) (by simp)
          · rw [hid]
            exact hrow
          · rw [hid]
            exact hlimit
        · exact .of_jobs rfl rfl
  | prepare worker found =>
      dsimp only [DeliveryWorld.step]
      rw [DeliveryWorld.prepare]
      split
      · exact .of_jobs rfl rfl
      · split
        · exact .of_jobs rfl rfl
        · exact .of_jobs rfl rfl
  | finish worker grant manifest =>
      dsimp only [DeliveryWorld.step]
      split
      · exact .of_jobs rfl rfl
      · rename_i claimed hclaimed
        split
        · rename_i hinspected
          apply DeliveryWorld.moved_commits
          intro rest h
          obtain ⟨_, rest', grants, hfinish, _, rfl⟩ := addOutboundGrant_eq_ok h
          have hmoved : JobsMoved (w.permits env (.finish worker grant manifest)) none
              w.db.rest.jobs rest'.jobs := by
            apply DeliveryDb.moved_finish (hcopies claimed (List.mem_of_getElem? hclaimed))
              hinspected _ hfinish
            intro row project hproject hrevision hskip
            exact ⟨project, hproject, hrevision, hskip⟩
          exact hmoved
        · exact .of_jobs rfl rfl
  | completeExport id attempt destination location =>
      apply DeliveryWorld.moved_commits
      intro rest h
      obtain ⟨row, storage, state, hexport, hrequire, hstate, rfl⟩ := DeliveryDb.complete_eq_ok h
      obtain ⟨hrow, hexporting, _⟩ := DeliveryDb.exportIn_eq_ok hexport
      have hid : row.id = id := (Table.find?_eq_some.mp hrow).2
      refine .save hrow ⟨⟨rfl, rfl, rfl, rfl, rfl, rfl, rfl, rfl, rfl, rfl⟩, Or.inl rfl, fun _ => rfl,
        Or.inl rfl, Or.inl rfl, ?_, Or.inl, Or.inl rfl, fun _ => rfl, Or.inl rfl, ?_⟩ (by simp)
      · intro d hd
        rcases Checks.complete_set hd with hd | ⟨rfl, _⟩
        · exact Or.inl hd
        · right
          right
          rw [← hid] at hrequire
          exact ⟨attempt, storage, hrequire⟩
      · rcases hstate with rfl | rfl
        · exact .stop rfl (Or.inr hexporting) (Or.inr ⟨hexporting, by simp⟩) rfl ⟨rfl, rfl⟩
        · exact .stay (by simp) rfl rfl ⟨rfl, rfl⟩
  | failDestination id attempt destination error =>
      apply DeliveryWorld.moved_commits
      intro rest h
      obtain ⟨row, hexport, rfl⟩ := DeliveryDb.failDestination_eq_ok h
      obtain ⟨hrow, _⟩ := DeliveryDb.exportIn_eq_ok hexport
      refine .save hrow (.save ⟨?_, rfl, rfl⟩ (.stay (by simp) rfl rfl ⟨rfl, rfl⟩)) (by simp)
      intro d hd
      rcases Checks.complete_set hd with hd | ⟨_, _, _, hvalue⟩
      · exact hd
      · cases hvalue
  | failJob id attempt error =>
      exact DeliveryWorld.moved_withRest (DeliveryDb.moved_failJob id attempt error w.now)
  | routeProgress id attempt destination moved =>
      apply DeliveryWorld.moved_withRest
      rw [DeliveryDb.routeProgress]
      cases hupdate : w.db.rest.updateExporting id attempt _ with
      | none => exact .refl _
      | some rest =>
          have hmoved : JobsMoved (w.permits env (.routeProgress id attempt destination moved))
              none w.db.rest.jobs rest.jobs := by
            apply DeliveryDb.moved_updateExporting _ _ hupdate
            · intro _
              rfl
            · intro checks
              refine ⟨?_, rfl, rfl⟩
              intro d hd
              rcases Checks.complete_set hd with hd | ⟨_, _, _, hvalue⟩
              · exact hd
              · cases hvalue
          exact hmoved
  | recordReceipt id attempt destination receipt =>
      apply DeliveryWorld.moved_commits
      intro rest h
      apply DeliveryDb.moved_updateExporting _ _ (Fallible.present_eq_ok.mp h)
      · intro _
        rfl
      · intro _
        exact ⟨fun _ hd => hd, rfl, rfl⟩
  | change tenant id actor administrator action =>
      exact DeliveryWorld.moved_change tenant id actor administrator action
  | removeRecipient tenant id actor administrator holder =>
      apply DeliveryWorld.moved_commits
      intro rest h
      obtain ⟨row, recipients, hrow, rfl⟩ := DeliveryDb.removeRecipient_eq_ok h
      have hid : row.id = id := (Table.find?_eq_some.mp hrow).2
      refine .save hrow (.edit rfl (Or.inr ⟨tenant, actor, administrator, holder, ?_⟩)
        (fun _ => Or.inl) rfl (Or.inl rfl)) (by simp)
      rw [hid]
  | claimRetirement =>
      dsimp only [DeliveryWorld.step]
      split
      · exact .of_jobs rfl rfl
      · rename_i rest h
        obtain ⟨row, cutoff, checks, hrow, hretirable, rfl, hbase, hkept⟩ :=
          DeliveryDb.claimRetirement_eq_some h
        apply DeliveryWorld.moved_withRest
        refine .save hrow (.save hkept (.retire rfl ?_ ?_ rfl rfl ⟨rfl, hbase⟩ ?_)) (by simp)
        · rcases hretirable with h | ⟨h | h, _⟩ | ⟨h | h, _⟩ <;> simp [JobState.running, h]
        · rcases hretirable with h | ⟨h | h, _⟩ | ⟨h | h, _⟩ <;> simp [h]
        · rcases hretirable with h | ⟨h | h, _⟩ | ⟨h | h, _⟩ <;> simp [h]
  | completeRetirement =>
      apply DeliveryWorld.moved_commits
      intro rest h
      rcases DeliveryDb.completeRetirement_eq_ok h with
        rfl | ⟨row, checks, hrow, hstate, rfl, hbase, hdestinations, hreleased, hbytes⟩
      · exact .refl _
      · refine .save hrow ⟨⟨rfl, rfl, rfl, rfl, rfl, rfl, rfl, rfl, rfl, rfl⟩, Or.inl rfl,
          fun _ => rfl, Or.inl rfl, Or.inl rfl, ?_, fun h => Or.inl (hreleased ▸ h),
          Or.inr (Or.inr (Or.inl ⟨rfl, hbytes⟩)), fun _ => rfl, Or.inl rfl,
          .retired rfl hstate rfl rfl ⟨rfl, hbase⟩ hbytes⟩ (by simp)
        intro d hd
        dsimp only at hd
        rw [Checks.complete, hdestinations] at hd
        exact Or.inl hd
  | reprocess identity id newId manifest projectRevision =>
      apply DeliveryWorld.moved_commits_map
      intro job rest h
      obtain ⟨row, hrow, ⟨_, _, _, _, rfl⟩ | ⟨new, upload, _, hnew, hreplaced⟩⟩ :=
        reprocess_eq_ok h
      · exact .refl _
      · have hid : row.id = id := (Table.find?_eq_some.mp hrow).2
        apply hreplaced.moved hrow rfl
        rw [hnew]
        refine ⟨identity, manifest, projectRevision, job, rest, ?_, ?_⟩
        · rw [hid]
          exact h
        · rw [hid]
  | share grant =>
      dsimp only [DeliveryWorld.step]
      split
      · exact .of_jobs rfl rfl
      · apply DeliveryWorld.moved_commits_jobs
        intro rest h
        obtain ⟨_, rest', grants, hrest, _, rfl⟩ := addOutboundGrant_eq_ok h
        cases hrest
        rfl
  | extendGrant =>
      apply DeliveryWorld.moved_commits_jobs
      intro rest h
      rcases DeliveryDb.extendGrant_eq_ok h with rfl | ⟨_, _, _, _, _, rfl⟩ <;> rfl
  | revokeGrant tenant id =>
      exact .of_jobs rfl (DeliveryDb.jobs_revokeGrant _ _ _ _)
  | purgeGrants => exact .of_jobs rfl (DeliveryDb.jobs_purgeGrants _ _)
  | receive =>
      apply DeliveryWorld.moved_commits_jobs
      intro rest h
      obtain ⟨⟨route, rest'⟩, hreceive, rfl⟩ := Fallible.map_eq_ok.mp h
      rcases receiveRoute_eq_ok hreceive with
        ⟨_, _, _, rfl⟩ | ⟨_, _, _, _, _, _, _, _, _, _, _, rfl⟩
      · rfl
      · rfl
  | bindSession =>
      apply DeliveryWorld.moved_commits_jobs
      intro rest h
      obtain ⟨_, _, _, _, _, rfl⟩ := DeliveryDb.jobs_bindSession h
      rfl
  | commit tenant linkId session upload jobId =>
      dsimp only [DeliveryWorld.step]
      split
      · split
        · exact .of_jobs rfl rfl
        · rename_i db h
          exact ⟨none, rfl, DeliveryWorld.moved_commit rfl h⟩
      · exact .of_jobs rfl rfl
  | revokeInbound =>
      apply DeliveryWorld.moved_commits
      intro rest h
      exact DeliveryDb.moved_revokeInbound h
  | bindOutbound worker destination origin route peerKey source =>
      dsimp only [DeliveryWorld.step]
      split
      · exact .of_jobs rfl rfl
      · split
        · apply DeliveryWorld.moved_commits_jobs
          intro rest h
          rcases DeliveryDb.bindOutbound_eq_ok h with ⟨_, _, rfl⟩ | ⟨_, _, _, _, _, rfl⟩ <;> rfl
        · exact .of_jobs rfl rfl
  | updateTradeRoute =>
      apply DeliveryWorld.moved_commits_jobs
      intro rest h
      obtain ⟨row, _, rfl | rfl⟩ := DeliveryDb.updateTradeRoute_eq_ok h <;> rfl
  | trade row => exact .of_jobs rfl rfl
  | saveProject =>
      apply DeliveryWorld.moved_commits_map
      intro project rest h
      obtain ⟨_, _, _, _, rfl⟩ := DeliveryDb.saveProject_eq_ok h
      exact .refl _
  | release grantId =>
      obtain ⟨cache, hrest⟩ := jobs_releaseIn env w.db grantId
      have hjobs := congrArg DeliveryDb.jobs hrest
      exact .of_jobs rfl hjobs
  | claimRevocation =>
      dsimp only [DeliveryWorld.step]
      split
      · exact .of_jobs rfl rfl
      · rename_i control rest h
        obtain ⟨row, nextAttempt, _, _, _, hrest⟩ := DeliveryDb.claimRevocation_eq_some h
        have hmoved : JobsMoved (w.permits env .claimRevocation) none w.db.rest.jobs
            rest.jobs := by
          rw [hrest]
          apply DeliveryDb.moved_noteRevocation
          rfl
        exact ⟨none, rfl, hmoved⟩
  | finishRevocation control acknowledgement error =>
      dsimp only [DeliveryWorld.step]
      split
      · exact .of_jobs rfl rfl
      · apply DeliveryWorld.moved_commits
        intro rest h
        obtain ⟨_, rfl | ⟨row, nextAttempt, status, _, _, _, rfl⟩⟩ :=
          DeliveryDb.jobs_finishRevocation h
        · exact .refl _
        · apply DeliveryDb.moved_noteRevocation
          rfl
  | hold =>
      apply DeliveryWorld.moved_withRest
      apply JobsMoved.map JobRow.id_held
      intro r _
      rw [JobRow.held]
      split_ifs
      · exact .refl (by simp)
      · exact ⟨⟨rfl, rfl, rfl, rfl, rfl, rfl, rfl, rfl, rfl, rfl⟩, Or.inl rfl, fun _ => rfl, Or.inl rfl,
          Or.inl rfl, fun _ => Or.inl, Or.inl, Or.inl rfl, fun hcolumn => hcolumn, Or.inl rfl,
          .suspend rfl rfl rfl ⟨rfl, rfl⟩⟩
  | surround tables => exact .of_jobs rfl rfl
  | tick now =>
      dsimp only [DeliveryWorld.step]
      split
      · exact .of_jobs rfl rfl
      · exact .of_jobs rfl rfl

end Votport
