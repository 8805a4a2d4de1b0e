import Votport.Delivery.Steps

/-!
# The fencing of delivery jobs

A worker's operation carries the number of the attempt that the worker has claimed.  The
number only goes up, and the operation changes the job only while it runs at that attempt:
what a worker does whose claim was superseded, cancelled or retried comes to nothing.
-/

namespace Votport

variable {δ : Type} {env : DeliveryEnv δ} {w : DeliveryWorld δ}

/-! ### Claims that are noted -/

/-- The claims of a job since its last explicit retry, in a log with the last event first. -/
def claimsSince (id : String) : List JobEvent → Nat
  | [] => 0
  | .claimed id' :: log => claimsSince id log + if id' = id then 1 else 0
  | .exhausted _ :: log => claimsSince id log
  | .retried id' :: log => if id' = id then 0 else claimsSince id log

theorem claimsSince_cons_of_ne {id : String} {e : JobEvent} (he : e.id ≠ id)
    (log : List JobEvent) :
  claimsSince id (e :: log) = claimsSince id log
  := by
  cases e with
  | claimed id' => simp [claimsSince, if_neg (show id' ≠ id from he)]
  | exhausted id' => rfl
  | retried id' => exact if_neg he

theorem claimsSince_toList_of_ne {id : String} {event : Option JobEvent}
    (he : ∀ e ∈ event, e.id ≠ id) (log : List JobEvent) :
  claimsSince id (event.toList ++ log) = claimsSince id log
  := by
  cases event with
  | none => rfl
  | some e => exact claimsSince_cons_of_ne (he e rfl) log

/-- The claims between two explicit retries are ones since the first of them. -/
theorem count_le_claimsSince {id : String} {log : List JobEvent} (h : .retried id ∉ log)
    (earlier : List JobEvent) :
  log.count (.claimed id) ≤ claimsSince id (log ++ earlier)
  := by
  induction log with
  | nil => exact Nat.zero_le _
  | cons e log ih =>
      obtain ⟨hne, hlog⟩ := not_or.mp (fun hmem => h (List.mem_cons.mpr hmem))
      have ih := ih hlog
      cases e with
      | claimed id' =>
          rw [List.count_cons, List.cons_append, claimsSince]
          by_cases hid : id' = id
          · simpa [hid] using ih
          · simpa [hid] using ih
      | exhausted id' =>
          rw [List.count_cons_of_ne (by simp), List.cons_append, claimsSince]
          exact ih
      | retried id' =>
          have hid : id' ≠ id := by
            rintro rfl
            exact hne rfl
          rw [List.count_cons_of_ne (by simp), List.cons_append, claimsSince, if_neg hid]
          exact ih

/-- The job of an event that was not noted before was not claimed. -/
theorem claimsSince_eq_zero {id : String} {log : List JobEvent} (h : ∀ e ∈ log, e.id ≠ id) :
  claimsSince id log = 0
  := by
  induction log with
  | nil => rfl
  | cons e log ih =>
      rw [claimsSince_cons_of_ne (h e List.mem_cons_self)]
      apply ih
      intro e' he'
      exact h e' (List.mem_cons_of_mem e he')

/-! ### What a row keeps -/

variable {may : Permits} {event : Option JobEvent} {r r' : JobRow}

theorem RowMoved.attempts_le (h : RowMoved may event r r') :
  r.job.attempts ≤ r'.job.attempts
  := by
  cases h.change with
  | stay _ _ _ hsame | stop _ _ _ _ hsame | prepared _ _ _ _ hsame | approve _ _ _ _ _ hsame
  | cancel _ _ _ hsame | suspend _ _ _ hsame | retire _ _ _ _ _ hsame | retired _ _ _ _ hsame =>
      exact hsame.attempts.ge
  | retry _ _ _ _ hattempts _ | claim _ _ _ hattempts _ _ | exhaust _ _ _ hattempts _ =>
      exact hattempts ▸ Nat.le_succ _

/-- The attempts that are counted start over only with another attempt. -/
theorem RowMoved.retryBase
    (h : RowMoved may event r r') (hattempts : r'.job.attempts = r.job.attempts) :
  r'.job.checks.retryBase = r.job.checks.retryBase
  := by
  cases h.change with
  | stay _ _ _ hsame | stop _ _ _ _ hsame | prepared _ _ _ _ hsame | approve _ _ _ _ _ hsame
  | cancel _ _ _ hsame | suspend _ _ _ hsame | retire _ _ _ _ _ hsame | retired _ _ _ _ hsame =>
      exact hsame.retryBase
  | retry _ _ _ _ hsucc _ | claim _ _ _ hsucc _ _ | exhaust _ _ _ hsucc _ => omega

/-- What is noted of a job comes with another attempt. -/
theorem RowMoved.attempts_lt
    (h : RowMoved may event r r') {e : JobEvent} (he : event = some e) (hid : e.id = r.id) :
  r.job.attempts < r'.job.attempts
  := by
  cases h.change with
  | stay hevent => exact absurd hid (hevent e he)
  | stop hevent | prepared hevent | approve hevent | cancel hevent | suspend hevent
  | retire hevent | retired hevent =>
      cases hevent.symm.trans he
  | retry _ _ _ _ hattempts _ | claim _ _ _ hattempts _ _ | exhaust _ _ _ hattempts _ => omega

/-- The job is not to run again. -/
def JobState.stopped (state : JobState) : Prop :=
  state ∈ [.cancelled, .retiring, .retired, .suspended]

theorem JobState.stopped.not_running {state : JobState} (h : state.stopped) :
  ¬ state.running
  := by
  rintro (rfl | rfl) <;> simp [JobState.stopped] at h

/-- A job that is not to run again stays so. -/
theorem RowMoved.stopped (h : RowMoved may event r r') (hr : r.job.state.stopped) :
  r'.job.state.stopped
  := by
  cases h.change with
  | stay _ hstate => rwa [hstate]
  | stop _ hrunning => exact absurd hrunning hr.not_running
  | prepared _ hpreparing => simp [hpreparing, JobState.stopped] at hr
  | approve _ _ hawaiting => simp [hawaiting, JobState.stopped] at hr
  | cancel _ _ hstate | suspend _ hstate | retire _ _ _ hstate | retired _ _ hstate =>
      simp [hstate, JobState.stopped]
  | retry _ hfailed => rcases hfailed with h | h <;> simp [h, JobState.stopped] at hr
  | claim _ hclaimable | exhaust _ hclaimable =>
      simp only [JobState.stopped, List.mem_cons, List.not_mem_nil, or_false] at hr hclaimable
      rcases hr with h | h | h | h <;> simp [h] at hclaimable

/-! ### The attempts since a retry -/

/-- The attempts since the last explicit retry count the claims since. -/
def JobRow.Counted (log : List JobEvent) (r : JobRow) : Prop :=
  r.job.checks.retryBase.getD 0 + claimsSince r.id log ≤ r.job.attempts

theorem RowMoved.counted
    {log : List JobEvent} (h : RowMoved may event r r') (hr : r.Counted log) :
  r'.Counted (event.toList ++ log)
  := by
  rw [JobRow.Counted] at hr ⊢
  rw [h.id]
  cases h.change with
  | stay hevent _ _ hsame =>
      rwa [claimsSince_toList_of_ne hevent, hsame.retryBase, hsame.attempts]
  | stop hevent _ _ _ hsame | prepared hevent _ _ _ hsame | approve hevent _ _ _ _ hsame
  | cancel hevent _ _ hsame | suspend hevent _ _ hsame | retire hevent _ _ _ _ hsame
  | retired hevent _ _ _ hsame =>
      rw [hevent, hsame.retryBase, hsame.attempts]
      exact hr
  | retry hevent _ _ _ hattempts hbase =>
      rw [hevent, hbase, hattempts, Option.toList_some, List.singleton_append, claimsSince,
        if_pos rfl]
      exact Nat.le_refl _
  | claim hevent _ _ hattempts hbase _ =>
      rw [hevent, hbase, hattempts, Option.toList_some, List.singleton_append, claimsSince,
        if_pos rfl]
      omega
  | exhaust hevent _ _ hattempts hbase =>
      rw [hevent, hbase, hattempts, Option.toList_some, List.singleton_append, claimsSince]
      omega

/-- A claim that is noted is the fifth since the last explicit retry at most. -/
theorem RowMoved.claims_le
    {log : List JobEvent} (h : RowMoved may event r r') (hr : r.Counted log)
    (hlimit : claimsSince r.id log ≤ 5) :
  claimsSince r.id (event.toList ++ log) ≤ 5
  := by
  cases h.change with
  | stay hevent => rwa [claimsSince_toList_of_ne hevent]
  | stop hevent | prepared hevent | approve hevent | cancel hevent | suspend hevent
  | retire hevent | retired hevent =>
      rw [hevent]
      exact hlimit
  | retry hevent =>
      rw [hevent, Option.toList_some, List.singleton_append, claimsSince, if_pos rfl]
      exact Nat.zero_le 5
  | claim hevent _ _ hattempts hbase hfive =>
      rw [hevent, Option.toList_some, List.singleton_append, claimsSince, if_pos rfl]
      rw [retryAttempts, hattempts, hbase] at hfive
      rw [JobRow.Counted] at hr
      omega
  | exhaust hevent =>
      rw [hevent, Option.toList_some, List.singleton_append, claimsSince]
      exact hlimit

/-! ### Running jobs -/

/-- The owner runs the job, which is of the tenant. -/
def JobRow.RunsFor (tenant owner : String) (r : JobRow) : Prop :=
  r.job.tenant = tenant ∧ r.owner = owner ∧ r.job.state.running

instance (tenant owner : String) (r : JobRow) : Decidable (r.RunsFor tenant owner) :=
  inferInstanceAs (Decidable (_ ∧ _ ∧ _))

/-- The jobs of a tenant that an owner runs. -/
def DeliveryDb.runningFor (db : DeliveryDb) (tenant owner : String) : Nat :=
  db.jobs.rows.countP fun r => r.RunsFor tenant owner

/-- Only a claim makes a job run for an owner. -/
theorem RowMoved.runsFor
    (h : RowMoved may event r r') (hevent : ∀ id, event ≠ some (.claimed id))
    {tenant owner : String} (howner : owner ≠ "") (hr' : r'.RunsFor tenant owner) :
  r.RunsFor tenant owner
  := by
  obtain ⟨htenant, hruns, hrunning⟩ := hr'
  refine ⟨h.tenant.symm.trans htenant, ?_⟩
  cases h.change with
  | stay _ hstate hsame => exact ⟨hsame.symm.trans hruns, hstate ▸ hrunning⟩
  | stop _ _ hstate =>
      rcases hrunning with h | h <;> simp [h] at hstate
  | prepared _ _ hstate hnone =>
      rcases hrunning with hpreparing | hexporting
      · simp [hpreparing] at hstate
      · exact absurd (hruns.symm.trans (hnone hexporting)) howner
  | approve _ _ _ _ hnone | suspend _ _ hnone | retry _ _ _ hnone =>
      exact absurd (hruns.symm.trans hnone) howner
  | cancel _ _ hstate | retire _ _ _ hstate | retired _ _ hstate | exhaust _ _ hstate =>
      rcases hrunning with h | h <;> cases hstate.symm.trans h
  | claim hclaimed => exact absurd hclaimed (hevent _)

/-- No owner runs more jobs after an operation other than a claim. -/
theorem JobsMoved.runningFor_le
    {db db' : DeliveryDb} (h : JobsMoved may event db.jobs db'.jobs)
    (hevent : ∀ id, event ≠ some (.claimed id)) (tenant : String) {owner : String}
    (howner : owner ≠ "") :
  db'.runningFor tenant owner ≤ db.runningFor tenant owner
  := by
  apply Table.countP_le
  intro r' hr' hruns
  rw [decide_eq_true_iff] at hruns
  rcases h.origin r' hr' with ⟨r, hr, hmoved⟩ | hinserted
  · exact ⟨r, hr, hmoved.id.symm, decide_eq_true (hmoved.runsFor hevent howner hruns)⟩
  · exact absurd (hruns.2.1.symm.trans hinserted.owner) howner

/-- An owner that claims a job runs one besides at most. -/
theorem DeliveryDb.runningFor_claim
    {db db' : DeliveryDb} {claimer : String} {now : UInt64} {row : JobRow}
    (h : db.claimDeliveryJob claimer now = some (row, db')) {tenant owner : String}
    (hlimit : db.runningFor tenant owner ≤ 2) :
  db'.runningFor tenant owner ≤ 2
  := by
  obtain ⟨r, hr, hclaimable, rfl, rfl⟩ := DeliveryDb.claim_eq_some h
  obtain ⟨state, attempts, updatedAt, error, hjob⟩ := (r.job.claimed_as now).same
  rw [hjob, DeliveryDb.runningFor, DeliveryDb.saveJob, Table.countP_upsert_others]
  split
  · -- The claimed row counts: the others are those beside it.
    rename_i hruns
    obtain ⟨rfl, rfl, _⟩ := of_decide_eq_true hruns
    have hbeside := hclaimable.2
    have hsame : db.jobs.rows.countP (fun s => decide (s.RunsFor r.job.tenant claimer)
        && decide (s.id ≠ r.id)) = db.runningBeside claimer r := by
      apply List.countP_congr
      intro s _
      rw [Bool.and_eq_true, decide_eq_true_iff, decide_eq_true_iff, JobRow.RunsFor]
      simp only [Bool.and_eq_true, decide_eq_true_iff, and_assoc]
    exact Nat.succ_le_succ (Nat.le_of_lt_succ (hsame ▸ hbeside))
  · refine le_trans ?_ hlimit
    apply List.countP_mono_left
    intro s _ hs
    exact (Bool.and_eq_true _ _ ▸ hs).1

/-! ### The copies and the log -/

@[simp]
theorem DeliveryWorld.workers_commits {ε : Type} (w : DeliveryWorld δ)
    (result : Except ε DeliveryDb) :
  (w.commits result).workers = w.workers
  := by
  cases result <;> rfl

@[simp]
theorem DeliveryWorld.log_commits {ε : Type} (w : DeliveryWorld δ)
    (result : Except ε DeliveryDb) :
  (w.commits result).log = w.log
  := by
  cases result <;> rfl

@[simp]
theorem DeliveryWorld.workers_withRest (w : DeliveryWorld δ) (rest : DeliveryDb) :
  (w.withRest rest).workers = w.workers
  := rfl

@[simp]
theorem DeliveryWorld.log_withRest (w : DeliveryWorld δ) (rest : DeliveryDb) :
  (w.withRest rest).log = w.log
  := rfl

/-- Only a claim, an operator's action and a preparation change the copies and the log. -/
theorem DeliveryWorld.step_others
    (env : DeliveryEnv δ) (w : DeliveryWorld δ) (op : DeliveryOp δ) :
  (∃ owner, op = .claim owner)
    ∨ (∃ tenant id actor administrator action, op = .change tenant id actor administrator action)
    ∨ (∃ worker found, op = .prepare worker found)
    ∨ (w.step env op).workers = w.workers ∧ (w.step env op).log = w.log
  := by
  cases op with
  | claim owner => exact Or.inl ⟨owner, rfl⟩
  | change tenant id actor administrator action =>
      exact Or.inr (Or.inl ⟨tenant, id, actor, administrator, action, rfl⟩)
  | prepare worker found => exact Or.inr (Or.inr (Or.inl ⟨worker, found, rfl⟩))
  | claimRetirement | share | claimRevocation | finishRevocation | tick =>
      refine Or.inr (Or.inr (Or.inr ?_))
      dsimp only [DeliveryWorld.step]
      split
      · simp
      · simp
  | reserve | finish | bindOutbound =>
      refine Or.inr (Or.inr (Or.inr ?_))
      dsimp only [DeliveryWorld.step]
      split
      · simp
      · split
        · simp
        · simp
  | commit =>
      refine Or.inr (Or.inr (Or.inr ?_))
      dsimp only [DeliveryWorld.step]
      split
      · split
        · simp
        · simp
      · simp
  | failJob | routeProgress | revokeGrant | purgeGrants | trade | release | hold | surround =>
      exact Or.inr (Or.inr (Or.inr ⟨rfl, rfl⟩))
  | _ =>
      refine Or.inr (Or.inr (Or.inr ?_))
      exact ⟨DeliveryWorld.workers_commits w _, DeliveryWorld.log_commits w _⟩

/-- The next state of a job that was prepared is a later attempt. -/
theorem RowMoved.preparing
    (h : RowMoved may event r r') (hattempts : r'.job.attempts = r.job.attempts)
    (hpreparing : r'.job.state = .preparing) :
  r.job.state = .preparing
  := by
  cases h.change with
  | stay _ hstate => rwa [hstate] at hpreparing
  | stop _ _ hstate => simp [hpreparing] at hstate
  | prepared _ hstate => exact hstate
  | approve _ _ _ hstate => simp [hpreparing] at hstate
  | cancel _ _ hstate | suspend _ hstate | retire _ _ _ hstate | retired _ _ hstate =>
      cases hstate.symm.trans hpreparing
  | retry _ _ _ _ hsucc _ | claim _ _ _ hsucc _ _ | exhaust _ _ _ hsucc _ => omega

/-- A copy that is kept is kept as the jobs move, when the reservation is not for its job. -/
theorem DeliveryWorker.CopyOf.moved
    {worker : DeliveryWorker} (h : worker.CopyOf r) (hmoved : RowMoved may event r r')
    (hprepares : r.job.state = .preparing → r.job.manifest = none)
    (hreserve : worker.inspected = true → worker.job.attempts = r.job.attempts →
      ∀ bytes, ¬ may.reserve r bytes) :
  worker.CopyOf r'
  := by
  have hle := hmoved.attempts_le
  refine ⟨h.attempts.trans hle, h.tenant.trans hmoved.tenant.symm,
    h.received.trans hmoved.received.symm, h.importFrom.trans hmoved.importFrom.symm, ?_, ?_⟩
  · intro hsome
    rcases hmoved.manifest with heq | ⟨hpreparing, _⟩
    · rw [heq]
      exact h.manifest hsome
    · have hsome := h.manifest hsome
      rw [hprepares hpreparing] at hsome
      cases hsome
  · intro hsame
    have hattempts : r'.job.attempts = r.job.attempts := le_antisymm (hsame ▸ h.attempts) hle
    have hpresent := h.present (hsame.trans hattempts)
    refine ⟨hpresent.retryBase.trans (hmoved.retryBase hattempts).symm, ?_, ?_⟩
    · intro hpreparing
      exact hpresent.releasedAt (hmoved.preparing hattempts hpreparing)
    · intro hpreparing hinspected
      have hrow := hmoved.preparing hattempts hpreparing
      rcases hmoved.bytes with hbytes | ⟨bytes, _, hmay⟩ | ⟨hretired, _⟩ | ⟨_, hretried, _⟩
      · rw [hbytes]
        exact hpresent.snapshotBytes hrow hinspected
      · exact absurd hmay (hreserve hinspected (hsame.trans hattempts) bytes)
      · cases hretired.symm.trans hpreparing
      · exact absurd hattempts hretried

/-- A job that is prepared has no manifest yet. -/
theorem RowMoved.prepares_none
    (h : RowMoved may event r r')
    (hr : r.job.state = .preparing → r.job.manifest = none) (hpreparing : r'.job.state = .preparing) :
  r'.job.manifest = none
  := by
  rw [h.prepares hpreparing]
  cases h.change with
  | stay _ hstate => exact hr (hstate ▸ hpreparing)
  | stop _ _ hstate => simp [hpreparing] at hstate
  | prepared _ hstate => exact hr hstate
  | approve _ _ _ hstate => simp [hpreparing] at hstate
  | cancel _ _ hstate | suspend _ hstate | retire _ _ _ hstate | retired _ _ hstate
  | exhaust _ _ hstate =>
      cases hstate.symm.trans hpreparing
  | retry _ _ hstate => simp [hpreparing] at hstate
  | claim _ _ hstate =>
      rcases hstate with ⟨hexporting, _⟩ | ⟨_, hmanifest⟩
      · cases hexporting.symm.trans hpreparing
      · exact hmanifest

/-! ### The invariant -/

/-- What holds of every row. -/
structure JobRow.Good (r : JobRow) : Prop where
  prepares : r.job.state = .preparing → r.job.manifest = none
  unreleased : r.job.manifest = none → r.job.checks.releasedAt = none
  receivedBytes : r.job.received.isSome = true →
    r.job.checks.snapshotBytes = none ∨ r.job.checks.snapshotBytes = some 0
  receivedImport : r.job.received.isSome = true → r.job.request.importFrom = none

/-- Nothing is reserved for the files of a received job. -/
def Permits.Spares (may : Permits) : Prop :=
  ∀ r bytes, may.reserve r bytes → r.job.received = none

theorem RowMoved.good
    (h : RowMoved may event r r') (hr : r.Good) (hmay : may.Spares) :
  r'.Good
  := by
  constructor
  · exact h.prepares_none hr.prepares
  · intro hnone
    have hmanifest : r.job.manifest = none := by
      rcases h.manifest with heq | ⟨hpreparing, _⟩
      · exact heq.symm.trans hnone
      · exact hr.prepares hpreparing
    cases hreleased : r'.job.checks.releasedAt with
    | none => rfl
    | some _ =>
        rcases h.released (by rw [hreleased]; rfl) with hsome | ⟨hsome, _⟩
        · rw [hr.unreleased hmanifest] at hsome
          cases hsome
        · rw [hnone] at hsome
          cases hsome
  · intro hsome
    rw [h.received] at hsome
    rcases h.bytes with heq | ⟨bytes, _, hreserve⟩ | ⟨_, hzero⟩ | ⟨_, _, hnone⟩
    · rw [heq]
      exact hr.receivedBytes hsome
    · rw [hmay r bytes hreserve] at hsome
      cases hsome
    · exact Or.inr hzero
    · exact Or.inl hnone
  · intro hsome
    rw [h.received] at hsome
    rw [h.importFrom]
    exact hr.receivedImport hsome

/-- What holds in every state that a port reaches. -/
structure DeliveryWorld.Good (w : DeliveryWorld δ) : Prop where
  rows : ∀ row ∈ w.db.rest.jobs.rows, row.Good
  /-- What is noted is noted of a job. -/
  named : ∀ e ∈ w.log, ∃ row, w.db.rest.jobs.find? e.id = some row
  counted : ∀ row ∈ w.db.rest.jobs.rows, row.Counted w.log
  /-- No more claims were noted at any time. -/
  claims : ∀ log, log <:+ w.log → ∀ id, claimsSince id log ≤ 5
  owners : ∀ tenant owner, owner ≠ "" → w.db.rest.runningFor tenant owner ≤ 2
  copies : ∀ worker ∈ w.workers, w.db.rest.CopyKept worker
  /-- No two workers have claimed the same attempt. -/
  distinct : (w.workers.map fun worker => (worker.job.id, worker.job.attempts)).Nodup

theorem JobRow.Unclaimed.good {tables : Surroundings} {r : JobRow} (h : r.Unclaimed tables) :
  r.Good
  := by
  obtain ⟨tradeRoutes, hchecks⟩ := h.checks
  refine ⟨fun _ => h.manifest, ?_, ?_, h.importFrom⟩
  · intro _
    rw [hchecks]
    rfl
  · intro _
    rw [hchecks]
    exact Or.inl rfl

theorem DeliveryWorld.good_begin (tables : UploadDb δ Surroundings) (now : UInt64) :
  (DeliveryWorld.begin tables now).Good
  := by
  constructor
  · intro row hrow
    cases hrow
  · intro e he
    cases he
  · intro row hrow
    cases hrow
  · intro log hlog id
    cases List.suffix_nil.mp hlog
    exact Nat.zero_le 5
  · intro _ _ _
    exact Nat.zero_le 2
  · intro worker hworker
    cases hworker
  · exact List.nodup_nil

/-- A worker copies no files for a received job. -/
theorem DeliveryWorld.Good.spares (h : w.Good) (op : DeliveryOp δ) :
  (w.permits env op).Spares
  := by
  rintro r bytes ⟨worker, limit, claimed, _, hclaimed, ⟨_, hcopies⟩, hid, _, hrow, _⟩
  obtain ⟨row, hrow', hcopy⟩ := h.copies claimed (List.mem_of_getElem? hclaimed)
  rw [hid, hrow] at hrow'
  cases hrow'
  cases hreceived : r.job.received with
  | none => rfl
  | some received =>
      have hsome : r.job.received.isSome = true := by rw [hreceived]; rfl
      have himport := (h.rows r (Table.find?_eq_some.mp hrow).1).receivedImport hsome
      rcases hcopies with huses | himports
      · rw [Job.usesSnapshot, hcopy.received, hreceived] at huses
        cases huses
      · rw [hcopy.importFrom, himport] at himports
        cases himports

/-- A copy that has been inspected stays the one of its attempt. -/
theorem DeliveryWorld.Good.copy_moved
    (h : w.Good) {op : DeliveryOp δ} {db' : DeliveryDb}
    (hmoved : JobsMoved (w.permits env op) event w.db.rest.jobs db'.jobs)
    {worker : DeliveryWorker} (hworker : worker ∈ w.workers) :
  db'.CopyKept worker
  := by
  obtain ⟨row, hrow, hcopy⟩ := h.copies worker hworker
  obtain ⟨row', hrow', hmoved⟩ := hmoved.find? hrow
  refine ⟨row', hrow', hcopy.moved hmoved
    (h.rows row (Table.find?_eq_some.mp hrow).1).prepares ?_⟩
  rintro hinspected hattempts bytes ⟨k, limit, claimed, _, hclaimed, ⟨huninspected, _⟩, hid,
    hsame, _⟩
  -- Another worker of the attempt is the same one.
  have hkey : (claimed.job.id, claimed.job.attempts) = (worker.job.id, worker.job.attempts) := by
    rw [hid, hsame, hattempts, ← (Table.find?_eq_some.mp hrow).2]
  have hsame := List.inj_on_of_nodup_map h.distinct (List.mem_of_getElem? hclaimed) hworker hkey
  rw [hsame, hinspected] at huninspected
  cases huninspected

/-- A worker's copy after an operation was there before, or agrees with its job. -/
theorem DeliveryWorld.Good.workers_step (h : w.Good) (op : DeliveryOp δ) :
  ∀ worker ∈ (w.step env op).workers,
    worker ∈ w.workers ∨ (w.step env op).db.rest.CopyKept worker
  := by
  intro worker hworker
  rcases DeliveryWorld.step_others env w op with
    ⟨owner, rfl⟩ | ⟨tenant, id, actor, administrator, action, rfl⟩ | ⟨k, found, rfl⟩
    | ⟨hworkers, _⟩
  · dsimp only [DeliveryWorld.step, DeliveryWorld.claim] at hworker ⊢
    split at hworker
    · exact Or.inl hworker
    · rename_i row rest hclaim
      split at hworker
      · rename_i hrunning
        rcases List.mem_append.mp hworker with hworker | hworker
        · exact Or.inl hworker
        · right
          rw [if_pos hrunning]
          cases List.mem_singleton.mp hworker
          obtain ⟨r, hr, _, rfl, rfl⟩ := DeliveryDb.claim_eq_some hclaim
          obtain ⟨state, attempts, updatedAt, error, hjob⟩ := (r.job.claimed_as w.now).same
          have houtcome := (r.job.claimed_as w.now).outcome
          rw [hjob] at hrunning houtcome ⊢
          refine ⟨_, DeliveryDb.find?_saveJob _ _, le_refl _, rfl, rfl, rfl,
            fun hsome => hsome, fun _ => ⟨rfl, ?_, ?_⟩⟩
          · intro hpreparing
            rcases houtcome with ⟨⟨hexporting, _⟩ | ⟨_, hmanifest⟩, _⟩ | hfailed
            · cases hexporting.symm.trans hpreparing
            · exact (h.rows r (Table.find?_eq_some.mp hr).1).unreleased hmanifest
            · cases hfailed.symm.trans hpreparing
          · intro _ hinspected
            cases hinspected
      · exact Or.inl hworker
  · dsimp only [DeliveryWorld.step, DeliveryWorld.change] at hworker
    split at hworker
    · exact Or.inl hworker
    · exact Or.inl hworker
  · dsimp only [DeliveryWorld.step, DeliveryWorld.prepare] at hworker ⊢
    split at hworker
    · exact Or.inl hworker
    · rename_i claimed hclaimed
      split at hworker
      · exact Or.inl hworker
      · rename_i row hrow
        rcases List.mem_or_eq_of_mem_set hworker with hworker | rfl
        · exact Or.inl hworker
        · right
          obtain ⟨row', hrow', hcopy⟩ := h.copies claimed (List.mem_of_getElem? hclaimed)
          rw [hrow] at hrow'
          cases hrow'
          refine ⟨row, hrow, hcopy.attempts, hcopy.tenant, hcopy.received, hcopy.importFrom,
            hcopy.manifest, fun _ => ⟨rfl, ?_, fun _ _ => rfl⟩⟩
          intro hpreparing
          have hgood := h.rows row (Table.find?_eq_some.mp hrow).1
          exact hgood.unreleased (hgood.prepares hpreparing)
  · rw [hworkers] at hworker
    exact Or.inl hworker

/-- A worker's claim is of an attempt that no other has claimed. -/
theorem DeliveryWorld.Good.distinct_step (h : w.Good) (op : DeliveryOp δ) :
  ((w.step env op).workers.map fun worker => (worker.job.id, worker.job.attempts)).Nodup
  := by
  rcases DeliveryWorld.step_others env w op with
    ⟨owner, rfl⟩ | ⟨tenant, id, actor, administrator, action, rfl⟩ | ⟨k, found, rfl⟩
    | ⟨hworkers, _⟩
  · dsimp only [DeliveryWorld.step, DeliveryWorld.claim]
    split
    · exact h.distinct
    · rename_i row rest hclaim
      split
      · obtain ⟨r, hr, _, rfl, rfl⟩ := DeliveryDb.claim_eq_some hclaim
        obtain ⟨state, attempts, updatedAt, error, hjob⟩ := (r.job.claimed_as w.now).same
        have hattempts := (r.job.claimed_as w.now).attempts
        rw [List.map_append, List.nodup_append]
        refine ⟨h.distinct, List.nodup_singleton _, ?_⟩
        intro key hkey key' hkey' heq
        obtain ⟨worker, hworker, rfl⟩ := List.mem_map.mp hkey
        obtain ⟨_, hmem, rfl⟩ := List.mem_map.mp hkey'
        cases List.mem_singleton.mp hmem
        obtain ⟨hid, hsame⟩ := Prod.mk.inj heq
        obtain ⟨row, hrow, hcopy⟩ := h.copies worker hworker
        dsimp only at hid hsame
        rw [hjob] at hid
        have hid : worker.job.id = r.id := hid
        rw [hid, hr] at hrow
        cases hrow
        have hle := hcopy.attempts
        omega
      · exact h.distinct
  · dsimp only [DeliveryWorld.step, DeliveryWorld.change]
    split
    · exact h.distinct
    · exact h.distinct
  · dsimp only [DeliveryWorld.step, DeliveryWorld.prepare]
    split
    · exact h.distinct
    · rename_i claimed hclaimed
      split
      · exact h.distinct
      · have hset : (w.workers.map fun worker => (worker.job.id, worker.job.attempts)).set k
            (claimed.job.id, claimed.job.attempts)
            = w.workers.map fun worker => (worker.job.id, worker.job.attempts) := by
          obtain ⟨hlt, hget⟩ := List.getElem?_eq_some_iff.mp hclaimed
          have hlt' : k < (w.workers.map fun worker =>
              (worker.job.id, worker.job.attempts)).length := by
            rw [List.length_map]
            exact hlt
          have hkey : (w.workers.map fun worker =>
              (worker.job.id, worker.job.attempts))[k] = (claimed.job.id, claimed.job.attempts) := by
            rw [List.getElem_map, hget]
          rw [← hkey, List.set_getElem_self hlt']
        rw [List.map_set, hset]
        exact h.distinct
  · rw [hworkers]
    exact h.distinct

/-- No owner runs more than two jobs of a tenant after an operation. -/
theorem DeliveryWorld.Good.owners_step (h : w.Good) (op : DeliveryOp δ) :
  ∀ tenant owner, owner ≠ "" → (w.step env op).db.rest.runningFor tenant owner ≤ 2
  := by
  intro tenant owner howner
  obtain ⟨event, hlog, hmoved⟩ := DeliveryWorld.step_moved env h.copies op
  rcases DeliveryWorld.step_others env w op with
    ⟨claimer, rfl⟩ | ⟨_, id, _, _, action, rfl⟩ | ⟨_, _, rfl⟩ | ⟨_, hkept⟩
  · dsimp only [DeliveryWorld.step, DeliveryWorld.claim]
    split
    · exact h.owners tenant owner howner
    · rename_i row rest hclaim
      have hle := DeliveryDb.runningFor_claim hclaim (h.owners tenant owner howner)
      split
      · exact hle
      · exact hle
  · refine (hmoved.runningFor_le ?_ tenant howner).trans (h.owners tenant owner howner)
    rintro id' rfl
    dsimp only [DeliveryWorld.step, DeliveryWorld.change] at hlog
    split at hlog
    · simp at hlog
    · split at hlog
      · simp at hlog
      · simp at hlog
  · refine (hmoved.runningFor_le ?_ tenant howner).trans (h.owners tenant owner howner)
    rintro id' rfl
    dsimp only [DeliveryWorld.step, DeliveryWorld.prepare] at hlog
    split at hlog
    · simp at hlog
    · split at hlog
      · simp at hlog
      · simp at hlog
  · refine (hmoved.runningFor_le ?_ tenant howner).trans (h.owners tenant owner howner)
    rintro id' rfl
    simp [hkept] at hlog

theorem DeliveryWorld.Good.step (h : w.Good) (op : DeliveryOp δ) :
  (w.step env op).Good
  := by
  obtain ⟨event, hlog, hmoved⟩ := DeliveryWorld.step_moved env h.copies op
  have hfound : ∀ id row, w.db.rest.jobs.find? id = some row →
      ∃ row', (w.step env op).db.rest.jobs.find? id = some row' := by
    intro id row hrow
    obtain ⟨row', hrow', _⟩ := hmoved.find? hrow
    exact ⟨row', hrow'⟩
  constructor
  · intro r' hr'
    rcases hmoved.origin r' hr' with ⟨r, hr, hrow⟩ | hinserted
    · exact hrow.good (h.rows r hr) (h.spares op)
    · exact hinserted.good
  · intro e he
    rw [hlog, List.mem_append, Option.mem_toList] at he
    rcases he with he | he
    · obtain ⟨r, hr, hid⟩ := hmoved.event e he
      exact hfound e.id r (Table.find?_eq_some.mpr ⟨hr, hid⟩)
    · obtain ⟨row, hrow⟩ := h.named e he
      exact hfound e.id row hrow
  · intro r' hr'
    rw [hlog]
    rcases hmoved.origin r' hr' with ⟨r, hr, hmoved⟩ | hinserted
    · exact hmoved.counted (h.counted r hr)
    · -- Nothing was noted of a job that is new.
      have hzero : claimsSince r'.id (event.toList ++ w.log) = 0 := by
        apply claimsSince_eq_zero
        rintro e he heq
        rw [List.mem_append, Option.mem_toList] at he
        rcases he with he | he
        · obtain ⟨r, hr, hid⟩ := hmoved.event e he
          exact Table.find?_eq_none.mp hinserted.absent r hr (hid.trans heq)
        · obtain ⟨row, hrow⟩ := h.named e he
          rw [heq, hinserted.absent] at hrow
          cases hrow
      obtain ⟨tradeRoutes, hchecks⟩ := hinserted.checks
      rw [JobRow.Counted, hzero, hchecks, hinserted.attempts]
      exact Nat.le_refl 0
  · rw [hlog]
    intro log hsuffix id
    cases event with
    | none => exact h.claims log hsuffix id
    | some e =>
        rcases List.suffix_cons_iff.mp hsuffix with rfl | hsuffix
        · have hlimit := h.claims w.log (List.suffix_refl _) id
          by_cases hid : e.id = id
          · obtain ⟨r, hr, hrid⟩ := hmoved.event e rfl
            obtain ⟨r', _, hrow⟩ := hmoved.moved r hr
            have hrid : r.id = id := hrid.trans hid
            rw [← hrid] at hlimit ⊢
            exact hrow.claims_le (h.counted r hr) hlimit
          · exact (claimsSince_cons_of_ne hid w.log).trans_le hlimit
        · exact h.claims log hsuffix id
  · exact h.owners_step op
  · intro worker hworker
    rcases h.workers_step op worker hworker with hworker | hkept
    · exact h.copy_moved hmoved hworker
    · exact hkept
  · exact h.distinct_step op

/-- The invariant holds after any operations. -/
theorem DeliveryWorld.Good.run (h : w.Good) (ops : List (DeliveryOp δ)) :
  (w.run env ops).Good
  := List.foldlRecOn ops _ h fun _ h op _ => h.step op

/-! ### Operations that come too late -/

/-- The job runs at this attempt. -/
def DeliveryDb.RunsAt (db : DeliveryDb) (id : String) (attempt : Nat) : Prop :=
  ∃ row, db.jobs.find? id = some row ∧ row.job.state.running ∧ row.job.attempts = attempt

/-- The attempt of the job is over. -/
def DeliveryDb.Passed (db : DeliveryDb) (id : String) (attempt : Nat) : Prop :=
  ∃ row, db.jobs.find? id = some row
    ∧ (attempt < row.job.attempts ∨ row.job.state.stopped)

theorem DeliveryDb.Passed.not_runs
    {db : DeliveryDb} {id : String} {attempt : Nat} (h : db.Passed id attempt) :
  ¬ db.RunsAt id attempt
  := by
  rintro ⟨row', hrow', hrunning, hattempts⟩
  obtain ⟨row, hrow, hpassed⟩ := h
  rw [hrow] at hrow'
  cases hrow'
  rcases hpassed with hlt | hstopped
  · omega
  · exact hstopped.not_running hrunning

theorem DeliveryWorld.commits_of_error
    {ε : Type} {result : Except ε DeliveryDb} (h : ∀ rest, result ≠ .ok rest) :
  w.commits result = w
  := by
  cases result with
  | error e => rfl
  | ok rest => exact absurd rfl (h rest)

/-- An operation that carries an attempt at which the job does not run changes nothing. -/
theorem DeliveryWorld.step_stale
    {op : DeliveryOp δ} {id : String} {attempt : Nat}
    (hcarries : w.carries op = some (id, attempt)) (hstale : ¬ w.db.rest.RunsAt id attempt) :
  (w.step env op).db = w.db
  := by
  cases op with
  | reserve worker bytes limit =>
      obtain ⟨claimed, hclaimed, hpair⟩ := Option.map_eq_some_iff.mp hcarries
      cases hpair
      dsimp only [DeliveryWorld.step]
      rw [hclaimed]
      dsimp only
      rw [DeliveryWorld.commits_of_error, ite_self]
      intro rest h
      obtain ⟨row, hrow, hstate, hattempts, _⟩ := DeliveryDb.reserve_eq_ok h
      exact hstale ⟨row, hrow, Or.inl hstate, hattempts⟩
  | finish worker grant manifest =>
      obtain ⟨claimed, hclaimed, hpair⟩ := Option.map_eq_some_iff.mp hcarries
      cases hpair
      dsimp only [DeliveryWorld.step]
      rw [hclaimed]
      dsimp only
      rw [DeliveryWorld.commits_of_error, ite_self]
      intro rest h
      obtain ⟨_, rest', grants, hfinish, _, _⟩ := addOutboundGrant_eq_ok h
      obtain ⟨row, _, _, hrow, hstate, hattempts, _⟩ := DeliveryDb.finishJob_eq_ok hfinish
      exact hstale ⟨row, hrow, Or.inl hstate, hattempts⟩
  | completeExport =>
      cases hcarries
      dsimp only [DeliveryWorld.step]
      rw [DeliveryWorld.commits_of_error]
      intro rest h
      obtain ⟨row, _, _, hexport, _⟩ := DeliveryDb.complete_eq_ok h
      obtain ⟨hrow, hstate, hattempts, _⟩ := DeliveryDb.exportIn_eq_ok hexport
      exact hstale ⟨row, hrow, Or.inr hstate, hattempts⟩
  | failDestination =>
      cases hcarries
      dsimp only [DeliveryWorld.step]
      rw [DeliveryWorld.commits_of_error]
      intro rest h
      obtain ⟨row, hexport, _⟩ := DeliveryDb.failDestination_eq_ok h
      obtain ⟨hrow, hstate, hattempts, _⟩ := DeliveryDb.exportIn_eq_ok hexport
      exact hstale ⟨row, hrow, Or.inr hstate, hattempts⟩
  | failJob =>
      cases hcarries
      dsimp only [DeliveryWorld.step]
      rw [DeliveryDb.failDeliveryJob]
      split
      · rfl
      · rename_i row hrow
        rw [if_pos]
        · rfl
        · by_contra hruns
          obtain ⟨hrunning, hattempts⟩ := not_or.mp hruns
          exact hstale ⟨row, hrow, not_not.mp hrunning, not_not.mp hattempts⟩
  | routeProgress =>
      cases hcarries
      dsimp only [DeliveryWorld.step]
      rw [DeliveryDb.routeProgress]
      cases hupdate : w.db.rest.updateExporting id attempt _ with
      | none => rfl
      | some rest =>
          obtain ⟨row, hrow, hstate, hattempts, _⟩ := DeliveryDb.updateExporting_eq_some hupdate
          exact absurd ⟨row, hrow, Or.inr hstate, hattempts⟩ hstale
  | recordReceipt =>
      cases hcarries
      dsimp only [DeliveryWorld.step]
      rw [DeliveryWorld.commits_of_error]
      intro rest h
      obtain ⟨row, hrow, hstate, hattempts, _⟩ :=
        DeliveryDb.updateExporting_eq_some (Fallible.present_eq_ok.mp h)
      exact hstale ⟨row, hrow, Or.inr hstate, hattempts⟩
  | _ => cases hcarries

/-! ### Runs -/

/-- What every operation keeps of a row. -/
structure JobRow.Later (r r' : JobRow) : Prop where
  attempts : r.job.attempts ≤ r'.job.attempts
  stopped : r.job.state.stopped → r'.job.state.stopped

/-- Every job is kept after any operations. -/
theorem DeliveryWorld.Good.later_run
    (h : w.Good) (env : DeliveryEnv δ) (ops : List (DeliveryOp δ)) {id : String} {row : JobRow}
    (hrow : w.db.rest.jobs.find? id = some row) :
  ∃ row', (w.run env ops).db.rest.jobs.find? id = some row' ∧ row.Later row'
  := by
  refine (List.foldlRecOn (motive := fun w' : DeliveryWorld δ => w'.Good
      ∧ ∃ row', w'.db.rest.jobs.find? id = some row' ∧ row.Later row') ops _ ⟨h, row, hrow,
    le_refl _, fun hs => hs⟩ ?_).2
  rintro w' ⟨hgood, row', hrow', hlater⟩ op _
  obtain ⟨_, _, hmoved⟩ := DeliveryWorld.step_moved env hgood.copies op
  obtain ⟨row'', hrow'', hmoved⟩ := hmoved.find? hrow'
  refine ⟨hgood.step op, row'', hrow'', hlater.attempts.trans hmoved.attempts_le, ?_⟩
  intro hs
  exact hmoved.stopped (hlater.stopped hs)

/-- An attempt that is over stays so. -/
theorem DeliveryWorld.Good.passed_run
    (h : w.Good) (ops : List (DeliveryOp δ)) {id : String} {attempt : Nat}
    (hpassed : w.db.rest.Passed id attempt) :
  (w.run env ops).db.rest.Passed id attempt
  := by
  obtain ⟨row, hrow, hover⟩ := hpassed
  obtain ⟨row', hrow', hlater⟩ := h.later_run env ops hrow
  refine ⟨row', hrow', ?_⟩
  rcases hover with hlt | hstopped
  · exact Or.inl (hlt.trans_le hlater.attempts)
  · exact Or.inr (hlater.stopped hstopped)

/-- The jobs of a port are fenced, whatever comes next. -/
structure DeliveryWorld.Fenced (env : DeliveryEnv δ) (w : DeliveryWorld δ) : Prop where
  /-- The number of the attempt never goes down. -/
  attempts : ∀ ops id row, w.db.rest.jobs.find? id = some row →
    ∃ row', (w.run env ops).db.rest.jobs.find? id = some row'
      ∧ row.job.attempts ≤ row'.job.attempts
  /-- A worker's operation changes nothing unless the job runs at its attempt. -/
  worker : ∀ op id attempt, w.carries op = some (id, attempt) →
    ¬ w.db.rest.RunsAt id attempt → (w.step env op).db = w.db
  /-- A claim or a retry of a job is over its attempts before. -/
  supersedes : ∀ op id row e, w.db.rest.jobs.find? id = some row →
    (w.step env op).log = e :: w.log → e.id = id →
      (w.step env op).db.rest.Passed id row.job.attempts
  /-- What carries an attempt that is over changes nothing any more. -/
  superseded : ∀ ops op id attempt, w.db.rest.Passed id attempt →
    (w.run env ops).carries op = some (id, attempt) →
      ((w.run env ops).step env op).db = (w.run env ops).db
  /-- A job that was cancelled, is retiring or has retired never runs again. -/
  stopped : ∀ ops id row, w.db.rest.jobs.find? id = some row → row.job.state.stopped →
    ∃ row', (w.run env ops).db.rest.jobs.find? id = some row' ∧ row'.job.state.stopped
      ∧ ¬ row'.job.state.running
  /-- At most five claims are between two explicit retries. -/
  claims : ∀ id later between earlier, w.log = later ++ between ++ earlier →
    .retried id ∉ between → between.count (.claimed id) ≤ 5
  /-- A job that is claimed after five claims has failed. -/
  fails : ∀ owner row db, w.db.rest.claimDeliveryJob owner w.now = some (row, db) →
    claimsSince row.id w.log = 5 → row.job.state = .failed
  /-- No owner runs more than two jobs of a tenant. -/
  owners : ∀ tenant owner, owner ≠ "" → w.db.rest.runningFor tenant owner ≤ 2

theorem DeliveryWorld.Good.fails (h : w.Good)
    {owner : String} {row : JobRow} {db : DeliveryDb}
    (hclaim : w.db.rest.claimDeliveryJob owner w.now = some (row, db))
    (hfive : claimsSince row.id w.log = 5) :
  row.job.state = .failed
  := by
  obtain ⟨r, hr, _, rfl, _⟩ := DeliveryDb.claim_eq_some hclaim
  have hcounted := h.counted r (Table.find?_eq_some.mp hr).1
  have hid : (r.job.claimed w.now).id = r.id := by
    obtain ⟨_, _, _, _, hjob⟩ := (r.job.claimed_as w.now).same
    rw [hjob]
    rfl
  rw [JobRow.id, hid] at hfive
  rw [JobRow.Counted, hfive] at hcounted
  dsimp only
  rw [Job.claimed, if_pos]
  rw [retryAttempts]
  dsimp only [Job.nextAttempt]
  omega

/-- A port that follows the invariant is fenced. -/
theorem DeliveryWorld.Good.fenced (h : w.Good) :
  w.Fenced env
  := by
  constructor
  · intro ops id row hrow
    obtain ⟨row', hrow', hlater⟩ := h.later_run env ops hrow
    exact ⟨row', hrow', hlater.attempts⟩
  · intro op id attempt
    exact DeliveryWorld.step_stale
  · intro op id row e hrow hlog hid
    obtain ⟨event, hlog', hmoved⟩ := DeliveryWorld.step_moved env h.copies op
    rw [hlog] at hlog'
    have hevent : event = some e := by
      cases event with
      | none => simp at hlog'
      | some e' =>
          cases hlog'
          rfl
    obtain ⟨row', hrow', hmoved⟩ := hmoved.find? hrow
    exact ⟨row', hrow', Or.inl (hmoved.attempts_lt hevent
      (hid.trans (Table.find?_eq_some.mp hrow).2.symm))⟩
  · intro ops op id attempt hpassed hcarries
    exact DeliveryWorld.step_stale hcarries (h.passed_run ops hpassed).not_runs
  · intro ops id row hrow hstopped
    obtain ⟨row', hrow', hlater⟩ := h.later_run env ops hrow
    have hstopped := hlater.stopped hstopped
    exact ⟨row', hrow', hstopped, hstopped.not_running⟩
  · intro id later between earlier hlog hretried
    have hsuffix : between ++ earlier <:+ w.log := ⟨later, by rw [hlog, List.append_assoc]⟩
    exact (count_le_claimsSince hretried earlier).trans (h.claims _ hsuffix id)
  · intro owner row db
    exact h.fails
  · exact h.owners

/-- The jobs of a port are fenced in every state that it reaches. -/
theorem delivery_jobs_fenced
    (env : DeliveryEnv δ) (tables : UploadDb δ Surroundings) (now : UInt64)
    (ops : List (DeliveryOp δ)) :
  ((DeliveryWorld.begin tables now).run env ops).Fenced env
  := ((DeliveryWorld.good_begin tables now).run ops).fenced

end Votport
