import Votport.Delivery.Directories
import Votport.Delivery.Fencing

/-!
# The budget for the files of jobs

A worker reserves the bytes of a job's files before it copies them.  What the jobs of a
tenant have reserved stays within the limit of the tenant's last reservation, and what a job
has reserved stays until its retirement ends, or a worker that prepares the job reserves anew.
-/

namespace Votport

variable {δ : Type} {env : DeliveryEnv δ} {w : DeliveryWorld δ}

/-! ### What is reserved -/

/-- What the job has reserved counts against its tenant's budget. -/
def JobRow.spends (tenant : String) (r : JobRow) : Prop :=
  r.job.tenant = tenant ∧ r.job.state ≠ .suspended

instance (tenant : String) : DecidablePred (JobRow.spends tenant) :=
  fun _ => inferInstanceAs (Decidable (_ ∧ _))

/-- What the jobs of a tenant have reserved, but for those that are held. -/
def DeliveryDb.reserved (db : DeliveryDb) (tenant : String) : Nat :=
  ((db.jobs.filter (JobRow.spends tenant)).rows.map JobRow.snapshotBytes).sum

/-- The limit of a reservation for the tenant, none when the operation makes no such one. -/
def DeliveryWorld.limitOf (w : DeliveryWorld δ) (tenant : String) : DeliveryOp δ → Option UInt64
  | .reserve worker bytes limit =>
      match w.workers[worker]? with
      | none => none
      | some claimed =>
          if claimed.copies ∧ claimed.job.tenant = tenant
              ∧ (w.db.rest.reserveDeliverySnapshot claimed.job.id claimed.job.attempts bytes
                limit).isOk = true then
            some limit
          else none
  | _ => none

/-- The limit of the tenant's last reservation after some operations, when it was `limit`
before them. -/
def DeliveryWorld.lastLimit (env : DeliveryEnv δ) (tenant : String) :
    DeliveryWorld δ → Nat → List (DeliveryOp δ) → Nat
  | _, limit, [] => limit
  | w, limit, op :: ops =>
      lastLimit env tenant (w.step env op)
        (((w.limitOf tenant op).map UInt64.toNat).getD limit) ops

/-- The column mirrors the document, and nothing is reserved when the job has retired. -/
structure JobRow.Mirrored (r : JobRow) : Prop where
  column : r.snapshotBytes = r.job.checks.snapshotColumn
  retired : r.job.state = .retired → r.snapshotBytes = 0

/-! ### What a row keeps -/

variable {may : Permits} {event : Option JobEvent} {r r' : JobRow}

theorem Checks.snapshotColumn_congr
    {checks checks' : Checks} (h : checks.snapshotBytes = checks'.snapshotBytes) :
  checks.snapshotColumn = checks'.snapshotColumn
  := by
  rw [Checks.snapshotColumn, h, Checks.snapshotColumn]

theorem Checks.snapshotColumn_zero
    {checks : Checks} (h : checks.snapshotBytes = none ∨ checks.snapshotBytes = some 0) :
  checks.snapshotColumn = 0
  := by
  rcases h with h | h
  · rw [Checks.snapshotColumn, h]
  · rw [Checks.snapshotColumn, h]
    rfl

/-- A job that was not retired retires at the end of its retirement. -/
theorem RowMoved.retiring
    (h : RowMoved may event r r') (hretired : r'.job.state = .retired) :
  r.job.state = .retiring ∧ r'.job.checks.snapshotBytes = some 0 ∨ r.job.state = .retired
  := by
  cases h.change with
  | stay _ hstate => exact Or.inr (hstate ▸ hretired)
  | stop _ _ hstate => simp [hretired] at hstate
  | prepared _ _ hstate => simp [hretired] at hstate
  | approve _ _ _ hstate => simp [hretired] at hstate
  | cancel _ _ hstate | suspend _ hstate | retire _ _ _ hstate | exhaust _ _ hstate =>
      cases hstate.symm.trans hretired
  | retired _ hretiring _ _ _ hbytes => exact Or.inl ⟨hretiring, hbytes⟩
  | retry _ _ hstate => simp [hretired] at hstate
  | claim _ _ hstate => simp [hretired] at hstate

/-- A job that is held stays so. -/
theorem RowMoved.suspended (h : RowMoved may event r r') (hr : r.job.state = .suspended) :
  r'.job.state = .suspended
  := by
  cases h.change with
  | stay _ hstate => exact hstate.trans hr
  | stop _ hrunning => rcases hrunning with h | h <;> cases hr.symm.trans h
  | prepared _ hstate | approve _ _ hstate | retired _ hstate => cases hr.symm.trans hstate
  | cancel _ _ _ _ hsuspended | retire _ _ _ _ _ _ hsuspended => exact absurd hr hsuspended
  | suspend _ hstate => exact hstate
  | retry _ hfailed => rcases hfailed with h | h <;> cases hr.symm.trans h
  | claim _ hclaimable | exhaust _ hclaimable => simp [hr] at hclaimable

/-- What a job has reserved stays, but for another reservation, until it has retired. -/
theorem RowMoved.snapshotBytes
    (h : RowMoved may event r r') (hr : r.Mirrored) (hgood : r.Good) :
  r'.snapshotBytes = r.snapshotBytes
    ∨ (∃ bytes, may.reserve r bytes ∧ r'.job.checks.snapshotBytes = some bytes)
    ∨ r.job.state = .retiring ∧ r'.job.state = .retired ∧ r'.snapshotBytes = 0
  := by
  have hcolumn := h.column hr.column
  rcases h.bytes with hsame | ⟨bytes, hbytes, hreserve⟩ | ⟨hretired, hzero⟩
    | ⟨hreceived, _, hnone⟩
  · left
    rw [hcolumn, hr.column, Checks.snapshotColumn_congr hsame]
  · exact Or.inr (Or.inl ⟨bytes, hreserve, hbytes⟩)
  · have hzero := hcolumn.trans (Checks.snapshotColumn_zero (Or.inr hzero))
    rcases h.retiring hretired with ⟨hretiring, _⟩ | hbefore
    · exact Or.inr (Or.inr ⟨hretiring, hretired, hzero⟩)
    · exact Or.inl (hzero.trans (hr.retired hbefore).symm)
  · left
    rw [hcolumn, hr.column, Checks.snapshotColumn_zero (Or.inl hnone),
      Checks.snapshotColumn_zero (hgood.receivedBytes hreceived)]

/-- Reservations are for jobs that are prepared. -/
def Permits.Prepares (may : Permits) : Prop :=
  ∀ r bytes, may.reserve r bytes → r.job.state = .preparing

theorem RowMoved.mirrored
    (h : RowMoved may event r r') (hr : r.Mirrored) (hgood : r.Good) (hmay : may.Prepares) :
  r'.Mirrored
  := by
  refine ⟨h.column hr.column, ?_⟩
  intro hretired
  rcases h.retiring hretired with ⟨_, hzero⟩ | hbefore
  · exact (h.column hr.column).trans (Checks.snapshotColumn_zero (Or.inr hzero))
  · rcases h.snapshotBytes hr hgood with hsame | ⟨bytes, hreserve, _⟩ | ⟨_, _, hzero⟩
    · exact hsame.trans (hr.retired hbefore)
    · cases hbefore.symm.trans (hmay r bytes hreserve)
    · exact hzero

/-! ### The sum -/

/-- Nothing more is reserved for a tenant by an operation that reserves nothing for it. -/
theorem JobsMoved.reserved_le
    {db db' : DeliveryDb} (h : JobsMoved may event db.jobs db'.jobs)
    (hmirrored : ∀ r ∈ db.jobs.rows, r.Mirrored) (hgood : ∀ r ∈ db.jobs.rows, r.Good)
    {tenant : String} (hmay : ∀ r bytes, may.reserve r bytes → r.job.tenant ≠ tenant) :
  db'.reserved tenant ≤ db.reserved tenant
  := by
  apply Table.sum_le
  intro r' hr' hpositive
  obtain ⟨hr', htenant, hstate⟩ := Table.mem_filter.mp hr'
  rcases h.origin r' hr' with ⟨r, hr, hmoved⟩ | hinserted
  · have hmine : r.job.tenant = tenant := hmoved.tenant.symm.trans htenant
    refine ⟨r, Table.mem_filter.mpr ⟨hr, hmine, ?_⟩, hmoved.id.symm, ?_⟩
    · intro hsuspended
      exact hstate (hmoved.suspended hsuspended)
    · rcases hmoved.snapshotBytes (hmirrored r hr) (hgood r hr) with
        hsame | ⟨bytes, hreserve, _⟩ | ⟨_, _, hzero⟩
      · exact hsame.le
      · exact absurd hmine (hmay r bytes hreserve)
      · exact absurd hzero hpositive
  · exact absurd hinserted.snapshotBytes hpositive

/-- After a reservation the tenant's jobs have reserved what the others had, and its bytes. -/
theorem DeliveryDb.reserved_saveJob
    {db : DeliveryDb} {row : JobRow} {tenant : String} (hspends : row.spends tenant) :
  (db.saveJob row).reserved tenant
    = row.job.checks.snapshotColumn + db.reservedBeside tenant row.id
  := by
  have hothers : (db.jobs.erase row.id).rows.filter (JobRow.spends tenant)
      = db.jobs.rows.filter fun r => decide (r.job.tenant = tenant) && decide (r.id ≠ row.id)
        && decide (r.job.state ≠ .suspended) := by
    rw [Table.erase, Table.rows_filter, List.filter_filter]
    apply List.filter_congr
    intro r _
    rw [Bool.eq_iff_iff, Bool.and_eq_true, Bool.and_eq_true, Bool.and_eq_true, decide_eq_true_iff,
      decide_eq_true_iff, decide_eq_true_iff, decide_eq_true_iff, JobRow.spends]
    tauto
  have hmine : ∀ rows : List JobRow,
      (({ row with snapshotBytes := row.job.checks.snapshotColumn } : JobRow) :: rows).filter
          (JobRow.spends tenant)
        = { row with snapshotBytes := row.job.checks.snapshotColumn }
          :: rows.filter (JobRow.spends tenant) :=
    fun rows => List.filter_cons_of_pos (decide_eq_true hspends)
  rw [DeliveryDb.reserved, DeliveryDb.saveJob, Table.rows_filter, Table.rows_upsert, hmine,
    List.map_cons, List.sum_cons]
  exact congrArg (fun rows => row.job.checks.snapshotColumn + (rows.map JobRow.snapshotBytes).sum)
    hothers

/-- After a reservation the jobs of the tenant have reserved no more than its limit. -/
theorem DeliveryDb.reserved_reserve
    {db db' : DeliveryDb} {row : JobRow} {id : String} {attempt : Nat} {bytes limit : UInt64}
    (h : db.reserveDeliverySnapshot id attempt bytes limit = .ok db')
    (hrow : db.jobs.find? id = some row) :
  db'.reserved row.job.tenant ≤ limit.toNat
  := by
  obtain ⟨row', hrow', hpreparing, _, hlimit, rfl⟩ := DeliveryDb.reserve_eq_ok h
  rw [hrow] at hrow'
  cases hrow'
  have hid : row.id = id := (Table.find?_eq_some.mp hrow).2
  have hspends : JobRow.spends row.job.tenant { row with
      job := { row.job with checks := { row.job.checks with snapshotBytes := some bytes } } } := by
    refine ⟨rfl, ?_⟩
    dsimp only
    rw [hpreparing]
    decide
  have hcolumn : Checks.snapshotColumn { row.job.checks with snapshotBytes := some bytes }
      = bytes.toNat := if_pos (by omega)
  calc
    _ = Checks.snapshotColumn { row.job.checks with snapshotBytes := some bytes }
        + db.reservedBeside row.job.tenant row.id := DeliveryDb.reserved_saveJob hspends
    _ = db.reservedBeside row.job.tenant id + bytes.toNat := by rw [hcolumn, hid, Nat.add_comm]
    _ ≤ limit.toNat := hlimit.trans (min_le_left _ _)

/-- A reservation within the limit is made. -/
theorem DeliveryDb.reserve_of_limit
    {db : DeliveryDb} {row : JobRow} {id : String} {attempt : Nat} {bytes limit : UInt64}
    (hrow : db.jobs.find? id = some row) (hstate : row.job.state = .preparing)
    (hattempts : row.job.attempts = attempt)
    (hlimit : db.reservedBeside row.job.tenant id + bytes.toNat ≤ min limit.toNat i64Max) :
  db.reserveDeliverySnapshot id attempt bytes limit = .ok (db.saveJob { row with
    job := { row.job with checks := { row.job.checks with snapshotBytes := some bytes } } })
  := by
  rw [DeliveryDb.reserveDeliverySnapshot]
  refine Fallible.bind_eq_ok.mpr ⟨row, Fallible.present_eq_ok.mpr hrow, ?_⟩
  refine Fallible.bind_eq_ok.mpr ⟨(), Fallible.require_eq_ok.mpr ⟨hstate, hattempts⟩, ?_⟩
  exact Fallible.bind_eq_ok.mpr ⟨(), Fallible.require_eq_ok.mpr hlimit, rfl⟩

/-! ### Steps -/

/-- A reservation that the operation permits for a job of the tenant is one that it makes. -/
theorem DeliveryWorld.Good.limitOf
    (h : w.Good) {op : DeliveryOp δ} {bytes : UInt64} (hmay : (w.permits env op).reserve r bytes) :
  (w.limitOf r.job.tenant op).isSome = true
  := by
  obtain ⟨worker, limit, claimed, rfl, hclaimed, hcopies, hid, hattempts, hrow, hpreparing,
    hlimit⟩ := hmay
  obtain ⟨row, hrow', hcopy⟩ := h.copies claimed (List.mem_of_getElem? hclaimed)
  rw [hid, hrow] at hrow'
  cases hrow'
  have hok := DeliveryDb.reserve_of_limit hrow hpreparing hattempts.symm hlimit
  rw [DeliveryWorld.limitOf, hclaimed]
  dsimp only
  rw [if_pos]
  · rfl
  · refine ⟨hcopies, hcopy.tenant, ?_⟩
    rw [hid, hok]
    rfl

/-- The jobs of a tenant have reserved no more than the limit of the tenant's last reservation. -/
theorem DeliveryWorld.Good.reserved_step
    (h : w.Good) (hmirrored : ∀ r ∈ w.db.rest.jobs.rows, r.Mirrored) (op : DeliveryOp δ)
    {tenant : String} {limit : Nat} (hle : w.db.rest.reserved tenant ≤ limit) :
  (w.step env op).db.rest.reserved tenant
    ≤ ((w.limitOf tenant op).map UInt64.toNat).getD limit
  := by
  cases hlimit : w.limitOf tenant op with
  | none =>
      obtain ⟨event, _, hmoved⟩ := DeliveryWorld.step_moved env h.copies op
      refine (hmoved.reserved_le hmirrored h.rows ?_).trans hle
      rintro r bytes hmay rfl
      have hsome := h.limitOf hmay
      rw [hlimit] at hsome
      cases hsome
  | some limit' =>
      cases op with
      | reserve worker bytes bound =>
          dsimp only [DeliveryWorld.limitOf] at hlimit
          split at hlimit
          · cases hlimit
          · rename_i claimed hclaimed
            split_ifs at hlimit with hmakes
            cases hlimit
            obtain ⟨hcopies, htenant, hok⟩ := hmakes
            dsimp only [DeliveryWorld.step]
            rw [hclaimed]
            dsimp only
            rw [if_pos hcopies]
            cases hresult : w.db.rest.reserveDeliverySnapshot claimed.job.id claimed.job.attempts
                bytes limit' with
            | error e =>
                rw [hresult] at hok
                cases hok
            | ok rest =>
                obtain ⟨row, hrow, hcopy⟩ := h.copies claimed (List.mem_of_getElem? hclaimed)
                have hmine : row.job.tenant = tenant := hcopy.tenant.symm.trans htenant
                rw [← hmine]
                exact DeliveryDb.reserved_reserve hresult hrow
      | _ => cases hlimit

theorem DeliveryWorld.Good.mirrored_step
    (h : w.Good) (hmirrored : ∀ r ∈ w.db.rest.jobs.rows, r.Mirrored) (op : DeliveryOp δ) :
  ∀ r ∈ (w.step env op).db.rest.jobs.rows, r.Mirrored
  := by
  intro r' hr'
  obtain ⟨event, _, hmoved⟩ := DeliveryWorld.step_moved env h.copies op
  rcases hmoved.origin r' hr' with ⟨r, hr, hmoved⟩ | hinserted
  · apply hmoved.mirrored (hmirrored r hr) (h.rows r hr)
    rintro s bytes ⟨_, _, _, _, _, _, _, _, _, hpreparing, _⟩
    exact hpreparing
  · obtain ⟨tradeRoutes, hchecks⟩ := hinserted.checks
    refine ⟨?_, fun _ => hinserted.snapshotBytes⟩
    rw [hinserted.snapshotBytes, hchecks]
    rfl

/-! ### Runs -/

/-- The budget holds in a state. -/
structure DeliveryWorld.Budgeted (env : DeliveryEnv δ) (w : DeliveryWorld δ)
    (lastLimit : String → Nat) : Prop where
  /-- The column of every job mirrors its document. -/
  column : ∀ row ∈ w.db.rest.jobs.rows, row.snapshotBytes = row.job.checks.snapshotColumn
  /-- What a tenant's jobs have reserved is within the limit of the last reservation. -/
  reserved : ∀ tenant, w.db.rest.reserved tenant ≤ lastLimit tenant
  /-- What a job has reserved stays, unless a worker that prepares the job at its attempt reserves
  anew, until the retirement of the job completes. -/
  kept : ∀ op id row, w.db.rest.jobs.find? id = some row →
    ∃ row', (w.step env op).db.rest.jobs.find? id = some row'
      ∧ (row'.snapshotBytes = row.snapshotBytes
        ∨ (∃ worker bytes limit claimed, op = .reserve worker bytes limit
          ∧ w.workers[worker]? = some claimed ∧ claimed.job.id = id
          ∧ claimed.job.attempts = row.job.attempts ∧ row.job.state = .preparing
          ∧ row'.job.checks.snapshotBytes = some bytes)
        ∨ row.job.state = .retiring ∧ row'.job.state = .retired ∧ row'.snapshotBytes = 0)

theorem DeliveryWorld.Good.budgeted_run
    (h : w.Good) (hmirrored : ∀ r ∈ w.db.rest.jobs.rows, r.Mirrored) (ops : List (DeliveryOp δ))
    {limits : String → Nat} (hle : ∀ tenant, w.db.rest.reserved tenant ≤ limits tenant) :
  (w.run env ops).Budgeted env fun tenant =>
    DeliveryWorld.lastLimit env tenant w (limits tenant) ops
  := by
  induction ops generalizing w limits with
  | nil =>
      refine ⟨fun row hrow => (hmirrored row hrow).column, hle, ?_⟩
      intro op id row hrow
      obtain ⟨event, _, hmoved⟩ := DeliveryWorld.step_moved env h.copies op
      obtain ⟨row', hrow', hmoved⟩ := hmoved.find? hrow
      obtain ⟨hmem, hid⟩ := Table.find?_eq_some.mp hrow
      refine ⟨row', hrow', ?_⟩
      rcases hmoved.snapshotBytes (hmirrored row hmem) (h.rows row hmem) with
        hsame | ⟨bytes, ⟨worker, limit, claimed, hop, hclaimed, _, hjob, hattempts, _, hpreparing,
          _⟩, hbytes⟩ | hretires
      · exact Or.inl hsame
      · exact Or.inr (Or.inl ⟨worker, bytes, limit, claimed, hop, hclaimed, hjob.trans hid,
          hattempts, hpreparing, hbytes⟩)
      · exact Or.inr (Or.inr hretires)
  | cons op ops ih =>
      apply ih (h.step op) (h.mirrored_step hmirrored op)
      intro tenant
      exact h.reserved_step hmirrored op (hle tenant)

/-- The files of jobs are within their budget in every state that a port reaches. -/
theorem snapshots_budgeted
    (env : DeliveryEnv δ) (tables : UploadDb δ Surroundings) (now : UInt64)
    (ops : List (DeliveryOp δ)) :
  ((DeliveryWorld.begin tables now).run env ops).Budgeted env fun tenant =>
    DeliveryWorld.lastLimit env tenant (DeliveryWorld.begin tables now) 0 ops
  := by
  apply (DeliveryWorld.good_begin tables now).budgeted_run
  · intro row hrow
    cases hrow
  · intro tenant
    exact Nat.le_refl 0

/-- A request for files of a storage. -/
def importRequest : JobRequest where
  notifications := none
  operationId := "operation"
  projectId := "street"
  label := "Street"
  metadata := ⟨[], Metadata.sorted_nil⟩
  recipients := []
  notBefore := none
  deadline := none
  expiresDays := 30
  importFrom := some ⟨"bucket", "in"⟩

/-- A job fails after it has reserved a hundred bytes, and is prepared again: its source is smaller
then. -/
def reservesAgain : List (DeliveryOp UploadRecord) := [
  .saveProject "" streetProject,
  .enqueue "job" "" "local" 1 none { streetProject with revision := 1 } importRequest,
  .claim "worker", .reserve 0 100 1000, .failJob "job" 1 "source went away",
  .change "" "job" "local" true .retry, .claim "worker", .reserve 1 40 1000]

/-- The state of the job, and what it has reserved, after the first operations. -/
def reservedAfter (n : Nat) : Option (JobState × Nat) :=
  (((DeliveryWorld.begin emptyPort 0).run letterEnv (reservesAgain.take n)).db.rest.jobs.find?
    "job").map fun row => (row.job.state, row.snapshotBytes)

/-- What a job has reserved goes down while the job is prepared, without a retirement. -/
theorem reserved_dropped :
  reservedAfter 4 = some (.preparing, 100) ∧ reservedAfter 7 = some (.preparing, 100)
    ∧ reservedAfter 8 = some (.preparing, 40)
  := by decide +kernel

end Votport
