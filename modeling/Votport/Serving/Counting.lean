import Votport.Serving.Leases

/-!
# Counted retrievals

Where each claim with a lease finds room for the record that it spawns, and nothing else takes
that room before the record has run, the records of leases and the count of their file keep
within the limit together; no record of a lease is refused, every counted lease has its record,
and the leases that complete a file are at most as many as its downloads may be.
-/

namespace Votport

/-! ### Leases and their counts -/

theorem mem_retainLeases {counted : List Lease} {now : ℕ} {lease : Lease} :
  lease ∈ retainLeases counted now
    ↔ lease ∈ counted ∧ (countedLeasesCap ≤ counted.length → now < lease.expires)
  := by
  rw [retainLeases]
  split_ifs with hcap
  · simp [hcap]
  · simp [hcap]

/-- The records of the file. -/
def LeaseWorld.pendingAt (w : LeaseWorld) (index : ℕ) : ℕ :=
  w.pending.countP (fun p => p.index = index)

/-- The downloads of the file that were recorded. -/
def LeaseWorld.recordedAt (w : LeaseWorld) (index : ℕ) : ℕ :=
  w.recorded.countP (fun p => p.index = index)

/-- The records of both kinds. -/
def LeaseWorld.records (w : LeaseWorld) : List CountRecord := w.pending ++ w.recorded

/-- A record of a lease of the file has been spawned and has not run. -/
def LeaseWorld.Owes (w : LeaseWorld) (index : ℕ) : Prop :=
  ∃ p ∈ w.pending, p.index = index ∧ p.lease ≠ none

instance LeaseWorld.decidableOwes (w : LeaseWorld) (index : ℕ) : Decidable (w.Owes index) :=
  inferInstanceAs (Decidable (∃ p ∈ w.pending, _ ∧ _))

/-- The count of the file is below its limit. -/
def LeaseWorld.Below (w : LeaseWorld) (index : ℕ) : Prop :=
  ∀ grant ∈ w.db.grants.find? w.id, ∀ m ∈ grant.maxDownloads,
    ∀ f ∈ w.db.files.rows, f.grantId = w.id → f.fileIndex = index → f.downloads < m

instance LeaseWorld.decidableBelow (w : LeaseWorld) (index : ℕ) : Decidable (w.Below index) :=
  inferInstanceAs (Decidable (∀ grant ∈ w.db.grants.find? w.id, ∀ m ∈ grant.maxDownloads,
    ∀ f ∈ w.db.files.rows, f.grantId = w.id → f.fileIndex = index → f.downloads < m))

/-- There is room for a further record of the file. -/
def LeaseWorld.Room (w : LeaseWorld) (index : ℕ) : Prop :=
  ∀ grant ∈ w.db.grants.find? w.id, ∀ m ∈ grant.maxDownloads,
    ∀ f ∈ w.db.files.rows, f.grantId = w.id → f.fileIndex = index →
      f.downloads + w.pendingAt index < m

instance LeaseWorld.decidableRoom (w : LeaseWorld) (index : ℕ) : Decidable (w.Room index) :=
  inferInstanceAs (Decidable (∀ grant ∈ w.db.grants.find? w.id, ∀ m ∈ grant.maxDownloads,
    ∀ f ∈ w.db.files.rows, f.grantId = w.id → f.fileIndex = index →
      f.downloads + w.pendingAt index < m))

/-- A further download of the file takes no place that a record of a lease waits for. -/
def LeaseWorld.Spares (w : LeaseWorld) (index : ℕ) : Prop := w.Owes index → w.Room index

instance LeaseWorld.decidableSpares (w : LeaseWorld) (index : ℕ) : Decidable (w.Spares index) :=
  inferInstanceAs (Decidable (w.Owes index → w.Room index))

/-- The retrieval may still claim its count. -/
def Retrieval.Active (r : Retrieval) : Prop :=
  r.stage = .opened ∨ r.stage = .streaming ∧ r.remaining.isSome = true

instance Retrieval.decidableActive (r : Retrieval) : Decidable r.Active :=
  inferInstanceAs (Decidable (_ ∨ _ ∧ _))

/-- The lease has expired, and no retrieval with it may still claim its count. -/
def LeaseWorld.Retired (w : LeaseWorld) (lease : Lease) : Prop :=
  lease.expires ≤ w.clock
    ∧ ∀ r ∈ w.retrievals.rows, r.lease = some (.file lease) → ¬ r.Active

instance LeaseWorld.decidableRetired (w : LeaseWorld) (lease : Lease) : Decidable (w.Retired lease) :=
  inferInstanceAs (Decidable (_ ∧ ∀ r ∈ w.retrievals.rows, _ → ¬ r.Active))

/-- A claim in this world forgets no lease of a retrieval in flight. -/
def LeaseWorld.Remembers (w : LeaseWorld) : Prop :=
  ∀ lease ∈ w.counted, lease ∉ retainLeases w.counted w.clock → w.Retired lease

instance LeaseWorld.decidableRemembers (w : LeaseWorld) : Decidable w.Remembers :=
  inferInstanceAs (Decidable (∀ lease ∈ w.counted, _ → w.Retired lease))

/-- A claim of the retrieval is in order: without a lease it takes no place that a record of a
lease waits for, and with one that has not counted there is room for its record. -/
def LeaseWorld.MayClaim (w : LeaseWorld) (r : Retrieval) : Prop :=
  match r.lease with
  | none => w.Spares r.index
  | some (.bundle _) => True
  | some (.file lease) =>
      w.Remembers ∧ (lease ∉ retainLeases w.counted w.clock → w.Room r.index)

instance LeaseWorld.decidableMayClaim (w : LeaseWorld) (r : Retrieval) : Decidable (w.MayClaim r) :=
  match h : r.lease with
  | none => decidable_of_iff (w.Spares r.index) (by rw [LeaseWorld.MayClaim, h])
  | some (.bundle _) => .isTrue (by rw [LeaseWorld.MayClaim, h]; trivial)
  | some (.file lease) =>
      decidable_of_iff (w.Remembers ∧ (lease ∉ retainLeases w.counted w.clock → w.Room r.index))
        (by rw [LeaseWorld.MayClaim, h])

/-- Another delivery of the files takes no place that a record of a lease waits for, when it is
not refused. -/
def LeaseWorld.MayDeliver (w : LeaseWorld) (indexes : List ℕ) : Prop :=
  (∀ index ∈ indexes, w.Below index) → ∀ index ∈ indexes, w.Spares index

instance LeaseWorld.decidableMayDeliver (w : LeaseWorld) (indexes : List ℕ) :
    Decidable (w.MayDeliver indexes) :=
  inferInstanceAs (Decidable ((∀ index ∈ indexes, _) → ∀ index ∈ indexes, w.Spares index))

/-- The claims of the step are in order, and so is another delivery. -/
def LeaseWorld.Regular (w : LeaseWorld) : LeaseOp → Prop
  | .start id _ _ => ∀ r ∈ w.retrievals.find? id, r.length (w.sizes r.index) = 0 →
      (r.lease = none → ∀ grant ∈ w.db.grants.find? w.id, grant.expiresAt ≤ w.clock) → w.MayClaim r
  | .frame id bytes => ∀ r ∈ w.retrievals.find? id, ∀ remaining ∈ r.remaining,
      remaining ≤ bytes → w.MayClaim r
  | .bundle _ _ => ∀ grant ∈ w.db.grants.find? w.id, w.MayDeliver (List.range grant.fileCount)
  | .other indexes => w.MayDeliver indexes
  | .foreign _ => w.Remembers
  | _ => True

instance LeaseWorld.decidableRegular (w : LeaseWorld) : (op : LeaseOp) → Decidable (w.Regular op)
  | .start id _ _ => inferInstanceAs (Decidable (∀ r ∈ w.retrievals.find? id,
      r.length (w.sizes r.index) = 0 →
      (r.lease = none → ∀ grant ∈ w.db.grants.find? w.id, grant.expiresAt ≤ w.clock) →
        w.MayClaim r))
  | .frame id bytes => inferInstanceAs (Decidable (∀ r ∈ w.retrievals.find? id,
      ∀ remaining ∈ r.remaining, remaining ≤ bytes → w.MayClaim r))
  | .bundle _ _ => inferInstanceAs (Decidable (∀ grant ∈ w.db.grants.find? w.id,
      w.MayDeliver (List.range grant.fileCount)))
  | .other indexes => inferInstanceAs (Decidable (w.MayDeliver indexes))
  | .foreign _ => inferInstanceAs (Decidable w.Remembers)
  | .request _ _ _ _ _ | .drop _ | .record _ | .tick _ => .isTrue trivial

/-! ### What is to hold -/

/-- The count of the file is spent. -/
def LeaseWorld.Spent (w : LeaseWorld) (index : ℕ) : Prop :=
  ∃ grant file, w.db.grants.find? w.id = some grant
    ∧ outboundGrantFile w.db grant index = some file ∧ grantIsExhausted grant file = true

/-- Downloads are counted. -/
structure LeaseWorld.CountsDownloads (w : LeaseWorld) : Prop where
  /-- A lease records at most one download. -/
  once : ∀ lease, w.recorded.countP (fun p => p.lease = some (.file lease)) ≤ 1
  /-- Only a retrieval that has handed the last byte over records a download. -/
  complete : ∀ p ∈ w.recorded, ∃ r ∈ w.retrievals.rows, r.id = p.retrieval ∧ r.index = p.index
    ∧ r.lease = p.lease ∧ r.Completes (w.sizes r.index)
  /-- A lease passes a spent count only if it has recorded. -/
  passes : ∀ index query cookie lease,
    w.activeDownloadGrant index query cookie = some (some (.file lease)) → w.Spent index →
      ∃ p ∈ w.recorded, p.lease = some (.file lease)
  /-- At most as many leases complete a file as it may have downloads. -/
  bounded : ∀ index grant max, w.db.grants.find? w.id = some grant →
    grant.maxDownloads = some max → ∀ leases : List Lease, leases.Nodup →
      (∀ lease ∈ leases, ∃ r ∈ w.retrievals.rows, r.lease = some (.file lease) ∧ r.index = index
        ∧ r.Completes (w.sizes index)) →
      leases.length ≤ max

/-- A port that starts, with a grant whose row and files tell the same. -/
structure LeaseWorld.Fresh (w : LeaseWorld) (grant : GrantRow) : Prop where
  accounted : Accounted w.db w.id grant
  /-- The limit is stored as an `i64`. -/
  limit : ∀ m ∈ grant.maxDownloads, m ≤ i64Max
  counted : w.counted = []
  retrievals : w.retrievals = .empty
  pending : w.pending = []
  recorded : w.recorded = []

/-! ### The invariant -/

/-- What holds of each retrieval. -/
structure Retrieval.Sound (r : Retrieval) (id : String) (fileCount size : ℕ) : Prop where
  index : r.index < fileCount
  lease : ∀ lease, r.lease = some (.file lease) → lease.grantId = id ∧ lease.index = r.index
  range : validRange size r.range = true
  sent : r.sent ≤ r.length size
  opened : r.stage = .opened → r.remaining = none ∧ r.sent = 0
  remaining : ∀ k, r.remaining = some k →
    0 < k ∧ k + r.sent = r.length size ∧ r.reachesEnd size = true

/-- A response that has handed the last byte over reaches it, and has nothing left to count. -/
theorem Retrieval.Sound.of_completes
    {r : Retrieval} {id : String} {fileCount size : ℕ} (h : r.Sound id fileCount size)
    (hcompletes : r.Completes size) :
  r.reachesEnd size = true ∧ r.remaining = none
  := by
  obtain ⟨_, hsize⟩ := hcompletes
  have hsent := h.sent
  have hrange := h.range
  have hleft : ∀ k, r.remaining = some k → r.length size ≤ r.sent → False := by
    intro k hk hle
    obtain ⟨hpos, hsum, _⟩ := h.remaining k hk
    omega
  rw [Retrieval.reachesEnd]
  rw [Retrieval.length] at hsent hleft
  rw [validRange] at hrange
  cases hr : r.range with
  | none =>
      rw [hr] at hsize hsent hleft
      use rfl
      simp only [Option.map_none, Option.getD_none, Nat.zero_add] at hsize
      apply Option.eq_none_iff_forall_not_mem.mpr
      exact fun k hk => hleft k hk hsize
  | some range =>
      obtain ⟨first, last⟩ := range
      rw [hr] at hsize hsent hleft hrange
      simp only [Option.map_some, Option.getD_some, Option.all_some, decide_eq_true_eq] at *
      have hsent : r.sent ≤ last - first + 1 := hsent
      constructor
      · omega
      · apply Option.eq_none_iff_forall_not_mem.mpr
        intro k hk
        have hshort : last - first + 1 ≤ r.sent := by omega
        apply hleft k hk hshort

/-- A response that reaches the end completes with its last byte. -/
theorem Retrieval.completes_of_length
    {r : Retrieval} {size : ℕ} (hrange : validRange size r.range = true)
    (hend : r.reachesEnd size = true) (hstage : r.stage ≠ .opened)
    (hsent : r.length size ≤ r.sent) :
  r.Completes size
  := by
  use hstage
  rw [Retrieval.length] at hsent
  rw [Retrieval.reachesEnd] at hend
  rw [validRange] at hrange
  cases hr : r.range with
  | none =>
      rw [hr] at hsent
      simpa using hsent
  | some range =>
      obtain ⟨first, last⟩ := range
      rw [hr] at hsent hend hrange
      simp only [Option.all_some, decide_eq_true_eq] at hend hrange
      have hsent : last - first + 1 ≤ r.sent := hsent
      simp only [Option.map_some, Option.getD_some]
      omega

/-- The records and the counts of a grant fit. -/
structure LeaseWorld.Counts
    (w : LeaseWorld) (id : String) (max : Option ℕ) (grant : GrantRow) : Prop where
  /-- The world is about the grant. -/
  id_eq : w.id = id
  accounted : Accounted w.db id grant
  /-- The limit stays. -/
  max_eq : grant.maxDownloads = max
  /-- The limit is stored as an `i64`. -/
  limit : ∀ m ∈ max, m ≤ i64Max
  /-- The files keep to the limit, with the records that are pending when one is of a lease. -/
  room : ∀ f ∈ w.db.files.rows, f.grantId = id → ∀ m ∈ max,
    f.downloads ≤ m ∧ (w.Owes f.fileIndex → f.downloads + w.pendingAt f.fileIndex ≤ m)
  /-- The count of a file has its recorded downloads. -/
  covered : ∀ f ∈ w.db.files.rows, f.grantId = id → ∀ m ∈ max, w.recordedAt f.fileIndex ≤ f.downloads
  sound : ∀ r ∈ w.retrievals.rows, r.Sound id grant.fileCount (w.sizes r.index)
  /-- Every record is of a retrieval that has handed the last byte over. -/
  complete : ∀ p ∈ w.records, ∃ r ∈ w.retrievals.rows, r.id = p.retrieval ∧ r.index = p.index
    ∧ r.lease = p.lease ∧ r.Completes (w.sizes r.index)
  /-- A lease has at most one record. -/
  once : ∀ lease, w.records.countP (fun p => p.lease = some (.file lease)) ≤ 1
  /-- A counted lease has a record. -/
  counted : ∀ lease ∈ w.counted, lease.grantId = id → ∃ p ∈ w.records, p.lease = some (.file lease)
  /-- The lease of a record is counted until no retrieval with it may count. -/
  kept : ∀ p ∈ w.records, ∀ lease, p.lease = some (.file lease) →
    lease ∈ w.counted ∨ w.Retired lease
  /-- A retrieval with a lease that has nothing left to count has a record of its lease. -/
  done : ∀ r ∈ w.retrievals.rows, ∀ lease, r.lease = some (.file lease) → r.stage ≠ .opened →
    r.remaining = none → r.reachesEnd (w.sizes r.index) = true →
      ∃ p ∈ w.records, p.lease = some (.file lease)

/-- The lease that a request is let in with is verified. -/
theorem LeaseWorld.downloadLeaseAuthorized_file
    {w : LeaseWorld} {grant : GrantRow} {index : ℕ} {query cookie : Option Lease} {lease : Lease}
    (h : w.downloadLeaseAuthorized grant index query cookie = some (.file lease)) :
  lease.grantId = grant.id ∧ lease.index = index ∧ w.clock < lease.expires
  := by
  have hverified : w.verifies grant index lease = true := by
    rw [downloadLeaseAuthorized] at h
    cases hq : query.filter (w.verifies grant index) with
    | none =>
        rw [hq] at h
        cases hc : cookie.filter (w.verifies grant bundleDownloadLeaseIndex) with
        | none =>
            rw [hc] at h
            cases h
        | some l =>
            rw [hc] at h
            cases h
    | some l =>
        rw [hq] at h
        cases h
        apply (Option.filter_eq_some_iff.mp hq).2
  rw [verifies, decide_eq_true_eq] at hverified
  exact ⟨hverified.2.1, hverified.2.2.2.1, hverified.2.2.2.2⟩

/-- The records of leases are among those of their file. -/
theorem countP_leased_le (records : List CountRecord) (index : ℕ) :
  records.countP (fun p => p.index = index ∧ p.lease ≠ none)
    ≤ records.countP (fun p => p.index = index)
  := by
  apply List.countP_mono_left
  intro p _ hp
  rw [decide_eq_true_eq] at hp ⊢
  exact hp.1

section Consequences

variable {w : LeaseWorld} {id : String} {max : Option ℕ} {grant : GrantRow}
  (h : w.Counts id max grant)
include h

/-- The row of the grant. -/
theorem LeaseWorld.Counts.row :
  w.db.grants.find? w.id = some grant
  := by
  rw [h.id_eq]
  apply h.accounted.row

/-- The record of a lease is of the lease's file. -/
theorem LeaseWorld.Counts.index_eq {p : CountRecord} (hp : p ∈ w.records) {lease : Lease}
    (hlease : p.lease = some (.file lease)) :
  p.index = lease.index ∧ p.index < grant.fileCount
  := by
  obtain ⟨r, hr, _, hindex, hrl, _⟩ := h.complete p hp
  have hsound := h.sound r hr
  rw [← hindex, (hsound.lease lease (hrl.trans hlease)).2]
  exact ⟨rfl, hsound.index⟩

/-- The file at an index of the grant. -/
theorem LeaseWorld.Counts.exists_file {index : ℕ} (hindex : index < grant.fileCount) :
  ∃ f ∈ w.db.files.rows, f.grantId = id ∧ f.fileIndex = index
  := (h.accounted.index index).mpr hindex

/-- A request that is let in with a lease has a verified one. -/
theorem LeaseWorld.activeDownloadGrant_eq_some
    {index : ℕ} {query cookie : Option Lease} {lease : Option DownloadLease}
    (hok : w.activeDownloadGrant index query cookie = some lease) :
  index < grant.fileCount
  ∧ lease = w.downloadLeaseAuthorized grant index query cookie
  ∧ ∃ file, outboundGrantFile w.db grant index = some file
      ∧ (lease.any (DownloadLease.passesSpent w.counted) = true
        ∨ grantIsExhausted grant file = false)
  := by
  have hrow := h.row
  rw [activeDownloadGrant, hrow] at hok
  simp only [Option.bind_eq_bind, Option.bind_some] at hok
  cases hfile : outboundGrantFile w.db grant index with
  | none =>
      rw [hfile] at hok
      cases hok
  | some file =>
      rw [hfile] at hok
      simp only [Option.bind_some] at hok
      by_cases hopen : grant.revokedAt.isSome = true ∨ grant.expiresAt ≤ w.clock
      · rw [if_pos hopen] at hok
        cases hok
      rw [if_neg hopen] at hok
      by_cases hspent :
          ¬ (w.downloadLeaseAuthorized grant index query cookie).any
            (DownloadLease.passesSpent w.counted) = true ∧ grantIsExhausted grant file = true
      · rw [if_pos hspent] at hok
        cases hok
      rw [if_neg hspent] at hok
      obtain rfl := Option.some.inj hok
      refine ⟨?_, rfl, file, rfl, ?_⟩
      · by_contra hindex
        rw [outboundGrantFile, if_pos (not_lt.mp hindex)] at hfile
        cases hfile
      · rw [not_and_or, not_not, Bool.not_eq_true] at hspent
        apply hspent

/-- The records of the leases of a file keep within the limit. -/
theorem LeaseWorld.Counts.records_le {index : ℕ} (hindex : index < grant.fileCount) :
  ∀ m ∈ max, w.records.countP (fun p => p.index = index ∧ p.lease ≠ none) ≤ m
  := by
  intro m hm
  obtain ⟨f, hf, hid, rfl⟩ := h.exists_file hindex
  obtain ⟨hlimit, hroom⟩ := h.room f hf hid m hm
  have hcovered := h.covered f hf hid m hm
  have hrecorded : w.recorded.countP (fun p => p.index = f.fileIndex ∧ p.lease ≠ none)
      ≤ w.recordedAt f.fileIndex := countP_leased_le ..
  rw [LeaseWorld.records, List.countP_append]
  by_cases howes : w.Owes f.fileIndex
  · have hpending : w.pending.countP (fun p => p.index = f.fileIndex ∧ p.lease ≠ none)
        ≤ w.pendingAt f.fileIndex := countP_leased_le ..
    have hsum := hroom howes
    omega
  · have hnone : w.pending.countP (fun p => p.index = f.fileIndex ∧ p.lease ≠ none) = 0 := by
      rw [List.countP_eq_zero]
      intro p hp hof
      exact howes ⟨p, hp, of_decide_eq_true hof⟩
    omega

/-- A lease with a record that is still pending has a file whose count is not spent. -/
theorem LeaseWorld.Counts.not_exhausted
    {p : CountRecord} (hp : p ∈ w.pending) (hleased : p.lease ≠ none) {file : Option GrantFileRow}
    (hindex : p.index < grant.fileCount)
    (hfile : outboundGrantFile w.db grant p.index = some file) :
  grantIsExhausted grant file = false
  := by
  obtain ⟨f, hf, hid, hfi⟩ := h.exists_file hindex
  have hclamp : clampI64 p.index = p.index := by
    have hcount := h.accounted.fileCount.2
    rw [clampI64]
    omega
  have hfind : w.db.files.find? (grant.id, clampI64 p.index) = some f := by
    rw [Table.find?_eq_some]
    use hf
    rw [GrantFileRow.key, hid, h.accounted.id_eq, hclamp, hfi]
  rw [outboundGrantFile, if_neg (not_le.mpr hindex), hfind] at hfile
  obtain rfl := Option.some.inj hfile
  rw [grantIsExhausted, h.max_eq]
  cases max with
  | none => rfl
  | some m =>
      have hroom := (h.room f hf hid m rfl).2 ⟨p, hp, hfi.symm, hleased⟩
      have hpending : 0 < w.pendingAt f.fileIndex := by
        rw [LeaseWorld.pendingAt, List.countP_pos_iff]
        use p, hp
        rw [hfi, decide_eq_true rfl]
      dsimp only
      rw [decide_eq_false_iff_not]
      omega

/-- The invariant says that downloads are counted. -/
theorem LeaseWorld.Counts.countsDownloads :
  w.CountsDownloads
  := by
  constructor
  case once =>
    intro lease
    have honce := h.once lease
    rw [LeaseWorld.records, List.countP_append] at honce
    omega
  case complete =>
    intro p hp
    apply h.complete p (List.mem_append_right _ hp)
  case passes =>
    intro index query cookie lease hok ⟨grant', file', hgrant', hfile', hspent⟩
    rw [h.id_eq, h.accounted.row] at hgrant'
    obtain rfl := Option.some.inj hgrant'
    obtain ⟨hindex, hlease, file, hfile, hpass⟩ := activeDownloadGrant_eq_some h hok
    rw [hfile'] at hfile
    obtain rfl := Option.some.inj hfile
    rw [hspent, Option.any_some, DownloadLease.passesSpent, decide_eq_true_eq] at hpass
    have hcounted : lease ∈ w.counted := by
      rcases hpass with hpass | hpass
      · apply hpass
      · cases hpass
    obtain ⟨hgrant, hli, _⟩ := LeaseWorld.downloadLeaseAuthorized_file hlease.symm
    obtain ⟨p, hp, hpl⟩ := h.counted lease hcounted (hgrant.trans h.accounted.id_eq)
    obtain ⟨hpi, _⟩ := h.index_eq hp hpl
    rcases List.mem_append.mp hp with hpending | hrecorded
    · rw [← hli, ← hpi] at hfile' hindex
      rw [h.not_exhausted hpending (by rw [hpl]; nofun) hindex hfile'] at hspent
      cases hspent
    · exact ⟨p, hrecorded, hpl⟩
  case bounded =>
    intro index grant' m hgrant' hm leases hnodup hall
    rw [h.id_eq, h.accounted.row] at hgrant'
    obtain rfl := Option.some.inj hgrant'
    rw [h.max_eq] at hm
    cases leases with
    | nil => apply Nat.zero_le
    | cons lease rest =>
        obtain ⟨r, hr, _, hri, _⟩ := hall lease List.mem_cons_self
        have hindex : index < grant.fileCount := by
          rw [← hri]
          apply (h.sound r hr).index
        -- Each of the leases has a record of its own.
        have hsubset : (lease :: rest).map (fun l => some (DownloadLease.file l))
            ⊆ (w.records.filter (fun p => p.index = index ∧ p.lease ≠ none)).map
              CountRecord.lease := by
          intro d hd
          obtain ⟨l, hl, rfl⟩ := List.mem_map.mp hd
          obtain ⟨r, hr, hrl, hri, hcompletes⟩ := hall l hl
          have hsound := h.sound r hr
          rw [← hri] at hcompletes
          obtain ⟨hend, hnone⟩ := hsound.of_completes hcompletes
          obtain ⟨p, hp, hpl⟩ := h.done r hr l hrl hcompletes.1 hnone hend
          apply List.mem_map.mpr
          use p
          constructor
          · apply List.mem_filter.mpr
            use hp
            rw [decide_eq_true_eq, (h.index_eq hp hpl).1, (hsound.lease l hrl).2, hpl]
            exact ⟨hri, nofun⟩
          · apply hpl
        have hnodup' : ((lease :: rest).map (fun l => some (DownloadLease.file l))).Nodup := by
          apply hnodup.map
          intro l l' he
          exact DownloadLease.file.inj (Option.some.inj he)
        have hle := (List.subperm_of_subset hnodup' hsubset).length_le
        rw [List.length_map, List.length_map, ← List.countP_eq_length_filter] at hle
        exact hle.trans (h.records_le hindex m hm)

end Consequences

/-! ### Retrievals -/

theorem LeaseWorld.mem_put {w : LeaseWorld} {r s : Retrieval} :
  s ∈ (w.put r).retrievals.rows ↔ s = r ∨ s ∈ w.retrievals.rows ∧ s.id ≠ r.id
  := Table.mem_upsert

/-- A retrieval that may no longer claim its count retires no fewer leases. -/
theorem LeaseWorld.Retired.put {w : LeaseWorld} {lease : Lease} (h : w.Retired lease)
    {r : Retrieval} (hr : r.lease = some (.file lease) → ¬ r.Active) :
  (w.put r).Retired lease
  := by
  use h.1
  intro s hs hsl
  rcases mem_put.mp hs with rfl | ⟨hs, _⟩
  · apply hr hsl
  · apply h.2 s hs hsl

section Steps

variable {w : LeaseWorld} {id : String} {max : Option ℕ} {grant : GrantRow}

/-- The record of a retrieval finds it after it has another row. -/
theorem LeaseWorld.Counts.complete_put
    (h : w.Counts id max grant) {r : Retrieval}
    (hrow : ∀ s, w.retrievals.find? r.id = some s → s.index = r.index ∧ s.lease = r.lease
      ∧ (s.Completes (w.sizes s.index) → r.Completes (w.sizes r.index)))
    {p : CountRecord} (hp : p ∈ w.records) :
  ∃ s ∈ (w.put r).retrievals.rows, s.id = p.retrieval ∧ s.index = p.index
    ∧ s.lease = p.lease ∧ s.Completes (w.sizes s.index)
  := by
  obtain ⟨s, hs, hid, hindex, hlease, hcompletes⟩ := h.complete p hp
  by_cases he : s.id = r.id
  · obtain ⟨hri, hrl, hrc⟩ := hrow s (Table.find?_eq_some.mpr ⟨hs, he⟩)
    use r, mem_put.mpr (Or.inl rfl)
    exact ⟨he.symm.trans hid, hri.symm.trans hindex, hrl.symm.trans hlease, hrc hcompletes⟩
  · exact ⟨s, mem_put.mpr (Or.inr ⟨hs, he⟩), hid, hindex, hlease, hcompletes⟩

/-- A retrieval has a row that claims no count. -/
theorem LeaseWorld.Counts.put
    (h : w.Counts id max grant) {r : Retrieval}
    (hsound : r.Sound id grant.fileCount (w.sizes r.index))
    (hrow : ∀ s, w.retrievals.find? r.id = some s → s.index = r.index ∧ s.lease = r.lease
      ∧ (s.Completes (w.sizes s.index) → r.Completes (w.sizes r.index)))
    (hactive : ∀ lease, r.lease = some (.file lease) → r.Active → ¬ w.Retired lease)
    (hdone : ∀ lease, r.lease = some (.file lease) → r.stage ≠ .opened → r.remaining = none →
      r.reachesEnd (w.sizes r.index) = true → ∃ p ∈ w.records, p.lease = some (.file lease)) :
  (w.put r).Counts id max grant
  where
  id_eq := h.id_eq
  accounted := h.accounted
  max_eq := h.max_eq
  limit := h.limit
  room := h.room
  covered := h.covered
  sound s hs := by
    rcases mem_put.mp hs with rfl | ⟨hs, _⟩
    · apply hsound
    · apply h.sound s hs
  complete p hp := h.complete_put hrow hp
  once := h.once
  counted := h.counted
  kept p hp lease hlease := by
    rcases h.kept p hp lease hlease with hcounted | hretired
    · exact Or.inl hcounted
    · right
      apply hretired.put
      intro hrl hract
      apply hactive lease hrl hract hretired
  done s hs lease hlease hstage hnone hend := by
    rcases mem_put.mp hs with rfl | ⟨hs, _⟩
    · apply hdone lease hlease hstage hnone hend
    · apply h.done s hs lease hlease hstage hnone hend

/-- Leases are forgotten that no retrieval may count for. -/
theorem LeaseWorld.Counts.forget
    (h : w.Counts id max grant) (hremembers : w.Remembers) :
  ({ w with counted := retainLeases w.counted w.clock }).Counts id max grant
  where
  id_eq := h.id_eq
  accounted := h.accounted
  max_eq := h.max_eq
  limit := h.limit
  room := h.room
  covered := h.covered
  sound := h.sound
  complete := h.complete
  once := h.once
  counted lease hlease := h.counted lease (mem_retainLeases.mp hlease).1
  kept p hp lease hlease := by
    rcases h.kept p hp lease hlease with hcounted | hretired
    · by_cases hretained : lease ∈ retainLeases w.counted w.clock
      · exact Or.inl hretained
      · exact Or.inr (hremembers lease hcounted hretained)
    · exact Or.inr hretired
  done := h.done

/-- A retrieval counts, and spawns its record. -/
theorem LeaseWorld.Counts.spawn
    (h : w.Counts id max grant) {s r : Retrieval} (hs : s ∈ w.retrievals.rows)
    (hsactive : s.Active) (hsid : s.id = r.id) (hsindex : s.index = r.index)
    (hslease : s.lease = r.lease) (hsound : r.Sound id grant.fileCount (w.sizes r.index))
    (hcompletes : r.Completes (w.sizes r.index)) (hrest : ¬ r.Active)
    (hroom : w.Owes r.index ∨ r.lease ≠ none → w.Room r.index)
    {counted : List Lease} (hold : ∀ lease ∈ w.counted, lease ∈ counted)
    (hnew : ∀ lease ∈ counted, lease ∈ w.counted ∨ r.lease = some (.file lease))
    (hclaimed : ∀ lease, r.lease = some (.file lease) → lease ∈ counted ∧ lease ∉ w.counted) :
  ({ w.put r with
    counted := counted
    pending := w.pending ++ [(⟨r.id, r.index, r.lease⟩ : CountRecord)] }).Counts id max grant
  := by
  have hrow : ∀ t, w.retrievals.find? r.id = some t → t.index = r.index ∧ t.lease = r.lease
      ∧ (t.Completes (w.sizes t.index) → r.Completes (w.sizes r.index)) := by
    intro t ht
    rw [Table.find?_eq_some.mpr ⟨hs, hsid⟩] at ht
    obtain rfl := Option.some.inj ht
    exact ⟨hsindex, hslease, fun _ => hcompletes⟩
  have hrecords : ∀ p, p ∈ w.pending ++ [⟨r.id, r.index, r.lease⟩] ++ w.recorded ↔
      p ∈ w.records ∨ p = ⟨r.id, r.index, r.lease⟩ := by
    intro p
    rw [LeaseWorld.records]
    simp only [List.mem_append, List.mem_singleton]
    tauto
  constructor
  case id_eq => apply h.id_eq
  case accounted => apply h.accounted
  case max_eq => apply h.max_eq
  case limit => apply h.limit
  case room =>
    intro f hf hid m hm
    obtain ⟨hlimit, hfree⟩ := h.room f hf hid m hm
    have hcount : (w.pending ++ [(⟨r.id, r.index, r.lease⟩ : CountRecord)]).countP
        (fun p => p.index = f.fileIndex)
          = w.pendingAt f.fileIndex + (if r.index = f.fileIndex then 1 else 0) := by
      rw [List.countP_append, List.countP_singleton, LeaseWorld.pendingAt]
      simp only [decide_eq_true_eq]
    refine ⟨hlimit, ?_⟩
    rintro ⟨p, hp, hpi, hpl⟩
    change f.downloads + (w.pending ++ [_]).countP _ ≤ m
    rw [hcount]
    by_cases hindex : r.index = f.fileIndex
    · have howes : w.Owes r.index ∨ r.lease ≠ none := by
        rcases List.mem_append.mp hp with hp | hp
        · exact Or.inl ⟨p, hp, hpi.trans hindex.symm, hpl⟩
        · rw [List.mem_singleton.mp hp] at hpl
          exact Or.inr hpl
      have hrow := h.row
      have hlt := hroom howes grant hrow m (h.max_eq ▸ hm) f hf (hid.trans h.id_eq.symm) hindex.symm
      rw [hindex] at hlt
      rw [if_pos hindex]
      omega
    · have howes : w.Owes f.fileIndex := by
        rcases List.mem_append.mp hp with hp | hp
        · exact ⟨p, hp, hpi, hpl⟩
        · rw [List.mem_singleton.mp hp] at hpi
          exact absurd hpi hindex
      have hsum := hfree howes
      rw [if_neg hindex]
      omega
  case covered => apply h.covered
  case sound =>
    intro t ht
    rcases mem_put.mp ht with rfl | ⟨ht, _⟩
    · apply hsound
    · apply h.sound t ht
  case complete =>
    intro p hp
    rcases (hrecords p).mp hp with hp | rfl
    · apply h.complete_put hrow hp
    · exact ⟨r, mem_put.mpr (Or.inl rfl), rfl, rfl, rfl, hcompletes⟩
  case once =>
    intro lease
    have honce := h.once lease
    have hperm : (w.pending ++ [(⟨r.id, r.index, r.lease⟩ : CountRecord)] ++ w.recorded).countP
        (fun p => p.lease = some (.file lease))
          = w.records.countP (fun p => p.lease = some (.file lease))
            + (if r.lease = some (.file lease) then 1 else 0) := by
      rw [List.countP_append, List.countP_append, List.countP_singleton, LeaseWorld.records,
        List.countP_append]
      simp only [decide_eq_true_eq]
      omega
    change (w.pending ++ [_] ++ w.recorded).countP _ ≤ 1
    rw [hperm]
    split_ifs with hlease
    · have hzero : w.records.countP (fun p => p.lease = some (.file lease)) = 0 := by
        rw [List.countP_eq_zero]
        intro p hp hpl
        rcases h.kept p hp lease (of_decide_eq_true hpl) with hcounted | hretired
        · apply (hclaimed lease hlease).2 hcounted
        · apply hretired.2 s hs (hslease.trans hlease) hsactive
      omega
    · apply honce
  case counted =>
    intro lease hlease hid
    rcases hnew lease hlease with hcounted | hrl
    · obtain ⟨p, hp, hpl⟩ := h.counted lease hcounted hid
      exact ⟨p, (hrecords p).mpr (Or.inl hp), hpl⟩
    · exact ⟨⟨r.id, r.index, r.lease⟩, (hrecords _).mpr (Or.inr rfl), hrl⟩
  case kept =>
    intro p hp lease hpl
    rcases (hrecords p).mp hp with hp | rfl
    · rcases h.kept p hp lease hpl with hcounted | hretired
      · exact Or.inl (hold lease hcounted)
      · exact Or.inr (hretired.put fun _ => hrest)
    · exact Or.inl (hclaimed lease hpl).1
  case done =>
    intro t ht lease hlease hstage hnone hend
    rcases mem_put.mp ht with rfl | ⟨ht, _⟩
    · exact ⟨⟨t.id, t.index, t.lease⟩, (hrecords _).mpr (Or.inr rfl), hlease⟩
    · obtain ⟨p, hp, hpl⟩ := h.done t ht lease hlease hstage hnone hend
      exact ⟨p, (hrecords p).mpr (Or.inl hp), hpl⟩

/-- A retrieval hands the last byte over and claims its count. -/
theorem LeaseWorld.Counts.claim
    (h : w.Counts id max grant) {s r : Retrieval} (hs : s ∈ w.retrievals.rows)
    (hsactive : s.Active) (hsid : s.id = r.id) (hsindex : s.index = r.index)
    (hslease : s.lease = r.lease) (hsound : r.Sound id grant.fileCount (w.sizes r.index))
    (hcompletes : r.Completes (w.sizes r.index)) (hrest : ¬ r.Active) (hmay : w.MayClaim s) :
  ((w.put r).claim r).Counts id max grant
  := by
  rw [LeaseWorld.MayClaim, hslease, hsindex] at hmay
  have hrow : ∀ t, w.retrievals.find? r.id = some t → t.index = r.index ∧ t.lease = r.lease
      ∧ (t.Completes (w.sizes t.index) → r.Completes (w.sizes r.index)) := by
    intro t ht
    rw [Table.find?_eq_some.mpr ⟨hs, hsid⟩] at ht
    obtain rfl := Option.some.inj ht
    exact ⟨hsindex, hslease, fun _ => hcompletes⟩
  have hend := (hsound.of_completes hcompletes).1
  rw [LeaseWorld.claim]
  cases hlease : r.lease with
  | none =>
      rw [hlease] at hmay
      have hspawn := h.spawn hs hsactive hsid hsindex hslease hsound hcompletes hrest
        (by rw [hlease]; exact fun howes => hmay (howes.resolve_right (not_not.mpr rfl)))
        (fun _ hl => hl) (fun _ hl => Or.inl hl) (by simp [hlease])
      rw [hlease] at hspawn
      apply hspawn
  | some lease =>
      cases lease with
      | bundle holder =>
          apply h.put hsound hrow
          · intro lease hl
            rw [hlease] at hl
            cases hl
          · intro lease hl
            rw [hlease] at hl
            cases hl
      | file lease =>
          rw [hlease] at hmay
          obtain ⟨hremembers, hroom⟩ := hmay
          have hforget := h.forget hremembers
          by_cases hcounted : lease ∈ retainLeases w.counted w.clock
          · have hput := hforget.put hsound hrow (fun _ _ hact => absurd hact hrest) (by
              intro l hl _ _ _
              rw [hlease] at hl
              obtain rfl := DownloadLease.file.inj (Option.some.inj hl)
              apply hforget.counted lease hcounted (hsound.lease lease hlease).1)
            have hsame : claimDownloadCount w.counted w.clock (some (.file lease))
                = (false, retainLeases w.counted w.clock) := by
              rw [claimDownloadCount, List.insert_of_mem hcounted,
                decide_eq_false (not_not.mpr hcounted)]
            have hclaimed : claimDownloadCount (w.put r).counted (w.put r).clock (some (.file lease))
                = (false, retainLeases w.counted w.clock) := hsame
            rw [hclaimed]
            apply hput
          · have hsame : claimDownloadCount w.counted w.clock (some (.file lease))
                = (true, (retainLeases w.counted w.clock).insert lease) := by
              rw [claimDownloadCount, decide_eq_true hcounted]
            have hclaimed : claimDownloadCount (w.put r).counted (w.put r).clock (some (.file lease))
                = (true, (retainLeases w.counted w.clock).insert lease) := hsame
            rw [hclaimed]
            have hspawn := hforget.spawn hs hsactive hsid hsindex hslease hsound hcompletes hrest
              (fun _ => hroom hcounted)
              (fun l hl => show l ∈ (retainLeases w.counted w.clock).insert lease from
                List.mem_insert_of_mem hl)
              (fun l hl => by
                rcases List.mem_insert_iff.mp hl with rfl | hl
                · exact Or.inr hlease
                · exact Or.inl hl)
              (fun l hl => by
                rw [hlease] at hl
                obtain rfl := DownloadLease.file.inj (Option.some.inj hl)
                exact ⟨List.mem_insert_self, hcounted⟩)
            rw [hlease] at hspawn
            apply hspawn

/-! ### Records -/

/-- The files of a grant when a download of those at the indexes is recorded. -/
theorem LeaseWorld.Counts.recordAt_eq_some
    (h : w.Counts id max grant) {indexes : List ℕ} {db : Outbound}
    (hok : w.recordAt indexes = some db) :
  ∃ grant', Accounted db id grant' ∧ grant'.maxDownloads = max
    ∧ grant'.fileCount = grant.fileCount
    ∧ (∀ i ∈ indexes, Recordable w.db.files id max i)
    ∧ db.files = recordAll w.db.files id indexes (clampI64 w.clock)
  := by
  rw [LeaseWorld.recordAt, h.id_eq] at hok
  cases hrecord : recordDownload w.db id indexes w.clock none with
  | error e =>
      rw [hrecord] at hok
      cases hok
  | ok answer =>
      rw [hrecord] at hok
      obtain rfl := Option.some.inj hok
      obtain ⟨grant', hrecorded, _, _⟩ := h.accounted.recordDownload_spec hrecord
      obtain ⟨downloads, hgrant⟩ := hrecorded.counters
      use grant', hrecorded.accounted
      rw [← h.max_eq]
      refine ⟨?_, ?_, hrecorded.recordable, hrecorded.files⟩
      · rw [hgrant]
        rfl
      · rw [hgrant]
        rfl

/-- The count of a file after a download is recorded. -/
theorem LeaseWorld.Counts.downloads_recordAll
    (h : w.Counts id max grant) {indexes : List ℕ} {m : ℕ} (hm : m ∈ max)
    (hrec : ∀ i ∈ indexes, Recordable w.db.files id max i) {f : GrantFileRow}
    (hf : f ∈ (recordAll w.db.files id indexes (clampI64 w.clock)).rows) (hid : f.grantId = id) :
  ∃ f' ∈ w.db.files.rows, f'.grantId = id ∧ f'.fileIndex = f.fileIndex
    ∧ f.downloads = f'.downloads + (if f.fileIndex ∈ indexes then 1 else 0)
  := by
  obtain ⟨f', hf', rfl⟩ := mem_updateFiles.mp hf
  split_ifs at hid with hp
  · obtain ⟨hid', hindex⟩ := hp
    obtain ⟨f'', hf'', hid'', hindex'', hbelow⟩ := hrec f'.fileIndex hindex
    obtain rfl := file_eq_of_index_eq hf' hf'' (hid'.trans hid''.symm) hindex''.symm
    have hlt := hbelow m hm
    have hle := h.limit m hm
    refine ⟨f', hf', hid', ?_, ?_⟩
    · rw [if_pos ⟨hid', hindex⟩]
      rfl
    · rw [if_pos ⟨hid', hindex⟩, record_fileIndex, if_pos hindex, GrantFileRow.record]
      dsimp only
      rw [if_neg (by omega)]
  · have hout : f'.fileIndex ∉ indexes := fun hindex => hp ⟨hid, hindex⟩
    refine ⟨f', hf', hid, ?_, ?_⟩
    · rw [if_neg hp]
    · rw [if_neg hp, if_neg hout, Nat.add_zero]

/-- The files that a download is recorded of are below the limit. -/
theorem LeaseWorld.Counts.below_of_recordable
    (h : w.Counts id max grant) {i : ℕ} (hrec : Recordable w.db.files id max i) :
  w.Below i
  := by
  intro grant' hgrant' m hm f hf hid hindex
  rw [h.id_eq, h.accounted.row] at hgrant'
  obtain rfl := Option.some.inj hgrant'
  obtain ⟨f', hf', hid', hindex', hbelow⟩ := hrec
  obtain rfl := file_eq_of_index_eq hf hf' (hid.trans (h.id_eq.trans hid'.symm))
    (hindex.trans hindex'.symm)
  exact hbelow m (h.max_eq ▸ hm)

/-- Another delivery is recorded that takes no place of a record of a lease. -/
theorem LeaseWorld.Counts.other
    (h : w.Counts id max grant) {indexes : List ℕ} (hmay : w.MayDeliver indexes)
    {db : Outbound} (hok : w.recordAt indexes = some db) :
  ∃ grant', ({ w with db := db }).Counts id max grant'
  := by
  obtain ⟨grant', haccounted, hmax, hcount, hrec, hfiles⟩ := h.recordAt_eq_some hok
  have hspares := hmay fun index hindex => h.below_of_recordable (hrec index hindex)
  use grant'
  constructor
  case id_eq => apply h.id_eq
  case accounted => apply haccounted
  case max_eq => apply hmax
  case limit => apply h.limit
  case room =>
    intro f hf hid m hm
    rw [hfiles] at hf
    obtain ⟨f', hf', hid', hindex, hdownloads⟩ := h.downloads_recordAll hm hrec hf hid
    obtain ⟨hlimit, hold⟩ := h.room f' hf' hid' m hm
    change f.downloads ≤ m ∧ (w.Owes f.fileIndex → f.downloads + w.pendingAt f.fileIndex ≤ m)
    rw [hdownloads, ← hindex]
    split_ifs with hmem
    · have hrow := h.row
      have hid'' := hid'.trans h.id_eq.symm
      have hbelow := h.below_of_recordable (hrec f'.fileIndex hmem) grant hrow m
        (h.max_eq ▸ hm) f' hf' hid'' rfl
      refine ⟨by omega, fun howes => ?_⟩
      have hlt := hspares f'.fileIndex hmem howes grant hrow m (h.max_eq ▸ hm) f' hf' hid'' rfl
      omega
    · refine ⟨by omega, fun howes => ?_⟩
      have hsum := hold howes
      omega
  case covered =>
    intro f hf hid m hm
    rw [hfiles] at hf
    obtain ⟨f', hf', hid', hindex, hdownloads⟩ := h.downloads_recordAll hm hrec hf hid
    have hold := h.covered f' hf' hid' m hm
    change w.recordedAt f.fileIndex ≤ f.downloads
    rw [hdownloads, ← hindex]
    omega
  case sound =>
    intro r hr
    rw [hcount]
    apply h.sound r hr
  case complete => apply h.complete
  case once => apply h.once
  case counted => apply h.counted
  case kept => apply h.kept
  case done => apply h.done

/-- No pending record of a lease is refused. -/
theorem LeaseWorld.Counts.recordAt_isSome
    (h : w.Counts id max grant) {p : CountRecord} (hp : p ∈ w.pending) (hleased : p.lease ≠ none) :
  (w.recordAt [p.index]).isSome = true
  := by
  have hmem : p ∈ w.records := List.mem_append_left _ hp
  obtain ⟨r, hr, _, hindex, _⟩ := h.complete p hmem
  have hlt : p.index < grant.fileCount := by
    rw [← hindex]
    apply (h.sound r hr).index
  obtain ⟨f, hf, hid, hfi⟩ := h.exists_file hlt
  have hpending : 0 < w.pendingAt f.fileIndex := by
    rw [LeaseWorld.pendingAt, List.countP_pos_iff]
    use p, hp
    rw [hfi, decide_eq_true rfl]
  have hbelow : belowLimit grant.maxDownloads f.downloads := by
    intro m hm
    have hroom := (h.room f hf hid m (h.max_eq ▸ hm)).2 ⟨p, hp, hfi.symm, hleased⟩
    omega
  have hgrant : belowLimit grant.maxDownloads grant.downloads := by
    intro m hm
    have hleast : grant.downloads ≤ f.downloads := h.accounted.least.2 ⟨f, hf, hid, rfl⟩
    have hf := hbelow m hm
    omega
  have hrec : ∀ i ∈ [p.index], Recordable w.db.files id grant.maxDownloads i := by
    intro i hi
    rw [List.mem_singleton.mp hi]
    exact ⟨f, hf, hid, hfi, hbelow⟩
  obtain ⟨result, db, hok, _⟩ := h.accounted.recordGrantDownload_of_recordable hrec hgrant w.clock
  rw [LeaseWorld.recordAt, h.id_eq, recordDownload, hok]
  rfl

/-- A pending record counts its download. -/
theorem LeaseWorld.Counts.record
    (h : w.Counts id max grant) {i : ℕ} {p : CountRecord} (hp : w.pending[i]? = some p)
    {db : Outbound} (hok : w.recordAt [p.index] = some db) :
  ∃ grant', ({ w with
    pending := w.pending.eraseIdx i
    db := db
    recorded := p :: w.recorded }).Counts id max grant'
  := by
  obtain ⟨grant', haccounted, hmax, hcount, hrec, hfiles⟩ := h.recordAt_eq_some hok
  obtain ⟨hi, hget⟩ := List.getElem?_eq_some_iff.mp hp
  have hperm : (p :: w.pending.eraseIdx i).Perm w.pending := by
    rw [← hget]
    apply List.getElem_cons_eraseIdx_perm
  have hrecords : (w.pending.eraseIdx i ++ p :: w.recorded).Perm w.records := by
    apply List.perm_middle.trans
    apply hperm.append_right
  have hmem : ∀ q, q ∈ w.pending.eraseIdx i ++ p :: w.recorded ↔ q ∈ w.records :=
    fun q => hrecords.mem_iff
  have hpending : ∀ index, w.pendingAt index
      = (w.pending.eraseIdx i).countP (fun q => q.index = index)
        + (if p.index = index then 1 else 0) := by
    intro index
    rw [LeaseWorld.pendingAt, ← hperm.countP_eq, List.countP_cons]
    simp only [decide_eq_true_eq]
  use grant'
  constructor
  case id_eq => apply h.id_eq
  case accounted => apply haccounted
  case max_eq => apply hmax
  case limit => apply h.limit
  case room =>
    intro f hf hid m hm
    rw [hfiles] at hf
    obtain ⟨f', hf', hid', hindex, hdownloads⟩ := h.downloads_recordAll hm hrec hf hid
    obtain ⟨hlimit, hold⟩ := h.room f' hf' hid' m hm
    rw [hpending, hindex] at hold
    constructor
    · rw [hdownloads]
      split_ifs with hlast
      · have hrow := h.row
        have hbelow := h.below_of_recordable (hrec f.fileIndex hlast) grant hrow m
          (h.max_eq ▸ hm) f' hf' (hid'.trans h.id_eq.symm) hindex
        omega
      · omega
    · rintro ⟨q, hq, hqi, hql⟩
      have hsum := hold ⟨q, List.mem_of_mem_eraseIdx hq, hqi, hql⟩
      change f.downloads + (w.pending.eraseIdx i).countP (fun q => q.index = f.fileIndex) ≤ m
      rw [hdownloads]
      simp only [List.mem_singleton, eq_comm (a := f.fileIndex)]
      omega
  case covered =>
    intro f hf hid m hm
    rw [hfiles] at hf
    obtain ⟨f', hf', hid', hindex, hdownloads⟩ := h.downloads_recordAll hm hrec hf hid
    have hold := h.covered f' hf' hid' m hm
    rw [hindex, LeaseWorld.recordedAt] at hold
    change (p :: w.recorded).countP (fun q => q.index = f.fileIndex) ≤ f.downloads
    rw [hdownloads, List.countP_cons]
    simp only [List.mem_singleton, decide_eq_true_eq, eq_comm (a := f.fileIndex)]
    omega
  case sound =>
    intro r hr
    rw [hcount]
    apply h.sound r hr
  case complete =>
    intro q hq
    apply h.complete q ((hmem q).mp hq)
  case once =>
    intro lease
    have honce := h.once lease
    rw [← hrecords.countP_eq] at honce
    apply honce
  case counted =>
    intro lease hlease hid
    obtain ⟨q, hq, hql⟩ := h.counted lease hlease hid
    exact ⟨q, (hmem q).mpr hq, hql⟩
  case kept =>
    intro q hq
    apply h.kept q ((hmem q).mp hq)
  case done =>
    intro r hr lease hlease hstage hnone hend
    obtain ⟨q, hq, hql⟩ := h.done r hr lease hlease hstage hnone hend
    exact ⟨q, (hmem q).mpr hq, hql⟩

/-- A record without a lease is refused. -/
theorem LeaseWorld.Counts.refuse
    (h : w.Counts id max grant) {i : ℕ} {p : CountRecord} (hp : w.pending[i]? = some p)
    (hunleased : p.lease = none) :
  ({ w with pending := w.pending.eraseIdx i }).Counts id max grant
  := by
  obtain ⟨hi, hget⟩ := List.getElem?_eq_some_iff.mp hp
  have hsub : (w.pending.eraseIdx i).Sublist w.pending := List.eraseIdx_sublist ..
  have hsubset : ∀ q ∈ w.pending.eraseIdx i ++ w.recorded, q ∈ w.records :=
    (hsub.append_right w.recorded).subset
  -- The record that goes is of no lease.
  have hleft : ∀ q ∈ w.records, ∀ lease : Lease, q.lease = some (.file lease) →
      q ∈ w.pending.eraseIdx i ++ w.recorded := by
    intro q hq lease hql
    rcases List.mem_append.mp hq with hq | hq
    · have hperm : (p :: w.pending.eraseIdx i).Perm w.pending := by
        rw [← hget]
        apply List.getElem_cons_eraseIdx_perm
      rcases List.mem_cons.mp (hperm.mem_iff.mpr hq) with rfl | hq
      · rw [hunleased] at hql
        cases hql
      · exact List.mem_append_left _ hq
    · exact List.mem_append_right _ hq
  constructor
  case id_eq => apply h.id_eq
  case accounted => apply h.accounted
  case max_eq => apply h.max_eq
  case limit => apply h.limit
  case room =>
    intro f hf hid m hm
    obtain ⟨hlimit, hold⟩ := h.room f hf hid m hm
    refine ⟨hlimit, ?_⟩
    rintro ⟨q, hq, hqi, hql⟩
    have hsum := hold ⟨q, hsub.subset hq, hqi, hql⟩
    have hle : (w.pending.eraseIdx i).countP (fun q => q.index = f.fileIndex)
        ≤ w.pendingAt f.fileIndex := hsub.countP_le
    change f.downloads + (w.pending.eraseIdx i).countP (fun q => q.index = f.fileIndex) ≤ m
    omega
  case covered => apply h.covered
  case sound => apply h.sound
  case complete =>
    intro q hq
    apply h.complete q (hsubset q hq)
  case once =>
    intro lease
    have hle := (hsub.append_right w.recorded).countP_le
      (p := fun p => p.lease = some (.file lease))
    exact hle.trans (h.once lease)
  case counted =>
    intro lease hlease hid
    obtain ⟨q, hq, hql⟩ := h.counted lease hlease hid
    exact ⟨q, hleft q hq lease hql, hql⟩
  case kept =>
    intro q hq
    apply h.kept q (hsubset q hq)
  case done =>
    intro r hr lease hlease hstage hnone hend
    obtain ⟨q, hq, hql⟩ := h.done r hr lease hlease hstage hnone hend
    exact ⟨q, hleft q hq lease hql, hql⟩

/-! ### Runs -/

/-- A port accepts other leases. -/
theorem LeaseWorld.Counts.mint (h : w.Counts id max grant) (leases : List Lease) :
  ({ w with leases := leases }).Counts id max grant
  := ⟨h.id_eq, h.accounted, h.max_eq, h.limit, h.room, h.covered, h.sound, h.complete, h.once,
    h.counted, h.kept, h.done⟩

/-- Time passes. -/
theorem LeaseWorld.Counts.tick (h : w.Counts id max grant) {clock : ℕ} (hle : w.clock ≤ clock) :
  ({ w with clock := clock }).Counts id max grant
  := by
  refine ⟨h.id_eq, h.accounted, h.max_eq, h.limit, h.room, h.covered, h.sound, h.complete, h.once,
    h.counted, ?_, h.done⟩
  intro p hp lease hlease
  rcases h.kept p hp lease hlease with hcounted | ⟨hexpired, hactive⟩
  · exact Or.inl hcounted
  · exact Or.inr ⟨hexpired.trans hle, hactive⟩

/-- A retrieval of another grant's file counts. -/
theorem LeaseWorld.Counts.foreign
    (h : w.Counts id max grant) (hremembers : w.Remembers) {lease : Lease}
    (hlease : lease.grantId ≠ w.id) :
  ({ w with
    counted := (claimDownloadCount w.counted w.clock (some (.file lease))).2 }).Counts id max grant
  := by
  have hforget := h.forget hremembers
  refine ⟨h.id_eq, h.accounted, h.max_eq, h.limit, h.room, h.covered, h.sound, h.complete, h.once,
    ?_, ?_, h.done⟩
  · intro l hl hid
    rcases List.mem_insert_iff.mp hl with rfl | hl
    · cases hlease (hid.trans h.id_eq.symm)
    · apply hforget.counted l hl hid
  · intro p hp l hl
    rcases hforget.kept p hp l hl with hcounted | hretired
    · exact Or.inl (List.mem_insert_of_mem hcounted)
    · exact Or.inr hretired

/-- A request is given up before its response. -/
theorem LeaseWorld.Counts.erase
    (h : w.Counts id max grant) {r : Retrieval} (hr : r ∈ w.retrievals.rows)
    (hopened : r.stage = .opened) :
  ({ w with retrievals := w.retrievals.erase r.id }).Counts id max grant
  := by
  refine ⟨h.id_eq, h.accounted, h.max_eq, h.limit, h.room, h.covered, ?_, ?_, h.once, h.counted,
    ?_, ?_⟩
  · intro s hs
    apply h.sound s (Table.mem_erase.mp hs).1
  · intro p hp
    obtain ⟨s, hs, hid, hindex, hlease, hcompletes⟩ := h.complete p hp
    refine ⟨s, Table.mem_erase.mpr ⟨hs, ?_⟩, hid, hindex, hlease, hcompletes⟩
    intro he
    rw [w.retrievals.eq_of_key_eq hs hr he] at hcompletes
    apply hcompletes.1 hopened
  · intro p hp lease hlease
    rcases h.kept p hp lease hlease with hcounted | ⟨hexpired, hactive⟩
    · exact Or.inl hcounted
    · exact Or.inr ⟨hexpired, fun s hs => hactive s (Table.mem_erase.mp hs).1⟩
  · intro s hs
    apply h.done s (Table.mem_erase.mp hs).1

/-- A request is let in. -/
theorem LeaseWorld.Counts.request
    (h : w.Counts id max grant) {r : Retrieval} {query cookie : Option Lease}
    (hopen : w.activeDownloadGrant r.index query cookie = some r.lease)
    (hnew : w.retrievals.find? r.id = none)
    (hrange : validRange (w.sizes r.index) r.range = true) (hstage : r.stage = .opened)
    (hremaining : r.remaining = none) (hsent : r.sent = 0) :
  (w.put r).Counts id max grant
  := by
  obtain ⟨hindex, hlease, _⟩ := activeDownloadGrant_eq_some h hopen
  apply h.put
  · constructor
    case index => apply hindex
    case lease =>
      intro lease hl
      obtain ⟨hgrant, hli, _⟩ := downloadLeaseAuthorized_file (hlease.symm.trans hl)
      exact ⟨hgrant.trans h.accounted.id_eq, hli⟩
    case range => apply hrange
    case sent =>
      rw [hsent]
      apply Nat.zero_le
    case opened => exact fun _ => ⟨hremaining, hsent⟩
    case remaining =>
      intro k hk
      rw [hremaining] at hk
      cases hk
  · intro s hs
    rw [hnew] at hs
    cases hs
  · intro lease hl _ hretired
    obtain ⟨_, _, hlive⟩ := downloadLeaseAuthorized_file (hlease.symm.trans hl)
    have hexpired := hretired.1
    omega
  · intro lease _ hne
    cases hne hstage

/-- A response begins. -/
theorem LeaseWorld.Counts.answer
    (h : w.Counts id max grant) {r : Retrieval} (hr : r ∈ w.retrievals.rows)
    (hstage : r.stage = .opened)
    (hmay : r.length (w.sizes r.index) = 0 → w.MayClaim r) :
  (w.answer r).Counts id max grant
  := by
  have hsound := h.sound r hr
  obtain ⟨hnone, hsent⟩ := hsound.opened hstage
  have hactive : r.Active := Or.inl hstage
  rw [LeaseWorld.answer]
  by_cases hlength : r.length (w.sizes r.index) = 0
  · rw [if_pos hlength]
    have hsound' : ({ r with stage := .streaming } : Retrieval).Sound id grant.fileCount
        (w.sizes r.index) := by
      refine ⟨hsound.index, hsound.lease, hsound.range, hsound.sent, nofun, ?_⟩
      intro k hk
      apply hsound.remaining k hk
    have hcompletes : ({ r with stage := .streaming } : Retrieval).Completes
        (w.sizes r.index) := by
      have hend : r.reachesEnd (w.sizes r.index) = true := by
        cases hrange : r.range with
        | none =>
            rw [Retrieval.reachesEnd, hrange]
            rfl
        | some range =>
            rw [Retrieval.length, hrange] at hlength
            have hpos : range.2 - range.1 + 1 = 0 := hlength
            omega
      have hall : r.length (w.sizes r.index) ≤ r.sent := by omega
      exact Retrieval.completes_of_length (r := { r with stage := .streaming }) hsound.range hend
        nofun hall
    have hrest : ¬ ({ r with stage := .streaming } : Retrieval).Active := by
      rintro (hopened | ⟨_, hsome⟩)
      · cases hopened
      · dsimp only at hsome
        rw [hnone] at hsome
        cases hsome
    exact h.claim hr hactive rfl rfl rfl hsound' hcompletes hrest (hmay hlength)
  · rw [if_neg hlength]
    apply h.put
    · refine ⟨hsound.index, hsound.lease, hsound.range, hsound.sent, nofun, ?_⟩
      intro k hk
      dsimp only at hk
      by_cases hend : r.reachesEnd (w.sizes r.index) = true
      · rw [if_pos hend] at hk
        obtain rfl := Option.some.inj hk
        refine ⟨Nat.pos_of_ne_zero hlength, ?_, hend⟩
        dsimp only
        rw [hsent]
        rfl
      · rw [if_neg hend] at hk
        cases hk
    · intro s hs
      rw [Table.find?_key hr] at hs
      obtain rfl := Option.some.inj hs
      exact ⟨rfl, rfl, fun hcompletes => absurd hstage hcompletes.1⟩
    · intro lease hl _ hretired
      apply hretired.2 r hr hl hactive
    · intro lease hl _ hleft hend
      have hend' : r.reachesEnd (w.sizes r.index) = true := hend
      dsimp only at hleft
      rw [if_pos hend'] at hleft
      cases hleft

/-- Some bytes are handed over. -/
theorem LeaseWorld.Counts.frame
    (h : w.Counts id max grant) {r : Retrieval} {bytes : ℕ} (hr : r ∈ w.retrievals.rows)
    (hstage : r.stage = .streaming)
    (hfits : r.sent + bytes ≤ r.length (w.sizes r.index))
    (hmay : ∀ remaining ∈ r.remaining, remaining ≤ bytes → w.MayClaim r) :
  (w.frame r bytes).Counts id max grant
  := by
  have hsound := h.sound r hr
  have hnotOpened : r.stage ≠ .opened := by
    rw [hstage]
    nofun
  have hmore : ∀ remaining, r.Completes (w.sizes r.index) →
      ({ r with sent := r.sent + bytes, remaining := remaining } : Retrieval).Completes
        (w.sizes r.index) := by
    rintro remaining ⟨_, hsize⟩
    use hnotOpened
    dsimp only
    omega
  have hrow : ∀ remaining, ∀ s, w.retrievals.find? r.id = some s → s.index = r.index
      ∧ s.lease = r.lease ∧ (s.Completes (w.sizes s.index) →
        ({ r with sent := r.sent + bytes, remaining := remaining } : Retrieval).Completes
          (w.sizes r.index)) := by
    intro remaining s hs
    rw [Table.find?_key hr] at hs
    obtain rfl := Option.some.inj hs
    exact ⟨rfl, rfl, hmore remaining⟩
  rw [LeaseWorld.frame]
  cases hremaining : r.remaining with
  | none =>
      have hput := h.put (r := { r with sent := r.sent + bytes, remaining := none })
        ⟨hsound.index, hsound.lease, hsound.range, hfits,
          fun hopened => absurd hopened hnotOpened, nofun⟩ (hrow none)
        (by
          rintro lease _ (hopened | ⟨_, hsome⟩)
          · cases hnotOpened hopened
          · cases hsome)
        (fun lease hl _ _ hend => h.done r hr lease hl hnotOpened hremaining hend)
      apply hput
  | some remaining =>
      obtain ⟨hpos, hsum, hend⟩ := hsound.remaining remaining hremaining
      have hactive : r.Active := by
        right
        use hstage
        rw [hremaining]
        rfl
      dsimp only
      split_ifs with hlast
      · have hsound' : ({ r with sent := r.sent + bytes, remaining := none } : Retrieval).Sound id
            grant.fileCount (w.sizes r.index) :=
          ⟨hsound.index, hsound.lease, hsound.range, hfits,
            fun hopened => absurd hopened hnotOpened, nofun⟩
        have hcompletes : ({ r with sent := r.sent + bytes, remaining := none } :
            Retrieval).Completes (w.sizes r.index) := by
          have hall : r.length (w.sizes r.index) ≤ r.sent + bytes := by omega
          exact Retrieval.completes_of_length
            (r := { r with sent := r.sent + bytes, remaining := none }) hsound.range hend
            hnotOpened hall
        have hrest : ¬ ({ r with sent := r.sent + bytes, remaining := none } :
            Retrieval).Active := by
          rintro (hopened | ⟨_, hsome⟩)
          · cases hnotOpened hopened
          · cases hsome
        have hle : remaining ≤ bytes := by omega
        exact h.claim hr hactive rfl rfl rfl hsound' hcompletes hrest
          (hmay remaining hremaining hle)
      · apply h.put
        · refine ⟨hsound.index, hsound.lease, hsound.range, hfits,
            fun hopened => absurd hopened hnotOpened, ?_⟩
          intro k hk
          obtain rfl := Option.some.inj hk
          refine ⟨Nat.pos_of_ne_zero hlast, ?_, hend⟩
          change remaining - bytes + (r.sent + bytes) = r.length (w.sizes r.index)
          omega
        · apply hrow
        · intro lease hl _ hretired
          apply hretired.2 r hr hl hactive
        · intro lease _ _ hnone
          cases hnone

/-- A response is given up. -/
theorem LeaseWorld.Counts.drop
    (h : w.Counts id max grant) {r : Retrieval} (hr : r ∈ w.retrievals.rows)
    (hstage : r.stage ≠ .opened) :
  (w.put { r with stage := .dropped }).Counts id max grant
  := by
  have hsound := h.sound r hr
  apply h.put
  · exact ⟨hsound.index, hsound.lease, hsound.range, hsound.sent, nofun, hsound.remaining⟩
  · intro s hs
    rw [Table.find?_key hr] at hs
    obtain rfl := Option.some.inj hs
    exact ⟨rfl, rfl, fun hcompletes => ⟨nofun, hcompletes.2⟩⟩
  · rintro lease _ (hopened | ⟨hstreaming, _⟩)
    · cases hopened
    · cases hstreaming
  · intro lease hl _ hnone hend
    apply h.done r hr lease hl hstage hnone hend

/-- Every regular step keeps the counts. -/
theorem LeaseWorld.Counts.step
    {w' : LeaseWorld} (h : w.Counts id max grant) {op : LeaseOp} (hregular : w.Regular op)
    (hstep : w.step op = some w') :
  ∃ grant', w'.Counts id max grant'
  := by
  have hrow := h.row
  cases op with
  | request rid index query cookie range =>
      simp only [LeaseWorld.step, Option.bind_eq_bind] at hstep
      obtain ⟨lease, hlease, hstep⟩ := Option.bind_eq_some_iff.mp hstep
      by_cases hrefused : (w.retrievals.find? rid).isSome ∨ validRange (w.sizes index) range = false
      · rw [if_pos hrefused] at hstep
        cases hstep
      · rw [if_neg hrefused] at hstep
        obtain rfl := Option.some.inj hstep
        rw [not_or, Option.not_isSome_iff_eq_none, Bool.not_eq_false] at hrefused
        use grant
        exact LeaseWorld.Counts.request (r := ⟨rid, index, lease, range, .opened, none, 0⟩) h hlease
          hrefused.1 hrefused.2 rfl rfl rfl
  | start rid holder nonce =>
      simp only [LeaseWorld.step, Option.bind_eq_bind, hrow, Option.bind_some] at hstep
      obtain ⟨r, hr, hstep⟩ := Option.bind_eq_some_iff.mp hstep
      have hmem := (Table.find?_eq_some.mp hr).1
      by_cases hstage : r.stage = .opened
      swap
      · rw [if_pos hstage] at hstep
        cases hstep
      rw [if_neg (not_not.mpr hstage)] at hstep
      have hsound := h.sound r hmem
      obtain ⟨hnone, _⟩ := hsound.opened hstage
      by_cases hredirect : r.lease = none ∧ 0 < min (grant.expiresAt - w.clock) downloadLeaseSecs
      · rw [if_pos hredirect] at hstep
        obtain rfl := Option.some.inj hstep
        use grant
        apply LeaseWorld.Counts.mint
        apply h.put
        · exact ⟨hsound.index, hsound.lease, hsound.range, hsound.sent, (fun he => by cases he),
            hsound.remaining⟩
        · intro s hs
          rw [Table.find?_key hmem] at hs
          obtain rfl := Option.some.inj hs
          exact ⟨rfl, rfl, fun hcompletes => absurd hstage hcompletes.1⟩
        · intro lease hl
          have hl' : r.lease = some (.file lease) := hl
          rw [hredirect.1] at hl'
          cases hl'
        · intro lease hl
          have hl' : r.lease = some (.file lease) := hl
          rw [hredirect.1] at hl'
          cases hl'
      · rw [if_neg hredirect] at hstep
        obtain rfl := Option.some.inj hstep
        use grant
        apply h.answer hmem hstage
        intro hlength
        apply hregular r hr hlength
        intro hunleased g hg
        rw [hrow] at hg
        obtain rfl := Option.some.inj hg
        rw [not_and, downloadLeaseSecs] at hredirect
        have hzero := hredirect hunleased
        omega
  | frame rid bytes =>
      simp only [LeaseWorld.step, Option.bind_eq_bind] at hstep
      obtain ⟨r, hr, hstep⟩ := Option.bind_eq_some_iff.mp hstep
      by_cases hrefused : r.stage ≠ .streaming ∨ r.length (w.sizes r.index) < r.sent + bytes
      · rw [if_pos hrefused] at hstep
        cases hstep
      · rw [if_neg hrefused] at hstep
        obtain rfl := Option.some.inj hstep
        rw [not_or, not_not, not_lt] at hrefused
        use grant
        apply h.frame (Table.find?_eq_some.mp hr).1 hrefused.1 hrefused.2
        apply hregular r hr
  | drop rid =>
      simp only [LeaseWorld.step, Option.bind_eq_bind] at hstep
      obtain ⟨r, hr, hstep⟩ := Option.bind_eq_some_iff.mp hstep
      obtain ⟨hmem, rfl⟩ := Table.find?_eq_some.mp hr
      use grant
      by_cases hstage : r.stage = .opened
      · rw [if_pos hstage] at hstep
        obtain rfl := Option.some.inj hstep
        apply h.erase hmem hstage
      · rw [if_neg hstage] at hstep
        obtain rfl := Option.some.inj hstep
        apply h.drop hmem hstage
  | record i =>
      simp only [LeaseWorld.step, Option.bind_eq_bind] at hstep
      obtain ⟨p, hp, hstep⟩ := Option.bind_eq_some_iff.mp hstep
      cases hdb : w.recordAt [p.index] with
      | some db =>
          have hdb' : ({ w with pending := w.pending.eraseIdx i } : LeaseWorld).recordAt [p.index]
              = some db := hdb
          rw [hdb'] at hstep
          obtain rfl := Option.some.inj hstep
          apply h.record hp hdb
      | none =>
          have hdb' : ({ w with pending := w.pending.eraseIdx i } : LeaseWorld).recordAt [p.index]
              = none := hdb
          rw [hdb'] at hstep
          obtain rfl := Option.some.inj hstep
          use grant
          apply h.refuse hp
          by_contra hleased
          have hsome := h.recordAt_isSome (List.mem_of_getElem? hp) hleased
          rw [hdb] at hsome
          cases hsome
  | bundle holder nonce =>
      simp only [LeaseWorld.step, Option.bind_eq_bind, hrow, Option.bind_some] at hstep
      cases hdb : w.recordAt (List.range grant.fileCount) with
      | none =>
          rw [hdb] at hstep
          obtain rfl := Option.some.inj hstep
          exact ⟨grant, h⟩
      | some db =>
          rw [hdb] at hstep
          obtain rfl := Option.some.inj hstep
          obtain ⟨grant', hother⟩ := h.other (hregular grant hrow) hdb
          exact ⟨grant', hother.mint _⟩
  | other indexes =>
      simp only [LeaseWorld.step] at hstep
      obtain rfl := Option.some.inj hstep
      cases hdb : w.recordAt indexes with
      | none => exact ⟨grant, h⟩
      | some db => apply h.other hregular hdb
  | foreign lease =>
      simp only [LeaseWorld.step] at hstep
      split_ifs at hstep with hid
      obtain rfl := Option.some.inj hstep
      exact ⟨grant, h.foreign hregular hid⟩
  | tick clock =>
      simp only [LeaseWorld.step] at hstep
      split_ifs at hstep with hle
      obtain rfl := Option.some.inj hstep
      exact ⟨grant, h.tick hle⟩

/-- A port that starts has no records. -/
theorem LeaseWorld.Fresh.counts (h : w.Fresh grant) :
  w.Counts w.id grant.maxDownloads grant
  where
  id_eq := rfl
  accounted := h.accounted
  max_eq := rfl
  limit := h.limit
  room f hf hid m hm := by
    have hle := (h.accounted.limit f hf hid).1 m hm
    use hle
    rw [LeaseWorld.pendingAt, h.pending]
    exact fun _ => hle
  covered f hf hid m hm := by
    rw [LeaseWorld.recordedAt, h.recorded]
    apply Nat.zero_le
  sound r hr := by
    rw [h.retrievals] at hr
    cases hr
  complete p hp := by
    rw [LeaseWorld.records, h.pending, h.recorded] at hp
    cases hp
  once lease := by
    rw [LeaseWorld.records, h.pending, h.recorded]
    apply Nat.zero_le
  counted lease hlease := by
    rw [h.counted] at hlease
    cases hlease
  kept p hp := by
    rw [LeaseWorld.records, h.pending, h.recorded] at hp
    cases hp
  done r hr := by
    rw [h.retrievals] at hr
    cases hr

end Steps

/-- Downloads are counted in every run whose claims are in order. -/
theorem leases_count_downloads
    {w w' : LeaseWorld} {grant : GrantRow} {ops : List LeaseOp} (hw : w.Fresh grant)
    (hregular : Runs.Along LeaseWorld.step LeaseWorld.Regular w ops)
    (hrun : Runs.run LeaseWorld.step w ops = some w') :
  w'.CountsDownloads
  := by
  have hstep : ∀ (s : LeaseWorld) (op : LeaseOp) (t : LeaseWorld), s.Regular op →
      (∃ g, s.Counts w.id grant.maxDownloads g) → s.step op = some t →
        ∃ g, t.Counts w.id grant.maxDownloads g := by
    intro s op t hop ⟨g, hg⟩ ht
    apply hg.step hop ht
  obtain ⟨g, hg⟩ := Runs.run_invariant_along hstep hregular ⟨grant, hw.counts⟩ hrun
  apply hg.countsDownloads

/-! ### A refused record -/

/-- A grant of one file, which may be downloaded once. -/
def onceGrant : GrantRow :=
  ⟨"grant", "hash", 1000, none, 0, some 1, none, none, .ok 1, 1⟩

/-- A port with that grant, whose file has ten bytes. -/
def oncePort : LeaseWorld where
  db := {
    grants := ⟨[onceGrant], by decide⟩
    files := ⟨[⟨"grant", 0, 0, none, none⟩], by decide⟩
    tickets := .empty }
  id := "grant"
  sizes _ := 10
  clock := 5
  counted := []
  leases := []
  retrievals := .empty
  pending := []
  recorded := []

theorem fresh_oncePort : oncePort.Fresh onceGrant where
  accounted := by
    have hfiles : ∀ f, f ∈ oncePort.db.files.rows ↔ f = ⟨"grant", 0, 0, none, none⟩ := by
      intro f
      apply List.mem_singleton
    constructor
    case row => rfl
    case index =>
      intro i
      rw [show onceGrant.fileCount = 1 from rfl, Nat.lt_one_iff]
      constructor
      · rintro ⟨f, hf, _, rfl⟩
        rw [(hfiles f).mp hf]
      · rintro rfl
        exact ⟨_, (hfiles _).mpr rfl, rfl, rfl⟩
    case fileCount => decide
    case limit =>
      intro f hf _
      rw [(hfiles f).mp hf]
      decide
    case least =>
      constructor
      · exact ⟨_, (hfiles _).mpr rfl, rfl, rfl⟩
      · intro n _
        apply Nat.zero_le
  limit := by decide
  counted := rfl
  retrievals := rfl
  pending := rfl
  recorded := rfl

/-- The lease of a request at the port that stands there with a nonce. -/
def onceLease (nonce : String) : Lease := ⟨1000, nonce, "grant", "hash", 0, ""⟩

/-- A request gets a lease, and a retrieval with it counts; a delivery of the spent file is
refused, and another retrieval with the lease resumes. -/
def resumingOps : List LeaseOp :=
  [.request "a" 0 none none none, .start "a" "" "first",
    .request "b" 0 (some (onceLease "first")) none none, .start "b" "" "", .frame "b" 10, .record 0,
    .other [0], .request "c" 0 (some (onceLease "first")) none (some (4, 9)), .start "c" "" "",
    .frame "c" 6]

theorem leases_count_downloads_once :
  ∃ w', Runs.run LeaseWorld.step oncePort resumingOps = some w'
    ∧ w'.CountsDownloads ∧ w'.pending = []
    ∧ ∃ p ∈ w'.recorded, p.lease = some (.file (onceLease "first"))
  := by
  have hresumed : (Runs.run LeaseWorld.step oncePort resumingOps).any (fun w =>
      w.activeDownloadGrant 0 (some (onceLease "first")) none
          == some (some (.file (onceLease "first")))
        && ((w.db.grants.find? w.id).any fun grant =>
          (outboundGrantFile w.db grant 0).any (grantIsExhausted grant))
        && decide (w.pending = [])) = true := by
    decide +kernel
  obtain ⟨w', hrun, hw'⟩ := (Option.any_eq_true _ _).mp hresumed
  rw [Bool.and_eq_true, Bool.and_eq_true, beq_iff_eq, decide_eq_true_eq] at hw'
  obtain ⟨⟨hpasses, hspent⟩, hpending⟩ := hw'
  obtain ⟨grant, hgrant, hfile⟩ := (Option.any_eq_true _ _).mp hspent
  obtain ⟨file, hfile, hexhausted⟩ := (Option.any_eq_true _ _).mp hfile
  have hregular : Runs.Along LeaseWorld.step LeaseWorld.Regular oncePort resumingOps := by
    decide +kernel
  have hcounts := leases_count_downloads fresh_oncePort hregular hrun
  exact ⟨w', hrun, hcounts, hpending,
    hcounts.passes 0 _ _ _ hpasses ⟨grant, file, hgrant, hfile, hexhausted⟩⟩

/-- Two requests get a lease each, and both hand the last byte over. -/
def racingOps : List LeaseOp :=
  [.request "a" 0 none none none, .start "a" "" "first", .request "b" 0 none none none,
    .start "b" "" "second", .request "c" 0 (some (onceLease "first")) none none, .start "c" "" "",
    .request "d" 0 (some (onceLease "second")) none none, .start "d" "" "", .frame "c" 10,
    .frame "d" 10, .record 0, .record 0]

/-- The lease whose record was refused passes the spent count without a recorded download. -/
theorem refused_lease_passes :
  ¬ ∀ (w w' : LeaseWorld) (grant : GrantRow) (ops : List LeaseOp), w.Fresh grant →
    Runs.run LeaseWorld.step w ops = some w' → w'.CountsDownloads
  := by
  intro h
  have hraced : (Runs.run LeaseWorld.step oncePort racingOps).any (fun w =>
      w.activeDownloadGrant 0 (some (onceLease "second")) none
          == some (some (.file (onceLease "second")))
        && ((w.db.grants.find? w.id).any fun grant =>
          (outboundGrantFile w.db grant 0).any (grantIsExhausted grant))
        && w.recorded.all fun p => decide (p.lease ≠ some (.file (onceLease "second")))) = true := by
    decide
  obtain ⟨w', hrun, hw'⟩ := (Option.any_eq_true _ _).mp hraced
  rw [Bool.and_eq_true, Bool.and_eq_true, beq_iff_eq] at hw'
  obtain ⟨⟨hpasses, hspent⟩, hnone⟩ := hw'
  obtain ⟨grant, hgrant, hfile⟩ := (Option.any_eq_true _ _).mp hspent
  obtain ⟨file, hfile, hexhausted⟩ := (Option.any_eq_true _ _).mp hfile
  have hcounts := h oncePort w' onceGrant racingOps fresh_oncePort hrun
  obtain ⟨p, hp, hlease⟩ := hcounts.passes 0 _ _ _ hpasses ⟨grant, file, hgrant, hfile, hexhausted⟩
  rw [List.all_eq_true] at hnone
  apply of_decide_eq_true (hnone p hp) hlease

end Votport
