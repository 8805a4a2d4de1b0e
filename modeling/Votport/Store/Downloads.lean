import Votport.Store.Outbound

/-!
# Download accounting

The files of a normalized grant have the indexes below its file count, none is over the
limit, and the count of the grant is the least of theirs.  A recorded download adds one
to each file it names, once however often it is named and whichever of the two updates
does it, and keeps all of this.  A count that has reached `i64::MAX` stays.
-/

namespace Votport

/-! ### The updates -/

/-- There is a file at the index, below the limit. -/
def Recordable
    (files : Table GrantFileRow.key) (id : String) (max : Option ℕ) (index : ℕ) : Prop :=
  ∃ f ∈ files.rows, f.grantId = id ∧ f.fileIndex = index ∧ belowLimit max f.downloads

/-- The files with one more download at each of the indexes. -/
def recordAll
    (files : Table GrantFileRow.key) (id : String) (indexes : List ℕ) (at' : ℕ) :
    Table GrantFileRow.key :=
  updateFiles files (fun f => f.grantId = id ∧ f.fileIndex ∈ indexes) at'

theorem file_eq_of_index_eq
    {files : Table GrantFileRow.key} {f f' : GrantFileRow} (hf : f ∈ files.rows)
    (hf' : f' ∈ files.rows) (hid : f.grantId = f'.grantId) (hindex : f.fileIndex = f'.fileIndex) :
  f = f'
  := files.eq_of_key_eq hf hf' (by rw [GrantFileRow.key, GrantFileRow.key, hid, hindex])

theorem updateFiles_congr
    {files : Table GrantFileRow.key} {p q : GrantFileRow → Prop} [DecidablePred p]
    [DecidablePred q] (h : ∀ f ∈ files.rows, p f ↔ q f) (at' : ℕ) :
  updateFiles files p at' = updateFiles files q at'
  := by
  apply Table.ext
  apply List.map_congr_left
  intro f hf
  simp only [h f hf]

theorem mem_updateFiles
    {files : Table GrantFileRow.key} {p : GrantFileRow → Prop} [DecidablePred p] {at' : ℕ}
    {f : GrantFileRow} :
  f ∈ (updateFiles files p at').rows
    ↔ ∃ f' ∈ files.rows, (if p f' then f'.record at' else f') = f
  := Table.mem_map

@[simp]
theorem record_grantId (f : GrantFileRow) (at' : ℕ) : (f.record at').grantId = f.grantId := rfl

@[simp]
theorem record_fileIndex (f : GrantFileRow) (at' : ℕ) :
  (f.record at').fileIndex = f.fileIndex
  := rfl

/-- Recording at one index and then at others is recording at all of them. -/
theorem recordAll_cons
    (files : Table GrantFileRow.key) (id : String) {index : ℕ} {indexes : List ℕ}
    (h : index ∉ indexes) (at' : ℕ) :
  recordAll (recordAll files id [index] at') id indexes at'
    = recordAll files id (index :: indexes) at'
  := by
  apply Table.ext
  rw [recordAll, recordAll, recordAll, updateFiles, updateFiles, updateFiles, Table.map, Table.map,
    Table.map]
  dsimp only
  rw [List.map_map]
  apply List.map_congr_left
  intro f _
  simp only [Function.comp, List.mem_cons]
  by_cases hid : f.grantId = id
  · by_cases hindex : f.fileIndex = index
    · simp [hid, hindex, h]
    · simp [hid, hindex]
  · simp [hid]

/-- Recording at one index leaves the others recordable. -/
theorem recordable_recordAll_singleton
    (files : Table GrantFileRow.key) (id : String) (max : Option ℕ) {index other : ℕ}
    (h : other ≠ index) (at' : ℕ) :
  Recordable (recordAll files id [index] at') id max other ↔ Recordable files id max other
  := by
  constructor
  · rintro ⟨f, hf, hid, hindex, hbelow⟩
    obtain ⟨f', hf', rfl⟩ := mem_updateFiles.mp hf
    split_ifs at hid hindex hbelow with hp
    · rw [List.mem_singleton] at hp
      rw [record_fileIndex, hp.2] at hindex
      exact absurd hindex.symm h
    · exact ⟨f', hf', hid, hindex, hbelow⟩
  · rintro ⟨f, hf, hid, hindex, hbelow⟩
    refine ⟨f, mem_updateFiles.mpr ⟨f, hf, ?_⟩, hid, hindex, hbelow⟩
    rw [if_neg]
    rw [List.mem_singleton, hindex]
    exact fun hc => h hc.2

section Bounded

variable {files : Table GrantFileRow.key} {id : String}

/-- The indexes of the grant's files are below `i64::MAX`. -/
def IndexesBounded (files : Table GrantFileRow.key) (id : String) : Prop :=
  ∀ f ∈ files.rows, f.grantId = id → f.fileIndex < i64Max

theorem indexesBounded_recordAll (h : IndexesBounded files id) (indexes : List ℕ) (at' : ℕ) :
  IndexesBounded (recordAll files id indexes at') id
  := by
  intro f hf hid
  obtain ⟨f', hf', rfl⟩ := mem_updateFiles.mp hf
  split_ifs at hid ⊢
  · apply h f' hf' hid
  · apply h f' hf' hid

theorem fileIndex_eq_clampI64
    (h : IndexesBounded files id) {f : GrantFileRow} (hf : f ∈ files.rows) (hid : f.grantId = id)
    (index : ℕ) :
  f.fileIndex = clampI64 index ↔ f.fileIndex = index
  := by
  have := h f hf hid
  rw [clampI64]
  omega

/-- Recording at one index succeeds exactly when there is a file below the limit. -/
theorem recordIndex_of_recordable
    (h : IndexesBounded files id) {max : Option ℕ} {index : ℕ}
    (hrec : Recordable files id max index) (at' : ℕ) :
  recordIndex id max at' files index = .ok (recordAll files id [index] at')
  := by
  obtain ⟨f, hf, hid, hindex, hbelow⟩ := hrec
  have hchanged : files.rows.countP (fun f => f.grantId = id ∧ f.fileIndex = clampI64 index
      ∧ belowLimit max f.downloads) ≠ 0 := by
    rw [← Nat.pos_iff_ne_zero, List.countP_pos_iff]
    use f, hf
    rw [decide_eq_true_iff, fileIndex_eq_clampI64 h hf hid]
    exact ⟨hid, hindex, hbelow⟩
  rw [recordIndex, if_neg hchanged]
  apply congrArg Except.ok
  apply updateFiles_congr
  intro f' hf'
  rw [List.mem_singleton]
  constructor
  · rintro ⟨hid', hindex', _⟩
    exact ⟨hid', (fileIndex_eq_clampI64 h hf' hid' index).mp hindex'⟩
  · rintro ⟨hid', hindex'⟩
    obtain rfl := file_eq_of_index_eq hf hf' (hid.trans hid'.symm) (hindex.trans hindex'.symm)
    exact ⟨hid, (fileIndex_eq_clampI64 h hf hid index).mpr hindex, hbelow⟩

theorem recordIndex_of_not_recordable
    (h : IndexesBounded files id) {max : Option ℕ} {index : ℕ}
    (hrec : ¬ Recordable files id max index) (at' : ℕ) :
  recordIndex id max at' files index
    = .error (if ∃ f ∈ files.rows, f.grantId = id ∧ f.fileIndex = index
        then outboundDownloadLimitReached else "outbound file index out of range")
  := by
  have hchanged : files.rows.countP (fun f => f.grantId = id ∧ f.fileIndex = clampI64 index
      ∧ belowLimit max f.downloads) = 0 := by
    rw [List.countP_eq_zero]
    intro f hf
    rw [decide_eq_true_iff]
    rintro ⟨hid, hindex, hbelow⟩
    exact hrec ⟨f, hf, hid, (fileIndex_eq_clampI64 h hf hid index).mp hindex, hbelow⟩
  have hexists : (∃ f ∈ files.rows, f.grantId = id ∧ f.fileIndex = clampI64 index)
      ↔ ∃ f ∈ files.rows, f.grantId = id ∧ f.fileIndex = index := by
    constructor
    · rintro ⟨f, hf, hid, hindex⟩
      exact ⟨f, hf, hid, (fileIndex_eq_clampI64 h hf hid index).mp hindex⟩
    · rintro ⟨f, hf, hid, hindex⟩
      exact ⟨f, hf, hid, (fileIndex_eq_clampI64 h hf hid index).mpr hindex⟩
  rw [recordIndex, if_pos hchanged]
  simp only [hexists]
  split_ifs <;> rfl

/-- Recording at distinct indexes, all of them recordable, records at each. -/
theorem recordIndexes_of_recordable
    (h : IndexesBounded files id) {indexes : List ℕ} (hnodup : indexes.Nodup) {max : Option ℕ}
    (hrec : ∀ index ∈ indexes, Recordable files id max index) (at' : ℕ) :
  recordIndexes files id indexes max at' = .ok (recordAll files id indexes at')
  := by
  induction indexes generalizing files with
  | nil =>
      apply congrArg Except.ok
      apply Table.ext
      simp [recordAll, updateFiles, Table.map]
  | cons index indexes ih =>
      obtain ⟨hnot, hnodup⟩ := List.nodup_cons.mp hnodup
      rw [recordIndexes, List.foldlM_cons,
        recordIndex_of_recordable h (hrec index List.mem_cons_self)]
      rw [← recordAll_cons files id hnot]
      apply ih (indexesBounded_recordAll h _ _) hnodup
      intro other hother
      rw [recordable_recordAll_singleton]
      · apply hrec other (List.mem_cons_of_mem index hother)
      · rintro rfl
        contradiction

/-- Recording at distinct indexes fails when one is not recordable, because of the limit
when there is a file at each. -/
theorem recordIndexes_of_not_recordable
    (h : IndexesBounded files id) {indexes : List ℕ} (hnodup : indexes.Nodup) {max : Option ℕ}
    (hrec : ¬ ∀ index ∈ indexes, Recordable files id max index) (at' : ℕ) :
  ∃ e, recordIndexes files id indexes max at' = .error e
    ∧ ((∀ index ∈ indexes, ∃ f ∈ files.rows, f.grantId = id ∧ f.fileIndex = index) →
      e = outboundDownloadLimitReached)
  := by
  induction indexes generalizing files with
  | nil =>
      exact absurd (by simp) hrec
  | cons index indexes ih =>
      obtain ⟨hnot, hnodup⟩ := List.nodup_cons.mp hnodup
      rw [recordIndexes, List.foldlM_cons]
      by_cases hindex : Recordable files id max index
      · rw [recordIndex_of_recordable h hindex]
        have hrest : ¬ ∀ other ∈ indexes,
            Recordable (recordAll files id [index] at') id max other := by
          intro hall
          apply hrec
          intro other hother
          rcases List.mem_cons.mp hother with rfl | hother
          · apply hindex
          · have hne : other ≠ index := by
              rintro rfl
              contradiction
            rw [← recordable_recordAll_singleton files id max hne at']
            apply hall other hother
        obtain ⟨e, he, hlimit⟩ := ih (indexesBounded_recordAll h _ _) hnodup hrest
        use e, he
        intro hall
        apply hlimit
        intro other hother
        obtain ⟨f, hf, hid, hfindex⟩ := hall other (List.mem_cons_of_mem index hother)
        refine ⟨_, mem_updateFiles.mpr ⟨f, hf, rfl⟩, ?_, ?_⟩
        · split_ifs <;> apply hid
        · split_ifs <;> apply hfindex
      · rw [recordIndex_of_not_recordable h hindex]
        refine ⟨_, rfl, ?_⟩
        intro hall
        rw [if_pos (hall index List.mem_cons_self)]

end Bounded

/-! ### Accounted grants -/

/-- The grant `id` is normalized, and its row and its files tell the same. -/
structure Accounted (db : Outbound) (id : String) (grant : GrantRow) : Prop where
  /-- The grant's row. -/
  row : db.grants.find? id = some grant
  /-- The files have the indexes below the file count. -/
  index : ∀ i, (∃ f ∈ db.files.rows, f.grantId = id ∧ f.fileIndex = i) ↔ i < grant.fileCount
  /-- There is a file, and their number is an `i64`. -/
  fileCount : 0 < grant.fileCount ∧ grant.fileCount ≤ i64Max
  /-- No file is over the limit. -/
  limit : ∀ f ∈ db.files.rows, f.grantId = id →
    (∀ max ∈ grant.maxDownloads, f.downloads ≤ max) ∧ f.downloads ≤ i64Max
  /-- The count of the grant is the least of its files. -/
  least : IsLeast {n | ∃ f ∈ db.files.rows, f.grantId = id ∧ f.downloads = n} grant.downloads

theorem mem_uniqueIndexes {indexes : List ℕ} {index : ℕ} :
  index ∈ uniqueIndexes indexes ↔ index ∈ indexes
  := by
  rw [uniqueIndexes, (List.perm_insertionSort _ _).mem_iff, List.mem_dedup]

theorem nodup_uniqueIndexes (indexes : List ℕ) :
  (uniqueIndexes indexes).Nodup
  := by
  rw [uniqueIndexes, (List.perm_insertionSort _ _).nodup_iff]
  apply List.nodup_dedup

theorem uniqueIndexes_congr
    {indexes indexes' : List ℕ} (h : ∀ i, i ∈ indexes ↔ i ∈ indexes') :
  uniqueIndexes indexes = uniqueIndexes indexes'
  := by
  have hperm : (uniqueIndexes indexes).Perm (uniqueIndexes indexes') := by
    rw [List.perm_ext_iff_of_nodup (nodup_uniqueIndexes _) (nodup_uniqueIndexes _)]
    intro i
    rw [mem_uniqueIndexes, mem_uniqueIndexes, h]
  apply List.Perm.eq_of_pairwise' (r := (· ≤ ·)) (List.pairwise_insertionSort _ _)
    (List.pairwise_insertionSort _ _) hperm

theorem uniqueIndexes_range (n : ℕ) :
  uniqueIndexes (List.range n) = List.range n
  := by
  rw [uniqueIndexes, List.dedup_eq_self.mpr List.nodup_range]
  apply List.Pairwise.insertionSort_eq
  apply List.pairwise_le_range

namespace Accounted

variable {db : Outbound} {id : String} {grant : GrantRow} (h : Accounted db id grant)
include h

theorem id_eq : grant.id = id := (Table.find?_eq_some.mp h.row).2

theorem indexesBounded :
  IndexesBounded db.files id
  := by
  intro f hf hid
  have := (h.index f.fileIndex).mp ⟨f, hf, hid, rfl⟩
  have := h.fileCount
  omega

theorem length_grantFiles :
  (grantFiles db.files id).length = grant.fileCount
  := by
  have hmem : ∀ f, f ∈ grantFiles db.files id ↔ f ∈ db.files.rows ∧ f.grantId = id := by
    intro f
    rw [grantFiles, List.mem_filter, decide_eq_true_iff]
  have hnodup : ((grantFiles db.files id).map GrantFileRow.fileIndex).Nodup := by
    apply List.Nodup.map_on
    · intro f hf f' hf' he
      rw [hmem] at hf hf'
      apply file_eq_of_index_eq hf.1 hf'.1 (hf.2.trans hf'.2.symm) he
    · apply (List.Nodup.of_map _ db.files.nodup).filter
  have hperm : ((grantFiles db.files id).map GrantFileRow.fileIndex).Perm
      (List.range grant.fileCount) := by
    rw [List.perm_ext_iff_of_nodup hnodup List.nodup_range]
    intro i
    rw [List.mem_range, ← h.index, List.mem_map]
    constructor
    · rintro ⟨f, hf, rfl⟩
      exact ⟨f, ((hmem f).mp hf).1, ((hmem f).mp hf).2, rfl⟩
    · rintro ⟨f, hf, hid, rfl⟩
      exact ⟨f, (hmem f).mpr ⟨hf, hid⟩, rfl⟩
  have hlength := hperm.length_eq
  rw [List.length_map, List.length_range] at hlength
  apply hlength

/-- The set-wise update does what the update of each file does. -/
theorem recordFullRange_eq (at' : ℕ) :
  recordFullRange db.files id grant.fileCount grant.maxDownloads at'
    = recordIndexes db.files id (List.range grant.fileCount) grant.maxDownloads at'
  := by
  have hcount : db.files.rows.countP (fun f => f.grantId = id) = grant.fileCount := by
    rw [List.countP_eq_length_filter]
    apply h.length_grantFiles
  have hinRange : db.files.rows.countP
      (fun f => f.grantId = id ∧ f.fileIndex < grant.fileCount) = grant.fileCount := by
    rw [← hcount]
    apply List.countP_congr
    intro f hf
    rw [decide_eq_true_iff, decide_eq_true_iff]
    constructor
    · apply And.left
    · intro hid
      rw [hcount]
      exact ⟨hid, (h.index _).mp ⟨f, hf, hid, rfl⟩⟩
  have hexists : ∀ i ∈ List.range grant.fileCount,
      ∃ f ∈ db.files.rows, f.grantId = id ∧ f.fileIndex = i := by
    intro i hi
    apply (h.index i).mpr (List.mem_range.mp hi)
  by_cases hrec : ∀ i ∈ List.range grant.fileCount, Recordable db.files id grant.maxDownloads i
  · have hbelow : ∀ f ∈ db.files.rows, f.grantId = id →
        belowLimit grant.maxDownloads f.downloads := by
      intro f hf hid
      obtain ⟨f', hf', hid', hindex, hbelow⟩ :=
        hrec f.fileIndex (List.mem_range.mpr ((h.index _).mp ⟨f, hf, hid, rfl⟩))
      rw [file_eq_of_index_eq hf hf' (hid.trans hid'.symm) hindex.symm]
      apply hbelow
    have hchanged : db.files.rows.countP
        (fun f => f.grantId = id ∧ belowLimit grant.maxDownloads f.downloads)
          = grant.fileCount := by
      rw [← hcount]
      apply List.countP_congr
      intro f hf
      rw [decide_eq_true_iff, decide_eq_true_iff]
      exact ⟨And.left, fun hid => ⟨hid, hbelow f hf hid⟩⟩
    rw [recordIndexes_of_recordable h.indexesBounded List.nodup_range hrec, recordFullRange,
      if_neg (not_not.mpr hchanged)]
    apply congrArg Except.ok
    apply updateFiles_congr
    intro f hf
    constructor
    · rintro ⟨hid, _⟩
      exact ⟨hid, List.mem_range.mpr ((h.index _).mp ⟨f, hf, hid, rfl⟩)⟩
    · rintro ⟨hid, _⟩
      exact ⟨hid, hbelow f hf hid⟩
  · obtain ⟨e, he, hlimit⟩ := recordIndexes_of_not_recordable h.indexesBounded List.nodup_range
      hrec at'
    rw [he, hlimit hexists]
    obtain ⟨i, hi, hnot⟩ : ∃ i ∈ List.range grant.fileCount,
        ¬ Recordable db.files id grant.maxDownloads i := by
      simpa using hrec
    obtain ⟨f, hf, hid, hindex⟩ := hexists i hi
    have hexhausted : ∃ f ∈ db.files.rows, f.grantId = id
        ∧ ¬ belowLimit grant.maxDownloads f.downloads :=
      ⟨f, hf, hid, fun hbelow => hnot ⟨f, hf, hid, hindex, hbelow⟩⟩
    have hchanged : db.files.rows.countP
        (fun f => f.grantId = id ∧ belowLimit grant.maxDownloads f.downloads)
          ≠ grant.fileCount := by
      intro he
      have hall : (grantFiles db.files id).countP (belowLimit grant.maxDownloads ·.downloads)
          = (grantFiles db.files id).length := by
        rw [h.length_grantFiles, ← he, grantFiles, List.countP_filter]
        apply List.countP_congr
        simp [and_comm]
      rw [List.countP_eq_length] at hall
      obtain ⟨f, hf, hid, hnot⟩ := hexhausted
      apply hnot
      simpa using hall f (by rw [grantFiles, List.mem_filter]; simpa using ⟨hf, hid⟩)
    rw [recordFullRange, if_pos hchanged]
    dsimp only
    rw [if_pos ⟨hcount, hinRange, hexhausted⟩]
    rfl

/-- Whichever update a call takes, it records at its distinct indexes. -/
theorem recordFiles_eq (indexes : List ℕ) (at' : ℕ) :
  recordFiles db grant indexes at'
    = recordIndexes db.files id (uniqueIndexes indexes) grant.maxDownloads (clampI64 at')
  := by
  rw [recordFiles, h.id_eq]
  split_ifs with hfull
  · rw [hfull.2, uniqueIndexes_range, h.recordFullRange_eq]
  · rfl

theorem recordGrantDownload_eq (indexes : List ℕ) (at' : ℕ) :
  recordGrantDownload db id indexes at'
    = if ¬ belowLimit grant.maxDownloads grant.downloads then throw outboundDownloadLimitReached
      else recordNormalized db grant indexes at'
  := by
  have hfiles : grantFiles db.files id ≠ [] := by
    rw [← List.length_pos_iff_ne_nil, h.length_grantFiles]
    apply h.fileCount.1
  rw [recordGrantDownload, h.row]
  dsimp only
  rw [if_pos hfiles]

/-- The calls that name the same files do the same. -/
theorem recordDownload_congr
    {indexes indexes' : List ℕ} (hset : ∀ i, i ∈ indexes ↔ i ∈ indexes') (at' : ℕ)
    (ticket : Option String) :
  recordDownload db id indexes at' ticket = recordDownload db id indexes' at' ticket
  := by
  have hnormalized : recordNormalized db grant indexes at'
      = recordNormalized db grant indexes' at' := by
    rw [recordNormalized, recordNormalized, h.recordFiles_eq, h.recordFiles_eq,
      uniqueIndexes_congr hset]
    simp only [countDownloads, uniqueIndexes_congr hset]
  rw [recordDownload, recordDownload, h.recordGrantDownload_eq, h.recordGrantDownload_eq,
    hnormalized]

end Accounted

/-! ### A recorded download -/

/-- What a recorded download does to an accounted grant and its files. -/
structure Recorded
    (db db' : Outbound) (id : String) (indexes : List ℕ) (at' : ℕ)
    (result : OutboundDownloadResult) (grant grant' : GrantRow) : Prop where
  /-- Every named file was there, below the limit. -/
  recordable : ∀ i ∈ indexes, Recordable db.files id grant.maxDownloads i
  /-- The named files have one more download. -/
  files : db'.files = recordAll db.files id indexes (clampI64 at')
  /-- The grant stays accounted. -/
  accounted : Accounted db' id grant'
  /-- Only the counters of the grant change. -/
  counters : ∃ downloads, grant' = grant.record downloads at'
  /-- The grant's count does not go down. -/
  le : grant.downloads ≤ grant'.downloads
  /-- The first download is this one when there was none. -/
  firstDownload : result.firstDownload = grant.firstDownloadAt.isNone
  /-- The delivery is completed by this download when the grant's count leaves zero. -/
  completedDelivery : result.completedDelivery = true ↔ grant.downloads = 0 ∧ 0 < grant'.downloads

theorem recordAll_uniqueIndexes
    (files : Table GrantFileRow.key) (id : String) (indexes : List ℕ) (at' : ℕ) :
  recordAll files id (uniqueIndexes indexes) at' = recordAll files id indexes at'
  := by
  apply updateFiles_congr
  intro f _
  rw [mem_uniqueIndexes]

/-- Recording keeps the indexes of the files. -/
theorem exists_recordAll_index
    (files : Table GrantFileRow.key) (id : String) (indexes : List ℕ) (at' i : ℕ) :
  (∃ f ∈ (recordAll files id indexes at').rows, f.grantId = id ∧ f.fileIndex = i)
    ↔ ∃ f ∈ files.rows, f.grantId = id ∧ f.fileIndex = i
  := by
  constructor
  · rintro ⟨f, hf, hid, hindex⟩
    obtain ⟨f', hf', rfl⟩ := mem_updateFiles.mp hf
    split_ifs at hid hindex
    · exact ⟨f', hf', hid, hindex⟩
    · exact ⟨f', hf', hid, hindex⟩
  · rintro ⟨f, hf, hid, hindex⟩
    refine ⟨_, mem_updateFiles.mpr ⟨f, hf, rfl⟩, ?_, ?_⟩
    · split_ifs <;> apply hid
    · split_ifs <;> apply hindex

theorem record_downloads_le (f : GrantFileRow) (at' : ℕ) :
  f.downloads ≤ (f.record at').downloads
  := by
  rw [GrantFileRow.record]
  dsimp only
  split_ifs <;> omega

/-- No recorded file goes over its limit. -/
theorem record_limit
    {f : GrantFileRow} {max : Option ℕ} (hbelow : belowLimit max f.downloads)
    (hle : f.downloads ≤ i64Max) (at' : ℕ) :
  (∀ m ∈ max, (f.record at').downloads ≤ m) ∧ (f.record at').downloads ≤ i64Max
  := by
  rw [GrantFileRow.record]
  dsimp only
  constructor
  · intro m hm
    have := hbelow m hm
    split_ifs <;> omega
  · split_ifs <;> omega

namespace Accounted

variable {db : Outbound} {id : String} {grant : GrantRow} (h : Accounted db id grant)
include h

/-- Recording keeps the limit. -/
theorem limit_recordAll
    {indexes : List ℕ} (hrec : ∀ i ∈ indexes, Recordable db.files id grant.maxDownloads i)
    (at' : ℕ) :
  ∀ f ∈ (recordAll db.files id indexes at').rows, f.grantId = id →
    (∀ max ∈ grant.maxDownloads, f.downloads ≤ max) ∧ f.downloads ≤ i64Max
  := by
  intro f hf hid
  obtain ⟨f', hf', rfl⟩ := mem_updateFiles.mp hf
  split_ifs at hid ⊢ with hp
  · obtain ⟨f'', hf'', hid'', hindex, hbelow⟩ := hrec f'.fileIndex hp.2
    obtain rfl := file_eq_of_index_eq hf' hf'' (hid.trans hid''.symm) hindex.symm
    apply record_limit hbelow (h.limit f' hf' hid).2
  · apply h.limit f' hf' hid

/-- After recording, the count is the least of the files', and not less than before. -/
theorem countDownloads_recordAll
    {indexes : List ℕ} {at' downloads : ℕ}
    (hok : countDownloads (recordAll db.files id indexes at') grant indexes = .ok downloads) :
  IsLeast {n | ∃ f ∈ (recordAll db.files id indexes at').rows, f.grantId = id ∧ f.downloads = n}
      downloads
    ∧ grant.downloads ≤ downloads
  := by
  rw [countDownloads, h.id_eq] at hok
  split_ifs at hok with hnil
  · cases hok
    have hsame : recordAll db.files id indexes at' = db.files := by
      rw [← recordAll_uniqueIndexes, hnil]
      apply Table.ext
      simp [recordAll, updateFiles, Table.map]
    rw [hsame]
    exact ⟨h.least, le_refl _⟩
  · split at hok
    · cases hok
    · rename_i least hleast
      cases hok
      rw [List.min?_eq_some_iff] at hleast
      have hmem : ∀ n, n ∈ (grantFiles (recordAll db.files id indexes at') id).map
          GrantFileRow.downloads ↔ ∃ f ∈ (recordAll db.files id indexes at').rows,
            f.grantId = id ∧ f.downloads = n := by
        intro n
        rw [List.mem_map]
        simp only [grantFiles, List.mem_filter, decide_eq_true_iff, and_assoc]
      constructor
      · constructor
        · apply (hmem _).mp hleast.1
        · intro n hn
          apply hleast.2 n ((hmem n).mpr hn)
      · obtain ⟨f, hf, hid, rfl⟩ := (hmem _).mp hleast.1
        obtain ⟨f', hf', rfl⟩ := mem_updateFiles.mp hf
        split_ifs at hid ⊢
        · apply le_trans (h.least.2 ⟨f', hf', hid, rfl⟩) (record_downloads_le f' at')
        · apply h.least.2 ⟨f', hf', hid, rfl⟩

theorem recordNormalized_spec
    {db' : Outbound} {indexes : List ℕ} {at' : ℕ} {result : OutboundDownloadResult}
    (hok : recordNormalized db grant indexes at' = .ok (result, db')) :
  ∃ grant', Recorded db db' id indexes at' result grant grant' ∧ db'.tickets = db.tickets
  := by
  rw [recordNormalized, h.recordFiles_eq] at hok
  by_cases hrec : ∀ i ∈ uniqueIndexes indexes, Recordable db.files id grant.maxDownloads i
  · rw [recordIndexes_of_recordable h.indexesBounded (nodup_uniqueIndexes _) hrec,
      recordAll_uniqueIndexes] at hok
    have hrec' : ∀ i ∈ indexes, Recordable db.files id grant.maxDownloads i :=
      fun i hi => hrec i (mem_uniqueIndexes.mpr hi)
    cases hcount : countDownloads (recordAll db.files id indexes (clampI64 at')) grant indexes with
    | error e =>
        simp only [bind, Except.bind, hcount] at hok
        cases hok
    | ok downloads =>
        simp only [bind, Except.bind, hcount] at hok
        cases hok
        obtain ⟨hleast, hle⟩ := h.countDownloads_recordAll hcount
        have hlimit := h.limit_recordAll hrec' (clampI64 at')
        have hclamp : clampI64 downloads = downloads := by
          obtain ⟨f, hf, hid, rfl⟩ := hleast.1
          apply min_eq_left (hlimit f hf hid).2
        refine ⟨grant.record downloads at', ⟨hrec', rfl, ?_, ⟨downloads, rfl⟩, ?_, rfl, ?_⟩, rfl⟩
        · constructor
          · dsimp only
            rw [Table.find?_upsert]
            apply if_pos h.id_eq.symm
          · intro i
            rw [exists_recordAll_index, h.index]
            rfl
          · apply h.fileCount
          · apply hlimit
          · rw [GrantRow.record, hclamp]
            apply hleast
        · rw [GrantRow.record, hclamp]
          apply hle
        · rw [GrantRow.record, hclamp]
          simp
  · obtain ⟨e, he, _⟩ := recordIndexes_of_not_recordable h.indexesBounded
      (nodup_uniqueIndexes _) hrec (clampI64 at')
    rw [he] at hok
    cases hok

/-- A call that succeeds records a download, and delivers its ticket, if it has one. -/
theorem recordDownload_spec
    {db' : Outbound} {indexes : List ℕ} {at' : ℕ} {ticket : Option String}
    {result : OutboundDownloadResult}
    (hok : recordDownload db id indexes at' ticket = .ok (result, db')) :
  ∃ grant', Recorded db db' id indexes at' result grant grant'
    ∧ belowLimit grant.maxDownloads grant.downloads
    ∧ match ticket with
      | none => db'.tickets = db.tickets
      | some ticket => ∃ row, db.tickets.find? ticket = some row ∧ row.grantId = id
          ∧ db'.tickets = db.tickets.upsert
            { row with deliveredAt := some (row.deliveredAt.getD (clampI64 at')) }
  := by
  rw [recordDownload, h.recordGrantDownload_eq] at hok
  by_cases hlimit : belowLimit grant.maxDownloads grant.downloads
  swap
  · rw [if_pos hlimit] at hok
    cases hok
  rw [if_neg (not_not.mpr hlimit)] at hok
  cases hnormalized : recordNormalized db grant indexes at' with
  | error e =>
      rw [hnormalized] at hok
      cases hok
  | ok recorded =>
      obtain ⟨result', db₁⟩ := recorded
      rw [hnormalized] at hok
      obtain ⟨grant', hrecorded, htickets⟩ := h.recordNormalized_spec hnormalized
      cases ticket with
      | none =>
          cases hok
          exact ⟨grant', hrecorded, hlimit, htickets⟩
      | some ticket =>
          simp only [bind, Except.bind, deliverTicket, htickets] at hok
          cases hrow : db.tickets.find? ticket with
          | none =>
              rw [hrow] at hok
              cases hok
          | some row =>
              rw [hrow] at hok
              dsimp only at hok
              split_ifs at hok with hgrant
              · cases hok
                refine ⟨grant', ?_, hlimit, row, hrow, hgrant, rfl⟩
                obtain ⟨hrec, hfiles, haccounted, hcounters, hle, hfirst, hcompleted⟩ := hrecorded
                obtain ⟨hrow', hindex, hcount, hlim, hleast⟩ := haccounted
                exact ⟨hrec, hfiles, ⟨hrow', hindex, hcount, hlim, hleast⟩, hcounters, hle, hfirst,
                  hcompleted⟩

/-- Files below the limit can be counted. -/
theorem recordGrantDownload_of_recordable
    {indexes : List ℕ} (hrec : ∀ i ∈ indexes, Recordable db.files id grant.maxDownloads i)
    (hbelow : belowLimit grant.maxDownloads grant.downloads) (at' : ℕ) :
  ∃ result db', recordGrantDownload db id indexes at' = .ok (result, db') ∧ db'.tickets = db.tickets
  := by
  have hunique : ∀ i ∈ uniqueIndexes indexes, Recordable db.files id grant.maxDownloads i :=
    fun i hi => hrec i (mem_uniqueIndexes.mp hi)
  obtain ⟨f, hf, hid, _⟩ := (h.index 0).mpr h.fileCount.1
  obtain ⟨downloads, hdownloads⟩ : ∃ downloads,
      countDownloads (recordAll db.files id indexes (clampI64 at')) grant indexes
        = .ok downloads := by
    rw [countDownloads, h.id_eq]
    split_ifs
    · exact ⟨_, rfl⟩
    · split
      · rename_i hnone
        rw [List.min?_eq_none_iff, List.map_eq_nil_iff, grantFiles, List.filter_eq_nil_iff] at hnone
        exfalso
        apply hnone _ (mem_updateFiles.mpr ⟨f, hf, rfl⟩)
        rw [decide_eq_true_iff]
        split_ifs <;> apply hid
      · exact ⟨_, rfl⟩
  rw [h.recordGrantDownload_eq, if_neg (not_not.mpr hbelow), recordNormalized,
    h.recordFiles_eq, recordIndexes_of_recordable h.indexesBounded (nodup_uniqueIndexes _) hunique,
    recordAll_uniqueIndexes]
  simp only [bind, Except.bind, hdownloads, pure, Except.pure]
  exact ⟨_, _, rfl, rfl⟩

/-- A call that names files below the limit, with a ticket of the grant, succeeds. -/
theorem recordDownload_of_recordable
    {indexes : List ℕ} (hrec : ∀ i ∈ indexes, Recordable db.files id grant.maxDownloads i)
    (hbelow : belowLimit grant.maxDownloads grant.downloads) (at' : ℕ) {ticket : String}
    {row : FetchTicketRow} (hrow : db.tickets.find? ticket = some row) (hgrant : row.grantId = id) :
  ∃ answer, recordDownload db id indexes at' (some ticket) = .ok answer
  := by
  obtain ⟨result, db', hok, htickets⟩ := h.recordGrantDownload_of_recordable hrec hbelow at'
  rw [recordDownload, hok]
  simp only [bind, Except.bind, deliverTicket, htickets, hrow, pure, Except.pure]
  rw [if_pos hgrant]
  exact ⟨_, rfl⟩

end Accounted

/-! ### Runs of calls -/

/-- A call of `record_download` on a grant. -/
structure DownloadCall where
  indexes : List ℕ
  at' : ℕ
  ticket : Option String

/-- The call's answer, with the tables it commits. -/
def DownloadCall.run (call : DownloadCall) (db : Outbound) (id : String) :
    Except String (OutboundDownloadResult × Outbound) :=
  recordDownload db id call.indexes call.at' call.ticket

/-- The tables after a call.  A transaction that fails is rolled back. -/
def Outbound.applyDownload (id : String) (db : Outbound) (call : DownloadCall) : Outbound :=
  match call.run db id with
  | .error _ => db
  | .ok (_, db) => db

/-- The tables after some calls. -/
def Outbound.applyDownloads (db : Outbound) (id : String) (calls : List DownloadCall) : Outbound :=
  calls.foldl (Outbound.applyDownload id) db

/-- Some call of a run has succeeded. -/
def SomeRecorded (db : Outbound) (id : String) (calls : List DownloadCall) : Prop :=
  ∃ earlier call, earlier ++ [call] <+: calls
    ∧ ∃ answer, call.run (db.applyDownloads id earlier) id = .ok answer

/-- Some call of a run has left the grant complete. -/
def SomeCompleted (db : Outbound) (id : String) (calls : List DownloadCall) : Prop :=
  ∃ earlier, earlier <+: calls
    ∧ ∃ grant, (db.applyDownloads id earlier).grants.find? id = some grant ∧ 0 < grant.downloads

theorem applyDownloads_concat
    (db : Outbound) (id : String) (calls : List DownloadCall) (call : DownloadCall) :
  db.applyDownloads id (calls ++ [call]) = (db.applyDownloads id calls).applyDownload id call
  := by
  rw [Outbound.applyDownloads, List.foldl_append, List.foldl_cons, List.foldl_nil,
    Outbound.applyDownloads]

theorem someRecorded_concat
    (db : Outbound) (id : String) (calls : List DownloadCall) (call : DownloadCall) :
  SomeRecorded db id (calls ++ [call])
    ↔ SomeRecorded db id calls ∨ ∃ answer, call.run (db.applyDownloads id calls) id = .ok answer
  := by
  constructor
  · rintro ⟨earlier, call', hprefix, hok⟩
    rcases List.prefix_concat_iff.mp hprefix with he | hprefix
    · obtain ⟨rfl, hcall⟩ := List.append_inj' he rfl
      obtain rfl := List.singleton_inj.mp hcall
      right
      apply hok
    · left
      exact ⟨earlier, call', hprefix, hok⟩
  · rintro (⟨earlier, call', hprefix, hok⟩ | hok)
    · exact ⟨earlier, call', hprefix.trans (List.prefix_append _ _), hok⟩
    · exact ⟨calls, call, List.prefix_rfl, hok⟩

theorem someCompleted_concat
    {db : Outbound} {id : String} {calls : List DownloadCall} {call : DownloadCall}
    {grant : GrantRow}
    (hgrant : (db.applyDownloads id (calls ++ [call])).grants.find? id = some grant) :
  SomeCompleted db id (calls ++ [call]) ↔ SomeCompleted db id calls ∨ 0 < grant.downloads
  := by
  constructor
  · rintro ⟨earlier, hprefix, grant', hgrant', hpos⟩
    rcases List.prefix_concat_iff.mp hprefix with rfl | hprefix
    · rw [hgrant] at hgrant'
      cases hgrant'
      right
      apply hpos
    · left
      exact ⟨earlier, hprefix, grant', hgrant', hpos⟩
  · rintro (⟨earlier, hprefix, hcompleted⟩ | hpos)
    · exact ⟨earlier, hprefix.trans (List.prefix_append _ _), hcompleted⟩
    · exact ⟨_, List.prefix_rfl, grant, hgrant, hpos⟩

/-- What a run of calls keeps of an accounted grant. -/
structure DownloadsKept
    (start : Outbound) (id : String) (grant₀ : GrantRow) (calls : List DownloadCall)
    (grant : GrantRow) : Prop where
  /-- The grant stays accounted. -/
  accounted : Accounted (start.applyDownloads id calls) id grant
  /-- The grant is complete when some call has left it so. -/
  completed : SomeCompleted start id calls ↔ 0 < grant.downloads
  /-- The grant has a first download when it had one or some call succeeded. -/
  first : grant.firstDownloadAt = none
    ↔ grant₀.firstDownloadAt = none ∧ ¬ SomeRecorded start id calls

theorem downloadsKept_concat
    {start : Outbound} {id : String} {grant₀ grant : GrantRow} {calls : List DownloadCall}
    (h : DownloadsKept start id grant₀ calls grant) (call : DownloadCall) :
  ∃ grant', DownloadsKept start id grant₀ (calls ++ [call]) grant'
  := by
  cases hrun : call.run (start.applyDownloads id calls) id with
  | error e =>
      have hsame : start.applyDownloads id (calls ++ [call]) = start.applyDownloads id calls := by
        rw [applyDownloads_concat, Outbound.applyDownload, hrun]
      have haccounted : Accounted (start.applyDownloads id (calls ++ [call])) id grant :=
        hsame ▸ h.accounted
      use grant, haccounted
      · rw [someCompleted_concat haccounted.row, h.completed, or_self]
      · rw [someRecorded_concat, hrun, h.first]
        simp
  | ok answer =>
      obtain ⟨result, db'⟩ := answer
      obtain ⟨grant', hrecorded, _⟩ := h.accounted.recordDownload_spec hrun
      have hdb : start.applyDownloads id (calls ++ [call]) = db' := by
        rw [applyDownloads_concat, Outbound.applyDownload, hrun]
      have haccounted : Accounted (start.applyDownloads id (calls ++ [call])) id grant' :=
        hdb ▸ hrecorded.accounted
      use grant', haccounted
      · rw [someCompleted_concat haccounted.row, h.completed]
        have := hrecorded.le
        omega
      · obtain ⟨downloads, hcounters⟩ := hrecorded.counters
        rw [someRecorded_concat, hrun, hcounters]
        simp [GrantRow.record]

theorem downloadsKept
    {start : Outbound} {id : String} {grant₀ : GrantRow} (h : Accounted start id grant₀)
    (calls : List DownloadCall) :
  ∃ grant, DownloadsKept start id grant₀ calls grant
  := by
  induction calls using List.reverseRecOn with
  | nil =>
      use grant₀, h
      · constructor
        · rintro ⟨earlier, hprefix, grant, hgrant, hpos⟩
          rw [List.prefix_nil.mp hprefix] at hgrant
          cases h.row.symm.trans hgrant
          apply hpos
        · intro hpos
          exact ⟨[], List.prefix_rfl, grant₀, h.row, hpos⟩
      · have hnone : ¬ SomeRecorded start id [] := by
          rintro ⟨earlier, call, hprefix, _⟩
          have := List.prefix_nil.mp hprefix
          simp at this
        simp [hnone]
  | append_singleton calls call ih =>
      obtain ⟨grant, hkept⟩ := ih
      apply downloadsKept_concat hkept

/-- Along every run of calls on an accounted grant no file goes over the limit and the
grant's count is the least of its files'.  A call that succeeds counts each file it names
once, short of `i64::MAX`, and no other; it reports a completed delivery when it is the
first to leave the grant complete, and a first download when it is the first to succeed.
The calls that name the same files do the same, and one that fails changes nothing. -/
theorem recordDownload_accounting
    {start : Outbound} {id : String} {grant₀ : GrantRow} (h : Accounted start id grant₀)
    (calls : List DownloadCall) (call : DownloadCall) :
  let db := start.applyDownloads id calls
  ∃ grant, Accounted db id grant
    ∧ (∀ indexes, (∀ i, i ∈ indexes ↔ i ∈ call.indexes) →
        recordDownload db id indexes call.at' call.ticket = call.run db id)
    ∧ (∀ e, call.run db id = .error e → db.applyDownload id call = db)
    ∧ ∀ result db', call.run db id = .ok (result, db') →
      ∃ grant', Accounted db' id grant'
        ∧ (∀ f ∈ db.files.rows, ∃ f' ∈ db'.files.rows, f'.key = f.key
            ∧ f'.downloads = if f.grantId = id ∧ f.fileIndex ∈ call.indexes
                ∧ f.downloads ≠ i64Max then f.downloads + 1 else f.downloads)
        ∧ (result.completedDelivery = true
            ↔ 0 < grant'.downloads ∧ ¬ SomeCompleted start id calls)
        ∧ (result.firstDownload = true
            ↔ grant₀.firstDownloadAt = none ∧ ¬ SomeRecorded start id calls)
  := by
  intro db
  obtain ⟨grant, hkept⟩ := downloadsKept h calls
  use grant, hkept.accounted
  refine ⟨?_, ?_, ?_⟩
  · intro indexes hset
    apply hkept.accounted.recordDownload_congr hset
  · intro e he
    rw [Outbound.applyDownload, he]
  · intro result db' hok
    obtain ⟨grant', hrecorded, _⟩ := hkept.accounted.recordDownload_spec hok
    use grant', hrecorded.accounted
    refine ⟨?_, ?_, ?_⟩
    · intro f hf
      rw [hrecorded.files]
      refine ⟨_, mem_updateFiles.mpr ⟨f, hf, rfl⟩, ?_, ?_⟩
      · split_ifs <;> rfl
      · by_cases hnamed : f.grantId = id ∧ f.fileIndex ∈ call.indexes
        · rw [if_pos hnamed, GrantFileRow.record]
          split_ifs <;> simp_all
        · rw [if_neg hnamed, if_neg (fun hc => hnamed ⟨hc.1, hc.2.1⟩)]
    · rw [hrecorded.completedDelivery, hkept.completed]
      omega
    · rw [hrecorded.firstDownload, Option.isNone_iff_eq_none, hkept.first]

/-- A grant `g` of one file, which has been downloaded `downloads` times. -/
def sampleGrant (downloads : ℕ) : Outbound where
  grants := ⟨[{
    id := "g", tokenHash := "h", expiresAt := 100, revokedAt := none, downloads,
    maxDownloads := none, firstDownloadAt := none, lastDownloadAt := none, filesJson := .ok 0,
    fileCount := 1 }], by simp⟩
  files := ⟨[{
    grantId := "g", fileIndex := 0, downloads, firstDownloadAt := none,
    lastDownloadAt := none }], by simp⟩
  tickets := Table.empty

theorem sampleGrant_accounted {downloads : ℕ} (h : downloads ≤ i64Max) :
  ∃ grant, Accounted (sampleGrant downloads) "g" grant
  := by
  refine ⟨_, rfl, ?_, ?_, ?_, ?_⟩
  · intro i
    simp [sampleGrant, eq_comm]
  · simp [i64Max]
  · simp [sampleGrant, h]
  · constructor
    · simp [sampleGrant]
    · intro n
      simp only [sampleGrant, Set.mem_ofPred_eq, List.mem_singleton]
      rintro ⟨f, rfl, _, rfl⟩
      apply le_refl

/-- A grant `g` of two files, each of which may be downloaded twice. -/
def sampleAlbum : Outbound where
  grants := ⟨[{
    id := "g", tokenHash := "h", expiresAt := 100, revokedAt := none, downloads := 0,
    maxDownloads := some 2, firstDownloadAt := none, lastDownloadAt := none, filesJson := .ok 0,
    fileCount := 2 }], by simp⟩
  files := ⟨[0, 1].map fun index => {
    grantId := "g", fileIndex := index, downloads := 0, firstDownloadAt := none,
    lastDownloadAt := none }, by decide⟩
  tickets := Table.empty

theorem sampleAlbum_accounted :
  ∃ grant, Accounted sampleAlbum "g" grant ∧ grant.firstDownloadAt = none
  := by
  refine ⟨_, ⟨rfl, ?_, by decide, ?_, ?_, ?_⟩, rfl⟩
  · intro i
    simp [sampleAlbum]
    omega
  · simp [sampleAlbum, i64Max]
  · simp [sampleAlbum]
  · intro n _
    exact Nat.zero_le n

/-- The first file was downloaded before, and then both are: that completes the delivery. -/
theorem recordDownload_accounting_sample :
  let db := sampleAlbum.applyDownloads "g" [⟨[0, 0], 5, none⟩]
  ∃ result db' grant, DownloadCall.run ⟨[0, 1], 6, none⟩ db "g" = .ok (result, db')
    ∧ Accounted db' "g" grant
    ∧ (∀ f ∈ db.files.rows, ∃ f' ∈ db'.files.rows, f'.key = f.key
      ∧ f'.downloads = f.downloads + 1)
    ∧ result.completedDelivery = true ∧ result.firstDownload = false
  := by
  intro db
  obtain ⟨result, db', hok⟩ : ∃ result db',
      DownloadCall.run ⟨[0, 1], 6, none⟩ db "g" = .ok (result, db') := ⟨_, _, rfl⟩
  obtain ⟨grant₀, h, hfirst⟩ := sampleAlbum_accounted
  obtain ⟨_, _, _, _, hcounts⟩ :=
    recordDownload_accounting h [⟨[0, 0], 5, none⟩] ⟨[0, 1], 6, none⟩
  obtain ⟨grant, haccounted, hfiles, _⟩ := hcounts result db' hok
  refine ⟨result, db', grant, hok, haccounted, ?_, ?_, ?_⟩
  · intro f hf
    obtain ⟨f', hf', hkey, hdownloads⟩ := hfiles f hf
    have hcounted : ∀ f ∈ db.files.rows,
        f.grantId = "g" ∧ f.fileIndex ∈ [0, 1] ∧ f.downloads ≠ i64Max := by decide
    rw [if_pos (hcounted f hf)] at hdownloads
    exact ⟨f', hf', hkey, hdownloads⟩
  · cases hok
    rfl
  · cases hok
    rfl

/-- A count at `i64::MAX` is not counted up, and a call that names no file is reported as
a first download. -/
theorem recordDownload_uncounted :
  (∃ result db', recordDownload (sampleGrant i64Max) "g" [0] 5 none = .ok (result, db')
      ∧ ∀ f ∈ db'.files.rows, f.downloads = i64Max)
    ∧ ∃ result db', recordDownload (sampleGrant 0) "g" [] 5 none = .ok (result, db')
      ∧ result.firstDownload = true ∧ db'.files = (sampleGrant 0).files
  := by
  constructor
  · refine ⟨_, _, rfl, ?_⟩
    decide
  · refine ⟨_, _, rfl, rfl, ?_⟩
    decide

end Votport
