import Votport.Foundation.Fallible
import Votport.Store.Uploads

/-!
# Uploads over runs of commits

On consistent tables every header has the rows of its files, and every file row a header,
so every upload is read back.  Commits keep this.  They add at most the files a session
recovered to an upload, and nothing to one that is not partial.  A session that has
committed keeps the upload it has committed.
-/

namespace Votport

variable {δ ρ : Type} {env : UploadEnv δ ρ}

/-! ### File rows -/

theorem rowToUploadFile_row
    (file : FileRecord) (tenant linkId uploadId : String) (index : ℕ) :
  rowToUploadFile (file.row tenant linkId uploadId index) = file
  := by
  cases file
  simp [FileRecord.row, rowToUploadFile]

theorem mem_fileRows {tenant linkId uploadId : String} {files : List FileRecord} {r : FileRow} :
  r ∈ fileRows tenant linkId uploadId files
    ↔ ∃ (i : ℕ) (h : i < files.length), files[i].row tenant linkId uploadId i = r
  := by
  rw [fileRows, List.mem_mapIdx]

/-- The rows of an upload are in the order of their indexes. -/
theorem pairwise_fileRows (tenant linkId uploadId : String) (files : List FileRecord) :
  (fileRows tenant linkId uploadId files).Pairwise
    (fun r s => r.key.fileIndex < s.key.fileIndex)
  := by
  rw [List.pairwise_iff_getElem]
  intro i j hi hj hij
  simp only [fileRows, List.getElem_mapIdx, FileRecord.row]
  omega

/-- The table holds exactly these files for the upload. -/
def HoldsFiles (table : Files) (tenant linkId uploadId : String) (files : List FileRecord) : Prop :=
  ∀ r, r ∈ table.rows ∧ r.key.linkId = linkId ∧ r.key.uploadId = uploadId
    ↔ r ∈ fileRows tenant linkId uploadId files

theorem key_of_mem_fileRows
    {tenant linkId uploadId : String} {files : List FileRecord} {r : FileRow}
    (hr : r ∈ fileRows tenant linkId uploadId files) :
  r.tenant = tenant ∧ r.key.linkId = linkId ∧ r.key.uploadId = uploadId
    ∧ 0 ≤ r.key.fileIndex ∧ r.key.fileIndex < files.length
  := by
  obtain ⟨i, hi, rfl⟩ := mem_fileRows.mp hr
  refine ⟨rfl, rfl, rfl, ?_, ?_⟩
  · apply Int.natCast_nonneg
  · exact Int.ofNat_lt.mpr hi

/-- The rows selected for an upload are those of its files. -/
theorem HoldsFiles.selectFiles_eq
    {table : Files} {tenant linkId uploadId : String} {files : List FileRecord}
    (h : HoldsFiles table tenant linkId uploadId files) :
  selectFiles table tenant linkId uploadId = fileRows tenant linkId uploadId files
  := by
  have hpairwise := pairwise_fileRows tenant linkId uploadId files
  have hnodup : (fileRows tenant linkId uploadId files).Nodup := by
    apply hpairwise.imp
    rintro r s hlt rfl
    omega
  have hperm : (selectFiles table tenant linkId uploadId).Perm
      (fileRows tenant linkId uploadId files) := by
    apply (List.perm_insertionSort _ _).trans
    rw [List.perm_ext_iff_of_nodup ((List.Nodup.of_map _ table.nodup).filter _) hnodup]
    intro r
    rw [List.mem_filter, decide_eq_true_iff]
    constructor
    · rintro ⟨hr, _, hlink, hupload⟩
      exact (h r).mp ⟨hr, hlink, hupload⟩
    · intro hr
      obtain ⟨htenant, hlink, hupload, _⟩ := key_of_mem_fileRows hr
      exact ⟨((h r).mpr hr).1, htenant, hlink, hupload⟩
  have htotal : Std.Total (fun r s : FileRow => r.key.fileIndex ≤ s.key.fileIndex) :=
    ⟨fun r s => le_total _ _⟩
  have htrans : IsTrans FileRow (fun r s : FileRow => r.key.fileIndex ≤ s.key.fileIndex) :=
    ⟨fun r s t => le_trans⟩
  apply hperm.eq_of_pairwise _ (List.pairwise_insertionSort _ _) (hpairwise.imp le_of_lt)
  intro r s hr hs hle hge
  have hr' := hperm.mem_iff.mp hr
  obtain ⟨i, hi, rfl⟩ := mem_fileRows.mp hr'
  obtain ⟨j, hj, rfl⟩ := mem_fileRows.mp hs
  have hij : i = j := by
    simp only [FileRecord.row] at hle hge
    omega
  subst hij
  rfl

theorem hydrateFiles_eq
    (tenant linkId uploadId : String) (files : List FileRecord) {count : ℤ}
    (hcount : files.length ≤ count) :
  (fileRows tenant linkId uploadId files).foldlM (hydrateFile count) [] = .ok files
  := by
  induction files using List.reverseRecOn with
  | nil => rfl
  | append_singleton files file ih =>
      rw [List.length_append, List.length_singleton] at hcount
      rw [fileRows, List.mapIdx_concat, List.foldlM_append]
      rw [fileRows] at ih
      rw [ih (by omega)]
      simp only [bind, Except.bind, List.foldlM_cons, List.foldlM_nil, hydrateFile]
      rw [rowToUploadFile_row, if_neg]
      · rfl
      · simp only [FileRecord.row]
        omega

/-! ### Headers -/

/-- The row is the header of the upload, whose files the table holds. -/
structure HeaderOf (env : UploadEnv δ ρ) (table : Files) (row : UploadRow δ) (upload : UploadRecord) :
    Prop where
  /-- The document has all but the files. -/
  document : env.parseUpload row.document = .ok { upload with files := [] }
  /-- The header is of the upload. -/
  id : upload.id = row.uploadId
  /-- The header counts the files. -/
  fileCount : row.fileCount = upload.files.length
  /-- The header has the total of the files. -/
  totalBytes : upload.totalBytes = totalOf upload.files
  /-- The files are there. -/
  files : HoldsFiles table row.tenant row.linkId row.uploadId upload.files

theorem HeaderOf.hydrateUpload_eq
    {table : Files} {row : UploadRow δ} {upload : UploadRecord}
    (h : HeaderOf env table row upload) :
  hydrateUpload env table row = .ok upload
  := by
  rw [hydrateUpload, h.document]
  simp only [bind, Except.bind]
  rw [if_neg (by simp [h.id]), h.files.selectFiles_eq, hydrateFiles_eq _ _ _ _ h.fileCount.ge]
  simp only
  rw [if_neg (by simp [h.fileCount])]
  rfl

/-- An upload's header is kept when the rows of its files are. -/
theorem HeaderOf.of_files
    {table table' : Files} {row : UploadRow δ} {upload : UploadRecord}
    (h : HeaderOf env table row upload)
    (hfiles : ∀ r, r.key.linkId = row.linkId → r.key.uploadId = row.uploadId →
      (r ∈ table'.rows ↔ r ∈ table.rows)) :
  HeaderOf env table' row upload
  := by
  obtain ⟨hdocument, hid, hcount, htotal, hholds⟩ := h
  refine ⟨hdocument, hid, hcount, htotal, ?_⟩
  intro r
  rw [← hholds r]
  constructor
  · rintro ⟨hr, hlink, hupload⟩
    exact ⟨(hfiles r hlink hupload).mp hr, hlink, hupload⟩
  · rintro ⟨hr, hlink, hupload⟩
    exact ⟨(hfiles r hlink hupload).mpr hr, hlink, hupload⟩

/-- Every header has the rows of its files, and every file row a header. -/
structure UploadDb.Consistent (env : UploadEnv δ ρ) (db : UploadDb δ ρ) : Prop where
  header : ∀ row ∈ db.uploads.rows, ∃ upload, HeaderOf env db.quota.files row upload
  owned : ∀ r ∈ db.quota.files.rows, ∃ row ∈ db.uploads.rows,
    row.linkId = r.key.linkId ∧ row.uploadId = r.key.uploadId

/-! ### Writing file rows -/

theorem insertUploadFile_rows
    {quota quota' : QuotaDb} {row : FileRow} (hok : insertUploadFile quota row = .ok quota') :
  quota.files.find? row.key = none ∧ quota'.files.rows = row :: quota.files.rows
  := by
  rw [insertUploadFile] at hok
  split at hok
  · cases hok
  · rename_i quota₁ hinsert
    cases hok
    obtain ⟨files, hfiles, hquota⟩ := Option.bind_eq_some_iff.mp hinsert
    obtain ⟨usage, _, hquota⟩ := Option.bind_eq_some_iff.mp hquota
    cases hquota
    apply Table.insert?_eq_some.mp hfiles

theorem insertUploadFiles_rows
    {quota quota' : QuotaDb} {rows : List FileRow}
    (hok : rows.foldlM insertUploadFile quota = .ok quota') :
  quota'.files.rows = rows.reverse ++ quota.files.rows
  := by
  induction rows generalizing quota with
  | nil =>
      cases hok
      rfl
  | cons row rows ih =>
      obtain ⟨quota₁, hrow, hok⟩ := Fallible.foldlM_cons_eq_ok.mp hok
      rw [ih hok, (insertUploadFile_rows hrow).2]
      simp

theorem syncUploadFile_mem
    {quota quota' : QuotaDb} {row : FileRow} (hok : syncUploadFile quota row = .ok quota')
    (r : FileRow) :
  r ∈ quota'.files.rows ↔ r = row ∨ r ∈ quota.files.rows ∧ r.key ≠ row.key
  := by
  rw [syncUploadFile] at hok
  cases hold : quota.files.find? row.key with
  | none =>
      rw [hold] at hok
      rw [(insertUploadFile_rows hok).2, List.mem_cons]
      have habsent := Table.find?_eq_none.mp hold
      grind
  | some old =>
      rw [hold] at hok
      obtain ⟨hmem, hkey⟩ := Table.find?_eq_some.mp hold
      dsimp only at hok
      split_ifs at hok with hsame
      · cases hok
        subst hsame
        have hone : ∀ s ∈ quota.files.rows, s.key = old.key → s = old :=
          fun s hs => quota.files.eq_of_key_eq hs hmem
        grind
      · rw [QuotaDb.updateFile, hold] at hok
        cases hupdate : (do
            let files ← (quota.files.erase row.key).insert? row
            let usage ← quotaTriggerUpdate files old row quota.usage
            pure { quota with files, usage } : Option QuotaDb) with
        | none =>
            simp only [hupdate] at hok
            cases hok
        | some quota₁ =>
            simp only [hupdate] at hok
            cases hok
            obtain ⟨files, hfiles, hquota⟩ := Option.bind_eq_some_iff.mp hupdate
            obtain ⟨usage, _, hquota⟩ := Option.bind_eq_some_iff.mp hquota
            cases hquota
            rw [(Table.insert?_eq_some.mp hfiles).2, List.mem_cons, Table.mem_erase]

theorem syncUploadFiles_mem
    {quota quota' : QuotaDb} {rows : List FileRow} (hrows : (rows.map FileRow.key).Nodup)
    (hok : rows.foldlM syncUploadFile quota = .ok quota') (r : FileRow) :
  r ∈ quota'.files.rows ↔ r ∈ rows ∨ r ∈ quota.files.rows ∧ r.key ∉ rows.map FileRow.key
  := by
  induction rows generalizing quota with
  | nil =>
      cases hok
      simp
  | cons row rows ih =>
      rw [List.map_cons, List.nodup_cons] at hrows
      obtain ⟨quota₁, hrow, hok⟩ := Fallible.foldlM_cons_eq_ok.mp hok
      rw [ih hrows.2 hok, syncUploadFile_mem hrow, List.mem_cons, List.map_cons, List.mem_cons]
      grind

theorem deleteUploadFile_mem
    {quota quota' : QuotaDb} {key : FileKey} (hok : deleteUploadFile quota key = .ok quota')
    (r : FileRow) :
  r ∈ quota'.files.rows ↔ r ∈ quota.files.rows ∧ r.key ≠ key
  := by
  rw [deleteUploadFile, QuotaDb.deleteFile] at hok
  cases hold : quota.files.find? key with
  | none =>
      rw [hold] at hok
      cases hok
      have habsent := Table.find?_eq_none.mp hold
      grind
  | some old =>
      rw [hold] at hok
      cases hdelete : (do
          let files := quota.files.erase key
          let usage ← quotaTriggerDelete files old quota.usage
          pure { quota with files, usage } : Option QuotaDb) with
      | none =>
          simp only [hdelete] at hok
          cases hok
      | some quota₁ =>
          simp only [hdelete] at hok
          cases hok
          obtain ⟨usage, _, hquota⟩ := Option.bind_eq_some_iff.mp hdelete
          cases hquota
          apply Table.mem_erase

theorem deleteUploadFiles_mem
    {quota quota' : QuotaDb} {keys : List FileKey}
    (hok : keys.foldlM deleteUploadFile quota = .ok quota') (r : FileRow) :
  r ∈ quota'.files.rows ↔ r ∈ quota.files.rows ∧ r.key ∉ keys
  := by
  induction keys generalizing quota with
  | nil =>
      cases hok
      simp
  | cons key keys ih =>
      obtain ⟨quota₁, hkey, hok⟩ := Fallible.foldlM_cons_eq_ok.mp hok
      rw [ih hok, deleteUploadFile_mem hkey, List.mem_cons]
      grind

/-! ### Merging -/

/-- The recorded file, which may have got a receipt. -/
def FileRecord.Kept (file file' : FileRecord) : Prop :=
  file' = { file with receipt := file'.receipt } ∧ (file.receipt = true → file'.receipt = true)

theorem FileRecord.Kept.refl (file : FileRecord) :
  file.Kept file
  := ⟨rfl, id⟩

theorem FileRecord.Kept.trans
    {file file' file'' : FileRecord} (h : file.Kept file') (h' : file'.Kept file'') :
  file.Kept file''
  := by
  constructor
  · rw [h'.1, h.1]
  · exact h'.2 ∘ h.2

/-- Every recorded file is kept, at its index. -/
def FilesKept (files files' : List FileRecord) : Prop :=
  ∀ (i : ℕ) (file : FileRecord), files[i]? = some file →
    ∃ file', files'[i]? = some file' ∧ file.Kept file'

theorem FilesKept.refl (files : List FileRecord) :
  FilesKept files files
  := fun _ file h => ⟨file, h, FileRecord.Kept.refl file⟩

theorem FilesKept.trans
    {files files' files'' : List FileRecord} (h : FilesKept files files')
    (h' : FilesKept files' files'') :
  FilesKept files files''
  := by
  intro i file hfile
  obtain ⟨file', hfile', hkept⟩ := h i file hfile
  obtain ⟨file'', hfile'', hkept'⟩ := h' i file' hfile'
  exact ⟨file'', hfile'', hkept.trans hkept'⟩

theorem FilesKept.length_le {files files' : List FileRecord} (h : FilesKept files files') :
  files.length ≤ files'.length
  := by
  by_contra hlt
  obtain ⟨file', hfile', _⟩ := h files'.length _ (List.getElem?_eq_getElem (by omega))
  rw [List.getElem?_eq_none (le_refl _)] at hfile'
  cases hfile'

theorem FilesKept.cons
    {file file' : FileRecord} {files files' : List FileRecord} (hfile : file.Kept file')
    (h : FilesKept files files') :
  FilesKept (file :: files) (file' :: files')
  := by
  intro i other hother
  cases i with
  | zero =>
      cases hother
      exact ⟨file', rfl, hfile⟩
  | succ i => apply h i other hother

/-- A recovered file leaves the recorded ones. -/
theorem mergeFile_kept
    {file : FileRecord} {files files' : List FileRecord} (hok : mergeFile file files = .ok files') :
  FilesKept files files'
  := by
  induction files generalizing files' with
  | nil =>
      intro i other hother
      cases hother
  | cons existing files ih =>
      rw [mergeFile] at hok
      split_ifs at hok
      · cases hok
        apply FilesKept.cons _ (FilesKept.refl files)
        refine ⟨rfl, ?_⟩
        intro hreceipt
        rw [hreceipt, Bool.true_or]
      · obtain ⟨merged, hmerge, hok⟩ := Fallible.bind_eq_ok.mp hok
        cases hok
        apply FilesKept.cons (FileRecord.Kept.refl existing) (ih hmerge)

theorem mergeFiles_kept
    {recovered files files' : List FileRecord}
    (hok : recovered.foldlM (fun files file => mergeFile file files) files = .ok files') :
  FilesKept files files'
  := by
  induction recovered generalizing files with
  | nil =>
      cases hok
      apply FilesKept.refl
  | cons file recovered ih =>
      obtain ⟨merged, hmerge, hok⟩ := Fallible.foldlM_cons_eq_ok.mp hok
      apply (mergeFile_kept hmerge).trans (ih hok)

/-- The files of an upload are kept, and an upload that is not partial stays the same. -/
def UploadRecord.Kept (upload upload' : UploadRecord) : Prop :=
  FilesKept upload.files upload'.files ∧ (upload.isPartial = false → upload' = upload)

theorem UploadRecord.Kept.refl (upload : UploadRecord) :
  upload.Kept upload
  := ⟨FilesKept.refl _, fun _ => rfl⟩

theorem UploadRecord.Kept.trans
    {upload upload' upload'' : UploadRecord} (h : upload.Kept upload')
    (h' : upload'.Kept upload'') :
  upload.Kept upload''
  := by
  constructor
  · apply h.1.trans h'.1
  · intro hpartial
    obtain rfl := h.2 hpartial
    apply h'.2 hpartial

theorem mergeUpload_spec
    {previous upload merged : UploadRecord} (hok : mergeUpload previous upload = .ok merged) :
  previous.Kept merged ∧ merged.id = previous.id ∧ merged.totalBytes = totalOf merged.files
  := by
  rw [mergeUpload] at hok
  split_ifs at hok with hchanged
  obtain ⟨files, hmerge, hok⟩ := Fallible.bind_eq_ok.mp hok
  cases hok
  refine ⟨⟨mergeFiles_kept hmerge, ?_⟩, rfl, rfl⟩
  intro hpartial
  rw [ hpartial] at hchanged
  simp at hchanged

/-! ### What a commit does -/

/-- The upload is put under its header, and nothing is done to the others. -/
structure Puts (env : UploadEnv δ ρ) (db db' : UploadDb δ ρ) (tenant linkId : String)
    (upload : UploadRecord) : Prop where
  /-- The upload has its header. -/
  header : ∃ row ∈ db'.uploads.rows, row.tenant = tenant ∧ row.linkId = linkId
    ∧ HeaderOf env db'.quota.files row upload
  /-- The other headers are the same. -/
  others : ∀ row, ¬ (row.linkId = linkId ∧ row.uploadId = upload.id) →
    (row ∈ db'.uploads.rows ↔ row ∈ db.uploads.rows)
  /-- The other file rows are the same. -/
  files : ∀ r : FileRow, ¬ (r.key.linkId = linkId ∧ r.key.uploadId = upload.id) →
    (r ∈ db'.quota.files.rows ↔ r ∈ db.quota.files.rows)

theorem upload_row_eq
    {db : UploadDb δ ρ} {row row' : UploadRow δ} (hrow : row ∈ db.uploads.rows)
    (hrow' : row' ∈ db.uploads.rows) (hlink : row.linkId = row'.linkId)
    (hupload : row.uploadId = row'.uploadId) :
  row = row'
  := db.uploads.eq_of_key_eq hrow hrow' (by rw [UploadRow.key, UploadRow.key, hlink, hupload])

/-- The headers of other uploads are kept. -/
theorem Puts.header_of_ne
    {db db' : UploadDb δ ρ} {tenant linkId : String} {upload other : UploadRecord}
    {row : UploadRow δ} (h : Puts env db db' tenant linkId upload)
    (hne : ¬ (row.linkId = linkId ∧ row.uploadId = upload.id))
    (hrow : row ∈ db.uploads.rows) (hheader : HeaderOf env db.quota.files row other) :
  row ∈ db'.uploads.rows ∧ HeaderOf env db'.quota.files row other
  := by
  constructor
  · apply (h.others row hne).mpr hrow
  · apply hheader.of_files
    intro r hlink hupload
    apply h.files
    rw [hlink, hupload]
    apply hne

theorem Puts.consistent
    {db db' : UploadDb δ ρ} {tenant linkId : String} {upload : UploadRecord}
    (h : Puts env db db' tenant linkId upload) (hdb : db.Consistent env) :
  db'.Consistent env
  := by
  obtain ⟨row₀, hrow₀, _, hlink₀, hheader₀⟩ := h.header
  constructor
  · intro row hrow
    by_cases hsame : row.linkId = linkId ∧ row.uploadId = upload.id
    · obtain rfl : row = row₀ :=
        upload_row_eq hrow hrow₀ (hsame.1.trans hlink₀.symm) (hsame.2.trans hheader₀.id)
      exact ⟨upload, hheader₀⟩
    · have hrow' := (h.others row hsame).mp hrow
      obtain ⟨other, hother⟩ := hdb.header row hrow'
      exact ⟨other, (h.header_of_ne hsame hrow' hother).2⟩
  · intro r hr
    by_cases hsame : r.key.linkId = linkId ∧ r.key.uploadId = upload.id
    · exact ⟨row₀, hrow₀, hlink₀.trans hsame.1.symm, hheader₀.id.symm.trans hsame.2.symm⟩
    · obtain ⟨row, hrow, hlink, hupload⟩ := hdb.owned r ((h.files r hsame).mp hr)
      refine ⟨row, (h.others row ?_).mpr hrow, hlink, hupload⟩
      rw [hlink, hupload]
      apply hsame

/-- The sessions after a fresh upload: one that is not partial is committed. -/
def CommitsSession (db db' : UploadDb δ ρ) (upload : UploadRecord) : Option String → Prop
  | none => db'.sessions = db.sessions
  | some session =>
      if upload.isPartial then db'.sessions = db.sessions
      else ∃ row, db.sessions.find? session = some row ∧ row.committedUploadId = none
        ∧ db'.sessions = db.sessions.upsert { row with committedUploadId := some upload.id }

/-- What `append_upload_inner` does when it writes. -/
inductive Appended (env : UploadEnv δ ρ) (db db' : UploadDb δ ρ) (tenant linkId : String)
    (upload : UploadRecord) (session : Option String) : Prop where
  /-- The upload is new. -/
  | fresh (habsent : db.uploads.find? (linkId, upload.id) = none)
      (hputs : Puts env db db' tenant linkId upload) (hsessions : CommitsSession db db' upload session)
  /-- The files are added to the upload recorded before. -/
  | recovered (row : UploadRow δ) (previous merged : UploadRecord) ( hpartial : upload.isPartial = true)
      (hrow : row ∈ db.uploads.rows) (hlink : row.linkId = linkId)
      (hprevious : HeaderOf env db.quota.files row previous) (hid : merged.id = previous.id)
      (hkept : previous.Kept merged) (hputs : Puts env db db' tenant linkId merged)
      (hsessions : db'.sessions = db.sessions)
  /-- The upload is recorded already. -/
  | again (hsession : session = none) (huploads : db'.uploads = db.uploads)
      (hquota : db'.quota = db.quota) (hsessions : db'.sessions = db.sessions)

theorem fileRows_keys_nodup (tenant linkId uploadId : String) (files : List FileRecord) :
  ((fileRows tenant linkId uploadId files).map FileRow.key).Nodup
  := by
  rw [List.Nodup, List.pairwise_map]
  apply (pairwise_fileRows tenant linkId uploadId files).imp
  intro r s hlt he
  rw [he] at hlt
  omega

theorem header_of_headerRow
    {table : Files} {tenant linkId : String} {upload : UploadRecord} (henv : env.Lawful)
    (htotal : upload.totalBytes = totalOf upload.files)
    (hfiles : HoldsFiles table tenant linkId upload.id upload.files) :
  HeaderOf env table (headerRow env tenant linkId upload) upload
  := ⟨henv _, rfl, rfl, htotal, hfiles⟩

/-- An upload goes in with the rows of its files, which had none before. -/
theorem puts_fresh
    {db db' : UploadDb δ ρ} {tenant linkId : String} {upload : UploadRecord} (henv : env.Lawful)
    (hdb : db.Consistent env) (htotal : upload.totalBytes = totalOf upload.files)
    (habsent : db.uploads.find? (linkId, upload.id) = none)
    (huploads : db'.uploads.rows = headerRow env tenant linkId upload :: db.uploads.rows)
    (hfiles : db'.quota.files.rows
      = (fileRows tenant linkId upload.id upload.files).reverse ++ db.quota.files.rows) :
  Puts env db db' tenant linkId upload
  := by
  constructor
  · refine ⟨headerRow env tenant linkId upload, ?_, rfl, rfl, ?_⟩
    · rw [huploads]
      apply List.mem_cons_self
    · apply header_of_headerRow henv htotal
      intro r
      rw [hfiles, List.mem_append, List.mem_reverse]
      constructor
      · rintro ⟨hr | hr, hlink, hupload⟩
        · apply hr
        · -- The header of another row of the upload would be there.
          obtain ⟨row, hrow, hlink', hupload'⟩ := hdb.owned r hr
          exfalso
          apply Table.find?_eq_none.mp habsent row hrow
          rw [UploadRow.key, hlink', hupload', hlink, hupload]
      · intro hr
        obtain ⟨_, hlink, hupload, _⟩ := key_of_mem_fileRows hr
        exact ⟨Or.inl hr, hlink, hupload⟩
  · intro row hne
    rw [huploads, List.mem_cons]
    constructor
    · rintro (rfl | hrow)
      · exact absurd ⟨rfl, rfl⟩ hne
      · apply hrow
    · apply Or.inr
  · intro r hne
    rw [hfiles, List.mem_append, List.mem_reverse]
    constructor
    · rintro (hr | hr)
      · obtain ⟨_, hlink, hupload, _⟩ := key_of_mem_fileRows hr
        exact absurd ⟨hlink, hupload⟩ hne
      · apply hr
    · apply Or.inr

/-- The rows after `sync_upload_files` of an upload whose files are kept. -/
theorem syncUploadFiles_spec
    {quota quota' : QuotaDb} {tenant linkId : String} {previous upload : UploadRecord}
    (hheld : HoldsFiles quota.files tenant linkId upload.id previous.files)
    (hlength : previous.files.length ≤ upload.files.length)
    (hok : syncUploadFiles quota tenant linkId upload = .ok quota') :
  HoldsFiles quota'.files tenant linkId upload.id upload.files
    ∧ ∀ r : FileRow, ¬ (r.key.linkId = linkId ∧ r.key.uploadId = upload.id) →
      (r ∈ quota'.files.rows ↔ r ∈ quota.files.rows)
  := by
  obtain ⟨quota₁, hsync, hok⟩ := Fallible.bind_eq_ok.mp hok
  have hmem₁ := syncUploadFiles_mem (fileRows_keys_nodup _ _ _ _) hsync
  have hmem := deleteUploadFiles_mem hok
  -- Every row of the upload is one that has been synced.
  have hown : ∀ r ∈ quota₁.files.rows, r.key.linkId = linkId → r.key.uploadId = upload.id →
      r ∈ fileRows tenant linkId upload.id upload.files := by
    intro r hr hlink hupload
    rcases (hmem₁ r).mp hr with hr | ⟨hr, hkey⟩
    · apply hr
    · obtain ⟨i, hi, rfl⟩ := mem_fileRows.mp ((hheld r).mp ⟨hr, hlink, hupload⟩)
      exfalso
      apply hkey
      rw [List.mem_map]
      refine ⟨upload.files[i].row tenant linkId upload.id i, ?_, rfl⟩
      rw [mem_fileRows]
      exact ⟨i, by omega, rfl⟩
  have hnone : ∀ r ∈ quota₁.files.rows,
      r.key ∉ fileKeysFrom quota₁.files linkId upload.id upload.files.length := by
    intro r _ hkey
    obtain ⟨s, hs, _⟩ := List.mem_map.mp hkey
    rw [List.mem_filter, decide_eq_true_iff] at hs
    obtain ⟨hs, hlink, hupload, hindex⟩ := hs
    obtain ⟨_, _, _, _, hlt⟩ := key_of_mem_fileRows (hown s hs hlink hupload)
    omega
  constructor
  · intro r
    rw [hmem]
    constructor
    · rintro ⟨⟨hr, _⟩, hlink, hupload⟩
      apply hown r hr hlink hupload
    · intro hr
      obtain ⟨_, hlink, hupload, _⟩ := key_of_mem_fileRows hr
      have hr₁ := (hmem₁ r).mpr (Or.inl hr)
      exact ⟨⟨hr₁, hnone r hr₁⟩, hlink, hupload⟩
  · intro r hne
    rw [hmem, hmem₁]
    constructor
    · rintro ⟨hr | hr, _⟩
      · obtain ⟨_, hlink, hupload, _⟩ := key_of_mem_fileRows hr
        exact absurd ⟨hlink, hupload⟩ hne
      · apply hr.1
    · intro hr
      have hkey : r.key ∉ (fileRows tenant linkId upload.id upload.files).map FileRow.key := by
        intro hkey
        obtain ⟨s, hs, he⟩ := List.mem_map.mp hkey
        obtain ⟨_, hlink, hupload, _⟩ := key_of_mem_fileRows hs
        apply hne
        rw [← he]
        exact ⟨hlink, hupload⟩
      have hr₁ := (hmem₁ r).mpr (Or.inr ⟨hr, hkey⟩)
      exact ⟨Or.inr ⟨hr, hkey⟩, hnone r hr₁⟩

theorem commitSession_eq_ok
    {db db' : UploadDb δ ρ} {session uploadId : String}
    (hok : commitSession db session uploadId = .ok db') :
  ∃ row, db.sessions.find? session = some row ∧ row.committedUploadId = none
    ∧ db' = { db with sessions := db.sessions.upsert { row with committedUploadId := some uploadId } }
  := by
  rw [commitSession] at hok
  split at hok
  · cases hok
  · rename_i row hrow
    cases hok
    obtain ⟨hrow, hnone⟩ := Option.filter_eq_some_iff.mp hrow
    exact ⟨row, hrow, of_decide_eq_true hnone, rfl⟩

theorem appendFresh_spec
    {db db' : UploadDb δ ρ} {tenant linkId : String} {upload : UploadRecord}
    {session : Option String} (henv : env.Lawful) (hdb : db.Consistent env)
    (htotal : upload.totalBytes = totalOf upload.files)
    (hok : appendFresh env db tenant linkId upload session = .ok db') :
  Appended env db db' tenant linkId upload session
    ∧ db'.links = db.links ∧ db'.sessionFiles = db.sessionFiles
  := by
  rw [appendFresh] at hok
  cases huploads : db.uploads.insert? (headerRow env tenant linkId upload) with
  | none =>
      rw [huploads] at hok
      cases hok
  | some uploads =>
      rw [huploads] at hok
      obtain ⟨habsent, hrows⟩ := Table.insert?_eq_some.mp huploads
      dsimp only at hok
      obtain ⟨rest, _, hok⟩ := Fallible.bind_eq_ok.mp hok
      obtain ⟨quota, hquota, hok⟩ := Fallible.bind_eq_ok.mp hok
      obtain ⟨rest', _, hok⟩ := Fallible.bind_eq_ok.mp hok
      have hfiles := insertUploadFiles_rows hquota
      have hputs : Puts env db { db with uploads, quota, rest := rest' } tenant linkId upload :=
        puts_fresh henv hdb htotal habsent hrows hfiles
      cases session with
      | none =>
          cases hok
          exact ⟨.fresh habsent hputs rfl, rfl, rfl⟩
      | some session =>
          rw [commitFresh] at hok
          split_ifs at hok with hpartial
          · cases hok
            refine ⟨.fresh habsent hputs ?_, rfl, rfl⟩
            rw [CommitsSession, if_pos hpartial]
          · obtain ⟨row, hrow, hnone, rfl⟩ := commitSession_eq_ok hok
            refine ⟨.fresh habsent ⟨hputs.header, hputs.others, hputs.files⟩ ?_, rfl, rfl⟩
            rw [CommitsSession, if_neg hpartial]
            exact ⟨row, hrow, hnone, rfl⟩

/-- A recovered upload is put in place of the one recorded before. -/
theorem appendRecovered_spec
    {db db' : UploadDb δ ρ} {tenant linkId : String} {previous upload : UploadRecord}
    {row : UploadRow δ} (henv : env.Lawful) (hrow : row ∈ db.uploads.rows)
    (htenant : row.tenant = tenant) (hlink : row.linkId = linkId)
    (hprevious : HeaderOf env db.quota.files row previous)
    (hok : appendRecovered env db tenant linkId previous upload = .ok db') :
  ∃ merged, merged.id = previous.id ∧ previous.Kept merged
    ∧ Puts env db db' tenant linkId merged ∧ db'.sessions = db.sessions
    ∧ db'.links = db.links ∧ db'.sessionFiles = db.sessionFiles
  := by
  obtain ⟨merged, hmerged, hok⟩ := Fallible.bind_eq_ok.mp hok
  obtain ⟨hkept, hid, htotal⟩ := mergeUpload_spec hmerged
  obtain ⟨quota, hquota, hok⟩ := Fallible.bind_eq_ok.mp hok
  have hkey : row.key = (linkId, merged.id) := by
    rw [UploadRow.key, hlink, hid, hprevious.id]
  have hwrite : writeUpload env db tenant linkId merged
      = { db with uploads := db.uploads.upsert (headerRow env tenant linkId merged) } := by
    rw [writeUpload, ← hkey, Table.find?_key hrow, Option.filter_some]
    rw [if_pos (decide_eq_true htenant)]
  rw [hwrite] at hquota hok
  cases hok
  have hheld : HoldsFiles db.quota.files tenant linkId merged.id previous.files := by
    have := hprevious.files
    rw [htenant, hlink, ← hprevious.id, ← hid] at this
    apply this
  obtain ⟨hfiles, hothers⟩ := syncUploadFiles_spec hheld hkept.1.length_le hquota
  refine ⟨merged, hid, hkept, ?_, rfl, rfl, rfl⟩
  constructor
  · refine ⟨headerRow env tenant linkId merged, ?_, rfl, rfl, ?_⟩
    · apply Table.mem_upsert.mpr (Or.inl rfl)
    · apply header_of_headerRow henv htotal hfiles
  · intro other hne
    rw [Table.mem_upsert]
    constructor
    · rintro (rfl | hother)
      · exact absurd ⟨rfl, rfl⟩ hne
      · apply hother.1
    · intro hother
      refine Or.inr ⟨hother, ?_⟩
      intro he
      rw [UploadRow.key, UploadRow.key, Prod.mk.injEq] at he
      exact hne he
  · apply hothers

theorem readUpload_eq_some
    {db : UploadDb δ ρ} {tenant linkId uploadId : String} {upload : UploadRecord}
    (hdb : db.Consistent env)
    (hok : readUpload env db tenant linkId uploadId = .ok (some upload)) :
  ∃ row ∈ db.uploads.rows, row.tenant = tenant ∧ row.linkId = linkId ∧ row.uploadId = uploadId
    ∧ HeaderOf env db.quota.files row upload
  := by
  rw [readUpload] at hok
  split at hok
  · cases hok
  · rename_i row hrow
    obtain ⟨hfind, hvisible⟩ := Option.filter_eq_some_iff.mp hrow
    obtain ⟨hmem, hkey⟩ := Table.find?_eq_some.mp hfind
    rw [decide_eq_true_iff] at hvisible
    rw [UploadRow.key, Prod.mk.injEq] at hkey
    obtain ⟨upload', hheader⟩ := hdb.header row hmem
    rw [hheader.hydrateUpload_eq] at hok
    cases hok
    exact ⟨row, hmem, hvisible.1, hkey.1, hkey.2, hheader⟩

theorem appendToLink_spec
    {db db' : UploadDb δ ρ} {tenant linkId : String} {upload : UploadRecord}
    {session : Option String} (henv : env.Lawful) (hdb : db.Consistent env)
    (htotal : upload.totalBytes = totalOf upload.files)
    (hok : appendToLink env db tenant linkId upload session = .ok db') :
  Appended env db db' tenant linkId upload session
    ∧ db'.links = db.links ∧ db'.sessionFiles = db.sessionFiles
  := by
  rw [appendToLink] at hok
  by_cases hread : upload.isPartial ∨ session = none
  · rw [if_pos hread] at hok
    obtain ⟨previous?, hprevious, hok⟩ := Fallible.bind_eq_ok.mp hok
    cases previous? with
    | none => apply appendFresh_spec henv hdb htotal hok
    | some previous =>
        obtain ⟨row, hrow, htenant, hlink, hupload, hheader⟩ := readUpload_eq_some hdb hprevious
        dsimp only at hok
        split_ifs at hok with hpartial
        · obtain ⟨merged, hid, hkept, hputs, hsessions, hrest⟩ :=
            appendRecovered_spec henv hrow htenant hlink hheader hok
          exact ⟨.recovered row previous merged hpartial hrow hlink hheader hid hkept hputs hsessions,
            hrest⟩
        · rw [appendAgain] at hok
          split_ifs at hok
          obtain ⟨rest, _, hok⟩ := Fallible.bind_eq_ok.mp hok
          cases hok
          exact ⟨.again (hread.resolve_left hpartial) rfl rfl rfl, rfl, rfl⟩
  · rw [if_neg hread] at hok
    apply appendFresh_spec henv hdb htotal hok

/-- What `append_upload_inner` answers: the upload its session has committed, nothing when
there is no link, or the upload it has written. -/
theorem appendUpload_cases
    {db db' : UploadDb δ ρ} {tenant linkId : String} {upload : UploadRecord}
    {session uploadId : Option String} (henv : env.Lawful) (hdb : db.Consistent env)
    (htotal : upload.totalBytes = totalOf upload.files)
    (hok : appendUpload env db tenant linkId upload session = .ok (uploadId, db')) :
  (∃ committed, committedUpload db tenant linkId session = .ok (some committed)
      ∧ uploadId = some committed ∧ db' = db)
    ∨ committedUpload db tenant linkId session = .ok none
      ∧ (uploadId = none ∧ db' = db
        ∨ uploadId = some upload.id ∧ Appended env db db' tenant linkId upload session)
  := by
  obtain ⟨committed?, hcommitted, hok⟩ := Fallible.bind_eq_ok.mp hok
  cases committed? with
  | some committed =>
      cases hok
      left
      exact ⟨committed, hcommitted, rfl, rfl⟩
  | none =>
      right
      use hcommitted
      dsimp only at hok
      cases hlink : db.link? tenant linkId with
      | none =>
          rw [hlink] at hok
          cases hok
          left
          exact ⟨rfl, rfl⟩
      | some link =>
          rw [hlink] at hok
          obtain ⟨_, _, hok⟩ := Fallible.bind_eq_ok.mp hok
          obtain ⟨db₁, happend, hok⟩ := Fallible.bind_eq_ok.mp hok
          cases hok
          right
          exact ⟨rfl, (appendToLink_spec henv hdb htotal happend).1⟩

/-- A session goes in only in place of sessions that have not committed. -/
theorem insertUploadSession_spec
    {db db' : UploadDb δ ρ} {session : PersistedUploadSession}
    (hok : insertUploadSession db session = .ok db') :
  (∀ r ∈ db.sessions.rows, r.id = session.row.id ∨ session.row.SamePushKey r →
      r.committedUploadId = none)
    ∧ db'.sessions
      = (db.sessions.filter (fun r => ¬ session.row.SamePushKey r)).upsert session.row
    ∧ db'.uploads = db.uploads ∧ db'.quota = db.quota
  := by
  rw [insertUploadSession] at hok
  split_ifs at hok with hcommitted
  obtain ⟨sessionFiles, _, hok⟩ := Fallible.bind_eq_ok.mp hok
  cases hok
  refine ⟨?_, rfl, rfl, rfl⟩
  intro r hr hsame
  by_contra hne
  exact hcommitted (Or.inl ⟨r, hr, hsame, hne⟩)

/-! ### Runs -/

/-- The upload of a call has the total of its files. -/
def UploadOp.Totalled : UploadOp → Prop
  | .append _ _ upload _ => upload.totalBytes = totalOf upload.files
  | .insertSession _ => True

/-- What every call keeps: the tables are consistent, every upload is kept, and so is every
session that has committed. -/
structure Follows (env : UploadEnv δ ρ) (db later : UploadDb δ ρ) : Prop where
  consistent : later.Consistent env
  uploads : ∀ row ∈ db.uploads.rows, ∀ upload, HeaderOf env db.quota.files row upload →
    ∃ row' ∈ later.uploads.rows, row'.key = row.key
      ∧ ∃ upload', HeaderOf env later.quota.files row' upload' ∧ upload.Kept upload'
  sessions : ∀ s ∈ db.sessions.rows, s.committedUploadId ≠ none → s ∈ later.sessions.rows

theorem Follows.refl {db : UploadDb δ ρ} (h : db.Consistent env) :
  Follows env db db
  := by
  constructor
  · apply h
  · intro row hrow upload hheader
    exact ⟨row, hrow, rfl, upload, hheader, UploadRecord.Kept.refl upload⟩
  · intro s hs _
    apply hs

theorem Follows.trans
    {db later latest : UploadDb δ ρ} (h : Follows env db later) (h' : Follows env later latest) :
  Follows env db latest
  := by
  constructor
  · apply h'.consistent
  · intro row hrow upload hheader
    obtain ⟨row', hrow', hkey', upload', hheader', hkept'⟩ := h.uploads row hrow upload hheader
    obtain ⟨row'', hrow'', hkey'', upload'', hheader'', hkept''⟩ :=
      h'.uploads row' hrow' upload' hheader'
    exact ⟨row'', hrow'', hkey''.trans hkey', upload'', hheader'', hkept'.trans hkept''⟩
  · intro s hs hcommitted
    apply h'.sessions s (h.sessions s hs hcommitted) hcommitted

/-- Writing keeps the uploads and the committed sessions. -/
theorem Appended.follows
    {db db' : UploadDb δ ρ} {tenant linkId : String} {upload : UploadRecord}
    {session : Option String} (hdb : db.Consistent env)
    (h : Appended env db db' tenant linkId upload session) :
  Follows env db db'
  := by
  cases h with
  | fresh habsent hputs hsessions =>
      constructor
      · apply hputs.consistent hdb
      · intro row hrow other hheader
        have hne : ¬ (row.linkId = linkId ∧ row.uploadId = upload.id) := by
          rintro ⟨hlink, hupload⟩
          apply Table.find?_eq_none.mp habsent row hrow
          rw [UploadRow.key, hlink, hupload]
        obtain ⟨hrow', hheader'⟩ := hputs.header_of_ne hne hrow hheader
        exact ⟨row, hrow', rfl, other, hheader', UploadRecord.Kept.refl other⟩
      · intro s hs hcommitted
        cases session with
        | none =>
            rw [CommitsSession] at hsessions
            rw [hsessions]
            apply hs
        | some session =>
            rw [CommitsSession] at hsessions
            split_ifs at hsessions
            · rw [hsessions]
              apply hs
            · obtain ⟨row, hrow, hnone, hsessions⟩ := hsessions
              rw [hsessions, Table.mem_upsert]
              refine Or.inr ⟨hs, ?_⟩
              intro he
              apply hcommitted
              rw [db.sessions.eq_of_key_eq hs (Table.find?_eq_some.mp hrow).1 he, hnone]
  | recovered row previous merged _ hrow hlink hprevious hid hkept hputs hsessions =>
      constructor
      · apply hputs.consistent hdb
      · intro row' hrow' other hheader
        by_cases hsame : row'.linkId = linkId ∧ row'.uploadId = merged.id
        · obtain rfl : row' = row := by
            apply upload_row_eq hrow' hrow (hsame.1.trans hlink.symm)
            rw [hsame.2, hid, hprevious.id]
          obtain rfl : other = previous := by
            have := hheader.hydrateUpload_eq.symm.trans hprevious.hydrateUpload_eq
            cases this
            rfl
          obtain ⟨row'', hrow'', _, hlink'', hheader''⟩ := hputs.header
          refine ⟨row'', hrow'', ?_, merged, hheader'', hkept⟩
          rw [UploadRow.key, UploadRow.key, hlink'', hlink, ← hheader''.id, hid, hprevious.id]
        · obtain ⟨hrow'', hheader''⟩ := hputs.header_of_ne hsame hrow' hheader
          exact ⟨row', hrow'', rfl, other, hheader'', UploadRecord.Kept.refl other⟩
      · intro s hs _
        rw [hsessions]
        apply hs
  | again _ huploads hquota hsessions =>
      constructor
      · constructor
        · rw [huploads, hquota]
          apply hdb.header
        · rw [huploads, hquota]
          apply hdb.owned
      · intro row hrow other hheader
        rw [huploads, hquota]
        exact ⟨row, hrow, rfl, other, hheader, UploadRecord.Kept.refl other⟩
      · intro s hs _
        rw [hsessions]
        apply hs

theorem apply_follows
    {db : UploadDb δ ρ} (henv : env.Lawful) (hdb : db.Consistent env) {op : UploadOp}
    (hop : op.Totalled) :
  Follows env db (db.apply env op)
  := by
  cases op with
  | append tenant linkId upload session =>
      rw [UploadDb.apply]
      split
      · apply Follows.refl hdb
      · rename_i uploadId db' hok
        rcases appendUpload_cases henv hdb hop hok with ⟨_, _, _, rfl⟩ | ⟨_, ⟨_, rfl⟩ | ⟨_, h⟩⟩
        · apply Follows.refl hdb
        · apply Follows.refl hdb
        · apply h.follows hdb
  | insertSession session =>
      rw [UploadDb.apply]
      split
      · apply Follows.refl hdb
      · rename_i db' hok
        obtain ⟨hnone, hsessions, huploads, hquota⟩ := insertUploadSession_spec hok
        constructor
        · constructor
          · rw [huploads, hquota]
            apply hdb.header
          · rw [huploads, hquota]
            apply hdb.owned
        · intro row hrow other hheader
          rw [huploads, hquota]
          exact ⟨row, hrow, rfl, other, hheader, UploadRecord.Kept.refl other⟩
        · intro s hs hcommitted
          rw [hsessions, Table.mem_upsert, Table.mem_filter]
          refine Or.inr ⟨⟨hs, ?_⟩, ?_⟩
          · intro hsame
            exact hcommitted (hnone s hs (Or.inr hsame))
          · intro he
            exact hcommitted (hnone s hs (Or.inl he))

theorem run_follows
    {db : UploadDb δ ρ} (henv : env.Lawful) (hdb : db.Consistent env) (ops : List UploadOp)
    (hops : ∀ op ∈ ops, op.Totalled) :
  Follows env db (ops.foldl (UploadDb.apply env) db)
  := by
  induction ops generalizing db with
  | nil => apply Follows.refl hdb
  | cons op ops ih =>
      have hop := apply_follows henv hdb (hops op List.mem_cons_self)
      apply hop.trans
      apply ih hop.consistent
      intro op' hop'
      apply hops op' (List.mem_cons_of_mem op hop')

/-- A header counts the rows of its files, and has their total. -/
theorem HeaderOf.totals
    {table : Files} {row : UploadRow δ} {upload : UploadRecord}
    (h : HeaderOf env table row upload) :
  row.fileCount = (selectFiles table row.tenant row.linkId row.uploadId).length
    ∧ upload.totalBytes
      = totalOf ((selectFiles table row.tenant row.linkId row.uploadId).map rowToUploadFile)
  := by
  rw [h.files.selectFiles_eq, fileRows]
  constructor
  · rw [List.length_mapIdx, h.fileCount]
  · have hrecords : (upload.files.mapIdx (fun index file =>
        file.row row.tenant row.linkId row.uploadId index)).map rowToUploadFile = upload.files := by
      apply List.ext_getElem
      · simp
      · intro i _ _
        simp [rowToUploadFile_row]
    rw [hrecords, h.totalBytes]

/-- A session that has committed answers with its upload. -/
theorem appendUpload_of_committed
    {db : UploadDb δ ρ} {s : UploadSessionRow} (hs : s ∈ db.sessions.rows) {uploadId : String}
    (hcommitted : s.committedUploadId = some uploadId) (upload : UploadRecord) :
  appendUpload env db s.tenant s.linkId upload (some s.id) = .ok (some uploadId, db)
  := by
  have hrow : committedUpload db s.tenant s.linkId (some s.id) = .ok (some uploadId) := by
    rw [committedUpload, Table.find?_key hs, Option.filter_some, if_pos (by simp)]
    exact congrArg Except.ok hcommitted
  rw [appendUpload, hrow]
  rfl

theorem insertUploadSession_of_committed
    {db : UploadDb δ ρ} {s : UploadSessionRow} (hs : s ∈ db.sessions.rows)
    (hcommitted : s.committedUploadId ≠ none) {session : PersistedUploadSession}
    (hsame : s.id = session.row.id ∨ session.row.SamePushKey s) :
  insertUploadSession db session = .error "completed upload is awaiting publication cleanup"
  := if_pos (Or.inl ⟨s, hs, hsame, hcommitted⟩)

/-- A session that commits an upload adds it, unless it has committed before. -/
theorem appendUpload_complete
    {db db' : UploadDb δ ρ} {tenant linkId : String} {upload : UploadRecord}
    {session uploadId : String} (henv : env.Lawful) (hdb : db.Consistent env)
    (htotal : upload.totalBytes = totalOf upload.files) ( hpartial : upload.isPartial = false)
    (hok : appendUpload env db tenant linkId upload (some session) = .ok (some uploadId, db')) :
  (∃ s ∈ db'.sessions.rows, s.id = session ∧ s.tenant = tenant ∧ s.linkId = linkId
      ∧ s.committedUploadId = some uploadId)
    ∧ (db' = db ∨ db.uploads.find? (linkId, uploadId) = none
      ∧ (∀ row, row.key ≠ (linkId, uploadId) → (row ∈ db'.uploads.rows ↔ row ∈ db.uploads.rows))
      ∧ ∃ row ∈ db'.uploads.rows, row.key = (linkId, uploadId)
        ∧ hydrateUpload env db'.quota.files row = .ok upload)
  := by
  have hsession : ∀ committed, committedUpload db tenant linkId (some session) = .ok committed →
      ∃ s, db.sessions.find? session = some s ∧ s.tenant = tenant ∧ s.linkId = linkId
        ∧ s.committedUploadId = committed := by
    intro committed hcommitted
    rw [committedUpload] at hcommitted
    split at hcommitted
    · cases hcommitted
    · rename_i s hs
      cases hcommitted
      obtain ⟨hfind, hmatch⟩ := Option.filter_eq_some_iff.mp hs
      rw [decide_eq_true_iff] at hmatch
      exact ⟨s, hfind, hmatch.1, hmatch.2, rfl⟩
  rcases appendUpload_cases henv hdb htotal hok with
    ⟨committed, hcommitted, huploadId, rfl⟩ | ⟨hcommitted, ⟨huploadId, _⟩ | ⟨huploadId, happend⟩⟩
  · cases huploadId
    obtain ⟨s, hs, htenant, hlink, hcommitted⟩ := hsession _ hcommitted
    obtain ⟨hmem, hid⟩ := Table.find?_eq_some.mp hs
    exact ⟨⟨s, hmem, hid, htenant, hlink, hcommitted⟩, Or.inl rfl⟩
  · cases huploadId
  · cases huploadId
    obtain ⟨s, hs, htenant, hlink, _⟩ := hsession _ hcommitted
    cases happend with
    | fresh habsent hputs hsessions =>
        rw [CommitsSession, if_neg (by rw [ hpartial]; exact Bool.false_ne_true)] at hsessions
        obtain ⟨s', hs', _, hsessions⟩ := hsessions
        obtain rfl : s = s' := Option.some.inj (hs.symm.trans hs')
        constructor
        · refine ⟨{ s with committedUploadId := some upload.id }, ?_,
            (Table.find?_eq_some.mp hs).2, htenant, hlink, rfl⟩
          rw [hsessions]
          apply Table.mem_upsert.mpr (Or.inl rfl)
        · right
          obtain ⟨row, hrow, _, hlink', hheader⟩ := hputs.header
          refine ⟨habsent, ?_, row, hrow, ?_, hheader.hydrateUpload_eq⟩
          · intro other hne
            apply hputs.others
            rintro ⟨hlink'', hupload''⟩
            apply hne
            rw [UploadRow.key, hlink'', hupload'']
          · rw [UploadRow.key, hlink', hheader.id]
    | recovered row previous merged hrecovered => simp [ hpartial] at hrecovered
    | again hnone => cases hnone

/-- From consistent tables, over any calls whose uploads have the totals of their files:
every upload is read back, with the count and the total of its rows, and stays, with its
files, which at most get receipts; a session that has committed answers with its upload
and changes nothing, and neither it nor its push key goes in again; a complete upload of a
session commits it, and is the one upload it adds; and a call that fails changes nothing. -/
theorem appendUpload_commits
    {start : UploadDb δ ρ} (henv : env.Lawful) (hstart : start.Consistent env)
    (before after : List UploadOp) (hops : ∀ op ∈ before ++ after, op.Totalled) :
  let db := before.foldl (UploadDb.apply env) start
  let later := after.foldl (UploadDb.apply env) db
  (∀ row ∈ db.uploads.rows, ∃ upload, hydrateUpload env db.quota.files row = .ok upload
      ∧ row.fileCount = (selectFiles db.quota.files row.tenant row.linkId row.uploadId).length
      ∧ upload.totalBytes
        = totalOf ((selectFiles db.quota.files row.tenant row.linkId row.uploadId).map
          rowToUploadFile)
      ∧ ∃ row' ∈ later.uploads.rows, row'.key = row.key
        ∧ ∃ upload', hydrateUpload env later.quota.files row' = .ok upload' ∧ upload.Kept upload')
    ∧ (∀ s ∈ db.sessions.rows, ∀ uploadId, s.committedUploadId = some uploadId →
      (∀ upload, appendUpload env later s.tenant s.linkId upload (some s.id)
          = .ok (some uploadId, later))
      ∧ ∀ session : PersistedUploadSession,
          s.id = session.row.id ∨ session.row.SamePushKey s →
          ∃ e, insertUploadSession later session = .error e)
    ∧ (∀ tenant linkId upload session uploadId db', upload.totalBytes = totalOf upload.files →
      upload.isPartial = false →
      appendUpload env db tenant linkId upload (some session) = .ok (some uploadId, db') →
      (∃ s ∈ db'.sessions.rows, s.id = session ∧ s.tenant = tenant ∧ s.linkId = linkId
        ∧ s.committedUploadId = some uploadId)
      ∧ (db' = db ∨ db.uploads.find? (linkId, uploadId) = none
        ∧ (∀ row, row.key ≠ (linkId, uploadId) →
          (row ∈ db'.uploads.rows ↔ row ∈ db.uploads.rows))
        ∧ ∃ row ∈ db'.uploads.rows, row.key = (linkId, uploadId)
          ∧ hydrateUpload env db'.quota.files row = .ok upload))
    ∧ (∀ tenant linkId upload session e,
      appendUpload env db tenant linkId upload session = .error e →
      db.apply env (.append tenant linkId upload session) = db)
    ∧ ∀ session e, insertUploadSession db session = .error e →
      db.apply env (.insertSession session) = db
  := by
  intro db later
  have hbefore := run_follows henv hstart before
    (fun op hop => hops op (List.mem_append_left after hop))
  have hdb := hbefore.consistent
  have hafter := run_follows henv hdb after
    (fun op hop => hops op (List.mem_append_right before hop))
  refine ⟨?_, ?_, ?_, ?_, ?_⟩
  · intro row hrow
    obtain ⟨upload, hheader⟩ := hdb.header row hrow
    obtain ⟨row', hrow', hkey, upload', hheader', hkept⟩ := hafter.uploads row hrow upload hheader
    exact ⟨upload, hheader.hydrateUpload_eq, hheader.totals.1, hheader.totals.2, row', hrow', hkey,
      upload', hheader'.hydrateUpload_eq, hkept⟩
  · intro s hs uploadId hcommitted
    have hne : s.committedUploadId ≠ none := by
      rw [hcommitted]
      exact Option.some_ne_none uploadId
    have hlater := hafter.sessions s hs hne
    constructor
    · apply appendUpload_of_committed hlater hcommitted
    · intro session hsame
      exact ⟨_, insertUploadSession_of_committed hlater hne hsame⟩
  · intro tenant linkId upload session uploadId db' htotal hpartial hok
    apply appendUpload_complete henv hdb htotal hpartial hok
  · intro tenant linkId upload session e he
    rw [UploadDb.apply, he]
  · intro session e he
    rw [UploadDb.apply, he]

/-- Documents that are the uploads themselves, without routes and workflows. -/
def plainDocuments : UploadEnv UploadRecord Unit where
  toJson := id
  parseUpload := .ok
  parseEvents := fun _ => .ok ()
  completeRoute := fun _ _ _ _ _ => .ok ()
  queueReceived := fun _ _ _ _ => .ok ()

/-- An upload of one file. -/
def sampleUpload : UploadRecord where
  id := "u"
  startedAt := 1
  completedAt := 2
  replayedChunks := 0
  rejectedChunks := 0
  transport := none
  packageRoot := "00"
  totalBytes := 7
  files := [⟨"a.txt", "a.txt", 7, by decide, "blake3", "00", true, false⟩]
  isPartial := false
  log := []

/-- Tables with a link `l` and a session `s` for it. -/
def sampleUploads : UploadDb UploadRecord Unit where
  links := ⟨[⟨"l", "t", sampleUpload⟩], by simp⟩
  uploads := Table.empty
  quota := ⟨Table.empty, Table.empty, []⟩
  sessions := ⟨[⟨"s", "l", "t", none, none⟩], by simp⟩
  sessionFiles := Table.empty
  rest := ()

/-- Two partial uploads of the session `s`, and a complete one. -/
def sampleParts : List UploadOp := [
  .append "t" "l" { sampleUpload with id := "u1", isPartial := true } (some "s"),
  .append "t" "l" { sampleUpload with id := "u2", isPartial := true } (some "s"),
  .append "t" "l" { sampleUpload with id := "u3" } (some "s")]

/-- The uploads and the sessions after calls from the tables with a link. -/
def uploadsAfter (ops : List UploadOp) : List String × List (Option String) :=
  let db := ops.foldl (UploadDb.apply plainDocuments) sampleUploads
  (db.uploads.rows.map (·.uploadId), db.sessions.rows.map (·.committedUploadId))

/-- A session adds the partial uploads it is called for, and commits the complete one. -/
theorem appendUpload_partials :
  uploadsAfter (sampleParts.take 1) = (["u1"], [none])
    ∧ uploadsAfter (sampleParts.take 2) = (["u2", "u1"], [none])
    ∧ uploadsAfter sampleParts = (["u3", "u2", "u1"], [some "u3"])
  := by decide +kernel

theorem appendUpload_commits_sample :
  let db := [UploadOp.append "t" "l" sampleUpload (some "s")].foldl
    (UploadDb.apply plainDocuments) sampleUploads
  ∃ s ∈ db.sessions.rows, s.committedUploadId = some "u"
    ∧ ∀ upload, appendUpload plainDocuments db s.tenant s.linkId upload (some s.id)
      = .ok (some "u", db)
  := by
  have hconsistent : sampleUploads.Consistent plainDocuments := by
    constructor <;> intro _ h <;> cases h
  have hcommits := appendUpload_commits (fun _ => rfl) hconsistent
    [.append "t" "l" sampleUpload (some "s")] [] (by simp [UploadOp.Totalled]; decide)
  intro db
  obtain ⟨s, hs, hcommitted⟩ : ∃ s ∈ db.sessions.rows, s.committedUploadId = some "u" := by
    decide
  exact ⟨s, hs, hcommitted, (hcommits.2.1 s hs "u" hcommitted).1⟩

end Votport
