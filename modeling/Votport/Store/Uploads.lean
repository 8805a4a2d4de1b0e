import Votport.Store.QuotaRun

/-!
# Committed uploads

An upload is kept as a header in `link_uploads`, whose document has no files, and a row of
`files` for each of its files.  `append_upload` commits one in a transaction: a fresh one,
an upload whose session has committed already, or one that adds the files recovered from
an interrupted session to those recorded before.  `hydrate_upload` reads an upload back,
and refuses a header the file rows do not match.

Sessions are kept in `upload_sessions` until their upload is committed and published.
`insert_upload_session` puts one in place of those with its id or its push key, unless one
of them has committed.
-/

namespace Votport

/-! ### Records -/

/-- A file of an upload. -/
structure FileRecord where
  path : String
  storedAs : String
  bytes : ℕ
  /-- The byte count is a `u64`. -/
  bytes_le : bytes ≤ u64Max
  suite : String
  root : String
  receipt : Bool
  deleted : Bool
deriving DecidableEq

/-- An entry of a transfer log. -/
structure LogEvent where
  at' : ℕ
  kind : String
  path : Option String
  bytes : Option ℕ
  secs : Option ℕ
  count : Option ℕ
deriving DecidableEq

/-- An upload. -/
structure UploadRecord where
  id : String
  startedAt : ℕ
  completedAt : ℕ
  replayedChunks : ℕ
  rejectedChunks : ℕ
  transport : Option String
  packageRoot : String
  totalBytes : ℕ
  files : List FileRecord
  /-- The field `partial`. -/
  isPartial : Bool
  log : List LogEvent
deriving DecidableEq

/-- The bytes of some files, at most `u64::MAX`. -/
def totalOf (files : List FileRecord) : ℕ :=
  files.foldl (fun total file => min (total + file.bytes) u64Max) 0

/-- What tells one content under one stored name: `recovered file identity`. -/
def FileRecord.identity (file : FileRecord) : ℕ × String × String :=
  (file.bytes, file.suite, file.root)

/-- The row of a file. -/
def FileRecord.row (file : FileRecord) (tenant linkId uploadId : String) (index : ℕ) : FileRow where
  key := ⟨linkId, uploadId, index⟩
  tenant := tenant
  bytes := splitBytes file.bytes file.bytes_le
  deleted := file.deleted
  storedAs := file.storedAs
  path := file.path
  suite := file.suite
  root := file.root
  receipt := file.receipt

/-- `row_to_upload_file`. -/
def rowToUploadFile (row : FileRow) : FileRecord where
  path := row.path
  storedAs := row.storedAs
  bytes := row.bytes.value
  bytes_le := row.bytes.value_le
  suite := row.suite
  root := row.root
  receipt := row.receipt
  deleted := row.deleted

/-- The rows of an upload's files. -/
def fileRows (tenant linkId uploadId : String) (files : List FileRecord) : List FileRow :=
  files.mapIdx (fun index file => file.row tenant linkId uploadId index)

/-! ### Tables -/

variable {δ ρ : Type}

/-- A row of `links`.  `δ` are the texts of documents. -/
structure LinkRow (δ : Type) where
  id : String
  tenant : String
  eventsJson : δ

/-- A row of `link_uploads`. -/
structure UploadRow (δ : Type) where
  linkId : String
  tenant : String
  uploadId : String
  document : δ
  fileCount : ℤ

/-- The unique columns of `link_uploads`. -/
def UploadRow.key (row : UploadRow δ) : String × String := (row.linkId, row.uploadId)

/-- A row of `upload_sessions`. -/
structure UploadSessionRow where
  id : String
  linkId : String
  tenant : String
  pushKey : Option String
  committedUploadId : Option String
deriving DecidableEq

/-- A row of `upload_session_files`. -/
structure UploadSessionFileRow where
  sessionId : String
  entry : ℕ
  prefixBytes : ℕ
  published : Bool
  receipt : Bool
deriving DecidableEq

/-- The primary key of `upload_session_files`. -/
def UploadSessionFileRow.key (row : UploadSessionFileRow) : String × ℕ := (row.sessionId, row.entry)

/-- The tables uploads are committed in.  `rest` are the tables of routes and workflows. -/
structure UploadDb (δ ρ : Type) where
  links : Table (@LinkRow.id δ)
  uploads : Table (@UploadRow.key δ)
  quota : QuotaDb
  sessions : Table UploadSessionRow.id
  sessionFiles : Table UploadSessionFileRow.key
  rest : ρ

/-- The documents of uploads and links, and what a commit does to routes and workflows,
which it does not do to other tables. -/
structure UploadEnv (δ ρ : Type) where
  /-- `serde_json::to_string` of an upload. -/
  toJson : UploadRecord → δ
  /-- `parse_json` of an upload. -/
  parseUpload : δ → Except String UploadRecord
  /-- `parse_json` of the events of a link. -/
  parseEvents : δ → Except String Unit
  /-- `routes::complete_route`. -/
  completeRoute : UploadDb δ ρ → String → String → String → UploadRecord → Except String ρ
  /-- `workflows::queue_received`. -/
  queueReceived : UploadDb δ ρ → String → String → UploadRecord → Except String ρ

/-- What is written is read back. -/
def UploadEnv.Lawful (env : UploadEnv δ ρ) : Prop :=
  ∀ upload, env.parseUpload (env.toJson upload) = .ok upload

/-! ### Reading -/

/-- `upload file records do not match their header`. -/
def uploadFilesInvalid : String := "upload file records do not match their header"

/-- The rows of an upload's files in the order of their indexes. -/
def selectFiles (files : Files) (tenant linkId uploadId : String) : List FileRow :=
  (files.rows.filter (fun r => r.tenant = tenant ∧ r.key.linkId = linkId
    ∧ r.key.uploadId = uploadId)).insertionSort (fun r s => r.key.fileIndex ≤ s.key.fileIndex)

/-- One row of the loop of `hydrate_upload`. -/
def hydrateFile (count : ℤ) (files : List FileRecord) (row : FileRow) :
    Except String (List FileRecord) :=
  if row.key.fileIndex ≠ files.length ∨ row.key.fileIndex ≥ count then throw uploadFilesInvalid
  else pure (files ++ [rowToUploadFile row])

/-- `hydrate_upload`. -/
def hydrateUpload (env : UploadEnv δ ρ) (files : Files) (row : UploadRow δ) :
    Except String UploadRecord := do
  let upload ← env.parseUpload row.document
  if upload.id ≠ row.uploadId ∨ upload.files ≠ [] then throw uploadFilesInvalid
  else do
    let files ← (selectFiles files row.tenant row.linkId row.uploadId).foldlM
      (hydrateFile row.fileCount) []
    if files.length ≠ row.fileCount then throw uploadFilesInvalid
    else pure { upload with files }

/-- The link of a tenant. -/
def UploadDb.link? (db : UploadDb δ ρ) (tenant id : String) : Option (LinkRow δ) :=
  (db.links.find? id).filter (·.tenant = tenant)

/-- `read_upload`. -/
def readUpload (env : UploadEnv δ ρ) (db : UploadDb δ ρ) (tenant linkId uploadId : String) :
    Except String (Option UploadRecord) :=
  match (db.uploads.find? (linkId, uploadId)).filter
      (fun row => row.tenant = tenant ∧ db.link? tenant linkId ≠ none) with
  | none => pure none
  | some row => do
      let upload ← hydrateUpload env db.quota.files row
      pure (some upload)

/-! ### Writing -/

/-- `upload_header_json`. -/
def uploadHeaderJson (env : UploadEnv δ ρ) (upload : UploadRecord) : δ :=
  env.toJson { upload with files := [] }

/-- The header of an upload. -/
def headerRow (env : UploadEnv δ ρ) (tenant linkId : String) (upload : UploadRecord) :
    UploadRow δ where
  linkId := linkId
  tenant := tenant
  uploadId := upload.id
  document := uploadHeaderJson env upload
  fileCount := upload.files.length

/-- `write_upload`. -/
def writeUpload (env : UploadEnv δ ρ) (db : UploadDb δ ρ) (tenant linkId : String)
    (upload : UploadRecord) : UploadDb δ ρ :=
  match (db.uploads.find? (linkId, upload.id)).filter (·.tenant = tenant) with
  | none => db
  | some _ => { db with uploads := db.uploads.upsert (headerRow env tenant linkId upload) }

/-- A row of `insert_upload_files`. -/
def insertUploadFile (quota : QuotaDb) (row : FileRow) : Except String QuotaDb :=
  match quota.insertFile row with
  | none => throw "UNIQUE constraint failed: files.link_id, files.upload_id, files.file_index"
  | some quota => pure quota

/-- `insert_upload_files`. -/
def insertUploadFiles (quota : QuotaDb) (tenant linkId : String) (upload : UploadRecord) :
    Except String QuotaDb :=
  (fileRows tenant linkId upload.id upload.files).foldlM insertUploadFile quota

/-- A row of the upsert of `sync_upload_files`, which writes a row only when it changes. -/
def syncUploadFile (quota : QuotaDb) (row : FileRow) : Except String QuotaDb :=
  match quota.files.find? row.key with
  | none => insertUploadFile quota row
  | some old =>
      if old = row then pure quota
      else match quota.updateFile row.key row with
        | none => throw "tenant_quota_usage_update"
        | some quota => pure quota

/-- A row that `sync_upload_files` deletes. -/
def deleteUploadFile (quota : QuotaDb) (key : FileKey) : Except String QuotaDb :=
  match quota.deleteFile key with
  | none => throw "tenant_quota_usage_delete"
  | some quota => pure quota

/-- The keys of an upload's files from an index on. -/
def fileKeysFrom (files : Files) (linkId uploadId : String) (index : ℤ) : List FileKey :=
  (files.rows.filter (fun r => r.key.linkId = linkId ∧ r.key.uploadId = uploadId
    ∧ r.key.fileIndex ≥ index)).map FileRow.key

/-- `sync_upload_files`. -/
def syncUploadFiles (quota : QuotaDb) (tenant linkId : String) (upload : UploadRecord) :
    Except String QuotaDb := do
  let quota ← (fileRows tenant linkId upload.id upload.files).foldlM syncUploadFile quota
  (fileKeysFrom quota.files linkId upload.id upload.files.length).foldlM deleteUploadFile quota

/-! ### Committing -/

/-- A recovered file among those recorded before: the first of its stored name takes its
receipt, when the two have one identity. -/
def mergeFile (file : FileRecord) : List FileRecord → Except String (List FileRecord)
  | [] => pure [file]
  | existing :: files =>
      if existing.storedAs = file.storedAs then
        if existing.identity ≠ file.identity then throw "recovered file identity changed"
        else pure ({ existing with receipt := existing.receipt || file.receipt } :: files)
      else do
        let files ← mergeFile file files
        pure (existing :: files)

/-- The upload recorded before with the recovered files. -/
def mergeUpload (previous upload : UploadRecord) : Except String UploadRecord :=
  if ¬ previous.isPartial ∨ previous.packageRoot ≠ upload.packageRoot then
    throw "recovery upload identity changed"
  else do
    let files ← upload.files.foldlM (fun files file => mergeFile file files) previous.files
    pure { previous with files, totalBytes := totalOf files, completedAt := upload.completedAt }

/-- What has been committed for a session: its upload, or none yet. -/
def committedUpload (db : UploadDb δ ρ) (tenant linkId : String) :
    Option String → Except String (Option String)
  | none => pure none
  | some session =>
      match (db.sessions.find? session).filter (fun s => s.tenant = tenant ∧ s.linkId = linkId) with
      | none => throw "upload admission is missing at completion"
      | some row => pure row.committedUploadId

/-- The session has committed the upload. -/
def commitSession (db : UploadDb δ ρ) (session : String) (uploadId : String) :
    Except String (UploadDb δ ρ) :=
  match (db.sessions.find? session).filter (·.committedUploadId = none) with
  | none => throw "upload admission changed at completion"
  | some row =>
      pure { db with sessions := db.sessions.upsert { row with committedUploadId := some uploadId } }

/-- What a fresh upload does to the route of its session. -/
def completeSessionRoute (env : UploadEnv δ ρ) (db : UploadDb δ ρ) (tenant linkId : String)
    (upload : UploadRecord) : Option String → Except String ρ
  | none => pure db.rest
  | some session => env.completeRoute db tenant linkId session upload

/-- What a fresh upload does to its session. -/
def commitFresh (db : UploadDb δ ρ) (upload : UploadRecord) :
    Option String → Except String (UploadDb δ ρ)
  | none => pure db
  | some session => if upload.isPartial then pure db else commitSession db session upload.id

/-- The part of `append_upload_inner` for an upload that is not recorded. -/
def appendFresh (env : UploadEnv δ ρ) (db : UploadDb δ ρ) (tenant linkId : String)
    (upload : UploadRecord) (session : Option String) : Except String (UploadDb δ ρ) :=
  match db.uploads.insert? (headerRow env tenant linkId upload) with
  | none => throw "UNIQUE constraint failed: link_uploads.link_id, link_uploads.upload_id"
  | some uploads => do
      let rest ← completeSessionRoute env { db with uploads } tenant linkId upload session
      let quota ← insertUploadFiles db.quota tenant linkId upload
      let rest ← env.queueReceived { db with uploads, rest, quota } tenant linkId upload
      commitFresh { db with uploads, rest, quota } upload session

/-- The part of `append_upload_inner` for a partial upload that is recorded. -/
def appendRecovered (env : UploadEnv δ ρ) (db : UploadDb δ ρ) (tenant linkId : String)
    (previous upload : UploadRecord) : Except String (UploadDb δ ρ) := do
  let merged ← mergeUpload previous upload
  let db := writeUpload env db tenant linkId merged
  let quota ← syncUploadFiles db.quota tenant linkId merged
  pure { db with quota }

/-- The part of `append_upload_inner` for an upload without a session that is recorded. -/
def appendAgain (env : UploadEnv δ ρ) (db : UploadDb δ ρ) (tenant linkId : String)
    (previous upload : UploadRecord) : Except String (UploadDb δ ρ) :=
  if previous ≠ upload then throw "upload identity changed"
  else do
    let rest ← env.queueReceived db tenant linkId upload
    pure { db with rest }

/-- The part of `append_upload_inner` that writes. -/
def appendToLink (env : UploadEnv δ ρ) (db : UploadDb δ ρ) (tenant linkId : String)
    (upload : UploadRecord) (session : Option String) : Except String (UploadDb δ ρ) :=
  if upload.isPartial ∨ session = none then do
    let previous ← readUpload env db tenant linkId upload.id
    match previous with
    | none => appendFresh env db tenant linkId upload session
    | some previous =>
        if upload.isPartial then appendRecovered env db tenant linkId previous upload
        else appendAgain env db tenant linkId previous upload
  else appendFresh env db tenant linkId upload session

/-- `append_upload_inner`: the id of the upload and the tables the transaction commits, or
its error. -/
def appendUpload (env : UploadEnv δ ρ) (db : UploadDb δ ρ) (tenant linkId : String)
    (upload : UploadRecord) (session : Option String) :
    Except String (Option String × UploadDb δ ρ) := do
  let committed ← committedUpload db tenant linkId session
  match committed with
  | some uploadId => pure (some uploadId, db)
  | none =>
      match db.link? tenant linkId with
      | none => pure (none, db)
      | some link => do
          env.parseEvents link.eventsJson
          let db ← appendToLink env db tenant linkId upload session
          pure (some upload.id, db)

/-! ### Sessions -/

/-- A session as `insert_upload_session` takes it, with its files. -/
structure PersistedUploadSession where
  row : UploadSessionRow
  files : List UploadSessionFileRow
  /-- The files are the session's. -/
  files_session : ∀ file ∈ files, file.sessionId = row.id

/-- The two sessions have the same push key. -/
def UploadSessionRow.SamePushKey (s r : UploadSessionRow) : Prop :=
  ∃ key ∈ s.pushKey, r.pushKey = some key

instance (s r : UploadSessionRow) : Decidable (s.SamePushKey r) :=
  inferInstanceAs (Decidable (∃ key ∈ s.pushKey, r.pushKey = some key))

/-- A row of the files of `insert_upload_session`. -/
def insertSessionFile (files : Table UploadSessionFileRow.key) (file : UploadSessionFileRow) :
    Except String (Table UploadSessionFileRow.key) :=
  match files.insert? file with
  | none => throw "UNIQUE constraint failed: upload_session_files.session_id, entry"
  | some files => pure files

/-- `insert_upload_session`. -/
def insertUploadSession (db : UploadDb δ ρ) (session : PersistedUploadSession) :
    Except String (UploadDb δ ρ) :=
  if (∃ r ∈ db.sessions.rows, (r.id = session.row.id ∨ session.row.SamePushKey r)
      ∧ r.committedUploadId ≠ none) ∨ session.row.committedUploadId ≠ none then
    throw "completed upload is awaiting publication cleanup"
  else do
    let kept := db.sessionFiles.filter (fun file => ¬ (file.sessionId = session.row.id
      ∨ ∃ r ∈ db.sessions.rows, r.id = file.sessionId ∧ session.row.SamePushKey r))
    let sessions := (db.sessions.filter (fun r => ¬ session.row.SamePushKey r)).upsert session.row
    let sessionFiles ← session.files.foldlM insertSessionFile kept
    pure { db with sessions, sessionFiles }

/-! ### Runs -/

/-- A call of one of the two operations. -/
inductive UploadOp where
  | append (tenant linkId : String) (upload : UploadRecord) (session : Option String)
  | insertSession (session : PersistedUploadSession)

/-- The tables after a call.  A transaction that fails is rolled back. -/
def UploadDb.apply (env : UploadEnv δ ρ) (db : UploadDb δ ρ) : UploadOp → UploadDb δ ρ
  | .append tenant linkId upload session =>
      match appendUpload env db tenant linkId upload session with
      | .error _ => db
      | .ok (_, db) => db
  | .insertSession session =>
      match insertUploadSession db session with
      | .error _ => db
      | .ok db => db

end Votport
