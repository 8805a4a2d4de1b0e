import Mathlib
import Votport.Foundation.Words
import Votport.Store.Files

/-!
# Outbound grants and their downloads

A grant lets a recipient download files, each at most `max_downloads` times.
`record_download` counts one download of the files at the given indexes, in one
transaction with the fetch ticket that paid for it.  A call that names the files in order
is done by one set-wise update, any other file by file; the two do the same.
-/

namespace Votport

/-- `i64::try_from(n).unwrap_or(i64::MAX)`. -/
def clampI64 (n : ℕ) : ℕ := min n i64Max

/-- `OUTBOUND_DOWNLOAD_LIMIT_REACHED`. -/
def outboundDownloadLimitReached : String := "outbound download limit reached"

/-! ### Tables -/

/-- A row of `outbound_grants`.  Of a grant that is not normalized, `filesJson` tells how
many files its document lists, or why it does not parse. -/
structure GrantRow where
  id : String
  tokenHash : String
  expiresAt : ℕ
  revokedAt : Option ℕ
  downloads : ℕ
  maxDownloads : Option ℕ
  firstDownloadAt : Option ℕ
  lastDownloadAt : Option ℕ
  filesJson : Except String ℕ
  fileCount : ℕ

/-- A row of `outbound_grant_files`. -/
structure GrantFileRow where
  grantId : String
  fileIndex : ℕ
  downloads : ℕ
  firstDownloadAt : Option ℕ
  lastDownloadAt : Option ℕ
deriving DecidableEq

/-- The primary key of `outbound_grant_files`. -/
def GrantFileRow.key (f : GrantFileRow) : String × ℕ := (f.grantId, f.fileIndex)

/-- A row of `outbound_fetch_tickets`. -/
structure FetchTicketRow where
  tokenId : String
  grantId : String
  manifestRoot : String
  expiresAt : ℕ
  deliveredAt : Option ℕ
  holder : String
  grantTokenHash : String
  policyRevision : ℕ
  admittedAt : Option ℕ
deriving DecidableEq

/-- The tables a download is recorded in. -/
structure Outbound where
  grants : Table GrantRow.id
  files : Table GrantFileRow.key
  tickets : Table FetchTicketRow.tokenId

/-- The files of a grant. -/
def grantFiles (files : Table GrantFileRow.key) (id : String) : List GrantFileRow :=
  files.rows.filter (·.grantId = id)

/-! ### Recording a download -/

/-- `?max IS NULL OR downloads < ?max`. -/
def belowLimit (max : Option ℕ) (downloads : ℕ) : Prop := ∀ m ∈ max, downloads < m

instance (max : Option ℕ) (downloads : ℕ) : Decidable (belowLimit max downloads) :=
  inferInstanceAs (Decidable (∀ m ∈ max, downloads < m))

/-- A file with one more download, at `at'`. -/
def GrantFileRow.record (f : GrantFileRow) (at' : ℕ) : GrantFileRow :=
  { f with
    downloads := if f.downloads = i64Max then f.downloads else f.downloads + 1
    firstDownloadAt := some (f.firstDownloadAt.getD at')
    lastDownloadAt := some at' }

/-- The files with a download recorded on those that satisfy `p`. -/
def updateFiles
    (files : Table GrantFileRow.key) (p : GrantFileRow → Prop) [DecidablePred p] (at' : ℕ) :
    Table GrantFileRow.key :=
  files.map (fun f => if p f then f.record at' else f) (by intro f; split_ifs <;> rfl)

/-- The set-wise update of all files of a grant, refused unless it changes as many rows
as the grant has files. -/
def recordFullRange
    (files : Table GrantFileRow.key) (id : String) (fileCount : ℕ) (max : Option ℕ) (at' : ℕ) :
    Except String (Table GrantFileRow.key) :=
  let changed := files.rows.countP (fun f => f.grantId = id ∧ belowLimit max f.downloads)
  if changed ≠ fileCount then
    let childCount := files.rows.countP (fun f => f.grantId = id)
    let inRangeCount := files.rows.countP (fun f => f.grantId = id ∧ f.fileIndex < fileCount)
    let exhausted := ∃ f ∈ files.rows, f.grantId = id ∧ ¬ belowLimit max f.downloads
    if childCount = fileCount ∧ inRangeCount = fileCount ∧ exhausted then
      throw outboundDownloadLimitReached
    else throw "outbound file index out of range"
  else pure (updateFiles files (fun f => f.grantId = id ∧ belowLimit max f.downloads) at')

/-- The update of one file of a grant. -/
def recordIndex
    (id : String) (max : Option ℕ) (at' : ℕ) (files : Table GrantFileRow.key) (index : ℕ) :
    Except String (Table GrantFileRow.key) :=
  let index := clampI64 index
  let changed := files.rows.countP
    (fun f => f.grantId = id ∧ f.fileIndex = index ∧ belowLimit max f.downloads)
  if changed = 0 then
    if ∃ f ∈ files.rows, f.grantId = id ∧ f.fileIndex = index then
      throw outboundDownloadLimitReached
    else throw "outbound file index out of range"
  else pure (updateFiles files
    (fun f => f.grantId = id ∧ f.fileIndex = index ∧ belowLimit max f.downloads) at')

/-- The update of the files at the indexes, one after the other. -/
def recordIndexes
    (files : Table GrantFileRow.key) (id : String) (indexes : List ℕ) (max : Option ℕ) (at' : ℕ) :
    Except String (Table GrantFileRow.key) :=
  indexes.foldlM (recordIndex id max at') files

/-- The indexes sorted, each once. -/
def uniqueIndexes (indexes : List ℕ) : List ℕ := indexes.dedup.insertionSort (· ≤ ·)

/-- What a recorded download is reported as. -/
structure OutboundDownloadResult where
  firstDownload : Bool
  completedDelivery : Bool
  eventAt : ℕ
deriving DecidableEq

/-- The files of a normalized grant after a download, by one update when the call names
all of them in order. -/
def recordFiles
    (db : Outbound) (grant : GrantRow) (indexes : List ℕ) (at' : ℕ) :
    Except String (Table GrantFileRow.key) :=
  if grant.fileCount > 0 ∧ indexes = List.range grant.fileCount then
    recordFullRange db.files grant.id grant.fileCount grant.maxDownloads (clampI64 at')
  else recordIndexes db.files grant.id (uniqueIndexes indexes) grant.maxDownloads (clampI64 at')

/-- The count of a grant after a download of its files. -/
def countDownloads
    (files : Table GrantFileRow.key) (grant : GrantRow) (indexes : List ℕ) : Except String ℕ :=
  if uniqueIndexes indexes = [] then pure grant.downloads
  else match ((grantFiles files grant.id).map GrantFileRow.downloads).min? with
    | none => throw "Query returned no rows"
    | some downloads => pure downloads

/-- The row of a grant after a download that leaves it at the given count. -/
def GrantRow.record (grant : GrantRow) (downloads at' : ℕ) : GrantRow :=
  { grant with
    downloads := clampI64 downloads
    firstDownloadAt := some (grant.firstDownloadAt.getD (clampI64 at'))
    lastDownloadAt := some (clampI64 at') }

/-- The part of `record_download` for a grant whose files have rows. -/
def recordNormalized
    (db : Outbound) (grant : GrantRow) (indexes : List ℕ) (at' : ℕ) :
    Except String (OutboundDownloadResult × Outbound) := do
  let files ← recordFiles db grant indexes at'
  let downloads ← countDownloads files grant indexes
  pure ({
      firstDownload := grant.firstDownloadAt.isNone
      completedDelivery := ¬ grant.downloads > 0 ∧ downloads > 0
      eventAt := at' },
    { db with files, grants := db.grants.upsert (grant.record downloads at') })

/-- The part of `record_download` for a grant of one file without a row. -/
def recordUnnormalized
    (db : Outbound) (grant : GrantRow) (indexes : List ℕ) (at' : ℕ) :
    Except String (OutboundDownloadResult × Outbound) := do
  let files ← grant.filesJson.mapError ("parse outbound grant files: " ++ ·)
  if files ≠ 0 then throw "outbound grant files are not normalized"
  if ∃ index ∈ uniqueIndexes indexes, index ≠ 0 then throw "outbound file index out of range"
  pure ({
      firstDownload := grant.firstDownloadAt.isNone
      completedDelivery := grant.firstDownloadAt.isNone
      eventAt := at' },
    { db with
      grants := db.grants.upsert (grant.record (min (grant.downloads + 1) u64Max) at') })

/-- The part of `record_download` that counts the download. -/
def recordGrantDownload
    (db : Outbound) (id : String) (indexes : List ℕ) (at' : ℕ) :
    Except String (OutboundDownloadResult × Outbound) :=
  match db.grants.find? id with
  | none => throw "outbound grant not found"
  | some grant =>
      if ¬ belowLimit grant.maxDownloads grant.downloads then throw outboundDownloadLimitReached
      else if grantFiles db.files id ≠ [] then recordNormalized db grant indexes at'
      else recordUnnormalized db grant indexes at'

/-- The part of `record_download` that closes the ticket's reservation. -/
def deliverTicket (db : Outbound) (id : String) (at' : ℕ) (ticket : String) :
    Except String Outbound :=
  match db.tickets.find? ticket with
  | none => throw "fetch completion ticket does not match its grant"
  | some row =>
      if row.grantId = id then
        pure { db with
          tickets := db.tickets.upsert
            { row with deliveredAt := some (row.deliveredAt.getD (clampI64 at')) } }
      else throw "fetch completion ticket does not match its grant"

/-- `record_download`: the tables its transaction commits, or its error. -/
def recordDownload
    (db : Outbound) (id : String) (indexes : List ℕ) (at' : ℕ) (ticket : Option String) :
    Except String (OutboundDownloadResult × Outbound) := do
  let (result, db) ← recordGrantDownload db id indexes at'
  match ticket with
  | none => pure (result, db)
  | some ticket => do
      let db ← deliverTicket db id at' ticket
      pure (result, db)

end Votport
