import Mathlib.Data.List.Dedup
import Votport.Foundation.Fields
import Votport.Foundation.Listings
import Votport.Protocol.Paths

/-!
# The survey after a restore

The receive tree is walked from its root, and the records of files that the walk has not come to
are made tombstones.  Staging folders, receipts and names that are no text are passed over, a
folder that may not be listed is noted, and any other failure ends the walk.
-/

namespace Votport.Backup

attribute [local instance] Fields.lawful_texts

open Listings

/-! ### The walk -/

/-- `SURVEY_ENTRY_LIMIT`. -/
def surveyEntryLimit : ℕ := 100000

/-- `SURVEY_DEPTH_LIMIT`. -/
def surveyDepthLimit : ℕ := 128

/-- The name of a file or a folder. -/
abbrev FileName := {name : List Char // IsName '/' name}

/-- A path, relative to the root. -/
def pathText (path : List FileName) : List Char := join '/' (path.map Subtype.val)

/-- The walk does not go into the folder. -/
def skipsFolder (name : FileName) : Bool :=
  decide (name.1 = ".vot-stage".toList) || isPushStagingName name.1

/-- The walk does not name the file. -/
def skipsFile (env : PathEnv) (name : FileName) : Bool := isReceiptName env name.1

/-- What the walk has come to, the folders it was refused, and the entries it may still look at. -/
structure Walk where
  onDisk : List (List Char)
  unreadable : List (List Char)
  remaining : ℕ
deriving DecidableEq, Repr

/-- One entry more. -/
def Walk.spend (walk : Walk) : Option Walk :=
  if walk.remaining = 0 then none else some { walk with remaining := walk.remaining - 1 }

/-- `relative`. -/
def relativePath (above name : List Char) : List Char :=
  if above = [] then name else above ++ '/' :: name

/-- A regular file. -/
def Walk.found (walk : Walk) (env : PathEnv) (above : List Char) (name : Option FileName) : Walk :=
  match name.filter fun name => !skipsFile env name with
  | none => walk
  | some name => { walk with onDisk := walk.onDisk ++ [relativePath above name.1] }

/-- A folder that may not be listed. -/
def Walk.refused (walk : Walk) (relative : List Char) : Walk :=
  { walk with unreadable := walk.unreadable ++ [relative] }

/-- The entries of a folder at some depth, in `collect_payload_files`. -/
def collectEntries (env : PathEnv) : ℕ → List Char → Listing FileName → Walk → Option Walk
  | _, _, .done, walk => some walk
  | _, _, .broken _, _ => none
  | depth, above, .file name rest, walk => do
      let walk ← walk.spend
      collectEntries env depth above rest (walk.found env above name)
  | depth, above, .other _ rest, walk => do
      let walk ← walk.spend
      collectEntries env depth above rest walk
  | _, _, .unknown _ _, _ => none
  | depth, above, .folder name access contents rest, walk => do
      let walk ← walk.spend
      Option.bind
        (match name.filter fun name => !skipsFolder name with
          | none => some walk
          | some name =>
              match access with
              | .failed => none
              | .closed => some (walk.refused (relativePath above name.1))
              | .denied =>
                  if surveyDepthLimit < depth + 1 then none
                  else some (walk.refused (relativePath above name.1))
              | .granted =>
                  if surveyDepthLimit < depth + 1 then none
                  else collectEntries env (depth + 1) (relativePath above name.1) contents walk)
        fun walk => collectEntries env depth above rest walk

/-- `collect_payload_files`, from the root. -/
def collectPayloadFiles (env : PathEnv) (root : Access × Listing FileName) : Option Walk :=
  if root.1 = .granted then collectEntries env 0 [] root.2 ⟨[], [], surveyEntryLimit⟩ else none

/-! ### The records -/

/-- A row of `files`. -/
structure FileRow where
  tenant : List Char
  storedAs : List Char
  path : String
  deleted : Bool
deriving DecidableEq, Repr

/-- The receive tree: whether there is one, the root that is held, the one that can be opened, and
what the checks of the root say before and after the walk. -/
structure Volume where
  present : Bool
  held : Option (Access × Listing FileName)
  opened : Option (Access × Listing FileName)
  currentBefore : Bool
  saved : Bool
  currentAfter : Bool

/-- What goes wrong in the store: the records are not read, or only some updates are made. -/
structure SurveyFaults where
  read : Bool
  written : Option ℕ

/-- The detail of a `restore_payload_mismatch`. -/
inductive SurveyAudit
  | recordLimit
  | mismatch (missing unreferenced tombstoned : ℕ) (trusted complete : Bool)
      (unreadable : List (List Char))
deriving DecidableEq, Repr

/-- The record is surveyed. -/
def FileRow.live (row : FileRow) : Bool := !row.deleted && decide (row.storedAs ≠ [])

/-- The path of a record's file, relative to the root. -/
def FileRow.stored (row : FileRow) : List Char :=
  join '/' (storedComponents row.tenant row.storedAs)

/-- `UPDATE files SET deleted=1, path=''`. -/
def FileRow.tombstone (row : FileRow) : FileRow := { row with path := "", deleted := true }

/-- The update of the rows of one tenant and name. -/
def tombstoneRows (rows : List FileRow) (key : FileRow) : List FileRow :=
  rows.map fun row =>
    if row.tenant = key.tenant ∧ row.storedAs = key.storedAs ∧ row.deleted = false then
      row.tombstone
    else row

/-- The records that are selected. -/
def surveyedRecords (rows : List FileRow) : List FileRow :=
  (rows.filter FileRow.live).take (surveyEntryLimit + 1)

/-- The root that is walked. -/
def Volume.root (volume : Volume) : Option (Access × Listing FileName) :=
  volume.held.or volume.opened

/-- `qualified`. -/
def Volume.qualified (volume : Volume) : Bool :=
  volume.held.isSome && volume.currentBefore && volume.saved

/-- The path lies below a folder that was refused. -/
def Walk.under (walk : Walk) (path : List Char) : Bool :=
  walk.unreadable.any fun above => decide (above ++ ['/'] <+: path)

/-- `missing`. -/
def missingPaths (walk : Walk) (records : List FileRow) : List (List Char) :=
  ((records.map FileRow.stored).dedup.filter fun path => decide (path ∉ walk.onDisk)).filter
    fun path => !walk.under path

/-- `trusted`. -/
def Volume.trusted (volume : Volume) (walked : Bool) (walk : Walk) (records : List FileRow) :
    Bool :=
  walked && volume.qualified && (volume.held.isSome && volume.currentAfter)
    && !(walk.onDisk.isEmpty && !records.isEmpty)

/-- `stale`. -/
def staleRecords (missing : List (List Char)) (records : List FileRow) : List FileRow :=
  records.filter fun row => decide (row.stored ∈ missing)

/-- The updates that are made. -/
def SurveyFaults.updates (faults : SurveyFaults) (stale : List FileRow) : List FileRow :=
  (faults.written.map fun n => stale.take n).getD stale

/-- The number of rows that the updates change. -/
def changedRows (rows after : List FileRow) : ℕ :=
  after.countP FileRow.deleted - rows.countP FileRow.deleted

/-- `survey_restored_payloads`: the rows afterwards, and the audit row.  What a walk that ended
early has come to is not known. -/
def surveyRestoredPayloads (env : PathEnv) (volume : Volume) (partly : Walk)
    (faults : SurveyFaults) (rows : List FileRow) : List FileRow × Option SurveyAudit :=
  if volume.present = false then (rows, none)
  else if faults.read = true then (rows, none)
  else
    let records := surveyedRecords rows
    if surveyEntryLimit < records.length then (rows, some .recordLimit)
    else
      let walk := volume.root.bind (collectPayloadFiles env)
      let walked := walk.isSome
      let walk := walk.getD partly
      let missing := missingPaths walk records
      let unreferenced := walk.onDisk.filter fun path =>
        decide (path ∉ records.map FileRow.stored)
      let trusted := volume.trusted walked walk records
      let after :=
        if trusted = true ∧ missing ≠ [] then
          (faults.updates (staleRecords missing records)).foldl tombstoneRows rows
        else rows
      if walked = true ∧ missing = [] ∧ unreferenced = [] then (after, none)
      else
        (after, some (.mismatch missing.length unreferenced.length
          (if faults.written = none then changedRows rows after else 0) trusted walked
          (walk.unreadable.take 8)))

end Votport.Backup
