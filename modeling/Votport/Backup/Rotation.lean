import Mathlib.Data.Char
import Mathlib.Data.List.Lex
import Mathlib.Data.Prod.Lex
import Mathlib.Logic.Function.Basic
import Votport.Foundation.Fields
import Votport.Foundation.Newest
import Votport.Foundation.Runs
import Votport.Retention.Clock

/-!
# Backups and their rotation

A run of a backup builds an archive in a folder, uploads it when a store is configured, and removes
older archives by their number and age.  When the upload to a store beside the folder fails, only
archives that were taken after the last complete run are removed.  What can go wrong in a run is
given with it, each failure as its text.
-/

namespace Votport.Backup

attribute [local instance] Fields.lawful_texts

open Newest

/-! ### What there is -/

/-- A file in a folder of backups; its time is in nanoseconds. -/
structure FileEntry where
  name : List Char
  created : ℕ
  regular : Bool
deriving DecidableEq, Repr

/-- An object in a store; its time is in nanoseconds. -/
structure StoredObject where
  location : List Char
  lastModified : ℕ
deriving DecidableEq, Repr

/-- `BackupStatus`. -/
structure BackupStatus where
  lastAttemptAt : Option ℕ
  lastSuccessAt : Option ℕ
  lastError : Option (List Char)
deriving DecidableEq, Repr

/-- The folders of archives and the stores by their names, the status file, and the time that was
last read. -/
structure BackupState where
  files : String → List FileEntry
  objects : String → List StoredObject
  status : BackupStatus
  now : ℕ

/-- `Destination`. -/
inductive Destination
  | folder
  | s3
  | both
deriving DecidableEq, Repr

/-- `BackupConfig`, with the folder and the bucket that it leads to. -/
structure BackupConfig where
  destination : Destination
  retentionDays : ℕ
  retentionCount : ℕ
  root : String
  bucket : String
  s3Prefix : Option (List Char)
deriving DecidableEq, Repr

/-- A run: its configuration, its archive and its times, and what goes wrong in it. -/
structure BackupRun where
  config : BackupConfig
  retention : Except (List Char) RetentionObservation
  startedAt : ℕ
  id : List Char
  created : ℕ
  lastModified : ℕ
  finishedAt : ℕ
  /-- The status file cannot be read when the run starts. -/
  statusUnread : Bool
  /-- The status file cannot be written when the run starts. -/
  statusUnwritten : Option (List Char)
  /-- No archive is put in place. -/
  prepare : Option (List Char)
  /-- The archive is in place, and a stage file or the folder is not as it should be. -/
  sync : Option (List Char)
  /-- The archive of a failed run is not removed. -/
  stays : Bool
  upload : Option (List Char)
  /-- An upload that failed left its object all the same. -/
  arrived : Bool
  /-- The status file cannot be read after the upload failed. -/
  successUnread : Bool
  listing : Option (List Char)
  removal : List Char → Option (List Char)
  bucketListing : Option (List Char)
  deletion : List Char → Option (List Char)
  /-- The status file cannot be written when the run ends. -/
  unrecorded : Option (List Char)

/-- `RunFailure`. -/
structure RunFailure where
  message : List Char
  copiesComplete : Bool
deriving DecidableEq, Repr

/-! ### Names -/

/-- The bytes of the name are letters and digits of ASCII, hyphens and dots. -/
def isNameChar (c : Char) : Bool := c.isAlphanum || decide (c = '-' ∨ c = '.')

/-- `owned_name`. -/
def ownedName (name : List Char) : Bool :=
  decide ("votport-backup-v2-".toList <+: name)
    && decide (".tar".toList <:+ name ∨ ".tar.age".toList <:+ name) && name.all isNameChar

/-- An archive, among the files of a folder. -/
def FileEntry.owned (file : FileEntry) : Bool := ownedName file.name && file.regular

/-- `s3_root`. -/
def BackupConfig.s3Root (config : BackupConfig) : List Char :=
  (config.s3Prefix.map fun start => start ++ ['/']).getD []

/-- `s3_path`. -/
def BackupConfig.s3Path (config : BackupConfig) (id : List Char) : List Char := config.s3Root ++ id

/-- `owned_s3_id`. -/
def BackupConfig.ownedS3Id (config : BackupConfig) (location : List Char) : Option (List Char) :=
  if config.s3Root <+: location then
    let id := location.drop config.s3Root.length
    if '/' ∉ id ∧ ownedName id = true then some id else none
  else none

/-! ### Pruning -/

/-- The age in days. -/
def BackupRun.retentionDays (run : BackupRun) (retention : RetentionObservation) : ℕ :=
  if retention.allowAge = true then run.config.retentionDays else 0

/-- The key of the order in which archives are kept: the archive of the run, then by time and by
name. -/
def archiveKey (id : List Char) (name : List Char) (time : ℕ) : ℕ ×ₗ ℕ ×ₗ List Char :=
  toLex (if name = id then 1 else 0, toLex (time, name))

/-- An archive that was made before the cutoff. -/
def agedFile (days effectiveAt : ℕ) (file : FileEntry) : Bool :=
  decide (0 < days ∧ file.created < (effectiveAt - days * 86400) * nanosPerSec)

/-- The archives that `prune_local_root_protected_at` removes, in order. -/
def localDoomed (id : List Char) (days count effectiveAt : ℕ) (files : List FileEntry) :
    List FileEntry :=
  dropped (fun file => archiveKey id file.name file.created) (fun file => decide (file.name = id))
    (agedFile days effectiveAt) count (files.filter FileEntry.owned)

/-- The archives that `prune_outage_copies` removes, in order. -/
def outageDoomed (keep : List Char) (lastSuccess : ℕ) (files : List FileEntry) : List FileEntry :=
  (files.filter FileEntry.owned).filter fun file =>
    decide (file.name ≠ keep ∧ lastSuccess < asSecs file.created)

/-- The files of a folder after the removal of some, up to one that is not removed, and what went
wrong. -/
def removeFiles (removal : List Char → Option (List Char)) (doomed files : List FileEntry) :
    List FileEntry × Option (List Char) :=
  let removed := doomed.takeWhile fun file => (removal file.name).isNone
  (files.filter fun file => decide (file.name ∉ removed.map FileEntry.name),
    doomed.findSome? fun file => removal file.name)

/-- `prune_local_root_protected_at`. -/
def BackupRun.pruneLocal (run : BackupRun) (retention : RetentionObservation)
    (files : List FileEntry) : List FileEntry × Option (List Char) :=
  match run.listing with
  | some error => (files, some error)
  | none =>
      removeFiles run.removal
        (localDoomed run.id (run.retentionDays retention) run.config.retentionCount
          retention.effectiveAt files) files

/-- `prune_outage_copies`. -/
def BackupRun.pruneOutageCopies (run : BackupRun) (lastSuccess : ℕ) (files : List FileEntry) :
    List FileEntry :=
  match run.listing with
  | some _ => files
  | none => (removeFiles run.removal (outageDoomed run.id lastSuccess files) files).1

/-- An object that was made before the cutoff, in seconds. -/
def agedObject (days effectiveAt : ℕ) (object : StoredObject) : Bool :=
  decide (0 < days ∧ asSecs object.lastModified < effectiveAt - days * 86400)

/-- The objects that `prune_s3_store` deletes, in order. -/
def BackupRun.s3Doomed (run : BackupRun) (retention : RetentionObservation)
    (objects : List StoredObject) : List StoredObject :=
  let spared (object : StoredObject) : Bool :=
    decide (run.config.ownedS3Id object.location = some run.id)
  dropped (fun object => (toLex (if spared object = true then 1 else 0,
      toLex (object.lastModified, object.location)) : ℕ ×ₗ ℕ ×ₗ List Char))
    spared (agedObject (run.retentionDays retention) retention.effectiveAt)
    run.config.retentionCount
    (objects.filter fun object => (run.config.ownedS3Id object.location).isSome)

/-- `prune_s3_store`. -/
def BackupRun.pruneS3Store (run : BackupRun) (retention : RetentionObservation)
    (objects : List StoredObject) : List StoredObject × Option (List Char) :=
  match run.bucketListing with
  | some error => (objects, some error)
  | none =>
      let doomed := run.s3Doomed retention objects
      let deleted := doomed.takeWhile fun object => (run.deletion object.location).isNone
      (objects.filter fun object => decide (object.location ∉ deleted.map StoredObject.location),
        doomed.findSome? fun object => run.deletion object.location)

/-! ### A run -/

/-- The archive of the run. -/
def BackupRun.archive (run : BackupRun) : FileEntry := ⟨run.id, run.created, true⟩

/-- The object of the run. -/
def BackupRun.object (run : BackupRun) : StoredObject :=
  ⟨run.config.s3Path run.id, run.lastModified⟩

/-- The files without the archive of a run that failed, unless it stays. -/
def BackupRun.cleanup (run : BackupRun) (files : List FileEntry) : List FileEntry :=
  if run.stays = true then files else files.filter fun file => decide (file.name ≠ run.id)

/-- The files after the upload beside a folder has failed. -/
def BackupRun.afterOutage (run : BackupRun) (retention : RetentionObservation)
    (lastSuccess : Option ℕ) (files : List FileEntry) : List FileEntry :=
  match if run.successUnread = true then none else lastSuccess with
  | some lastSuccess => run.pruneOutageCopies lastSuccess files
  | none => (run.pruneLocal retention files).1

/-- The folder and the bucket of a run. -/
structure Copies where
  files : List FileEntry
  objects : List StoredObject
deriving DecidableEq, Repr

/-- `run_inner`, of a run whose archive is in place. -/
def BackupRun.finish (run : BackupRun) (retention : RetentionObservation) (lastSuccess : Option ℕ)
    (copies : Copies) : Copies × Except RunFailure (List Char) :=
  match run.config.destination with
  | .folder =>
      let (files, failure) := run.pruneLocal retention copies.files
      match failure with
      | some error => ({ copies with files }, .error ⟨error, true⟩)
      | none => ({ copies with files }, .ok run.id)
  | .both =>
      match run.upload with
      | some error =>
          (⟨run.afterOutage retention lastSuccess copies.files,
              if run.arrived = true then copies.objects ++ [run.object] else copies.objects⟩,
            .error ⟨error, false⟩)
      | none =>
          let objects := copies.objects ++ [run.object]
          let (files, failure) := run.pruneLocal retention copies.files
          match failure with
          | some error => (⟨files, objects⟩, .error ⟨error, true⟩)
          | none =>
              let (objects, failure) := run.pruneS3Store retention objects
              match failure with
              | some error => (⟨files, objects⟩, .error ⟨error, true⟩)
              | none => (⟨files, objects⟩, .ok run.id)
  | .s3 =>
      match run.upload with
      | some error =>
          (⟨run.cleanup copies.files,
              if run.arrived = true then copies.objects ++ [run.object] else copies.objects⟩,
            .error ⟨error, false⟩)
      | none =>
          let objects := copies.objects ++ [run.object]
          match run.removal run.id with
          | some error => (⟨run.cleanup copies.files, objects⟩, .error ⟨error, true⟩)
          | none =>
              let files := copies.files.filter fun file => decide (file.name ≠ run.id)
              let (objects, failure) := run.pruneS3Store retention objects
              match failure with
              | some error => (⟨files, objects⟩, .error ⟨error, true⟩)
              | none => (⟨files, objects⟩, .ok run.id)

/-- `run_inner`. -/
def BackupRun.inner (run : BackupRun) (retention : RetentionObservation) (lastSuccess : Option ℕ)
    (copies : Copies) : Copies × Except RunFailure (List Char) :=
  match run.prepare with
  | some error => (copies, .error ⟨error, false⟩)
  | none =>
      let files := copies.files ++ [run.archive]
      match run.sync with
      | some error => ({ copies with files := run.cleanup files }, .error ⟨error, false⟩)
      | none => run.finish retention lastSuccess { copies with files }

/-- The folder and the bucket of a run. -/
def BackupState.copies (s : BackupState) (config : BackupConfig) : Copies :=
  ⟨s.files config.root, s.objects config.bucket⟩

/-- The folder and the bucket of a run are changed. -/
def BackupState.setCopies (s : BackupState) (config : BackupConfig) (copies : Copies) :
    BackupState :=
  { s with
    files := Function.update s.files config.root copies.files
    objects := Function.update s.objects config.bucket copies.objects }

/-- The status at the end of a run. -/
def BackupRun.finalStatus (run : BackupRun) (status : BackupStatus) :
    Except RunFailure (List Char) → BackupStatus
  | .ok _ => { status with lastSuccessAt := some (asSecs run.finishedAt), lastError := none }
  | .error failure =>
      { status with
        lastSuccessAt :=
          if failure.copiesComplete = true then some (asSecs run.finishedAt)
          else status.lastSuccessAt
        lastError := some (failure.message.take 512) }

/-- `run_operation`, where no restore is pending: the state afterwards and the answer. -/
def BackupRun.operation (run : BackupRun) (s : BackupState) :
    BackupState × Except (List Char) (List Char) :=
  match run.retention with
  | .error error => (s, .error error)
  | .ok retention =>
      let status := if run.statusUnread = true then ⟨none, none, none⟩ else s.status
      let status : BackupStatus :=
        { status with lastAttemptAt := some (asSecs run.startedAt), lastError := none }
      match run.statusUnwritten with
      | some error => (s, .error error)
      | none =>
          let (copies, result) := run.inner retention status.lastSuccessAt (s.copies run.config)
          let s := { s with status }.setCopies run.config copies
          match run.unrecorded with
          | some error => (s, .error error)
          | none =>
              ({ s with status := run.finalStatus status result },
                result.mapError RunFailure.message)

/-- A run takes place: time does not run backwards, and the name of its archive is a new one. -/
def BackupState.step (s : BackupState) (run : BackupRun) : Option BackupState :=
  if s.now ≤ run.startedAt ∧ run.startedAt ≤ run.created ∧ run.created ≤ run.finishedAt
      ∧ (∀ file ∈ s.files run.config.root, file.name ≠ run.id)
      ∧ (∀ object ∈ s.objects run.config.bucket, object.location ≠ run.config.s3Path run.id)
      ∧ ownedName run.id = true then
    some { (run.operation s).1 with now := run.finishedAt }
  else none

end Votport.Backup
