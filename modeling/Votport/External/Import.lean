import Mathlib.Logic.Function.Basic
import Votport.Delivery.Work
import Votport.External.Bucket
import Votport.Foundation.Runs

/-!
# Importing from a bucket

An attempt of a job freezes the listing of a prefix, or takes the one that is frozen, reserves its
bytes, reads the objects one after the other, and publishes the names.  It may end after any step,
and the next attempt starts again from the files that are there.  Meanwhile the bucket and the
connection change.

Beside the state of the job the model keeps a history, which the code does not have: the connections
that were saved and the reservations that were made.
-/

namespace Votport.External

/-- `MAX_LIBRARY_PROJECT_FILES`. -/
def maxLibraryProjectFiles : ℕ := 1000000

/-- The longest file of names that is written. -/
def maxInventoryBytes : ℕ := 64 * 1024 * 1024

/-- `StorageKind`. -/
inductive StorageKind
  | s3
  | folder
  | votport
deriving DecidableEq, Repr

/-- A storage connection, with what tells where its objects are. -/
structure StorageConfig extends Storage where
  kind : StorageKind
  endpoint : String
  bucket : String
  region : String
  keyPrefix : List Char
deriving DecidableEq, Repr

/-- `SourceObject`. -/
structure SourceObject where
  name : FileName
  key : List Char
  size : ℕ
  etag : Option String
  version : Option String
deriving DecidableEq

/-- `SourceInventory`. -/
structure SourceInventory where
  storageId : String
  revision : ℕ
  objects : List SourceObject
deriving DecidableEq

/-- The lengths of the documents that are written. -/
structure ImportEnv extends BucketEnv where
  inventoryLength : SourceInventory → ℕ
  namesLength : List FileName → ℕ

/-- What an import reads of its job and of the settings. -/
structure ImportJob where
  id : String
  tenant : String
  source : List Char
  allowHidden : Bool

/-- The objects that can be read over a connection, at every moment. -/
abbrev World (env : ImportEnv) := ℕ → StorageConfig → List (StoredObject env.toBucketEnv)

/-! ### The listing -/

/-- `payload_path`, but for what it finds on the disk. -/
def payloadPath (env : ImportEnv) (job : ImportJob) (name : FileName) : Except String Unit := do
  Fallible.require (isId job.id = true ∧ validPath (String.ofList name) = true) "not found"
  ((name.splitOn '/').forM fun component =>
    admitComponent env.toPathEnv component job.allowHidden).mapError fun _ => "not found"
  (admitPortablePaths env.toManifestEnv [name]).mapError fun _ => "not found"

/-- `Storage::key`. -/
def StorageConfig.key (env : ImportEnv) (config : StorageConfig) (relative : List Char) :
    Except String (List Char) := do
  let key ← Fallible.present
    (env.parsePath (if config.keyPrefix = [] then relative
      else config.keyPrefix ++ '/' :: relative))
    "invalid S3 object key"
  Fallible.require (config.kind = .s3 → utf8Len key ≤ 1024)
    "S3 object key exceeds 1024 bytes including the storage prefix"
  return key

/-- The name of a listed object below a prefix. -/
def nameBelow (directory key : List Char) : Option FileName :=
  if directory <+: key then
    let name := key.drop directory.length
    if name ≠ [] ∧ name.getLast? ≠ some '/' then some name else none
  else none

/-- The objects of a listing below a directory, with their names. -/
def listedBelow {env : BucketEnv} (directory : List Char) (listing : List (ObjectMeta env)) :
    List (ObjectMeta env × FileName) :=
  let prefixString := directory.rdropWhile (· = '/') ++ ['/']
  listing.filterMap fun object =>
    (nameBelow prefixString object.location.1).map fun name => (object, name)

/-- What the inventory has of a listed object. -/
def SourceObject.ofListed {env : BucketEnv} (entry : ObjectMeta env × FileName) : SourceObject where
  name := entry.2
  key := entry.1.location.1
  size := entry.1.size
  etag := entry.1.eTag
  version := entry.1.version

/-- What is kept while an object of the listing is taken. -/
def takeObject (env : ImportEnv) (job : ImportJob) (maxUpload : ℕ)
    (taken : List SourceObject × ℕ) (entry : ObjectMeta env.toBucketEnv × FileName) :
    Except String (List SourceObject × ℕ) := do
  payloadPath env job entry.2
  Fallible.require (entry.1.eTag.isSome = true ∨ entry.1.version.isSome = true)
    "S3 source must provide an ETag or version for conditional reads"
  let total := taken.2 + entry.1.size
  Fallible.require (total < 2 ^ 64 ∧ total ≤ maxUpload) "S3 source exceeds delivery size limit"
  let objects := taken.1 ++ [SourceObject.ofListed entry]
  Fallible.require (objects.length ≤ maxLibraryProjectFiles) "S3 source has too many files"
  return (objects, total)

/-- The inventory of a listing. -/
def freezeListing (env : ImportEnv) (job : ImportJob) (config : StorageConfig) (maxUpload : ℕ)
    (listing : List (ObjectMeta env.toBucketEnv)) : Except String SourceInventory := do
  let directory ← config.key env job.source
  let listed := listedBelow directory listing
  Fallible.require (listed.length ≤ 2 * maxLibraryProjectFiles) "S3 source has too many files"
  let (objects, _) ← (skipDirectoryMarkers listed).foldlM (takeObject env job maxUpload) ([], 0)
  Fallible.require (objects ≠ []) "S3 prefix contains no files"
  let inventory : SourceInventory :=
    ⟨config.id, config.revision, objects.insertionSort fun a b => a.name ≤ b.name⟩
  Fallible.require (env.inventoryLength inventory ≤ maxInventoryBytes)
    "the saved list of source files is too large to read; submit a new delivery with fewer files"
  return inventory

/-! ### The attempts -/

/-- What an attempt knows from its beginning. -/
structure Attempt where
  number : ℕ
  maxUpload : ℕ
  config : StorageConfig
deriving DecidableEq

/-- How far an attempt has come. -/
inductive ImportPhase (env : ImportEnv)
  | idle
  | listing (attempt : Attempt) (began : ℕ)
  | listed (attempt : Attempt) (objects : List SourceObject)
  | fetching (attempt : Attempt) (total : ℕ) (names : List FileName) (rest : List SourceObject)
  | receiving (attempt : Attempt) (total : ℕ) (names : List FileName) (object : SourceObject)
      (stored : StoredObject env.toBucketEnv) (received : ℕ) (rest : List SourceObject)

/-- The job with its files, its connection and the tables, with the history. -/
structure ImportState (env : ImportEnv) where
  time : ℕ
  config : StorageConfig
  db : DeliveryDb
  sourceInventory : Option SourceInventory
  inventory : Option (List FileName)
  files : FileName → Option (List UInt8)
  phase : ImportPhase env
  /-- The connections that were saved. -/
  configs : List StorageConfig
  /-- The bytes that were reserved, with the limit of an upload then. -/
  reservations : List (ℕ × ℕ)

/-- A job that was not attempted. -/
def ImportState.start (env : ImportEnv) (config : StorageConfig) (db : DeliveryDb) :
    ImportState env where
  time := 0
  config := config
  db := db
  sourceInventory := none
  inventory := none
  files := fun _ => none
  phase := .idle
  configs := [config]
  reservations := []

/-- What happens. -/
inductive ImportEvent (env : ImportEnv)
  | save (config : StorageConfig)
  | elsewhere (db : DeliveryDb)
  | begin (number maxUpload : ℕ)
  | list (listing : List (ObjectMeta env.toBucketEnv)) (landed synced : Bool)
  | reserve (limit : UInt64)
  | fetch (stored : StoredObject env.toBucketEnv)
  | chunk (length : ℕ)
  | endOfStream
  | publish (landed : Bool)
  | stop (torn : ℕ)

/-- `authorized_storage`, for the connection of the job. -/
def StorageConfig.authorized (config : StorageConfig) (tenant : String) : Bool :=
  config.enabled && decide (tenant ∈ config.tenants)

/-- The object that is read is the one that was listed. -/
def SourceObject.Matches {env : BucketEnv} (object : SourceObject) (stored : StoredObject env) :
    Prop :=
  stored.location.1 = object.key ∧ (∀ etag ∈ object.etag, stored.eTag = some etag)
    ∧ ∀ version ∈ object.version, stored.version = some version

instance {env : BucketEnv} (object : SourceObject) (stored : StoredObject env) :
    Decidable (object.Matches stored) :=
  inferInstanceAs (Decidable (_ ∧ _ ∧ _))

/-- The sum of sizes, when it is not too large. -/
def reservedBytes (objects : List SourceObject) (maxUpload : ℕ) : Option ℕ :=
  let total := (objects.map SourceObject.size).sum
  if total < 2 ^ 64 ∧ total ≤ maxUpload then some total else none

/-- What the listing tells was there while it was read. -/
def Listed {env : ImportEnv} (world : World env) (config : StorageConfig) (began ended : ℕ)
    (object : ObjectMeta env.toBucketEnv) : Prop :=
  ∃ t ∈ List.range' began (ended + 1 - began), ∃ stored ∈ world t config, stored.meta = object

instance {env : ImportEnv} (world : World env) (config : StorageConfig) (began ended : ℕ)
    (object : ObjectMeta env.toBucketEnv) : Decidable (Listed world config began ended object) :=
  inferInstanceAs (Decidable (∃ t ∈ List.range' _ _, _))

namespace ImportState

variable {env : ImportEnv}

/-- The attempt goes on, and time with it. -/
def goOn (s : ImportState env) (phase : ImportPhase env) : ImportState env :=
  { s with time := s.time + 1, phase }

/-- The checks before the bytes are reserved. -/
def checkListed (env : ImportEnv) (objects : List SourceObject) : Except String Unit := do
  Fallible.require (objects ≠ [] ∧ objects.length ≤ maxLibraryProjectFiles)
    "the saved list of source files is unusable; retry the delivery"
  admitPortablePaths env.toManifestEnv (objects.map SourceObject.name)

/-- What happens next, where it can. -/
def step (job : ImportJob) (world : World env) (s : ImportState env) :
    ImportEvent env → Option (ImportState env)
  | .save config =>
      if config.id = s.config.id ∧ config.kind = s.config.kind
          ∧ config.revision = s.config.revision + 1 then
        some { s with time := s.time + 1, config, configs := config :: s.configs }
      else none
  | .elsewhere db => some { s with time := s.time + 1, db }
  | .begin number maxUpload =>
      match s.phase with
      | .idle =>
          if s.config.authorized job.tenant = true ∧ s.config.kind = .s3 then
            match s.sourceInventory with
            | some inventory =>
                if inventory.storageId = s.config.id ∧ inventory.revision = s.config.revision then
                  some (s.goOn (.listed ⟨number, maxUpload, s.config⟩ inventory.objects))
                else some (s.goOn .idle)
            | none => some (s.goOn (.listing ⟨number, maxUpload, s.config⟩ s.time))
          else some (s.goOn .idle)
      | _ => none
  | .list listing landed synced =>
      match s.phase with
      | .listing attempt began =>
          if ∀ object ∈ listing, Listed world attempt.config began s.time object then
            match freezeListing env job attempt.config attempt.maxUpload listing with
            | .error _ => some (s.goOn .idle)
            | .ok inventory =>
                if landed = false then some (s.goOn .idle)
                else
                  some { s with
                    time := s.time + 1
                    sourceInventory := some inventory
                    phase := if synced = true then .listed attempt inventory.objects else .idle }
          else none
      | _ => none
  | .reserve limit =>
      match s.phase with
      | .listed attempt objects =>
          match checkListed env objects with
          | .error _ => some (s.goOn .idle)
          | .ok () =>
              if s.inventory.isSome = true then some (s.goOn .idle)
              else
                match reservedBytes objects attempt.maxUpload with
                | none => some (s.goOn .idle)
                | some total =>
                    match s.db.reserveDeliverySnapshot job.id attempt.number (UInt64.ofNat total)
                        limit with
                    | .error _ => some (s.goOn .idle)
                    | .ok db =>
                        some { s with
                          time := s.time + 1
                          db
                          phase := .fetching attempt 0 [] objects
                          reservations := (total, attempt.maxUpload) :: s.reservations }
      | _ => none
  | .fetch stored =>
      match s.phase with
      | .fetching attempt total names (object :: rest) =>
          if s.config.authorized job.tenant = false
              ∨ s.config.revision ≠ attempt.config.revision then
            some (s.goOn .idle)
          else
            match payloadPath env job object.name with
            | .error _ => some (s.goOn .idle)
            | .ok () =>
                if 2 ^ 64 ≤ total + object.size ∨ attempt.maxUpload < total + object.size then
                  some (s.goOn .idle)
                else
                  match env.parsePath object.key with
                  | none => some (s.goOn .idle)
                  | some key =>
                      if stored ∈ world s.time attempt.config ∧ stored.location.1 = key
                          ∧ { object with key := key }.Matches stored then
                        some { s with
                          time := s.time + 1
                          files := Function.update s.files object.name (some [])
                          phase := .receiving attempt (total + object.size) names object stored 0
                            rest }
                      else none
      | _ => none
  | .chunk length =>
      match s.phase with
      | .receiving attempt total names object stored received rest =>
          let received := received + ((stored.content.drop received).take length).length
          if received ≤ object.size then
            some { s with
              time := s.time + 1
              files := Function.update s.files object.name (some (stored.content.take received))
              phase := .receiving attempt total names object stored received rest }
          else some (s.goOn .idle)
      | _ => none
  | .endOfStream =>
      match s.phase with
      | .receiving attempt total names object stored received rest =>
          if received = stored.content.length then
            if received = object.size then
              some (s.goOn (.fetching attempt total (names ++ [object.name]) rest))
            else some (s.goOn .idle)
          else none
      | _ => none
  | .publish landed =>
      match s.phase with
      | .fetching _ _ names [] =>
          match names.forM (payloadPath env job) with
          | .error _ => some (s.goOn .idle)
          | .ok () =>
              if env.namesLength names ≤ maxInventoryBytes ∧ landed = true then
                some { s with time := s.time + 1, inventory := some names, phase := .idle }
              else some (s.goOn .idle)
      | _ => none
  | .stop torn =>
      match s.phase with
      | .receiving _ _ _ object stored received _ =>
          some { s with
            time := s.time + 1
            files := Function.update s.files object.name
              (some (stored.content.take (received + torn)))
            phase := .idle }
      | _ => some (s.goOn .idle)

end ImportState

end Votport.External
