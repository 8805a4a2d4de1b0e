import Mathlib.Data.List.Dedup
import Mathlib.Data.UInt
import Votport.Foundation.Fallible
import Votport.Foundation.Table
import Votport.Protocol.Portable

/-!
# The archive of a backup

An archive holds a manifest, a snapshot of the database and the identity files of the port.  The
manifest is made of the files before they are added, and each file is read again when it is added.
To extract an archive, its entries are written one by one into a folder, in the order in which they
come, and then the folder is compared with the manifest.

The formats of archives, manifests, keys and certificates, the hash and the check of a database
are parameters.
-/

namespace Votport.Backup

/-! ### Files -/

/-- What a file holds; its size is a 64-bit integer. -/
abbrev Content := {bytes : List UInt8 // bytes.length < 2 ^ 64}

/-- The size of a file. -/
def Content.size (content : Content) : UInt64 := UInt64.ofNat content.1.length

/-- What there is under a path. -/
inductive Node
  | file (content : Content)
  | directory
  | symlink
  | other
deriving DecidableEq

/-- A node under its path. -/
structure Placed where
  path : List String
  node : Node
deriving DecidableEq

/-- The nodes of a file system; no two have the same path. -/
abbrev FileSystem := Table Placed.path

/-- What there is under the path. -/
def FileSystem.node? (files : FileSystem) (path : List String) : Option Node :=
  (files.find? path).map Placed.node

/-- The name of a path in the folder itself. -/
def nameIn (folder path : List String) : Option String :=
  if path.dropLast = folder then path.getLast? else none

/-- `read_dir`. -/
def FileSystem.readDir (files : FileSystem) (folder : List String) : List (String × Node) :=
  files.rows.filterMap fun placed => (nameIn folder placed.path).map (·, placed.node)

/-- `create_private_new`, and what is written to the file then. -/
def FileSystem.createNew (files : FileSystem) (path : List String) (content : Content) :
    Except String FileSystem := do
  Fallible.require (files.node? path.dropLast = some .directory) "No such file or directory"
  Fallible.present (files.insert? ⟨path, .file content⟩) "File exists"

/-- `open_regular_nofollow`, and what is read of the file then. -/
def FileSystem.read (files : FileSystem) (path : List String) : Except String Content :=
  match files.node? path with
  | some (.file content) => .ok content
  | some .symlink => .error "Too many levels of symbolic links"
  | some _ => .error "path is not a regular file"
  | none => .error "No such file or directory"

/-! ### Archives -/

/-- `ManifestEntry`. -/
structure ManifestEntry where
  name : String
  size : UInt64
  sha256 : String
deriving DecidableEq

/-- `Manifest`. -/
structure Manifest where
  version : UInt32
  createdAt : UInt64
  schemaVersion : UInt64
  entries : List ManifestEntry
deriving DecidableEq

/-- The kinds of the entries of an archive that are told apart. -/
inductive EntryType
  | regular
  | hardLink
  | symlink
  | other
deriving DecidableEq

/-- An entry that is read from an archive; a path that is no text is `none`, and to read its data
may fail after what is given of it. -/
structure TarEntry where
  path : Except String (Option String)
  entryType : EntryType
  size : UInt64
  data : Content
  failure : Option String

/-- A file that is added to an archive, with the size that its header has. -/
structure TarMember where
  name : String
  size : UInt64
  data : Content

/-- The entry that a member is read as. -/
def TarMember.entry (file : TarMember) : TarEntry :=
  { path := .ok (some file.name), entryType := .regular, size := file.size, data := file.data,
    failure := none }

/-- What other crates compute for archives. -/
structure ArchiveEnv where
  /-- The archive that is built of its members. -/
  build : List TarMember → List UInt8
  /-- The entries of an archive. -/
  entries : List UInt8 → Except String (List (Except String TarEntry))
  /-- `serde_json::to_vec`. -/
  toVec : Manifest → List UInt8
  /-- `serde_json::from_slice`. -/
  fromSlice : List UInt8 → Option Manifest
  /-- The hash, in hexadecimal. -/
  sha256 : Content → String
  /-- The public key of a private key as PEM. -/
  publicKeyRaw : List Char → Option (List UInt8)
  /-- The public key of a certificate as PEM. -/
  subjectPublicKey : Content → Option (List UInt8)
  /-- `validate_database_connection`. -/
  validateDatabaseConnection : Content → UInt64 → Except String Unit

/-- `VERSION`. -/
def version : UInt32 := 2

/-- `MAX_MANIFEST`. -/
def maxManifest : UInt64 := 64 * 1024

/-- `MAX_IDENTITY`. -/
def maxIdentity : UInt64 := 16 * 1024 * 1024

/-- The files of an archive that are optional or required besides the database. -/
def identityNames : List String := ["receipt.key", "push-issuer.key", "push.crt", "push.key"]

/-- `ARCHIVE_FILES`. -/
def archiveFiles : List String :=
  ["votport.db", "receipt.key", "push-issuer.key", "push.crt", "push.key"]

/-- What is relied on of the other crates: a manifest is read as it was written, and an archive
whose headers have the sizes of its files is read as the files that were added. -/
structure ArchiveEnv.Lawful (env : ArchiveEnv) : Prop where
  manifest : ∀ manifest, env.fromSlice (env.toVec manifest) = some manifest
  archive : ∀ files : List TarMember,
    (∀ file ∈ files, file.name ∈ "manifest.json" :: archiveFiles ∧ file.size = file.data.size) →
      env.entries (env.build files) = .ok (files.map fun file => .ok file.entry)

variable (env : ArchiveEnv)

/-- `file_hash`. -/
def fileHash (content : Content) : UInt64 × String := (content.size, env.sha256 content)

/-! ### The identity of a port -/

/-- The size that a key has. -/
def validateKeySize (read : String → Except String Content) (names : List String) (name : String) :
    Except String Unit :=
  if name ∈ names then do
    let content ← read name
    Fallible.require ((fileHash env content).1 = 32) ("invalid backup identity: " ++ name)
  else .ok ()

/-- That the certificate is one of the key. -/
def validatePair (read : String → Except String Content) : Except String Unit := do
  let certificate ← read "push.crt"
  let key ← read "push.key"
  let key ← Fallible.present (fromUtf8 key.1) "stream did not contain valid UTF-8"
  let key ← Fallible.present (env.publicKeyRaw key) "invalid push private key"
  let certificate ← Fallible.present (env.subjectPublicKey certificate) "invalid push certificate"
  Fallible.require (certificate = key) "push certificate and private key do not match"

/-- `validate_identity_material`. -/
def validateIdentityMaterial (read : String → Except String Content) (names : List String) :
    Except String Unit := do
  validateKeySize env read names "receipt.key"
  validateKeySize env read names "push-issuer.key"
  Fallible.require ("push.crt" ∈ names ↔ "push.key" ∈ names)
    "push certificate and key must be restored together"
  if "push.crt" ∈ names then validatePair env read else .ok ()

/-! ### Making an archive -/

/-- What `symlink_metadata` says of a file. -/
structure FileMeta where
  regular : Bool
  length : UInt64

/-- What a run finds in the data folder.  The identity files may be replaced while it runs, so each
has what is found when it is listed, validated, hashed, and, to be added, measured and copied. -/
structure ArchiveRun where
  snapshot : Except String Content
  listed : String → Option FileMeta
  validated : String → Except String Content
  hashed : String → Except String Content
  measured : String → Except String Content
  copied : String → Except String Content
  now : UInt64

/-- `identities`. -/
def identities (run : ArchiveRun) : List String :=
  identityNames.filter fun name =>
    (run.listed name).any fun found => found.regular && decide (found.length ≤ maxIdentity)

/-- The entry of a file in the manifest. -/
def manifestEntry (name : String) (content : Content) : ManifestEntry :=
  { name := name, size := (fileHash env content).1, sha256 := (fileHash env content).2 }

/-- `add_file`. -/
def addFile (run : ArchiveRun) (name : String) : Except String TarMember := do
  let measured ← run.measured name
  let copied ← run.copied name
  return { name := name, size := (fileHash env measured).1, data := copied }

/-- The manifest that a run makes. -/
def archiveManifest (run : ArchiveRun) (schemaVersion : UInt64) (snapshot : Content)
    (entries : List ManifestEntry) : Manifest :=
  { version := version, createdAt := run.now, schemaVersion := schemaVersion,
    entries := manifestEntry env "votport.db" snapshot :: entries }

/-- The text of a manifest that is not too large. -/
def manifestContent (bytes : List UInt8) : Option Content :=
  if h : bytes.length ≤ maxManifest.toNat then
    some ⟨bytes, lt_of_le_of_lt h maxManifest.toNat_lt⟩
  else none

/-- The members of an archive. -/
def archiveMembers (manifest snapshot : Content) (files : List TarMember) : List TarMember :=
  { name := "manifest.json", size := manifest.size, data := manifest }
    :: { name := "votport.db", size := (fileHash env snapshot).1, data := snapshot } :: files

/-- `create_archive`: the manifest and the archive. -/
def createArchive (run : ArchiveRun) (schemaVersion : UInt64) :
    Except String (Manifest × List UInt8) := do
  let snapshot ← run.snapshot
  let names := identities run
  Fallible.require ("receipt.key" ∈ names) "required identity missing: receipt.key"
  validateIdentityMaterial env run.validated names
  let entries ← names.mapM fun name => (run.hashed name).map (manifestEntry env name)
  let manifest := archiveManifest env run schemaVersion snapshot entries
  let bytes ← Fallible.present (manifestContent (env.toVec manifest)) "manifest too large"
  let files ← names.mapM (addFile env run)
  return (manifest, env.build (archiveMembers env bytes snapshot files))

/-! ### Extracting an archive -/

/-- How many components a path has. -/
def componentCount (path : List Char) : ℕ :=
  (if path.head? = some '/' then 1 else 0)
    + (if (path.splitOn '/').head? = some ['.'] then 1 else 0)
    + ((path.splitOn '/').filter fun part => part ≠ [] ∧ part ≠ ['.']).length

/-- What was read of an archive: the names of its entries, and the manifest. -/
structure Extraction where
  names : List String
  manifest : Option Manifest

/-- The name of an entry that may be in an archive. -/
def entryName (extraction : Extraction) (entry : TarEntry) : Except String String := do
  let path ← entry.path
  let name ← Fallible.present path "non-UTF8 archive path"
  Fallible.require
    (componentCount name.toList = 1 ∧ (name = "manifest.json" ∨ name ∈ archiveFiles)
      ∧ name ∉ extraction.names)
    "archive contains an unexpected or duplicate entry"
  Fallible.require (entry.entryType = .regular) "archive links are not allowed"
  return name

/-- The manifest of an archive. -/
def readManifest (entry : TarEntry) : Except String Manifest := do
  Fallible.require (entry.size ≤ maxManifest) "manifest too large"
  match entry.failure with
  | some failure => .error failure
  | none => Fallible.present (env.fromSlice entry.data.1) "invalid manifest"

/-- What follows from a file that is written.  When its data cannot be read to the end, the file has
what was read. -/
def extractFile (destination : List String) (files : FileSystem) (name : String)
    (entry : TarEntry) : FileSystem × Except String Unit :=
  if maxIdentity < entry.size ∧ name ≠ "votport.db" then (files, .error "identity file too large")
  else
    match files.createNew (destination ++ [name]) entry.data with
    | .error failure => (files, .error failure)
    | .ok files' =>
        match entry.failure with
        | some failure => (files', .error failure)
        | none => (files', .ok ())

/-- What one entry of an archive does. -/
def extractEntry (destination : List String) (files : FileSystem) (extraction : Extraction)
    (entry : TarEntry) : FileSystem × Except String Extraction :=
  match entryName extraction entry with
  | .error failure => (files, .error failure)
  | .ok name =>
      if name = "manifest.json" then
        (files, (readManifest env entry).map fun manifest =>
          { names := name :: extraction.names, manifest := some manifest })
      else
        match extractFile destination files name entry with
        | (files', .error failure) => (files', .error failure)
        | (files', .ok ()) => (files', .ok { extraction with names := name :: extraction.names })

/-- What the entries of an archive do, up to the first that fails. -/
def extractEntries (destination : List String) :
    FileSystem → Extraction → List (Except String TarEntry) → FileSystem × Except String Extraction
  | files, extraction, [] => (files, .ok extraction)
  | files, _, .error failure :: _ => (files, .error failure)
  | files, extraction, .ok entry :: rest =>
      match extractEntry env destination files extraction entry with
      | (files', .error failure) => (files', .error failure)
      | (files', .ok extraction') => extractEntries destination files' extraction' rest

/-- That two sets of names are the same. -/
def sameNames (names names' : List String) : Prop := names ⊆ names' ∧ names' ⊆ names

instance (names names' : List String) : Decidable (sameNames names names') :=
  inferInstanceAs (Decidable (_ ∧ _))

/-- What is in the folder of a restore. -/
def stagedName (found : String × Node) : Except String String :=
  match found.2 with
  | .file _ =>
      (Fallible.require (found.1 ∈ archiveFiles) "invalid restore stage contents").map fun _ =>
        found.1
  | _ => .error "invalid restore stage contents"

/-- That a file is the one that the manifest records. -/
def checkRecorded (destination : List String) (files : FileSystem) (entry : ManifestEntry) :
    Except String Unit := do
  let content ← files.read (destination ++ [entry.name])
  Fallible.require (fileHash env content = (entry.size, entry.sha256)) "backup checksum mismatch"

/-- `validate_database`. -/
def validateDatabase (content : Content) (expectedSchema currentSchema : UInt64) :
    Except String Unit := do
  Fallible.require (expectedSchema = currentSchema)
    "backup database schema does not match this binary"
  env.validateDatabaseConnection content currentSchema

/-- `validate_staged_restore`. -/
def validateStagedRestore (destination : List String) (files : FileSystem) (manifest : Manifest)
    (schemaVersion : UInt64) : Except String Unit := do
  Fallible.require (manifest.version = version ∧ manifest.schemaVersion = schemaVersion)
    "unsupported backup version or schema"
  let names := manifest.entries.map ManifestEntry.name
  Fallible.require
    (names.Nodup ∧ "votport.db" ∈ names ∧ "receipt.key" ∈ names
      ∧ ∀ name ∈ names, name ∈ archiveFiles ∧ name ≠ "manifest.json")
    "manifest entries are invalid"
  let actual ← (files.readDir destination).mapM stagedName
  Fallible.require (actual.Nodup) "invalid restore stage contents"
  Fallible.require (sameNames actual names) "pending restore manifest mismatch"
  manifest.entries.forM (checkRecorded env destination files)
  validateIdentityMaterial env (fun name => files.read (destination ++ [name])) names
  let database ← files.read (destination ++ ["votport.db"])
  validateDatabase env database manifest.schemaVersion schemaVersion

/-- What follows when the entries have been read. -/
def checkExtraction (destination : List String) (files : FileSystem) (extraction : Extraction)
    (schemaVersion : UInt64) : Except String Manifest := do
  let manifest ← Fallible.present extraction.manifest "manifest missing"
  Fallible.require
    (sameNames (manifest.entries.map ManifestEntry.name)
      (extraction.names.filter (· ≠ "manifest.json")))
    "manifest entries are invalid"
  validateStagedRestore env destination files manifest schemaVersion
  return manifest

/-- `validate_and_extract`. -/
def validateAndExtract (archive : List UInt8) (destination : List String) (files : FileSystem)
    (schemaVersion : UInt64) : FileSystem × Except String Manifest :=
  match env.entries archive with
  | .error failure => (files, .error failure)
  | .ok entries =>
      match extractEntries env destination files { names := [], manifest := none } entries with
      | (files', .error failure) => (files', .error failure)
      | (files', .ok extraction) =>
          (files', checkExtraction env destination files' extraction schemaVersion)

end Votport.Backup
