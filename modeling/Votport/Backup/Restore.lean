import Votport.Backup.Restored
import Votport.Foundation.Interrupted
import Votport.Foundation.Runs

/-!
# Restores at boot

A restore is staged, and a boot installs it: the old files are moved to a folder of their own, the
staged files are moved to their places, and the marker says how far the restore is.  A boot may be
stopped after any move, and the next one goes on.  No old file is lost, and what is installed in the
end is what was staged.
-/

namespace Votport.Backup

open Interrupted

/-! ### The disk -/

/-- What there is under a name in a folder. -/
def FileSystem.named (files : FileSystem) (name : String) : Option Node := files.node? [name]

/-- `RestorePhase`. -/
inductive RestorePhase
  | prepared
  | oldMoved
  | newInstalled
deriving DecidableEq

/-- `RestoreMode`. -/
inductive RestoreMode
  | historical
  | replica
deriving DecidableEq

/-- `PendingRestore`. -/
structure PendingRestore where
  stage : String
  version : UInt32
  manifest : Manifest
  mode : RestoreMode
  phase : RestorePhase
  rollback : Option String
deriving DecidableEq

/-- The names of the files that are restored. -/
def PendingRestore.names (m : PendingRestore) : List String := m.manifest.names

/-- The data folder, the folders in it, the marker, and whether the boot that runs has created the
secret. -/
structure RestoreDisk where
  data : FileSystem
  folders : String → Option FileSystem
  marker : Option PendingRestore
  creates : Bool

/-- What there is in a folder of the disk. -/
def RestoreDisk.inFolder (d : RestoreDisk) (folder name : String) : Option Node :=
  FileSystem.named ((d.folders folder).getD Table.empty) name

/-- What other crates compute for restores: the database that is prepared, and the texts of the
empty secrets and of the first status. -/
structure RestoreEnv extends ArchiveEnv where
  prepare : RestoreMode → Content → Option Content
  secrets : Content
  status : Content

/-- What a boot draws: the token of a name, which is hexadecimal, and a secret. -/
structure BootDraw where
  token : String
  secret : Content
  plain : '/' ∉ token.toList

/-- The files that are moved away. -/
def oldFiles : List String := archiveFiles ++ ["secret", "votport.db-wal", "votport.db-shm"]

/-! ### A boot -/

/-- A step of a boot, which leaves a disk or fails and leaves it as it was. -/
abbrev RestoreAction := RestoreDisk → Except String RestoreDisk

variable (env : RestoreEnv)

/-- That the content is the one that the manifest records. -/
def ManifestEntry.Records (entry : ManifestEntry) (content : Content) : Prop :=
  fileHash env.toArchiveEnv content = (entry.size, entry.sha256)

instance (entry : ManifestEntry) (content : Content) : Decidable (entry.Records env content) :=
  inferInstanceAs (Decidable (_ = _))

/-- The checks of `read_pending_restore` and of the marker that it gives. -/
def checkMarker (schemaVersion : UInt64) (m : PendingRestore) : RestoreAction := fun d => do
  Fallible.require (".votport-restore-stage-".toList <+: m.stage.toList ∧ '/' ∉ m.stage.toList
    ∧ '\\' ∉ m.stage.toList) "invalid pending restore stage"
  Fallible.require (m.version = version ∧ m.manifest.version = version
    ∧ m.manifest.schemaVersion = schemaVersion ∧ '/' ∉ m.stage.toList
    ∧ ".votport-restore-stage-".toList <+: m.stage.toList) "invalid pending restore marker"
  return d

/-- `validate_staged_restore` of the stage. -/
def validateStage (schemaVersion : UInt64) (m : PendingRestore) : RestoreAction := fun d => do
  let stage ← Fallible.present (d.folders m.stage) "invalid restore stage"
  validateStagedRestore env.toArchiveEnv [] stage m.manifest schemaVersion
  return d

/-- `validate_database` of the database that is staged or else installed. -/
def validateMovedDatabase (schemaVersion : UInt64) (m : PendingRestore) : RestoreAction :=
  fun d => do
    let stage := (d.folders m.stage).getD Table.empty
    let files := if (FileSystem.named stage "votport.db").isSome then stage else d.data
    let database ← FileSystem.read files ["votport.db"]
    validateDatabase env.toArchiveEnv database m.manifest.schemaVersion schemaVersion
    return d

/-- `persist_pending_restore`. -/
def persist (m : PendingRestore) : RestoreAction := fun d => .ok { d with marker := some m }

/-- The name is one of a rollback. -/
def IsRollback (name : String) : Prop :=
  '/' ∉ name.toList ∧ ".votport-restore-rollback-".toList <+: name.toList

instance IsRollback.decidable (name : String) : Decidable (IsRollback name) :=
  inferInstanceAs (Decidable (_ ∧ _))

/-- The check of the name of the rollback. -/
def checkRollback (rollback : String) : RestoreAction := fun d => do
  Fallible.require (IsRollback rollback) "invalid restore rollback path"
  return d

/-- `create_dir`, when the folder may be there. -/
def createFolder (name : String) : RestoreAction := fun d =>
  .ok { d with
    folders := Function.update d.folders name (some ((d.folders name).getD Table.empty)) }

/-- One file is moved to the rollback. -/
def moveOld (rollback name : String) : RestoreAction := fun d =>
  let saved := (d.folders rollback).getD Table.empty
  match FileSystem.named d.data name, FileSystem.named saved name with
  | some node, none =>
      .ok { d with
        data := d.data.erase [name]
        folders := Function.update d.folders rollback (some (saved.upsert ⟨[name], node⟩)) }
  | none, _ => .ok d
  | some _, some _ => .error ("restore rollback already contains " ++ name)

/-- One staged file is moved to its place. -/
def install (m : PendingRestore) (entry : ManifestEntry) : RestoreAction := fun d =>
  let stage := (d.folders m.stage).getD Table.empty
  match FileSystem.named stage entry.name, FileSystem.named d.data entry.name with
  | some node, none => do
      let content ← FileSystem.read stage [entry.name]
      Fallible.require (entry.Records env content)
        ("staged restore file is invalid: " ++ entry.name)
      return { d with
        data := d.data.upsert ⟨[entry.name], node⟩
        folders := Function.update d.folders m.stage (some (stage.erase [entry.name])) }
  | none, some _ => do
      let content ← FileSystem.read d.data [entry.name]
      Fallible.require (entry.Records env content)
        ("installed restore file is invalid: " ++ entry.name)
      return d
  | none, none => .error ("restore file is missing: " ++ entry.name)
  | some _, some _ => .error ("restore file exists twice: " ++ entry.name)

/-- `validate_database` of the installed database. -/
def validateInstalledDatabase (schemaVersion : UInt64) (m : PendingRestore) : RestoreAction :=
  fun d => do
    let database ← FileSystem.read d.data ["votport.db"]
    validateDatabase env.toArchiveEnv database m.manifest.schemaVersion schemaVersion
    return d

/-- `prepare_restored_database`. -/
def prepareRestoredDatabase (schemaVersion : UInt64) (m : PendingRestore) : RestoreAction :=
  fun d => do
    let database ← FileSystem.read d.data ["votport.db"]
    env.validateDatabaseConnection database schemaVersion
    let prepared ← Fallible.present (env.prepare m.mode database)
      "cannot prepare restored database"
    return { d with data := d.data.upsert ⟨["votport.db"], .file prepared⟩ }

/-- `write_secrets` and `write_status`. -/
def writeFile (name : String) (content : Content) : RestoreAction := fun d =>
  .ok { d with data := d.data.upsert ⟨[name], .file content⟩ }

/-- The first bytes of a content. -/
def Content.beginning (content : Content) (n : ℕ) : Content :=
  ⟨content.1.take n, lt_of_le_of_lt (List.length_take_le' _ _) content.2⟩

/-- The secret is created, unless there is one. -/
def createSecret (draw : BootDraw) : RestoreAction := fun d =>
  match FileSystem.named d.data "secret" with
  | some _ => .ok { d with creates := false }
  | none => .ok { d with
      data := d.data.upsert ⟨["secret"], .file (draw.secret.beginning 0)⟩
      creates := true }

/-- One more byte of a secret that is created is written, after the first `n`. -/
def writeSecret (draw : BootDraw) (n : ℕ) : RestoreAction := fun d =>
  .ok <|
    if d.creates then
      { d with data := d.data.upsert ⟨["secret"], .file (draw.secret.beginning (n + 1))⟩ }
    else d

/-- `write_private` of the secret that is drawn, unless there is one. -/
def rotateSecret (draw : BootDraw) : List RestoreAction :=
  createSecret draw :: (List.range draw.secret.1.length).map (writeSecret draw)

/-- `remove_file`, when the file may be absent. -/
def removeFile (name : String) : RestoreAction := fun d =>
  .ok { d with data := d.data.erase [name] }

/-- One file of the stage is removed. -/
def removeStaged (m : PendingRestore) (name : String) : RestoreAction := fun d =>
  .ok { d with
    folders := Function.update d.folders m.stage
      ((d.folders m.stage).map fun stage => stage.erase [name]) }

/-- The stage is removed. -/
def removeStage (m : PendingRestore) : RestoreAction := fun d =>
  .ok { d with folders := Function.update d.folders m.stage none }

/-- The marker is removed. -/
def removeMarker : RestoreAction := fun d => .ok { d with marker := none }

/-- From the installed files to the end. -/
def finishing (schemaVersion : UInt64) (draw : BootDraw) (m : PendingRestore) :
    List RestoreAction :=
  [prepareRestoredDatabase env schemaVersion m, writeFile "backup-secrets.json" env.secrets,
    writeFile "backup-status.json" env.status]
    ++ rotateSecret draw ++ [removeFile "votport.db-wal", removeFile "votport.db-shm"]
    ++ archiveFiles.map (removeStaged m) ++ [removeStage m, removeMarker]

/-- From the moved files to the end. -/
def installing (schemaVersion : UInt64) (draw : BootDraw) (m : PendingRestore) :
    List RestoreAction :=
  m.manifest.entries.map (install env m)
    ++ [validateInstalledDatabase env schemaVersion m, persist { m with phase := .newInstalled }]
    ++ finishing env schemaVersion draw { m with phase := .newInstalled }

/-- The name of the folder that the old files are moved to. -/
def rollbackName (draw : BootDraw) (m : PendingRestore) : String :=
  m.rollback.getD (".votport-restore-rollback-" ++ draw.token)

/-- From the marker to the end. -/
def moving (schemaVersion : UInt64) (draw : BootDraw) (m : PendingRestore) : List RestoreAction :=
  let rollback := rollbackName draw m
  let m := { m with rollback := some rollback }
  [checkRollback rollback, persist m, createFolder rollback]
    ++ oldFiles.map (moveOld rollback) ++ [persist { m with phase := .oldMoved }]
    ++ installing env schemaVersion draw { m with phase := .oldMoved }

/-- `apply_pending_restore`, one step after the other. -/
def applyPendingRestore (schemaVersion : UInt64) (draw : BootDraw) (d : RestoreDisk) :
    List RestoreAction :=
  match d.marker with
  | none => []
  | some m =>
      checkMarker schemaVersion m ::
        match m.phase with
        | .prepared => validateStage env schemaVersion m :: moving env schemaVersion draw m
        | .oldMoved =>
            validateMovedDatabase env schemaVersion m :: installing env schemaVersion draw m
        | .newInstalled => finishing env schemaVersion draw m

/-- A boot that is stopped after some steps.  A name that is drawn is new. -/
def bootStep (schemaVersion : UInt64) (d : RestoreDisk) (boot : BootDraw × ℕ) :
    Option RestoreDisk :=
  if ∀ m ∈ d.marker, m.rollback = none → d.folders (rollbackName boot.1 m) = none then
    some (execute ((applyPendingRestore env schemaVersion boot.1 d).take boot.2) d).1
  else none

/-! ### What a boot leaves -/

theorem named_upsert (files : FileSystem) (name name' : String) (node : Node) :
  FileSystem.named (files.upsert ⟨[name], node⟩) name'
    = if name' = name then some node else FileSystem.named files name'
  := by
  unfold FileSystem.named FileSystem.node?
  rw [Table.find?_upsert]
  by_cases h : name' = name
  · rw [if_pos h, if_pos (congrArg (fun name => [name]) h)]
    rfl
  · rw [if_neg h, if_neg fun heq => h (List.singleton_inj.mp heq)]

theorem named_erase (files : FileSystem) (name name' : String) :
  FileSystem.named (files.erase [name]) name'
    = if name' = name then none else FileSystem.named files name'
  := by
  unfold FileSystem.named FileSystem.node?
  rw [Table.find?_erase]
  by_cases h : name' = name
  · rw [if_pos h, if_pos (congrArg (fun name => [name]) h)]
    rfl
  · rw [if_neg h, if_neg fun heq => h (List.singleton_inj.mp heq)]

/-- What there is of the restore: the marker and the stage that it began with, the old files, and
what is asked of a secret that is drawn. -/
structure Restore where
  schemaVersion : UInt64
  marker : PendingRestore
  stage : FileSystem
  old : String → Option Node
  drawn : Content → Prop
  phase : marker.phase = .prepared
  rollback : marker.rollback = none
  versions : marker.version = Backup.version ∧ marker.manifest.version = Backup.version
    ∧ marker.manifest.schemaVersion = schemaVersion
  named : ".votport-restore-stage-".toList <+: marker.stage.toList ∧ '/' ∉ marker.stage.toList
    ∧ '\\' ∉ marker.stage.toList

variable {env}

/-- What the stage has under a name. -/
def Restore.staged (r : Restore) (name : String) : Option Node := FileSystem.named r.stage name

/-- What the preparation of the staged database leads to. -/
inductive Restore.Derived (env : RestoreEnv) (r : Restore) : Content → Prop
  | staged {content} (h : r.staged "votport.db" = some (.file content)) : r.Derived env content
  | prepared {content content'} (h : r.Derived env content)
      (hprepare : env.prepare r.marker.mode content = some content') : r.Derived env content'

/-- A database is one of this schema. -/
def Restore.Checked (env : RestoreEnv) (r : Restore) (content : Content) : Prop :=
  env.validateDatabaseConnection content r.schemaVersion = .ok ()

/-- The preparation of a database of this schema gives one. -/
def Restore.Prepares (env : RestoreEnv) (r : Restore) : Prop :=
  ∀ content, r.Checked env content →
    ∃ content', env.prepare r.marker.mode content = some content' ∧ r.Checked env content'

/-- The stage is valid. -/
structure Restore.Valid (env : RestoreEnv) (r : Restore) : Prop where
  validates : validateStagedRestore env.toArchiveEnv [] r.stage r.marker.manifest r.schemaVersion
    = .ok ()
  entries : ∀ entry ∈ r.marker.manifest.entries, ∃ content,
    r.staged entry.name = some (.file content) ∧ entry.Records env content
  names : ∀ entry ∈ r.marker.manifest.entries, entry.name ∈ archiveFiles
  required : "votport.db" ∈ r.marker.names
  database : ∃ content, r.staged "votport.db" = some (.file content) ∧ r.Checked env content
  prepares : r.Prepares env

/-- The old files are in the rollback. -/
def Restore.Saved (r : Restore) (rollback : String) (d : RestoreDisk) : Prop :=
  (rollback ≠ r.marker.stage ∧ IsRollback rollback)
    ∧ ∀ name ∈ oldFiles, d.inFolder rollback name = r.old name

/-- Each old file is where it was or in the rollback. -/
def Restore.Moving (r : Restore) (rollback : String) (d : RestoreDisk) : Prop :=
  rollback ≠ r.marker.stage ∧ IsRollback rollback
    ∧ d.folders r.marker.stage = some r.stage
    ∧ ∀ name ∈ oldFiles,
      FileSystem.named d.data name = r.old name ∧ d.inFolder rollback name = none
        ∨ FileSystem.named d.data name = none ∧ d.inFolder rollback name = r.old name

/-- Each staged file is in the stage or at its place. -/
def Restore.Installing (r : Restore) (rollback : String) (d : RestoreDisk) : Prop :=
  r.Saved rollback d
    ∧ (∀ entry ∈ r.marker.manifest.entries,
      d.inFolder r.marker.stage entry.name = r.staged entry.name
          ∧ FileSystem.named d.data entry.name = none
        ∨ d.inFolder r.marker.stage entry.name = none
          ∧ FileSystem.named d.data entry.name = r.staged entry.name)
    ∧ ∀ name ∈ oldFiles, name ∉ r.marker.names →
      FileSystem.named d.data name = none

/-- The staged files are at their places, the database as it is prepared, and there is no other
secret than the first bytes of one that was drawn. -/
def Restore.Installed (env : RestoreEnv) (r : Restore) (rollback : String) (d : RestoreDisk) :
    Prop :=
  r.Saved rollback d
    ∧ (∀ entry ∈ r.marker.manifest.entries, entry.name ≠ "votport.db" →
      FileSystem.named d.data entry.name = r.staged entry.name)
    ∧ (∃ content, FileSystem.named d.data "votport.db" = some (.file content)
      ∧ r.Derived env content ∧ r.Checked env content)
    ∧ (∀ name ∈ archiveFiles, name ∉ r.marker.names →
      FileSystem.named d.data name = none)
    ∧ ∀ node ∈ FileSystem.named d.data "secret",
      ∃ secret n, node = .file (secret.beginning n) ∧ r.drawn secret

/-- The restore is done. -/
def Restore.Done (env : RestoreEnv) (r : Restore) (d : RestoreDisk) : Prop :=
  d.marker = none ∧ ∃ rollback, r.Installed env rollback d ∧ FileSystem.named d.data "secret" ≠ none
    ∧ FileSystem.named d.data "votport.db-wal" = none
    ∧ FileSystem.named d.data "votport.db-shm" = none

/-- What holds wherever a boot is stopped. -/
inductive Restore.Good (env : RestoreEnv) (r : Restore) (d : RestoreDisk) : Prop
  | staged (hmarker : d.marker = some r.marker) (hstage : d.folders r.marker.stage = some r.stage)
      (hold : ∀ name ∈ oldFiles, FileSystem.named d.data name = r.old name)
  | moving (rollback : String)
      (hmarker : d.marker = some { r.marker with rollback := some rollback })
      (h : r.Moving rollback d)
  | installing (rollback : String)
      (hmarker : d.marker = some { r.marker with rollback := some rollback, phase := .oldMoved })
      (h : r.Installing rollback d)
  | installed (rollback : String)
      (hmarker : d.marker
        = some { r.marker with rollback := some rollback, phase := .newInstalled })
      (h : r.Installed env rollback d)
  | done (h : r.Done env d)

variable {r : Restore} {rollback : String} {d d' : RestoreDisk} {draw : BootDraw}

/-! ### One move -/

theorem moveOld_spec {name : String} {old : Option Node}
    (h : FileSystem.named d.data name = old ∧ d.inFolder rollback name = none
      ∨ FileSystem.named d.data name = none ∧ d.inFolder rollback name = old) :
  ∃ d', moveOld rollback name d = .ok d' ∧ d'.marker = d.marker
    ∧ (∀ folder, folder ≠ rollback → d'.folders folder = d.folders folder)
    ∧ FileSystem.named d'.data name = none ∧ d'.inFolder rollback name = old
    ∧ ∀ other, other ≠ name → FileSystem.named d'.data other = FileSystem.named d.data other
      ∧ d'.inFolder rollback other = d.inFolder rollback other
  := by
  unfold moveOld
  cases hdata : FileSystem.named d.data name with
  | none =>
      refine ⟨d, rfl, rfl, fun _ _ => rfl, hdata, ?_, fun _ _ => ⟨rfl, rfl⟩⟩
      obtain ⟨hold, hsaved⟩ | ⟨_, hsaved⟩ := h
      · rw [hsaved, ← hold, hdata]
      · exact hsaved
  | some node =>
      obtain ⟨hold, hsaved⟩ | ⟨hnone, _⟩ := h
      · have hsaved' : FileSystem.named ((d.folders rollback).getD Table.empty) name = none :=
          hsaved
        rw [hdata] at hold
        dsimp only
        rw [hsaved']
        refine ⟨_, rfl, rfl, fun folder hne => Function.update_of_ne hne _ _, ?_, ?_, ?_⟩
        · rw [named_erase, if_pos rfl]
        · rw [RestoreDisk.inFolder]
          dsimp only
          rw [Function.update_self, Option.getD_some, named_upsert, if_pos rfl, hold]
        · intro other hne
          refine ⟨by rw [named_erase, if_neg hne], ?_⟩
          rw [RestoreDisk.inFolder]
          dsimp only
          rw [Function.update_self, Option.getD_some, named_upsert, if_neg hne]
          rfl
      · cases hdata.symm.trans hnone

theorem read_named {files : FileSystem} {name : String} {content : Content}
    (h : FileSystem.named files name = some (.file content)) :
  FileSystem.read files [name] = .ok content
  := read_eq_ok.mpr h

theorem install_spec {m : PendingRestore} {entry : ManifestEntry} {content : Content}
    (hrecords : entry.Records env content)
    (h : d.inFolder m.stage entry.name = some (.file content)
        ∧ FileSystem.named d.data entry.name = none
      ∨ d.inFolder m.stage entry.name = none
        ∧ FileSystem.named d.data entry.name = some (.file content)) :
  ∃ d', install env m entry d = .ok d' ∧ d'.marker = d.marker
    ∧ (∀ folder, folder ≠ m.stage → d'.folders folder = d.folders folder)
    ∧ d'.inFolder m.stage entry.name = none
    ∧ FileSystem.named d'.data entry.name = some (.file content)
    ∧ ∀ other, other ≠ entry.name → FileSystem.named d'.data other = FileSystem.named d.data other
      ∧ d'.inFolder m.stage other = d.inFolder m.stage other
  := by
  unfold install
  obtain ⟨hstage, hdata⟩ | ⟨hstage, hdata⟩ := h
  · have hstage' : FileSystem.named ((d.folders m.stage).getD Table.empty) entry.name
        = some (.file content) := hstage
    dsimp only
    rw [hstage', hdata]
    dsimp only
    simp only [read_named hstage', bind, Except.bind, Fallible.require, hrecords, if_true]
    refine ⟨_, rfl, rfl, fun folder hne => Function.update_of_ne hne _ _, ?_, ?_, ?_⟩
    · rw [RestoreDisk.inFolder]
      dsimp only
      rw [Function.update_self, Option.getD_some, named_erase, if_pos rfl]
    · rw [named_upsert, if_pos rfl]
    · intro other hne
      refine ⟨by rw [named_upsert, if_neg hne], ?_⟩
      rw [RestoreDisk.inFolder]
      dsimp only
      rw [Function.update_self, Option.getD_some, named_erase, if_neg hne]
      rfl
  · have hstage' : FileSystem.named ((d.folders m.stage).getD Table.empty) entry.name = none :=
      hstage
    dsimp only
    rw [hstage', hdata]
    dsimp only
    simp only [read_named hdata, bind, Except.bind, Fallible.require, hrecords, if_true]
    exact ⟨d, rfl, rfl, fun _ _ => rfl, hstage, hdata, fun _ _ => ⟨rfl, rfl⟩⟩

/-! ### To the end -/

theorem Restore.Installed.of_eq
    (hnames : ∀ entry ∈ r.marker.manifest.entries, entry.name ∈ archiveFiles)
    (h : r.Installed env rollback d)
    (hsaved : ∀ name, d'.inFolder rollback name = d.inFolder rollback name)
    (hdata : ∀ name ∈ "secret" :: archiveFiles,
      FileSystem.named d'.data name = FileSystem.named d.data name) :
  r.Installed env rollback d'
  := by
  obtain ⟨⟨hne, hold⟩, hentries, hdatabase, hothers, hsecret⟩ := h
  refine ⟨⟨hne, fun name hname => (hsaved name).trans (hold name hname)⟩, ?_, ?_, ?_, ?_⟩
  · intro entry hentry hdb
    rw [hdata _ (List.mem_cons_of_mem _ (hnames entry hentry))]
    exact hentries entry hentry hdb
  · rw [hdata _ (by decide)]
    exact hdatabase
  · intro name hname hnot
    rw [hdata _ (List.mem_cons_of_mem _ hname)]
    exact hothers name hname hnot
  · rw [hdata _ (List.mem_cons_self ..)]
    exact hsecret

/-- The marker of a restore whose files are installed. -/
def Restore.installedMarker (r : Restore) (rollback : String) : PendingRestore :=
  { r.marker with rollback := some rollback, phase := .newInstalled }

/-- The conditions of a boot that has the files installed, by the secret that there is. -/
def Restore.AtFiles (env : RestoreEnv) (r : Restore) (rollback : String) (old : Option Node)
    (d : RestoreDisk) : Prop :=
  d.marker = some (r.installedMarker rollback) ∧ r.Installed env rollback d
    ∧ FileSystem.named d.data "secret" = old

/-- The conditions of a boot that has written the first bytes of a secret, unless there was one. -/
def Restore.AtSecret (env : RestoreEnv) (r : Restore) (rollback : String) (draw : BootDraw)
    (old : Option Node) (n : ℕ) (d : RestoreDisk) : Prop :=
  d.marker = some (r.installedMarker rollback) ∧ r.Installed env rollback d
    ∧ d.creates = old.isNone
    ∧ FileSystem.named d.data "secret" = some (old.getD (.file (draw.secret.beginning n)))

/-- The conditions of a boot on the way to the end. -/
def Restore.AtEnd (env : RestoreEnv) (r : Restore) (rollback : String) (secret : Node)
    (absent : List String) (d : RestoreDisk) : Prop :=
  d.marker = some (r.installedMarker rollback) ∧ r.Installed env rollback d
    ∧ FileSystem.named d.data "secret" = some secret
    ∧ ∀ name ∈ absent, FileSystem.named d.data name = none

/-- The restore is done, and leaves the secret. -/
def Restore.Ends (env : RestoreEnv) (r : Restore) (secret : Node) (d : RestoreDisk) : Prop :=
  r.Done env d ∧ FileSystem.named d.data "secret" = some secret

theorem Restore.Installed.upsert {name : String} {node : Node} (hvalid : r.Valid env)
    (hname : name ∉ "secret" :: archiveFiles) (h : r.Installed env rollback d) :
  r.Installed env rollback { d with data := d.data.upsert ⟨[name], node⟩ }
  := by
  refine h.of_eq hvalid.names (fun _ => rfl) ?_
  intro other hother
  have hne : other ≠ name := by
    rintro rfl
    exact hname hother
  dsimp only
  rw [named_upsert, if_neg hne]

theorem Restore.Installed.erase {name : String} (hvalid : r.Valid env)
    (hname : name ∉ "secret" :: archiveFiles) (h : r.Installed env rollback d) :
  r.Installed env rollback { d with data := d.data.erase [name] }
  := by
  refine h.of_eq hvalid.names (fun _ => rfl) ?_
  intro other hother
  have hne : other ≠ name := by
    rintro rfl
    exact hname hother
  dsimp only
  rw [named_erase, if_neg hne]

theorem Restore.Installed.update {folder : Option FileSystem} (hvalid : r.Valid env)
    (h : r.Installed env rollback d) :
  r.Installed env rollback
    { d with folders := Function.update d.folders r.marker.stage folder }
  := by
  refine h.of_eq hvalid.names ?_ fun _ _ => rfl
  intro name
  unfold RestoreDisk.inFolder
  dsimp only
  rw [Function.update_of_ne h.1.1.1]

theorem Restore.Installed.prepared (hvalid : r.Valid env) (h : r.Installed env rollback d) :
  ∃ d', prepareRestoredDatabase env r.schemaVersion (r.installedMarker rollback) d = .ok d'
    ∧ d'.marker = d.marker ∧ r.Installed env rollback d'
    ∧ FileSystem.named d'.data "secret" = FileSystem.named d.data "secret"
  := by
  obtain ⟨hsaved, hentries, ⟨content, hcontent, hderived, hcheck⟩, hothers, hsecret⟩ := h
  obtain ⟨content', hprepare, hcheck'⟩ := hvalid.prepares content hcheck
  have hmode : (r.installedMarker rollback).mode = r.marker.mode := rfl
  have hcheck'' : env.validateDatabaseConnection content r.schemaVersion = .ok () := hcheck
  refine ⟨{ d with data := d.data.upsert ⟨["votport.db"], .file content'⟩ }, ?_, rfl,
    ⟨hsaved, ?_, ?_, ?_, ?_⟩, ?_⟩
  · unfold prepareRestoredDatabase
    simp only [read_named hcontent, bind, Except.bind, hcheck'', hmode, hprepare,
      Fallible.present]
    rfl
  · intro entry hentry hne
    dsimp only
    rw [named_upsert, if_neg hne]
    exact hentries entry hentry hne
  · refine ⟨content', ?_, hderived.prepared hprepare, hcheck'⟩
    dsimp only
    rw [named_upsert, if_pos rfl]
  · intro name hname hnot
    have hne : name ≠ "votport.db" := by
      rintro rfl
      exact hnot hvalid.required
    dsimp only
    rw [named_upsert, if_neg hne]
    exact hothers name hname hnot
  · dsimp only
    rw [named_upsert, if_neg (by decide)]
    exact hsecret
  · dsimp only
    rw [named_upsert, if_neg (by decide)]

/-- The first bytes of a secret that is drawn may be written. -/
theorem Restore.Installed.secret {n : ℕ} {creates : Bool} (hvalid : r.Valid env)
    (hdraw : r.drawn draw.secret) (h : r.Installed env rollback d) :
  r.Installed env rollback { d with
    data := d.data.upsert ⟨["secret"], .file (draw.secret.beginning n)⟩
    creates := creates }
  := by
  obtain ⟨hsaved, hentries, hdatabase, hothers, _⟩ := h
  have hkept : ∀ name ∈ archiveFiles,
      FileSystem.named (d.data.upsert ⟨["secret"], .file (draw.secret.beginning n)⟩) name
        = FileSystem.named d.data name := by
    intro name hname
    have hne : name ≠ "secret" := by
      rintro rfl
      exact absurd hname (by decide)
    rw [named_upsert, if_neg hne]
  refine ⟨hsaved, ?_, ?_, ?_, ?_⟩
  · intro entry hentry hne
    dsimp only
    rw [hkept _ (hvalid.names entry hentry)]
    exact hentries entry hentry hne
  · dsimp only
    rw [hkept _ (by decide)]
    exact hdatabase
  · intro name hname hnot
    dsimp only
    rw [hkept name hname]
    exact hothers name hname hnot
  · intro node hnode
    dsimp only at hnode
    rw [named_upsert, if_pos rfl] at hnode
    cases hnode
    exact ⟨draw.secret, n, rfl, hdraw⟩

theorem Restore.AtFiles.create {old : Option Node} (hvalid : r.Valid env)
    (hdraw : r.drawn draw.secret) (h : r.AtFiles env rollback old d) :
  ∃ d', createSecret draw d = .ok d' ∧ r.AtSecret env rollback draw old 0 d'
  := by
  obtain ⟨hmarker, hinstalled, hold⟩ := h
  unfold createSecret
  cases old with
  | some node =>
      rw [hold]
      exact ⟨_, rfl, hmarker, hinstalled.of_eq hvalid.names (fun _ => rfl) fun _ _ => rfl, rfl, hold⟩
  | none =>
      rw [hold]
      refine ⟨_, rfl, hmarker, hinstalled.secret hvalid hdraw, rfl, ?_⟩
      dsimp only
      rw [named_upsert, if_pos rfl]
      rfl

theorem Restore.AtSecret.write {old : Option Node} {n : ℕ} (hvalid : r.Valid env)
    (hdraw : r.drawn draw.secret) (h : r.AtSecret env rollback draw old n d) :
  ∃ d', writeSecret draw n d = .ok d' ∧ r.AtSecret env rollback draw old (n + 1) d'
  := by
  obtain ⟨hmarker, hinstalled, hcreates, hold⟩ := h
  refine ⟨_, rfl, ?_⟩
  cases old with
  | some node =>
      rw [if_neg (by rw [hcreates]; exact Bool.false_ne_true)]
      exact ⟨hmarker, hinstalled, hcreates, hold⟩
  | none =>
      rw [if_pos (show d.creates = true from hcreates)]
      refine ⟨hmarker, hinstalled.secret hvalid hdraw, hcreates, ?_⟩
      dsimp only
      rw [named_upsert, if_pos rfl]
      rfl

theorem Content.beginning_length (content : Content) :
  content.beginning content.1.length = content
  := Subtype.ext List.take_length

/-- A secret that is there is kept, and otherwise one that is drawn is written, byte for byte. -/
theorem leads_secret (rollback : String) (old : Option Node) (hvalid : r.Valid env)
    (hdraw : r.drawn draw.secret) :
  Leads (r.Good env) (r.AtFiles env rollback old) (rotateSecret draw)
    (r.AtSecret env rollback draw old draw.secret.1.length)
  := by
  have hloop : Leads (r.Good env) (r.AtSecret env rollback draw old 0)
      ((List.range draw.secret.1.length).map (writeSecret draw))
      (r.AtSecret env rollback draw old (List.range draw.secret.1.length).length) := by
    refine Leads.loop (fun before => r.AtSecret env rollback draw old before.length)
      (fun _ _ h => .installed rollback h.1 h.2.1) ?_
    intro before n hbefore d h
    have hn : n = before.length := by
      have hlast := hbefore.getElem (i := before.length) (by simp)
      rw [List.getElem_concat_length rfl, List.getElem_range] at hlast
      exact hlast
    rw [hn, List.length_append, List.length_singleton]
    exact h.write hvalid hdraw
  rw [List.length_range] at hloop
  exact .cons (fun _ h => .installed rollback h.1 h.2.1) (fun _ h => h.create hvalid hdraw) hloop

/-- Any other file is written. -/
theorem Restore.AtFiles.upsert {old : Option Node} {name : String} {node : Node}
    (hvalid : r.Valid env) (hname : name ∉ "secret" :: archiveFiles)
    (h : r.AtFiles env rollback old d) :
  r.AtFiles env rollback old { d with data := d.data.upsert ⟨[name], node⟩ }
  := by
  refine ⟨h.1, h.2.1.upsert hvalid hname, ?_⟩
  have hne : "secret" ≠ name := by
    rintro rfl
    exact hname (List.mem_cons_self ..)
  dsimp only
  rw [named_upsert, if_neg hne]
  exact h.2.2

/-- The files before the secret are written. -/
theorem leads_files (rollback : String) (old : Option Node) (hvalid : r.Valid env) :
  Leads (r.Good env) (r.AtFiles env rollback old)
    [prepareRestoredDatabase env r.schemaVersion (r.installedMarker rollback),
      writeFile "backup-secrets.json" env.secrets, writeFile "backup-status.json" env.status]
    (r.AtFiles env rollback old)
  := by
  have hgood : ∀ d : RestoreDisk, r.AtFiles env rollback old d → r.Good env d :=
    fun d h => .installed rollback h.1 h.2.1
  refine .cons (R := r.AtFiles env rollback old) hgood ?_
    (.cons (R := r.AtFiles env rollback old) hgood ?_ (.cons hgood ?_
      (.nil hgood fun _ h => h)))
  · intro d h
    obtain ⟨d', hd', hmarker, hinstalled, hsecret⟩ := h.2.1.prepared hvalid
    exact ⟨d', hd', hmarker.trans h.1, hinstalled, hsecret.trans h.2.2⟩
  · intro d h
    exact ⟨_, rfl, h.upsert hvalid (by decide)⟩
  · intro d h
    exact ⟨_, rfl, h.upsert hvalid (by decide)⟩

/-- A boot at the end keeps the files that it installed. -/
theorem Restore.AtEnd.good {secret : Node} {absent : List String}
    (h : r.AtEnd env rollback secret absent d) :
  r.Good env d
  := .installed rollback h.1 h.2.1

/-- One more log is gone. -/
theorem Restore.AtEnd.erase {secret : Node} {absent : List String} {name : String}
    (hvalid : r.Valid env) (hname : name ∉ "secret" :: archiveFiles)
    (h : r.AtEnd env rollback secret absent d) :
  r.AtEnd env rollback secret (name :: absent) { d with data := d.data.erase [name] }
  := by
  refine ⟨h.1, h.2.1.erase hvalid hname, ?_, ?_⟩
  · have hne : "secret" ≠ name := by
      rintro rfl
      exact hname (List.mem_cons_self ..)
    dsimp only
    rw [named_erase, if_neg hne]
    exact h.2.2.1
  · intro other hother
    dsimp only
    rw [named_erase]
    split_ifs with heq
    · rfl
    · exact h.2.2.2 other ((List.mem_cons.mp hother).resolve_left heq)

/-- The logs of the database are removed. -/
theorem leads_logs (rollback : String) (old : Option Node) (hvalid : r.Valid env) :
  Leads (r.Good env) (r.AtSecret env rollback draw old draw.secret.1.length)
    [removeFile "votport.db-wal", removeFile "votport.db-shm"]
    (r.AtEnd env rollback (old.getD (.file draw.secret)) ["votport.db-shm", "votport.db-wal"])
  := by
  refine .cons (R := r.AtEnd env rollback (old.getD (.file draw.secret)) ["votport.db-wal"])
    (fun _ h => .installed rollback h.1 h.2.1) ?_
    (.cons (fun _ h => h.good) ?_ (.nil (fun _ h => h.good) fun _ h => h))
  · intro d h
    have hend : r.AtEnd env rollback (old.getD (.file draw.secret)) [] d := by
      refine ⟨h.1, h.2.1, ?_, by rintro _ ⟨⟩⟩
      rw [h.2.2.2, Content.beginning_length]
    exact ⟨_, rfl, hend.erase hvalid (by decide)⟩
  · intro d h
    exact ⟨_, rfl, h.erase hvalid (by decide)⟩

theorem leads_finishing (rollback : String) (old : Option Node) (hvalid : r.Valid env)
    (hdraw : r.drawn draw.secret) :
  Leads (r.Good env) (r.AtFiles env rollback old)
    (finishing env r.schemaVersion draw (r.installedMarker rollback))
    (r.Ends env (old.getD (.file draw.secret)))
  := by
  have hloop : Leads (r.Good env)
      (r.AtEnd env rollback (old.getD (.file draw.secret)) ["votport.db-shm", "votport.db-wal"])
      (archiveFiles.map (removeStaged (r.installedMarker rollback)))
      (r.AtEnd env rollback (old.getD (.file draw.secret))
        ["votport.db-shm", "votport.db-wal"]) := by
    refine Leads.loop (fun _ => r.AtEnd env rollback (old.getD (.file draw.secret))
      ["votport.db-shm", "votport.db-wal"]) (fun _ _ h => h.good) ?_
    intro _ name _ d h
    exact ⟨_, rfl, h.1, h.2.1.update hvalid, h.2.2⟩
  have hfiles := ((leads_files rollback old hvalid).append
    (leads_secret rollback old hvalid hdraw)).append (leads_logs rollback old hvalid)
  refine (hfiles.append hloop).append ?_
  refine .cons (R := r.AtEnd env rollback (old.getD (.file draw.secret))
    ["votport.db-shm", "votport.db-wal"]) (fun _ h => h.good) ?_
    (.cons (fun _ h => h.good) ?_ (.nil (fun _ h => .done h.1) fun _ h => h))
  · intro d h
    exact ⟨_, rfl, h.1, h.2.1.update hvalid, h.2.2⟩
  · intro d h
    refine ⟨_, rfl, ⟨rfl, rollback, h.2.1, ?_, h.2.2.2 _ (by decide), h.2.2.2 _ (by decide)⟩,
      h.2.2.1⟩
    dsimp only
    rw [h.2.2.1]
    exact Option.some_ne_none _

/-! ### From the moved files -/

/-- The marker of a restore whose old files are moved. -/
def Restore.movedMarker (r : Restore) (rollback : String) : PendingRestore :=
  { r.marker with rollback := some rollback, phase := .oldMoved }

/-- Some entries are at their places. -/
def Restore.Placed (r : Restore) (rollback : String) (before : List ManifestEntry)
    (d : RestoreDisk) : Prop :=
  d.marker = some (r.movedMarker rollback) ∧ r.Installing rollback d
    ∧ ∀ entry ∈ before, FileSystem.named d.data entry.name = r.staged entry.name

theorem Restore.Placed.good {before : List ManifestEntry} (h : r.Placed rollback before d) :
  r.Good env d
  := .installing rollback h.1 h.2.1

theorem inFolder_congr {folder name : String} (h : d'.folders folder = d.folders folder) :
  d'.inFolder folder name = d.inFolder folder name
  := by
  unfold RestoreDisk.inFolder
  rw [h]

theorem Restore.Placed.install {before : List ManifestEntry} {entry : ManifestEntry}
    (hvalid : r.Valid env) (hentry : entry ∈ r.marker.manifest.entries)
    (h : r.Placed rollback before d) :
  ∃ d', install env (r.movedMarker rollback) entry d = .ok d'
    ∧ r.Placed rollback (before ++ [entry]) d'
  := by
  obtain ⟨hmarker, ⟨⟨hne, hsaved⟩, hentries, hothers⟩, hplaced⟩ := h
  obtain ⟨content, hcontent, hrecords⟩ := hvalid.entries entry hentry
  have hplace := hentries entry hentry
  rw [hcontent] at hplace
  obtain ⟨d', hd', hmarker', hfolders, hstage, hdata, hframe⟩ :=
    install_spec (m := r.movedMarker rollback) hrecords hplace
  refine ⟨d', hd', hmarker'.trans hmarker, ⟨⟨hne, ?_⟩, ?_, ?_⟩, ?_⟩
  · intro name hname
    rw [inFolder_congr (hfolders rollback hne.1)]
    exact hsaved name hname
  · intro other hother
    by_cases hsame : other.name = entry.name
    · right
      rw [hsame, hcontent]
      exact ⟨hstage, hdata⟩
    · rw [(hframe other.name hsame).1]
      have hkept : d'.inFolder r.marker.stage other.name = d.inFolder r.marker.stage other.name :=
        (hframe other.name hsame).2
      rw [hkept]
      exact hentries other hother
  · intro name hname hnot
    have hdiff : name ≠ entry.name := by
      rintro rfl
      exact hnot (List.mem_map_of_mem hentry)
    rw [(hframe name hdiff).1]
    exact hothers name hname hnot
  · intro other hother
    by_cases hsame : other.name = entry.name
    · rw [hsame, hcontent, hdata]
    · rw [(hframe other.name hsame).1]
      obtain hbefore | hlast := List.mem_append.mp hother
      · exact hplaced other hbefore
      · exact absurd (by rw [List.mem_singleton.mp hlast]) hsame

/-- No secret is staged. -/
theorem Restore.Valid.secret (hvalid : r.Valid env) :
  "secret" ∉ r.marker.names
  := by
  intro hmem
  obtain ⟨entry, hentry, hname⟩ := List.mem_map.mp hmem
  have hfile := hvalid.names entry hentry
  rw [hname] at hfile
  exact absurd hfile (by decide)

/-- When all entries are at their places, the files are installed. -/
theorem Restore.Placed.installed (hvalid : r.Valid env)
    (h : r.Placed rollback r.marker.manifest.entries d) :
  r.Installed env rollback d
  := by
  obtain ⟨_, ⟨hsaved, _, hothers⟩, hplaced⟩ := h
  obtain ⟨content, hcontent, hcheck⟩ := hvalid.database
  have harchive : ∀ name ∈ archiveFiles, name ∈ oldFiles := fun name hname =>
    List.mem_append_left _ hname
  have hsecret : FileSystem.named d.data "secret" = none := hothers "secret" (by decide)
    hvalid.secret
  refine ⟨hsaved, fun entry hentry _ => hplaced entry hentry,
    ⟨content, ?_, .staged hcontent, hcheck⟩,
    fun name hname => hothers name (harchive name hname), ?_⟩
  · obtain ⟨entry, hentry, hname⟩ := List.mem_map.mp hvalid.required
    rw [← hname, hplaced entry hentry, hname]
    exact hcontent
  · rw [hsecret]
    intro node hnone
    cases hnone

theorem Restore.Valid.staged (hvalid : r.Valid env) :
  Staged env.toArchiveEnv [] r.stage r.marker.manifest r.schemaVersion
  := staged_of_validateStagedRestore hvalid.validates

theorem Restore.Valid.validateDatabase {content : Content} (hvalid : r.Valid env)
    (hcheck : r.Checked env content) :
  validateDatabase env.toArchiveEnv content r.marker.manifest.schemaVersion r.schemaVersion = .ok ()
  := by
  have hversion : r.marker.manifest.schemaVersion = r.schemaVersion := hvalid.staged.version.2
  unfold Backup.validateDatabase
  rw [Fallible.require, if_pos hversion]
  exact hcheck

theorem leads_installing (rollback : String) (hvalid : r.Valid env) (hdraw : r.drawn draw.secret) :
  Leads (r.Good env) (r.Placed rollback [])
    (installing env r.schemaVersion draw (r.movedMarker rollback))
    (r.Ends env (.file draw.secret))
  := by
  have hloop : Leads (r.Good env) (r.Placed rollback [])
      (r.marker.manifest.entries.map (install env (r.movedMarker rollback)))
      (r.Placed rollback r.marker.manifest.entries) := by
    refine Leads.loop (r.Placed rollback) (fun _ _ h => h.good) ?_
    intro before entry hbefore d h
    have hmem : entry ∈ before ++ [entry] := by simp
    exact h.install hvalid (hbefore.subset hmem)
  refine Leads.append (hloop.append ?_) (leads_finishing rollback none hvalid hdraw)
  refine .cons (R := r.Placed rollback r.marker.manifest.entries) (fun _ h => h.good) ?_
    (.cons (fun _ h => h.good) ?_ (.nil (fun _ h => .installed rollback h.1 h.2.1) fun _ h => h))
  · intro d h
    obtain ⟨_, _, ⟨content, hcontent, _, hcheck⟩, _⟩ := h.installed hvalid
    refine ⟨d, ?_, h⟩
    have hdatabase := hvalid.validateDatabase hcheck
    unfold validateInstalledDatabase Restore.movedMarker
    simp only [read_named hcontent, bind, Except.bind, hdatabase]
    rfl
  · intro d h
    exact ⟨_, rfl, rfl, (h.installed hvalid).of_eq hvalid.names (fun _ => rfl) fun _ _ => rfl,
      h.2.1.2.2 "secret" (by decide) hvalid.secret⟩

/-! ### From the marker -/

/-- The marker of a restore that has a rollback. -/
def Restore.movingMarker (r : Restore) (rollback : String) : PendingRestore :=
  { r.marker with rollback := some rollback }

/-- Some old files are moved. -/
def Restore.Moved (r : Restore) (rollback : String) (before : List String) (d : RestoreDisk) :
    Prop :=
  d.marker = some (r.movingMarker rollback) ∧ r.Moving rollback d
    ∧ ∀ name ∈ before, FileSystem.named d.data name = none ∧ d.inFolder rollback name = r.old name

theorem Restore.Moved.good {before : List String} (h : r.Moved rollback before d) :
  r.Good env d
  := .moving rollback h.1 h.2.1

theorem Restore.Moved.moveOld {before : List String} {name : String} (hname : name ∈ oldFiles)
    (h : r.Moved rollback before d) :
  ∃ d', moveOld rollback name d = .ok d' ∧ r.Moved rollback (before ++ [name]) d'
  := by
  obtain ⟨hmarker, ⟨hne, hchecks, hstage, hfiles⟩, hmoved⟩ := h
  obtain ⟨d', hd', hmarker', hfolders, hdata, hsaved, hframe⟩ := moveOld_spec (hfiles name hname)
  refine ⟨d', hd', hmarker'.trans hmarker, ⟨hne, hchecks, ?_, ?_⟩, ?_⟩
  · rw [hfolders r.marker.stage hne.symm]
    exact hstage
  · intro other hother
    by_cases hsame : other = name
    · right
      rw [hsame]
      exact ⟨hdata, hsaved⟩
    · rw [(hframe other hsame).1, (hframe other hsame).2]
      exact hfiles other hother
  · intro other hother
    by_cases hsame : other = name
    · rw [hsame]
      exact ⟨hdata, hsaved⟩
    · rw [(hframe other hsame).1, (hframe other hsame).2]
      obtain hbefore | hlast := List.mem_append.mp hother
      · exact hmoved other hbefore
      · exact absurd (List.mem_singleton.mp hlast) hsame

/-- When all old files are moved, the staged files are all in the stage. -/
theorem Restore.Moved.placed (hvalid : r.Valid env) (h : r.Moved rollback oldFiles d) :
  r.Placed rollback [] { d with marker := some (r.movedMarker rollback) }
  := by
  obtain ⟨_, ⟨hne, hchecks, hstage, _⟩, hmoved⟩ := h
  refine ⟨rfl, ⟨⟨⟨hne, hchecks⟩, fun name hname => (hmoved name hname).2⟩, ?_, ?_⟩, ?_⟩
  · intro entry hentry
    left
    constructor
    · unfold RestoreDisk.inFolder
      dsimp only
      rw [hstage]
      rfl
    · exact (hmoved entry.name (List.mem_append_left _ (hvalid.names entry hentry))).1
  · intro name hname _
    exact (hmoved name hname).1
  · intro entry hentry
    cases hentry

theorem leads_moving {m : PendingRestore} (hvalid : r.Valid env) (hdraw : r.drawn draw.secret)
    (hname : rollbackName draw m = rollback)
    (hm : { m with rollback := some rollback } = r.movingMarker rollback) :
  Leads (r.Good env) (fun d => r.Good env d ∧ r.Moving rollback d)
    (moving env r.schemaVersion draw m) (r.Ends env (.file draw.secret))
  := by
  have hmoved : { m with rollback := some rollback, phase := .oldMoved } = r.movedMarker rollback :=
    congrArg (fun m : PendingRestore => { m with phase := .oldMoved }) hm
  unfold moving
  dsimp only
  rw [hname, hm, hmoved]
  have hloop : Leads (r.Good env) (r.Moved rollback [])
      (oldFiles.map (moveOld rollback)) (r.Moved rollback oldFiles) := by
    refine Leads.loop (r.Moved rollback) (fun _ _ h => h.good) ?_
    intro before name hbefore d h
    have hmem : name ∈ before ++ [name] := by simp
    exact h.moveOld (hbefore.subset hmem)
  have hpersist : Leads (r.Good env) (r.Moved rollback oldFiles)
      [persist { r.movingMarker rollback with phase := .oldMoved }] (r.Placed rollback []) := by
    refine .cons (fun _ h => h.good) ?_ (.nil (fun _ h => h.good) fun _ h => h)
    intro d h
    exact ⟨_, rfl, h.placed hvalid⟩
  have hfirst : Leads (r.Good env) (fun d => r.Good env d ∧ r.Moving rollback d)
      [checkRollback rollback, persist (r.movingMarker rollback), createFolder rollback]
      (r.Moved rollback []) := by
    refine .cons (R := fun d => r.Good env d ∧ r.Moving rollback d) (fun _ h => h.1) ?_
      (.cons (R := r.Moved rollback []) (fun _ h => h.1) ?_
        (.cons (fun _ h => h.good) ?_ (.nil (fun _ h => h.good) fun _ h => h)))
    · intro d h
      refine ⟨d, ?_, h⟩
      unfold checkRollback
      rw [Fallible.require, if_pos h.2.2.1]
      rfl
    · intro d h
      exact ⟨_, rfl, rfl, h.2, fun _ hnone => absurd hnone List.not_mem_nil⟩
    · intro d h
      obtain ⟨hmarker, ⟨hne, hchecks, hstage, hfiles⟩, _⟩ := h
      have hsaved : ∀ name, RestoreDisk.inFolder { d with
          folders := Function.update d.folders rollback
            (some ((d.folders rollback).getD Table.empty)) } rollback name
            = d.inFolder rollback name := by
        intro name
        unfold RestoreDisk.inFolder
        dsimp only
        rw [Function.update_self, Option.getD_some]
      refine ⟨_, rfl, hmarker, ⟨hne, hchecks, ?_, ?_⟩, fun _ hnone => absurd hnone List.not_mem_nil⟩
      · dsimp only
        rw [Function.update_of_ne hne.symm]
        exact hstage
      · intro name hname
        rw [hsaved]
        exact hfiles name hname
  exact (((hfirst.append hloop).append hpersist).append
    (leads_installing rollback hvalid hdraw))

/-! ### A boot -/

/-- The stage that passes the checks is valid. -/
theorem Restore.valid {d : RestoreDisk} (hprepares : r.Prepares env)
    (hstage : d.folders r.marker.stage = some r.stage)
    (hvalidates : validateStage env r.schemaVersion r.marker d = .ok d) :
  r.Valid env
  := by
  unfold validateStage at hvalidates
  rw [hstage] at hvalidates
  obtain ⟨_, h, hvalidates⟩ := Fallible.bind_eq_ok.mp hvalidates
  cases h
  obtain ⟨_, hvalidates, _⟩ := Fallible.bind_eq_ok.mp hvalidates
  have hstaged := staged_of_validateStagedRestore hvalidates
  have hname : ∀ entry ∈ r.marker.manifest.entries, entry.name ∈ r.marker.names :=
    fun entry hentry => List.mem_map_of_mem hentry
  refine ⟨hvalidates, ?_, fun entry hentry => (hstaged.admitted _ (hname entry hentry)).1,
    hstaged.required.1, hstaged.database, hprepares⟩
  intro entry hentry
  obtain ⟨content, hnode, hsize, hsha⟩ := checkRecorded_eq_ok.mp (hstaged.recorded entry hentry)
  exact ⟨content, hnode, Prod.ext hsize hsha⟩

/-- The old files are in the data folder or in the rollback. -/
def Restore.Kept (r : Restore) (d : RestoreDisk) : Prop :=
  ∃ rollback, (rollback ≠ r.marker.stage ∧ IsRollback rollback)
    ∧ (∀ m ∈ d.marker, ∀ name ∈ m.rollback, name = rollback)
    ∧ ∀ name ∈ oldFiles, ∀ node, r.old name = some node →
      FileSystem.named d.data name = some node ∨ d.inFolder rollback name = some node

theorem Restore.Saved.kept (h : r.Saved rollback d)
    (hmarker : ∀ m ∈ d.marker, m.rollback = some rollback) :
  r.Kept d
  := by
  refine ⟨rollback, h.1, ?_, fun name hname node hnode => .inr ((h.2 name hname).trans hnode)⟩
  intro m hm name hname
  rw [hmarker m hm] at hname
  exact (Option.some_inj.mp hname).symm

/-- A stage has no name of a rollback. -/
theorem Restore.ne_stage (r : Restore) :
  ".votport-restore-rollback-" ≠ r.marker.stage
  := by
  intro h
  have hnamed := r.named.1
  rw [← h] at hnamed
  exact absurd hnamed (by decide)

theorem Restore.Good.kept (h : r.Good env d) :
  r.Kept d
  := by
  cases h with
  | staged hmarker _ hold =>
      refine ⟨".votport-restore-rollback-", ⟨r.ne_stage, by decide⟩, ?_,
        fun name hname node hnode => .inl ((hold name hname).trans hnode)⟩
      intro m hm name hname
      cases hmarker.symm.trans hm
      cases r.rollback.symm.trans hname
  | moving rollback hmarker h =>
      refine ⟨rollback, ⟨h.1, h.2.1⟩, ?_, ?_⟩
      · intro m hm name hname
        cases hmarker.symm.trans hm
        exact (Option.some_inj.mp hname).symm
      · intro name hname node hnode
        obtain ⟨hdata, _⟩ | ⟨_, hsaved⟩ := h.2.2.2 name hname
        · exact .inl (hdata.trans hnode)
        · exact .inr (hsaved.trans hnode)
  | installing _ hmarker h =>
      refine h.1.kept fun m hm => ?_
      cases hmarker.symm.trans hm
      rfl
  | installed _ hmarker h =>
      refine h.1.kept fun m hm => ?_
      cases hmarker.symm.trans hm
      rfl
  | done h =>
      obtain ⟨hmarker, _, h, _⟩ := h
      refine h.1.kept fun m hm => ?_
      cases hmarker.symm.trans hm

theorem Restore.checkMarker_eq (r : Restore) (d : RestoreDisk) :
  checkMarker r.schemaVersion r.marker d = .ok d
  := by
  have hchecks : r.marker.version = version ∧ r.marker.manifest.version = version
      ∧ r.marker.manifest.schemaVersion = r.schemaVersion ∧ '/' ∉ r.marker.stage.toList
      ∧ ".votport-restore-stage-".toList <+: r.marker.stage.toList :=
    ⟨r.versions.1, r.versions.2.1, r.versions.2.2, r.named.2.1, r.named.1⟩
  unfold checkMarker
  rw [Fallible.require, if_pos r.named, Fallible.require, if_pos hchecks]
  rfl

/-- The name of the rollback that is drawn passes its check. -/
theorem checks_rollback (draw : BootDraw) :
  IsRollback (".votport-restore-rollback-" ++ draw.token)
  := by
  unfold IsRollback
  rw [String.toList_append]
  refine ⟨?_, List.prefix_append _ _⟩
  intro hmem
  obtain hname | htoken := List.mem_append.mp hmem
  · exact absurd hname (by decide)
  · exact draw.plain htoken

theorem Restore.moving_of_new {rollback : String}
    (hchecks : IsRollback rollback)
    (hstage : d.folders r.marker.stage = some r.stage)
    (hold : ∀ name ∈ oldFiles, FileSystem.named d.data name = r.old name)
    (hnew : d.folders rollback = none) :
  r.Moving rollback d
  := by
  refine ⟨?_, hchecks, hstage, ?_⟩
  · rintro rfl
    cases hstage.symm.trans hnew
  · intro name hname
    left
    refine ⟨hold name hname, ?_⟩
    unfold RestoreDisk.inFolder
    rw [hnew]
    rfl

/-- The stage is as it was until the files are moved from it. -/
theorem Restore.Moving.validates (hvalid : r.Valid env) (h : r.Moving rollback d) :
  validateStage env r.schemaVersion r.marker d = .ok d
  := by
  unfold validateStage
  rw [h.2.2.1]
  simp only [Fallible.present, bind, Except.bind, hvalid.validates]
  rfl

/-- Where the database is while the files are installed. -/
theorem Restore.Placed.validates (hvalid : r.Valid env) (h : r.Placed rollback [] d) :
  validateMovedDatabase env r.schemaVersion (r.movedMarker rollback) d = .ok d
  := by
  obtain ⟨content, hcontent, hcheck⟩ := hvalid.database
  obtain ⟨entry, hentry, hname⟩ := List.mem_map.mp hvalid.required
  have hplace := h.2.1.2.1 entry hentry
  rw [hname, hcontent] at hplace
  have hread : FileSystem.read (if (d.inFolder r.marker.stage "votport.db").isSome then
      (d.folders r.marker.stage).getD Table.empty else d.data) ["votport.db"] = .ok content := by
    obtain ⟨hstage, _⟩ | ⟨hstage, hdata⟩ := hplace
    · rw [hstage, if_pos Option.isSome_some]
      exact read_named hstage
    · rw [hstage, if_neg (by decide)]
      exact read_named hdata
  have hdatabase := hvalid.validateDatabase hcheck
  unfold RestoreDisk.inFolder at hread
  unfold validateMovedDatabase Restore.movedMarker
  simp only [bind, Except.bind, hread, hdatabase]
  rfl

theorem applyPendingRestore_prepared {m : PendingRestore} {schemaVersion : UInt64}
    (hmarker : d.marker = some m) (hphase : m.phase = .prepared) :
  applyPendingRestore env schemaVersion draw d
    = checkMarker schemaVersion m :: validateStage env schemaVersion m
      :: moving env schemaVersion draw m
  := by
  unfold applyPendingRestore
  rw [hmarker]
  dsimp only
  rw [hphase]

/-- The secret that a boot leaves: the one that it finds when the files are installed, or the one
that it draws. -/
def RestoreDisk.secretLeft (d : RestoreDisk) (draw : BootDraw) : Node :=
  (if ∀ m ∈ d.marker, m.phase = .newInstalled then FileSystem.named d.data "secret"
    else none).getD (.file draw.secret)

theorem RestoreDisk.secretLeft_eq_drawn {m : PendingRestore} (hmarker : d.marker = some m)
    (hphase : m.phase ≠ .newInstalled) :
  d.secretLeft draw = .file draw.secret
  := by
  unfold RestoreDisk.secretLeft
  rw [if_neg fun h => hphase (h m hmarker)]
  rfl

theorem RestoreDisk.secretLeft_eq_found (h : ∀ m ∈ d.marker, m.phase = .newInstalled) :
  d.secretLeft draw = (FileSystem.named d.data "secret").getD (.file draw.secret)
  := by
  unfold RestoreDisk.secretLeft
  rw [if_pos h]

/-- From wherever a boot was stopped, the next one leads to the end. -/
theorem Restore.Good.boot (hvalid : r.Valid env) (hdraw : r.drawn draw.secret)
    (hnew : ∀ m ∈ d.marker, m.rollback = none → d.folders (rollbackName draw m) = none)
    (h : r.Good env d) :
  ∃ P : RestoreDisk → Prop, P d
    ∧ Leads (r.Good env) P (applyPendingRestore env r.schemaVersion draw d)
      (r.Ends env (d.secretLeft draw))
  := by
  cases hgood : h with
  | staged hmarker hstage hold =>
      let rollback := ".votport-restore-rollback-" ++ draw.token
      have hname : rollbackName draw r.marker = rollback := by
        unfold rollbackName
        rw [r.rollback]
        rfl
      have hfolder : d.folders rollback = none := by
        rw [← hname]
        exact hnew r.marker hmarker r.rollback
      refine ⟨fun d => r.Good env d ∧ r.Moving rollback d,
        ⟨h, moving_of_new (checks_rollback draw) hstage hold hfolder⟩, ?_⟩
      rw [applyPendingRestore_prepared hmarker r.phase,
        RestoreDisk.secretLeft_eq_drawn hmarker (by rw [r.phase]; decide)]
      refine .cons (R := fun d => r.Good env d ∧ r.Moving rollback d) (fun _ h => h.1) ?_
        (.cons (fun _ h => h.1) ?_ (leads_moving hvalid hdraw hname rfl))
      · intro d h
        exact ⟨d, r.checkMarker_eq d, h⟩
      · intro d h
        exact ⟨d, h.2.validates hvalid, h⟩
  | moving rollback hmarker hmoving =>
      refine ⟨fun d => r.Good env d ∧ r.Moving rollback d, ⟨h, hmoving⟩, ?_⟩
      rw [applyPendingRestore_prepared hmarker r.phase, RestoreDisk.secretLeft_eq_drawn hmarker
        (by rw [show _ = RestorePhase.prepared from r.phase]; decide)]
      refine .cons (R := fun d => r.Good env d ∧ r.Moving rollback d) (fun _ h => h.1) ?_
        (.cons (fun _ h => h.1) ?_ (leads_moving hvalid hdraw rfl rfl))
      · intro d h
        exact ⟨d, r.checkMarker_eq d, h⟩
      · intro d h
        exact ⟨d, h.2.validates hvalid, h⟩
  | installing rollback hmarker hinstalling =>
      refine ⟨r.Placed rollback [],
        ⟨hmarker, hinstalling, fun _ hnone => absurd hnone List.not_mem_nil⟩, ?_⟩
      rw [RestoreDisk.secretLeft_eq_drawn hmarker RestorePhase.noConfusion]
      unfold applyPendingRestore
      rw [hmarker]
      refine .cons (R := r.Placed rollback []) (fun _ h => h.good) ?_ (.cons (fun _ h => h.good) ?_
        (leads_installing rollback hvalid hdraw))
      · intro d h
        exact ⟨d, r.checkMarker_eq d, h⟩
      · intro d h
        exact ⟨d, h.validates hvalid, h⟩
  | installed rollback hmarker hinstalled =>
      have hphase : ∀ m ∈ d.marker, m.phase = .newInstalled := by
        intro m hm
        cases hmarker.symm.trans hm
        rfl
      refine ⟨r.AtFiles env rollback (FileSystem.named d.data "secret"),
        ⟨hmarker, hinstalled, rfl⟩, ?_⟩
      rw [RestoreDisk.secretLeft_eq_found hphase]
      unfold applyPendingRestore
      rw [hmarker]
      refine .cons (fun _ h => .installed rollback h.1 h.2.1) ?_
        (leads_finishing rollback _ hvalid hdraw)
      intro d h
      exact ⟨d, r.checkMarker_eq d, h⟩
  | done hdone =>
      have hphase : ∀ m ∈ d.marker, m.phase = .newInstalled := by
        intro m hm
        cases hdone.1.symm.trans hm
      have ⟨_, _, _, hsecret, _⟩ := hdone
      obtain ⟨secret, hsecret⟩ := Option.ne_none_iff_exists'.mp hsecret
      refine ⟨r.Ends env secret, ⟨hdone, hsecret⟩, ?_⟩
      rw [RestoreDisk.secretLeft_eq_found hphase, hsecret]
      unfold applyPendingRestore
      rw [hdone.1]
      exact .nil (fun _ h => .done h.1) fun _ h => h

/-! ### Boots that are stopped -/

theorem Restore.Good.bootStep {boot : BootDraw × ℕ} (hvalid : r.Valid env)
    (hdraw : r.drawn boot.1.secret) (h : r.Good env d)
    (hstep : bootStep env r.schemaVersion d boot = some d') :
  r.Good env d'
  := by
  unfold Backup.bootStep at hstep
  split_ifs at hstep with hnew
  obtain ⟨P, hP, hleads⟩ := h.boot hvalid hdraw hnew
  cases hstep
  exact (hleads.stopped hP boot.2).1

theorem Restore.Good.run {boots : List (BootDraw × ℕ)} (hvalid : r.Valid env)
    (hdrawn : ∀ boot ∈ boots, r.drawn boot.1.secret) (h : r.Good env d)
    (hrun : Runs.run (Backup.bootStep env r.schemaVersion) d boots = some d') :
  r.Good env d'
  := by
  induction boots generalizing d with
  | nil =>
      cases hrun
      exact h
  | cons boot boots ih =>
      obtain ⟨next, hstep, hrest⟩ := (Runs.run_cons _).mp hrun
      rw [List.forall_mem_cons] at hdrawn
      exact ih hdrawn.2 (h.bootStep hvalid hdrawn.1 hstep) hrest

/-- A database is prepared as it is. -/
def sampleRestoreEnv : RestoreEnv where
  toArchiveEnv := sampleEnv
  prepare _ content := some content
  secrets := ⟨[123, 125], by decide⟩
  status := ⟨[123, 125], by decide⟩

/-- A database and a key are staged. -/
def sampleRestoreMarker : PendingRestore where
  stage := ".votport-restore-stage-a"
  version := 2
  manifest := sampleManifest
  mode := .historical
  phase := .prepared
  rollback := none

/-- The files that are staged. -/
def sampleStage : FileSystem :=
  (Table.empty.upsert ⟨["votport.db"], .file sampleSnapshot⟩).upsert
    ⟨["receipt.key"], .file (sampleKey 7)⟩

/-- There was a key, and a secret. -/
def sampleRestoreDisk : RestoreDisk where
  data := (Table.empty.upsert ⟨["receipt.key"], .file (sampleKey 8)⟩).upsert
    ⟨["secret"], .file (sampleKey 3)⟩
  folders name := if name = sampleRestoreMarker.stage then some sampleStage else none
  marker := some sampleRestoreMarker
  creates := false

/-- The restore of the staged files, with secrets of 32 bytes. -/
def sampleRestore : Restore where
  schemaVersion := 1
  marker := sampleRestoreMarker
  stage := sampleStage
  old := FileSystem.named sampleRestoreDisk.data
  drawn secret := secret.1.length = 32
  phase := rfl
  rollback := rfl
  versions := by decide
  named := by decide

/-- A boot is stopped among the old files, the next one among the staged files, and the next one
when ten bytes of the secret are written. -/
def sampleBoots : List (BootDraw × ℕ) :=
  [(⟨"b", sampleKey 4, by decide⟩, 7), (⟨"c", sampleKey 5, by decide⟩, 15),
    (⟨"d", sampleKey 6, by decide⟩, 20)]

/-- Where they leave the restore. -/
theorem sampleBoots_run :
  (Runs.run (bootStep sampleRestoreEnv 1) sampleRestoreDisk sampleBoots).map
      (fun d => (d.marker.map PendingRestore.phase, FileSystem.named d.data "secret"))
    = some (some .newInstalled, some (.file ((sampleKey 6).beginning 10)))
  := by decide

end Votport.Backup
