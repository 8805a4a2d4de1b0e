import Votport.Backup.Archive

/-!
# What is extracted of an archive

An archive that is accepted leaves in the folder the files of its manifest, and nothing else.  Any
archive only adds files under the names of an archive.  The archive of a run is accepted, and
gives back what the manifest was made of, when the identity files are the same when they are
hashed and when they are added.
-/

namespace Votport.Backup

variable {env : ArchiveEnv} {destination : List String} {files files' : FileSystem}

/-! ### Files -/

theorem nameIn_eq_some {folder path : List String} {name : String} :
  nameIn folder path = some name ↔ path = folder ++ [name]
  := by
  rw [nameIn, Option.ite_none_right_eq_some]
  constructor
  · rintro ⟨rfl, hlast⟩
    exact (List.dropLast_append_getLast? name hlast).symm
  · rintro rfl
    simp

/-- A file that is written was not there, and everything else stays. -/
theorem node?_createNew {path : List String} {content : Content}
    (h : files.createNew path content = .ok files') :
  files.node? path = none
    ∧ ∀ path', files'.node? path' = if path' = path then some (.file content) else files.node? path'
  := by
  obtain ⟨_, _, hinsert⟩ := Fallible.bind_eq_ok.mp h
  have hinsert := Fallible.present_eq_ok.mp hinsert
  constructor
  · rw [FileSystem.node?, (Table.insert?_eq_some.mp hinsert).1, Option.map_none]
  · intro path'
    rw [FileSystem.node?, Table.find?_insert? hinsert, FileSystem.node?]
    split_ifs <;> rfl

theorem createNew_of_absent {path : List String} (content : Content)
    (hfolder : files.node? path.dropLast = some .directory) (habsent : files.node? path = none) :
  ∃ files', files.createNew path content = .ok files'
  := by
  have hfind : files.find? path = none := Option.map_eq_none_iff.mp habsent
  refine ⟨files.upsert ⟨path, .file content⟩, Fallible.bind_eq_ok.mpr ⟨(), ?_, ?_⟩⟩
  · exact Fallible.require_eq_ok.mpr hfolder
  · exact Fallible.present_eq_ok.mpr (Table.insert?_of_absent hfind)

theorem read_eq_ok {path : List String} {content : Content} :
  files.read path = .ok content ↔ files.node? path = some (.file content)
  := by
  rw [FileSystem.read]
  cases files.node? path with
  | none => simp
  | some node => cases node <;> simp

theorem mem_readDir {folder : List String} {name : String} {node : Node} :
  (name, node) ∈ files.readDir folder ↔ files.node? (folder ++ [name]) = some node
  := by
  rw [FileSystem.readDir, List.mem_filterMap, FileSystem.node?, Option.map_eq_some_iff]
  constructor
  · rintro ⟨placed, hmem, hname⟩
    obtain ⟨name', hin, heq⟩ := Option.map_eq_some_iff.mp hname
    obtain ⟨rfl, rfl⟩ := Prod.mk.inj heq
    exact ⟨placed, Table.find?_eq_some.mpr ⟨hmem, nameIn_eq_some.mp hin⟩, rfl⟩
  · rintro ⟨placed, hfind, rfl⟩
    obtain ⟨hmem, hpath⟩ := Table.find?_eq_some.mp hfind
    exact ⟨placed, hmem, by rw [nameIn_eq_some.mpr hpath, Option.map_some]⟩

/-- A folder has each name once. -/
theorem nodup_readDir (files : FileSystem) (folder : List String) :
  ((files.readDir folder).map Prod.fst).Nodup
  := by
  have hnames : (files.readDir folder).map Prod.fst
      = (files.rows.map Placed.path).filterMap (nameIn folder) := by
    rw [FileSystem.readDir, List.map_filterMap, List.filterMap_map]
    congr 1
    funext placed
    rw [Option.map_map, Function.comp_apply]
    exact Option.map_id'
  rw [hnames]
  apply List.Nodup.filterMap _ files.nodup
  intro path path' name hname hname'
  rw [nameIn_eq_some.mp hname, nameIn_eq_some.mp hname']

/-! ### Where an archive writes -/

/-- What was there stays, and what comes to it is under a name of an archive, in the folder. -/
structure Confined (destination : List String) (files files' : FileSystem) : Prop where
  kept : ∀ path node, files.node? path = some node → files'.node? path = some node
  added : ∀ path, files.node? path = none → files'.node? path ≠ none →
    ∃ name ∈ archiveFiles, path = destination ++ [name]

theorem Confined.refl :
  Confined destination files files
  := ⟨fun _ _ h => h, fun _ h h' => absurd h h'⟩

theorem Confined.trans {files'' : FileSystem} (h : Confined destination files files')
    (h' : Confined destination files' files'') :
  Confined destination files files''
  := by
  refine ⟨fun path node hnode => h'.kept path node (h.kept path node hnode), ?_⟩
  intro path habsent hadded
  by_cases hthere : files'.node? path = none
  · exact h'.added path hthere hadded
  · exact h.added path habsent hthere

theorem entryName_eq_ok {extraction : Extraction} {entry : TarEntry} {name : String} :
  entryName extraction entry = .ok name
    ↔ entry.path = .ok (some name) ∧ componentCount name.toList = 1
      ∧ (name = "manifest.json" ∨ name ∈ archiveFiles) ∧ name ∉ extraction.names
      ∧ entry.entryType = .regular
  := by
  constructor
  · intro h
    obtain ⟨_, hpath, h⟩ := Fallible.bind_eq_ok.mp h
    obtain ⟨_, hname, h⟩ := Fallible.bind_eq_ok.mp h
    obtain ⟨_, hadmitted, h⟩ := Fallible.bind_eq_ok.mp h
    obtain ⟨_, hkind, h⟩ := Fallible.bind_eq_ok.mp h
    obtain rfl := Except.ok.inj h
    obtain ⟨hcount, hadmitted, hnew⟩ := Fallible.require_eq_ok.mp hadmitted
    rw [hpath, Fallible.present_eq_ok.mp hname]
    exact ⟨rfl, hcount, hadmitted, hnew, Fallible.require_eq_ok.mp hkind⟩
  · rintro ⟨hpath, hcount, hadmitted, hnew, hkind⟩
    apply Fallible.bind_eq_ok.mpr ⟨some name, hpath, ?_⟩
    apply Fallible.bind_eq_ok.mpr ⟨name, rfl, ?_⟩
    apply Fallible.bind_eq_ok.mpr ⟨(), Fallible.require_eq_ok.mpr ⟨hcount, hadmitted, hnew⟩, ?_⟩
    exact Fallible.bind_eq_ok.mpr ⟨(), Fallible.require_eq_ok.mpr hkind, rfl⟩

/-- A file is written under its name, or nothing is. -/
theorem extractFile_fst (files : FileSystem) (name : String) (entry : TarEntry) :
  (extractFile destination files name entry).1 = files
    ∨ files.createNew (destination ++ [name]) entry.data
      = .ok (extractFile destination files name entry).1
  := by
  rw [extractFile]
  split_ifs with hlarge
  · exact Or.inl rfl
  · cases hnew : files.createNew (destination ++ [name]) entry.data with
    | error failure => exact Or.inl rfl
    | ok files' =>
        right
        cases entry.failure <;> rfl

theorem extractFile_confined {name : String} (entry : TarEntry) (hname : name ∈ archiveFiles) :
  Confined destination files (extractFile destination files name entry).1
  := by
  obtain hsame | hnew := extractFile_fst files name entry
  · rw [hsame]
    exact Confined.refl
  · obtain ⟨habsent, hnode⟩ := node?_createNew hnew
    constructor
    · intro path node hthere
      rw [hnode, if_neg, hthere]
      rintro rfl
      rw [habsent] at hthere
      cases hthere
    · intro path hbefore hafter
      rw [hnode] at hafter
      split_ifs at hafter with hpath
      · exact ⟨name, hname, hpath⟩
      · exact absurd hbefore hafter

theorem extractEntry_confined (extraction : Extraction) (entry : TarEntry) :
  Confined destination files (extractEntry env destination files extraction entry).1
  := by
  rw [extractEntry]
  cases hentry : entryName extraction entry with
  | error failure => exact Confined.refl
  | ok name =>
      obtain ⟨_, _, hadmitted, _, _⟩ := entryName_eq_ok.mp hentry
      by_cases hmanifest : name = "manifest.json"
      · simp only [hmanifest, if_true]
        exact Confined.refl
      · simp only [hmanifest, if_false]
        have hfile : Confined destination files (extractFile destination files name entry).1 :=
          extractFile_confined entry (hadmitted.resolve_left hmanifest)
        split <;> simp_all

/-- Any entries whatever write only under the names of an archive. -/
theorem extractEntries_confined (extraction : Extraction)
    (entries : List (Except String TarEntry)) :
  Confined destination files (extractEntries env destination files extraction entries).1
  := by
  induction entries generalizing files extraction with
  | nil => exact Confined.refl
  | cons item rest ih =>
      cases item with
      | error failure => exact Confined.refl
      | ok entry =>
          have hstep : Confined destination files
              (extractEntry env destination files extraction entry).1 :=
            extractEntry_confined extraction entry
          rw [extractEntries]
          split
          · next files' failure heq =>
              rwa [heq] at hstep
          · next files' extraction' heq =>
              rw [heq] at hstep
              exact hstep.trans (ih extraction')

theorem validateAndExtract_confined (archive : List UInt8) (schemaVersion : UInt64) :
  Confined destination files (validateAndExtract env archive destination files schemaVersion).1
  := by
  rw [validateAndExtract]
  split
  · exact Confined.refl
  · next entries hentries =>
      have hrun : Confined destination files (extractEntries env destination files
            { names := [], manifest := none } entries).1 :=
        extractEntries_confined { names := [], manifest := none } entries
      split <;> simp_all

/-! ### What is accepted -/

theorem stagedName_eq_ok {found : String × Node} {name : String} :
  stagedName found = .ok name
    ↔ name = found.1 ∧ found.1 ∈ archiveFiles ∧ ∃ content, found.2 = .file content
  := by
  obtain ⟨name', node⟩ := found
  cases node with
  | file content =>
      constructor
      · intro h
        obtain ⟨_, hname, rfl⟩ := Fallible.map_eq_ok.mp h
        exact ⟨rfl, Fallible.require_eq_ok.mp hname, content, rfl⟩
      · rintro ⟨rfl, hname, -⟩
        exact Fallible.map_eq_ok.mpr ⟨(), Fallible.require_eq_ok.mpr hname, rfl⟩
  | directory => simp [stagedName]
  | symlink => simp [stagedName]
  | other => simp [stagedName]

theorem checkRecorded_eq_ok {entry : ManifestEntry} :
  checkRecorded env destination files entry = .ok ()
    ↔ ∃ content, files.node? (destination ++ [entry.name]) = some (.file content)
      ∧ content.size = entry.size ∧ env.sha256 content = entry.sha256
  := by
  constructor
  · intro h
    obtain ⟨content, hread, h⟩ := Fallible.bind_eq_ok.mp h
    obtain ⟨hsize, hsha⟩ := Prod.mk.inj (Fallible.require_eq_ok.mp h)
    exact ⟨content, read_eq_ok.mp hread, hsize, hsha⟩
  · rintro ⟨content, hnode, hsize, hsha⟩
    apply Fallible.bind_eq_ok.mpr ⟨content, read_eq_ok.mpr hnode, ?_⟩
    exact Fallible.require_eq_ok.mpr (Prod.ext hsize hsha)

/-- The names of a manifest. -/
def Manifest.names (manifest : Manifest) : List String := manifest.entries.map ManifestEntry.name

/-- What the manifest and the folder of a restore have to be. -/
structure Staged (env : ArchiveEnv) (destination : List String) (files : FileSystem)
    (manifest : Manifest) (schemaVersion : UInt64) : Prop where
  version : manifest.version = version ∧ manifest.schemaVersion = schemaVersion
  distinct : manifest.names.Nodup
  required : "votport.db" ∈ manifest.names ∧ "receipt.key" ∈ manifest.names
  admitted : ∀ name ∈ manifest.names, name ∈ archiveFiles ∧ name ≠ "manifest.json"
  present : ∀ name, files.node? (destination ++ [name]) ≠ none ↔ name ∈ manifest.names
  recorded : ∀ entry ∈ manifest.entries, checkRecorded env destination files entry = .ok ()
  identity : validateIdentityMaterial env (fun name => files.read (destination ++ [name]))
    manifest.names = .ok ()
  database : ∃ content, files.node? (destination ++ ["votport.db"]) = some (.file content)
    ∧ env.validateDatabaseConnection content schemaVersion = .ok ()

theorem staged_of_validateStagedRestore {manifest : Manifest} {schemaVersion : UInt64}
    (h : validateStagedRestore env destination files manifest schemaVersion = .ok ()) :
  Staged env destination files manifest schemaVersion
  := by
  obtain ⟨_, hversion, h⟩ := Fallible.bind_eq_ok.mp h
  obtain ⟨_, hnames, h⟩ := Fallible.bind_eq_ok.mp h
  obtain ⟨actual, hactual, h⟩ := Fallible.bind_eq_ok.mp h
  obtain ⟨_, _, h⟩ := Fallible.bind_eq_ok.mp h
  obtain ⟨_, hsame, h⟩ := Fallible.bind_eq_ok.mp h
  obtain ⟨_, hrecorded, h⟩ := Fallible.bind_eq_ok.mp h
  obtain ⟨_, hidentity, h⟩ := Fallible.bind_eq_ok.mp h
  obtain ⟨database, hread, h⟩ := Fallible.bind_eq_ok.mp h
  obtain ⟨_, _, hdatabase⟩ := Fallible.bind_eq_ok.mp h
  obtain ⟨hdistinct, hdb, hreceipt, hadmitted⟩ := Fallible.require_eq_ok.mp hnames
  obtain ⟨hsub, hsub'⟩ := Fallible.require_eq_ok.mp hsame
  have hactual : ∀ name, name ∈ actual ↔ ∃ node, (name, node) ∈ files.readDir destination := by
    have hmap := Fallible.map_of_mapM_eq_ok hactual
    intro name
    have hmem : (.ok name : Except String String) ∈ actual.map .ok ↔ name ∈ actual := by simp
    rw [← hmem, ← hmap, List.mem_map]
    constructor
    · rintro ⟨found, hfound, hname⟩
      obtain ⟨rfl, -⟩ := stagedName_eq_ok.mp hname
      exact ⟨found.2, hfound⟩
    · rintro ⟨node, hfound⟩
      have hthere : stagedName (name, node) ∈ (files.readDir destination).map stagedName :=
        List.mem_map_of_mem hfound
      rw [hmap] at hthere
      obtain ⟨name', _, hname'⟩ := List.mem_map.mp hthere
      obtain ⟨rfl, -⟩ := stagedName_eq_ok.mp hname'.symm
      exact ⟨_, hfound, hname'.symm⟩
  have hversion := Fallible.require_eq_ok.mp hversion
  refine ⟨hversion, hdistinct, ⟨hdb, hreceipt⟩, hadmitted, ?_, Fallible.forM_eq_ok.mp hrecorded,
    hidentity, database, read_eq_ok.mp hread, hdatabase⟩
  intro name
  rw [Option.ne_none_iff_exists']
  constructor
  · rintro ⟨node, hnode⟩
    exact hsub ((hactual name).mpr ⟨node, mem_readDir.mpr hnode⟩)
  · intro hname
    obtain ⟨node, hnode⟩ := (hactual name).mp (hsub' hname)
    exact ⟨node, mem_readDir.mp hnode⟩

theorem Staged.validateStagedRestore {manifest : Manifest} {schemaVersion : UInt64}
    (h : Staged env destination files manifest schemaVersion) :
  validateStagedRestore env destination files manifest schemaVersion = .ok ()
  := by
  have hstaged : ∀ found ∈ files.readDir destination, stagedName found = .ok found.1 := by
    rintro ⟨name, node⟩ hfound
    have hnode := mem_readDir.mp hfound
    have hname := (h.present name).mp (by rw [hnode]; exact Option.some_ne_none node)
    obtain ⟨entry, hentry, rfl⟩ := List.mem_map.mp hname
    obtain ⟨content, hcontent, -⟩ := checkRecorded_eq_ok.mp (h.recorded entry hentry)
    rw [hnode] at hcontent
    exact stagedName_eq_ok.mpr
      ⟨rfl, (h.admitted _ hname).1, content, Option.some.inj hcontent⟩
  have hnames : sameNames ((files.readDir destination).map Prod.fst) manifest.names := by
    constructor
    · intro name hname
      obtain ⟨⟨_, node⟩, hfound, rfl⟩ := List.mem_map.mp hname
      exact (h.present _).mp (by rw [mem_readDir.mp hfound]; exact Option.some_ne_none node)
    · intro name hname
      obtain ⟨node, hnode⟩ := Option.ne_none_iff_exists'.mp ((h.present name).mpr hname)
      exact List.mem_map.mpr ⟨(name, node), mem_readDir.mpr hnode, rfl⟩
  obtain ⟨database, hdb, hdatabase⟩ := h.database
  apply Fallible.bind_eq_ok.mpr ⟨(), Fallible.require_eq_ok.mpr h.version, ?_⟩
  apply Fallible.bind_eq_ok.mpr ⟨(), Fallible.require_eq_ok.mpr
    ⟨h.distinct, h.required.1, h.required.2, h.admitted⟩, ?_⟩
  apply Fallible.bind_eq_ok.mpr ⟨_, Fallible.mapM_of_forall hstaged, ?_⟩
  apply Fallible.bind_eq_ok.mpr
    ⟨(), Fallible.require_eq_ok.mpr (nodup_readDir files destination), ?_⟩
  apply Fallible.bind_eq_ok.mpr ⟨(), Fallible.require_eq_ok.mpr hnames, ?_⟩
  apply Fallible.bind_eq_ok.mpr ⟨(), Fallible.forM_eq_ok.mpr h.recorded, ?_⟩
  apply Fallible.bind_eq_ok.mpr ⟨(), h.identity, ?_⟩
  apply Fallible.bind_eq_ok.mpr ⟨database, read_eq_ok.mpr hdb, ?_⟩
  apply Fallible.bind_eq_ok.mpr ⟨(), Fallible.require_eq_ok.mpr h.version.2, hdatabase⟩

theorem checkExtraction_eq_ok {extraction : Extraction} {schemaVersion : UInt64}
    {manifest : Manifest} :
  checkExtraction env destination files extraction schemaVersion = .ok manifest
    ↔ extraction.manifest = some manifest
      ∧ sameNames manifest.names (extraction.names.filter (· ≠ "manifest.json"))
      ∧ Staged env destination files manifest schemaVersion
  := by
  constructor
  · intro h
    obtain ⟨_, hmanifest, h⟩ := Fallible.bind_eq_ok.mp h
    obtain ⟨_, hnames, h⟩ := Fallible.bind_eq_ok.mp h
    obtain ⟨_, hstaged, h⟩ := Fallible.bind_eq_ok.mp h
    obtain rfl := Except.ok.inj h
    exact ⟨Fallible.present_eq_ok.mp hmanifest, Fallible.require_eq_ok.mp hnames,
      staged_of_validateStagedRestore hstaged⟩
  · rintro ⟨hmanifest, hnames, hstaged⟩
    apply Fallible.bind_eq_ok.mpr ⟨manifest, Fallible.present_eq_ok.mpr hmanifest, ?_⟩
    apply Fallible.bind_eq_ok.mpr ⟨(), Fallible.require_eq_ok.mpr hnames, ?_⟩
    exact Fallible.bind_eq_ok.mpr ⟨(), hstaged.validateStagedRestore, rfl⟩

/-- The folder itself is there, and nothing is in it. -/
structure Fresh (destination : List String) (files : FileSystem) : Prop where
  folder : files.node? destination = some .directory
  empty : ∀ rest, rest ≠ [] → files.node? (destination ++ rest) = none

/-- The folder has the files of the manifest, each once and as it is recorded, the required ones
among them, and nothing else. -/
structure Holds (env : ArchiveEnv) (destination : List String) (files : FileSystem)
    (manifest : Manifest) : Prop where
  distinct : manifest.names.Nodup
  required : "votport.db" ∈ manifest.names ∧ "receipt.key" ∈ manifest.names
  recorded : ∀ entry ∈ manifest.entries, ∃ content,
    files.node? (destination ++ [entry.name]) = some (.file content)
      ∧ content.size = entry.size ∧ env.sha256 content = entry.sha256
  only : ∀ rest, rest ≠ [] → files.node? (destination ++ rest) ≠ none →
    ∃ name ∈ manifest.names, rest = [name]

theorem holds_of_validateAndExtract {archive : List UInt8} {schemaVersion : UInt64}
    {manifest : Manifest} (hfresh : Fresh destination files)
    (h : validateAndExtract env archive destination files schemaVersion = (files', .ok manifest)) :
  Holds env destination files' manifest
  := by
  have hconfined : Confined destination files
      (validateAndExtract env archive destination files schemaVersion).1 :=
    validateAndExtract_confined archive schemaVersion
  rw [h] at hconfined
  have hstaged : Staged env destination files' manifest schemaVersion := by
    rw [validateAndExtract] at h
    split at h
    · cases h
    · split at h
      · cases h
      · obtain ⟨rfl, hcheck⟩ := Prod.mk.inj h
        exact (checkExtraction_eq_ok.mp hcheck).2.2
  refine ⟨hstaged.distinct, hstaged.required, ?_, ?_⟩
  · intro entry hentry
    exact checkRecorded_eq_ok.mp (hstaged.recorded entry hentry)
  · intro rest hrest hthere
    obtain ⟨name, _, hpath⟩ := hconfined.added _ (hfresh.empty rest hrest) hthere
    obtain rfl := List.append_cancel_left hpath
    exact ⟨name, (hstaged.present name).mp hthere, rfl⟩

/-! ### What the entries of an archive do -/

theorem componentCount_archiveFiles {name : String} (h : name ∈ "manifest.json" :: archiveFiles) :
  componentCount name.toList = 1
  := by
  have hall : ∀ name ∈ "manifest.json" :: archiveFiles, componentCount name.toList = 1 := by
    decide +kernel
  exact hall name h

theorem ne_manifest {name : String} (h : name ∈ archiveFiles) :
  name ≠ "manifest.json"
  := by
  rintro rfl
  exact absurd h (by decide)

/-- A file that an entry brings is small enough, and is written anew, to its end. -/
theorem extractEntry_eq_ok {extraction extraction' : Extraction} {entry : TarEntry} {name : String}
    (hentry : entryName extraction entry = .ok name) (hname : name ≠ "manifest.json") :
  extractEntry env destination files extraction entry = (files', .ok extraction')
    ↔ (entry.size ≤ maxIdentity ∨ name = "votport.db")
      ∧ files.createNew (destination ++ [name]) entry.data = .ok files' ∧ entry.failure = none
      ∧ extraction' = { extraction with names := name :: extraction.names }
  := by
  simp only [extractEntry, hentry, hname, if_false, extractFile]
  by_cases hlarge : maxIdentity < entry.size ∧ name ≠ "votport.db"
  · rw [if_pos hlarge]
    have hnot : ¬(entry.size ≤ maxIdentity ∨ name = "votport.db") := by
      rintro (hsmall | rfl)
      · exact absurd hsmall (UInt64.not_le.mpr hlarge.1)
      · exact hlarge.2 rfl
    simp [hnot]
  · rw [if_neg hlarge]
    have hsmall : entry.size ≤ maxIdentity ∨ name = "votport.db" := by
      by_contra hnot
      rw [not_or, UInt64.not_le] at hnot
      exact hlarge hnot
    cases hnew : files.createNew (destination ++ [name]) entry.data with
    | error failure => simp
    | ok files'' =>
        cases entry.failure with
        | some failure => simp
        | none => simp [hsmall, eq_comm]

theorem extractEntries_cons {extraction extraction' : Extraction} {entry : TarEntry}
    {rest : List (Except String TarEntry)} :
  extractEntries env destination files extraction (.ok entry :: rest) = (files', .ok extraction')
    ↔ ∃ middle extraction'',
      extractEntry env destination files extraction entry = (middle, .ok extraction'')
        ∧ extractEntries env destination middle extraction'' rest = (files', .ok extraction')
  := by
  rw [extractEntries]
  rcases hentry : extractEntry env destination files extraction entry with
    ⟨middle, failure | extraction''⟩
  · simp
  · simp

/-- The files that are added one after the other are extracted one after the other. -/
theorem extractEntries_members {members : List TarMember} {extraction : Extraction}
    (hfolder : files.node? destination = some .directory)
    (hdistinct : (members.map TarMember.name).Nodup)
    (hnames : ∀ file ∈ members, file.name ∈ archiveFiles ∧ file.name ∉ extraction.names)
    (habsent : ∀ file ∈ members, files.node? (destination ++ [file.name]) = none)
    (hsize : ∀ file ∈ members, file.size ≤ maxIdentity ∨ file.name = "votport.db") :
  ∃ files', extractEntries env destination files extraction (members.map fun file => .ok file.entry)
      = (files', .ok { extraction with
          names := (members.map TarMember.name).reverse ++ extraction.names })
    ∧ (∀ file ∈ members, files'.node? (destination ++ [file.name]) = some (.file file.data))
    ∧ ∀ path, (∀ file ∈ members, path ≠ destination ++ [file.name]) →
        files'.node? path = files.node? path
  := by
  induction members generalizing files extraction with
  | nil => exact ⟨files, rfl, by simp, fun _ _ => rfl⟩
  | cons file members ih =>
      obtain ⟨hfirst, hdistinct⟩ := List.nodup_cons.mp hdistinct
      obtain ⟨⟨hname, hnew⟩, hnames⟩ := List.forall_mem_cons.mp hnames
      obtain ⟨hnone, habsent⟩ := List.forall_mem_cons.mp habsent
      obtain ⟨hsmall, hsize⟩ := List.forall_mem_cons.mp hsize
      obtain ⟨middle, hmiddle⟩ := createNew_of_absent file.data
        (by rw [List.dropLast_concat]; exact hfolder) hnone
      have hentry : entryName extraction file.entry = .ok file.name :=
        entryName_eq_ok.mpr ⟨rfl, componentCount_archiveFiles (List.mem_cons_of_mem _ hname),
          Or.inr hname, hnew, rfl⟩
      have hstep : extractEntry env destination files extraction file.entry
          = (middle, .ok { extraction with names := file.name :: extraction.names }) :=
        (extractEntry_eq_ok hentry (ne_manifest hname)).mpr ⟨hsmall, hmiddle, rfl, rfl⟩
      obtain ⟨_, hnode⟩ := node?_createNew hmiddle
      have hother : ∀ file' ∈ members, file'.name ≠ file.name := by
        intro file' hmem heq
        exact hfirst (heq ▸ List.mem_map_of_mem hmem)
      have hkept : Confined destination files
          (extractEntry env destination files extraction file.entry).1 :=
        extractEntry_confined extraction file.entry
      rw [hstep] at hkept
      obtain ⟨files', hrest, hthere, hsame⟩ := @ih middle
        { extraction with names := file.name :: extraction.names }
        (hkept.kept _ _ hfolder) hdistinct
        (fun file' hmem => ⟨(hnames file' hmem).1, by
          rw [List.mem_cons, not_or]
          exact ⟨hother file' hmem, (hnames file' hmem).2⟩⟩)
        (fun file' hmem => by
          rw [hnode, if_neg, habsent file' hmem]
          intro heq
          exact hother file' hmem (List.singleton_inj.mp (List.append_cancel_left heq)))
        hsize
      refine ⟨files', ?_, ?_, ?_⟩
      · rw [List.map_cons]
        apply extractEntries_cons.mpr ⟨middle, _, hstep, ?_⟩
        rw [hrest]
        simp
      · apply List.forall_mem_cons.mpr ⟨?_, hthere⟩
        have hkept' : Confined destination middle (extractEntries env destination middle
              { extraction with names := file.name :: extraction.names }
              (members.map fun file => .ok file.entry)).1 :=
          extractEntries_confined _ _
        rw [hrest] at hkept'
        exact hkept'.kept _ _ (by rw [hnode, if_pos rfl])
      · intro path hpath
        obtain ⟨hpath, hpaths⟩ := List.forall_mem_cons.mp hpath
        rw [hsame path hpaths, hnode, if_neg hpath]

/-- Files that are extracted are small enough, and are what the entries brought. -/
theorem of_extractEntries {members : List TarMember} {extraction extraction' : Extraction}
    (hnames : ∀ file ∈ members, file.name ∈ archiveFiles)
    (h : extractEntries env destination files extraction (members.map fun file => .ok file.entry)
      = (files', .ok extraction')) :
  ∀ file ∈ members, (file.size ≤ maxIdentity ∨ file.name = "votport.db")
    ∧ files'.node? (destination ++ [file.name]) = some (.file file.data)
  := by
  induction members generalizing files extraction with
  | nil => simp
  | cons file members ih =>
      obtain ⟨hname, hnames⟩ := List.forall_mem_cons.mp hnames
      obtain ⟨middle, extraction'', hstep, hrest⟩ := extractEntries_cons.mp h
      apply List.forall_mem_cons.mpr ⟨?_, ih hnames hrest⟩
      cases hentry : entryName extraction file.entry with
      | error failure =>
          rw [extractEntry, hentry] at hstep
          cases hstep
      | ok name =>
          obtain ⟨hpath, -⟩ := entryName_eq_ok.mp hentry
          obtain rfl : file.name = name := Option.some.inj (Except.ok.inj hpath)
          obtain ⟨hsmall, hnew, -⟩ := (extractEntry_eq_ok hentry (ne_manifest hname)).mp hstep
          have hkept : Confined destination middle (extractEntries env destination middle
                extraction'' (members.map fun file => .ok file.entry)).1 :=
            extractEntries_confined _ _
          rw [hrest] at hkept
          refine ⟨hsmall, hkept.kept _ _ ?_⟩
          rw [(node?_createNew hnew).2, if_pos rfl]
          rfl

end Votport.Backup
