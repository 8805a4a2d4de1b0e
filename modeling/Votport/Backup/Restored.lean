import Mathlib.Logic.Equiv.List
import Votport.Backup.Extracted

/-!
# What a backup restores

The archive of a run is accepted, and gives back what the manifest was made of, when each identity
file is the same when it is hashed and when it is added.  A file that is replaced in between is
added as it is then, under the hash of what it was.
-/

namespace Votport.Backup

variable {env : ArchiveEnv} {run : ArchiveRun} {schemaVersion : UInt64}

/-! ### The identity of a port -/

/-- Only the names of identity files matter, and what is read of those that are there. -/
theorem validateIdentityMaterial_congr {read read' : String → Except String Content}
    {names names' : List String}
    (hnames : ∀ name ∈ identityNames, name ∈ names ↔ name ∈ names')
    (hread : ∀ name ∈ identityNames, name ∈ names → read name = read' name) :
  validateIdentityMaterial env read names = validateIdentityMaterial env read' names'
  := by
  have hsize : ∀ name ∈ identityNames,
      validateKeySize env read names name = validateKeySize env read' names' name := by
    intro name hname
    rw [validateKeySize, validateKeySize]
    by_cases hmem : name ∈ names
    · rw [if_pos hmem, if_pos ((hnames name hname).mp hmem), hread name hname hmem]
    · rw [if_neg hmem, if_neg (mt (hnames name hname).mpr hmem)]
  have hcertificate := hnames "push.crt" (by decide)
  have hkey := hnames "push.key" (by decide)
  rw [validateIdentityMaterial, validateIdentityMaterial, hsize _ (by decide), hsize _ (by decide)]
  by_cases hboth : "push.crt" ∈ names ↔ "push.key" ∈ names
  · have hpair : (if "push.crt" ∈ names then validatePair env read else .ok ())
        = if "push.crt" ∈ names' then validatePair env read' else .ok () := by
      by_cases hmem : "push.crt" ∈ names
      · rw [if_pos hmem, if_pos (hcertificate.mp hmem), validatePair, validatePair,
          hread _ (by decide) hmem, hread _ (by decide) (hboth.mp hmem)]
      · rw [if_neg hmem, if_neg (mt hcertificate.mpr hmem)]
    have hboth' : "push.crt" ∈ names' ↔ "push.key" ∈ names' := by
      rw [← hcertificate, ← hkey]
      exact hboth
    rw [hpair, Fallible.require, Fallible.require, if_pos hboth, if_pos hboth']
  · have hboth' : ¬("push.crt" ∈ names' ↔ "push.key" ∈ names') := by
      rw [← hcertificate, ← hkey]
      exact hboth
    rw [Fallible.require, Fallible.require, if_neg hboth, if_neg hboth']
    rfl

/-! ### What a run archives -/

theorem identities_sublist (run : ArchiveRun) : (identities run).Sublist identityNames :=
  List.filter_sublist

theorem mem_archiveFiles {name : String} (h : name ∈ identities run) :
  name ∈ archiveFiles ∧ name ≠ "votport.db"
  := by
  have hname := (identities_sublist run).subset h
  constructor
  · exact List.mem_cons_of_mem _ hname
  · rintro rfl
    exact absurd hname (by decide)

/-- What was found in a run that made an archive. -/
structure Made (env : ArchiveEnv) (run : ArchiveRun) (schemaVersion : UInt64) (snapshot : Content)
    (entries : List ManifestEntry) (content : Content) (added : List TarMember) : Prop where
  taken : run.snapshot = .ok snapshot
  receipt : "receipt.key" ∈ identities run
  recorded : (identities run).map (fun name => (run.hashed name).map (manifestEntry env name))
    = entries.map .ok
  manifest : manifestContent (env.toVec (archiveManifest env run schemaVersion snapshot entries))
    = some content
  members : (identities run).map (addFile env run) = added.map .ok

theorem made_of_createArchive {manifest : Manifest} {archive : List UInt8}
    (h : createArchive env run schemaVersion = .ok (manifest, archive)) :
  ∃ snapshot entries content added,
    Made env run schemaVersion snapshot entries content added
    ∧ manifest = archiveManifest env run schemaVersion snapshot entries
    ∧ archive = env.build (archiveMembers env content snapshot added)
  := by
  obtain ⟨snapshot, hsnapshot, h⟩ := Fallible.bind_eq_ok.mp h
  obtain ⟨_, hreceipt, h⟩ := Fallible.bind_eq_ok.mp h
  obtain ⟨_, _, h⟩ := Fallible.bind_eq_ok.mp h
  obtain ⟨entries, hentries, h⟩ := Fallible.bind_eq_ok.mp h
  obtain ⟨content, hcontent, h⟩ := Fallible.bind_eq_ok.mp h
  obtain ⟨added, hadded, h⟩ := Fallible.bind_eq_ok.mp h
  obtain ⟨rfl, rfl⟩ := Prod.mk.inj (Except.ok.inj h)
  refine ⟨snapshot, entries, content, added, ⟨hsnapshot, Fallible.require_eq_ok.mp hreceipt,
    Fallible.map_of_mapM_eq_ok hentries, Fallible.present_eq_ok.mp hcontent,
    Fallible.map_of_mapM_eq_ok hadded⟩, rfl, rfl⟩

section

variable {snapshot content : Content} {entries : List ManifestEntry} {added : List TarMember}

theorem manifestEntry_of_map {name : String} {entry : ManifestEntry}
    (h : (run.hashed name).map (manifestEntry env name) = .ok entry) :
  ∃ content, run.hashed name = .ok content ∧ entry = manifestEntry env name content
  := by
  obtain ⟨content, hcontent, rfl⟩ := Fallible.map_eq_ok.mp h
  exact ⟨content, hcontent, rfl⟩

theorem addFile_eq_ok {name : String} {file : TarMember} :
  addFile env run name = .ok file
    ↔ ∃ measured copied, run.measured name = .ok measured ∧ run.copied name = .ok copied
      ∧ file = { name := name, size := measured.size, data := copied }
  := by
  constructor
  · intro h
    obtain ⟨measured, hmeasured, h⟩ := Fallible.bind_eq_ok.mp h
    obtain ⟨copied, hcopied, h⟩ := Fallible.bind_eq_ok.mp h
    obtain rfl := Except.ok.inj h
    exact ⟨measured, copied, hmeasured, hcopied, rfl⟩
  · rintro ⟨measured, copied, hmeasured, hcopied, rfl⟩
    exact Fallible.bind_eq_ok.mpr ⟨measured, hmeasured,
      Fallible.bind_eq_ok.mpr ⟨copied, hcopied, rfl⟩⟩

theorem Made.manifest_names (h : Made env run schemaVersion snapshot entries content added) :
  (archiveManifest env run schemaVersion snapshot entries).names = "votport.db" :: identities run
  := by
  have hnames : entries.map ManifestEntry.name = (identities run).map id := by
    apply Fallible.map_of_map_ok h.recorded
    intro name entry hentry
    obtain ⟨_, _, rfl⟩ := manifestEntry_of_map hentry
    rfl
  rw [Manifest.names, archiveManifest, List.map_cons, hnames, List.map_id]
  rfl

theorem Made.added_names (h : Made env run schemaVersion snapshot entries content added) :
  added.map TarMember.name = identities run
  := by
  have hnames : added.map TarMember.name = (identities run).map id := by
    apply Fallible.map_of_map_ok h.members
    intro name file hfile
    obtain ⟨_, _, _, _, rfl⟩ := addFile_eq_ok.mp hfile
    rfl
  rw [hnames, List.map_id]

theorem of_manifestContent {bytes : List UInt8} (h : manifestContent bytes = some content) :
  content.1 = bytes ∧ content.size ≤ maxManifest
  := by
  rw [manifestContent, Option.dite_none_right_eq_some] at h
  obtain ⟨hle, heq⟩ := h
  obtain rfl := Option.some.inj heq
  refine ⟨rfl, ?_⟩
  rw [UInt64.le_iff_toNat_le, Content.size, UInt64.toNat_ofNat_of_lt']
  · exact hle
  · exact lt_of_le_of_lt hle maxManifest.toNat_lt

/-- Everything that is added has the size of its header. -/
def Fitting (added : List TarMember) : Prop := ∀ file ∈ added, file.size = file.data.size

/-- The manifest comes first, and then the files come. -/
theorem Made.validateAndExtract (hlaw : env.Lawful)
    (h : Made env run schemaVersion snapshot entries content added) (hfitting : Fitting added)
    (destination : List String) (files : FileSystem) :
  let manifest := archiveManifest env run schemaVersion snapshot entries
  let database : TarMember := { name := "votport.db", size := snapshot.size, data := snapshot }
  validateAndExtract env (env.build (archiveMembers env content snapshot added))
      destination files schemaVersion
    = match extractEntries env destination files
        { names := ["manifest.json"], manifest := some manifest }
        ((database :: added).map fun file => .ok file.entry) with
      | (files', .error failure) => (files', .error failure)
      | (files', .ok extraction) =>
          (files', checkExtraction env destination files' extraction schemaVersion)
  := by
  intro manifest database
  have hnames : ∀ file ∈ added, file.name ∈ archiveFiles := by
    intro file hfile
    have hname : file.name ∈ added.map TarMember.name := List.mem_map_of_mem hfile
    rw [h.added_names] at hname
    exact (mem_archiveFiles hname).1
  have hentries : env.entries (env.build (archiveMembers env content snapshot added))
      = .ok ((archiveMembers env content snapshot added).map
          fun file => .ok file.entry) := by
    apply hlaw.archive
    intro file hfile
    obtain rfl | hfile := List.mem_cons.mp hfile
    · exact ⟨List.mem_cons_self .., rfl⟩
    obtain rfl | hfile := List.mem_cons.mp hfile
    · exact ⟨List.mem_cons_of_mem _ (List.mem_cons_self ..), rfl⟩
    · exact ⟨List.mem_cons_of_mem _ (hnames file hfile), hfitting file hfile⟩
  have hfirst : extractEntry env destination files { names := [], manifest := none }
      (TarMember.entry { name := "manifest.json", size := content.size, data := content })
      = (files, .ok { names := ["manifest.json"], manifest := some manifest }) := by
    have hentry : entryName { names := [], manifest := none }
        (TarMember.entry { name := "manifest.json", size := content.size, data := content })
      = .ok "manifest.json" :=
      entryName_eq_ok.mpr ⟨rfl, componentCount_archiveFiles (by decide), Or.inl rfl,
        List.not_mem_nil, rfl⟩
    have hread : readManifest env (TarMember.entry
        { name := "manifest.json", size := content.size, data := content })
        = .ok manifest := by
      obtain ⟨hbytes, hsmall⟩ := of_manifestContent h.manifest
      apply Fallible.bind_eq_ok.mpr ⟨(), Fallible.require_eq_ok.mpr hsmall, ?_⟩
      apply Fallible.present_eq_ok.mpr
      rw [← hlaw.manifest manifest, ← hbytes]
      rfl
    rw [extractEntry, hentry]
    simp only [if_true, hread]
    rfl
  rw [Backup.validateAndExtract, hentries]
  simp only [archiveMembers, List.map_cons]
  rw [extractEntries, hfirst]
  rfl

end

/-! ### What is restored -/

/-- Each identity file is the same when it is hashed and when it is added, is measured with its
size, is not too large, and is one that a restore takes. -/
structure Steady (env : ArchiveEnv) (run : ArchiveRun) : Prop where
  same : ∀ name ∈ identities run, ∃ content measured, run.hashed name = .ok content
    ∧ run.copied name = .ok content ∧ run.measured name = .ok measured
    ∧ measured.size = content.size ∧ content.size ≤ maxIdentity
  valid : validateIdentityMaterial env run.hashed (identities run) = .ok ()

/-- No identity file changes its size between being measured and being copied. -/
def Measured (run : ArchiveRun) : Prop :=
  ∀ name ∈ identities run, ∀ measured copied, run.measured name = .ok measured →
    run.copied name = .ok copied → measured.size = copied.size

/-- The archive is accepted, and gives back the files that the manifest was made of. -/
def Restores (env : ArchiveEnv) (run : ArchiveRun) (schemaVersion : UInt64) (manifest : Manifest)
    (archive : List UInt8) (destination : List String) (files : FileSystem) : Prop :=
  ∃ files', validateAndExtract env archive destination files schemaVersion = (files', .ok manifest)
    ∧ (∀ snapshot, run.snapshot = .ok snapshot →
        files'.node? (destination ++ ["votport.db"]) = some (.file snapshot))
    ∧ ∀ name ∈ identities run, ∀ content, run.hashed name = .ok content →
        files'.node? (destination ++ [name]) = some (.file content)

section

variable {snapshot content : Content} {entries : List ManifestEntry} {added : List TarMember}
  {destination : List String} {files : FileSystem}

theorem Made.nodup (h : Made env run schemaVersion snapshot entries content added) :
  ("votport.db" :: added.map TarMember.name).Nodup
  := by
  rw [h.added_names]
  apply ((identities_sublist run).cons_cons "votport.db").nodup
  decide

theorem Made.mem_added (h : Made env run schemaVersion snapshot entries content added)
    {file : TarMember}
    (hfile : file ∈ added) :
  file.name ∈ archiveFiles ∧ ∃ measured, run.measured file.name = .ok measured
    ∧ run.copied file.name = .ok file.data ∧ file.size = measured.size
    ∧ file.name ∈ identities run
  := by
  obtain ⟨name, hname, hadd⟩ := (Fallible.exists_of_map_ok h.members).1 file hfile
  obtain ⟨measured, copied, hmeasured, hcopied, rfl⟩ := addFile_eq_ok.mp hadd
  exact ⟨(mem_archiveFiles hname).1, measured, hmeasured, hcopied, rfl, hname⟩

theorem Made.exists_added (h : Made env run schemaVersion snapshot entries content added)
    {name : String}
    (hname : name ∈ identities run) :
  ∃ file ∈ added, file.name = name
  := by
  rw [← h.added_names] at hname
  obtain ⟨file, hfile, rfl⟩ := List.mem_map.mp hname
  exact ⟨file, hfile, rfl⟩

/-- A steady run is restored. -/
theorem Made.restores (hlaw : env.Lawful)
    (h : Made env run schemaVersion snapshot entries content added)
    (hdatabase : env.validateDatabaseConnection snapshot schemaVersion = .ok ())
    (hsteady : Steady env run) (hfresh : Fresh destination files) :
  let manifest := archiveManifest env run schemaVersion snapshot entries
  Restores env run schemaVersion manifest
    (env.build (archiveMembers env content snapshot added)) destination files
  := by
  intro manifest
  have hsame : ∀ file ∈ added, run.hashed file.name = .ok file.data ∧ file.size = file.data.size
      ∧ file.size ≤ maxIdentity := by
    intro file hfile
    obtain ⟨_, measured, hmeasured, hcopied, hsize, hname⟩ := h.mem_added hfile
    obtain ⟨content, measured', hhashed, hcopied', hmeasured', hsize', hsmall⟩ :=
      hsteady.same _ hname
    rw [hcopied] at hcopied'
    rw [hmeasured] at hmeasured'
    obtain rfl := Except.ok.inj hcopied'
    obtain rfl := Except.ok.inj hmeasured'
    exact ⟨hhashed, hsize.trans hsize', by rw [hsize, hsize']; exact hsmall⟩
  have hextract := h.validateAndExtract hlaw (fun file hfile => (hsame file hfile).2.1)
    destination files
  obtain ⟨files', hrun, hthere, helse⟩ := @extractEntries_members env destination files
    ({ name := "votport.db", size := snapshot.size, data := snapshot } :: added)
    { names := ["manifest.json"], manifest := some manifest }
    hfresh.folder h.nodup
    (by
      rw [List.forall_mem_cons]
      constructor
      · exact ⟨List.mem_cons_self .., ne_of_beq_false rfl ∘ List.mem_singleton.mp⟩
      · intro file hfile
        have hname := (h.mem_added hfile).1
        exact ⟨hname, fun hmem => ne_manifest hname (List.mem_singleton.mp hmem)⟩)
    (fun file _ => hfresh.empty _ (List.cons_ne_nil _ _))
    (by
      rw [List.forall_mem_cons]
      constructor
      · exact Or.inr rfl
      · intro file hfile
        exact Or.inl (hsame file hfile).2.2)
  obtain ⟨hsnapshot, hthere⟩ := List.forall_mem_cons.mp hthere
  have hfile : ∀ name ∈ identities run, ∀ content, run.hashed name = .ok content →
      files'.node? (destination ++ [name]) = some (.file content) := by
    intro name hname content hcontent
    obtain ⟨file, hfile, rfl⟩ := h.exists_added hname
    rw [(hsame file hfile).1] at hcontent
    obtain rfl := Except.ok.inj hcontent
    exact hthere file hfile
  have hstaged : Staged env destination files' manifest schemaVersion := by
    refine ⟨⟨rfl, rfl⟩, ?_, ?_, ?_, ?_, ?_, ?_, snapshot, hsnapshot, hdatabase⟩
    · rw [h.manifest_names, ← h.added_names]
      exact h.nodup
    · rw [h.manifest_names]
      exact ⟨List.mem_cons_self .., List.mem_cons_of_mem _ h.receipt⟩
    · rw [h.manifest_names]
      rw [List.forall_mem_cons]
      constructor
      · decide
      · intro name hname
        have hname := (mem_archiveFiles hname).1
        exact ⟨hname, ne_manifest hname⟩
    · intro name
      rw [h.manifest_names, ← h.added_names]
      constructor
      · intro hnode
        by_contra hnot
        apply hnode
        rw [helse, hfresh.empty _ (List.cons_ne_nil _ _)]
        intro file hfile heq
        apply hnot
        rw [List.singleton_inj.mp (List.append_cancel_left heq)]
        obtain rfl | hfile := List.mem_cons.mp hfile
        · exact List.mem_cons_self ..
        · exact List.mem_cons_of_mem _ (List.mem_map_of_mem hfile)
      · intro hname
        obtain rfl | hname := List.mem_cons.mp hname
        · rw [hsnapshot]
          exact Option.some_ne_none _
        · obtain ⟨file, hfile, rfl⟩ := List.mem_map.mp hname
          rw [hthere file hfile]
          exact Option.some_ne_none _
    · intro entry hentry
      obtain rfl | hentry := List.mem_cons.mp hentry
      · exact checkRecorded_eq_ok.mpr ⟨snapshot, hsnapshot, rfl, rfl⟩
      obtain ⟨name, hname, hmade⟩ := (Fallible.exists_of_map_ok h.recorded).1 entry hentry
      obtain ⟨content, hcontent, rfl⟩ := manifestEntry_of_map hmade
      exact checkRecorded_eq_ok.mpr ⟨content, hfile name hname content hcontent, rfl, rfl⟩
    · rw [← hsteady.valid, h.manifest_names]
      apply validateIdentityMaterial_congr
      · intro name hname
        rw [List.mem_cons, or_iff_right]
        rintro rfl
        exact absurd hname (by decide)
      · intro name hname hmem
        obtain rfl | hmem := List.mem_cons.mp hmem
        · exact absurd hname (by decide)
        · obtain ⟨content, _, hcontent, _⟩ := hsteady.same name hmem
          rw [hcontent]
          exact read_eq_ok.mpr (hfile name hmem content hcontent)
  refine ⟨files', ?_, ?_, hfile⟩
  · rw [hextract, hrun]
    apply congrArg (Prod.mk files')
    apply checkExtraction_eq_ok.mpr ⟨rfl, ?_, hstaged⟩
    have hnames : (((("votport.db" :: added.map TarMember.name).reverse
        ++ ["manifest.json"]).filter (· ≠ "manifest.json")))
        = ("votport.db" :: added.map TarMember.name).reverse := by
      rw [List.filter_append, List.filter_eq_self.mpr, List.filter_eq_nil_iff.mpr, List.append_nil]
      · simp
      · intro name hname
        rw [List.mem_reverse, h.added_names, List.mem_cons] at hname
        obtain rfl | hname := hname
        · decide
        · exact decide_eq_true (ne_manifest (mem_archiveFiles hname).1)
    have hmanifest : manifest.names = "votport.db" :: added.map TarMember.name := by
      rw [h.added_names]
      exact h.manifest_names
    rw [hmanifest]
    simp only [List.map_cons] at hnames ⊢
    rw [hnames]
    exact ⟨fun name hname => List.mem_reverse.mpr hname, fun name hname =>
      List.mem_reverse.mp hname⟩
  · intro snapshot' hsnapshot'
    rw [h.taken] at hsnapshot'
    obtain rfl := Except.ok.inj hsnapshot'
    exact hsnapshot

/-- A run that is restored was steady, when nothing changed its size while it was added. -/
theorem Made.steady (hlaw : env.Lawful)
    (h : Made env run schemaVersion snapshot entries content added)
    (hmeasured : Measured run)
    (hrestores : Restores env run schemaVersion
      (archiveManifest env run schemaVersion snapshot entries)
      (env.build (archiveMembers env content snapshot added))
      destination files) :
  Steady env run
  := by
  have hfitting : Fitting added := by
    intro file hfile
    obtain ⟨_, measured, hsize, hcopied, heq, hname⟩ := h.mem_added hfile
    rw [heq]
    exact hmeasured _ hname _ _ hsize hcopied
  obtain ⟨files', hextract, -, hfile⟩ := hrestores
  rw [h.validateAndExtract hlaw hfitting destination files] at hextract
  split at hextract
  · cases hextract
  next files'' extraction hrun =>
  obtain ⟨rfl, hcheck⟩ := Prod.mk.inj hextract
  obtain ⟨_, _, hstaged⟩ := checkExtraction_eq_ok.mp hcheck
  have hnames : ∀ file ∈ ({ name := "votport.db", size := snapshot.size, data := snapshot }
      : TarMember) :: added, file.name ∈ archiveFiles := by
    rw [List.forall_mem_cons]
    exact ⟨List.mem_cons_self .., fun file hfile => (h.mem_added hfile).1⟩
  have hthere := of_extractEntries hnames hrun
  obtain ⟨_, hthere⟩ := List.forall_mem_cons.mp hthere
  have hhashed : ∀ file ∈ added, run.hashed file.name = .ok file.data
      ∧ file.size ≤ maxIdentity := by
    intro file hmem
    obtain ⟨_, _, _, _, _, hname⟩ := h.mem_added hmem
    obtain ⟨entry, _, hmade⟩ := (Fallible.exists_of_map_ok h.recorded).2 _ hname
    obtain ⟨content, hcontent, _⟩ := manifestEntry_of_map hmade
    obtain ⟨hsmall, hnode⟩ := hthere file hmem
    rw [hfile _ hname content hcontent] at hnode
    obtain rfl := Node.file.inj (Option.some.inj hnode)
    exact ⟨hcontent, hsmall.resolve_right (mem_archiveFiles hname).2⟩
  constructor
  · intro name hname
    obtain ⟨file, hmem, rfl⟩ := h.exists_added hname
    obtain ⟨_, measured, hsize, hcopied, heq, _⟩ := h.mem_added hmem
    obtain ⟨hcontent, hsmall⟩ := hhashed file hmem
    have hfits := hfitting file hmem
    exact ⟨file.data, measured, hcontent, hcopied, hsize, heq.symm.trans hfits,
      by rw [← hfits]; exact hsmall⟩
  · rw [← hstaged.identity, h.manifest_names]
    apply validateIdentityMaterial_congr
    · intro name hname
      rw [List.mem_cons, or_iff_right]
      rintro rfl
      exact absurd hname (by decide)
    · intro name _ hmem
      obtain ⟨file, hadd, rfl⟩ := h.exists_added hmem
      obtain ⟨hcontent, _⟩ := hhashed file hadd
      rw [hcontent]
      exact (read_eq_ok.mpr (hthere file hadd).2).symm

end

/-- The archive of a run gives back the files that the manifest was made of exactly when the
identity files were steady, as far as their sizes were while they were added.  An archive that is
accepted leaves the files of its manifest and nothing else, and any archive only adds files in the
folder, under the names of an archive. -/
theorem archives_restored (env : ArchiveEnv) (hlaw : env.Lawful) (destination : List String)
    (files : FileSystem) (hfresh : Fresh destination files) (schemaVersion : UInt64) :
  (∀ run manifest archive snapshot, createArchive env run schemaVersion = .ok (manifest, archive) →
    run.snapshot = .ok snapshot → env.validateDatabaseConnection snapshot schemaVersion = .ok () →
    (Steady env run → Restores env run schemaVersion manifest archive destination files)
      ∧ (Measured run → Restores env run schemaVersion manifest archive destination files →
          Steady env run))
  ∧ (∀ archive files' manifest,
      validateAndExtract env archive destination files schemaVersion = (files', .ok manifest) →
      Holds env destination files' manifest)
  ∧ ∀ archive,
      Confined destination files (validateAndExtract env archive destination files schemaVersion).1
  := by
  refine ⟨?_, ?_, ?_⟩
  · intro run manifest archive snapshot hcreate hsnapshot hdatabase
    obtain ⟨snapshot', entries, content, added, hmade, rfl, rfl⟩ := made_of_createArchive hcreate
    obtain rfl : snapshot' = snapshot := Except.ok.inj (hmade.taken.symm.trans hsnapshot)
    constructor
    · intro hsteady
      exact hmade.restores hlaw hdatabase hsteady hfresh
    · intro hmeasured hrestores
      exact hmade.steady hlaw hmeasured hrestores
  · intro archive files' manifest h
    exact holds_of_validateAndExtract hfresh h
  · intro archive
    exact validateAndExtract_confined archive schemaVersion

/-- Identity files that are not replaced are steady. -/
theorem steady_of_unreplaced {manifest : Manifest} {archive : List UInt8}
    (h : createArchive env run schemaVersion = .ok (manifest, archive))
    (hhashed : run.hashed = run.validated) (hmeasured : run.measured = run.hashed)
    (hcopied : run.copied = run.hashed)
    (hlisted : ∀ name found content, run.listed name = some found →
      run.hashed name = .ok content → found.length = content.size) :
  Steady env run
  := by
  obtain ⟨_, _, h⟩ := Fallible.bind_eq_ok.mp h
  obtain ⟨_, _, h⟩ := Fallible.bind_eq_ok.mp h
  obtain ⟨_, hvalid, h⟩ := Fallible.bind_eq_ok.mp h
  obtain ⟨entries, hentries, -⟩ := Fallible.bind_eq_ok.mp h
  constructor
  · intro name hname
    obtain ⟨entry, _, hentry⟩ :=
      (Fallible.exists_of_map_ok (Fallible.map_of_mapM_eq_ok hentries)).2 name hname
    obtain ⟨content, hcontent, _⟩ := manifestEntry_of_map hentry
    obtain ⟨found, hfound, hsmall⟩ := Option.any_eq_true _ _ |>.mp (List.mem_filter.mp hname).2
    refine ⟨content, content, hcontent, by rw [hcopied, hcontent], by rw [hmeasured, hcontent],
      rfl, ?_⟩
    rw [← hlisted name found content hfound hcontent]
    exact of_decide_eq_true (Bool.and_eq_true_iff.mp hsmall).2
  · rw [hhashed]
    exact hvalid

/-! ### A file that is replaced -/

/-- What a manifest is as numbers. -/
def Manifest.numbers (manifest : Manifest) : ℕ × ℕ × ℕ × List (List ℕ × ℕ × List ℕ) :=
  (manifest.version.toNat, manifest.createdAt.toNat, manifest.schemaVersion.toNat,
    manifest.entries.map fun entry =>
      (entry.name.toList.map Char.toNat, entry.size.toNat, entry.sha256.toList.map Char.toNat))

/-- The text of characters with these numbers. -/
def textOf (numbers : List ℕ) : String := String.ofList (numbers.map Char.ofNat)

/-- The manifest of these numbers. -/
def Manifest.ofNumbers (numbers : ℕ × ℕ × ℕ × List (List ℕ × ℕ × List ℕ)) : Manifest :=
  { version := UInt32.ofNat numbers.1
    createdAt := UInt64.ofNat numbers.2.1
    schemaVersion := UInt64.ofNat numbers.2.2.1
    entries := numbers.2.2.2.map fun entry =>
      { name := textOf entry.1, size := UInt64.ofNat entry.2.1, sha256 := textOf entry.2.2 } }

theorem textOf_numbers (text : String) : textOf (text.toList.map Char.toNat) = text := by
  simp [textOf, Function.comp_def]

theorem Manifest.ofNumbers_numbers (manifest : Manifest) :
  ofNumbers manifest.numbers = manifest
  := by
  simp [ofNumbers, numbers, Function.comp_def, textOf_numbers]

/-- What members are as numbers. -/
def memberNumbers (members : List TarMember) : List (List ℕ × ℕ × List ℕ) :=
  members.map fun file =>
    (file.name.toList.map Char.toNat, file.size.toNat, file.data.1.map UInt8.toNat)

/-- The content of these bytes. -/
def contentOf (bytes : List UInt8) : Content :=
  if h : bytes.length < 2 ^ 64 then ⟨bytes, h⟩ else ⟨[], by decide⟩

/-- The members of these numbers. -/
def membersOf (numbers : List (List ℕ × ℕ × List ℕ)) : List TarMember :=
  numbers.map fun file =>
    { name := textOf file.1, size := UInt64.ofNat file.2.1,
      data := contentOf (file.2.2.map UInt8.ofNat) }

theorem membersOf_memberNumbers (members : List TarMember) :
  membersOf (memberNumbers members) = members
  := by
  have hcontent : ∀ content : Content, contentOf content.1 = content := fun content =>
    dif_pos content.2
  simp [membersOf, memberNumbers, Function.comp_def, textOf_numbers, hcontent]

/-- As many zeros as the number that stands for the value. -/
def zeros {α : Type} [Encodable α] (value : α) : List UInt8 :=
  List.replicate (Encodable.encode value) 0

/-- The value for which as many bytes stand. -/
def ofZeros {α : Type} [Encodable α] (bytes : List UInt8) : Option α :=
  Encodable.decode bytes.length

theorem ofZeros_zeros {α : Type} [Encodable α] (value : α) :
  ofZeros (zeros value) = some value
  := by
  rw [ofZeros, zeros, List.length_replicate, Encodable.encodek]

/-- A snapshot. -/
def sampleSnapshot : Content := ⟨[83, 81, 76, 105, 116, 101], by decide⟩

/-- A key of one byte. -/
def sampleKey (byte : UInt8) : Content := ⟨List.replicate 32 byte, by simp⟩

/-- The hashes of some files. -/
def sampleSha256 (content : Content) : String :=
  if content = sampleSnapshot then
    "2d2eef3e092af52b5837160fe2e3954907a4bfed1469edd2e6422749a6b16b7a"
  else if content = sampleKey 7 then
    "4bb06f8e4e3a7715d201d573d0aa423762e55dabd61a2c02278fa56cc6d294e0"
  else if content = sampleKey 8 then
    "2578ccf8645b2d1dc10c465eff843585970f3a7e22296a92cad55d489a272072"
  else ""

/-- The manifest of a snapshot and a key. -/
def sampleManifest : Manifest :=
  { version := 2, createdAt := 1700000000, schemaVersion := 1
    entries :=
      [{ name := "votport.db", size := 6,
         sha256 := "2d2eef3e092af52b5837160fe2e3954907a4bfed1469edd2e6422749a6b16b7a" },
       { name := "receipt.key", size := 32,
         sha256 := "4bb06f8e4e3a7715d201d573d0aa423762e55dabd61a2c02278fa56cc6d294e0" }] }

/-- Its text. -/
def sampleText : List UInt8 :=
  utf8 ("\x7b\"version\":2,\"created_at\":1700000000,\"schema_version\":1,\"entries\":["
    ++ "\x7b\"name\":\"votport.db\",\"size\":6,\"sha256\":"
    ++ "\"2d2eef3e092af52b5837160fe2e3954907a4bfed1469edd2e6422749a6b16b7a\"\x7d,"
    ++ "\x7b\"name\":\"receipt.key\",\"size\":32,\"sha256\":"
    ++ "\"4bb06f8e4e3a7715d201d573d0aa423762e55dabd61a2c02278fa56cc6d294e0\"\x7d]\x7d").toList

/-- Formats in which everything is read as it was written.  The bytes of an archive are not those of
tar: they are as many zeros as the number that its members are coded by. -/
def sampleEnv : ArchiveEnv where
  build members := zeros (memberNumbers members)
  entries archive :=
    .ok ((membersOf ((ofZeros archive).getD [])).map fun file => .ok file.entry)
  toVec manifest := if manifest = sampleManifest then sampleText else zeros manifest.numbers
  fromSlice bytes :=
    if bytes = sampleText then some sampleManifest else (ofZeros bytes).map Manifest.ofNumbers
  sha256 := sampleSha256
  publicKeyRaw _ := none
  subjectPublicKey _ := none
  validateDatabaseConnection _ _ := .ok ()

theorem sampleEnv_lawful : sampleEnv.Lawful where
  manifest manifest := by
    show (if (if manifest = sampleManifest then sampleText else zeros manifest.numbers) = sampleText
      then some sampleManifest else _) = _
    by_cases h : manifest = sampleManifest
    · rw [if_pos h, if_pos rfl, h]
    · have hne : zeros manifest.numbers ≠ sampleText := by
        intro heq
        have hmem : (123 : UInt8) ∈ zeros manifest.numbers := by
          rw [heq]
          decide +kernel
        exact absurd (List.eq_of_mem_replicate hmem) (by decide)
      have htoVec : sampleEnv.toVec manifest = zeros manifest.numbers := if_neg h
      rw [if_neg h, if_neg hne, htoVec, ofZeros_zeros, Option.map_some,
        Manifest.ofNumbers_numbers]
  archive members _ := by
    show Except.ok ((membersOf ((ofZeros (zeros (memberNumbers members))).getD [])).map _) = _
    rw [ofZeros_zeros, Option.getD_some, membersOf_memberNumbers]

/-- A run in which the key may be another when it is added. -/
def sampleRun (added : Content) : ArchiveRun where
  snapshot := .ok sampleSnapshot
  listed name := if name = "receipt.key" then some { regular := true, length := 32 } else none
  validated _ := .ok (sampleKey 7)
  hashed _ := .ok (sampleKey 7)
  measured _ := .ok added
  copied _ := .ok added
  now := 1700000000

/-- A folder with nothing in it. -/
def sampleFolder : FileSystem := (Table.empty).upsert ⟨["restore"], .directory⟩

theorem fresh_sampleFolder : Fresh ["restore"] sampleFolder where
  folder := by decide
  empty rest hrest := by
    rw [FileSystem.node?, sampleFolder, Table.find?_upsert, if_neg, Table.find?_empty,
      Option.map_none]
    intro heq
    exact hrest (List.cons.inj heq).2

theorem identities_sampleRun (added : Content) :
  identities (sampleRun added) = ["receipt.key"]
  := by
  simp only [identities, identityNames, sampleRun, List.filter_cons, List.filter_nil]
  decide

theorem sample_createArchive (added : Content) :
  createArchive sampleEnv (sampleRun added) 1
    = .ok (sampleManifest, sampleEnv.build (archiveMembers sampleEnv (contentOf sampleText)
        sampleSnapshot [{ name := "receipt.key", size := added.size, data := added }]))
  := by
  have htext : manifestContent (sampleEnv.toVec sampleManifest) = some (contentOf sampleText) := by
    decide +kernel
  have hkey : validateIdentityMaterial sampleEnv (fun _ => .ok (sampleKey 7)) ["receipt.key"]
      = .ok () := by
    rfl
  have hmanifest : archiveManifest sampleEnv (sampleRun added) 1 sampleSnapshot
      [manifestEntry sampleEnv "receipt.key" (sampleKey 7)] = sampleManifest := by
    rfl
  rw [createArchive]
  simp only [identities_sampleRun]
  apply Fallible.bind_eq_ok.mpr ⟨sampleSnapshot, rfl, ?_⟩
  apply Fallible.bind_eq_ok.mpr ⟨(), Fallible.require_eq_ok.mpr (List.mem_singleton_self _), ?_⟩
  apply Fallible.bind_eq_ok.mpr ⟨(), hkey, ?_⟩
  apply Fallible.bind_eq_ok.mpr ⟨[manifestEntry sampleEnv "receipt.key" (sampleKey 7)], rfl, ?_⟩
  simp only [hmanifest, htext]
  rfl

/-- A key that is replaced after it was hashed is added under the hash of the old one, and the
archive is refused when it is restored. -/
theorem replaced_key_refused :
  sampleEnv.Lawful ∧ Fresh ["restore"] sampleFolder
  ∧ ∃ archive, createArchive sampleEnv (sampleRun (sampleKey 8)) 1 = .ok (sampleManifest, archive)
    ∧ sampleEnv.validateDatabaseConnection sampleSnapshot 1 = .ok ()
    ∧ (validateAndExtract sampleEnv archive ["restore"] sampleFolder 1).2
      = .error "backup checksum mismatch"
  := by
  refine ⟨sampleEnv_lawful, fresh_sampleFolder, _, sample_createArchive (sampleKey 8), rfl, ?_⟩
  have hmade : Made sampleEnv (sampleRun (sampleKey 8)) 1 sampleSnapshot
      [manifestEntry sampleEnv "receipt.key" (sampleKey 7)] (contentOf sampleText)
      [{ name := "receipt.key", size := 32, data := sampleKey 8 }] := by
    constructor
    · rfl
    · rw [identities_sampleRun]
      exact List.mem_singleton_self _
    · rw [identities_sampleRun]
      rfl
    · decide +kernel
    · rw [identities_sampleRun]
      rfl
  have hextract := hmade.validateAndExtract sampleEnv_lawful
    (fun file hfile => by rw [List.mem_singleton.mp hfile]; rfl) ["restore"] sampleFolder
  refine (congrArg Prod.snd hextract).trans ?_
  decide

/-- A run in which nothing is replaced is restored. -/
theorem archives_restored_unreplaced :
  ∃ archive, createArchive sampleEnv (sampleRun (sampleKey 7)) 1 = .ok (sampleManifest, archive)
    ∧ Restores sampleEnv (sampleRun (sampleKey 7)) 1 sampleManifest archive ["restore"] sampleFolder
  := by
  have hcreate := sample_createArchive (sampleKey 7)
  obtain ⟨hrestores, _, _⟩ :=
    archives_restored sampleEnv sampleEnv_lawful ["restore"] sampleFolder fresh_sampleFolder 1
  refine ⟨_, hcreate, (hrestores _ _ _ sampleSnapshot hcreate rfl rfl).1 ?_⟩
  apply steady_of_unreplaced hcreate rfl rfl rfl
  intro name found content hfound hcontent
  obtain rfl := Except.ok.inj hcontent
  simp only [sampleRun, Option.ite_none_right_eq_some] at hfound
  obtain rfl := Option.some.inj hfound.2
  rfl

end Votport.Backup
