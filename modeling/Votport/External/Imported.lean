import Votport.Delivery.Directories
import Votport.External.Import
import Votport.Session.Prepare

/-!
# What an import publishes

The inventory of the sources is frozen once it is written.  What is published are its names, and the
file of each has the bytes of its object, read over the connection that was listed.
-/

namespace Votport.External

variable {env : ImportEnv} {job : ImportJob} {world : World env} {s s' : ImportState env}

/-- The file has the bytes of the object, read over the connection. -/
def Fetched (world : World env) (config : StorageConfig) (files : FileName → Option (List UInt8))
    (object : SourceObject) : Prop :=
  ∃ t, ∃ stored ∈ world t config, object.Matches stored ∧ stored.content.length = object.size
    ∧ files object.name = some stored.content

/-- The object that was listed. -/
def SourceObject.Describes {env : BucketEnv} (object : SourceObject) (stored : StoredObject env) :
    Prop :=
  object.key = stored.location.1 ∧ object.size = stored.content.length
    ∧ object.etag = stored.eTag ∧ object.version = stored.version

/-- The object was listed over the connection, with an ETag or a version. -/
def Frozen (world : World env) (config : StorageConfig) (object : SourceObject) : Prop :=
  (object.etag.isSome = true ∨ object.version.isSome = true)
    ∧ ∃ t, ∃ stored ∈ world t config, object.Describes stored

/-! ### The listing -/

theorem takeObject_ok
    {maxUpload : ℕ} {taken taken' : List SourceObject × ℕ}
    {entry : ObjectMeta env.toBucketEnv × FileName}
    (h : takeObject env job maxUpload taken entry = .ok taken') :
  (entry.1.eTag.isSome = true ∨ entry.1.version.isSome = true)
    ∧ taken' = (taken.1 ++ [SourceObject.ofListed entry], taken.2 + entry.1.size)
  := by
  obtain ⟨_, _, h⟩ := Fallible.bind_eq_ok.mp h
  obtain ⟨_, hrecorded, h⟩ := Fallible.bind_eq_ok.mp h
  obtain ⟨_, _, h⟩ := Fallible.bind_eq_ok.mp h
  obtain ⟨_, _, h⟩ := Fallible.bind_eq_ok.mp h
  cases h
  exact ⟨Fallible.require_eq_ok.mp hrecorded, rfl⟩

theorem takeObjects_ok
    {maxUpload : ℕ} {entries : List (ObjectMeta env.toBucketEnv × FileName)}
    {taken taken' : List SourceObject × ℕ}
    (h : entries.foldlM (takeObject env job maxUpload) taken = .ok taken') :
  taken'.1 = taken.1 ++ entries.map SourceObject.ofListed
    ∧ ∀ entry ∈ entries, entry.1.eTag.isSome = true ∨ entry.1.version.isSome = true
  := by
  induction entries generalizing taken with
  | nil =>
      rw [Fallible.foldlM_nil_eq_ok] at h
      rw [h, List.map_nil, List.append_nil]
      exact ⟨rfl, fun entry hentry => (List.not_mem_nil hentry).elim⟩
  | cons entry entries ih =>
      obtain ⟨middle, hmiddle, h⟩ := Fallible.foldlM_cons_eq_ok.mp h
      obtain ⟨hrecorded, htaken⟩ := takeObject_ok hmiddle
      obtain ⟨hobjects, hall⟩ := ih h
      constructor
      · rw [hobjects, htaken, List.map_cons, List.append_assoc, List.singleton_append]
      · exact List.forall_mem_cons.mpr ⟨hrecorded, hall⟩

/-- An inventory has the objects of the listing below the prefix, in the order of their names and
without those that the markers of directories take away. -/
theorem freezeListing_ok
    {config : StorageConfig} {maxUpload : ℕ} {listing : List (ObjectMeta env.toBucketEnv)}
    {inventory : SourceInventory}
    (h : freezeListing env job config maxUpload listing = .ok inventory) :
  inventory.storageId = config.id ∧ inventory.revision = config.revision
    ∧ ∃ directory, config.key env job.source = .ok directory
      ∧ (∀ entry ∈ skipDirectoryMarkers (listedBelow directory listing),
          entry.1.eTag.isSome = true ∨ entry.1.version.isSome = true)
      ∧ inventory.objects
        = ((skipDirectoryMarkers (listedBelow directory listing)).map
            SourceObject.ofListed).insertionSort fun a b => a.name ≤ b.name
  := by
  obtain ⟨directory, hdirectory, h⟩ := Fallible.bind_eq_ok.mp h
  obtain ⟨_, _, h⟩ := Fallible.bind_eq_ok.mp h
  obtain ⟨taken, htaken, h⟩ := Fallible.bind_eq_ok.mp h
  obtain ⟨_, _, h⟩ := Fallible.bind_eq_ok.mp h
  obtain ⟨_, _, h⟩ := Fallible.bind_eq_ok.mp h
  cases h
  obtain ⟨hobjects, hrecorded⟩ := takeObjects_ok htaken
  refine ⟨rfl, rfl, directory, hdirectory, hrecorded, ?_⟩
  dsimp only
  rw [hobjects, List.nil_append]

/-- What the inventory has of each object is in the listing. -/
theorem freezeListing_listed
    {config : StorageConfig} {maxUpload : ℕ} {listing : List (ObjectMeta env.toBucketEnv)}
    {inventory : SourceInventory}
    (h : freezeListing env job config maxUpload listing = .ok inventory) {object : SourceObject}
    (hobject : object ∈ inventory.objects) :
  (object.etag.isSome = true ∨ object.version.isSome = true)
    ∧ ∃ listed ∈ listing, object.key = listed.location.1 ∧ object.size = listed.size
      ∧ object.etag = listed.eTag ∧ object.version = listed.version
  := by
  obtain ⟨-, -, directory, -, hrecorded, hobjects⟩ := freezeListing_ok h
  rw [hobjects, (List.perm_insertionSort _ _).mem_iff] at hobject
  obtain ⟨entry, hentry, rfl⟩ := List.mem_map.mp hobject
  obtain ⟨listed, hlisting, hname⟩ :=
    List.mem_filterMap.mp (skipDirectoryMarkers_sublist.subset hentry)
  obtain ⟨name, -, rfl⟩ := Option.map_eq_some_iff.mp hname
  exact ⟨hrecorded _ hentry, listed, hlisting, rfl, rfl, rfl, rfl⟩

theorem Frozen.of_listed
    {config : StorageConfig} {began ended : ℕ} {object : SourceObject}
    {listed : ObjectMeta env.toBucketEnv} (h : Listed world config began ended listed)
    (hrecorded : object.etag.isSome = true ∨ object.version.isSome = true)
    (hobject : object.key = listed.location.1 ∧ object.size = listed.size
      ∧ object.etag = listed.eTag ∧ object.version = listed.version) :
  Frozen world config object
  := by
  obtain ⟨t, -, stored, hstored, rfl⟩ := h
  exact ⟨hrecorded, t, stored, hstored, hobject⟩

/-! ### What is known -/

/-- The inventory was frozen over the connection. -/
structure Taken (world : World env) (config : StorageConfig) (inventory : SourceInventory) :
    Prop where
  storageId : inventory.storageId = config.id
  revision : inventory.revision = config.revision
  objects : ∀ object ∈ inventory.objects, Frozen world config object

/-- The bytes of the inventory were reserved, within the limit of an upload. -/
def Reserved (s : ImportState env) (inventory : SourceInventory) : Prop :=
  ∃ maxUpload, ((inventory.objects.map SourceObject.size).sum, maxUpload) ∈ s.reservations
    ∧ (inventory.objects.map SourceObject.size).sum ≤ maxUpload

/-- An attempt that reads objects has read the first ones. -/
structure Reading (world : World env) (s : ImportState env) (attempt : Attempt)
    (names : List FileName) (rest : List SourceObject) : Prop where
  config : attempt.config ∈ s.configs
  unpublished : s.inventory = none
  read : ∃ inventory done, s.sourceInventory = some inventory
    ∧ Taken world attempt.config inventory ∧ inventory.objects = done ++ rest
    ∧ names = done.map SourceObject.name
    ∧ (inventory.objects.map SourceObject.name).Nodup ∧ Reserved s inventory
    ∧ ∀ object ∈ done, Fetched world attempt.config s.files object

/-- What is known of how far an attempt has come. -/
def ImportPhase.Good (world : World env) (s : ImportState env) : ImportPhase env → Prop
  | .idle => True
  | .listing attempt _ => attempt.config ∈ s.configs ∧ s.sourceInventory = none
  | .listed attempt objects => attempt.config ∈ s.configs
      ∧ ∃ inventory, s.sourceInventory = some inventory ∧ Taken world attempt.config inventory
        ∧ inventory.objects = objects
  | .fetching attempt _ names rest => Reading world s attempt names rest
  | .receiving attempt _ names object stored received rest =>
      Reading world s attempt names (object :: rest) ∧ object.Matches stored
        ∧ (∃ t, stored ∈ world t attempt.config)
        ∧ s.files object.name = some (stored.content.take received)

/-- The connections have different revisions, what is frozen or published comes from one of them,
and no file is there before its bytes are reserved. -/
structure ImportState.Good (world : World env) (s : ImportState env) : Prop where
  current : s.config ∈ s.configs
  configs : ∀ config ∈ s.configs, config.id = s.config.id ∧ config.revision ≤ s.config.revision
  revisions : ∀ config ∈ s.configs, ∀ config' ∈ s.configs,
    config.revision = config'.revision → config = config'
  frozen : ∀ inventory, s.sourceInventory = some inventory →
    ∃ config ∈ s.configs, Taken world config inventory
  published : ∀ names, s.inventory = some names → ∃ inventory, ∃ config ∈ s.configs,
    s.sourceInventory = some inventory ∧ Taken world config inventory
      ∧ names = inventory.objects.map SourceObject.name
      ∧ ∀ object ∈ inventory.objects, Fetched world config s.files object
  reserved : ∀ name, s.files name ≠ none →
    ∃ inventory, s.sourceInventory = some inventory ∧ Reserved s inventory
  phase : s.phase.Good world s

/-! ### Steps -/

theorem Reading.mono
    {attempt : Attempt} {names : List FileName} {rest : List SourceObject}
    (h : Reading world s attempt names rest) (hconfigs : s.configs ⊆ s'.configs)
    (hinventory : s'.inventory = s.inventory) (hsource : s'.sourceInventory = s.sourceInventory)
    (hfiles : s'.files = s.files) (hreservations : s'.reservations = s.reservations) :
  Reading world s' attempt names rest
  := by
  obtain ⟨inventory, done, hread⟩ := h.read
  refine ⟨hconfigs h.config, hinventory.trans h.unpublished, inventory, done, ?_⟩
  rw [hsource, hfiles, Reserved, hreservations]
  exact hread

theorem ImportPhase.Good.mono
    {phase : ImportPhase env} (h : phase.Good world s) (hconfigs : s.configs ⊆ s'.configs)
    (hinventory : s'.inventory = s.inventory) (hsource : s'.sourceInventory = s.sourceInventory)
    (hfiles : s'.files = s.files) (hreservations : s'.reservations = s.reservations) :
  phase.Good world s'
  := by
  cases phase with
  | idle => trivial
  | listing attempt began => exact ⟨hconfigs h.1, hsource.trans h.2⟩
  | listed attempt objects =>
      obtain ⟨hconfig, inventory, hinventory, hrest⟩ := h
      exact ⟨hconfigs hconfig, inventory, hsource.trans hinventory, hrest⟩
  | fetching attempt total names rest =>
      exact Reading.mono h hconfigs hinventory hsource hfiles hreservations
  | receiving attempt total names object stored received rest =>
      obtain ⟨hread, hmatches, hstored, hfile⟩ := h
      refine ⟨hread.mono hconfigs hinventory hsource hfiles hreservations, hmatches, hstored, ?_⟩
      rw [hfiles]
      exact hfile

/-- An attempt goes on and nothing else changes. -/
theorem ImportState.Good.goOn
    {phase : ImportPhase env} (hs : s.Good world) (hphase : phase.Good world s) :
  (s.goOn phase).Good world
  := by
  exact ⟨hs.current, hs.configs, hs.revisions, hs.frozen, hs.published, hs.reserved,
    hphase.mono (List.Subset.refl _) rfl rfl rfl rfl⟩

/-- A file is written while nothing is published. -/
theorem ImportState.Good.write
    {phase : ImportPhase env} {name : FileName} {content : List UInt8} {time : ℕ}
    {inventory : SourceInventory} (hs : s.Good world) (hunpublished : s.inventory = none)
    (hsource : s.sourceInventory = some inventory) (hreserved : Reserved s inventory)
    (hphase : phase.Good world
      { s with time, files := Function.update s.files name (some content), phase }) :
  ImportState.Good world
    { s with time, files := Function.update s.files name (some content), phase }
  := by
  refine ⟨hs.current, hs.configs, hs.revisions, hs.frozen, ?_, ?_, hphase⟩
  · intro names hnames
    rw [show s.inventory = some names from hnames] at hunpublished
    cases hunpublished
  · exact fun _ _ => ⟨inventory, hsource, hreserved⟩

/-- Other files that were read stay. -/
theorem Fetched.write
    {config : StorageConfig} {files : FileName → Option (List UInt8)} {object : SourceObject}
    {name : FileName} {content : List UInt8} (h : Fetched world config files object)
    (hname : object.name ≠ name) :
  Fetched world config (Function.update files name (some content)) object
  := by
  obtain ⟨t, stored, hstored, hmatches, hlength, hfile⟩ := h
  refine ⟨t, stored, hstored, hmatches, hlength, ?_⟩
  rw [Function.update_of_ne hname]
  exact hfile

/-- A file of the object that is read is written. -/
theorem Reading.write
    {attempt : Attempt} {names : List FileName} {object : SourceObject} {rest : List SourceObject}
    {content : List UInt8} {time : ℕ} {phase : ImportPhase env}
    (h : Reading world s attempt names (object :: rest)) :
  Reading world
    { s with time, files := Function.update s.files object.name (some content), phase }
    attempt names (object :: rest)
  := by
  obtain ⟨inventory, done, hsource, htaken, hobjects, hnames, hnodup, hreserved, hfetched⟩ := h.read
  refine ⟨h.config, h.unpublished, inventory, done, hsource, htaken, hobjects, hnames, hnodup,
    hreserved, ?_⟩
  intro other hother
  apply (hfetched other hother).write
  rw [hobjects, List.map_append] at hnodup
  exact fun heq => List.disjoint_of_nodup_append hnodup (List.mem_map_of_mem hother)
    (heq ▸ List.mem_map_of_mem (List.mem_cons_self ..))

theorem good_start (config : StorageConfig) (db : DeliveryDb) :
  (ImportState.start env config db).Good world
  := by
  refine ⟨List.mem_singleton_self _, ?_, ?_, nofun, nofun, fun _ h => (h rfl).elim, trivial⟩
  · intro other hother
    rw [List.mem_singleton.mp hother]
    exact ⟨rfl, le_rfl⟩
  · intro a ha b hb _
    rw [List.mem_singleton.mp ha, List.mem_singleton.mp hb]

theorem ImportState.Good.step_save
    {config : StorageConfig} (hs : s.Good world)
    (h : s.step job world (.save config) = some s') :
  s'.Good world
  := by
  obtain ⟨⟨hid, _, hrevision⟩, h⟩ := Option.ite_none_right_eq_some.mp h
  cases h
  have hnewer : ∀ other ∈ s.configs, other.revision ≠ config.revision := by
    intro other hother heq
    have hle := (hs.configs other hother).2
    omega
  refine ⟨List.mem_cons_self .., ?_, ?_, ?_, ?_, hs.reserved, ?_⟩
  · intro other hother
    rcases List.mem_cons.mp hother with rfl | hother
    · exact ⟨rfl, le_rfl⟩
    · obtain ⟨hsame, hle⟩ := hs.configs other hother
      exact ⟨hsame.trans hid.symm, by dsimp only; omega⟩
  · intro a ha b hb heq
    rcases List.mem_cons.mp ha with hanew | haold
    · rcases List.mem_cons.mp hb with hbnew | hbold
      · exact hanew.trans hbnew.symm
      · rw [hanew] at heq
        exact absurd heq.symm (hnewer b hbold)
    · rcases List.mem_cons.mp hb with hbnew | hbold
      · rw [hbnew] at heq
        exact absurd heq (hnewer a haold)
      · exact hs.revisions a haold b hbold heq
  · intro inventory hinventory
    obtain ⟨other, hother, htaken⟩ := hs.frozen inventory hinventory
    exact ⟨other, List.mem_cons_of_mem _ hother, htaken⟩
  · intro names hnames
    obtain ⟨inventory, other, hother, hpublished⟩ := hs.published names hnames
    exact ⟨inventory, other, List.mem_cons_of_mem _ hother, hpublished⟩
  · exact hs.phase.mono (List.subset_cons_self ..) rfl rfl rfl rfl

theorem ImportState.Good.step_begin
    {number maxUpload : ℕ} (hs : s.Good world)
    (h : s.step job world (.begin number maxUpload) = some s') :
  s'.Good world
  := by
  rw [ImportState.step] at h
  split at h
  · split at h
    · split at h
      · rename_i inventory hsource
        split at h
        · rename_i hsame
          cases h
          obtain ⟨config, hconfig, htaken⟩ := hs.frozen inventory hsource
          have heq : config = s.config :=
            hs.revisions config hconfig s.config hs.current (htaken.revision.symm.trans hsame.2)
          rw [heq] at htaken
          exact hs.goOn ⟨hs.current, inventory, hsource, htaken, rfl⟩
        · cases h
          exact hs.goOn trivial
      · rename_i hsource
        cases h
        exact hs.goOn ⟨hs.current, hsource⟩
    · cases h
      exact hs.goOn trivial
  · cases h

theorem ImportState.Good.step_list
    {listing : List (ObjectMeta env.toBucketEnv)} {landed synced : Bool} (hs : s.Good world)
    (h : s.step job world (.list listing landed synced) = some s') :
  s'.Good world
  := by
  have hphase := hs.phase
  rw [ImportState.step] at h
  split at h
  · rename_i attempt began hlisting
    rw [hlisting] at hphase
    obtain ⟨hconfig, hnone⟩ := hphase
    split at h
    · rename_i hlisted
      split at h
      · cases h
        exact hs.goOn trivial
      · rename_i inventory hinventory
        split at h
        · cases h
          exact hs.goOn trivial
        · cases h
          obtain ⟨hid, hrevision, -⟩ := freezeListing_ok hinventory
          have htaken : Taken world attempt.config inventory := by
            refine ⟨hid, hrevision, ?_⟩
            intro object hobject
            obtain ⟨hrecorded, listed, hlisting, hmeta⟩ :=
              freezeListing_listed hinventory hobject
            exact Frozen.of_listed (hlisted listed hlisting) hrecorded hmeta
          refine ⟨hs.current, hs.configs, hs.revisions, ?_, ?_, ?_, ?_⟩
          · intro other hother
            cases hother
            exact ⟨attempt.config, hconfig, htaken⟩
          · intro names hnames
            obtain ⟨other, _, _, hother, _⟩ := hs.published names hnames
            rw [hnone] at hother
            cases hother
          · intro name hname
            obtain ⟨other, hother, _⟩ := hs.reserved name hname
            rw [hnone] at hother
            cases hother
          · dsimp only
            split
            · exact ⟨hconfig, inventory, rfl, htaken, rfl⟩
            · trivial
    · cases h
  · cases h

theorem reservedBytes_eq_some
    {objects : List SourceObject} {maxUpload total : ℕ}
    (h : reservedBytes objects maxUpload = some total) :
  total = (objects.map SourceObject.size).sum ∧ total ≤ maxUpload
  := by
  obtain ⟨hle, h⟩ := Option.ite_none_right_eq_some.mp h
  cases h
  exact ⟨rfl, hle.2⟩

theorem ImportState.Good.step_reserve
    {limit : UInt64} (hs : s.Good world)
    (h : s.step job world (.reserve limit) = some s') :
  s'.Good world
  := by
  have hphase := hs.phase
  rw [ImportState.step] at h
  split at h
  · rename_i attempt objects hlisted
    rw [hlisted] at hphase
    obtain ⟨hconfig, inventory, hsource, htaken, hobjects⟩ := hphase
    split at h
    · cases h
      exact hs.goOn trivial
    · rename_i hchecked
      split at h
      · cases h
        exact hs.goOn trivial
      · rename_i hunpublished
        split at h
        · cases h
          exact hs.goOn trivial
        · rename_i total htotal
          split at h
          · cases h
            exact hs.goOn trivial
          · cases h
            obtain ⟨hsum, hle⟩ := reservedBytes_eq_some htotal
            obtain ⟨_, _, hadmitted⟩ := Fallible.bind_eq_ok.mp hchecked
            have hmono : ∀ other, Reserved s other → Reserved
                { s with reservations := (total, attempt.maxUpload) :: s.reservations } other := by
              rintro other ⟨maxUpload, hmem, hother⟩
              exact ⟨maxUpload, List.mem_cons_of_mem _ hmem, hother⟩
            refine ⟨hs.current, hs.configs, hs.revisions, hs.frozen, hs.published, ?_, ?_⟩
            · intro name hname
              obtain ⟨other, hother, hreserved⟩ := hs.reserved name hname
              exact ⟨other, hother, hmono other hreserved⟩
            · refine ⟨hconfig, ?_, inventory, [], hsource, htaken, hobjects, rfl, ?_, ?_, ?_⟩
              · exact Option.not_isSome_iff_eq_none.mp hunpublished
              · rw [hobjects]
                exact nodup_of_admitPortablePaths hadmitted
              · refine ⟨attempt.maxUpload, ?_, ?_⟩
                · rw [hobjects, ← hsum]
                  exact List.mem_cons_self ..
                · rw [hobjects, ← hsum]
                  exact hle
              · exact fun object hobject => (List.not_mem_nil hobject).elim
  · cases h

theorem ImportState.Good.step_fetch
    {stored : StoredObject env.toBucketEnv} (hs : s.Good world)
    (h : s.step job world (.fetch stored) = some s') :
  s'.Good world
  := by
  have hphase := hs.phase
  rw [ImportState.step] at h
  split at h
  · rename_i attempt total names object rest hfetching
    rw [hfetching] at hphase
    split at h
    · cases h
      exact hs.goOn trivial
    · split at h
      · cases h
        exact hs.goOn trivial
      · split at h
        · cases h
          exact hs.goOn trivial
        · split at h
          · cases h
            exact hs.goOn trivial
          · rename_i key hkey
            split at h
            · rename_i hfound
              cases h
              obtain ⟨hstored, hlocation, hmatches⟩ := hfound
              obtain ⟨inventory, done, hsource, htaken, hobjects, hrest⟩ := Reading.read hphase
              -- the key was taken from a path, which is parsed as itself
              have hobject : object ∈ inventory.objects := by
                rw [hobjects]
                exact List.mem_append_right _ (List.mem_cons_self ..)
              obtain ⟨-, _, listed, -, hpath, -⟩ := htaken.objects object hobject
              have hsame : key = object.key := by
                rw [hpath, listed.location.2] at hkey
                rw [hpath]
                exact (Option.some.inj hkey).symm
              subst hsame
              refine hs.write (Reading.unpublished hphase) hsource hrest.2.2.1 ?_
              exact ⟨Reading.write hphase, hmatches, ⟨s.time, hstored⟩,
                Function.update_self ..⟩
            · cases h
  · cases h

theorem ImportState.Good.step_chunk
    {length : ℕ} (hs : s.Good world)
    (h : s.step job world (.chunk length) = some s') :
  s'.Good world
  := by
  have hphase := hs.phase
  rw [ImportState.step] at h
  split at h
  · rename_i attempt total names object stored received rest hreceiving
    rw [hreceiving] at hphase
    obtain ⟨hreading, hmatches, hstored, hfile⟩ := hphase
    dsimp only at h
    split at h
    · cases h
      obtain ⟨inventory, done, hsource, -, -, -, -, hreserved, -⟩ := hreading.read
      refine hs.write hreading.unpublished hsource hreserved ?_
      exact ⟨hreading.write, hmatches, hstored, Function.update_self ..⟩
    · cases h
      exact hs.goOn trivial
  · cases h

theorem ImportState.Good.step_endOfStream
    (hs : s.Good world) (h : s.step job world .endOfStream = some s') :
  s'.Good world
  := by
  have hphase := hs.phase
  rw [ImportState.step] at h
  split at h
  · rename_i attempt total names object stored received rest hreceiving
    rw [hreceiving] at hphase
    obtain ⟨hreading, hmatches, ⟨t, hstored⟩, hfile⟩ := hphase
    split at h
    · rename_i hwhole
      split at h
      · rename_i hsize
        cases h
        obtain ⟨inventory, done, hsource, htaken, hobjects, hnames, hnodup, hreserved, hfetched⟩ :=
          hreading.read
        rw [hwhole, List.take_length] at hfile
        refine hs.goOn ⟨hreading.config, hreading.unpublished, inventory, done ++ [object], hsource,
          htaken, ?_, ?_, hnodup, hreserved, ?_⟩
        · rw [hobjects, List.append_assoc, List.singleton_append]
        · rw [hnames, List.map_append, List.map_singleton]
        · intro other hother
          rcases List.mem_append.mp hother with hother | hother
          · exact hfetched other hother
          · rw [List.mem_singleton.mp hother]
            exact ⟨t, stored, hstored, hmatches, hwhole.symm.trans hsize, hfile⟩
      · cases h
        exact hs.goOn trivial
    · cases h
  · cases h

theorem ImportState.Good.step_publish
    {landed : Bool} (hs : s.Good world) (h : s.step job world (.publish landed) = some s') :
  s'.Good world
  := by
  have hphase := hs.phase
  rw [ImportState.step] at h
  split at h
  · rename_i attempt total names hfetching
    rw [hfetching] at hphase
    split at h
    · cases h
      exact hs.goOn trivial
    · split at h
      · cases h
        obtain ⟨inventory, done, hsource, htaken, hobjects, hnames, -, -, hfetched⟩ :=
          Reading.read hphase
        rw [List.append_nil] at hobjects
        have hconfig := Reading.config hphase
        refine ⟨hs.current, hs.configs, hs.revisions, hs.frozen, ?_, hs.reserved, trivial⟩
        intro published hpublished
        cases hpublished
        refine ⟨inventory, attempt.config, hconfig, hsource, htaken, ?_, ?_⟩
        · rw [hnames, hobjects]
        · rw [hobjects]
          exact hfetched
      · cases h
        exact hs.goOn trivial
  · cases h

theorem ImportState.Good.step_stop
    {torn : ℕ} (hs : s.Good world) (h : s.step job world (.stop torn) = some s') :
  s'.Good world
  := by
  have hphase := hs.phase
  rw [ImportState.step] at h
  split at h
  · rename_i attempt total names object stored received rest hreceiving
    rw [hreceiving] at hphase
    cases h
    obtain ⟨inventory, done, hsource, -, -, -, -, hreserved, -⟩ := hphase.1.read
    exact hs.write hphase.1.unpublished hsource hreserved trivial
  · cases h
    exact hs.goOn trivial

theorem ImportState.Good.step
    {event : ImportEvent env} (hs : s.Good world) (h : s.step job world event = some s') :
  s'.Good world
  := by
  cases event with
  | save config => exact hs.step_save h
  | elsewhere db =>
      cases h
      exact ⟨hs.current, hs.configs, hs.revisions, hs.frozen, hs.published, hs.reserved,
        hs.phase.mono (List.Subset.refl _) rfl rfl rfl rfl⟩
  | begin number maxUpload => exact hs.step_begin h
  | list listing landed synced => exact hs.step_list h
  | reserve limit => exact hs.step_reserve h
  | fetch stored => exact hs.step_fetch h
  | chunk length => exact hs.step_chunk h
  | endOfStream => exact hs.step_endOfStream h
  | publish landed => exact hs.step_publish h
  | stop torn => exact hs.step_stop h

/-! ### Runs -/

/-- The inventory of the sources stays. -/
theorem sourceInventory_step
    {event : ImportEvent env} {inventory : SourceInventory} (hs : s.Good world)
    (hsource : s.sourceInventory = some inventory) (h : s.step job world event = some s') :
  s'.sourceInventory = some inventory
  := by
  have hphase := hs.phase
  cases event with
  | list listing landed synced =>
      rw [ImportState.step] at h
      split at h
      · rename_i attempt began hlisting
        rw [hlisting] at hphase
        rw [hphase.2] at hsource
        cases hsource
      · cases h
  | _ =>
      -- no other event writes the inventory of the sources
      simp only [ImportState.step] at h
      repeat' split at h
      all_goals
        cases h
        try exact hsource

/-- The connections that were saved stay. -/
theorem configs_step {event : ImportEvent env} (h : s.step job world event = some s') :
  s.configs ⊆ s'.configs
  := by
  cases event with
  | save config =>
      obtain ⟨-, h⟩ := Option.ite_none_right_eq_some.mp h
      cases h
      exact List.subset_cons_self ..
  | _ =>
      -- no other event saves a connection
      simp only [ImportState.step] at h
      repeat' split at h
      all_goals
        cases h
        try exact List.Subset.refl _

/-- The inventory was frozen when this listing was done, over one of the connections. -/
def FrozenFrom (job : ImportJob) (world : World env) (events : List (ImportEvent env))
    (configs : List StorageConfig) (inventory : SourceInventory) : Prop :=
  ∃ listing synced began ended, ImportEvent.list listing true synced ∈ events
    ∧ ∃ config ∈ configs, inventory.storageId = config.id ∧ inventory.revision = config.revision
    ∧ (∀ object ∈ listing, Listed world config began ended object)
    ∧ ∃ directory, config.key env job.source = .ok directory
    ∧ inventory.objects
      = ((skipDirectoryMarkers (listedBelow directory listing)).map
          SourceObject.ofListed).insertionSort fun a b => a.name ≤ b.name

/-- An inventory that is there was there before the step, or is that of its listing. -/
theorem frozenFrom_step
    {event : ImportEvent env} {inventory : SourceInventory} (hs : s.Good world)
    (h : s.step job world event = some s') (hsource : s'.sourceInventory = some inventory) :
  s.sourceInventory = some inventory ∨ FrozenFrom job world [event] s'.configs inventory
  := by
  have hphase := hs.phase
  cases event with
  | list listing landed synced =>
      rw [ImportState.step] at h
      split at h
      · rename_i attempt began hlisting
        rw [hlisting] at hphase
        split at h
        · rename_i hlisted
          split at h
          · cases h
            exact .inl hsource
          · rename_i frozen hfrozen
            split at h
            · cases h
              exact .inl hsource
            · rename_i hlanded
              cases h
              cases hsource
              obtain ⟨hid, hrevision, directory, hdirectory, -, hobjects⟩ :=
                freezeListing_ok hfrozen
              rw [Bool.not_eq_false] at hlanded
              rw [hlanded]
              exact .inr ⟨listing, synced, began, s.time, List.mem_singleton_self _,
                attempt.config, hphase.1, hid, hrevision, hlisted, directory, hdirectory,
                hobjects⟩
        · cases h
      · cases h
  | _ =>
      -- no other event writes the inventory of the sources
      left
      simp only [ImportState.step] at h
      repeat' split at h
      all_goals
        cases h
        try exact hsource

/-- An inventory that is there at the end of a run was there before, or is that of a listing. -/
theorem frozenFrom_run
    {events : List (ImportEvent env)} {inventory : SourceInventory} (hs : s.Good world)
    (h : Runs.run (ImportState.step job world) s events = some s')
    (hsource : s'.sourceInventory = some inventory) :
  s.sourceInventory = some inventory ∨ FrozenFrom job world events s'.configs inventory
  := by
  induction events generalizing s with
  | nil =>
      cases h
      exact .inl hsource
  | cons event events ih =>
      obtain ⟨middle, hstep, hrun⟩ := (Runs.run_cons _).mp h
      have hconfigs : middle.configs ⊆ s'.configs :=
        Runs.run_invariant (I := fun t : ImportState env => middle.configs ⊆ t.configs)
          (fun _ _ _ ht hstep => List.Subset.trans ht (configs_step hstep)) (List.Subset.refl _) hrun
      rcases ih (hs.step hstep) hrun with hmiddle | hfrozen
      · apply (frozenFrom_step hs hstep hmiddle).imp_right
        rintro ⟨listing, synced, began, ended, hmem, config, hconfig, hrest⟩
        exact ⟨listing, synced, began, ended,
          List.mem_cons.mpr (.inl (List.mem_singleton.mp hmem)), config, hconfigs hconfig, hrest⟩
      · obtain ⟨listing, synced, began, ended, hmem, hrest⟩ := hfrozen
        exact .inr ⟨listing, synced, began, ended, List.mem_cons_of_mem _ hmem, hrest⟩

/-- Objects of one ETag or one version have the same bytes. -/
def Identified (world : World env) : Prop :=
  ∀ config t t', ∀ stored ∈ world t config, ∀ stored' ∈ world t' config,
    stored.location = stored'.location →
    (stored.eTag.isSome = true ∧ stored.eTag = stored'.eTag
      ∨ stored.version.isSome = true ∧ stored.version = stored'.version) →
    stored.content = stored'.content

/-- The file has the bytes that were read of an object with the recorded ETag and version, and these
are the bytes of the object that was listed. -/
def Exact (world : World env) (config : StorageConfig) (files : FileName → Option (List UInt8))
    (object : SourceObject) : Prop :=
  ∃ content, files object.name = some content ∧ content.length = object.size
    ∧ (∃ t, ∃ stored ∈ world t config, object.Matches stored ∧ stored.content = content)
    ∧ (∃ t, ∃ stored ∈ world t config, object.Describes stored)
    ∧ ∀ t, ∀ stored ∈ world t config, object.Describes stored → stored.content = content

theorem Fetched.exact
    {config : StorageConfig} {files : FileName → Option (List UInt8)} {object : SourceObject}
    (h : Fetched world config files object) (hidentified : Identified world)
    (hfrozen : Frozen world config object) :
  Exact world config files object
  := by
  obtain ⟨t, stored, hstored, ⟨hkey, hetag, hversion⟩, hlength, hfile⟩ := h
  refine ⟨stored.content, hfile, hlength, ⟨t, stored, hstored, ⟨hkey, hetag, hversion⟩, rfl⟩,
    hfrozen.2, ?_⟩
  rintro t' listed hlisted ⟨hlistedKey, -, hlistedTag, hlistedVersion⟩
  refine hidentified config t' t listed hlisted stored hstored ?_ ?_
  · exact Subtype.ext (hlistedKey.symm.trans hkey.symm)
  · rcases hfrozen.1 with hsome | hsome
    · obtain ⟨etag, heq⟩ := Option.isSome_iff_exists.mp hsome
      left
      rw [← hlistedTag, heq, hetag etag heq]
      exact ⟨rfl, rfl⟩
    · obtain ⟨version, heq⟩ := Option.isSome_iff_exists.mp hsome
      right
      rw [← hlistedVersion, heq, hversion version heq]
      exact ⟨rfl, rfl⟩

/-- Keys of small letters, digits, dots and slashes. -/
def plainImport : ImportEnv where
  toPathEnv := plainPaths
  canonicalPathKey := fun components => some (utf8 (List.intercalate ['\x00'] components))
  isPathPrefix := fun key key' => decide (key ++ [0] <+: key')
  parsePath := fun key => if key.head? = some '/' ∨ key.getLast? = some '/' then none else some key
  inventoryLength := fun inventory => 100 * inventory.objects.length
  namesLength := fun names => 100 * names.length

/-- A job that is prepared. -/
def preparingJob : Job where
  id := "job"
  tenant := "acme"
  tokenGeneration := 0
  actor := "sender"
  credentialVersion := 0
  automationTokenId := none
  actorHuman := none
  request := ⟨none, "operation", "street", "Clips", ⟨[], Metadata.sorted_nil⟩, [], none, none, 30,
    some ⟨"store", "in"⟩⟩
  project := streetProject
  state := .preparing
  manifest := none
  approvedBy := none
  attempts := 1
  createdAt := 0
  updatedAt := 0
  error := none
  checks := .new .empty
  received := none
  reprocessedFrom := none
  reprocessedAs := none

def preparingDb : DeliveryDb :=
  (DeliveryWorld.begin emptyPort 0).db.rest.saveJob ⟨"", 0, 0, preparingJob⟩

def plainConfig : StorageConfig where
  id := "store"
  revision := 1
  tenants := ["acme"]
  enabled := true
  kind := .s3
  endpoint := "https://s3.example"
  bucket := "clips"
  region := "eu"
  keyPrefix := []

/-- An object `in/a.txt`. -/
def plainObject : StoredObject plainImport.toBucketEnv where
  location := ⟨"in/a.txt".toList, by decide⟩
  eTag := some "e"
  version := none
  content := [1, 2, 3]

def plainWorld : World plainImport := fun _ _ => [plainObject]

theorem identified_plainWorld :
  Identified plainWorld
  := by
  intro config t t' stored hstored stored' hstored' _ _
  rw [List.mem_singleton.mp hstored, List.mem_singleton.mp hstored']

/-- The second attempt publishes what the first one had frozen. -/
def resumedEvents : List (ImportEvent plainImport) :=
  [.begin 1 100, .list [plainObject.meta] true true, .reserve 1000, .fetch plainObject, .chunk 2,
    .stop 0, .begin 1 100, .reserve 1000, .fetch plainObject, .chunk 2, .chunk 5, .endOfStream,
    .publish true]

/-- The marker `in/dir/` of a directory, whose key is listed without the last slash, an object
`in/dir` of five bytes, and one in the directory. -/
def markedObjects : List (StoredObject plainImport.toBucketEnv) :=
  [⟨⟨"in/dir".toList, by decide⟩, some "m", none, []⟩,
    ⟨⟨"in/dir".toList, by decide⟩, some "f", none, [1, 2, 3, 4, 5]⟩,
    ⟨⟨"in/dir/a".toList, by decide⟩, some "e", none, [1]⟩]

/-- An import of all three. -/
def markedEvents : List (ImportEvent plainImport) :=
  [.begin 1 100, .list (markedObjects.map StoredObject.meta) true true, .reserve 1000,
    .fetch ⟨⟨"in/dir/a".toList, by decide⟩, some "e", none, [1]⟩, .chunk 1, .endOfStream,
    .publish true]

end Votport.External
