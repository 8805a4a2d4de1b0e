import Votport.Auth.Tokens
import Votport.Foundation.Paging
import Votport.Protocol.Collisions
import Votport.Protocol.Sweep

/-!
# Pages of a library directory

A directory of the library is listed in pages.  Whatever order its entries are read in, a heap keeps
the least paths after the cursor.  A page has its folders and its files apart, and the cursor of the
next page is the greatest of their paths.
-/

namespace Votport

open Listings Paging

/-! ### Directories -/

/-- What the metadata of an entry says it is. -/
inductive EntryKind where
  | directory
  | file
  | link
  | other
deriving DecidableEq

/-- An entry that `read_dir` gives.  A name that is no text is `none`, and so is metadata that cannot
be read. -/
structure DirectoryEntry where
  name : Option (List Char)
  metadata : Option (EntryKind × ℕ)
  proper : ∀ n ∈ name, n ≠ [] ∧ n ≠ ['.'] ∧ n ≠ ['.', '.'] ∧ '/' ∉ n

/-- `is_private_library_name`. -/
def isPrivateLibraryName (name : List Char) : Bool :=
  decide (toAsciiLowercase name = ".votport-workflows".toList
    ∨ ".vot-".toList <+: name ∧ ".stage".toList <:+ name)

/-- The path of an entry from the root of the library. -/
def relativePath (directory name : List Char) : List Char :=
  (if directory = [] then name else directory ++ '/' :: name).map fun c => if c = '\\' then '/' else c

/-- A directory of the library as it is found.  Metadata is read of a path that the system takes,
which has fewer bytes than a cursor may have. -/
structure LibraryFolder (directory : List Char) where
  rootSafe : Bool
  safe : Bool
  present : Bool
  listing : Option (List DirectoryEntry)
  distinct : ∀ entries ∈ listing, (entries.filterMap DirectoryEntry.name).Nodup
  reached : ∀ entries ∈ listing, ∀ entry ∈ entries, entry.metadata ≠ none →
    ∀ name ∈ entry.name, utf8Len (relativePath directory name) ≤ 4096

/-- A path that is listed, whether it is a directory, and the length in its metadata. -/
structure LibraryEntry where
  path : List Char
  isDirectory : Bool
  bytes : ℕ
deriving DecidableEq

/-- The bytes of a path, which paths are compared by. -/
def pathBytes (path : List Char) : List ℕ := (utf8 path).map UInt8.toNat

/-- The order of the heap. -/
def entryLe (a b : LibraryEntry) : Prop :=
  toLex (pathBytes a.path, toLex (a.isDirectory, a.bytes))
    ≤ toLex (pathBytes b.path, toLex (b.isDirectory, b.bytes))

instance : DecidableRel entryLe := fun a b =>
  inferInstanceAs (Decidable (toLex (pathBytes a.path, toLex (a.isDirectory, a.bytes))
    ≤ toLex (pathBytes b.path, toLex (b.isDirectory, b.bytes))))

/-! ### Pages -/

/-- What is listed of an entry, if it is listed at all. -/
def directEntry (directory : List Char) (entry : DirectoryEntry) : Option LibraryEntry := do
  let name ← entry.name
  if isPrivateLibraryName name = true ∨ '\\' ∈ name then none
  else do
    let (kind, bytes) ← entry.metadata
    if kind = .link ∨ directory = [] ∧ toAsciiLowercase name = tenantStorageDir then none
    else if kind ≠ .directory ∧ kind ≠ .file then none
    else some ⟨relativePath directory name, decide (kind = .directory), bytes⟩

/-- What the loop over the entries of a directory does with one. -/
def pushEntry (directory cursor : List Char) (limit : ℕ) (heap : List LibraryEntry)
    (entry : DirectoryEntry) : List LibraryEntry :=
  match directEntry directory entry with
  | none => heap
  | some listed =>
      if pathBytes listed.path ≤ pathBytes cursor then heap
      else pushBounded entryLe (limit + 1) heap listed

/-- The paths of the directories, the files with their bytes, and whether there are more. -/
structure LibraryPage where
  directories : List (List Char)
  files : List (List Char × ℕ)
  truncated : Bool

/-- The page of some entries. -/
def LibraryPage.ofEntries (entries : List LibraryEntry) (truncated : Bool) : LibraryPage where
  directories := (entries.filter LibraryEntry.isDirectory).map LibraryEntry.path
  files := (entries.filter fun entry => !entry.isDirectory).map fun entry =>
    (entry.path, entry.bytes)
  truncated := truncated

/-- `direct_library_entries_page`. -/
def directLibraryEntriesPage (directory : List Char) (entries : List DirectoryEntry)
    (cursor : List Char) (limit : ℕ) : LibraryPage :=
  let heap := entries.foldl (pushEntry directory cursor limit) []
  .ofEntries (heap.take limit) (decide (limit < heap.length))

/-- The later of two paths. -/
def laterPath (a b : List Char) : List Char := if pathBytes a ≤ pathBytes b then b else a

/-- `next_library_cursor`. -/
def nextLibraryCursor (page : LibraryPage) : List Char :=
  (page.directories ++ page.files.map Prod.fst).foldl laterPath []

/-- `library_cursor_matches_directory`. -/
def libraryCursorMatchesDirectory (directory cursor : List Char) : Bool :=
  if cursor = [] ∨ '\\' ∈ cursor
      ∨ (cursor.splitOn '/').any (fun part => decide (part = [] ∨ part = ['.'] ∨ part = ['.', '.']))
        = true then
    decide (cursor = [])
  else
    match Fields.rsplitOnce ['/'] cursor with
    | none => decide (directory = [])
    | some (parent, _) => decide (parent = directory)

/-- `MAX_LIBRARY_CURSOR_BYTES`. -/
def maxLibraryCursorBytes : ℕ := 4096

/-- `MAX_LIBRARY_DIRECTORY_ENTRIES`. -/
def maxLibraryDirectoryEntries : ℕ := 1000

/-- `MAX_LIBRARY_DIRECTORY_INPUT_BYTES`. -/
def maxLibraryDirectoryInputBytes : ℕ := 1024

/-- `page_limit`. -/
def pageLimit (raw : Option (List Char)) (default max : ℕ) : Except String ℕ := do
  let limit ← (match raw with
    | none => .ok default
    | some text =>
        Fallible.present ((parseU64 text).map UInt64.toNat)
          s!"limit must be an integer between 1 and {max}")
  Fallible.require (1 ≤ limit ∧ limit ≤ max) s!"limit must be between 1 and {max}"
  return limit

/-- `library_directory_paging`. -/
def libraryDirectoryPaging (directory : List Char) (cursor rawLimit : Option (List Char)) :
    Except String (List Char × ℕ) := do
  let cursor := cursor.getD []
  Fallible.require (utf8Len cursor ≤ maxLibraryCursorBytes) "cursor is too long"
  Fallible.require (libraryCursorMatchesDirectory directory cursor = true)
    "cursor does not belong to this directory"
  let limit ← pageLimit rawLimit maxLibraryDirectoryEntries maxLibraryDirectoryEntries
  return (cursor, limit)

/-- `list_library_directory`. -/
def listLibraryDirectory {directory : List Char} (folder : LibraryFolder directory)
    (cursor : List Char) (limit : ℕ) : Except Unit LibraryPage :=
  if folder.rootSafe = false then .ok (.ofEntries [] false)
  else if folder.safe = false then
    if folder.present = false then .ok (.ofEntries [] false) else .error ()
  else
    match folder.listing with
    | none => .error ()
    | some entries => .ok (directLibraryEntriesPage directory entries cursor limit)

/-- `str::trim_matches('/')`. -/
def trimSlashes (text : List Char) : List Char :=
  (text.dropWhile fun c => c = '/').rdropWhile fun c => c = '/'

/-- The components that `safe_library_path` puts below the root. -/
def safeLibraryPath (env : ManifestEnv) (allowHidden : Bool) (input : List Char) :
    Except String (List (List Char)) := do
  let input := trimSlashes input
  Fallible.require (input ≠ []) "path is required"
  (input.splitOn '/').forM fun component => admitComponent env.toPathEnv component allowHidden
  admitPortablePath env.toPathEnv input
  return input.splitOn '/'

/-- A page of `list_outbound_files`, and the cursor of the next one. -/
def listOutboundFiles (env : ManifestEnv) (allowHidden tenanted : Bool)
    (disk : ∀ directory, LibraryFolder directory) (directory : List Char)
    (rawLimit cursor : Option (List Char)) :
    Except String (LibraryPage × Option (List Char)) := do
  Fallible.require (utf8Len directory ≤ maxLibraryDirectoryInputBytes) "directory is too long"
  let directory := trimSlashes directory
  let (cursor, limit) ← libraryDirectoryPaging directory cursor rawLimit
  Fallible.require
    (¬(tenanted = false
      ∧ (directory.splitOn '/').head?.map toAsciiLowercase = some tenantStorageDir))
    "directory is reserved"
  let _ ← (if directory = [] then .ok [] else safeLibraryPath env allowHidden directory)
  let page ← (listLibraryDirectory (disk directory) cursor limit).mapError fun _ =>
    "directory must contain only directories"
  return (page, if page.truncated = true then some (nextLibraryCursor page) else none)

/-! ### The order of the entries -/

/-- What is listed of a folder. -/
def LibraryFolder.listed {directory : List Char} (folder : LibraryFolder directory) :
    List LibraryEntry :=
  if folder.rootSafe = true ∧ folder.safe = true then
    (folder.listing.getD []).filterMap (directEntry directory)
  else []

/-- What is listed of a folder, in the order of the paths. -/
def LibraryFolder.sorted {directory : List Char} (folder : LibraryFolder directory) :
    List LibraryEntry :=
  folder.listed.insertionSort entryLe

theorem pathBytes_inj {path path' : List Char} (h : pathBytes path = pathBytes path') :
  path = path'
  := by
  have hinj : Function.Injective UInt8.toNat := fun a b hab => UInt8.toNat_inj.mp hab
  exact utf8_inj (hinj.list_map h)

theorem nil_le_pathBytes (path : List Char) :
  pathBytes [] ≤ pathBytes path
  := not_lt.mp (List.not_lt_nil _)

instance : Std.Total entryLe := ⟨fun a _ => le_total (toLex (pathBytes a.path, _)) (toLex (_, _))⟩

instance : IsTrans LibraryEntry entryLe := ⟨fun _ _ _ hle hle' => le_trans hle hle'⟩

theorem entryLe_antisymm {a b : LibraryEntry} (h : entryLe a b) (h' : entryLe b a) :
  a = b
  := by
  have heq := toLex_inj.mp (le_antisymm h h')
  obtain ⟨hpath, heq⟩ := Prod.mk.inj heq
  obtain ⟨hdirectory, hbytes⟩ := Prod.mk.inj (toLex_inj.mp heq)
  cases a
  cases b
  cases pathBytes_inj hpath
  cases hdirectory
  cases hbytes
  rfl

theorem entryLe_path {a b : LibraryEntry} (h : entryLe a b) :
  pathBytes a.path ≤ pathBytes b.path
  := by
  rcases (Prod.Lex.toLex_le_toLex.mp h) with hlt | ⟨heq, _⟩
  · exact hlt.le
  · exact heq.le

theorem proper_of_directEntry
    {directory : List Char} {entry : DirectoryEntry} {listed : LibraryEntry}
    (h : directEntry directory entry = some listed) :
  ∃ name, entry.name = some name ∧ '\\' ∉ name ∧ entry.metadata ≠ none
    ∧ listed.path = relativePath directory name
  := by
  obtain ⟨name, hname, h⟩ := Option.bind_eq_some_iff.mp h
  refine ⟨name, hname, ?_⟩
  split_ifs at h with hrefused
  obtain ⟨⟨kind, bytes⟩, hmetadata, h⟩ := Option.bind_eq_some_iff.mp h
  simp only at h
  split_ifs at h
  cases h
  rw [not_or] at hrefused
  exact ⟨hrefused.2, by rw [hmetadata]; exact Option.some_ne_none _, rfl⟩

/-- Names without a separator stay different below a directory. -/
theorem relativePath_inj
    {directory name name' : List Char} (hname : '/' ∉ name) (hname' : '/' ∉ name')
    (h : relativePath directory name = relativePath directory name') :
  name = name'
  := by
  have hmap : name.map (fun c => if c = '\\' then '/' else c)
      = name'.map fun c => if c = '\\' then '/' else c := by
    unfold relativePath at h
    split_ifs at h
    · exact h
    · rw [List.map_append, List.map_append] at h
      exact (List.cons.inj (List.append_cancel_left h)).2
  have hback : ∀ {name : List Char}, '/' ∉ name →
      (name.map fun c => if c = '\\' then '/' else c).map
        (fun c => if c = '/' then '\\' else c) = name := by
    intro name hname
    rw [List.map_map]
    conv_rhs => rw [← List.map_id name]
    apply List.map_congr_left
    intro c hc
    have hslash : c ≠ '/' := fun heq => hname (heq ▸ hc)
    by_cases hc : c = '\\'
    · subst hc
      rfl
    · simp [hc, hslash]
  rw [← hback hname, hmap, hback hname']

variable {directory : List Char}

/-- The paths that are listed are those of different names. -/
theorem nodup_paths
    {entries : List DirectoryEntry}
    (hdistinct : (entries.filterMap DirectoryEntry.name).Nodup) :
  ((entries.filterMap (directEntry directory)).map LibraryEntry.path).Nodup
  := by
  have hsublist : ((entries.filterMap (directEntry directory)).map LibraryEntry.path).Sublist
      ((entries.filterMap DirectoryEntry.name).map (relativePath directory)) := by
    clear hdistinct
    induction entries with
    | nil => exact List.Sublist.refl _
    | cons entry entries ih =>
        cases hentry : directEntry directory entry with
        | none =>
            rw [List.filterMap_cons_none hentry]
            exact ih.trans ((List.Sublist.filterMap _ (List.sublist_cons_self ..)).map _)
        | some listed =>
            obtain ⟨name, hname, _, _, hpath⟩ := proper_of_directEntry hentry
            rw [List.filterMap_cons_some hentry, List.filterMap_cons_some hname, List.map_cons,
              List.map_cons, hpath]
            exact ih.cons_cons _
  refine hsublist.nodup (hdistinct.map_on ?_)
  have hproper : ∀ name ∈ entries.filterMap DirectoryEntry.name, '/' ∉ name := by
    intro name hmem
    obtain ⟨entry, _, hname⟩ := List.mem_filterMap.mp hmem
    exact (entry.proper name hname).2.2.2
  exact fun name hname name' hname' =>
    relativePath_inj (hproper name hname) (hproper name' hname')

theorem LibraryFolder.nodup_listed (folder : LibraryFolder directory) :
  (folder.listed.map LibraryEntry.path).Nodup
  := by
  unfold LibraryFolder.listed
  split_ifs with hsafe
  · cases hlisting : folder.listing with
    | none => exact List.nodup_nil
    | some entries => exact nodup_paths (folder.distinct entries hlisting)
  · exact List.nodup_nil

/-- No path is listed twice. -/
theorem LibraryFolder.sorted_pairwise (folder : LibraryFolder directory) :
  folder.sorted.Pairwise fun a b => pathBytes a.path < pathBytes b.path
  := by
  have hperm := List.perm_insertionSort entryLe folder.listed
  have hnodup : (folder.sorted.map LibraryEntry.path).Nodup :=
    (hperm.map LibraryEntry.path).nodup_iff.mpr folder.nodup_listed
  have hle := List.pairwise_insertionSort entryLe folder.listed
  refine (hle.and (List.pairwise_map.mp hnodup)).imp ?_
  rintro a b ⟨hab, hne⟩
  exact lt_of_le_of_ne (entryLe_path hab) fun heq => hne (pathBytes_inj heq)

/-! ### What a page has -/

theorem foldl_pushEntry
    (cursor : List Char) (limit : ℕ) (entries : List DirectoryEntry) (heap : List LibraryEntry) :
  entries.foldl (pushEntry directory cursor limit) heap
    = (after pathBytes LibraryEntry.path cursor
        (entries.filterMap (directEntry directory))).foldl (pushBounded entryLe (limit + 1)) heap
  := by
  induction entries generalizing heap with
  | nil => rfl
  | cons entry entries ih =>
      rw [List.foldl_cons, ih, pushEntry]
      cases hentry : directEntry directory entry with
      | none => rw [List.filterMap_cons_none hentry]
      | some listed =>
          rw [List.filterMap_cons_some hentry]
          change List.foldl _ (if pathBytes listed.path ≤ pathBytes cursor then heap
            else pushBounded entryLe (limit + 1) heap listed) _ = _
          by_cases hlt : pathBytes cursor < pathBytes listed.path
          · rw [after, after, List.filter_cons_of_pos (by simpa using hlt), if_neg (not_le.mpr hlt),
              List.foldl_cons]
          · rw [after, after, List.filter_cons_of_neg (by simpa using hlt), if_pos (not_lt.mp hlt)]

instance : Std.Antisymm entryLe := ⟨fun _ _ => entryLe_antisymm⟩

/-- What is left of the folder after a cursor. -/
def LibraryFolder.left (folder : LibraryFolder directory) (cursor : List Char) :
    List LibraryEntry :=
  after pathBytes LibraryEntry.path cursor folder.sorted

/-- In whatever order a directory is read, its page has what is first of what is left. -/
theorem ofEntries_nil (cursor : List Char) (limit : ℕ) :
  LibraryPage.ofEntries ((after pathBytes LibraryEntry.path cursor []).take limit)
      (decide (limit < (after pathBytes LibraryEntry.path cursor []).length))
    = .ofEntries [] false
  := by
  rw [after, List.filter_nil, List.take_nil, List.length_nil, decide_eq_false (Nat.not_lt_zero _)]

theorem directLibraryEntriesPage_eq
    (entries : List DirectoryEntry) (cursor : List Char) (limit : ℕ) :
  directLibraryEntriesPage directory entries cursor limit
    = .ofEntries
        ((after pathBytes LibraryEntry.path cursor
          ((entries.filterMap (directEntry directory)).insertionSort entryLe)).take limit)
        (decide (limit < (after pathBytes LibraryEntry.path cursor
          ((entries.filterMap (directEntry directory)).insertionSort entryLe)).length))
  := by
  have hsort : (after pathBytes LibraryEntry.path cursor
        (entries.filterMap (directEntry directory))).reverse.insertionSort entryLe
      = after pathBytes LibraryEntry.path cursor
          ((entries.filterMap (directEntry directory)).insertionSort entryLe) := by
    refine List.Perm.eq_of_pairwise' (List.pairwise_insertionSort entryLe _)
      ((List.pairwise_insertionSort entryLe _).filter _) ?_
    refine (List.perm_insertionSort entryLe _).trans ((List.reverse_perm _).trans ?_)
    exact ((List.perm_insertionSort entryLe _).filter _).symm
  rw [directLibraryEntriesPage, foldl_pushEntry, foldl_pushBounded, hsort, List.take_take,
    Nat.min_eq_left (Nat.le_succ limit)]
  congr 1
  rw [decide_eq_decide, List.length_take]
  omega

/-- When one page of a folder is answered, each is. -/
theorem listLibraryDirectory_eq
    {folder : LibraryFolder directory} {cursor : List Char} {limit : ℕ} {page : LibraryPage}
    (h : listLibraryDirectory folder cursor limit = .ok page) (cursor' : List Char) :
  listLibraryDirectory folder cursor' limit
    = .ok (.ofEntries ((folder.left cursor').take limit)
        (decide (limit < (folder.left cursor').length)))
  := by
  unfold LibraryFolder.left LibraryFolder.sorted
  cases hroot : folder.rootSafe with
  | false =>
      have hlisted : folder.listed = [] := if_neg (by simp [hroot])
      rw [listLibraryDirectory, if_pos hroot, hlisted, List.insertionSort_nil, ofEntries_nil]
  | true =>
      rw [listLibraryDirectory, if_neg (by simp [hroot])] at h ⊢
      cases hsafe : folder.safe with
      | false =>
          have hlisted : folder.listed = [] := if_neg (by simp [hsafe])
          rw [if_pos hsafe] at h
          rw [if_pos rfl, hlisted, List.insertionSort_nil, ofEntries_nil]
          split_ifs at h ⊢
          rfl
      | true =>
          have hlisted : folder.listed
              = (folder.listing.getD []).filterMap (directEntry directory) :=
            if_pos ⟨hroot, hsafe⟩
          rw [if_neg (by simp [hsafe])] at h
          rw [if_neg (by simp), hlisted]
          cases hlisting : folder.listing with
          | none =>
              rw [hlisting] at h
              cases h
          | some entries =>
              change Except.ok (directLibraryEntriesPage directory entries cursor' limit) = _
              rw [directLibraryEntriesPage_eq]
              rfl

/-! ### Cursors -/

theorem foldl_laterPath
    {paths : List (List Char)} {start last : List Char} (hmem : last ∈ start :: paths)
    (hle : ∀ path ∈ start :: paths, pathBytes path ≤ pathBytes last) :
  paths.foldl laterPath start = last
  := by
  induction paths generalizing start with
  | nil => exact (List.mem_singleton.mp hmem).symm
  | cons path paths ih =>
      obtain ⟨hstart, hpaths⟩ := List.forall_mem_cons.mp hle
      obtain ⟨hpath, hrest⟩ := List.forall_mem_cons.mp hpaths
      rw [List.foldl_cons]
      apply ih
      · unfold laterPath
        split_ifs with hlater
        · rcases List.mem_cons.mp hmem with rfl | hmem
          · rw [pathBytes_inj (le_antisymm hlater hpath)]
            exact List.mem_cons_self ..
          · exact hmem
        · rcases List.mem_cons.mp hmem with rfl | hmem
          · exact List.mem_cons_self ..
          · rcases List.mem_cons.mp hmem with rfl | hmem
            · exact absurd hstart hlater
            · exact List.mem_cons_of_mem _ hmem
      · refine List.forall_mem_cons.mpr ⟨?_, hrest⟩
        unfold laterPath
        split_ifs
        · exact hpath
        · exact hstart

/-- The next cursor is the path of the last entry, be it a directory or a file. -/
theorem nextLibraryCursor_ofEntries
    {first : List LibraryEntry} {last : LibraryEntry} {truncated : Bool}
    (hsorted : (first ++ [last]).Pairwise fun a b => pathBytes a.path < pathBytes b.path) :
  nextLibraryCursor (.ofEntries (first ++ [last]) truncated) = last.path
  := by
  have hpaths : ∀ path,
      path ∈ (LibraryPage.ofEntries (first ++ [last]) truncated).directories
        ++ (LibraryPage.ofEntries (first ++ [last]) truncated).files.map Prod.fst
      ↔ ∃ entry ∈ first ++ [last], entry.path = path := by
    intro path
    simp only [LibraryPage.ofEntries, List.mem_append, List.mem_map, List.mem_filter]
    constructor
    · rintro (⟨entry, ⟨hmem, _⟩, hpath⟩ | ⟨_, ⟨entry, ⟨hmem, _⟩, rfl⟩, hpath⟩)
      · exact ⟨entry, hmem, hpath⟩
      · exact ⟨entry, hmem, hpath⟩
    · rintro ⟨entry, hmem, hpath⟩
      cases hdirectory : entry.isDirectory with
      | true => exact .inl ⟨entry, ⟨hmem, hdirectory⟩, hpath⟩
      | false => exact .inr ⟨_, ⟨entry, ⟨hmem, by rw [hdirectory]; rfl⟩, rfl⟩, hpath⟩
  apply foldl_laterPath
  · exact List.mem_cons_of_mem _ ((hpaths _).mpr ⟨last, by simp, rfl⟩)
  · refine List.forall_mem_cons.mpr ⟨nil_le_pathBytes _, ?_⟩
    intro path hpath
    obtain ⟨entry, hmem, rfl⟩ := (hpaths path).mp hpath
    rcases List.mem_append.mp hmem with hmem | hmem
    · exact ((List.pairwise_append.mp hsorted).2.2 entry hmem last (List.mem_singleton_self _)).le
    · rw [List.mem_singleton.mp hmem]

theorem trimSlashes_trimSlashes (text : List Char) :
  trimSlashes (trimSlashes text) = trimSlashes text
  := by
  have hfront : (trimSlashes text).dropWhile (fun c => decide (c = '/')) = trimSlashes text := by
    rw [List.dropWhile_eq_self_iff]
    intro hlength
    have hbegins : trimSlashes text <+: text.dropWhile fun c => decide (c = '/') :=
      List.rdropWhile_prefix ..
    rw [hbegins.getElem hlength]
    exact List.dropWhile_get_zero_not _ text (hlength.trans_le hbegins.length_le)
  conv_lhs => rw [trimSlashes, hfront]
  exact List.rdropWhile_idempotent ..

theorem mem_join {c : Char} {names : List (List Char)} (h : c ∈ join '/' names) :
  c = '/' ∨ ∃ name ∈ names, c ∈ name
  := by
  induction names with
  | nil => cases h
  | cons name names ih =>
      by_cases hnil : names = []
      · subst hnil
        exact .inr ⟨name, List.mem_singleton_self _, by simpa [join] using h⟩
      · rw [join_cons name hnil] at h
        rcases List.mem_append.mp h with h | h
        · exact .inr ⟨name, List.mem_cons_self .., h⟩
        · rcases List.mem_cons.mp h with h | h
          · exact .inl h
          · obtain hslash | ⟨name', hmem, hc⟩ := ih h
            · exact .inl hslash
            · exact .inr ⟨name', List.mem_cons_of_mem _ hmem, hc⟩

variable {env : ManifestEnv} {allowHidden tenanted : Bool}
  {disk : ∀ directory, LibraryFolder directory}

/-- The root, or a path of admitted components. -/
def AdmittedDirectory (env : ManifestEnv) (allowHidden : Bool) (directory : List Char) : Prop :=
  directory = [] ∨ ∀ component ∈ directory.splitOn '/',
    admitComponent env.toPathEnv component allowHidden = .ok ()

/-- What is listed of an admitted directory is a cursor of it. -/
theorem matches_relativePath
    {name : List Char} (hdirectory : AdmittedDirectory env allowHidden directory)
    (hname : name ≠ [] ∧ name ≠ ['.'] ∧ name ≠ ['.', '.'] ∧ '/' ∉ name) (hback : '\\' ∉ name) :
  libraryCursorMatchesDirectory directory (relativePath directory name) = true
  := by
  have hkept : ∀ {text : List Char}, '\\' ∉ text →
      (text.map fun c => if c = '\\' then '/' else c) = text := by
    intro text htext
    conv_rhs => rw [← List.map_id text]
    apply List.map_congr_left
    intro c hc
    have hne : c ≠ '\\' := fun heq => htext (heq ▸ hc)
    exact if_neg hne
  obtain ⟨hempty, hdot, hdots, hslash⟩ := hname
  unfold relativePath
  split_ifs with hroot
  · have hsplit : name.splitOn '/' = [name] := List.splitOn_eq_singleton hslash
    rw [hkept hback, libraryCursorMatchesDirectory, hsplit,
      if_neg (by simp [hempty, hback, hdot, hdots]), Fields.rsplitOnce_of_notMem hslash]
    exact decide_eq_true hroot
  · have hadmitted := hdirectory.resolve_left hroot
    have hdirback : '\\' ∉ directory := by
      intro hmem
      rw [← join_splitOn '/' directory] at hmem
      obtain heq | ⟨component, hcomponent, hmem⟩ := mem_join hmem
      · cases heq
      · have hrefused := (admitComponent_ok (hadmitted component hcomponent)).characters _ hmem
        simp [isRefusedCharacter] at hrefused
    have hpath : '\\' ∉ directory ++ '/' :: name := by
      simp [hdirback, hback]
    have hsplit : (directory ++ '/' :: name).splitOn '/' = directory.splitOn '/' ++ [name] := by
      rw [List.splitOn_append_cons_self, List.splitOn_eq_singleton hslash]
    have hparts : ((directory.splitOn '/' ++ [name]).any fun part =>
        decide (part = [] ∨ part = ['.'] ∨ part = ['.', '.'])) = false := by
      rw [List.any_eq_false]
      intro part hpart
      rw [decide_eq_true_iff]
      rcases List.mem_append.mp hpart with hpart | hpart
      · have hne := (admitComponent_ok (hadmitted part hpart)).ne_nil
        obtain ⟨hne', hne''⟩ := ne_dots_of_admitComponent (hadmitted part hpart)
        simp [hne, hne', hne'']
      · rw [List.mem_singleton.mp hpart]
        simp [hempty, hdot, hdots]
    have hcut : Fields.rsplitOnce ['/'] (directory ++ '/' :: name) = some (directory, name) :=
      @Fields.rsplitOnce_append _ _ '/' [] _ _ hslash
    rw [hkept hpath, libraryCursorMatchesDirectory, hsplit, hparts, hcut,
      if_neg (by simp [hpath])]
    exact decide_eq_true rfl

/-- The cursors of a folder: none, or the path of an entry. -/
def LibraryFolder.Cursor (folder : LibraryFolder directory) (cursor : List Char) : Prop :=
  cursor = [] ∨ ∃ entry ∈ folder.listed, entry.path = cursor

theorem LibraryFolder.Cursor.admitted
    {folder : LibraryFolder directory} {cursor : List Char}
    (hdirectory : AdmittedDirectory env allowHidden directory) (h : folder.Cursor cursor) :
  utf8Len cursor ≤ maxLibraryCursorBytes
    ∧ libraryCursorMatchesDirectory directory cursor = true
  := by
  obtain rfl | ⟨listed, hlisted, rfl⟩ := h
  · exact ⟨Nat.zero_le _, rfl⟩
  · unfold LibraryFolder.listed at hlisted
    split_ifs at hlisted
    · obtain ⟨entry, hentry, hlisted⟩ := List.mem_filterMap.mp hlisted
      obtain ⟨name, hname, hback, hmetadata, hpath⟩ := proper_of_directEntry hlisted
      rw [hpath]
      refine ⟨?_, matches_relativePath hdirectory (entry.proper name hname) hback⟩
      cases hlisting : folder.listing with
      | none =>
          rw [hlisting] at hentry
          cases hentry
      | some entries =>
          rw [hlisting] at hentry
          exact folder.reached entries hlisting entry hentry hmetadata name hname
    · cases hlisted

theorem admittedDirectory_of_safeLibraryPath
    {input : List Char} {components : List (List Char)}
    (h : safeLibraryPath env allowHidden (trimSlashes input) = .ok components) :
  AdmittedDirectory env allowHidden (trimSlashes input)
  := by
  rw [safeLibraryPath, trimSlashes_trimSlashes] at h
  obtain ⟨_, _, h⟩ := Fallible.bind_eq_ok.mp h
  obtain ⟨_, hcomponents, _⟩ := Fallible.bind_eq_ok.mp h
  exact .inr (Fallible.forM_eq_ok.mp hcomponents)

/-- When a page of a directory is answered, it is admitted, and so is each of its cursors. -/
theorem listOutboundFiles_eq
    {input : List Char} {rawLimit cursor : Option (List Char)}
    {answer : LibraryPage × Option (List Char)}
    (h : listOutboundFiles env allowHidden tenanted disk input rawLimit cursor = .ok answer) :
  ∃ limit, 1 ≤ limit ∧ limit ≤ maxLibraryDirectoryEntries
    ∧ pageLimit rawLimit maxLibraryDirectoryEntries maxLibraryDirectoryEntries = .ok limit
    ∧ ∀ cursor', (disk (trimSlashes input)).Cursor cursor' →
      ∃ page, page = LibraryPage.ofEntries (((disk (trimSlashes input)).left cursor').take limit)
          (decide (limit < ((disk (trimSlashes input)).left cursor').length))
        ∧ listOutboundFiles env allowHidden tenanted disk input rawLimit (some cursor')
          = .ok (page, if page.truncated = true then some (nextLibraryCursor page) else none)
  := by
  obtain ⟨_, hlength, h⟩ := Fallible.bind_eq_ok.mp h
  obtain ⟨⟨cursor₀, limit⟩, hpaging, h⟩ := Fallible.bind_eq_ok.mp h
  obtain ⟨_, hreserved, h⟩ := Fallible.bind_eq_ok.mp h
  obtain ⟨components, hsafe, h⟩ := Fallible.bind_eq_ok.mp h
  obtain ⟨page, hpage, _⟩ := Fallible.bind_eq_ok.mp h
  have hlist := Fallible.mapError_eq_ok.mp hpage
  obtain ⟨_, _, hpaging⟩ := Fallible.bind_eq_ok.mp hpaging
  obtain ⟨_, _, hpaging⟩ := Fallible.bind_eq_ok.mp hpaging
  obtain ⟨limit', hlimit, hpaging⟩ := Fallible.bind_eq_ok.mp hpaging
  cases hpaging
  have hdirectory : AdmittedDirectory env allowHidden (trimSlashes input) := by
    by_cases hroot : trimSlashes input = []
    · exact .inl hroot
    · rw [if_neg hroot] at hsafe
      exact admittedDirectory_of_safeLibraryPath hsafe
  obtain ⟨hone, hmost⟩ : 1 ≤ limit ∧ limit ≤ maxLibraryDirectoryEntries := by
    obtain ⟨_, _, hrange⟩ := Fallible.bind_eq_ok.mp hlimit
    obtain ⟨_, hrange, heq⟩ := Fallible.bind_eq_ok.mp hrange
    cases heq
    exact Fallible.require_eq_ok.mp hrange
  refine ⟨limit, hone, hmost, hlimit, ?_⟩
  intro cursor' hcursor
  obtain ⟨hbytes, hmatches⟩ := hcursor.admitted hdirectory
  have hpaging : libraryDirectoryPaging (trimSlashes input) (some cursor') rawLimit
      = .ok (cursor', limit) :=
    Fallible.bind_eq_ok.mpr ⟨(), Fallible.require_eq_ok.mpr hbytes, Fallible.bind_eq_ok.mpr
      ⟨(), Fallible.require_eq_ok.mpr hmatches, Fallible.bind_eq_ok.mpr ⟨limit, hlimit, rfl⟩⟩⟩
  refine ⟨_, rfl, ?_⟩
  exact Fallible.bind_eq_ok.mpr ⟨(), hlength, Fallible.bind_eq_ok.mpr ⟨_, hpaging,
    Fallible.bind_eq_ok.mpr ⟨(), hreserved, Fallible.bind_eq_ok.mpr ⟨components, hsafe,
      Fallible.bind_eq_ok.mpr ⟨_, Fallible.mapError_eq_ok.mpr (listLibraryDirectory_eq hlist cursor'),
        rfl⟩⟩⟩⟩⟩

/-! ### All pages -/

theorem isPage_ofEntries
    (folder : LibraryFolder directory) (cursor : List Char) (limit : ℕ) (hlimit : 0 < limit)
    {page : LibraryPage} (hpage : page = .ofEntries ((folder.left cursor).take limit)
      (decide (limit < (folder.left cursor).length))) :
  IsPage LibraryEntry.path limit (folder.left cursor) ((folder.left cursor).take limit)
    (if page.truncated = true then some (nextLibraryCursor page) else none)
  := by
  have hpairs : (folder.left cursor).Pairwise fun a b => pathBytes a.path < pathBytes b.path :=
    folder.sorted_pairwise.filter _
  subst hpage
  refine ⟨rfl, ?_, ?_⟩
  · intro hshort
    exact if_neg (by simpa [LibraryPage.ofEntries] using hshort)
  · intro hlong
    have hne : (folder.left cursor).take limit ≠ [] := by
      rw [ne_eq, List.take_eq_nil_iff, not_or]
      exact ⟨hlimit.ne', fun hnil => by simp [hnil] at hlong⟩
    obtain ⟨first, last, hlast⟩ := (List.eq_nil_or_concat _).resolve_left hne
    rw [List.concat_eq_append] at hlast
    have htake := hpairs.sublist (List.take_sublist limit _)
    rw [hlast] at htake ⊢
    refine ⟨last, List.getLast?_concat .., ?_⟩
    refine (if_pos (decide_eq_true hlong)).trans ?_
    rw [nextLibraryCursor_ofEntries htake]

theorem flatMap_of_forall₂
    {β : Type} {answers : List (LibraryPage × Option (List Char))}
    {pages : List (List LibraryEntry)} {part : LibraryPage → List β}
    (shown : List LibraryEntry → List β)
    (hshown : ∀ first rest, shown (first ++ rest) = shown first ++ shown rest)
    (hnil : shown [] = [])
    (h : List.Forall₂ (fun answer page => ∃ truncated,
      answer.1 = LibraryPage.ofEntries page truncated) answers pages)
    (hpart : ∀ page truncated, part (.ofEntries page truncated) = shown page) :
  answers.flatMap (fun answer => part answer.1) = shown pages.flatten
  := by
  induction h with
  | nil => exact hnil.symm
  | cons hanswer _ ih =>
      obtain ⟨truncated, hanswer⟩ := hanswer
      rw [List.flatMap_cons, List.flatten_cons, hshown, ih, hanswer, hpart]

theorem length_le_of_forall₂
    {answers : List (LibraryPage × Option (List Char))} {pages : List (List LibraryEntry)}
    {limit : ℕ} (h : List.Forall₂ (fun answer page => ∃ truncated,
      answer.1 = LibraryPage.ofEntries page truncated) answers pages)
    (hrooms : ∀ page ∈ pages, page.length ≤ limit) :
  ∀ answer ∈ answers, answer.1.directories.length + answer.1.files.length ≤ limit
  := by
  induction h with
  | nil =>
      intro answer hmem
      cases hmem
  | @cons answer page answers pages hanswer _ ih =>
      obtain ⟨hpage, hrest⟩ := List.forall_mem_cons.mp hrooms
      refine List.forall_mem_cons.mpr ⟨?_, ih hrest⟩
      obtain ⟨truncated, hanswer⟩ := hanswer
      have hparts := List.length_eq_length_filter_add (l := page) LibraryEntry.isDirectory
      rw [hanswer, LibraryPage.ofEntries, List.length_map, List.length_map]
      omega

/-- Every path comes after the empty cursor. -/
theorem LibraryFolder.left_nil (folder : LibraryFolder directory) :
  folder.left [] = folder.sorted
  := by
  refine List.filter_eq_self.mpr ?_
  intro listed hlisted
  have hmem := (List.perm_insertionSort entryLe folder.listed).mem_iff.mp hlisted
  have hpath : listed.path ≠ [] := by
    unfold LibraryFolder.listed at hmem
    split_ifs at hmem
    · obtain ⟨entry, _, hentry⟩ := List.mem_filterMap.mp hmem
      obtain ⟨name, hname, _, _, hpath⟩ := proper_of_directEntry hentry
      rw [hpath, relativePath]
      split_ifs
      · simpa using (entry.proper name hname).1
      · simp
    · cases hmem
  have hne : pathBytes [] ≠ pathBytes listed.path := fun heq => hpath (pathBytes_inj heq).symm
  have hlt : pathBytes [] < pathBytes listed.path :=
    lt_of_le_of_ne (nil_le_pathBytes _) hne
  simpa using hlt

/-- When the first page of a directory is answered, following the cursors ends, no page is refused
or too long, and the pages together have each directory and each file once, in the order of the
paths. -/
theorem listOutboundFiles_pages
    {input : List Char} {rawLimit : Option (List Char)}
    {answer : LibraryPage × Option (List Char)}
    (h : listOutboundFiles env allowHidden tenanted disk input rawLimit none = .ok answer) :
  ∃ limit, pageLimit rawLimit maxLibraryDirectoryEntries maxLibraryDirectoryEntries = .ok limit
    ∧ ∃ answers,
      (∀ answers', Follows
          (fun cursor => listOutboundFiles env allowHidden tenanted disk input rawLimit (some cursor))
          Prod.snd [] answers' ↔ answers' = answers)
        ∧ answers.head? = some answer
        ∧ answers.length ≤ (disk (trimSlashes input)).listed.length / limit + 1
        ∧ (∀ answer ∈ answers,
          answer.1.directories.length + answer.1.files.length ≤ limit)
        ∧ answers.flatMap (fun answer => answer.1.directories)
          = ((disk (trimSlashes input)).sorted.filter LibraryEntry.isDirectory).map
            LibraryEntry.path
        ∧ answers.flatMap (fun answer => answer.1.files)
          = ((disk (trimSlashes input)).sorted.filter fun entry => !entry.isDirectory).map
            (fun entry => (entry.path, entry.bytes))
        ∧ (disk (trimSlashes input)).sorted.Perm (disk (trimSlashes input)).listed
        ∧ (disk (trimSlashes input)).sorted.Pairwise fun a b => pathBytes a.path < pathBytes b.path
  := by
  obtain ⟨limit, hone, _, hlimit, hfetch⟩ := listOutboundFiles_eq h
  refine ⟨limit, hlimit, ?_⟩
  have hperm := List.perm_insertionSort entryLe (disk (trimSlashes input)).listed
  have hpages : ∀ cursor, (disk (trimSlashes input)).Cursor cursor →
      ∃ answer page, listOutboundFiles env allowHidden tenanted disk input rawLimit (some cursor)
          = .ok answer
        ∧ (∃ truncated, answer.1 = LibraryPage.ofEntries page truncated)
        ∧ IsPage LibraryEntry.path limit ((disk (trimSlashes input)).left cursor) page answer.2 := by
    intro cursor hcursor
    obtain ⟨page, hpage, hanswer⟩ := hfetch cursor hcursor
    exact ⟨_, _, hanswer, ⟨_, hpage⟩, isPage_ofEntries _ cursor limit hone hpage⟩
  have hcursors : ∀ entry ∈ (disk (trimSlashes input)).sorted,
      (disk (trimSlashes input)).Cursor entry.path :=
    fun entry hentry => .inr ⟨entry, hperm.mem_iff.mp hentry, rfl⟩
  obtain ⟨answers, pages, hfollows, hshow, hflatten, hrooms, hcount⟩ :=
    exists_follows (disk (trimSlashes input)).sorted_pairwise hone _ hcursors _ hpages (.inl rfl)
  have hall : (disk (trimSlashes input)).left [] = (disk (trimSlashes input)).sorted :=
    (disk (trimSlashes input)).left_nil
  change pages.flatten = (disk (trimSlashes input)).left [] at hflatten
  change pages.length ≤ ((disk (trimSlashes input)).left []).length / limit + 1 at hcount
  rw [hall] at hflatten hcount
  refine ⟨answers, fun answers' => ⟨fun h' => h'.unique hfollows, fun h' => h' ▸ hfollows⟩, ?_, ?_,
    ?_, ?_, ?_, hperm, (disk (trimSlashes input)).sorted_pairwise⟩
  · cases hfollows with
    | last hfirst _ =>
        cases h.symm.trans hfirst
        rfl
    | next hfirst _ _ =>
        cases h.symm.trans hfirst
        rfl
  · rw [hshow.length_eq, ← hperm.length_eq]
    exact hcount
  · exact length_le_of_forall₂ hshow hrooms
  · rw [flatMap_of_forall₂
        (fun page => (page.filter LibraryEntry.isDirectory).map LibraryEntry.path)
        (fun _ _ => by simp) rfl hshow fun _ _ => rfl, hflatten]
  · rw [flatMap_of_forall₂
        (fun page => (page.filter fun entry => !entry.isDirectory).map
          fun entry => (entry.path, entry.bytes))
        (fun _ _ => by simp) rfl hshow fun _ _ => rfl, hflatten]

/-- An entry that is a file of one byte. -/
def oneByte (name : List Char)
    (h : name ≠ [] ∧ name ≠ ['.'] ∧ name ≠ ['.', '.'] ∧ '/' ∉ name) : DirectoryEntry where
  name := some name
  metadata := some (.file, 1)
  proper := by
    rintro _ ⟨⟩
    exact h

/-- Two files in the root, read in the other order. -/
def twoFiles : LibraryFolder [] where
  rootSafe := true
  safe := true
  present := true
  listing := some [oneByte ['b'] (by decide), oneByte ['a'] (by decide)]
  distinct := by
    rintro _ ⟨⟩
    decide
  reached := by
    rintro _ ⟨⟩ entry hentry _ name hname
    rcases List.mem_cons.mp hentry with rfl | hentry
    · cases hname
      decide
    · cases List.mem_singleton.mp hentry
      cases hname
      decide

/-- A directory that is not there. -/
def absentFolder (directory : List Char) : LibraryFolder directory where
  rootSafe := true
  safe := false
  present := false
  listing := none
  distinct := by
    rintro _ ⟨⟩
  reached := by
    rintro _ ⟨⟩

/-- The two files and no directory. -/
def twoFilesDisk : ∀ directory, LibraryFolder directory
  | [] => twoFiles
  | c :: directory => absentFolder (c :: directory)

theorem listOutboundFiles_pages_two :
  ∃ limit, pageLimit (some ['1']) 1000 1000 = .ok limit
    ∧ ∃ answers,
      (∀ answers', Follows
          (fun cursor =>
            listOutboundFiles joinedPaths true false twoFilesDisk ['/'] (some ['1']) (some cursor))
          Prod.snd [] answers' ↔ answers' = answers)
        ∧ answers.head? = some (⟨[], [(['a'], 1)], true⟩, some ['a'])
        ∧ answers.length ≤ twoFiles.listed.length / limit + 1
  := by
  have hfirst : listOutboundFiles joinedPaths true false twoFilesDisk ['/'] (some ['1']) none
      = .ok (⟨[], [(['a'], 1)], true⟩, some ['a']) := by
    rfl
  obtain ⟨limit, hlimit, answers, hfollows, hhead, hlength, _⟩ := listOutboundFiles_pages hfirst
  exact ⟨limit, hlimit, answers, hfollows, hhead, hlength⟩

end Votport
