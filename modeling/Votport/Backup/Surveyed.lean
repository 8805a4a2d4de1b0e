import Votport.Backup.Survey

/-!
# What the survey makes tombstones

The walk, where it does not fail, has read the whole tree but for the folders that it notes, and the
staging folders.  No name that admission accepts is passed over, so an admitted record whose file is
in the tree is either found, or lies below a noted folder.
-/

namespace Votport.Backup

open Listings

variable {env : PathEnv} {access : Access} {listing : Listing FileName} {walk walk' : Walk}
  {path above : List FileName}

/-! ### The walk -/

theorem isName_of_mem {n : List Char} (h : n ∈ path.map Subtype.val) :
  IsName '/' n
  := by
  obtain ⟨m, _, rfl⟩ := List.mem_map.mp h
  exact m.2

theorem pathText_concat (name : FileName) :
  relativePath (pathText above) name.1 = pathText (above ++ [name])
  := by
  rw [relativePath, pathText, pathText]
  by_cases h : above = []
  · subst h
    simp [join]
  · have hne : above.map Subtype.val ≠ [] := by
      rwa [ne_eq, List.map_eq_nil_iff]
    rw [if_neg (join_ne_nil hne fun n => isName_of_mem), List.map_append, List.map_singleton,
      join_append hne (List.cons_ne_nil _ _)]
    simp [join]

/-- A path below one, as text. -/
def below (above : List FileName) (paths : List (List FileName)) : List (List Char) :=
  paths.map fun path => pathText (above ++ path)

theorem below_append (paths paths' : List (List FileName)) :
  below above (paths ++ paths') = below above paths ++ below above paths'
  := by
  exact List.map_append

theorem below_concat (name : FileName) (paths : List (List FileName)) :
  below (above ++ [name]) paths = below above (paths.map (name :: ·))
  := by
  simp [below]

/-- The walk after it has read a listing. -/
def Walk.after (walk : Walk) (env : PathEnv) (above : List FileName) (listing : Listing FileName) :
    Walk where
  onDisk := walk.onDisk ++ below above (listing.files skipsFolder (skipsFile env))
  unreadable := walk.unreadable ++ below above (listing.barred skipsFolder)
  remaining := walk.remaining - listing.entries skipsFolder

theorem Walk.spend_eq (h : walk.spend = some walk') :
  0 < walk.remaining ∧ walk' = { walk with remaining := walk.remaining - 1 }
  := by
  obtain ⟨hne, hspent⟩ := Option.ite_none_left_eq_some.mp h
  cases hspent
  exact ⟨Nat.pos_of_ne_zero hne, rfl⟩

theorem Walk.found_eq (name : Option FileName) :
  walk.found env (pathText above) name
    = { walk with
        onDisk := walk.onDisk ++ below above
          (name.toList.flatMap fun n => if skipsFile env n = true then [] else [[n]]) }
  := by
  cases name with
  | none => simp [found, below]
  | some name =>
      by_cases h : skipsFile env name = true
      · have hfilter : (some name).filter (fun name => !skipsFile env name) = none := by simp [h]
        rw [found, hfilter]
        simp [below, h]
      · have hfilter : (some name).filter (fun name => !skipsFile env name) = some name := by
          simp [h]
        rw [found, hfilter]
        simp [below, h, pathText_concat]

/-- A walk that does not fail has read all that it goes into. -/
theorem collectEntries_eq
    {depth : ℕ} (h : collectEntries env depth (pathText above) listing walk = some walk') :
  listing.Readable skipsFolder ∧ listing.entries skipsFolder ≤ walk.remaining
    ∧ walk' = walk.after env above listing
  := by
  induction listing generalizing depth above walk walk' with
  | done =>
      cases h
      simp [Listing.Readable, Listing.entries, Walk.after, Listing.files, Listing.barred, below]
  | broken rest ih => cases h
  | file name rest ih =>
      obtain ⟨spent, hspend, hrest⟩ := Option.bind_eq_some_iff.mp h
      obtain ⟨hpos, rfl⟩ := Walk.spend_eq hspend
      rw [Walk.found_eq] at hrest
      obtain ⟨hread, hentries, rfl⟩ := ih hrest
      dsimp only at hentries
      refine ⟨hread, ?_, ?_⟩
      · rw [Listing.entries]
        omega
      · simp only [Walk.after, Listing.files, Listing.barred, Listing.entries, below_append,
          List.append_assoc]
        congr 1
        omega
  | other name rest ih =>
      obtain ⟨spent, hspend, hrest⟩ := Option.bind_eq_some_iff.mp h
      obtain ⟨hpos, rfl⟩ := Walk.spend_eq hspend
      obtain ⟨hread, hentries, rfl⟩ := ih hrest
      dsimp only at hentries
      refine ⟨hread, ?_, ?_⟩
      · rw [Listing.entries]
        omega
      · simp only [Walk.after, Listing.files, Listing.barred, Listing.entries]
        congr 1
        omega
  | unknown name rest ih => cases h
  | folder name access contents rest ihc ihr =>
      obtain ⟨spent, hspend, h⟩ := Option.bind_eq_some_iff.mp h
      obtain ⟨hpos, rfl⟩ := Walk.spend_eq hspend
      obtain ⟨inner, hinner, hrest⟩ := Option.bind_eq_some_iff.mp h
      obtain ⟨hread, hentries, rfl⟩ := ihr hrest
      cases name with
      | none =>
          cases hinner
          dsimp only at hentries
          refine ⟨⟨by simp [Listing.enters], hread⟩, ?_, ?_⟩
          · simp only [Listing.entries, Listing.enters, Bool.false_eq_true, false_and, if_false]
            omega
          · simp only [Walk.after, Listing.files, Listing.barred, Listing.entries, Listing.enters,
              Bool.false_eq_true, false_and, if_false, Option.toList_none, List.flatMap_nil,
              List.nil_append]
            congr 1
            omega
      | some name =>
          by_cases hskip : skipsFolder name = true
          · have hfilter : (some name).filter (fun name => !skipsFolder name) = none := by
              simp [hskip]
            rw [hfilter] at hinner
            cases hinner
            dsimp only at hentries
            refine ⟨⟨by simp [Listing.enters, hskip], hread⟩, ?_, ?_⟩
            · simp only [Listing.entries, Listing.enters, hskip, Bool.not_true,
                Bool.false_eq_true, false_and, if_false]
              omega
            · simp only [Walk.after, Listing.files, Listing.barred, Listing.entries,
                Listing.enters, hskip, Bool.not_true, Bool.false_eq_true, false_and, if_false,
                Option.toList_some, List.flatMap_singleton, true_or, if_true, List.nil_append]
              congr 1
              omega
          · have hfilter : (some name).filter (fun name => !skipsFolder name) = some name := by
              simp [hskip]
            rw [hfilter] at hinner
            have henters : Listing.enters skipsFolder (some name) = true := by
              simpa [Listing.enters] using hskip
            have hcases : (access = .granted ∧ collectEntries env (depth + 1)
                  (relativePath (pathText above) name.1) contents
                  { walk with remaining := walk.remaining - 1 } = some inner)
                ∨ (access ≠ .granted ∧ access ≠ .failed ∧ inner
                  = ({ walk with remaining := walk.remaining - 1 } : Walk).refused
                    (relativePath (pathText above) name.1)) := by
              cases access with
              | granted => exact .inl ⟨rfl, (Option.ite_none_left_eq_some.mp hinner).2⟩
              | closed => exact .inr ⟨by decide, by decide, (Option.some.inj hinner).symm⟩
              | denied =>
                  have hsome := (Option.ite_none_left_eq_some.mp hinner).2
                  exact .inr ⟨by decide, by decide, (Option.some.inj hsome).symm⟩
              | failed => cases hinner
            rw [pathText_concat] at hcases
            clear hinner
            rcases hcases with ⟨rfl, hcollect⟩ | ⟨hgranted, hfailed, rfl⟩
            · obtain ⟨hcontents, hinside, rfl⟩ := ihc hcollect
              simp only [Walk.after] at hentries hinside
              refine ⟨⟨fun _ => ⟨by decide, fun _ => hcontents⟩, hread⟩, ?_, ?_⟩
              · simp only [Listing.entries, henters, true_and, if_true]
                omega
              · simp only [Walk.after, Listing.files, Listing.barred, Listing.entries, henters,
                  hskip, true_and, if_true, Option.toList_some, List.flatMap_singleton,
                  ne_eq, not_true_eq_false, below_append, below_concat, List.append_assoc]
                congr 1
                omega
            · simp only [Walk.refused] at hentries
              refine ⟨⟨fun _ => ⟨hfailed, fun h => absurd h hgranted⟩, hread⟩, ?_, ?_⟩
              · simp only [Listing.entries, hgranted, and_false, if_false]
                omega
              · simp only [Walk.after, Walk.refused, Listing.files, Listing.barred,
                  Listing.entries, hskip, hgranted, hfailed, Option.toList_some,
                  List.flatMap_singleton, ne_eq, not_false_eq_true, or_true, and_false, if_true,
                  if_false, List.nil_append, below_append, List.append_assoc]
                congr 1
                omega

/-! ### The records -/

/-- The names on the path of a record's file. -/
def FileRow.place (row : FileRow) : List (List Char) := row.stored.splitOn '/'

/-- There is a regular file at the record's path. -/
def FileRow.Present (row : FileRow) (tree : Listing FileName) : Prop :=
  ∃ path, path.map Subtype.val = row.place ∧ tree.Holds path

/-- The record's path lies below a folder that may not be listed. -/
def FileRow.Hidden (row : FileRow) (tree : Listing FileName) : Prop :=
  ∃ path rest, rest ≠ [] ∧ row.place = path.map Subtype.val ++ rest ∧ tree.Barred path

/-- Admission accepts the names of the record: the key of a tenant does not begin with a dot and
has no separator. -/
structure FileRow.Admitted (env : PathEnv) (row : FileRow) : Prop where
  tenant : row.tenant.head? ≠ some '.' ∧ '/' ∉ row.tenant
  named : ∃ part ∈ row.storedAs.splitOn '/', part ≠ []
  parts : ∀ part ∈ row.storedAs.splitOn '/', part ≠ [] →
    ∃ allowHidden, admitComponent env part allowHidden = .ok ()

/-- What the survey has found to be so before it makes a tombstone. -/
structure Volume.Read (volume : Volume) (env : PathEnv) (faults : SurveyFaults)
    (rows : List FileRow) (tree : Listing FileName) : Prop where
  present : volume.present = true
  held : volume.held = some (.granted, tree)
  qualified : volume.saved = true
  currentBefore : volume.currentBefore = true
  currentAfter : volume.currentAfter = true
  records : faults.read = false
  recordLimit : (rows.filter FileRow.live).length ≤ surveyEntryLimit
  entryLimit : tree.entries skipsFolder ≤ surveyEntryLimit
  readable : tree.Readable skipsFolder

variable {row : FileRow} {rows keys : List FileRow} {tree : Listing FileName} {volume : Volume}
  {faults : SurveyFaults} {partly : Walk}

/-- The updates, one after the other, are one of each row. -/
theorem foldl_tombstoneRows :
  keys.foldl tombstoneRows rows = rows.map fun row =>
    if row.deleted = false ∧ ∃ key ∈ keys, row.tenant = key.tenant ∧ row.storedAs = key.storedAs
    then row.tombstone else row
  := by
  induction keys generalizing rows with
  | nil => simp
  | cons key keys ih =>
      rw [List.foldl_cons, ih, tombstoneRows, List.map_map]
      apply List.map_congr_left
      intro row _
      by_cases hdeleted : row.deleted = false
      · by_cases hkey : row.tenant = key.tenant ∧ row.storedAs = key.storedAs
        · simp [hdeleted, hkey.1, hkey.2, FileRow.tombstone]
        · simp [hdeleted, hkey]
      · simp [hdeleted]

theorem mem_missingPaths {records : List FileRow} {path : List Char} :
  path ∈ missingPaths walk records
    ↔ (∃ row ∈ records, row.stored = path) ∧ path ∉ walk.onDisk ∧ walk.under path = false
  := by
  rw [missingPaths, List.mem_filter, List.mem_filter, List.mem_dedup, List.mem_map]
  simp [and_assoc]

/-- The walk of a tree that was read. -/
theorem collectPayloadFiles_eq (h : collectPayloadFiles env (access, tree) = some walk) :
  access = .granted ∧ tree.Readable skipsFolder ∧ tree.entries skipsFolder ≤ surveyEntryLimit
    ∧ walk.onDisk = (tree.files skipsFolder (skipsFile env)).map pathText
    ∧ walk.unreadable = (tree.barred skipsFolder).map pathText
  := by
  obtain ⟨hgranted, hcollect⟩ := Option.ite_none_right_eq_some.mp h
  have hroot : pathText [] = [] := by simp [pathText, join]
  rw [← hroot] at hcollect
  obtain ⟨hread, hentries, rfl⟩ := collectEntries_eq hcollect
  exact ⟨hgranted, hread, hentries, rfl, rfl⟩

/-- What is below a refused folder, by the names of the path. -/
theorem under_iff (hunreadable : walk.unreadable = (tree.barred skipsFolder).map pathText)
    {path : List Char} :
  walk.under path = true ↔ ∃ p rest, rest ≠ [] ∧ path.splitOn '/' = p.map Subtype.val ++ rest
    ∧ p ∈ tree.barred skipsFolder
  := by
  rw [Walk.under, hunreadable, List.any_map, List.any_eq_true]
  have hp : ∀ p ∈ tree.barred skipsFolder, p.map Subtype.val ≠ [] := by
    intro p hp hnil
    rw [List.map_eq_nil_iff] at hnil
    exact Listing.not_barred_nil (Listing.barred_of_mem_barred (hnil ▸ hp))
  constructor
  · rintro ⟨p, hmem, hprefix⟩
    obtain ⟨rest, hrest, hsplit⟩ := (join_prefix_iff (hp p hmem) (fun n => isName_of_mem) path).mp
      (of_decide_eq_true hprefix)
    exact ⟨p, rest, hrest, hsplit, hmem⟩
  · rintro ⟨p, rest, hrest, hsplit, hmem⟩
    refine ⟨p, hmem, decide_eq_true ?_⟩
    exact (join_prefix_iff (hp p hmem) (fun n => isName_of_mem) path).mpr ⟨rest, hrest, hsplit⟩

/-! ### Names -/

theorem skipsFolder_of_no_dot {name : FileName} (h : name.1.head? ≠ some '.') :
  skipsFolder name = false
  := by
  have hstage : name.1 ≠ ".vot-stage".toList := by
    intro he
    have hhead : ".vot-stage".toList.head? = some '.' := by decide
    exact h (he ▸ hhead)
  have hpush : isPushStagingName name.1 = false := by
    by_contra hpush
    rw [Bool.not_eq_false, isPushStagingName, Bool.and_eq_true, decide_eq_true_eq] at hpush
    obtain ⟨⟨⟨rest, hrest⟩, _⟩, _⟩ := hpush
    have hstart : ".vot-push-".toList = '.' :: "vot-push-".toList := by decide
    rw [hstart] at hrest
    exact h (by rw [← hrest]; rfl)
  rw [skipsFolder, hpush, decide_eq_false hstage]
  rfl

/-- No name that admission accepts is passed over. -/
theorem not_skipped {name : FileName} {allowHidden : Bool}
    (h : admitComponent env name.1 allowHidden = .ok ()) :
  skipsFolder name = false ∧ skipsFile env name = false
  := by
  have hname := admitComponent_ok h
  obtain ⟨hstage, hpush⟩ := hname.not_staging
  constructor
  · rw [skipsFolder, hpush, decide_eq_false hstage]
    rfl
  · exact hname.receipt

/-- The parts that the record is stored under. -/
def FileRow.parts (row : FileRow) : List (List Char) :=
  (row.storedAs.splitOn '/').filter (· ≠ [])

theorem FileRow.Admitted.parts_ne_nil (h : row.Admitted env) :
  row.parts ≠ []
  := by
  obtain ⟨part, hmem, hpart⟩ := h.named
  exact List.ne_nil_of_mem (List.mem_filter.mpr ⟨hmem, decide_eq_true hpart⟩)

theorem FileRow.Admitted.part {part : List Char} (h : row.Admitted env) (hpart : part ∈ row.parts) :
  part ≠ [] ∧ ∃ allowHidden, admitComponent env part allowHidden = .ok ()
  := by
  obtain ⟨hmem, hne⟩ := List.mem_filter.mp hpart
  exact ⟨of_decide_eq_true hne, h.parts part hmem (of_decide_eq_true hne)⟩

/-- The names of an admitted record's path are the components it was stored under. -/
theorem FileRow.Admitted.place_eq (h : row.Admitted env) :
  row.place = tenantPrefix row.tenant ++ row.parts
  := by
  apply splitOn_join (List.append_ne_nil_of_right_ne_nil _ h.parts_ne_nil)
  intro n hn
  rcases List.mem_append.mp hn with hn | hn
  · obtain ⟨htenant, hn⟩ := List.mem_ite_nil_left.mp hn
    rcases List.mem_pair.mp hn with rfl | rfl
    · exact ⟨by decide, by decide⟩
    · exact ⟨htenant, h.tenant.2⟩
  · obtain ⟨hne, _, hadmit⟩ := h.part hn
    exact ⟨hne, (admitComponent_ok hadmit).no_separator⟩

/-- No folder of an admitted record's path is passed over. -/
theorem FileRow.Admitted.not_skipsFolder
    {name : FileName} (h : row.Admitted env) (hname : name.1 ∈ row.place) :
  skipsFolder name = false
  := by
  rw [h.place_eq] at hname
  rcases List.mem_append.mp hname with hname | hname
  · obtain ⟨_, hname⟩ := List.mem_ite_nil_left.mp hname
    rcases List.mem_pair.mp hname with hname | hname
    · rw [skipsFolder, hname]
      decide
    · exact skipsFolder_of_no_dot (hname ▸ h.tenant.1)
  · obtain ⟨_, _, hadmit⟩ := h.part hname
    exact (not_skipped hadmit).1

/-- The file of an admitted record is not passed over. -/
theorem FileRow.Admitted.not_skipsFile
    {name : FileName} (h : row.Admitted env) (hname : row.place.getLast? = some name.1) :
  skipsFile env name = false
  := by
  rw [h.place_eq, List.getLast?_append_of_ne_nil _ h.parts_ne_nil] at hname
  obtain ⟨_, _, hadmit⟩ := h.part (List.mem_of_getLast? hname)
  exact (not_skipped hadmit).2

/-! ### What a walk says of a record -/

/-- The walk of the tree comes to the file of an admitted record, or notes a folder above it. -/
theorem FileRow.Admitted.found
    (h : row.Admitted env) (hread : tree.Readable skipsFolder) (hpresent : row.Present tree)
    (hfiles : walk.onDisk = (tree.files skipsFolder (skipsFile env)).map pathText)
    (hbarred : walk.unreadable = (tree.barred skipsFolder).map pathText) :
  row.stored ∈ walk.onDisk ∨ walk.under row.stored = true
  := by
  obtain ⟨path, hpath, hholds⟩ := hpresent
  have hfolders : ∀ n ∈ path.dropLast, skipsFolder n = false := by
    intro n hn
    apply h.not_skipsFolder
    rw [← hpath]
    exact List.mem_map_of_mem (List.mem_of_mem_dropLast hn)
  have hfile : ∀ n ∈ path.getLast?, skipsFile env n = false := by
    intro n hn
    apply h.not_skipsFile
    rw [← hpath, List.getLast?_map, hn]
    rfl
  rcases Listing.mem_files_or_barred hread hholds hfolders hfile with hmem | ⟨p, rest, hrest, rfl, hp⟩
  · left
    rw [hfiles, List.mem_map]
    refine ⟨path, hmem, ?_⟩
    rw [pathText, hpath, FileRow.place, join_splitOn]
  · right
    refine (under_iff hbarred).mpr ⟨p, rest.map Subtype.val, ?_, ?_, hp⟩
    · rwa [ne_eq, List.map_eq_nil_iff]
    · rw [← List.map_append]
      exact hpath.symm

/-- The walk of the tree notes a folder above a hidden record that is admitted. -/
theorem FileRow.Admitted.under
    (h : row.Admitted env) (hread : tree.Readable skipsFolder) (hhidden : row.Hidden tree)
    (hbarred : walk.unreadable = (tree.barred skipsFolder).map pathText) :
  walk.under row.stored = true
  := by
  obtain ⟨path, rest, hrest, hplace, hpath⟩ := hhidden
  have hfolders : ∀ n ∈ path, skipsFolder n = false := by
    intro n hn
    apply h.not_skipsFolder
    rw [hplace]
    exact List.mem_append_left _ (List.mem_map_of_mem hn)
  obtain ⟨p, after, rfl, hp⟩ := Listing.exists_barred_prefix hread hpath hfolders
  refine (under_iff hbarred).mpr ⟨p, after.map Subtype.val ++ rest, ?_, ?_, hp⟩
  · exact List.append_ne_nil_of_right_ne_nil _ hrest
  · rw [← List.append_assoc, ← List.map_append]
    exact hplace

/-- What the walk has come to at a record's path is its file. -/
theorem FileRow.present_of_mem
    (hfiles : walk.onDisk = (tree.files skipsFolder (skipsFile env)).map pathText)
    (h : row.stored ∈ walk.onDisk) :
  row.Present tree
  := by
  rw [hfiles] at h
  obtain ⟨path, hmem, hpath⟩ := List.mem_map.mp h
  have hholds := Listing.holds_of_mem_files hmem
  refine ⟨path, ?_, hholds⟩
  have hne : path.map Subtype.val ≠ [] := by
    rw [ne_eq, List.map_eq_nil_iff]
    rintro rfl
    exact Listing.not_holds_nil hholds
  rw [FileRow.place, ← hpath, pathText, splitOn_join hne fun n => isName_of_mem]

/-- What lies below a noted folder is hidden. -/
theorem FileRow.hidden_of_under
    (hbarred : walk.unreadable = (tree.barred skipsFolder).map pathText)
    (h : walk.under row.stored = true) :
  row.Hidden tree
  := by
  obtain ⟨p, rest, hrest, hsplit, hp⟩ := (under_iff hbarred).mp h
  exact ⟨p, rest, hrest, hsplit, Listing.barred_of_mem_barred hp⟩

/-! ### The survey -/

/-- The walk of the survey, and what it has come to. -/
def Volume.walked (volume : Volume) (env : PathEnv) : Option Walk :=
  volume.root.bind (collectPayloadFiles env)

/-- The survey updates rows. -/
structure Volume.Updates (volume : Volume) (env : PathEnv) (partly : Walk) (faults : SurveyFaults)
    (rows : List FileRow) : Prop where
  present : volume.present = true
  records : faults.read = false
  recordLimit : (surveyedRecords rows).length ≤ surveyEntryLimit
  trusted : volume.trusted (volume.walked env).isSome ((volume.walked env).getD partly)
    (surveyedRecords rows) = true
  missing : missingPaths ((volume.walked env).getD partly) (surveyedRecords rows) ≠ []

theorem survey_of_updates (h : volume.Updates env partly faults rows) :
  (surveyRestoredPayloads env volume partly faults rows).1
    = (faults.updates (staleRecords (missingPaths ((volume.walked env).getD partly)
        (surveyedRecords rows)) (surveyedRecords rows))).foldl tombstoneRows rows
  := by
  have hpresent : volume.present ≠ false := by
    rw [h.present]
    decide
  have hrecords : faults.read ≠ true := by
    rw [h.records]
    decide
  unfold surveyRestoredPayloads
  rw [if_neg hpresent, if_neg hrecords]
  dsimp only
  rw [if_neg (Nat.not_lt.mpr h.recordLimit), ← Volume.walked]
  split <;> exact if_pos ⟨h.trusted, h.missing⟩

theorem survey_of_not_updates (h : ¬ volume.Updates env partly faults rows) :
  (surveyRestoredPayloads env volume partly faults rows).1 = rows
  := by
  unfold surveyRestoredPayloads
  split
  · rfl
  · rename_i hpresent
    split
    · rfl
    · rename_i hrecords
      dsimp only
      split
      · rfl
      · rename_i hlimit
        rw [← Volume.walked]
        have hkept : ¬ (volume.trusted (volume.walked env).isSome
              ((volume.walked env).getD partly) (surveyedRecords rows) = true
            ∧ missingPaths ((volume.walked env).getD partly) (surveyedRecords rows) ≠ []) := by
          rintro ⟨htrusted, hmissing⟩
          exact h ⟨by simpa using hpresent, by simpa using hrecords, Nat.not_lt.mp hlimit,
            htrusted, hmissing⟩
        rw [if_neg hkept]
        split <;> rfl

/-- When there are not too many records, all that are live are surveyed. -/
theorem surveyedRecords_eq (h : (surveyedRecords rows).length ≤ surveyEntryLimit) :
  surveyedRecords rows = rows.filter FileRow.live
    ∧ (rows.filter FileRow.live).length ≤ surveyEntryLimit
  := by
  rw [surveyedRecords, List.length_take] at h
  have hlive : (rows.filter FileRow.live).length ≤ surveyEntryLimit := by omega
  exact ⟨List.take_of_length_le (Nat.le_succ_of_le hlive), hlive⟩

/-- What has been read where rows are updated. -/
theorem Volume.Updates.read (h : volume.Updates env partly faults rows) :
  ∃ tree walk, volume.Read env faults rows tree
    ∧ collectPayloadFiles env (.granted, tree) = some walk ∧ volume.walked env = some walk
  := by
  have htrusted := h.trusted
  rw [Volume.trusted, Volume.qualified] at htrusted
  simp only [Bool.and_eq_true] at htrusted
  obtain ⟨⟨⟨hwalked, ⟨hheld, hbefore⟩, hsaved⟩, _, hafter⟩, _⟩ := htrusted
  obtain ⟨walk, hwalk⟩ := Option.isSome_iff_exists.mp hwalked
  obtain ⟨⟨access, tree⟩, hroot⟩ := Option.isSome_iff_exists.mp hheld
  have hcollect := hwalk
  rw [Volume.walked, root, hroot, Option.some_or, Option.bind_some] at hcollect
  obtain ⟨rfl, hread, hentries, -, -⟩ := collectPayloadFiles_eq hcollect
  refine ⟨tree, walk, ?_, hcollect, hwalk⟩
  exact
    { present := h.present
      held := hroot
      qualified := hsaved
      currentBefore := hbefore
      currentAfter := hafter
      records := h.records
      recordLimit := (surveyedRecords_eq h.recordLimit).2
      entryLimit := hentries
      readable := hread }

/-- The survey makes tombstones of live records only, when it has read the whole tree from the
qualified and unchanged root, and of an admitted one only when there is no file at its path and the
path does not lie below a folder that may not be listed. -/
structure TombstonesGone (env : PathEnv) (volume : Volume) (faults : SurveyFaults)
    (rows after : List FileRow) : Prop where
  length : after.length = rows.length
  tombstones : ∀ (i : ℕ) (row row' : FileRow),
    rows[i]? = some row → after[i]? = some row' → row' ≠ row →
    row.live = true ∧ row' = row.tombstone ∧ ∃ tree, volume.Read env faults rows tree
      ∧ (row.Admitted env → ¬ row.Present tree ∧ ¬ row.Hidden tree)

/-- In a trusted tree, the survey makes tombstones of all live records without a file, but for those
below a folder that may not be listed, when the store makes the updates. -/
def TombstonesAll (env : PathEnv) (volume : Volume) (faults : SurveyFaults)
    (rows after : List FileRow) : Prop :=
  ∀ tree walk, volume.Read env faults rows tree →
    collectPayloadFiles env (.granted, tree) = some walk → walk.onDisk ≠ [] →
    faults.written = none →
    ∀ (i : ℕ) (row : FileRow), rows[i]? = some row → row.live = true →
      ¬ row.Present tree → ¬ row.Hidden tree →
      after[i]? = some row.tombstone

theorem tombstonesGone :
  TombstonesGone env volume faults rows (surveyRestoredPayloads env volume partly faults rows).1
  := by
  by_cases h : volume.Updates env partly faults rows
  · rw [survey_of_updates h, foldl_tombstoneRows]
    refine ⟨List.length_map .., ?_⟩
    intro i row row' hrow hafter hne
    rw [List.getElem?_map, hrow, Option.map_some] at hafter
    cases hafter
    have hkeyed := Classical.byContradiction fun hkeyed => hne (if_neg hkeyed)
    rw [if_pos hkeyed]
    obtain ⟨hdeleted, key, hkey, htenant, hstored⟩ := hkeyed
    have hstale : key ∈ staleRecords (missingPaths ((volume.walked env).getD partly)
        (surveyedRecords rows)) (surveyedRecords rows) := by
      rw [SurveyFaults.updates] at hkey
      cases hwritten : faults.written with
      | none => simpa [hwritten] using hkey
      | some n =>
          rw [hwritten] at hkey
          exact List.mem_of_mem_take hkey
    obtain ⟨hrecord, hmissing⟩ := List.mem_filter.mp hstale
    rw [(surveyedRecords_eq h.recordLimit).1] at hrecord
    have hlive : row.live = true := by
      have hkeylive := (List.mem_filter.mp hrecord).2
      rw [FileRow.live, ← hstored] at hkeylive
      rw [FileRow.live, hdeleted]
      simpa using (Bool.and_eq_true_iff.mp hkeylive).2
    have hpath : row.stored = key.stored := by
      rw [FileRow.stored, FileRow.stored, htenant, hstored]
    obtain ⟨tree, walk, hread, hcollect, hwalk⟩ := h.read
    rw [hwalk, Option.getD_some, decide_eq_true_eq, mem_missingPaths, ← hpath] at hmissing
    obtain ⟨-, hondisk, hunder⟩ := hmissing
    obtain ⟨-, -, -, hfiles, hbarred⟩ := collectPayloadFiles_eq hcollect
    refine ⟨hlive, rfl, tree, hread, fun hadmitted => ⟨?_, ?_⟩⟩
    · intro hpresent
      rcases hadmitted.found hread.readable hpresent hfiles hbarred with hfound | hfound
      · exact hondisk hfound
      · exact absurd hfound (by rw [hunder]; decide)
    · intro hhidden
      exact absurd (hadmitted.under hread.readable hhidden hbarred) (by rw [hunder]; decide)
  · rw [survey_of_not_updates h]
    refine ⟨rfl, ?_⟩
    intro i row row' hrow hafter hne
    rw [hrow] at hafter
    exact absurd (Option.some.inj hafter).symm hne

theorem tombstonesAll :
  TombstonesAll env volume faults rows (surveyRestoredPayloads env volume partly faults rows).1
  := by
  intro tree walk hread hcollect hondisk hwritten i row hrow hlive hpresent hhidden
  have hlimit : (surveyedRecords rows).length ≤ surveyEntryLimit := by
    rw [surveyedRecords, List.length_take]
    exact (Nat.min_le_right _ _).trans hread.recordLimit
  have hrecords := (surveyedRecords_eq hlimit).1
  have hwalk : volume.walked env = some walk := by
    rw [Volume.walked, Volume.root, hread.held, Option.some_or, Option.bind_some, hcollect]
  obtain ⟨-, -, -, hfiles, hbarred⟩ := collectPayloadFiles_eq hcollect
  have hmem : row ∈ rows.filter FileRow.live :=
    List.mem_filter.mpr ⟨List.mem_of_getElem? hrow, hlive⟩
  have hmissing : row.stored ∈ missingPaths walk (rows.filter FileRow.live) := by
    rw [mem_missingPaths]
    refine ⟨⟨row, hmem, rfl⟩, fun h => hpresent (FileRow.present_of_mem hfiles h), ?_⟩
    rw [← Bool.not_eq_true]
    exact fun h => hhidden (FileRow.hidden_of_under hbarred h)
  have hupdates : volume.Updates env partly faults rows := by
    refine ⟨hread.present, hread.records, hlimit, ?_, ?_⟩
    · rw [Volume.trusted, Volume.qualified, hwalk, hread.held, hread.qualified,
        hread.currentBefore, hread.currentAfter]
      simpa using .inl hondisk
    · rw [hwalk, Option.getD_some, hrecords]
      exact List.ne_nil_of_mem hmissing
  rw [survey_of_updates hupdates, foldl_tombstoneRows, List.getElem?_map, hrow, Option.map_some,
    if_pos]
  rw [FileRow.live, Bool.and_eq_true, Bool.not_eq_true'] at hlive
  refine ⟨hlive.1, row, ?_, rfl, rfl⟩
  rw [hwalk, Option.getD_some, hrecords, SurveyFaults.updates, hwritten]
  exact List.mem_filter.mpr ⟨hmem, decide_eq_true hmissing⟩

/-- The survey makes tombstones of records whose file is gone, and where it may trust the tree, of
all of them that it can see; where it has not read the tree it changes no record, and it passes over
no file whose names admission accepts. -/
theorem survey_restored_payloads_safe
    (env : PathEnv) (volume : Volume) (partly : Walk) (faults : SurveyFaults)
    (rows : List FileRow) :
  let after := (surveyRestoredPayloads env volume partly faults rows).1
  TombstonesGone env volume faults rows after
    ∧ TombstonesAll env volume faults rows after
    ∧ ((∀ tree, ¬ volume.Read env faults rows tree) → after = rows)
    ∧ ∀ name : FileName, ∀ allowHidden, admitComponent env name.1 allowHidden = .ok () →
        skipsFolder name = false ∧ skipsFile env name = false
  := by
  refine ⟨tombstonesGone, tombstonesAll, ?_, fun name allowHidden => not_skipped⟩
  intro hunread
  apply survey_of_not_updates
  intro hupdates
  obtain ⟨tree, _, hread, _, _⟩ := hupdates.read
  exact hunread tree hread

/-! ### What a trusted survey cannot see -/

/-- In a trusted tree, exactly the live records without a file become tombstones. -/
def SurveyExact (env : PathEnv) (volume : Volume) (partly : Walk) (faults : SurveyFaults)
    (rows : List FileRow) : Prop :=
  ∀ tree walk, volume.Read env faults rows tree →
    collectPayloadFiles env (.granted, tree) = some walk → walk.onDisk ≠ [] →
    faults.written = none →
    ∀ (i : ℕ) (row : FileRow), rows[i]? = some row → row.live = true →
      ((surveyRestoredPayloads env volume partly faults rows).1[i]? = some row.tombstone
        ↔ ¬ row.Present tree)

/-- Names without letters beyond ASCII. -/
def asciiEnv : PathEnv := ⟨id, id, fun _ => .ok (), fun _ => none⟩

/-- A mounted volume that stays in place. -/
def mountedVolume (tree : Listing FileName) : Volume :=
  ⟨true, some (.granted, tree), none, true, true, true⟩

/-- A file, and a folder without one that may not be opened. -/
def lostAndFound : Listing FileName :=
  .folder (some ⟨['l', 'o', 's', 't'], by decide⟩) .closed .done
    (.file (some ⟨['a'], by decide⟩) .done)

/-- A file, and one with the name of a receipt. -/
def receiptAlone : Listing FileName :=
  .file (some ⟨".vot-receipt".toList, by decide⟩) (.file (some ⟨['a'], by decide⟩) .done)

/-- A record below a folder that may not be listed stays, though its file is gone; a record under
the name of a receipt does not, though its file is there. -/
theorem survey_not_exact :
  ¬ SurveyExact asciiEnv (mountedVolume lostAndFound) ⟨[], [], 0⟩ ⟨false, none⟩
      [⟨[], "lost/b".toList, "lost/b", false⟩]
    ∧ ¬ SurveyExact asciiEnv (mountedVolume receiptAlone) ⟨[], [], 0⟩ ⟨false, none⟩
      [⟨[], ".vot-receipt".toList, ".vot-receipt", false⟩]
  := by
  constructor
  · intro h
    have hread : (mountedVolume lostAndFound).Read asciiEnv ⟨false, none⟩
        [⟨[], "lost/b".toList, "lost/b", false⟩] lostAndFound :=
      ⟨rfl, rfl, rfl, rfl, rfl, rfl, by decide, by decide,
        ⟨fun _ => ⟨by decide, fun h => by cases h⟩, trivial⟩⟩
    have hexact := h lostAndFound ⟨[['a']], [['l', 'o', 's', 't']], 99998⟩ hread
      (by decide) (by decide) rfl 0 _ rfl (by decide)
    have hkept : (surveyRestoredPayloads asciiEnv (mountedVolume lostAndFound) ⟨[], [], 0⟩
        ⟨false, none⟩ [⟨[], "lost/b".toList, "lost/b", false⟩]).1[0]?
        ≠ some (FileRow.tombstone ⟨[], "lost/b".toList, "lost/b", false⟩) := by
      decide
    refine hkept (hexact.mpr ?_)
    rintro ⟨path, hpath, ⟨n, below, _, rfl, hbelow⟩ | ⟨n, hn, rfl⟩ | hdone⟩
    · exact hbelow
    · have hplace : FileRow.place ⟨[], "lost/b".toList, "lost/b", false⟩
          = [['l', 'o', 's', 't'], ['b']] := by decide
      rw [hplace] at hpath
      simp at hpath
    · exact hdone
  · intro h
    have hread : (mountedVolume receiptAlone).Read asciiEnv ⟨false, none⟩
        [⟨[], ".vot-receipt".toList, ".vot-receipt", false⟩] receiptAlone :=
      ⟨rfl, rfl, rfl, rfl, rfl, rfl, by decide, by decide, trivial⟩
    have hexact := h receiptAlone ⟨[['a']], [], 99998⟩ hread
      (by decide) (by decide) rfl 0 _ rfl (by decide)
    refine hexact.mp (by decide) ?_
    refine ⟨[⟨".vot-receipt".toList, by decide⟩], ?_, .inl ⟨_, rfl, rfl⟩⟩
    decide

end Votport.Backup
