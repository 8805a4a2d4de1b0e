import Votport.Backup.Rotation

/-!
# What rotation keeps

A run removes archives only, its own archive stays among them, and what stays beside is the
newest.  While a store beside the folder cannot be reached, nothing that was there at the last
complete run is removed, and one archive is kept that was taken in a later second.
-/

namespace Votport.Backup

open Newest

variable {run : BackupRun} {retention : RetentionObservation} {files doomed : List FileEntry}
  {file : FileEntry} {s s' : BackupState}

/-! ### Files -/

/-- The names of a folder are different. -/
def Distinct (files : List FileEntry) : Prop := (files.map FileEntry.name).Nodup

theorem Distinct.eq_of_name {file' : FileEntry}
    (h : Distinct files) (hmem : file ∈ files) (hmem' : file' ∈ files)
    (hname : file.name = file'.name) :
  file = file'
  := by
  exact List.inj_on_of_nodup_map h hmem hmem' hname

/-- Some of the files, with all that are no archives. -/
structure KeepsForeign (files files' : List FileEntry) : Prop where
  sublist : files'.Sublist files
  foreign : ∀ file ∈ files, file.owned = false → file ∈ files'

theorem KeepsForeign.refl : KeepsForeign files files := ⟨List.Sublist.refl _, fun _ h _ => h⟩

theorem localDoomed_subset {id : List Char} {days count effectiveAt : ℕ}
    (h : file ∈ localDoomed id days count effectiveAt files) :
  file ∈ files ∧ file.owned = true
  := by
  exact List.mem_filter.mp (mem_of_mem_dropped h)

theorem localDoomed_name {id : List Char} {days count effectiveAt : ℕ}
    (h : file ∈ localDoomed id days count effectiveAt files) :
  file.name ≠ id
  := by
  intro hname
  obtain ⟨_, _, hdrops⟩ := mem_dropped.mp h
  simp [drops, hname] at hdrops

theorem mem_outageDoomed {keep : List Char} {lastSuccess : ℕ} :
  file ∈ outageDoomed keep lastSuccess files
    ↔ (file ∈ files ∧ file.owned = true) ∧ file.name ≠ keep ∧ lastSuccess < asSecs file.created
  := by
  rw [outageDoomed, List.mem_filter, List.mem_filter, decide_eq_true_eq]

variable {removal : List Char → Option (List Char)}

/-- A file stays unless it has the name of one that is removed. -/
theorem mem_removeFiles (hmem : file ∈ files) (h : ∀ other ∈ doomed, other.name ≠ file.name) :
  file ∈ (removeFiles removal doomed files).1
  := by
  refine List.mem_filter.mpr ⟨hmem, decide_eq_true ?_⟩
  intro hname
  obtain ⟨other, hother, hsame⟩ := List.mem_map.mp hname
  exact h other ((List.takeWhile_prefix _).subset hother) hsame

theorem removeFiles_keepsForeign
    (hdistinct : Distinct files) (h : ∀ other ∈ doomed, other ∈ files ∧ other.owned = true) :
  KeepsForeign files (removeFiles removal doomed files).1
  := by
  refine ⟨List.filter_sublist, ?_⟩
  intro file hmem howned
  apply mem_removeFiles hmem
  intro other hother hname
  obtain ⟨hmem', howned'⟩ := h other hother
  rw [hdistinct.eq_of_name hmem' hmem hname, howned] at howned'
  exact absurd howned' (by decide)

/-- Where nothing goes wrong, all are removed. -/
theorem removeFiles_done (h : (removeFiles removal doomed files).2 = none) :
  (removeFiles removal doomed files).1
    = files.filter fun file => decide (file.name ∉ doomed.map FileEntry.name)
  := by
  have hall : ∀ other ∈ doomed, (removal other.name).isNone = true := by
    intro other hother
    rw [Option.isNone_iff_eq_none]
    exact List.findSome?_eq_none_iff.mp h other hother
  have htaken : doomed.takeWhile (fun other => (removal other.name).isNone) = doomed := by
    have happend : (doomed ++ []).takeWhile (fun other => (removal other.name).isNone)
        = doomed ++ [].takeWhile fun other => (removal other.name).isNone :=
      List.takeWhile_append_of_pos hall
    simpa using happend
  rw [removeFiles, htaken]

theorem pruneLocal_keepsForeign (hdistinct : Distinct files) :
  KeepsForeign files (run.pruneLocal retention files).1
  := by
  unfold BackupRun.pruneLocal
  split
  · exact KeepsForeign.refl
  · exact removeFiles_keepsForeign hdistinct fun _ => localDoomed_subset

theorem pruneOutageCopies_keepsForeign {lastSuccess : ℕ} (hdistinct : Distinct files) :
  KeepsForeign files (run.pruneOutageCopies lastSuccess files)
  := by
  unfold BackupRun.pruneOutageCopies
  split
  · exact KeepsForeign.refl
  · exact removeFiles_keepsForeign hdistinct fun _ h => (mem_outageDoomed.mp h).1

theorem afterOutage_keepsForeign {lastSuccess : Option ℕ} (hdistinct : Distinct files) :
  KeepsForeign files (run.afterOutage retention lastSuccess files)
  := by
  unfold BackupRun.afterOutage
  split
  · exact pruneOutageCopies_keepsForeign hdistinct
  · exact pruneLocal_keepsForeign hdistinct

/-- Pruning keeps the archive of the run. -/
theorem mem_pruneLocal (hmem : file ∈ files) (hname : file.name = run.id) :
  file ∈ (run.pruneLocal retention files).1
  := by
  unfold BackupRun.pruneLocal
  split
  · exact hmem
  · apply mem_removeFiles hmem
    intro other hother
    rw [hname]
    exact localDoomed_name hother

theorem mem_afterOutage
    {lastSuccess : Option ℕ} (hmem : file ∈ files) (hname : file.name = run.id) :
  file ∈ run.afterOutage retention lastSuccess files
  := by
  unfold BackupRun.afterOutage
  split
  · unfold BackupRun.pruneOutageCopies
    split
    · exact hmem
    · apply mem_removeFiles hmem
      intro other hother
      rw [hname]
      exact (mem_outageDoomed.mp hother).2.1
  · exact mem_pruneLocal hmem hname

/-! ### A run -/

/-- The files of a folder after a run, by how far the run came. -/
inductive FilesAfter (run : BackupRun) (retention : RetentionObservation)
    (lastSuccess : Option ℕ) (files : List FileEntry) :
    Except RunFailure (List Char) → List FileEntry → Prop
  | unprepared {error : List Char} (prepare : run.prepare = some error) :
      FilesAfter run retention lastSuccess files (.error ⟨error, false⟩) files
  | unsynced {error : List Char} (sync : run.sync = some error) :
      FilesAfter run retention lastSuccess files (.error ⟨error, false⟩)
        (run.cleanup (files ++ [run.archive]))
  | kept {result : Except RunFailure (List Char)} (destination : run.config.destination ≠ .s3)
      (upload : run.config.destination = .both → run.upload = none)
      (done : result.toBool = true →
        (run.pruneLocal retention (files ++ [run.archive])).2 = none) :
      FilesAfter run retention lastSuccess files result
        (run.pruneLocal retention (files ++ [run.archive])).1
  | outage {error : List Char} (destination : run.config.destination = .both)
      (upload : run.upload = some error) :
      FilesAfter run retention lastSuccess files (.error ⟨error, false⟩)
        (run.afterOutage retention lastSuccess (files ++ [run.archive]))
  | failed {failure : RunFailure} (destination : run.config.destination = .s3) :
      FilesAfter run retention lastSuccess files (.error failure)
        (run.cleanup (files ++ [run.archive]))
  | uploaded {result : Except RunFailure (List Char)} (destination : run.config.destination = .s3) :
      FilesAfter run retention lastSuccess files result
        ((files ++ [run.archive]).filter fun file => decide (file.name ≠ run.id))

/-- How far a run comes. -/
theorem inner_filesAfter {lastSuccess : Option ℕ} {copies : Copies} :
  FilesAfter run retention lastSuccess copies.files (run.inner retention lastSuccess copies).2
    (run.inner retention lastSuccess copies).1.files
  := by
  unfold BackupRun.inner
  cases hprepare : run.prepare with
  | some error => exact .unprepared hprepare
  | none =>
      cases hsync : run.sync with
      | some error => exact .unsynced hsync
      | none =>
          dsimp only
          unfold BackupRun.finish
          cases hdestination : run.config.destination with
          | folder =>
              have hne : run.config.destination ≠ .s3 := by simp [hdestination]
              have hboth : run.config.destination = .both → run.upload = none := by
                simp [hdestination]
              dsimp only
              cases hprune : (run.pruneLocal retention (copies.files ++ [run.archive])).2 with
              | some error => exact .kept hne hboth fun h => Bool.noConfusion h
              | none => exact .kept hne hboth fun _ => hprune
          | both =>
              have hne : run.config.destination ≠ .s3 := by simp [hdestination]
              dsimp only
              cases hupload : run.upload with
              | some error => exact .outage hdestination hupload
              | none =>
                  dsimp only
                  cases hprune : (run.pruneLocal retention (copies.files ++ [run.archive])).2 with
                  | some error => exact .kept hne (fun _ => hupload) fun h => Bool.noConfusion h
                  | none =>
                      dsimp only
                      split <;> exact .kept hne (fun _ => hupload) fun _ => hprune
          | s3 =>
              dsimp only
              cases hupload : run.upload with
              | some error => exact .failed hdestination
              | none =>
                  dsimp only
                  cases hremoval : run.removal run.id with
                  | some error => exact .failed hdestination
                  | none =>
                      dsimp only
                      split <;> exact .uploaded hdestination

/-- The objects of a bucket after a run, by how far the run came. -/
inductive ObjectsAfter (run : BackupRun) (retention : RetentionObservation)
    (objects : List StoredObject) : List StoredObject → Prop
  | same (failed : run.config.destination = .folder ∨ run.prepare.isSome = true
        ∨ run.sync.isSome = true ∨ run.upload.isSome = true) :
      ObjectsAfter run retention objects objects
  | stored : ObjectsAfter run retention objects (objects ++ [run.object])
  | pruned : ObjectsAfter run retention objects
      (run.pruneS3Store retention (objects ++ [run.object])).1

theorem inner_objectsAfter {lastSuccess : Option ℕ} {copies : Copies} :
  ObjectsAfter run retention copies.objects (run.inner retention lastSuccess copies).1.objects
  := by
  unfold BackupRun.inner
  cases hprepare : run.prepare with
  | some error => exact .same (.inr (.inl (by simp [hprepare])))
  | none =>
      cases hsync : run.sync with
      | some error => exact .same (.inr (.inr (.inl (by simp [hsync]))))
      | none =>
          dsimp only
          unfold BackupRun.finish
          cases hdestination : run.config.destination with
          | folder =>
              dsimp only
              split <;> exact .same (.inl hdestination)
          | both =>
              dsimp only
              cases hupload : run.upload with
              | some error =>
                  dsimp only
                  split
                  · exact .stored
                  · exact .same (.inr (.inr (.inr (by simp [hupload]))))
              | none =>
                  dsimp only
                  split
                  · exact .stored
                  · split <;> exact .pruned
          | s3 =>
              dsimp only
              cases hupload : run.upload with
              | some error =>
                  dsimp only
                  split
                  · exact .stored
                  · exact .same (.inr (.inr (.inr (by simp [hupload]))))
              | none =>
                  dsimp only
                  split
                  · exact .stored
                  · split <;> exact .pruned

/-! ### Archives of a run -/

theorem distinct_concat
    (hdistinct : Distinct files) (hfresh : ∀ file ∈ files, file.name ≠ run.id) :
  Distinct (files ++ [run.archive])
  := by
  rw [Distinct, List.map_append, List.nodup_append]
  refine ⟨hdistinct, List.nodup_singleton _, ?_⟩
  intro name hname name' hname' heq
  obtain ⟨file, hfile, rfl⟩ := List.mem_map.mp hname
  have hid : name' = run.id := List.mem_singleton.mp hname'
  exact hfresh file hfile (heq.trans hid)

/-- The files without the archive of the run are the files there were. -/
theorem filter_archive (hfresh : ∀ file ∈ files, file.name ≠ run.id) :
  (files ++ [run.archive]).filter (fun file => decide (file.name ≠ run.id)) = files
  := by
  rw [List.filter_append,
    List.filter_eq_self.mpr fun file hfile => decide_eq_true (hfresh file hfile)]
  simp [BackupRun.archive]

theorem cleanup_keepsForeign (hdistinct : Distinct (files ++ [run.archive]))
    (hid : ownedName run.id = true) :
  KeepsForeign (files ++ [run.archive]) (run.cleanup (files ++ [run.archive]))
  := by
  unfold BackupRun.cleanup
  split
  · exact KeepsForeign.refl
  · refine ⟨List.filter_sublist, ?_⟩
    intro file hmem howned
    refine List.mem_filter.mpr ⟨hmem, decide_eq_true ?_⟩
    intro hname
    have harchive : run.archive ∈ files ++ [run.archive] := by simp
    have harchived : run.archive.owned = true := by
      rw [FileEntry.owned, BackupRun.archive, hid]
      rfl
    rw [hdistinct.eq_of_name hmem harchive hname, harchived] at howned
    exact absurd howned (by decide)

/-- A run changes no files but archives. -/
theorem FilesAfter.keepsForeign
    {lastSuccess : Option ℕ} {result : Except RunFailure (List Char)} {files' : List FileEntry}
    (h : FilesAfter run retention lastSuccess files result files') (hdistinct : Distinct files)
    (hfresh : ∀ file ∈ files, file.name ≠ run.id) (hid : ownedName run.id = true) :
  files'.Sublist (files ++ [run.archive]) ∧ ∀ file ∈ files, file.owned = false → file ∈ files'
  := by
  have hall := distinct_concat hdistinct hfresh
  have hkeeps : ∀ {files'}, KeepsForeign (files ++ [run.archive]) files' →
      files'.Sublist (files ++ [run.archive])
        ∧ ∀ file ∈ files, file.owned = false → file ∈ files' :=
    fun h => ⟨h.sublist, fun file hfile => h.foreign file (List.mem_append_left _ hfile)⟩
  cases h with
  | unprepared _ => exact ⟨List.sublist_append_left .., fun file hfile _ => hfile⟩
  | unsynced _ => exact hkeeps (cleanup_keepsForeign hall hid)
  | kept _ _ _ => exact hkeeps (pruneLocal_keepsForeign hall)
  | outage _ _ => exact hkeeps (afterOutage_keepsForeign hall)
  | failed _ => exact hkeeps (cleanup_keepsForeign hall hid)
  | uploaded _ =>
      rw [filter_archive hfresh]
      exact ⟨List.sublist_append_left .., fun file hfile _ => hfile⟩

/-- The archive of a run beside or without a store stays when it was put in place. -/
theorem FilesAfter.own
    {lastSuccess : Option ℕ} {result : Except RunFailure (List Char)} {files' : List FileEntry}
    (h : FilesAfter run retention lastSuccess files result files')
    (hdestination : run.config.destination ≠ .s3) (hprepare : run.prepare = none)
    (hsync : run.sync = none) :
  run.archive ∈ files'
  := by
  have hmem : run.archive ∈ files ++ [run.archive] := by simp
  cases h with
  | unprepared prepare =>
      rw [hprepare] at prepare
      cases prepare
  | unsynced sync =>
      rw [hsync] at sync
      cases sync
  | kept _ _ _ => exact mem_pruneLocal hmem rfl
  | outage _ _ => exact mem_afterOutage hmem rfl
  | failed destination => exact absurd destination hdestination
  | uploaded destination => exact absurd destination hdestination

/-- A run to a store alone leaves no archive, unless it fails and the archive stays. -/
theorem FilesAfter.none_left
    {lastSuccess : Option ℕ} {result : Except RunFailure (List Char)} {files' : List FileEntry}
    (h : FilesAfter run retention lastSuccess files result files')
    (hdestination : run.config.destination = .s3) (hfresh : ∀ file ∈ files, file.name ≠ run.id)
    (hstays : result.toBool = true ∨ run.stays = false) :
  ∀ file ∈ files', file.name ≠ run.id
  := by
  have hcleanup : run.stays = false →
      ∀ file ∈ run.cleanup (files ++ [run.archive]), file.name ≠ run.id := by
    intro hgone file hmem
    rw [BackupRun.cleanup, hgone] at hmem
    exact of_decide_eq_true (List.mem_filter.mp hmem).2
  cases h with
  | unprepared _ => exact hfresh
  | unsynced _ => exact hcleanup (hstays.resolve_left (by simp [Except.toBool]))
  | kept destination _ _ => exact absurd hdestination destination
  | outage destination _ =>
      rw [hdestination] at destination
      cases destination
  | failed _ => exact hcleanup (hstays.resolve_left (by simp [Except.toBool]))
  | uploaded _ => exact fun file hmem => of_decide_eq_true (List.mem_filter.mp hmem).2

/-- The archives that pruning by number and age keeps, when nothing goes wrong: no more than the
number, and none that is older than one that is removed. -/
structure Rotated (count : ℕ) (files files' : List FileEntry) : Prop where
  length : (files'.filter FileEntry.owned).length ≤ count
  newest : ∀ file ∈ files, file ∉ files' → ∀ other ∈ files', other.owned = true →
    file.created ≤ other.created

theorem archiveKey_le {id : List Char} {other : FileEntry} (hname : other.name ≠ id)
    (hcreated : other.created < file.created) :
  archiveKey id other.name other.created ≤ archiveKey id file.name file.created
  := by
  rw [archiveKey, archiveKey, if_neg hname, Prod.Lex.toLex_le_toLex]
  by_cases h : file.name = id
  · left
    rw [if_pos h]
    exact Nat.zero_lt_one
  · right
    rw [if_neg h]
    refine ⟨rfl, Prod.Lex.toLex_le_toLex.mpr (.inl hcreated)⟩

theorem created_le_of_archiveKey {id : List Char} {other : FileEntry} (hname : file.name ≠ id)
    (h : archiveKey id other.name other.created ≤ archiveKey id file.name file.created) :
  other.created ≤ file.created
  := by
  rw [archiveKey, archiveKey, if_neg hname, Prod.Lex.toLex_le_toLex] at h
  rcases h with h | ⟨_, h⟩
  · exact absurd h (Nat.not_lt_zero _)
  · rcases Prod.Lex.toLex_le_toLex.mp h with h | ⟨h, _⟩
    · exact h.le
    · exact h.le

theorem archiveKey_inj {id : List Char} {other : FileEntry}
    (h : archiveKey id file.name file.created = archiveKey id other.name other.created) :
  file.name = other.name
  := by
  exact (Prod.ext_iff.mp (Prod.ext_iff.mp h).2).2

/-- The archive with the name of the run comes first. -/
theorem archiveKey_le_of_id
    {id : List Char} {other : FileEntry} (hdistinct : Distinct files) (hmem : file ∈ files)
    (hother : other ∈ files) (hname : file.name = id) :
  archiveKey id other.name other.created ≤ archiveKey id file.name file.created
  := by
  by_cases h : other.name = id
  · rw [hdistinct.eq_of_name hmem hother (hname.trans h.symm)]
  · rw [archiveKey, archiveKey, if_neg h, if_pos hname, Prod.Lex.toLex_le_toLex]
    exact .inl Nat.zero_lt_one

theorem pruneLocal_rotated
    (hdistinct : Distinct (files ++ [run.archive]))
    (hcreated : ∀ file ∈ files, file.created ≤ run.created)
    (hcount : 0 < run.config.retentionCount)
    (hdone : (run.pruneLocal retention (files ++ [run.archive])).2 = none) :
  Rotated run.config.retentionCount (files ++ [run.archive])
    (run.pruneLocal retention (files ++ [run.archive])).1
  := by
  have hlate : ∀ file ∈ files ++ [run.archive], file.created ≤ run.created := by
    intro file hfile
    rcases List.mem_append.mp hfile with hfile | hfile
    · exact hcreated file hfile
    · rw [List.mem_singleton.mp hfile]
      exact le_rfl
  have hlast : run.archive ∈ files ++ [run.archive] := by simp
  generalize files ++ [run.archive] = all at *
  have hlisting : run.listing = none := by
    rw [BackupRun.pruneLocal] at hdone
    cases h : run.listing with
    | none => rfl
    | some error => simp [h] at hdone
  rw [BackupRun.pruneLocal, hlisting] at hdone ⊢
  rw [removeFiles_done hdone]
  have hdoomed : ∀ file ∈ all, file.owned = true →
      (file.name ∈ (localDoomed run.id (run.retentionDays retention) run.config.retentionCount
          retention.effectiveAt all).map FileEntry.name
        ↔ file ∈ localDoomed run.id (run.retentionDays retention) run.config.retentionCount
          retention.effectiveAt all) := by
    intro file hmem _
    refine ⟨fun hname => ?_, List.mem_map_of_mem⟩
    obtain ⟨other, hother, hsame⟩ := List.mem_map.mp hname
    rwa [← hdistinct.eq_of_name (localDoomed_subset hother).1 hmem hsame]
  have hspared : ∀ file ∈ all.filter FileEntry.owned, decide (file.name = run.id) = true →
      ∀ other ∈ all.filter FileEntry.owned,
        archiveKey run.id other.name other.created ≤ archiveKey run.id file.name file.created :=
    fun file hfile hname other hother => archiveKey_le_of_id hdistinct
      (List.mem_filter.mp hfile).1 (List.mem_filter.mp hother).1 (of_decide_eq_true hname)
  constructor
  · rw [List.filter_comm, List.filter_congr fun file hfile => decide_eq_decide.mpr
      (not_congr (hdoomed file (List.mem_filter.mp hfile).1 (List.mem_filter.mp hfile).2))]
    refine length_kept_le hcount (List.Nodup.filter _ (List.Nodup.of_map _ hdistinct)) ?_ hspared
    intro file hfile other hother hkey
    exact hdistinct.eq_of_name (List.mem_filter.mp hfile).1 (List.mem_filter.mp hother).1
      (archiveKey_inj hkey)
  · intro file hfile hgone other hother howned
    obtain ⟨hmem, hname⟩ := List.mem_filter.mp hother
    have hkept := of_decide_eq_true hname
    rw [hdoomed other hmem howned] at hkept
    have hremoved : file ∈ localDoomed run.id (run.retentionDays retention)
        run.config.retentionCount retention.effectiveAt all := by
      by_contra hstays
      apply hgone
      refine List.mem_filter.mpr ⟨hfile, decide_eq_true ?_⟩
      intro hname
      obtain ⟨removed, hremoved, hsame⟩ := List.mem_map.mp hname
      exact hstays (hdistinct.eq_of_name (localDoomed_subset hremoved).1 hfile hsame ▸ hremoved)
    by_cases hid : other.name = run.id
    · rw [hdistinct.eq_of_name hmem hlast hid]
      exact hlate file hfile
    · refine created_le_of_archiveKey hid (key_le_of_dropped hspared ?_
        (List.mem_filter.mpr ⟨hmem, howned⟩) hkept hremoved)
      intro newer older holder hyoung haged
      refine archiveKey_le (of_decide_eq_false holder) ?_
      rw [agedFile, decide_eq_true_eq] at haged
      rw [agedFile, decide_eq_false_iff_not, not_and, not_lt] at hyoung
      exact haged.2.trans_le (hyoung haged.1)

theorem FilesAfter.rotated
    {lastSuccess : Option ℕ} {result : Except RunFailure (List Char)} {files' : List FileEntry}
    (h : FilesAfter run retention lastSuccess files result files')
    (hdestination : run.config.destination ≠ .s3) (hdistinct : Distinct (files ++ [run.archive]))
    (hcreated : ∀ file ∈ files, file.created ≤ run.created)
    (hcount : 0 < run.config.retentionCount) (hok : result.toBool = true) :
  Rotated run.config.retentionCount (files ++ [run.archive]) files'
  := by
  cases h with
  | unprepared _ => cases hok
  | unsynced _ => cases hok
  | kept _ _ done => exact pruneLocal_rotated hdistinct hcreated hcount (done hok)
  | outage _ _ => cases hok
  | failed destination => exact absurd destination hdestination
  | uploaded destination => exact absurd destination hdestination

/-! ### Objects of a run -/

theorem ownedS3Id_s3Path {config : BackupConfig} {id : List Char} (h : ownedName id = true) :
  config.ownedS3Id (config.s3Path id) = some id
  := by
  have hdrop : (config.s3Path id).drop config.s3Root.length = id := List.drop_left
  have hslash : '/' ∉ id := by
    intro hmem
    rw [ownedName, Bool.and_eq_true, List.all_eq_true] at h
    exact absurd (h.2 _ hmem) (by decide)
  have hstart : config.s3Root <+: config.s3Path id := List.prefix_append _ _
  rw [BackupConfig.ownedS3Id, if_pos hstart]
  dsimp only
  rw [hdrop, if_pos ⟨hslash, h⟩]

theorem mem_s3Doomed {objects : List StoredObject} {object : StoredObject}
    (h : object ∈ run.s3Doomed retention objects) :
  (run.config.ownedS3Id object.location).isSome = true
    ∧ run.config.ownedS3Id object.location ≠ some run.id
  := by
  refine ⟨(List.mem_filter.mp (mem_of_mem_dropped h)).2, ?_⟩
  intro hid
  obtain ⟨_, _, hdrops⟩ := mem_dropped.mp h
  simp [drops, hid] at hdrops

/-- Pruning a bucket keeps what is no archive of the configuration, and the archive of the run. -/
theorem mem_pruneS3Store {objects : List StoredObject} {object : StoredObject}
    (hmem : object ∈ objects)
    (hspared : run.config.ownedS3Id object.location = none
      ∨ run.config.ownedS3Id object.location = some run.id) :
  object ∈ (run.pruneS3Store retention objects).1
  := by
  unfold BackupRun.pruneS3Store
  split
  · exact hmem
  · refine List.mem_filter.mpr ⟨hmem, decide_eq_true ?_⟩
    intro hlocation
    obtain ⟨other, hother, hsame⟩ := List.mem_map.mp hlocation
    obtain ⟨howned, hid⟩ := mem_s3Doomed ((List.takeWhile_prefix _).subset hother)
    rw [hsame] at howned hid
    rcases hspared with h | h
    · rw [h] at howned
      cases howned
    · exact hid h

theorem ObjectsAfter.foreign
    {objects objects' : List StoredObject} {object : StoredObject}
    (h : ObjectsAfter run retention objects objects') (hmem : object ∈ objects)
    (hforeign : run.config.ownedS3Id object.location = none) :
  object ∈ objects'
  := by
  cases h with
  | same _ => exact hmem
  | stored => exact List.mem_append_left _ hmem
  | pruned => exact mem_pruneS3Store (List.mem_append_left _ hmem) (.inl hforeign)

theorem ObjectsAfter.own
    {objects objects' : List StoredObject} (h : ObjectsAfter run retention objects objects')
    (hid : ownedName run.id = true) (hdestination : run.config.destination ≠ .folder)
    (hprepare : run.prepare = none) (hsync : run.sync = none) (hupload : run.upload = none) :
  run.object ∈ objects'
  := by
  have hmem : run.object ∈ objects ++ [run.object] := by simp
  cases h with
  | same failed => simp [hdestination, hprepare, hsync, hupload] at failed
  | stored => exact hmem
  | pruned => exact mem_pruneS3Store hmem (.inr (ownedS3Id_s3Path hid))

/-! ### Operations -/

/-- The status that a run goes on with. -/
def BackupRun.status (run : BackupRun) (s : BackupState) : BackupStatus :=
  { (if run.statusUnread = true then ⟨none, none, none⟩ else s.status) with
    lastAttemptAt := some (asSecs run.startedAt)
    lastError := none }

/-- A run begins to write. -/
def BackupRun.Begins (run : BackupRun) (retention : RetentionObservation) : Prop :=
  run.retention = .ok retention ∧ run.statusUnwritten = none

theorem operation_of_not_begins (h : ∀ retention, ¬ run.Begins retention) :
  (run.operation s).1 = s ∧ (run.operation s).2.toBool = false
  := by
  unfold BackupRun.operation
  cases hretention : run.retention with
  | error error => exact ⟨rfl, rfl⟩
  | ok retention =>
      cases hwrite : run.statusUnwritten with
      | some error => exact ⟨rfl, rfl⟩
      | none => exact absurd ⟨hretention, hwrite⟩ (h retention)

/-- What a run does that begins to write. -/
theorem operation_of_begins (h : run.Begins retention) :
  let inner := run.inner retention (run.status s).lastSuccessAt (s.copies run.config)
  (run.operation s).1.files = (s.setCopies run.config inner.1).files
    ∧ (run.operation s).1.objects = (s.setCopies run.config inner.1).objects
    ∧ ((run.operation s).2.toBool = true → inner.2.toBool = true)
    ∧ (run.operation s).1.status
      = if run.unrecorded = none then run.finalStatus (run.status s) inner.2 else run.status s
  := by
  obtain ⟨hretention, hwrite⟩ := h
  unfold BackupRun.operation
  rw [hretention, hwrite]
  cases hrecord : run.unrecorded with
  | some error => exact ⟨rfl, rfl, fun h => by simp [Except.toBool] at h, rfl⟩
  | none =>
      have hmap : ∀ result : Except RunFailure (List Char),
          (result.mapError RunFailure.message).toBool = true → result.toBool = true := by
        intro result hok
        cases result with
        | error failure => exact Bool.noConfusion hok
        | ok id => rfl
      exact ⟨rfl, rfl, hmap _, rfl⟩

/-! ### Steps -/

/-- The names in each folder are different, and no file is newer than the time last read. -/
structure BackupState.Ordered (s : BackupState) : Prop where
  distinct : ∀ root, Distinct (s.files root)
  created : ∀ root, ∀ file ∈ s.files root, file.created ≤ s.now

/-- What is known of a run that takes place. -/
structure BackupRun.Fresh (run : BackupRun) (s : BackupState) : Prop where
  started : s.now ≤ run.created
  finished : run.created ≤ run.finishedAt
  file : ∀ file ∈ s.files run.config.root, file.name ≠ run.id
  object : ∀ object ∈ s.objects run.config.bucket, object.location ≠ run.config.s3Path run.id
  id : ownedName run.id = true

theorem step_eq (h : s.step run = some s') :
  run.Fresh s ∧ s' = { (run.operation s).1 with now := run.finishedAt }
  := by
  obtain ⟨⟨hstarted, hcreated, hfinished, hfile, hobject, hid⟩, hs⟩ :=
    Option.ite_none_right_eq_some.mp h
  cases hs
  exact ⟨⟨hstarted.trans hcreated, hfinished, hfile, hobject, hid⟩, rfl⟩

/-- The files of a folder after a step: as they were, or as the run leaves them. -/
theorem step_files (h : s.step run = some s') (root : String) :
  (s'.files root = s.files root
      ∧ (root ≠ run.config.root ∨ ∀ retention, ¬ run.Begins retention))
    ∨ root = run.config.root ∧ ∃ retention result, run.Begins retention
      ∧ FilesAfter run retention (run.status s).lastSuccessAt (s.files root) result (s'.files root)
      ∧ ((run.operation s).2.toBool = true → result.toBool = true)
  := by
  obtain ⟨-, rfl⟩ := step_eq h
  by_cases hbegins : ∃ retention, run.Begins retention
  · obtain ⟨retention, hbegins⟩ := hbegins
    obtain ⟨hfiles, -, hok, -⟩ := operation_of_begins (s := s) hbegins
    dsimp only
    rw [hfiles, BackupState.setCopies]
    dsimp only
    by_cases hroot : root = run.config.root
    · subst hroot
      rw [Function.update_self]
      have hafter : FilesAfter run retention (run.status s).lastSuccessAt
          (s.copies run.config).files
          (run.inner retention (run.status s).lastSuccessAt (s.copies run.config)).2
          (run.inner retention (run.status s).lastSuccessAt (s.copies run.config)).1.files :=
        inner_filesAfter
      exact .inr ⟨rfl, retention, _, hbegins, hafter, hok⟩
    · rw [Function.update_of_ne hroot]
      exact .inl ⟨rfl, .inl hroot⟩
  · have hnot : ∀ retention, ¬ run.Begins retention := fun retention h => hbegins ⟨retention, h⟩
    dsimp only
    rw [(operation_of_not_begins hnot).1]
    exact .inl ⟨rfl, .inr hnot⟩

theorem step_objects (h : s.step run = some s') (bucket : String) :
  (s'.objects bucket = s.objects bucket
      ∧ (bucket ≠ run.config.bucket ∨ ∀ retention, ¬ run.Begins retention))
    ∨ bucket = run.config.bucket ∧ ∃ retention, run.Begins retention
      ∧ ObjectsAfter run retention (s.objects bucket) (s'.objects bucket)
  := by
  obtain ⟨-, rfl⟩ := step_eq h
  by_cases hbegins : ∃ retention, run.Begins retention
  · obtain ⟨retention, hbegins⟩ := hbegins
    obtain ⟨-, hobjects, -, -⟩ := operation_of_begins (s := s) hbegins
    dsimp only
    rw [hobjects, BackupState.setCopies]
    dsimp only
    by_cases hbucket : bucket = run.config.bucket
    · subst hbucket
      rw [Function.update_self]
      have hafter : ObjectsAfter run retention (s.copies run.config).objects
          (run.inner retention (run.status s).lastSuccessAt (s.copies run.config)).1.objects :=
        inner_objectsAfter
      exact .inr ⟨rfl, retention, hbegins, hafter⟩
    · rw [Function.update_of_ne hbucket]
      exact .inl ⟨rfl, .inl hbucket⟩
  · have hnot : ∀ retention, ¬ run.Begins retention := fun retention h => hbegins ⟨retention, h⟩
    dsimp only
    rw [(operation_of_not_begins hnot).1]
    exact .inl ⟨rfl, .inr hnot⟩

/-- After a step a folder has some of its files, with the archive of the run at most, and all that
are no archives. -/
theorem step_sublist (hs : s.Ordered) (h : s.step run = some s') (root : String) :
  ((s'.files root).Sublist (s.files root) ∨ root = run.config.root
      ∧ (s'.files root).Sublist (s.files root ++ [run.archive]))
    ∧ ∀ file ∈ s.files root, (root ≠ run.config.root ∨ file.owned = false) → file ∈ s'.files root
  := by
  obtain ⟨hfresh, -⟩ := step_eq h
  rcases step_files h root with ⟨heq, -⟩ | ⟨rfl, retention, result, -, hafter, -⟩
  · rw [heq]
    exact ⟨.inl (List.Sublist.refl _), fun file hfile _ => hfile⟩
  · obtain ⟨hsublist, hforeign⟩ := hafter.keepsForeign (hs.distinct _) hfresh.file hfresh.id
    refine ⟨.inr ⟨rfl, hsublist⟩, ?_⟩
    rintro file hfile (hroot | howned)
    · exact absurd rfl hroot
    · exact hforeign file hfile howned

theorem step_ordered (hs : s.Ordered) (h : s.step run = some s') :
  s'.Ordered
  := by
  obtain ⟨hfresh, heq⟩ := step_eq h
  have hnow : s'.now = run.finishedAt := by rw [heq]
  constructor
  · intro root
    rcases (step_sublist hs h root).1 with hsublist | ⟨rfl, hsublist⟩
    · exact (hs.distinct root).sublist (hsublist.map _)
    · exact (distinct_concat (hs.distinct _) hfresh.file).sublist (hsublist.map _)
  · intro root file hfile
    have hold : ∀ file ∈ s.files root, file.created ≤ s'.now := fun file hfile =>
      (hs.created root file hfile).trans (hnow ▸ hfresh.started.trans hfresh.finished)
    rcases (step_sublist hs h root).1 with hsublist | ⟨rfl, hsublist⟩
    · exact hold file (hsublist.subset hfile)
    · rcases List.mem_append.mp (hsublist.subset hfile) with hfile | hfile
      · exact hold file hfile
      · rw [List.mem_singleton.mp hfile, hnow]
        exact hfresh.finished

/-- A run puts its archive in place. -/
def BackupRun.InPlace (run : BackupRun) : Prop :=
  (∃ retention, run.Begins retention) ∧ run.prepare = none ∧ run.sync = none

/-- A run with another number of days. -/
def BackupRun.withDays (run : BackupRun) (days : ℕ) : BackupRun :=
  { run with config := { run.config with retentionDays := days } }

/-- What a run keeps: files and objects that are no archives of its configuration, its own archive
and object, and the newest archives; a run to a store alone leaves no archive, and the age does not
matter when the clock is held. -/
structure RunKeeps (s : BackupState) (run : BackupRun) (s' : BackupState) : Prop where
  foreignFiles : ∀ root, ∀ file ∈ s.files root,
    (root ≠ run.config.root ∨ file.owned = false) → file ∈ s'.files root
  foreignObjects : ∀ bucket, ∀ object ∈ s.objects bucket,
    (bucket ≠ run.config.bucket ∨ run.config.ownedS3Id object.location = none) →
      object ∈ s'.objects bucket
  ownFile : run.InPlace → run.config.destination ≠ .s3 → run.archive ∈ s'.files run.config.root
  ownObject : run.InPlace → run.config.destination ≠ .folder → run.upload = none →
    run.object ∈ s'.objects run.config.bucket
  rotated : (run.operation s).2.toBool = true → run.config.destination ≠ .s3 →
    0 < run.config.retentionCount → Rotated run.config.retentionCount
      (s.files run.config.root ++ [run.archive]) (s'.files run.config.root)
  noneLeft : run.config.destination = .s3 →
    (run.operation s).2.toBool = true ∨ run.stays = false →
      ∀ file ∈ s'.files run.config.root, file.name ≠ run.id
  held : ∀ retention, run.retention = .ok retention → retention.allowAge = false →
    ∀ days, (run.withDays days).operation s = run.operation s

/-- When the clock is held, the number of days does not matter. -/
theorem operation_withDays
    (hretention : run.retention = .ok retention) (hheld : retention.allowAge = false) (days : ℕ) :
  (run.withDays days).operation s = run.operation s
  := by
  have hdays : (run.withDays days).retentionDays retention = run.retentionDays retention := by
    simp [BackupRun.retentionDays, hheld]
  have hlocal : (run.withDays days).pruneLocal retention = run.pruneLocal retention := by
    funext files
    unfold BackupRun.pruneLocal
    rw [hdays]
    rfl
  have hbucket : (run.withDays days).pruneS3Store retention = run.pruneS3Store retention := by
    funext objects
    unfold BackupRun.pruneS3Store BackupRun.s3Doomed
    rw [hdays]
    rfl
  have hinner : (run.withDays days).inner retention = run.inner retention := by
    funext lastSuccess copies
    unfold BackupRun.inner BackupRun.finish BackupRun.afterOutage
    rw [hlocal, hbucket]
    rfl
  have hretention' : (run.withDays days).retention = .ok retention := hretention
  unfold BackupRun.operation
  rw [hretention, hretention']
  dsimp only
  rw [hinner]
  rfl

theorem step_keeps (hs : s.Ordered) (h : s.step run = some s') :
  RunKeeps s run s'
  := by
  obtain ⟨hfresh, -⟩ := step_eq h
  refine ⟨fun root => (step_sublist hs h root).2, ?_, ?_, ?_, ?_, ?_, ?_⟩
  · intro bucket object hobject hforeign
    rcases step_objects h bucket with ⟨heq, -⟩ | ⟨rfl, retention, -, hafter⟩
    · rwa [heq]
    · exact hafter.foreign hobject (hforeign.resolve_left (not_not.mpr rfl))
  · rintro ⟨⟨retention, hbegins⟩, hprepare, hsync⟩ hdestination
    rcases step_files h run.config.root with ⟨-, hnot⟩ | ⟨-, retention', result, -, hafter, -⟩
    · exact absurd hbegins (hnot.resolve_left (not_not.mpr rfl) retention)
    · exact hafter.own hdestination hprepare hsync
  · rintro ⟨⟨retention, hbegins⟩, hprepare, hsync⟩ hdestination hupload
    rcases step_objects h run.config.bucket with ⟨-, hnot⟩ | ⟨-, retention', -, hafter⟩
    · exact absurd hbegins (hnot.resolve_left (not_not.mpr rfl) retention)
    · exact hafter.own hfresh.id hdestination hprepare hsync hupload
  · intro hok hdestination hcount
    rcases step_files h run.config.root with ⟨-, hnot⟩ | ⟨-, retention, result, -, hafter, hresult⟩
    · have hfailed := (operation_of_not_begins (s := s) (hnot.resolve_left (not_not.mpr rfl))).2
      rw [hfailed] at hok
      cases hok
    · exact hafter.rotated hdestination (distinct_concat (hs.distinct _) hfresh.file)
        (fun file hfile => (hs.created _ file hfile).trans hfresh.started) hcount (hresult hok)
  · intro hdestination hstays
    rcases step_files h run.config.root with ⟨heq, -⟩ | ⟨-, retention, result, -, hafter, hresult⟩
    · rw [heq]
      exact hfresh.file
    · exact hafter.none_left hdestination hfresh.file (hstays.imp_left hresult)
  · exact fun retention hretention hheld days => operation_withDays hretention hheld days

/-! ### Outages -/

/-- A run to a folder and a store that cannot be reached; the status file can be read. -/
structure BackupRun.Outage (run : BackupRun) : Prop where
  destination : run.config.destination = .both
  upload : run.upload.isSome = true
  statusRead : run.statusUnread = false
  successRead : run.successUnread = false

/-- Nothing goes wrong where files are listed and removed. -/
structure BackupRun.Removes (run : BackupRun) : Prop where
  listing : run.listing = none
  removal : ∀ name, run.removal name = none
  stays : run.stays = false

/-- The run is complete, and that is recorded: all copies that it was to make are there. -/
def BackupRun.complete (run : BackupRun) (s : BackupState) : Bool :=
  match run.retention with
  | .error _ => false
  | .ok retention =>
      run.statusUnwritten.isNone && run.unrecorded.isNone &&
        match (run.inner retention (run.status s).lastSuccessAt (s.copies run.config)).2 with
        | .ok _ => true
        | .error failure => failure.copiesComplete

/-- The archives of a later second. -/
def newer (time : ℕ) (files : List FileEntry) : List FileEntry :=
  files.filter fun file => file.owned && decide (time < asSecs file.created)

/-- After a complete run the record has the second of its end. -/
theorem complete_recorded (hcomplete : run.complete s = true) (h : s.step run = some s') :
  s'.status.lastSuccessAt = some (asSecs s'.now)
  := by
  obtain ⟨-, rfl⟩ := step_eq h
  rw [BackupRun.complete] at hcomplete
  cases hretention : run.retention with
  | error error => simp [hretention] at hcomplete
  | ok retention =>
      rw [hretention] at hcomplete
      dsimp only at hcomplete
      rw [Bool.and_eq_true, Bool.and_eq_true, Option.isNone_iff_eq_none,
        Option.isNone_iff_eq_none] at hcomplete
      obtain ⟨⟨hwrite, hrecord⟩, hresult⟩ := hcomplete
      obtain ⟨-, -, -, hstatus⟩ := operation_of_begins (s := s) ⟨hretention, hwrite⟩
      dsimp only
      rw [hstatus, if_pos hrecord]
      revert hresult
      cases (run.inner retention (run.status s).lastSuccessAt (s.copies run.config)).2 with
      | ok id => exact fun _ => rfl
      | error failure =>
          intro hcopies
          exact if_pos hcopies

/-- How far a run comes while the store cannot be reached. -/
theorem FilesAfter.of_outage
    {lastSuccess : Option ℕ} {result : Except RunFailure (List Char)} {files' : List FileEntry}
    (h : FilesAfter run retention lastSuccess files result files') (houtage : run.Outage) :
  (∃ error, result = .error ⟨error, false⟩)
    ∧ (files' = files ∨ files' = run.cleanup (files ++ [run.archive])
      ∨ files' = run.afterOutage retention lastSuccess (files ++ [run.archive]))
  := by
  have hdestination := houtage.destination
  cases h with
  | unprepared _ => exact ⟨⟨_, rfl⟩, .inl rfl⟩
  | unsynced _ => exact ⟨⟨_, rfl⟩, .inr (.inl rfl)⟩
  | kept _ upload _ =>
      have hupload := houtage.upload
      rw [upload hdestination] at hupload
      cases hupload
  | outage _ _ => exact ⟨⟨_, rfl⟩, .inr (.inr rfl)⟩
  | failed destination =>
      rw [hdestination] at destination
      cases destination
  | uploaded destination =>
      rw [hdestination] at destination
      cases destination

theorem outage_status (houtage : run.Outage) :
  (run.status s).lastSuccessAt = s.status.lastSuccessAt
  := by
  rw [BackupRun.status, houtage.statusRead]
  rfl

/-- An outage leaves the record. -/
theorem outage_record
    {time : ℕ} (houtage : run.Outage) (hrecord : s.status.lastSuccessAt = some time)
    (h : s.step run = some s') :
  s'.status.lastSuccessAt = some time
  := by
  obtain ⟨-, rfl⟩ := step_eq h
  by_cases hbegins : ∃ retention, run.Begins retention
  · obtain ⟨retention, hbegins⟩ := hbegins
    obtain ⟨-, -, -, hstatus⟩ := operation_of_begins (s := s) hbegins
    have hafter : FilesAfter run retention (run.status s).lastSuccessAt
        (s.copies run.config).files
        (run.inner retention (run.status s).lastSuccessAt (s.copies run.config)).2
        (run.inner retention (run.status s).lastSuccessAt (s.copies run.config)).1.files :=
      inner_filesAfter
    obtain ⟨error, hresult⟩ := (hafter.of_outage houtage).1
    dsimp only
    rw [hstatus, hresult]
    split
    · exact (outage_status houtage).trans hrecord
    · exact (outage_status houtage).trans hrecord
  · have hnot : ∀ retention, ¬ run.Begins retention := fun retention h => hbegins ⟨retention, h⟩
    dsimp only
    rw [(operation_of_not_begins hnot).1]
    exact hrecord

theorem afterOutage_eq {time : ℕ} (houtage : run.Outage) :
  run.afterOutage retention (some time) files = run.pruneOutageCopies time files
  := by
  rw [BackupRun.afterOutage, houtage.successRead]
  rfl

/-- What was there at the recorded time stays through an outage. -/
theorem outage_keeps
    {time : ℕ} (hs : s.Ordered) (houtage : run.Outage)
    (hrecord : s.status.lastSuccessAt = some time) (h : s.step run = some s') {root : String}
    (hmem : file ∈ s.files root) (hold : asSecs file.created ≤ time) :
  file ∈ s'.files root
  := by
  obtain ⟨hfresh, -⟩ := step_eq h
  rcases step_files h root with ⟨heq, -⟩ | ⟨rfl, retention, result, -, hafter, -⟩
  · rwa [heq]
  · rw [outage_status houtage, hrecord] at hafter
    have hall : file ∈ s.files run.config.root ++ [run.archive] := List.mem_append_left _ hmem
    rcases (hafter.of_outage houtage).2 with heq | heq | heq
    · rwa [heq]
    · rw [heq, BackupRun.cleanup]
      split
      · exact hall
      · exact List.mem_filter.mpr ⟨hall, decide_eq_true (hfresh.file file hmem)⟩
    · rw [heq, afterOutage_eq houtage, BackupRun.pruneOutageCopies]
      split
      · exact hall
      · apply mem_removeFiles hall
        intro other hother hname
        obtain ⟨⟨hother, -⟩, -, hlate⟩ := mem_outageDoomed.mp hother
        have hsame := (distinct_concat (hs.distinct _) hfresh.file).eq_of_name hother hall hname
        rw [hsame] at hlate
        exact absurd hlate (Nat.not_lt.mpr hold)

/-- Through an outage one archive is kept that was taken in a later second, when it can be
removed. -/
theorem outage_newer
    {time : ℕ} (hs : s.Ordered) (houtage : run.Outage) (hremoves : run.Removes)
    (hrecord : s.status.lastSuccessAt = some time) (h : s.step run = some s') {root : String}
    (hone : (newer time (s.files root)).length ≤ 1) :
  (newer time (s'.files root)).length ≤ 1
  := by
  obtain ⟨hfresh, -⟩ := step_eq h
  rcases step_files h root with ⟨heq, -⟩ | ⟨rfl, retention, result, -, hafter, -⟩
  · rwa [heq]
  · rw [outage_status houtage, hrecord] at hafter
    rcases (hafter.of_outage houtage).2 with heq | heq | heq
    · rwa [heq]
    · rw [heq, BackupRun.cleanup, hremoves.stays, if_neg (by decide), filter_archive hfresh.file]
      exact hone
    · have hdistinct := distinct_concat (hs.distinct _) hfresh.file
      have hnewer : newer time (s'.files run.config.root) ⊆ [run.archive] := by
        intro file hfile
        obtain ⟨hmem, hlate⟩ := List.mem_filter.mp hfile
        rw [Bool.and_eq_true, decide_eq_true_eq] at hlate
        rw [heq, afterOutage_eq houtage, BackupRun.pruneOutageCopies, hremoves.listing] at hmem
        dsimp only at hmem
        rw [removeFiles_done (List.findSome?_eq_none_iff.mpr fun other _ =>
          hremoves.removal other.name)] at hmem
        obtain ⟨hmem, hkept⟩ := List.mem_filter.mp hmem
        have hid : file.name = run.id := by
          by_contra hid
          apply of_decide_eq_true hkept
          exact List.mem_map_of_mem (mem_outageDoomed.mpr ⟨⟨hmem, hlate.1⟩, hid, hlate.2⟩)
        exact List.mem_singleton.mpr
          (hdistinct.eq_of_name hmem (by simp) (hid.trans rfl))
      have hsublist : (s'.files run.config.root).Sublist
          (s.files run.config.root ++ [run.archive]) := by
        rw [heq]
        exact (afterOutage_keepsForeign hdistinct).sublist
      have hnodup : (newer time (s'.files run.config.root)).Nodup :=
        (List.Nodup.of_map _ (hdistinct.sublist (hsublist.map _))).filter _
      exact (List.subperm_of_subset hnodup hnewer).length_le

/-- What is kept through an outage that begins right after a complete run: all files that were
there, and, when files can be removed, one archive of a later second in each folder. -/
structure OutageKeeps (s : BackupState) (outage : List BackupRun) (s' : BackupState) : Prop where
  kept : ∀ root, ∀ file ∈ s.files root, file ∈ s'.files root
  newer : (∀ run ∈ outage, run.Removes) →
    ∀ root, (newer (asSecs s.now) (s'.files root)).length ≤ 1

theorem outage_run
    {outage : List BackupRun} (hs : s.Ordered)
    (hrecord : s.status.lastSuccessAt = some (asSecs s.now)) (houtage : ∀ run ∈ outage, run.Outage)
    (h : Runs.run BackupState.step s outage = some s') :
  OutageKeeps s outage s'
  := by
  constructor
  · let kept (t : BackupState) : Prop := t.Ordered
      ∧ t.status.lastSuccessAt = some (asSecs s.now)
      ∧ ∀ root, ∀ file ∈ s.files root, file ∈ t.files root
    have hstep : ∀ t (run : BackupRun) t', run.Outage → kept t → t.step run = some t' →
        kept t' := by
      rintro t run t' hrun ⟨hordered, hrecorded, hkept⟩ hnext
      refine ⟨step_ordered hordered hnext, outage_record hrun hrecorded hnext, ?_⟩
      intro root file hfile
      have hold : asSecs file.created ≤ asSecs s.now :=
        Nat.div_le_div_right (hs.created root file hfile)
      exact outage_keeps hordered hrun hrecorded hnext (hkept root file hfile) hold
    have halong : Runs.Along BackupState.step (fun _ run => run.Outage) s outage :=
      Runs.along_of_forall _ fun run hrun _ => houtage run hrun
    exact (Runs.run_invariant_along hstep halong ⟨hs, hrecord, fun _ _ hfile => hfile⟩ h).2.2
  · intro hremoves
    let single (t : BackupState) : Prop := t.Ordered
      ∧ t.status.lastSuccessAt = some (asSecs s.now)
      ∧ ∀ root, (newer (asSecs s.now) (t.files root)).length ≤ 1
    have hstep : ∀ t (run : BackupRun) t', run.Outage ∧ run.Removes → single t →
        t.step run = some t' → single t' := by
      rintro t run t' ⟨hrun, hclean⟩ ⟨hordered, hrecorded, hone⟩ hnext
      exact ⟨step_ordered hordered hnext, outage_record hrun hrecorded hnext,
        fun root => outage_newer hordered hrun hclean hrecorded hnext (hone root)⟩
    have halong : Runs.Along BackupState.step (fun _ run => run.Outage ∧ run.Removes) s outage :=
      Runs.along_of_forall _ fun run hrun _ => ⟨houtage run hrun, hremoves run hrun⟩
    have hnone : ∀ root, (newer (asSecs s.now) (s.files root)).length ≤ 1 := by
      intro root
      have hempty : newer (asSecs s.now) (s.files root) = [] := by
        rw [newer, List.filter_eq_nil_iff]
        intro file hfile hlate
        rw [Bool.and_eq_true, decide_eq_true_eq] at hlate
        exact absurd (Nat.div_le_div_right (hs.created root file hfile)) (Nat.not_le.mpr hlate.2)
      rw [hempty]
      exact Nat.zero_le _
    exact (Runs.run_invariant_along hstep halong ⟨hs, hrecord, hnone⟩ h).2.2

/-- In every sequence of runs, each keeps what it must, and after each complete run what was there
is kept for as long as the store cannot be reached. -/
theorem backup_rotation
    {s₀ s : BackupState} {runs : List BackupRun} (hs : s₀.Ordered)
    (h : Runs.run BackupState.step s₀ runs = some s) :
  (∀ run s', s.step run = some s' → RunKeeps s run s')
    ∧ ∀ run s₁ outage s₂, s.step run = some s₁ → run.complete s = true →
        (∀ run ∈ outage, run.Outage) → Runs.run BackupState.step s₁ outage = some s₂ →
        OutageKeeps s₁ outage s₂
  := by
  have hordered := Runs.run_invariant (fun _ _ _ ht hstep => step_ordered ht hstep) hs h
  refine ⟨fun run s' hstep => step_keeps hordered hstep, ?_⟩
  intro run s₁ outage s₂ hstep hcomplete houtage hrest
  exact outage_run (step_ordered hordered hstep) (complete_recorded hcomplete hstep) houtage hrest

/-- No archives, and a complete run in the first second. -/
def firstSecond : BackupState := ⟨fun _ => [], fun _ => [], ⟨none, some 0, none⟩, 0⟩

/-- A run at a time in which nothing goes wrong, of which one archive is to be kept. -/
def smoothRun (destination : Destination) (id : String) (time : ℕ) : BackupRun where
  config := ⟨destination, 0, 1, "backups", "bucket", none⟩
  retention := .ok ⟨0, true⟩
  startedAt := time
  id := id.toList
  created := time
  lastModified := time
  finishedAt := time
  statusUnread := false
  statusUnwritten := none
  prepare := none
  sync := none
  stays := false
  upload := none
  arrived := false
  successUnread := false
  listing := none
  removal := fun _ => none
  bucketListing := none
  deletion := fun _ => none
  unrecorded := none

/-- A run whose upload fails. -/
def failingRun (id : String) (time : ℕ) : BackupRun :=
  { smoothRun .both id time with upload := some [] }

theorem firstSecond_ordered : firstSecond.Ordered := by
  constructor
  · intro root
    exact List.nodup_nil
  · intro root file hfile
    cases hfile

/-- A run that cannot read the status, and cannot remove anything. -/
def hinderedRun (id : String) (time : ℕ) : BackupRun :=
  { smoothRun .both id time with
    statusUnread := true
    removal := fun _ => some []
    deletion := fun _ => some [] }

/-- A complete run, an outage after it, and a run that is hindered. -/
theorem backup_rotation_once :
  ∃ s₁ s₂ s₃, firstSecond.step (smoothRun .both "votport-backup-v2-1-a.tar" 1) = some s₁
    ∧ Runs.run BackupState.step s₁ [failingRun "votport-backup-v2-2-b.tar" 2000000000] = some s₂
    ∧ OutageKeeps s₁ [failingRun "votport-backup-v2-2-b.tar" 2000000000] s₂
    ∧ s₂.step (hinderedRun "votport-backup-v2-3-c.tar" 3000000000) = some s₃
    ∧ RunKeeps s₂ (hinderedRun "votport-backup-v2-3-c.tar" 3000000000) s₃
  := by
  obtain ⟨s₁, hs₁⟩ := Option.isSome_iff_exists.mp
    (show (firstSecond.step (smoothRun .both "votport-backup-v2-1-a.tar" 1)).isSome = true by
      decide)
  have hrun : ((firstSecond.step (smoothRun .both "votport-backup-v2-1-a.tar" 1)).bind fun s =>
      (Runs.run BackupState.step s [failingRun "votport-backup-v2-2-b.tar" 2000000000]).bind fun s =>
        s.step (hinderedRun "votport-backup-v2-3-c.tar" 3000000000)).isSome = true := by
    decide
  rw [hs₁, Option.bind_some] at hrun
  obtain ⟨s₃, hrun⟩ := Option.isSome_iff_exists.mp hrun
  obtain ⟨s₂, hs₂, hs₃⟩ := Option.bind_eq_some_iff.mp hrun
  have hstart : Runs.run BackupState.step firstSecond [] = some firstSecond := rfl
  have hreached : Runs.run BackupState.step firstSecond
      [smoothRun .both "votport-backup-v2-1-a.tar" 1,
        failingRun "votport-backup-v2-2-b.tar" 2000000000] = some s₂ :=
    (Runs.run_cons _).mpr ⟨s₁, hs₁, hs₂⟩
  have hkeeps := (backup_rotation firstSecond_ordered hstart).2
  refine ⟨s₁, s₂, s₃, hs₁, hs₂, hkeeps _ s₁ _ s₂ hs₁ (by decide) ?_ hs₂, hs₃,
    (backup_rotation firstSecond_ordered hreached).1 _ s₃ hs₃⟩
  intro run hrun
  rw [List.mem_singleton.mp hrun]
  exact ⟨rfl, rfl, rfl, rfl⟩

/-- Two archives of the first second. -/
def twoArchives : BackupState :=
  { firstSecond with
    files := fun _ => [⟨"votport-backup-v2-0-a.tar".toList, 0, true⟩,
      ⟨"votport-backup-v2-0-b.tar".toList, 0, true⟩] }

/-- A complete run to a store alone leaves more archives than are to be kept, and an outage in the
second of the complete run leaves more than one that was not there. -/
theorem rotation_left_over :
  (¬ ∀ (s s' : BackupState) (run : BackupRun), s.Ordered → s.step run = some s' →
      (run.operation s).2.toBool = true → 0 < run.config.retentionCount →
      ((s'.files run.config.root).filter FileEntry.owned).length
        ≤ max 1 run.config.retentionCount)
    ∧ ¬ ∀ (s₁ s₂ : BackupState) (outage : List BackupRun), s₁.Ordered →
      s₁.status.lastSuccessAt = some (asSecs s₁.now) →
      (∀ run ∈ outage, run.Outage ∧ run.Removes) → Runs.run BackupState.step s₁ outage = some s₂ →
      ∀ root, ((s₂.files root).filter fun file =>
        file.owned && decide (file ∉ s₁.files root)).length ≤ 1
  := by
  constructor
  · intro h
    obtain ⟨s', hs'⟩ := Option.isSome_iff_exists.mp
      (show (twoArchives.step (smoothRun .s3 "votport-backup-v2-1-c.tar" 1)).isSome = true by
        decide)
    have hordered : twoArchives.Ordered := by
      constructor
      · intro root
        change Distinct [_, _]
        rw [Distinct]
        decide
      · intro root file hfile
        rcases List.mem_pair.mp hfile with rfl | rfl
        · exact le_rfl
        · exact le_rfl
    have htwo : ((twoArchives.step (smoothRun .s3 "votport-backup-v2-1-c.tar" 1)).map fun s' =>
        ((s'.files "backups").filter FileEntry.owned).length) = some 2 := by
      decide
    have hone := h twoArchives s' _ hordered hs' (by decide) Nat.one_pos
    rw [hs', Option.map_some, Option.some.injEq] at htwo
    change ((s'.files "backups").filter FileEntry.owned).length ≤ 1 at hone
    omega
  · intro h
    have hrun : (Runs.run BackupState.step firstSecond
        [failingRun "votport-backup-v2-0-a.tar" 1, failingRun "votport-backup-v2-0-b.tar" 2]).isSome
          = true := by
      decide
    obtain ⟨s₂, hs₂⟩ := Option.isSome_iff_exists.mp hrun
    have htwo : ((Runs.run BackupState.step firstSecond
        [failingRun "votport-backup-v2-0-a.tar" 1, failingRun "votport-backup-v2-0-b.tar" 2]).map
          fun s₂ => ((s₂.files "backups").filter fun file =>
            file.owned && decide (file ∉ firstSecond.files "backups")).length) = some 2 := by
      decide
    have hone := h firstSecond s₂ _ firstSecond_ordered rfl ?_ hs₂ "backups"
    · rw [hs₂, Option.map_some, Option.some.injEq] at htwo
      omega
    · intro run hrun
      rcases List.mem_pair.mp hrun with rfl | rfl
      · exact ⟨⟨rfl, rfl, rfl, rfl⟩, ⟨rfl, fun _ => rfl, rfl⟩⟩
      · exact ⟨⟨rfl, rfl, rfl, rfl⟩, ⟨rfl, fun _ => rfl, rfl⟩⟩

end Votport.Backup
