import Votport.Storage.WriterLease

/-!
# One writer of a storage root

A guard that is told to renew, and is not interrupted, succeeds only when the names refer to what
it has locked.  Since no two open files have the lock of one file, this is one guard at most.  The
rest is about what the steps of a guard change: which records they put in place and remove, and
what they leave behind when they fail.
-/

namespace Votport.Storage

variable {files files' : LeaseFiles} {g g' h : Guard} {free ok : Bool} {w w' : LeaseWorld}

/-! ### Phases -/

/-- The guard has its lock. -/
def GuardPhase.holding : GuardPhase → Bool
  | .openDirectory | .openLock | .flock | .closed => false
  | _ => true

/-- The guard does not have its lock yet. -/
def GuardPhase.opening : GuardPhase → Bool
  | .openDirectory | .openLock | .flock => true
  | _ => false

/-- The guard has not put its record in place in this job. -/
def GuardPhase.before : GuardPhase → Bool
  | .openDirectory | .openLock | .flock | .checkDirectory _ | .checkLock _ | .writeLock _
  | .syncLock _ | .readRecord _ | .writeRecord _ | .replaceRecord _ _ => true
  | _ => false

/-- The guard has found the directory in place in this job. -/
def GuardPhase.checkedDirectory : GuardPhase → Bool
  | .checkLock _ | .writeLock _ | .syncLock _ | .readRecord _ | .writeRecord _
  | .replaceRecord _ _ | .syncParent _ => true
  | _ => false

/-- The guard has found the lock file in place in this job. -/
def GuardPhase.checkedLock : GuardPhase → Bool
  | .writeLock _ | .syncLock _ | .readRecord _ | .writeRecord _
  | .replaceRecord _ _ | .syncParent _ => true
  | _ => false

/-- The file that the guard has opened to remove it, or has made to put it in place. -/
def GuardPhase.file : GuardPhase → Option Nat
  | .replaceRecord _ file | .readOwned file | .removeOwned file => some file
  | _ => none

/-! ### What a step changes -/

/-- The directory and the lock files that a guard finds stay, and so do the contents of files,
unless they are overwritten as lock files. -/
structure LeaseFiles.Frame (files files' : LeaseFiles) : Prop where
  visible : ∀ d, files.visible = some d → files'.visible = some d
  lockName : ∀ d n, files.lockName d = some n → files'.lockName d = some n
  replaced : files'.replaced = files.replaced
  fresh : files.fresh ≤ files'.fresh
  content : ∀ n, n < files.fresh → files'.content n = files.content n ∨ files'.content n = none

theorem LeaseFiles.Frame.refl (files : LeaseFiles) : files.Frame files where
  visible _ h := h
  lockName _ _ h := h
  replaced := rfl
  fresh := Nat.le_refl _
  content _ _ := .inl rfl

/-- All that a step of a guard does to the files: it makes the directory or the lock file when
there is none, overwrites the lock file, makes a temporary file, puts it in place of the record,
and removes the record. -/
inductive Guard.Writes (files : LeaseFiles) (g : Guard) : LeaseFiles → Prop
  | nothing : Writes files g files
  | directory (hnone : files.visible = none) :
      Writes files g { files with visible := some files.fresh, fresh := files.fresh + 1 }
  | lock (hphase : g.phase = .openLock) (hnone : files.lockName g.directory = none) :
      Writes files g { files with
        lockName := Function.update files.lockName g.directory (some files.fresh)
        fresh := files.fresh + 1 }
  | overwrite :
      Writes files g { files with content := Function.update files.content g.lock none }
  | temporary (job : LeaseJob) (hphase : g.phase = .writeRecord job) :
      Writes files g { files with
        content := Function.update files.content files.fresh (some (g.next job))
        fresh := files.fresh + 1 }
  | record (job : LeaseJob) (temporary : Nat) (hphase : g.phase = .replaceRecord job temporary) :
      Writes files g { files with
        recordName := Function.update files.recordName g.directory (some temporary) }
  | remove (file : Nat) (hphase : g.phase = .removeOwned file)
      (hname : files.recordName g.directory = some file) :
      Writes files g { files with
        recordName := Function.update files.recordName g.directory none }

theorem Guard.go_writes (hgo : g.go files free ok = some (files', g')) :
  g.Writes files files'
  := by
  cases hphase : g.phase with
  | openDirectory =>
      rw [go, hphase] at hgo
      dsimp only at hgo
      split at hgo
      · split at hgo
        · cases hgo
          exact .nothing
        · next hnone =>
            cases hgo
            exact .directory hnone
      · cases hgo
        exact .nothing
  | openLock =>
      rw [go, hphase] at hgo
      dsimp only at hgo
      split at hgo
      · split at hgo
        · cases hgo
          exact .nothing
        · next hnone =>
            cases hgo
            exact .lock hphase hnone
      · cases hgo
        exact .nothing
  | writeLock job =>
      rw [go, hphase] at hgo
      dsimp only at hgo
      split at hgo
      · cases hgo
        exact .overwrite
      · cases hgo
        exact .nothing
  | syncLock job =>
      rw [go, hphase] at hgo
      dsimp only at hgo
      split at hgo
      · cases job <;> cases hgo <;> exact .nothing
      · cases hgo
        exact .nothing
  | writeRecord job =>
      rw [go, hphase] at hgo
      dsimp only at hgo
      split at hgo
      · cases hgo
        exact .temporary job hphase
      · cases hgo
        exact .nothing
  | replaceRecord job temporary =>
      rw [go, hphase] at hgo
      dsimp only at hgo
      split at hgo
      · cases hgo
        exact .record job temporary hphase
      · cases hgo
        exact .nothing
  | removeOwned file =>
      rw [go, hphase] at hgo
      dsimp only at hgo
      split at hgo
      · next hok =>
          cases hgo
          rw [Bool.and_eq_true, decide_eq_true_eq] at hok
          exact .remove file hphase hok.2
      · cases hgo
        exact .nothing
  | openRecord =>
      rw [go, hphase] at hgo
      dsimp only at hgo
      split at hgo
      · split at hgo <;> cases hgo <;> exact .nothing
      · cases hgo
        exact .nothing
  | live =>
      rw [go, hphase] at hgo
      cases hgo
  | closed =>
      rw [go, hphase] at hgo
      cases hgo
  | unlock =>
      rw [go, hphase] at hgo
      cases hgo
      exact .nothing
  | flock | checkDirectory _ | checkLock _ | readRecord _ | syncParent _ | readOwned _ =>
      rw [go, hphase] at hgo
      dsimp only at hgo
      split at hgo <;> cases hgo <;> exact .nothing

/-- What a step leaves in place. -/
theorem Guard.Writes.frame (h : g.Writes files files') :
  files.Frame files'
  := by
  cases h with
  | nothing => exact .refl files
  | directory hnone =>
      refine ⟨?_, fun _ _ h => h, rfl, Nat.le_succ _, fun _ _ => .inl rfl⟩
      intro d hd
      rw [hnone] at hd
      cases hd
  | lock hphase hnone =>
      refine ⟨fun _ h => h, ?_, rfl, Nat.le_succ _, fun _ _ => .inl rfl⟩
      intro d n hd
      have hne : d ≠ g.directory := by
        intro he
        rw [he, hnone] at hd
        cases hd
      exact (Function.update_of_ne hne _ _).trans hd
  | overwrite =>
      refine ⟨fun _ h => h, fun _ _ h => h, rfl, Nat.le_refl _, fun n hn => ?_⟩
      by_cases hne : n = g.lock
      · right
        rw [hne]
        exact Function.update_self _ _ _
      · left
        exact Function.update_of_ne hne _ _
  | temporary job hphase =>
      refine ⟨fun _ h => h, fun _ _ h => h, rfl, Nat.le_succ _, fun n hn => ?_⟩
      left
      exact Function.update_of_ne (Nat.ne_of_lt hn) _ _
  | record job temporary hphase =>
      exact ⟨fun _ h => h, fun _ _ h => h, rfl, Nat.le_refl _, fun _ _ => .inl rfl⟩
  | remove file hphase hname =>
      exact ⟨fun _ h => h, fun _ _ h => h, rfl, Nat.le_refl _, fun _ _ => .inl rfl⟩

/-! ### What is known of a guard -/

/-- What holds of a guard: it has its lock between taking it and giving it up, what it checked is
so unless a name was replaced since, it handles files that exist, and the file that it is about to
remove is its own record. -/
structure Guard.Kept (files : LeaseFiles) (g : Guard) : Prop where
  locked : g.phase.holding = true → g.locked = true
  directory : g.phase.checkedDirectory = true → g.seen = files.replaced →
    files.visible = some g.directory
  lock : g.phase.checkedLock = true → g.seen = files.replaced →
    files.lockName g.directory = some g.lock
  seen : g.seen ≤ files.replaced
  file : ∀ n, g.phase.file = some n → n < files.fresh
  owned : ∀ n, g.phase = .removeOwned n → ∀ lease, files.content n = some lease →
    lease.holder = g.record.holder

/-- What is known of a guard stays when another one does a step. -/
theorem Guard.Kept.frame (h : g.Kept files) (hframe : files.Frame files') :
  g.Kept files'
  where
    locked := h.locked
    directory hphase hseen := by
      rw [hframe.replaced] at hseen
      exact hframe.visible _ (h.directory hphase hseen)
    lock hphase hseen := by
      rw [hframe.replaced] at hseen
      exact hframe.lockName _ _ (h.lock hphase hseen)
    seen := by
      rw [hframe.replaced]
      exact h.seen
    file n hn := Nat.lt_of_lt_of_le (h.file n hn) hframe.fresh
    owned n hphase lease hlease := by
      have hn : n < files.fresh := h.file n (by rw [hphase]; rfl)
      rcases hframe.content n hn with hsame | hnone
      · rw [hsame] at hlease
        exact h.owned n hphase lease hlease
      · rw [hnone] at hlease
        cases hlease

/-- A guard goes to a phase at which nothing is checked and no file is handled. -/
theorem Guard.Kept.plain
    (h : g.Kept files) {phase : GuardPhase} (hlocked : phase.holding = true → g.phase.holding = true)
    (hdirectory : phase.checkedDirectory = false) (hlock : phase.checkedLock = false)
    (hfile : phase.file = none) :
  Guard.Kept files { g with phase := phase }
  where
    locked hphase := h.locked (hlocked hphase)
    directory hphase := by
      rw [hdirectory] at hphase
      cases hphase
    lock hphase := by
      rw [hlock] at hphase
      cases hphase
    seen := h.seen
    file n hn := by
      rw [hfile] at hn
      cases hn
    owned n hphase := by
      dsimp only at hphase
      rw [hphase] at hfile
      cases hfile

/-- A guard fails at a job. -/
theorem Guard.Kept.fail (h : g.Kept files) (job : LeaseJob) (hlocked : g.phase.holding = true) :
  (g.fail job).Kept files
  := by
  cases job with
  | acquire => exact h.plain (fun _ => hlocked) rfl rfl rfl
  | renew now => exact h.plain (fun _ => hlocked) rfl rfl rfl

/-- A guard goes on after it has checked its lock file. -/
theorem Guard.Kept.goes_on
    (h : g.Kept files) {phase : GuardPhase} (hlocked : g.phase.holding = true)
    (hdirectory : g.phase.checkedDirectory = true) (hlock : g.phase.checkedLock = true)
    (hfile : ∀ n, phase.file = some n → n < files.fresh)
    (howned : ∀ n, phase ≠ .removeOwned n) :
  Guard.Kept files { g with phase := phase }
  where
    locked _ := h.locked hlocked
    directory _ := h.directory hdirectory
    lock _ := h.lock hlock
    seen := h.seen
    file := hfile
    owned n hphase := absurd hphase (howned n)

/-- A record that names the holder. -/
theorem LeaseFiles.names_holder
    {file : Nat} {holder : String} (h : files.names (some file) holder = true) :
  ∀ lease, files.content file = some lease → lease.holder = holder
  := by
  intro lease hlease
  rw [names, Option.bind_some, hlease] at h
  exact of_decide_eq_true h

/-- What is known of a guard stays when it does a step. -/
theorem Guard.Kept.go
    (h : g.Kept files) (hrecord : ∀ d n, files.recordName d = some n → n < files.fresh)
    (hgo : g.go files free ok = some (files', g')) :
  g'.Kept files'
  := by
  have hframe := (go_writes hgo).frame
  have hkept := h.frame hframe
  cases hphase : g.phase with
  | openDirectory =>
      rw [Guard.go, hphase] at hgo
      dsimp only at hgo
      split at hgo
      · split at hgo <;> cases hgo <;>
          exact ⟨nofun, nofun, nofun, hkept.seen, nofun, nofun⟩
      · cases hgo
        exact h.plain nofun rfl rfl rfl
  | openLock =>
      rw [Guard.go, hphase] at hgo
      dsimp only at hgo
      split at hgo
      · split at hgo <;> cases hgo <;>
          exact ⟨nofun, nofun, nofun, hkept.seen, nofun, nofun⟩
      · cases hgo
        exact h.plain nofun rfl rfl rfl
  | flock =>
      rw [Guard.go, hphase] at hgo
      dsimp only at hgo
      split at hgo
      · cases hgo
        exact ⟨fun _ => rfl, nofun, nofun, h.seen, nofun, nofun⟩
      · cases hgo
        exact h.plain nofun rfl rfl rfl
  | checkDirectory job =>
      have hholding : g.phase.holding = true := by rw [hphase]; rfl
      rw [Guard.go, hphase] at hgo
      dsimp only at hgo
      split at hgo
      · next hok =>
          cases hgo
          rw [Bool.and_eq_true, decide_eq_true_eq] at hok
          exact ⟨fun _ => h.locked hholding, fun _ _ => hok.2, nofun, Nat.le_refl _, nofun, nofun⟩
      · cases hgo
        exact h.fail job hholding
  | checkLock job =>
      have hholding : g.phase.holding = true := by rw [hphase]; rfl
      rw [Guard.go, hphase] at hgo
      dsimp only at hgo
      split at hgo
      · next hok =>
          cases hgo
          rw [Bool.and_eq_true, decide_eq_true_eq] at hok
          refine ⟨fun _ => h.locked hholding, fun _ => h.directory ?_, fun _ _ => hok.2, h.seen,
            nofun, nofun⟩
          rw [hphase]
          rfl
      · cases hgo
        exact h.fail job hholding
  | writeLock job =>
      have hholding : g.phase.holding = true := by rw [hphase]; rfl
      have hdirectory : g.phase.checkedDirectory = true := by rw [hphase]; rfl
      have hlock : g.phase.checkedLock = true := by rw [hphase]; rfl
      rw [Guard.go, hphase] at hgo
      dsimp only at hgo
      split at hgo
      · cases hgo
        exact hkept.goes_on hholding hdirectory hlock nofun nofun
      · cases hgo
        exact h.fail job hholding
  | syncLock job =>
      have hholding : g.phase.holding = true := by rw [hphase]; rfl
      have hdirectory : g.phase.checkedDirectory = true := by rw [hphase]; rfl
      have hlock : g.phase.checkedLock = true := by rw [hphase]; rfl
      rw [Guard.go, hphase] at hgo
      dsimp only at hgo
      split at hgo
      · cases job <;> cases hgo <;> exact h.goes_on hholding hdirectory hlock nofun nofun
      · cases hgo
        exact h.fail job hholding
  | readRecord now =>
      have hholding : g.phase.holding = true := by rw [hphase]; rfl
      have hdirectory : g.phase.checkedDirectory = true := by rw [hphase]; rfl
      have hlock : g.phase.checkedLock = true := by rw [hphase]; rfl
      rw [Guard.go, hphase] at hgo
      dsimp only at hgo
      split at hgo
      · cases hgo
        exact h.goes_on hholding hdirectory hlock nofun nofun
      · cases hgo
        exact h.plain (fun _ => hholding) rfl rfl rfl
  | writeRecord job =>
      have hholding : g.phase.holding = true := by rw [hphase]; rfl
      have hdirectory : g.phase.checkedDirectory = true := by rw [hphase]; rfl
      have hlock : g.phase.checkedLock = true := by rw [hphase]; rfl
      rw [Guard.go, hphase] at hgo
      dsimp only at hgo
      split at hgo
      · cases hgo
        refine hkept.goes_on hholding hdirectory hlock ?_ nofun
        rintro _ ⟨⟩
        exact Nat.lt_succ_self _
      · cases hgo
        exact h.fail job hholding
  | replaceRecord job temporary =>
      have hholding : g.phase.holding = true := by rw [hphase]; rfl
      have hdirectory : g.phase.checkedDirectory = true := by rw [hphase]; rfl
      have hlock : g.phase.checkedLock = true := by rw [hphase]; rfl
      rw [Guard.go, hphase] at hgo
      dsimp only at hgo
      split at hgo
      · cases hgo
        have hplaced : Guard.Kept _ { g with phase := .syncParent job } :=
          hkept.goes_on hholding hdirectory hlock nofun nofun
        exact ⟨hplaced.locked, hplaced.directory, hplaced.lock, hplaced.seen, nofun, nofun⟩
      · cases hgo
        exact h.fail job hholding
  | syncParent job =>
      have hholding : g.phase.holding = true := by rw [hphase]; rfl
      rw [Guard.go, hphase] at hgo
      dsimp only at hgo
      split at hgo
      · cases hgo
        exact ⟨fun _ => h.locked hholding, nofun, nofun, h.seen, nofun, nofun⟩
      · cases hgo
        exact h.fail job hholding
  | live =>
      rw [Guard.go, hphase] at hgo
      cases hgo
  | openRecord =>
      have hholding : g.phase.holding = true := by rw [hphase]; rfl
      rw [Guard.go, hphase] at hgo
      dsimp only at hgo
      split at hgo
      · next file hname =>
          split at hgo
          · cases hgo
            refine ⟨fun _ => h.locked hholding, nofun, nofun, h.seen, ?_, nofun⟩
            rintro _ ⟨⟩
            exact hrecord _ _ hname
          · cases hgo
            exact h.plain (fun _ => hholding) rfl rfl rfl
      · cases hgo
        exact h.plain (fun _ => hholding) rfl rfl rfl
  | readOwned file =>
      have hholding : g.phase.holding = true := by rw [hphase]; rfl
      rw [Guard.go, hphase] at hgo
      dsimp only at hgo
      split at hgo
      · next hok =>
          cases hgo
          rw [Bool.and_eq_true] at hok
          refine ⟨fun _ => h.locked hholding, nofun, nofun, h.seen, ?_, ?_⟩
          · rintro _ ⟨⟩
            exact h.file file (by rw [hphase]; rfl)
          · rintro _ ⟨⟩
            exact LeaseFiles.names_holder hok.2
      · cases hgo
        exact h.plain (fun _ => hholding) rfl rfl rfl
  | removeOwned file =>
      have hholding : g.phase.holding = true := by rw [hphase]; rfl
      rw [Guard.go, hphase] at hgo
      dsimp only at hgo
      split at hgo <;> cases hgo <;> exact hkept.plain (fun _ => hholding) rfl rfl rfl
  | unlock =>
      rw [Guard.go, hphase] at hgo
      cases hgo
      exact ⟨nofun, nofun, nofun, h.seen, nofun, nofun⟩
  | closed =>
      rw [Guard.go, hphase] at hgo
      cases hgo

/-- What a step changes of a guard itself: it takes the lock only when it is free, opens another
file only when it does not have the lock yet, and has another record only when it has finished a
job. -/
structure Guard.Same (free : Bool) (g g' : Guard) : Prop where
  id : g'.id = g.id
  process : g'.process = g.process
  children : g'.children = g.children
  opening : g'.phase.opening = true → g.phase.opening = true ∧ g'.locked = g.locked
  locked : g'.locked = true →
    g.locked = true ∧ (g'.lock = g.lock ∨ g.phase.opening = true)
    ∨ free = true ∧ g'.lock = g.lock ∧ g.phase = .flock
  record : g'.record = g.record
    ∨ ∃ job, g.phase = .syncParent job ∧ g'.phase = .live ∧ g'.record = g.next job
  before : g'.phase.before = true → g.phase.before = true ∧ g'.placed = g.placed

/-- A step that only goes to another phase, after the lock was taken. -/
theorem Guard.Same.phase
    {phase : GuardPhase} (hopening : phase.opening = false)
    (hbefore : phase.before = true → g.phase.before = true) :
  Guard.Same free g { g with phase := phase }
  where
    id := rfl
    process := rfl
    children := rfl
    opening h := by
      rw [hopening] at h
      cases h
    locked h := .inl ⟨h, .inl rfl⟩
    record := .inl rfl
    before h := ⟨hbefore h, rfl⟩

theorem Guard.Same.fail (g : Guard) (job : LeaseJob) : Guard.Same free g (g.fail job) := by
  cases job with
  | acquire => exact .phase rfl nofun
  | renew now => exact .phase rfl nofun

theorem Guard.go_same (hgo : g.go files free ok = some (files', g')) :
  Guard.Same free g g'
  := by
  cases hphase : g.phase with
  | openDirectory =>
      have hopening : g.phase.opening = true := by rw [hphase]; rfl
      have hbefore : g.phase.before = true := by rw [hphase]; rfl
      rw [go, hphase] at hgo
      dsimp only at hgo
      split at hgo
      · split at hgo <;> cases hgo <;>
          exact ⟨rfl, rfl, rfl, fun _ => ⟨hopening, rfl⟩, fun h => .inl ⟨h, .inl rfl⟩, .inl rfl,
            fun _ => ⟨hbefore, rfl⟩⟩
      · cases hgo
        exact .phase rfl nofun
  | openLock =>
      have hopening : g.phase.opening = true := by rw [hphase]; rfl
      have hbefore : g.phase.before = true := by rw [hphase]; rfl
      rw [go, hphase] at hgo
      dsimp only at hgo
      split at hgo
      · split at hgo <;> cases hgo <;>
          exact ⟨rfl, rfl, rfl, fun _ => ⟨hopening, rfl⟩, fun h => .inl ⟨h, .inr hopening⟩,
            .inl rfl, fun _ => ⟨hbefore, rfl⟩⟩
      · cases hgo
        exact .phase rfl nofun
  | flock =>
      have hbefore : g.phase.before = true := by rw [hphase]; rfl
      rw [go, hphase] at hgo
      dsimp only at hgo
      split at hgo
      · next hok =>
          cases hgo
          rw [Bool.and_eq_true] at hok
          exact ⟨rfl, rfl, rfl, nofun, fun _ => .inr ⟨hok.2, rfl, hphase⟩, .inl rfl,
            fun _ => ⟨hbefore, rfl⟩⟩
      · cases hgo
        exact .phase rfl nofun
  | checkDirectory job =>
      have hbefore : g.phase.before = true := by rw [hphase]; rfl
      rw [go, hphase] at hgo
      dsimp only at hgo
      split at hgo
      · cases hgo
        exact ⟨rfl, rfl, rfl, nofun, fun h => .inl ⟨h, .inl rfl⟩, .inl rfl,
          fun _ => ⟨hbefore, rfl⟩⟩
      · cases hgo
        exact .fail g job
  | syncLock job =>
      have hbefore : g.phase.before = true := by rw [hphase]; rfl
      rw [go, hphase] at hgo
      dsimp only at hgo
      split at hgo
      · cases job <;> cases hgo <;> exact .phase rfl (fun _ => hbefore)
      · cases hgo
        exact .fail g job
  | checkLock job | writeLock job | writeRecord job =>
      have hbefore : g.phase.before = true := by rw [hphase]; rfl
      rw [go, hphase] at hgo
      dsimp only at hgo
      split at hgo
      · cases hgo
        exact .phase rfl (fun _ => hbefore)
      · cases hgo
        exact .fail g job
  | replaceRecord job _ =>
      rw [go, hphase] at hgo
      dsimp only at hgo
      split at hgo
      · cases hgo
        exact ⟨rfl, rfl, rfl, nofun, fun h => .inl ⟨h, .inl rfl⟩, .inl rfl, nofun⟩
      · cases hgo
        exact .fail g job
  | syncParent job =>
      rw [go, hphase] at hgo
      dsimp only at hgo
      split at hgo
      · cases hgo
        exact ⟨rfl, rfl, rfl, nofun, fun h => .inl ⟨h, .inl rfl⟩, .inr ⟨job, hphase, rfl, rfl⟩,
          nofun⟩
      · cases hgo
        exact .fail g job
  | openRecord =>
      rw [go, hphase] at hgo
      dsimp only at hgo
      split at hgo
      · split at hgo <;> cases hgo <;> exact .phase rfl nofun
      · cases hgo
        exact .phase rfl nofun
  | readRecord _ =>
      have hbefore : g.phase.before = true := by rw [hphase]; rfl
      rw [go, hphase] at hgo
      dsimp only at hgo
      split at hgo
      · cases hgo
        exact .phase rfl (fun _ => hbefore)
      · cases hgo
        exact .phase rfl nofun
  | readOwned _ | removeOwned _ =>
      rw [go, hphase] at hgo
      dsimp only at hgo
      split at hgo <;> cases hgo <;> exact .phase rfl nofun
  | unlock =>
      rw [go, hphase] at hgo
      cases hgo
      refine ⟨rfl, rfl, rfl, nofun, fun hlocked => ?_, .inl rfl, nofun⟩
      rw [Bool.and_eq_true, Bool.and_eq_true] at hlocked
      exact .inl ⟨hlocked.1.1, .inl rfl⟩
  | live =>
      rw [go, hphase] at hgo
      cases hgo
  | closed =>
      rw [go, hphase] at hgo
      cases hgo

/-- What a guard has opened is what the names referred to. -/
theorem Guard.go_opens (hgo : g.go files free ok = some (files', g')) :
  (g'.phase = .openLock → files'.visible = some g'.directory)
  ∧ (g'.phase = .flock → files'.lockName g'.directory = some g'.lock)
  := by
  have hfail : ∀ job, ((g.fail job).phase = .openLock → files.visible = some (g.fail job).directory)
      ∧ ((g.fail job).phase = .flock →
        files.lockName (g.fail job).directory = some (g.fail job).lock) := by
    intro job
    cases job with
    | acquire => exact ⟨nofun, nofun⟩
    | renew now => exact ⟨nofun, nofun⟩
  cases hphase : g.phase with
  | openDirectory =>
      rw [go, hphase] at hgo
      dsimp only at hgo
      split at hgo
      · split at hgo
        · next hvisible =>
            cases hgo
            exact ⟨fun _ => hvisible, nofun⟩
        · cases hgo
          exact ⟨fun _ => rfl, nofun⟩
      · cases hgo
        exact ⟨nofun, nofun⟩
  | openLock =>
      rw [go, hphase] at hgo
      dsimp only at hgo
      split at hgo
      · split at hgo
        · next hname =>
            cases hgo
            exact ⟨nofun, fun _ => hname⟩
        · cases hgo
          exact ⟨nofun, fun _ => Function.update_self _ _ _⟩
      · cases hgo
        exact ⟨nofun, nofun⟩
  | checkDirectory job | checkLock job | writeLock job | writeRecord job | replaceRecord job _
  | syncParent job =>
      rw [go, hphase] at hgo
      dsimp only at hgo
      split at hgo
      · cases hgo
        exact ⟨nofun, nofun⟩
      · cases hgo
        exact hfail job
  | syncLock job =>
      rw [go, hphase] at hgo
      dsimp only at hgo
      split at hgo
      · cases job <;> cases hgo <;> exact ⟨nofun, nofun⟩
      · cases hgo
        exact hfail job
  | openRecord =>
      rw [go, hphase] at hgo
      dsimp only at hgo
      split at hgo
      · split at hgo <;> cases hgo <;> exact ⟨nofun, nofun⟩
      · cases hgo
        exact ⟨nofun, nofun⟩
  | flock | readRecord _ | readOwned _ | removeOwned _ =>
      rw [go, hphase] at hgo
      dsimp only at hgo
      split at hgo <;> cases hgo <;> exact ⟨nofun, nofun⟩
  | unlock =>
      rw [go, hphase] at hgo
      cases hgo
      exact ⟨nofun, nofun⟩
  | live =>
      rw [go, hphase] at hgo
      cases hgo
  | closed =>
      rw [go, hphase] at hgo
      cases hgo

/-! ### What holds in every run -/

/-- What holds of the files and the guards: no two guards have the lock of one file. -/
structure LeaseWorld.Kept (w : LeaseWorld) : Prop where
  guards : ∀ g ∈ w.guards.rows, g.Kept w.files
  opening : ∀ g ∈ w.guards.rows, g.phase.opening = true → g.locked = false
  alone : ∀ g ∈ w.guards.rows, ∀ h ∈ w.guards.rows, g.locked = true → h.locked = true →
    g.lock = h.lock → g = h
  record : ∀ d n, w.files.recordName d = some n → n < w.files.fresh

/-- Before any guard. -/
structure LeaseWorld.Begins (w : LeaseWorld) : Prop where
  guards : w.guards.rows = []
  visible : ∀ d, w.files.visible = some d → d < w.files.fresh
  lockName : ∀ d n, w.files.lockName d = some n → d < w.files.fresh ∧ n < w.files.fresh
  record : ∀ d n, w.files.recordName d = some n → n < w.files.fresh

theorem LeaseWorld.Begins.kept (h : w.Begins) : w.Kept where
  guards g hg := by
    rw [h.guards] at hg
    cases hg
  opening g hg := by
    rw [h.guards] at hg
    cases hg
  alone g hg := by
    rw [h.guards] at hg
    cases hg
  record := h.record

/-- No other guard has the lock of the file of a guard that finds it free. -/
theorem LeaseWorld.free_eq_true :
  w.free g = true ↔ ∀ h ∈ w.guards.rows, h.id ≠ g.id → h.locked = true → h.lock ≠ g.lock
  := by
  rw [free, List.all_eq_true]
  apply forall_congr'
  intro h
  apply forall_congr'
  intro _
  rw [Bool.or_eq_true, decide_eq_true_eq, Bool.not_eq_true', Bool.and_eq_false_iff,
    decide_eq_false_iff_not]
  constructor
  · rintro (hid | hlocked | hlock) hne htaken
    · exact absurd hid hne
    · rw [htaken] at hlocked
      cases hlocked
    · exact hlock
  · intro hfree
    by_cases hid : h.id = g.id
    · exact .inl hid
    · right
      cases hlocked : h.locked with
      | false => exact .inl rfl
      | true => exact .inr (hfree hid hlocked)

/-- One guard changes, and the files keep what the others know. -/
theorem LeaseWorld.Kept.replace
    (hw : w.Kept) (hid : g'.id = g.id) (hframe : w.files.Frame files')
    (hkept : g'.Kept files') (hopening : g'.phase.opening = true → g'.locked = false)
    (halone : g'.locked = true → ∀ h ∈ w.guards.rows, h.id ≠ g.id → h.locked = true →
      h.lock ≠ g'.lock)
    (hrecord : ∀ d n, files'.recordName d = some n → n < files'.fresh) :
  LeaseWorld.Kept { files := files', guards := w.guards.upsert g' }
  where
    guards h hh := by
      rcases Table.mem_upsert.mp hh with rfl | ⟨hh, _⟩
      · exact hkept
      · exact (hw.guards h hh).frame hframe
    opening h hh := by
      rcases Table.mem_upsert.mp hh with rfl | ⟨hh, _⟩
      · exact hopening
      · exact hw.opening h hh
    alone h hh k hk hlocked klocked hlock := by
      rcases Table.mem_upsert.mp hh with hnew | ⟨hold, hne⟩
      · rcases Table.mem_upsert.mp hk with knew | ⟨kold, kne⟩
        · exact hnew.trans knew.symm
        · rw [hid] at kne
          rw [hnew] at hlocked hlock
          exact absurd hlock.symm (halone hlocked k kold kne klocked)
      · rcases Table.mem_upsert.mp hk with knew | ⟨kold, kne⟩
        · rw [hid] at hne
          rw [knew] at klocked hlock
          exact absurd hlock (halone klocked h hold hne hlocked)
        · exact hw.alone h hold k kold hlocked klocked hlock
    record := hrecord

/-- A guard that has its lock, or finds it free, is apart from the others. -/
theorem LeaseWorld.Kept.apart
    (hw : w.Kept) (hg : g ∈ w.guards.rows) (hsame : Guard.Same (w.free g) g g')
    (hlocked : g'.locked = true) (hh : h ∈ w.guards.rows) (hne : h.id ≠ g.id)
    (htaken : h.locked = true) :
  h.lock ≠ g'.lock
  := by
  rcases hsame.locked hlocked with ⟨hold, hlock | hopening⟩ | ⟨hfree, hlock, _⟩
  · intro he
    have heq := hw.alone h hh g hg htaken hold (he.trans hlock)
    exact hne (congrArg Guard.id heq)
  · have hno := hw.opening g hg hopening
    rw [hold] at hno
    cases hno
  · rw [hlock]
    exact free_eq_true.mp hfree h hh hne htaken

/-- The records stay files that exist. -/
theorem Guard.Writes.record_lt
    (h : g.Writes files files') (hkept : g.Kept files)
    (hrecord : ∀ d n, files.recordName d = some n → n < files.fresh) :
  ∀ d n, files'.recordName d = some n → n < files'.fresh
  := by
  cases h with
  | nothing | overwrite => exact hrecord
  | directory _ | lock _ _ | temporary _ _ =>
      intro d n hn
      exact Nat.lt_succ_of_lt (hrecord d n hn)
  | record job temporary hphase =>
      intro d n hn
      dsimp only at hn
      by_cases hd : d = g.directory
      · rw [hd, Function.update_self] at hn
        cases hn
        exact hkept.file temporary (by rw [hphase]; rfl)
      · rw [Function.update_of_ne hd] at hn
        exact hrecord d n hn
  | remove file hphase hname =>
      intro d n hn
      dsimp only at hn
      by_cases hd : d = g.directory
      · rw [hd, Function.update_self] at hn
        cases hn
      · rw [Function.update_of_ne hd] at hn
        exact hrecord d n hn

/-- Names are replaced, or files made, while the guards do nothing. -/
theorem LeaseWorld.Kept.outside
    (hw : w.Kept) (hguards : ∀ g : Guard, g.Kept w.files → g.Kept files')
    (hrecord : ∀ d n, files'.recordName d = some n → n < files'.fresh) :
  LeaseWorld.Kept { w with files := files' }
  where
    guards g hg := hguards g (hw.guards g hg)
    opening := hw.opening
    alone := hw.alone
    record := hrecord

/-- A directory or a lock file is replaced: what a guard has checked counts no more. -/
theorem Guard.Kept.replaced
    (h : g.Kept files) (hcount : files'.replaced = files.replaced + 1)
    (hfresh : files'.fresh = files.fresh) (hcontent : files'.content = files.content) :
  g.Kept files'
  where
    locked := h.locked
    directory _ hseen := by
      have hle := h.seen
      omega
    lock _ hseen := by
      have hle := h.seen
      omega
    seen := by
      have hle := h.seen
      omega
    file := by
      rw [hfresh]
      exact h.file
    owned := by
      rw [hcontent]
      exact h.owned

/-- Several guards change, but not what they have locked. -/
theorem LeaseWorld.Kept.map
    (hw : w.Kept) {f : Guard → Guard} (hf : ∀ g, (f g).id = g.id)
    (hkept : ∀ g : Guard, g.Kept w.files → (f g).Kept w.files)
    (hopening : ∀ g, (f g).phase.opening = true → g.phase.opening = true)
    (hlocked : ∀ g, (f g).locked = true → g.locked = true) (hlock : ∀ g, (f g).lock = g.lock) :
  LeaseWorld.Kept { w with guards := w.guards.map f hf }
  := by
  have hmem : ∀ {h}, h ∈ (w.guards.map f hf).rows → ∃ g ∈ w.guards.rows, f g = h :=
    Table.mem_map.mp
  refine ⟨?_, ?_, ?_, hw.record⟩
  · intro h hh
    obtain ⟨g, hg, rfl⟩ := hmem hh
    exact hkept g (hw.guards g hg)
  · intro h hh hphase
    obtain ⟨g, hg, rfl⟩ := hmem hh
    have hno := hw.opening g hg (hopening g hphase)
    rw [Bool.eq_false_iff]
    intro hyes
    rw [hlocked g hyes] at hno
    cases hno
  · intro h hh k hk htaken ktaken he
    obtain ⟨g, hg, rfl⟩ := hmem hh
    obtain ⟨i, hi, rfl⟩ := hmem hk
    rw [hlock g, hlock i] at he
    rw [hw.alone g hg i hi (hlocked g htaken) (hlocked i ktaken) he]

/-- One guard changes, but not what it has locked. -/
theorem LeaseWorld.Kept.put
    (hw : w.Kept) (hg : g ∈ w.guards.rows) (hid : g'.id = g.id) (hkept : g'.Kept w.files)
    (hopening : g'.phase.opening = true → g.phase.opening = true)
    (hlocked : g'.locked = true → g.locked = true) (hlock : g'.lock = g.lock) :
  (w.put g').Kept
  := by
  apply hw.replace hid (.refl w.files) hkept
  · intro hphase
    have hno := hw.opening g hg (hopening hphase)
    rw [Bool.eq_false_iff]
    intro hyes
    rw [hlocked hyes] at hno
    cases hno
  · intro hyes h hh hne htaken he
    rw [hlock] at he
    exact hne (congrArg Guard.id (hw.alone h hh g hg htaken (hlocked hyes) he))
  · exact hw.record

/-- Every step keeps the invariant. -/
theorem LeaseWorld.kept_step {op : LeaseOp} (hw : w.Kept) (h : w.step op = some w') :
  w'.Kept
  := by
  cases op with
  | acquire id process holder now =>
      obtain ⟨guards, hguards, rfl⟩ := Option.map_eq_some_iff.mp h
      obtain ⟨hnew, hrows⟩ := Table.insert?_eq_some.mp hguards
      have hmem : ∀ {g}, g ∈ guards.rows → g = .begin id process holder now ∨ g ∈ w.guards.rows := by
        intro g hg
        rw [hrows] at hg
        exact List.mem_cons.mp hg
      refine ⟨?_, ?_, ?_, hw.record⟩
      · intro g hg
        rcases hmem hg with rfl | hg
        · exact ⟨nofun, nofun, nofun, Nat.zero_le _, nofun, nofun⟩
        · exact hw.guards g hg
      · intro g hg
        rcases hmem hg with rfl | hg
        · exact fun _ => rfl
        · exact hw.opening g hg
      · intro g hg k hk glocked klocked
        rcases hmem hg with rfl | hg
        · cases glocked
        · rcases hmem hk with rfl | hk
          · cases klocked
          · exact hw.alone g hg k hk glocked klocked
  | renew id now =>
      obtain ⟨g, hfind, hg⟩ := Option.bind_eq_some_iff.mp h
      have hmem := (Table.find?_eq_some.mp hfind).1
      split_ifs at hg with hlive
      · cases hg
        have hholding : g.phase.holding = true := by rw [hlive]; rfl
        refine hw.put hmem rfl ?_ nofun (fun h => h) rfl
        have hplain : Guard.Kept _ { g with phase := .checkDirectory (.renew now) } :=
          (hw.guards g hmem).plain (fun _ => hholding) rfl rfl rfl
        exact ⟨hplain.locked, nofun, nofun, hplain.seen, nofun, nofun⟩
  | drop id =>
      obtain ⟨g, hfind, hg⟩ := Option.bind_eq_some_iff.mp h
      have hmem := (Table.find?_eq_some.mp hfind).1
      split_ifs at hg with hlive
      · cases hg
        have hholding : g.phase.holding = true := by rw [hlive]; rfl
        refine hw.put hmem rfl ?_ nofun (fun h => h) rfl
        exact (hw.guards g hmem).plain (fun _ => hholding) rfl rfl rfl
  | advance id ok =>
      obtain ⟨g, hfind, hg⟩ := Option.bind_eq_some_iff.mp h
      obtain ⟨⟨files', g'⟩, hgo, rfl⟩ := Option.map_eq_some_iff.mp hg
      have hmem := (Table.find?_eq_some.mp hfind).1
      have hkept := hw.guards g hmem
      have hwrites := Guard.go_writes hgo
      have hsame := Guard.go_same hgo
      apply hw.replace hsame.id hwrites.frame (hkept.go hw.record hgo)
      · intro hphase
        obtain ⟨hopening, hlocked⟩ := hsame.opening hphase
        exact hlocked.trans (hw.opening g hmem hopening)
      · intro hlocked h hh hne htaken
        exact hw.apart hmem hsame hlocked hh hne htaken
      · exact hwrites.record_lt hkept hw.record
  | crash process =>
      cases h
      apply hw.map
      · intro g hg
        split
        · exact ⟨nofun, nofun, nofun, hg.seen, nofun, nofun⟩
        · exact hg
      · intro g
        split
        · exact nofun
        · exact fun h => h
      · intro g
        split
        · intro h
          exact (Bool.and_eq_true _ _ ▸ h : g.locked = true ∧ _).1
        · exact fun h => h
      · intro g
        split <;> rfl
  | inherit id =>
      obtain ⟨g, hfind, hg⟩ := Option.bind_eq_some_iff.mp h
      have hmem := (Table.find?_eq_some.mp hfind).1
      have hkept := hw.guards g hmem
      split_ifs at hg
      · cases hg
        refine hw.put hmem rfl ?_ (fun h => h) (fun h => h) rfl
        exact ⟨hkept.locked, hkept.directory, hkept.lock, hkept.seen, hkept.file, hkept.owned⟩
  | childExit id =>
      obtain ⟨g, hfind, hg⟩ := Option.bind_eq_some_iff.mp h
      have hmem := (Table.find?_eq_some.mp hfind).1
      have hkept := hw.guards g hmem
      split_ifs at hg
      · cases hg
        refine hw.put hmem rfl ?_ (fun h => h) ?_ rfl
        · refine ⟨?_, hkept.directory, hkept.lock, hkept.seen, hkept.file, hkept.owned⟩
          intro hholding
          have hopen : g.phase ≠ .closed := by
            intro hclosed
            have hphase : g.phase.holding = true := hholding
            rw [hclosed] at hphase
            cases hphase
          rw [Guard.childExit, hkept.locked hholding, decide_eq_false hopen]
          rfl
        · intro h
          rw [Guard.childExit, Bool.and_eq_true] at h
          exact h.1
  | create content =>
      cases h
      apply hw.outside
      · intro g hg
        apply hg.frame
        refine ⟨fun _ h => h, fun _ _ h => h, rfl, Nat.le_succ _, fun n hn => ?_⟩
        left
        exact Function.update_of_ne (Nat.ne_of_lt hn) _ _
      · intro d n hn
        exact Nat.lt_succ_of_lt (hw.record d n hn)
  | setVisible directory =>
      rw [step] at h
      split_ifs at h
      · cases h
        exact hw.outside (fun g hg => hg.replaced rfl rfl rfl) hw.record
  | setLock directory file =>
      rw [step] at h
      split_ifs at h
      · cases h
        exact hw.outside (fun g hg => hg.replaced rfl rfl rfl) hw.record
  | setRecord directory file =>
      rw [step] at h
      split_ifs at h with hfile
      · cases h
        apply hw.outside
        · intro g hg
          exact hg.frame ⟨fun _ h => h, fun _ _ h => h, rfl, Nat.le_refl _, fun _ _ => .inl rfl⟩
        · intro d n hn
          dsimp only at hn
          by_cases hd : d = directory
          · rw [hd, Function.update_self] at hn
            rw [hn, Option.all_some, decide_eq_true_eq] at hfile
            exact hfile
          · rw [Function.update_of_ne hd] at hn
            exact hw.record d n hn

/-- What holds of a guard beside: what it has opened exists, and it has not put its record in
place before the step that does so. -/
structure Guard.Sound (files : LeaseFiles) (g : Guard) : Prop where
  directory : g.phase = .openLock → g.directory < files.fresh
  lock : g.locked = true ∨ g.phase = .flock → g.lock < files.fresh
  before : g.phase.before = true → g.placed = false

/-- The names of the control directory and of lock files refer to what exists. -/
structure LeaseFiles.Sound (files : LeaseFiles) : Prop where
  visible : ∀ d, files.visible = some d → d < files.fresh
  lockName : ∀ d n, files.lockName d = some n → d < files.fresh ∧ n < files.fresh

/-- What exists goes on to exist. -/
theorem Guard.Sound.mono (h : g.Sound files) (hfresh : files.fresh ≤ files'.fresh) :
  g.Sound files'
  where
    directory hphase := Nat.lt_of_lt_of_le (h.directory hphase) hfresh
    lock hlock := Nat.lt_of_lt_of_le (h.lock hlock) hfresh
    before := h.before

theorem Guard.Writes.sound
    (h : g.Writes files files') (hsound : files.Sound) (hg : g.Sound files) :
  files'.Sound
  := by
  cases h with
  | nothing | overwrite | record _ _ _ | remove _ _ _ => exact ⟨hsound.visible, hsound.lockName⟩
  | directory hnone =>
      constructor
      · rintro _ ⟨⟩
        exact Nat.lt_succ_self _
      · intro d n hn
        obtain ⟨hd, hn⟩ := hsound.lockName d n hn
        exact ⟨Nat.lt_succ_of_lt hd, Nat.lt_succ_of_lt hn⟩
  | lock hphase hnone =>
      constructor
      · intro d hd
        exact Nat.lt_succ_of_lt (hsound.visible d hd)
      · intro d n hn
        dsimp only at hn
        by_cases hd : d = g.directory
        · rw [hd, Function.update_self] at hn
          cases hn
          rw [hd]
          exact ⟨Nat.lt_succ_of_lt (hg.directory hphase), Nat.lt_succ_self _⟩
        · rw [Function.update_of_ne hd] at hn
          obtain ⟨hd, hn⟩ := hsound.lockName d n hn
          exact ⟨Nat.lt_succ_of_lt hd, Nat.lt_succ_of_lt hn⟩
  | temporary _ _ =>
      constructor
      · intro d hd
        exact Nat.lt_succ_of_lt (hsound.visible d hd)
      · intro d n hn
        obtain ⟨hd, hn⟩ := hsound.lockName d n hn
        exact ⟨Nat.lt_succ_of_lt hd, Nat.lt_succ_of_lt hn⟩

/-- A step of a guard that has what exists. -/
theorem Guard.Sound.go
    (h : g.Sound files) (hopening : g.phase.opening = true → g.locked = false)
    (hfiles : files'.Sound) (hgo : g.go files free ok = some (files', g')) :
  g'.Sound files'
  := by
  have hsame := go_same hgo
  have hopens := go_opens hgo
  have hfresh := (go_writes hgo).frame.fresh
  refine ⟨fun hphase => hfiles.visible _ (hopens.1 hphase), ?_, ?_⟩
  · rintro (hlocked | hphase)
    · rcases hsame.locked hlocked with ⟨hold, hlock | hphase⟩ | ⟨_, hlock, hphase⟩
      · rw [hlock]
        exact Nat.lt_of_lt_of_le (h.lock (.inl hold)) hfresh
      · rw [hopening hphase] at hold
        cases hold
      · rw [hlock]
        exact Nat.lt_of_lt_of_le (h.lock (.inr hphase)) hfresh
    · exact (hfiles.lockName _ _ (hopens.2 hphase)).2
  · intro hbefore
    obtain ⟨hold, hplaced⟩ := hsame.before hbefore
    exact hplaced.trans (h.before hold)

/-- What holds of all names and guards beside. -/
structure LeaseWorld.Sound (w : LeaseWorld) : Prop where
  files : w.files.Sound
  guards : ∀ g ∈ w.guards.rows, g.Sound w.files

/-- One guard changes. -/
theorem LeaseWorld.Sound.put (hw : w.Sound) (hg : g'.Sound w.files) : (w.put g').Sound where
  files := hw.files
  guards h hh := by
    rcases Table.mem_upsert.mp hh with rfl | ⟨hh, _⟩
    · exact hg
    · exact hw.guards h hh

/-- Every step keeps what holds beside. -/
theorem LeaseWorld.sound_step
    {op : LeaseOp} (hkept : w.Kept) (hw : w.Sound) (h : w.step op = some w') :
  w'.Sound
  := by
  cases op with
  | acquire id process holder now =>
      obtain ⟨guards, hguards, rfl⟩ := Option.map_eq_some_iff.mp h
      obtain ⟨hnew, hrows⟩ := Table.insert?_eq_some.mp hguards
      refine ⟨hw.files, fun g hg => ?_⟩
      dsimp only at hg
      rw [hrows] at hg
      rcases List.mem_cons.mp hg with rfl | hg
      · exact ⟨(fun he => by cases he), (fun he => by rcases he with he | he <;> cases he),
          fun _ => rfl⟩
      · exact hw.guards g hg
  | renew id now =>
      obtain ⟨g, hfind, hg⟩ := Option.bind_eq_some_iff.mp h
      have hsound := hw.guards g (Table.find?_eq_some.mp hfind).1
      split_ifs at hg with hlive
      · cases hg
        refine hw.put ⟨(fun he => by cases he), ?_, fun _ => rfl⟩
        rintro (hlocked | hphase)
        · exact hsound.lock (.inl hlocked)
        · cases hphase
  | drop id =>
      obtain ⟨g, hfind, hg⟩ := Option.bind_eq_some_iff.mp h
      have hsound := hw.guards g (Table.find?_eq_some.mp hfind).1
      split_ifs at hg with hlive
      · cases hg
        refine hw.put ⟨(fun he => by cases he), ?_, (fun he => by cases he)⟩
        rintro (hlocked | hphase)
        · exact hsound.lock (.inl hlocked)
        · cases hphase
  | advance id ok =>
      obtain ⟨g, hfind, hg⟩ := Option.bind_eq_some_iff.mp h
      obtain ⟨⟨files', g'⟩, hgo, rfl⟩ := Option.map_eq_some_iff.mp hg
      have hmem := (Table.find?_eq_some.mp hfind).1
      have hsound := hw.guards g hmem
      have hwrites := Guard.go_writes hgo
      have hfiles := hwrites.sound hw.files hsound
      refine ⟨hfiles, fun h hh => ?_⟩
      rcases Table.mem_upsert.mp hh with rfl | ⟨hh, _⟩
      · exact hsound.go (hkept.opening g hmem) hfiles hgo
      · exact (hw.guards h hh).mono hwrites.frame.fresh
  | crash process =>
      cases h
      refine ⟨hw.files, fun h hh => ?_⟩
      simp only [Table.mem_map] at hh
      obtain ⟨g, hg, rfl⟩ := hh
      have hsound := hw.guards g hg
      split
      · refine ⟨(fun he => by cases he), ?_, (fun he => by cases he)⟩
        rintro (hlocked | hphase)
        · rw [Guard.crash, Bool.and_eq_true] at hlocked
          exact hsound.lock (.inl hlocked.1)
        · cases hphase
      · exact hsound
  | inherit id =>
      obtain ⟨g, hfind, hg⟩ := Option.bind_eq_some_iff.mp h
      have hsound := hw.guards g (Table.find?_eq_some.mp hfind).1
      split_ifs at hg
      · cases hg
        exact hw.put ⟨hsound.directory, hsound.lock, hsound.before⟩
  | childExit id =>
      obtain ⟨g, hfind, hg⟩ := Option.bind_eq_some_iff.mp h
      have hsound := hw.guards g (Table.find?_eq_some.mp hfind).1
      split_ifs at hg
      · cases hg
        refine hw.put ⟨hsound.directory, ?_, hsound.before⟩
        rintro (hlocked | hphase)
        · rw [Guard.childExit, Bool.and_eq_true] at hlocked
          exact hsound.lock (.inl hlocked.1)
        · exact hsound.lock (.inr hphase)
  | create content =>
      cases h
      refine ⟨⟨?_, ?_⟩, fun g hg => (hw.guards g hg).mono (Nat.le_succ _)⟩
      · intro d hd
        exact Nat.lt_succ_of_lt (hw.files.visible d hd)
      · intro d n hn
        obtain ⟨hd, hn⟩ := hw.files.lockName d n hn
        exact ⟨Nat.lt_succ_of_lt hd, Nat.lt_succ_of_lt hn⟩
  | setVisible directory =>
      rw [step] at h
      split_ifs at h with hdirectory
      · cases h
        refine ⟨⟨?_, hw.files.lockName⟩, fun g hg => (hw.guards g hg).mono (Nat.le_refl _)⟩
        intro d hd
        rw [show directory = some d from hd, Option.all_some, decide_eq_true_eq] at hdirectory
        exact hdirectory
  | setLock directory file =>
      rw [step] at h
      split_ifs at h with hbound
      · cases h
        refine ⟨⟨hw.files.visible, ?_⟩, fun g hg => (hw.guards g hg).mono (Nat.le_refl _)⟩
        intro d n hn
        dsimp only at hn
        by_cases hd : d = directory
        · rw [hd, Function.update_self] at hn
          rw [hn, Option.all_some, decide_eq_true_eq] at hbound
          rw [hd]
          exact hbound
        · rw [Function.update_of_ne hd] at hn
          exact hw.files.lockName d n hn
  | setRecord directory file =>
      rw [step] at h
      split_ifs at h
      · cases h
        exact ⟨⟨hw.files.visible, hw.files.lockName⟩,
          fun g hg => (hw.guards g hg).mono (Nat.le_refl _)⟩

end Votport.Storage
