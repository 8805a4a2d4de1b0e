import Votport.Storage.OneWriter

/-!
# Runs of the lease of a storage root

What holds in every run of guards and of what happens to the names: one guard at most can renew,
what a guard does to records, and when the root can be acquired.
-/

namespace Votport.Storage

variable {files files' : LeaseFiles} {g g' h : Guard} {ok : Bool} {w w' : LeaseWorld}

theorem LeaseWorld.kept_run
    {w₀ : LeaseWorld} {ops : List LeaseOp} (h₀ : w₀.Begins)
    (h : Runs.run LeaseWorld.step w₀ ops = some w) :
  w.Kept ∧ w.Sound
  := by
  have hsound : w₀.Sound := by
    refine ⟨⟨h₀.visible, h₀.lockName⟩, fun g hg => ?_⟩
    rw [h₀.guards] at hg
    cases hg
  exact Runs.run_invariant (I := fun w => w.Kept ∧ w.Sound)
    (fun _ _ _ hw h => ⟨kept_step hw.1 h, sound_step hw.1 hw.2 h⟩) ⟨h₀.kept, hsound⟩ h

/-! ### A guard that is not interrupted -/

/-- The files and one of the guards as given, the others as they are. -/
def LeaseWorld.at (w : LeaseWorld) (files : LeaseFiles) (g : Guard) : LeaseWorld where
  files := files
  guards := w.guards.upsert g

theorem LeaseWorld.find?_at : (w.at files g).guards.find? g.id = some g :=
  Table.find?_key (Table.mem_upsert.mpr (.inl rfl))

/-- Whether a lock is free does not depend on the guard itself. -/
theorem LeaseWorld.free_at : (w.at files g).free g = w.free g := by
  rw [Bool.eq_iff_iff, free_eq_true, free_eq_true]
  constructor
  · intro hfree h hh hne
    exact hfree h (Table.mem_upsert.mpr (.inr ⟨hh, hne⟩)) hne
  · intro hfree h hh hne
    rcases Table.mem_upsert.mp hh with rfl | ⟨hh, _⟩
    · exact absurd rfl hne
    · exact hfree h hh hne

/-- A guard does one step. -/
theorem LeaseWorld.step_at :
  (w.at files g).step (.advance g.id ok)
    = (g.go files (w.free g) ok).map fun result => w.at result.1 result.2
  := by
  rw [step, find?_at, Option.bind_some, free_at]
  cases hgo : g.go (w.at files g).files (w.free g) ok with
  | none =>
      rw [show g.go files (w.free g) ok = none from hgo]
      rfl
  | some result =>
      rw [show g.go files (w.free g) ok = some result from hgo, Option.map_some, Option.map_some]
      have hid : result.2.id = g.id := (Guard.go_same hgo).id
      have hupsert := Table.upsert_upsert w.guards hid
      rw [LeaseWorld.at, LeaseWorld.at, ← hupsert]

/-- A run that goes on with a step of a guard. -/
theorem LeaseWorld.run_at {ops : List LeaseOp} :
  Runs.run LeaseWorld.step (w.at files g) (.advance g.id ok :: ops) = some w'
  ↔ ∃ files' g', g.go files (w.free g) ok = some (files', g')
    ∧ Runs.run LeaseWorld.step (w.at files' g') ops = some w'
  := by
  rw [Runs.run_cons, step_at]
  constructor
  · rintro ⟨u, hu, hrun⟩
    obtain ⟨⟨files', g'⟩, hgo, rfl⟩ := Option.map_eq_some_iff.mp hu
    exact ⟨files', g', hgo, hrun⟩
  · rintro ⟨files', g', hgo, hrun⟩
    exact ⟨w.at files' g', by rw [hgo]; rfl, hrun⟩

/-! ### Renewing -/

/-- A guard that is told to renew now, and is not interrupted, succeeds. -/
def LeaseWorld.Renews (w : LeaseWorld) (id : Nat) : Prop :=
  ∃ now w' g,
    Runs.run LeaseWorld.step w (.renew id now :: List.replicate 8 (.advance id true)) = some w'
    ∧ w'.guards.find? id = some g ∧ g.phase = .live ∧ g.record.renewedAt = now

/-- A guard that is live stays where it is. -/
theorem LeaseWorld.run_at_live {ops : List LeaseOp} (hlive : g.phase = .live) :
  Runs.run LeaseWorld.step (w.at files g) (.advance g.id ok :: ops) ≠ some w'
  := by
  intro hrun
  obtain ⟨files', g', hgo, _⟩ := run_at.mp hrun
  rw [Guard.go, hlive] at hgo
  cases hgo

/-- A guard that renews has its lock, and the names refer to what it has. -/
theorem LeaseWorld.Renews.valid {id : Nat} (h : w.Renews id) (hw : w.Kept) :
  ∃ g ∈ w.guards.rows, g.id = id ∧ g.locked = true ∧ w.files.visible = some g.directory
    ∧ w.files.lockName g.directory = some g.lock
  := by
  obtain ⟨now, w', _, hrun, _⟩ := h
  obtain ⟨w₁, hrenew, hrun⟩ := (Runs.run_cons LeaseWorld.step).mp hrun
  obtain ⟨g, hfind, hg⟩ := Option.bind_eq_some_iff.mp hrenew
  obtain ⟨hmem, rfl⟩ := Table.find?_eq_some.mp hfind
  split_ifs at hg with hlive
  cases hg
  have hlocked := (hw.guards g hmem).locked (by rw [hlive]; rfl)
  refine ⟨g, hmem, rfl, hlocked, ?_⟩
  obtain ⟨files₁, g₁, hgo, hrun⟩ := run_at.mp hrun
  rw [Guard.go] at hgo
  dsimp only at hgo
  split at hgo
  · next hdirectory =>
      cases hgo
      rw [Bool.and_eq_true, decide_eq_true_eq] at hdirectory
      refine ⟨hdirectory.2, ?_⟩
      obtain ⟨files₂, g₂, hgo, hrun⟩ := run_at.mp hrun
      rw [Guard.go] at hgo
      dsimp only at hgo
      split at hgo
      · next hlock =>
          rw [Bool.and_eq_true, decide_eq_true_eq] at hlock
          exact hlock.2
      · cases hgo
        exact absurd hrun (run_at_live rfl)
  · cases hgo
    exact absurd hrun (run_at_live rfl)

/-- One guard at most can renew. -/
theorem LeaseWorld.Kept.renews_eq
    (hw : w.Kept) {id id' : Nat} (h : w.Renews id) (h' : w.Renews id') :
  id = id'
  := by
  obtain ⟨g, hg, rfl, glocked, gvisible, glock⟩ := h.valid hw
  obtain ⟨k, hk, rfl, klocked, kvisible, klock⟩ := h'.valid hw
  have hdirectory : g.directory = k.directory := Option.some.inj (gvisible.symm.trans kvisible)
  rw [hdirectory] at glock
  have hlock : g.lock = k.lock := Option.some.inj (glock.symm.trans klock)
  rw [hw.alone g hg k hk glocked klocked hlock]

/-! ### One step of a guard -/

/-- What a step of a guard does, as others see it. -/
structure Guard.StepKept (w w' : LeaseWorld) (ok : Bool) (g g' : Guard) : Prop where
  /-- No other guard can renew when a guard was acquired, unless a name was replaced since it
  checked its directory. -/
  acquired : g.phase = .syncParent .acquire → ok = true → g.seen = w.files.replaced →
    ∀ id, w'.Renews id → id = g.id
  /-- A job that is not at its last step has not put its record in place. -/
  before : g.phase.before = true → g.placed = false
  /-- The record in memory changes only when a job succeeds. -/
  memory : g'.record ≠ g.record → ok = true ∧
    ∃ job, g.phase = .syncParent job ∧ g'.phase = .live ∧ g'.record = g.next job
  /-- A record changes only where a job puts its own in place, and then syncs the directory, or
  where a guard removes its own. -/
  disk : ∀ d, w'.files.recordName d ≠ w.files.recordName d → d = g.directory
    ∧ ((∃ job file, g.phase = .replaceRecord job file ∧ g'.phase = .syncParent job
        ∧ g'.placed = true)
      ∨ ∃ file, g.phase = .removeOwned file ∧ w.files.recordName d = some file
        ∧ ∀ lease, w.files.content file = some lease → lease.holder = g.record.holder)

theorem LeaseWorld.Kept.step_kept
    (hw : w.Kept) (hsound : w.Sound) {id : Nat} (hfind : w.guards.find? id = some g)
    (h : w.step (.advance id ok) = some w') :
  ∃ g', w'.guards.find? id = some g' ∧ g.StepKept w w' ok g'
  := by
  obtain ⟨hmem, rfl⟩ := Table.find?_eq_some.mp hfind
  have hkept := hw.guards g hmem
  have hkept' := kept_step hw h
  rw [step, hfind, Option.bind_some] at h
  obtain ⟨⟨files', g'⟩, hgo, rfl⟩ := Option.map_eq_some_iff.mp h
  have hsame := Guard.go_same hgo
  refine ⟨g', ?_, ?_, (hsound.guards g hmem).before, ?_, ?_⟩
  · rw [← hsame.id]
    exact Table.find?_key (Table.mem_upsert.mpr (.inl rfl))
  · intro hphase hok hseen id hrenews
    obtain ⟨k, hk, rfl, klocked, kvisible, klock⟩ := hrenews.valid hkept'
    rw [Guard.go, hphase, hok] at hgo
    cases hgo
    have hdirectory := hkept.directory (by rw [hphase]; rfl) hseen
    have hlock := hkept.lock (by rw [hphase]; rfl) hseen
    have hlocked := hkept.locked (by rw [hphase]; rfl)
    rcases Table.mem_upsert.mp hk with rfl | ⟨hk, hne⟩
    · rfl
    · have he : k.directory = g.directory := Option.some.inj (kvisible.symm.trans hdirectory)
      rw [he] at klock
      have hinode : k.lock = g.lock := Option.some.inj (klock.symm.trans hlock)
      rw [hw.alone k hk g hmem klocked hlocked hinode]
  · intro hne
    rcases hsame.record with heq | ⟨job, hphase, hlive, hrecord⟩
    · exact absurd heq hne
    · refine ⟨?_, job, hphase, hlive, hrecord⟩
      cases ok with
      | true => rfl
      | false =>
          rw [Guard.go, hphase] at hgo
          cases hgo
          cases job <;> exact absurd rfl hne
  · intro d hd
    cases Guard.go_writes hgo with
    | nothing | directory _ | lock _ _ | overwrite | temporary _ _ => exact absurd rfl hd
    | record job file hphase =>
        have hdirectory : d = g.directory := by
          by_contra hne
          exact hd (Function.update_of_ne hne _ _)
        refine ⟨hdirectory, .inl ⟨job, file, hphase, ?_⟩⟩
        rw [Guard.go, hphase] at hgo
        dsimp only at hgo
        split at hgo
        · cases hgo
          exact ⟨rfl, rfl⟩
        · have hfiles := congrArg Prod.fst (Option.some.inj hgo)
          exact absurd (congrArg (fun f => LeaseFiles.recordName f d) hfiles.symm) hd
    | remove file hphase hname =>
        have hdirectory : d = g.directory := by
          by_contra hne
          exact hd (Function.update_of_ne hne _ _)
        refine ⟨hdirectory, .inr ⟨file, hphase, ?_, hkept.owned file hphase⟩⟩
        rw [hdirectory]
        exact hname

/-! ### Acquiring and dropping -/

/-- A guard that is acquired now, and is not interrupted, succeeds. -/
def LeaseWorld.Acquirable (w : LeaseWorld) : Prop :=
  ∀ id process holder now, w.guards.find? id = none →
    ∃ w' g, Runs.run LeaseWorld.step w
        (.acquire id process holder now :: List.replicate 10 (.advance id true)) = some w'
      ∧ w'.guards.find? id = some g ∧ g.phase = .live

/-- A guard that has taken its lock, of the file that the names refer to, is acquired. -/
theorem LeaseWorld.acquired_at
    (w : LeaseWorld) (files : LeaseFiles) (g : Guard)
    (hphase : g.phase = .checkDirectory .acquire) (hvisible : files.visible = some g.directory)
    (hlock : files.lockName g.directory = some g.lock) :
  ∃ w' g', Runs.run LeaseWorld.step (w.at files g) (List.replicate 7 (.advance g.id true)) = some w'
    ∧ w'.guards.find? g.id = some g' ∧ g'.phase = .live
  := by
  obtain ⟨id, process, directory, lock, locked, record, children, _, seen, placed⟩ := g
  cases hphase
  refine ⟨_, _, run_at.mpr ⟨files, ⟨id, process, directory, lock, locked, record, children,
    .checkLock .acquire, files.replaced, placed⟩, ?_, run_at.mpr ⟨files, ⟨id, process, directory,
    lock, locked, record, children, .writeLock .acquire, files.replaced, placed⟩, ?_,
    run_at.mpr ⟨_, _, rfl, run_at.mpr ⟨_, _, rfl, run_at.mpr ⟨_, _, rfl, run_at.mpr ⟨_, _, rfl,
    run_at.mpr ⟨_, _, rfl, rfl⟩⟩⟩⟩⟩⟩⟩,
    find?_at, rfl⟩
  · rw [Guard.go]
    dsimp only
    rw [hvisible, decide_eq_true rfl]
    rfl
  · rw [Guard.go]
    dsimp only
    rw [hlock, decide_eq_true rfl]
    rfl

/-- A guard that has opened a free lock file, which the names refer to, is acquired. -/
theorem LeaseWorld.flock_at
    (w : LeaseWorld) (files : LeaseFiles) (g : Guard)
    (hphase : g.phase = .flock) (hvisible : files.visible = some g.directory)
    (hlock : files.lockName g.directory = some g.lock) (hfree : w.free g = true) :
  ∃ w' g', Runs.run LeaseWorld.step (w.at files g) (List.replicate 8 (.advance g.id true)) = some w'
    ∧ w'.guards.find? g.id = some g' ∧ g'.phase = .live
  := by
  obtain ⟨w', g', hrun, hfind, hlive⟩ := acquired_at w files
    { g with locked := true, phase := .checkDirectory .acquire } rfl hvisible hlock
  refine ⟨w', g', run_at.mpr ⟨files, _, ?_, hrun⟩, hfind, hlive⟩
  rw [Guard.go, hphase]
  dsimp only
  rw [hfree]
  rfl

/-- A guard that has opened the control directory is acquired, when no other has the lock of a
lock file that is there. -/
theorem LeaseWorld.openLock_at
    (files : LeaseFiles) (g : Guard) (hw : w.Sound) (hphase : g.phase = .openLock)
    (hvisible : files.visible = some g.directory)
    (hfresh : w.files.fresh ≤ files.fresh)
    (hfree : ∀ n, files.lockName g.directory = some n →
      ∀ h ∈ w.guards.rows, h.locked = true → h.lock ≠ n) :
  ∃ w' g', Runs.run LeaseWorld.step (w.at files g) (List.replicate 9 (.advance g.id true)) = some w'
    ∧ w'.guards.find? g.id = some g' ∧ g'.phase = .live
  := by
  cases hname : files.lockName g.directory with
  | some n =>
      obtain ⟨w', g', hrun, hfind, hlive⟩ := flock_at w files
        { g with lock := n, phase := .flock } rfl hvisible hname
        (free_eq_true.mpr fun h hh _ hlocked => hfree n hname h hh hlocked)
      refine ⟨w', g', run_at.mpr ⟨files, _, ?_, hrun⟩, hfind, hlive⟩
      rw [Guard.go, hphase]
      dsimp only
      rw [if_pos rfl, hname]
  | none =>
      obtain ⟨w', g', hrun, hfind, hlive⟩ := flock_at w
        { files with
          lockName := Function.update files.lockName g.directory (some files.fresh)
          fresh := files.fresh + 1 }
        { g with lock := files.fresh, phase := .flock } rfl hvisible
        (Function.update_self _ _ _)
        (free_eq_true.mpr fun h hh _ hlocked => by
          have hlt := (hw.guards h hh).lock (.inl hlocked)
          exact Nat.ne_of_lt (Nat.lt_of_lt_of_le hlt hfresh))
      refine ⟨w', g', run_at.mpr ⟨_, _, ?_, hrun⟩, hfind, hlive⟩
      rw [Guard.go, hphase]
      dsimp only
      rw [if_pos rfl, hname]

/-- A root can be acquired when no guard has the lock of its lock file. -/
theorem LeaseWorld.Sound.acquirable
    (hw : w.Sound) (hfree : ∀ g ∈ w.guards.rows, g.locked = true →
      ∀ d, w.files.visible = some d → w.files.lockName d ≠ some g.lock) :
  w.Acquirable
  := by
  intro id process holder now hnew
  suffices hrun : ∃ w' g, Runs.run LeaseWorld.step (w.at w.files (.begin id process holder now))
      (List.replicate 10 (.advance id true)) = some w'
      ∧ w'.guards.find? id = some g ∧ g.phase = .live by
    obtain ⟨w', g, hrun, hfind, hlive⟩ := hrun
    refine ⟨w', g, (Runs.run_cons LeaseWorld.step).mpr ⟨_, ?_, hrun⟩, hfind, hlive⟩
    rw [step, Table.insert?_of_absent hnew]
    rfl
  cases hname : w.files.visible with
  | some d =>
      obtain ⟨w', g, hrun, hfind, hlive⟩ := openLock_at w.files
        { Guard.begin id process holder now with directory := d, phase := .openLock }
        hw rfl hname (Nat.le_refl _) (fun n hn h hh hlocked he => by
          apply hfree h hh hlocked d hname
          rw [he]
          exact hn)
      refine ⟨w', g, run_at.mpr ⟨_, _, ?_, hrun⟩, hfind, hlive⟩
      rw [Guard.go, Guard.begin]
      dsimp only
      rw [if_pos rfl, hname]
  | none =>
      obtain ⟨w', g, hrun, hfind, hlive⟩ := openLock_at
        { w.files with visible := some w.files.fresh, fresh := w.files.fresh + 1 }
        { Guard.begin id process holder now with
          directory := w.files.fresh, phase := .openLock }
        hw rfl rfl (Nat.le_succ _)
        (fun n hn => absurd (hw.files.lockName _ n hn).1 (Nat.lt_irrefl _))
      refine ⟨w', g, run_at.mpr ⟨_, _, ?_, hrun⟩, hfind, hlive⟩
      rw [Guard.go, Guard.begin]
      dsimp only
      rw [if_pos rfl, hname]

/-- When the children of a closed guard have ended, no one has its lock. -/
theorem LeaseWorld.childExits_at {n : Nat} (hchildren : g.children = n) (hclosed : g.phase = .closed)
    (hlast : n = 0 → g.locked = false) :
  ∃ g', Runs.run LeaseWorld.step (w.at files g) (List.replicate n (.childExit g.id))
      = some (w.at files g')
    ∧ g'.id = g.id ∧ g'.locked = false
  := by
  induction n generalizing g with
  | zero => exact ⟨g, rfl, rfl, hlast rfl⟩
  | succ n ih =>
      have hexit : (w.at files g).step (.childExit g.id) = some (w.at files g.childExit) := by
        have hupsert := Table.upsert_upsert w.guards (show g.childExit.id = g.id from rfl)
        rw [step, find?_at, Option.bind_some, if_neg (by omega), put, LeaseWorld.at, hupsert]
        rfl
      have hunlocked : n = 0 → g.childExit.locked = false := by
        intro hn
        rw [Guard.childExit, decide_eq_true hclosed, decide_eq_true (show g.children ≤ 1 by omega)]
        exact Bool.and_false _
      obtain ⟨g', hrun, hid, hlocked⟩ :=
        ih (show g.childExit.children = n from Nat.sub_eq_of_eq_add hchildren) hclosed hunlocked
      exact ⟨g', (Runs.run_cons LeaseWorld.step).mpr ⟨_, hexit, hrun⟩, hid, hlocked⟩

/-- The root can be acquired when the guard that has its lock gives it up. -/
theorem LeaseWorld.Kept.acquirable_at
    (hw : w.Kept) {g₀ : Guard} (hmem : g₀ ∈ w.guards.rows) (hlocked : g₀.locked = true)
    (hvisible : w.files.visible = some g₀.directory)
    (hlock : w.files.lockName g₀.directory = some g₀.lock)
    (hid : g.id = g₀.id) (hgiven : g.locked = false) (hsound : (w.at w.files g).Sound) :
  (w.at w.files g).Acquirable
  := by
  apply hsound.acquirable
  intro k hk klocked d hd kname
  rcases Table.mem_upsert.mp hk with rfl | ⟨hk, hne⟩
  · rw [hgiven] at klocked
    cases klocked
  · have hdirectory : g₀.directory = d := Option.some.inj (hvisible.symm.trans hd)
    rw [hdirectory] at hlock
    have he : k.lock = g₀.lock := Option.some.inj (kname.symm.trans hlock)
    apply hne
    rw [hw.alone k hk g₀ hmem klocked hlocked he]
    exact hid.symm

/-- A guard whose directory and lock file are in place gives up its lock: the root can be acquired,
also while children have the lock file open. -/
theorem LeaseWorld.Kept.unlock_acquirable
    (hw : w.Kept) (hsound : w.Sound) {id : Nat} (hfind : w.guards.find? id = some g)
    (hphase : g.phase = .unlock) (hvisible : w.files.visible = some g.directory)
    (hlock : w.files.lockName g.directory = some g.lock)
    (h : w.step (.advance id true) = some w') :
  w'.Acquirable
  := by
  obtain ⟨hmem, rfl⟩ := Table.find?_eq_some.mp hfind
  have hlocked := (hw.guards g hmem).locked (by rw [hphase]; rfl)
  have hsound' := sound_step hw hsound h
  rw [step, hfind, Option.bind_some, Guard.go, hphase] at h
  cases h
  refine hw.acquirable_at hmem hlocked hvisible hlock rfl ?_ hsound'
  simp

/-- Where giving up the lock fails, the root can be acquired when the children that have the lock
file open have ended. -/
theorem LeaseWorld.Kept.unlock_fails
    (hw : w.Kept) (hsound : w.Sound) {id : Nat} (hfind : w.guards.find? id = some g)
    (hphase : g.phase = .unlock) (hvisible : w.files.visible = some g.directory)
    (hlock : w.files.lockName g.directory = some g.lock)
    (h : w.step (.advance id false) = some w') :
  ∃ w'', Runs.run LeaseWorld.step w' (List.replicate g.children (.childExit id)) = some w''
    ∧ w''.Acquirable
  := by
  obtain ⟨hmem, rfl⟩ := Table.find?_eq_some.mp hfind
  have hlocked := (hw.guards g hmem).locked (by rw [hphase]; rfl)
  have hw' := kept_step hw h
  have hsound' := sound_step hw hsound h
  rw [step, hfind, Option.bind_some, Guard.go, hphase] at h
  cases h
  obtain ⟨g', hrun, hid, hgiven⟩ := childExits_at (w := w)
    (g := { g with locked := g.locked && !false && decide (g.children ≠ 0), phase := .closed })
    rfl rfl (fun hnone => by
      have hchildren : g.children = 0 := hnone
      simp [hchildren])
  have hsound'' : (w.at w.files g').Sound :=
    (Runs.run_invariant (I := fun w => w.Kept ∧ w.Sound)
      (fun _ _ _ hw h => ⟨kept_step hw.1 h, sound_step hw.1 hw.2 h⟩) ⟨hw', hsound'⟩ hrun).2
  exact ⟨_, hrun, hw.acquirable_at hmem hlocked hvisible hlock hid hgiven hsound''⟩

/-- A guard comes to give up its lock: it is the same guard, and the names of the directory and of
the lock files refer to the same. -/
structure Guard.Unlocks (files : LeaseFiles) (g : Guard) (files' : LeaseFiles) (g' : Guard) :
    Prop where
  id : g'.id = g.id
  phase : g'.phase = .unlock
  children : g'.children = g.children
  directory : g'.directory = g.directory
  lock : g'.lock = g.lock
  visible : files'.visible = files.visible
  lockName : files'.lockName = files.lockName

/-- The record is removed, or not. -/
theorem LeaseWorld.removeOwned_unlocks
    (w : LeaseWorld) (files : LeaseFiles) (g : Guard) {file : Nat}
    (hphase : g.phase = .removeOwned file) (oks : Nat → Bool) (k : Nat) :
  ∃ n files' g', Runs.run LeaseWorld.step (w.at files g)
      ((List.range' k n).map fun j => .advance g.id (oks j)) = some (w.at files' g')
    ∧ g.Unlocks files files' g'
  := by
  by_cases hok : (oks k && decide (files.recordName g.directory = some file)) = true
  · have hgo : g.go files (w.free g) (oks k) = some ({ files with
        recordName := Function.update files.recordName g.directory none },
        { g with phase := .unlock }) := by
      rw [Guard.go, hphase]
      dsimp only
      rw [if_pos hok]
    exact ⟨1, _, _, run_at.mpr ⟨_, _, hgo, rfl⟩, ⟨rfl, rfl, rfl, rfl, rfl, rfl, rfl⟩⟩
  · have hgo : g.go files (w.free g) (oks k) = some (files, { g with phase := .unlock }) := by
      rw [Guard.go, hphase]
      dsimp only
      rw [if_neg hok]
    exact ⟨1, _, _, run_at.mpr ⟨_, _, hgo, rfl⟩, ⟨rfl, rfl, rfl, rfl, rfl, rfl, rfl⟩⟩

/-- The record is read, and removed when it is the guard's. -/
theorem LeaseWorld.readOwned_unlocks
    (w : LeaseWorld) (files : LeaseFiles) (g : Guard) {file : Nat}
    (hphase : g.phase = .readOwned file) (oks : Nat → Bool) (k : Nat) :
  ∃ n files' g', Runs.run LeaseWorld.step (w.at files g)
      ((List.range' k n).map fun j => .advance g.id (oks j)) = some (w.at files' g')
    ∧ g.Unlocks files files' g'
  := by
  by_cases hok : (oks k && files.names (some file) g.record.holder) = true
  · obtain ⟨n, files', g', hrun, hunlocks⟩ := removeOwned_unlocks w files
      { g with phase := .removeOwned file } rfl oks (k + 1)
    refine ⟨n + 1, files', g', ?_, ⟨hunlocks.id, hunlocks.phase, hunlocks.children,
      hunlocks.directory, hunlocks.lock, hunlocks.visible, hunlocks.lockName⟩⟩
    rw [List.range'_succ, List.map_cons]
    refine run_at.mpr ⟨_, _, ?_, hrun⟩
    rw [Guard.go, hphase]
    dsimp only
    rw [if_pos hok]
  · have hgo : g.go files (w.free g) (oks k) = some (files, { g with phase := .unlock }) := by
      rw [Guard.go, hphase]
      dsimp only
      rw [if_neg hok]
    exact ⟨1, _, _, run_at.mpr ⟨_, _, hgo, rfl⟩, ⟨rfl, rfl, rfl, rfl, rfl, rfl, rfl⟩⟩

/-- The record is opened when it is there, and then read. -/
theorem LeaseWorld.openRecord_unlocks
    (w : LeaseWorld) (files : LeaseFiles) (g : Guard)
    (hphase : g.phase = .openRecord) (oks : Nat → Bool) (k : Nat) :
  ∃ n files' g', Runs.run LeaseWorld.step (w.at files g)
      ((List.range' k n).map fun j => .advance g.id (oks j)) = some (w.at files' g')
    ∧ g.Unlocks files files' g'
  := by
  have hstop : g.go files (w.free g) (oks k) = some (files, { g with phase := .unlock }) →
      ∃ n files' g', Runs.run LeaseWorld.step (w.at files g)
        ((List.range' k n).map fun j => .advance g.id (oks j)) = some (w.at files' g')
      ∧ g.Unlocks files files' g' := by
    intro hgo
    exact ⟨1, _, _, run_at.mpr ⟨_, _, hgo, rfl⟩, ⟨rfl, rfl, rfl, rfl, rfl, rfl, rfl⟩⟩
  cases hname : files.recordName g.directory with
  | none =>
      apply hstop
      rw [Guard.go, hphase]
      dsimp only
      rw [hname]
  | some file =>
      by_cases hok : oks k = true
      · obtain ⟨n, files', g', hrun, hunlocks⟩ := readOwned_unlocks w files
          { g with phase := .readOwned file } rfl oks (k + 1)
        refine ⟨n + 1, files', g', ?_, ⟨hunlocks.id, hunlocks.phase, hunlocks.children,
          hunlocks.directory, hunlocks.lock, hunlocks.visible, hunlocks.lockName⟩⟩
        rw [List.range'_succ, List.map_cons]
        refine run_at.mpr ⟨_, _, ?_, hrun⟩
        rw [Guard.go, hphase]
        dsimp only
        rw [hname]
        dsimp only
        rw [if_pos hok]
      · apply hstop
        rw [Guard.go, hphase]
        dsimp only
        rw [hname]
        dsimp only
        rw [if_neg hok]

/-- A guard that is dropped comes to give up its lock, whatever fails. -/
theorem LeaseWorld.drop_unlocks
    {id : Nat} (hfind : w.guards.find? id = some g) (hlive : g.phase = .live) (oks : Nat → Bool) :
  ∃ n w' g', Runs.run LeaseWorld.step w
      (.drop id :: (List.range' 0 n).map fun j => .advance id (oks j)) = some w'
    ∧ w'.guards.find? id = some g' ∧ g.Unlocks w.files w'.files g'
  := by
  obtain ⟨_, rfl⟩ := Table.find?_eq_some.mp hfind
  obtain ⟨n, files', g', hrun, hunlocks⟩ := openRecord_unlocks w w.files
    { g with phase := .openRecord } rfl oks 0
  refine ⟨n, w.at files' g', g', (Runs.run_cons LeaseWorld.step).mpr ⟨_, ?_, hrun⟩, ?_,
    ⟨hunlocks.id, hunlocks.phase, hunlocks.children, hunlocks.directory, hunlocks.lock,
      hunlocks.visible, hunlocks.lockName⟩⟩
  · rw [step, hfind, Option.bind_some, if_pos hlive]
    rfl
  · have hid : g'.id = g.id := hunlocks.id
    rw [← hid]
    exact find?_at

/-! ### Every run -/

/-- In every run of guards of any number of processes, with children, crashes, failures and names
that are replaced, one guard at most can renew.  An acquired guard is the only one that can, unless
a name was replaced since it checked.  A job that fails has put its record in place only when it
fails at syncing the directory after that, and leaves the record in memory; a guard removes no
other's record.  A guard that is dropped comes to the call that gives up its lock, whatever fails.
When the call succeeds the root can be acquired, also while children have the lock file open; when
it fails the root can be acquired when they have ended.  It can be acquired in general when no guard
has the lock of its lock file. -/
theorem storage_root_one_writer
    {w₀ : LeaseWorld} {ops : List LeaseOp} (h₀ : w₀.Begins)
    (h : Runs.run LeaseWorld.step w₀ ops = some w) :
  (∀ id id', w.Renews id → w.Renews id' → id = id')
  ∧ (∀ id ok g w', w.guards.find? id = some g → w.step (.advance id ok) = some w' →
    ∃ g', w'.guards.find? id = some g' ∧ g.StepKept w w' ok g')
  ∧ (∀ id g, w.guards.find? id = some g → g.phase = .live → ∀ oks : Nat → Bool,
    ∃ n w' g', Runs.run LeaseWorld.step w
        (.drop id :: (List.range' 0 n).map fun j => .advance id (oks j)) = some w'
      ∧ w'.guards.find? id = some g' ∧ g.Unlocks w.files w'.files g')
  ∧ (∀ id ok g w', w.guards.find? id = some g → g.phase = .unlock →
    w.files.visible = some g.directory → w.files.lockName g.directory = some g.lock →
    w.step (.advance id ok) = some w' →
    (ok = true → w'.Acquirable)
    ∧ (ok = false → ∃ w'',
      Runs.run LeaseWorld.step w' (List.replicate g.children (.childExit id)) = some w''
      ∧ w''.Acquirable))
  ∧ ((∀ g ∈ w.guards.rows, g.locked = true →
    ∀ d, w.files.visible = some d → w.files.lockName d ≠ some g.lock) → w.Acquirable)
  := by
  obtain ⟨hw, hsound⟩ := LeaseWorld.kept_run h₀ h
  refine ⟨?_, ?_, ?_, ?_, hsound.acquirable⟩
  · intro id id' hid hid'
    exact hw.renews_eq hid hid'
  · intro id ok g w' hfind hstep
    exact hw.step_kept hsound hfind hstep
  · intro id g hfind hlive oks
    exact LeaseWorld.drop_unlocks hfind hlive oks
  · intro id ok g w' hfind hphase hvisible hlock hstep
    constructor
    · rintro rfl
      exact hw.unlock_acquirable hsound hfind hphase hvisible hlock hstep
    · rintro rfl
      exact hw.unlock_fails hsound hfind hphase hvisible hlock hstep

/-- A root without a control directory. -/
def emptyRoot : LeaseWorld where
  files :=
    { visible := none, lockName := fun _ => none, recordName := fun _ => none
      content := fun _ => none, fresh := 0, replaced := 0 }
  guards := .empty

theorem emptyRoot_begins : emptyRoot.Begins where
  guards := rfl
  visible _ h := nomatch h
  lockName _ _ h := nomatch h
  record _ _ h := nomatch h

/-- Two guards are acquired one after the other, and the first is dropped between. -/
theorem storage_root_one_writer_twice :
  ∃ w, Runs.run LeaseWorld.step emptyRoot
      (.acquire 1 1 "first" 10 :: List.replicate 10 (.advance 1 true)
        ++ [.inherit 1, .drop 1] ++ List.replicate 4 (.advance 1 true)
        ++ .acquire 2 2 "second" 20 :: List.replicate 10 (.advance 2 true)) = some w
    ∧ ∀ id id', w.Renews id → w.Renews id' → id = id'
  := by
  obtain ⟨w, hw⟩ := Option.isSome_iff_exists.mp (show (Runs.run LeaseWorld.step emptyRoot
      (.acquire 1 1 "first" 10 :: List.replicate 10 (.advance 1 true)
        ++ [.inherit 1, .drop 1] ++ List.replicate 4 (.advance 1 true)
        ++ .acquire 2 2 "second" 20 :: List.replicate 10 (.advance 2 true))).isSome = true
    by decide)
  exact ⟨w, hw, (storage_root_one_writer emptyRoot_begins hw).1⟩

/-- The control directory is moved away while one guard holds it and a second one is acquired, and
moved back before the second has written its record: the second is acquired while the first can
renew. -/
def movedAway : List LeaseOp :=
  .acquire 1 1 "first" 10 :: List.replicate 10 (.advance 1 true)
    ++ [.setVisible none] ++ .acquire 2 2 "second" 20 :: List.replicate 7 (.advance 2 true)
    ++ [.setVisible (some 0)] ++ List.replicate 3 (.advance 2 true)

/-- The lock file is moved away while a guard renews and before it has written its record; another
guard is acquired, and then the first one writes, and fails to sync the directory. -/
def lateRecord : List LeaseOp :=
  .acquire 1 1 "first" 10 :: List.replicate 10 (.advance 1 true)
    ++ .renew 1 20 :: List.replicate 6 (.advance 1 true)
    ++ [.setLock 0 none] ++ .acquire 2 2 "second" 30 :: List.replicate 10 (.advance 2 true)
    ++ [.advance 1 true, .advance 1 false]

/-- The call that gives up the lock fails while a child has the lock file open, and another guard is
tried. -/
def inheritedLock : List LeaseOp :=
  .acquire 1 1 "first" 10 :: List.replicate 10 (.advance 1 true)
    ++ [.inherit 1, .drop 1] ++ List.replicate 3 (.advance 1 true) ++ [.advance 1 false]
    ++ .acquire 2 2 "second" 20 :: List.replicate 3 (.advance 2 true)

/-- A second guard is acquired while a live one can renew, a renewal that fails puts its record in
place of another's, and a dropped guard leaves a root that cannot be acquired. -/
theorem replaced_between_checks :
  (∃ w, Runs.run LeaseWorld.step emptyRoot movedAway = some w
    ∧ (w.guards.find? 2).map Guard.phase = some .live ∧ w.Renews 1)
  ∧ (∃ w, Runs.run LeaseWorld.step emptyRoot lateRecord = some w
    ∧ (w.guards.find? 2).map Guard.phase = some .live
    ∧ (w.guards.find? 1).map (fun g => (g.phase, g.record.renewedAt)) = some (.live, 10)
    ∧ (w.files.recordName 0).bind w.files.content = some ⟨"first", 10, 20⟩)
  ∧ (Runs.run LeaseWorld.step emptyRoot inheritedLock).map (fun w => w.guards.rows.map fun g =>
      (g.id, g.phase, g.locked)) = some [(2, .closed, false), (1, .closed, true)]
  := by
  refine ⟨?_, ?_, by decide⟩
  · cases hrun : Runs.run LeaseWorld.step emptyRoot movedAway with
    | none =>
        have hsome : (Runs.run LeaseWorld.step emptyRoot movedAway).isSome = true := by
          decide
        rw [hrun] at hsome
        cases hsome
    | some w =>
        have hphase : (Runs.run LeaseWorld.step emptyRoot movedAway).bind
            (fun w => (w.guards.find? 2).map Guard.phase) = some .live := by
          decide
        have hrenews : ((Runs.run LeaseWorld.step emptyRoot movedAway).bind fun w =>
            (Runs.run LeaseWorld.step w (.renew 1 30 :: List.replicate 8 (.advance 1 true))).bind
              fun w' => (w'.guards.find? 1).map fun g => (g.phase, g.record.renewedAt))
            = some (.live, 30) := by
          decide
        rw [hrun, Option.bind_some] at hphase hrenews
        obtain ⟨w', hw', hfind⟩ := Option.bind_eq_some_iff.mp hrenews
        obtain ⟨g, hg, hvalues⟩ := Option.map_eq_some_iff.mp hfind
        obtain ⟨hlive, hnow⟩ := Prod.mk.inj hvalues
        exact ⟨w, rfl, hphase, 30, w', g, hw', hg, hlive, hnow⟩
  · cases hrun : Runs.run LeaseWorld.step emptyRoot lateRecord with
    | none =>
        have hsome : (Runs.run LeaseWorld.step emptyRoot lateRecord).isSome = true := by
          decide
        rw [hrun] at hsome
        cases hsome
    | some w =>
        have hfacts : (Runs.run LeaseWorld.step emptyRoot lateRecord).map (fun w =>
            ((w.guards.find? 2).map Guard.phase,
              (w.guards.find? 1).map (fun g => (g.phase, g.record.renewedAt)),
              (w.files.recordName 0).bind w.files.content))
            = some (some .live, some (.live, 10), some ⟨"first", 10, 20⟩) := by
          decide
        rw [hrun, Option.map_some] at hfacts
        obtain ⟨hsecond, hrest⟩ := Prod.mk.inj (Option.some.inj hfacts)
        obtain ⟨hfirst, hrecord⟩ := Prod.mk.inj hrest
        exact ⟨w, rfl, hsecond, hfirst, hrecord⟩

end Votport.Storage
