import Mathlib.Data.Finset.Union
import Votport.Foundation.Claims
import Votport.Foundation.Runs
import Votport.Session.StoredPaths

/-!
# Stored names

`prepare_files` gives every file of a manifest that has not been delivered a name under
the destination.  Workers go through the entries in parallel.  A worker tries the announced
name, and then names with a suffix, until one has a key that is not claimed and no file is
there.  The claimed keys are shared by the workers.  Those of unfinished uploads and
conflicting files are among them from the start, and those of all folders that unfinished
uploads and fresh files lie in.
-/

namespace Votport

/-! ### Claims -/

/-- A suite, a root and a length. -/
structure ObjectId where
  suite : ℕ
  root : List UInt8
  length : ℕ
deriving DecidableEq

/-- An entry of a manifest, whose path is never empty. -/
structure ManifestEntry where
  components : List (List Char)
  nonempty : components ≠ []
  object : ObjectId

/-- What `find_delivered` finds. -/
structure Delivered where
  storedComponents : List (List Char)
  receipt : Bool

/-- A file that has been prepared.  It is fresh when it is not published. -/
structure PreparedFile where
  displayPath : List Char
  storedComponents : List (List Char)
  object : ObjectId
  published : Bool
  receipt : Bool

/-- What `prepare_files` reads: the destination, the entries with what has been delivered
of them, the paths of unfinished uploads and the names of conflicting files. -/
structure PrepareInput where
  destination : List Char
  entries : List (ManifestEntry × Option Delivered)
  pending : List (List Char × List (List Char))
  conflicts : List (List Char)

/-- `MAX_SESSION_ENTRIES`. -/
def maxSessionEntries : ℕ := 262144

/-- The last component of an entry. -/
def ManifestEntry.name (entry : ManifestEntry) : List Char :=
  entry.components.getLast entry.nonempty

/-- The checks `prepare_files` starts with. -/
def checkEntries (env : PathEnv) (input : PrepareInput) : Except String Unit := do
  if input.entries.length > maxSessionEntries then
    throw "session exceeds the 262144 entry cap"
  input.entries.forM (fun (entry, _) => checkPayloadNameLength entry.name)
  if (input.destination.splitOn '/').any (isReceiptName env) then
    throw "receiving destination uses a name reserved for signed receipts"

/-- The keys of some paths. -/
def claimKeys {α : Type} (keyOf : α → Except String PathKey) (paths : List α) :
    Except String (Finset PathKey) :=
  paths.foldlM (fun claims path => do
    let key ← keyOf path
    pure (insert key claims)) ∅

/-- `pending_upload_claims`. -/
def pendingUploadClaims (env : PathEnv) (pending : List (List Char × List (List Char))) :
    Except String (Finset PathKey) :=
  claimKeys (fun path => storedPathKey env path.1 path.2) pending

/-- `check_pending_parent`. -/
def checkPendingParent (key : PathKey) (pending : Finset PathKey) : Except String Unit :=
  if key ∈ pending then throw "destination folder is reserved by an unfinished upload"
  else pure ()

/-- The folders of the fresh entries, none of which may be an unfinished upload. -/
def freshParents (env : PathEnv) (destination : List Char) (pending : Finset PathKey)
    (entries : List (ManifestEntry × Option Delivered)) : Except String (Finset PathKey) :=
  entries.foldlM (fun parents e =>
    if e.2.isSome then pure parents
    else do
      let key ← storedPathKey env destination e.1.components
      (parentKeys key).forM (checkPendingParent · pending)
      pure (parents ∪ (parentKeys key).toFinset)) ∅

/-- The key of a name in the store. -/
def storedNameKey (env : PathEnv) (name : List Char) : Except String PathKey :=
  storedPathKey env [] (name.splitOn '/')

/-- The keys that are claimed from the start. -/
def initialClaims (env : PathEnv) (input : PrepareInput) : Except String (Finset PathKey) := do
  let pending ← pendingUploadClaims env input.pending
  let parents ← freshParents env input.destination pending input.entries
  let conflicts ← claimKeys (storedNameKey env) input.conflicts
  pure (pending ∪ (parents ∪ pending.biUnion (fun key => (parentKeys key).toFinset)) ∪ conflicts)

/-! ### Workers -/

/-- Where a worker is with its next entry: before it, about to try a name, or creating the
file of a name it has claimed. -/
inductive PrepareStage where
  | ready
  | opening (attempt : ℕ)
  | creating (attempt : ℕ) (key : PathKey)

/-- A worker, with the entries it has still to prepare. -/
structure PrepareWorker where
  todo : List (ManifestEntry × Option Delivered)
  stage : PrepareStage
  files : List PreparedFile
  failed : Option String

/-- The workers, with what they share. -/
structure Prepare where
  claimed : Finset PathKey
  stopped : Bool
  workers : List PrepareWorker

/-- What a worker does next, with what it finds: whether the session is active and the
folder there, whether the destination is live, what the creation of the file answers. -/
inductive PrepareStep where
  | next (active : Bool) (directory : Except String Unit)
  | tryName (live : Except String Unit)
  | create (outcome : Except String Bool)

/-- `MAX_NAME_ATTEMPTS`. -/
def maxNameAttempts : ℕ := 100

/-- The path of an entry with a suffix. -/
def ManifestEntry.stored (entry : ManifestEntry) (attempt : ℕ) : List (List Char) :=
  entry.components.dropLast ++ [withSuffix entry.name attempt]

/-- `components.join("/")`. -/
def ManifestEntry.displayPath (entry : ManifestEntry) : List Char :=
  ['/'].intercalate entry.components

/-- The file of an entry that has been delivered. -/
def ManifestEntry.deliveredFile (entry : ManifestEntry) (existing : Delivered) : PreparedFile where
  displayPath := entry.displayPath
  storedComponents := existing.storedComponents
  object := entry.object
  published := true
  receipt := existing.receipt

/-- The file of a fresh entry. -/
def ManifestEntry.freshFile (entry : ManifestEntry) (attempt : ℕ) : PreparedFile where
  displayPath := entry.displayPath
  storedComponents := entry.stored attempt
  object := entry.object
  published := false
  receipt := false

/-- The key of an attempt. -/
def attemptKey (env : PathEnv) (destination : List Char) (entry : ManifestEntry) (attempt : ℕ) :
    Except String PathKey := do
  checkPayloadNameLength (withSuffix entry.name attempt)
  storedPathKey env destination (entry.stored attempt)

/-- The worker has failed, and does nothing more. -/
def PrepareWorker.fail (worker : PrepareWorker) (e : String) : PrepareWorker :=
  { worker with todo := [], stage := .ready, failed := some e }

/-- The worker has prepared its next file. -/
def PrepareWorker.push (worker : PrepareWorker) (file : PreparedFile) : PrepareWorker :=
  { worker with todo := worker.todo.tail, stage := .ready, files := worker.files ++ [file] }

/-- The part of `prepare_parallel` before an entry is opened. -/
def PrepareWorker.next (worker : PrepareWorker) (stopped : Bool) (active : Bool)
    (directory : Except String Unit) : Option PrepareWorker :=
  match worker.stage, worker.todo with
  | .ready, (entry, existing) :: _ =>
      if stopped then some { worker with todo := [] }
      else if ¬ active then some (worker.fail "receive preparation cancelled")
      else match existing with
        | some existing => some (worker.push (entry.deliveredFile existing))
        | none => match directory with
          | .error e => some (worker.fail e)
          | .ok _ => some { worker with stage := .opening 0 }
  | _, _ => none

/-- The part of `open_destination_for` that claims a name. -/
def PrepareWorker.tryName (env : PathEnv) (destination : List Char) (claimed : Finset PathKey)
    (worker : PrepareWorker) (live : Except String Unit) :
    Option (Finset PathKey × PrepareWorker) :=
  match worker.stage, worker.todo with
  | .opening attempt, (entry, _) :: _ =>
      if attempt = maxNameAttempts then
        some (claimed, worker.fail "could not find a free name")
      else match live with
        | .error e => some (claimed, worker.fail e)
        | .ok _ => match attemptKey env destination entry attempt with
          | .error e => some (claimed, worker.fail e)
          | .ok key =>
              if key ∈ claimed then
                some (claimed, { worker with stage := .opening (attempt + 1) })
              else some (insert key claimed, { worker with stage := .creating attempt key })
  | _, _ => none

/-- The part of `open_destination_for` that creates the file: it answers true when it has
created it, and false when there is one. -/
def PrepareWorker.create (claimed : Finset PathKey) (worker : PrepareWorker)
    (outcome : Except String Bool) : Option (Finset PathKey × PrepareWorker) :=
  match worker.stage, worker.todo with
  | .creating attempt key, (entry, _) :: _ =>
      match outcome with
      | .error e => some (claimed, worker.fail e)
      | .ok true => some (claimed, worker.push (entry.freshFile attempt))
      | .ok false => some (claimed.erase key, { worker with stage := .opening (attempt + 1) })
  | _, _ => none

/-- What a worker's step does to the claims and to the worker. -/
def PrepareWorker.step (env : PathEnv) (destination : List Char) (claimed : Finset PathKey)
    (stopped : Bool) (worker : PrepareWorker) :
    PrepareStep → Option (Finset PathKey × PrepareWorker)
  | .next active directory => (worker.next stopped active directory).map (claimed, ·)
  | .tryName live => worker.tryName env destination claimed live
  | .create outcome => worker.create claimed outcome

/-- A step of one of the workers. -/
def Prepare.step (env : PathEnv) (destination : List Char) (p : Prepare) (a : ℕ × PrepareStep) :
    Option Prepare := do
  let worker ← p.workers[a.1]?
  let (claimed, worker) ← worker.step env destination p.claimed p.stopped a.2
  some {
    claimed
    stopped := p.stopped || worker.failed.isSome
    workers := p.workers.set a.1 worker }

/-- `MAX_CHUNK_BATCH`. -/
def maxChunkBatch : ℕ := 8

/-- The first `n` chunks of a list, of `size` each. -/
def chunksOf {α : Type} (size : ℕ) : ℕ → List α → List (List α)
  | 0, _ => []
  | n + 1, l => l.take size :: chunksOf size n (l.drop size)

/-- What each worker of `prepare_parallel` prepares: one all of a short list, and else
eight a chunk each. -/
def prepareChunks {α : Type} (entries : List α) : List (List α) :=
  if entries.length < maxChunkBatch * 2 then [entries]
  else
    let size := (entries.length + maxChunkBatch - 1) / maxChunkBatch
    chunksOf size ((entries.length + size - 1) / size) entries

/-- `prepare_files` when its workers start. -/
def startPrepare (env : PathEnv) (input : PrepareInput) : Except String Prepare := do
  checkEntries env input
  let claimed ← initialClaims env input
  pure {
    claimed
    stopped := false
    workers := (prepareChunks input.entries).map (fun todo => ⟨todo, .ready, [], none⟩) }

/-- What `prepare_files` answers when all workers are done: the error of the first that
has failed, or all their files. -/
def Prepare.result (p : Prepare) : Option (Except String (List PreparedFile)) :=
  if ∃ worker ∈ p.workers, worker.todo ≠ [] then none
  else match p.workers.findSome? PrepareWorker.failed with
    | some e => some (.error e)
    | none => some (.ok (p.workers.flatMap PrepareWorker.files))

/-! ### Held keys -/

section Keys

variable {env : PathEnv} {destination : List Char}

/-- The key of a prepared file. -/
def PreparedFile.key (env : PathEnv) (destination : List Char) (file : PreparedFile) : PathKey :=
  match storedPathKey env destination file.storedComponents with
  | .error _ => []
  | .ok key => key

/-- The fresh ones of some files. -/
def freshFiles (files : List PreparedFile) : List PreparedFile := files.filter (¬ ·.published)

/-- The key of a name that has been claimed and whose file is being created. -/
def PrepareStage.keys : PrepareStage → List PathKey
  | .ready => []
  | .opening _ => []
  | .creating _ key => [key]

/-- The keys a worker holds. -/
def PrepareWorker.keys (env : PathEnv) (destination : List Char) (worker : PrepareWorker) :
    List PathKey :=
  worker.stage.keys ++ (freshFiles worker.files).map (PreparedFile.key env destination)

/-- The path has a key, and its folders are taken. -/
def FoldersTaken (env : PathEnv) (destination : List Char) (taken : Finset PathKey)
    (components : List (List Char)) : Prop :=
  ∃ key, storedPathKey env destination components = .ok key
    ∧ ∀ folder ∈ parentKeys key, folder ∈ taken

/-- The worker's paths have keys, and their folders are taken. -/
structure PrepareWorker.Sound (env : PathEnv) (destination : List Char) (taken : Finset PathKey)
    (worker : PrepareWorker) : Prop where
  /-- The announced paths of fresh entries. -/
  todo : ∀ e ∈ worker.todo, e.2 = none → FoldersTaken env destination taken e.1.components
  /-- An entry that is opened is fresh, and a key that is held is its key. -/
  stage : match worker.stage with
    | .ready => True
    | .opening _ => ∃ entry rest, worker.todo = (entry, none) :: rest
    | .creating attempt key => ∃ entry rest, worker.todo = (entry, none) :: rest
      ∧ storedPathKey env destination (entry.stored attempt) = .ok key
  /-- The files that have been prepared. -/
  files : ∀ file ∈ freshFiles worker.files,
    FoldersTaken env destination taken file.storedComponents
  /-- A worker that has failed prepares no more. -/
  failed : worker.failed ≠ none → worker.todo = []

/-- The folders of an attempt are those of the announced path. -/
theorem FoldersTaken.stored
    {taken : Finset PathKey} {entry : ManifestEntry} (henv : env.Lawful)
    (h : FoldersTaken env destination taken entry.components) {attempt : ℕ} {key : PathKey}
    (hkey : storedPathKey env destination (entry.stored attempt) = .ok key) :
  FoldersTaken env destination taken (entry.stored attempt)
  := by
  obtain ⟨announced, hannounced, hfolders⟩ := h
  rw [← List.dropLast_append_getLast entry.nonempty] at hannounced
  use key, hkey
  intro folder hfolder
  apply hfolders
  rw [parentKeys_storedPathKey henv hannounced hkey]
  apply hfolder

theorem freshFiles_concat (files : List PreparedFile) (file : PreparedFile) :
  freshFiles (files ++ [file]) = freshFiles files ++ if file.published then [] else [file]
  := by
  rw [freshFiles, List.filter_append]
  cases hpublished : file.published <;> simp [hpublished, freshFiles]

theorem PrepareWorker.Sound.fail
    {taken : Finset PathKey} {worker : PrepareWorker} (h : worker.Sound env destination taken)
    (e : String) :
  (worker.fail e).Sound env destination taken
  := by
  constructor
  · simp [PrepareWorker.fail]
  · trivial
  · apply h.files
  · intro _
    rfl

theorem PrepareWorker.keys_fail (worker : PrepareWorker) (e : String) :
  ((worker.fail e).keys env destination).Sublist (worker.keys env destination)
  := List.sublist_append_right _ _

/-- A worker's step keeps its paths sound, and the keys it holds apart from all others. -/
theorem PrepareWorker.step_spec
    {taken claimed claimed' : Finset PathKey} {stopped : Bool} {worker worker' : PrepareWorker}
    {s : PrepareStep} (henv : env.Lawful) (h : worker.Sound env destination taken)
    (hstep : worker.step env destination claimed stopped s = some (claimed', worker'))
    (others : List PathKey)
    (hheld : Claims.Held taken claimed (worker.keys env destination ++ others)) :
  worker'.Sound env destination taken
    ∧ Claims.Held taken claimed' (worker'.keys env destination ++ others)
  := by
  obtain ⟨htodo, hstage, hfiles, hfailed⟩ := h
  have hfail : ∀ e, (worker.fail e).Sound env destination taken
      ∧ Claims.Held taken claimed ((worker.fail e).keys env destination ++ others) := by
    intro e
    constructor
    · apply PrepareWorker.Sound.fail ⟨htodo, hstage, hfiles, hfailed⟩
    · apply hheld.sublist
      apply List.Sublist.append_right (worker.keys_fail e)
  cases s with
  | next active directory =>
      obtain ⟨worker₁, hnext, he⟩ := Option.map_eq_some_iff.mp hstep
      cases he
      unfold PrepareWorker.next at hnext
      split at hnext
      · rename_i entry existing rest hready hcons
        rw [hcons] at htodo
        have hkeys : worker.keys env destination
            = (freshFiles worker.files).map (PreparedFile.key env destination) := by
          rw [PrepareWorker.keys, hready]
          rfl
        rw [hkeys] at hheld
        split_ifs at hnext
        · cases hnext
          refine ⟨⟨?_, ?_, hfiles, fun _ => rfl⟩, ?_⟩
          · simp
          · rw [hready]
            trivial
          · rw [PrepareWorker.keys, hready]
            apply hheld
        · cases existing with
          | some existing =>
              cases hnext
              have hfresh : freshFiles (worker.push (entry.deliveredFile existing)).files
                  = freshFiles worker.files := by
                rw [PrepareWorker.push, freshFiles_concat, ManifestEntry.deliveredFile, if_pos rfl,
                  List.append_nil]
              refine ⟨⟨?_, trivial, ?_, ?_⟩, ?_⟩
              · intro e he
                rw [PrepareWorker.push, hcons] at he
                apply htodo e (List.mem_cons_of_mem _ he)
              · rw [hfresh]
                apply hfiles
              · intro hne
                have := hfailed hne
                rw [PrepareWorker.push, this]
                rfl
              · rw [PrepareWorker.keys, hfresh]
                apply hheld
          | none =>
              cases directory with
              | error e =>
                  cases hnext
                  apply hfail
              | ok _ =>
                  cases hnext
                  refine ⟨⟨?_, ⟨entry, rest, hcons⟩, hfiles, hfailed⟩, ?_⟩
                  · rw [hcons]
                    apply htodo
                  · apply hheld
        · cases hnext
          apply hfail
      · cases hnext
  | tryName live =>
      change worker.tryName env destination claimed live = some (claimed', worker') at hstep
      unfold PrepareWorker.tryName at hstep
      split at hstep
      · rename_i attempt entry existing rest hopening hcons
        rw [hopening] at hstage
        obtain ⟨entry', rest', hcons'⟩ := hstage
        obtain ⟨⟨rfl, rfl⟩, rfl⟩ : (entry = entry' ∧ existing = none) ∧ rest = rest' := by
          rw [hcons] at hcons'
          simpa using hcons'
        have hkeys : worker.keys env destination
            = (freshFiles worker.files).map (PreparedFile.key env destination) := by
          rw [PrepareWorker.keys, hopening]
          rfl
        split_ifs at hstep
        · cases hstep
          apply hfail
        · cases live with
          | error e =>
              cases hstep
              apply hfail
          | ok _ =>
              cases hkey : attemptKey env destination entry attempt with
              | error e =>
                  simp only [hkey] at hstep
                  cases hstep
                  apply hfail
              | ok key =>
                  simp only [hkey] at hstep
                  split_ifs at hstep with hclaimed
                  · cases hstep
                    refine ⟨⟨htodo, ⟨entry, rest, hcons⟩, hfiles, hfailed⟩, ?_⟩
                    rw [hkeys] at hheld
                    apply hheld
                  · cases hstep
                    obtain ⟨_, _, hstored⟩ := Fallible.bind_eq_ok.mp hkey
                    refine ⟨⟨htodo, ⟨entry, rest, hcons, hstored⟩, hfiles, hfailed⟩, ?_⟩
                    rw [hkeys] at hheld
                    apply hheld.claim hclaimed
      · cases hstep
  | create outcome =>
      change worker.create claimed outcome = some (claimed', worker') at hstep
      unfold PrepareWorker.create at hstep
      split at hstep
      · rename_i attempt key entry existing rest hcreating hcons
        rw [hcreating] at hstage
        obtain ⟨entry', rest', hcons', hstored⟩ := hstage
        obtain ⟨⟨rfl, rfl⟩, rfl⟩ : (entry = entry' ∧ existing = none) ∧ rest = rest' := by
          rw [hcons] at hcons'
          simpa using hcons'
        have hkeys : worker.keys env destination
            = key :: (freshFiles worker.files).map (PreparedFile.key env destination) := by
          rw [PrepareWorker.keys, hcreating]
          rfl
        have hfolders : FoldersTaken env destination taken (entry.stored attempt) := by
          apply FoldersTaken.stored henv _ hstored
          apply htodo (entry, none) _ rfl
          rw [hcons]
          apply List.mem_cons_self
        rw [hkeys] at hheld
        cases outcome with
        | error e =>
            cases hstep
            apply hfail
        | ok created =>
            cases created with
            | true =>
                cases hstep
                have hfresh : freshFiles (worker.push (entry.freshFile attempt)).files
                    = freshFiles worker.files ++ [entry.freshFile attempt] := by
                  rw [PrepareWorker.push, freshFiles_concat]
                  rfl
                have hfile : (entry.freshFile attempt).key env destination = key := by
                  rw [PreparedFile.key, ManifestEntry.freshFile, hstored]
                refine ⟨⟨?_, trivial, ?_, ?_⟩, ?_⟩
                · intro e he
                  rw [PrepareWorker.push, hcons] at he
                  apply htodo e
                  rw [hcons]
                  apply List.mem_cons_of_mem _ he
                · rw [hfresh]
                  intro file hfile
                  rcases List.mem_append.mp hfile with hfile | hfile
                  · apply hfiles file hfile
                  · rw [List.mem_singleton.mp hfile]
                    apply hfolders
                · intro hne
                  have := hfailed hne
                  rw [PrepareWorker.push, this]
                  rfl
                · apply hheld.perm
                  rw [PrepareWorker.keys, hfresh, List.map_append, List.map_singleton, hfile]
                  apply List.Perm.append_right
                  apply List.perm_append_singleton
            | false =>
                cases hstep
                exact ⟨⟨htodo, ⟨entry, rest, hcons⟩, hfiles, hfailed⟩, hheld.release⟩
      · cases hstep

/-- The paths of the files a worker has prepared and has still to prepare. -/
def PrepareWorker.paths (worker : PrepareWorker) : List (List Char) :=
  worker.files.map PreparedFile.displayPath ++ worker.todo.map (·.1.displayPath)

/-- A worker that goes on leaves no entry out. -/
theorem PrepareWorker.step_paths
    {claimed claimed' : Finset PathKey} {stopped : Bool} {worker worker' : PrepareWorker}
    {s : PrepareStep}
    (hstep : worker.step env destination claimed stopped s = some (claimed', worker')) :
  worker.todo ≠ [] ∧ (worker'.failed.isSome = true ∨ stopped = true
    ∨ worker'.failed = worker.failed ∧ worker'.paths = worker.paths)
  := by
  have hpush : ∀ entry existing rest (file : PreparedFile), worker.todo = (entry, existing) :: rest →
      file.displayPath = entry.displayPath → (worker.push file).paths = worker.paths := by
    intro entry existing rest file hcons hfile
    simp [PrepareWorker.paths, PrepareWorker.push, hcons, hfile]
  cases s with
  | next active directory =>
      obtain ⟨worker₁, hnext, he⟩ := Option.map_eq_some_iff.mp hstep
      cases he
      unfold PrepareWorker.next at hnext
      split at hnext
      · rename_i entry existing rest _ hcons
        use by simp [hcons]
        split_ifs at hnext with hstopped
        · right
          left
          apply hstopped
        · rw [or_iff_right hstopped]
          cases existing with
          | some existing =>
              cases hnext
              right
              exact ⟨rfl, hpush entry _ rest _ hcons rfl⟩
          | none =>
              cases directory with
              | error e =>
                  cases hnext
                  left
                  rfl
              | ok _ =>
                  cases hnext
                  right
                  exact ⟨rfl, rfl⟩
        · left
          cases hnext
          rfl
      · cases hnext
  | tryName live =>
      change worker.tryName env destination claimed live = some (claimed', worker') at hstep
      unfold PrepareWorker.tryName at hstep
      split at hstep
      · rename_i attempt entry existing rest _ hcons
        use by simp [hcons]
        split_ifs at hstep
        · cases hstep
          left
          rfl
        · cases live with
          | error e =>
              cases hstep
              left
              rfl
          | ok _ =>
              cases hkey : attemptKey env destination entry attempt with
              | error e =>
                  simp only [hkey] at hstep
                  cases hstep
                  left
                  rfl
              | ok key =>
                  simp only [hkey] at hstep
                  right
                  right
                  split_ifs at hstep
                  · cases hstep
                    exact ⟨rfl, rfl⟩
                  · cases hstep
                    exact ⟨rfl, rfl⟩
      · cases hstep
  | create outcome =>
      change worker.create claimed outcome = some (claimed', worker') at hstep
      unfold PrepareWorker.create at hstep
      split at hstep
      · rename_i attempt key entry existing rest _ hcons
        use by simp [hcons]
        cases outcome with
        | error e =>
            cases hstep
            left
            rfl
        | ok created =>
            right
            right
            cases created with
            | true =>
                cases hstep
                exact ⟨rfl, hpush entry _ rest _ hcons rfl⟩
            | false =>
                cases hstep
                exact ⟨rfl, rfl⟩
      · cases hstep

/-! ### The start -/

theorem claimKeys_spec
    {α : Type} {keyOf : α → Except String PathKey} {paths : List α} {claims : Finset PathKey}
    (hok : claimKeys keyOf paths = .ok claims) {path : α} (hpath : path ∈ paths) {key : PathKey}
    (hkey : keyOf path = .ok key) :
  key ∈ claims
  := by
  have hfold : ∀ start, paths.foldlM (fun claims path => do
        let key ← keyOf path
        pure (insert key claims)) start = Except.ok claims →
      start ⊆ claims ∧ ∀ path ∈ paths, ∀ key, keyOf path = .ok key → key ∈ claims := by
    clear hok hpath
    induction paths with
    | nil =>
        intro start hok
        cases hok
        simp
    | cons path paths ih =>
        intro start hok
        obtain ⟨start', hstart', hok⟩ := Fallible.foldlM_cons_eq_ok.mp hok
        obtain ⟨key, hkey, hstart'⟩ := Fallible.bind_eq_ok.mp hstart'
        cases hstart'
        obtain ⟨hsub, hrest⟩ := ih _ hok
        constructor
        · intro k hk
          apply hsub (Finset.mem_insert_of_mem hk)
        · intro path' hpath' key' hkey'
          rcases List.mem_cons.mp hpath' with rfl | hpath'
          · rw [hkey] at hkey'
            cases hkey'
            apply hsub (Finset.mem_insert_self _ _)
          · apply hrest path' hpath' key' hkey'
  apply (hfold ∅ hok).2 path hpath key hkey

theorem freshParents_spec
    {pending parents : Finset PathKey} {entries : List (ManifestEntry × Option Delivered)}
    (hok : freshParents env destination pending entries = .ok parents)
    {e : ManifestEntry × Option Delivered} (he : e ∈ entries) (hfresh : e.2 = none) :
  FoldersTaken env destination parents e.1.components
  := by
  have hfold : ∀ start, entries.foldlM (fun parents e =>
        if e.2.isSome then pure parents
        else do
          let key ← storedPathKey env destination e.1.components
          (parentKeys key).forM (checkPendingParent · pending)
          pure (parents ∪ (parentKeys key).toFinset)) start = Except.ok parents →
      start ⊆ parents ∧ ∀ e ∈ entries, e.2 = none →
        FoldersTaken env destination parents e.1.components := by
    clear hok he
    induction entries with
    | nil =>
        intro start hok
        cases hok
        simp
    | cons e entries ih =>
        intro start hok
        obtain ⟨start', hstart', hok⟩ := Fallible.foldlM_cons_eq_ok.mp hok
        obtain ⟨hsub, hrest⟩ := ih _ hok
        split_ifs at hstart' with hexisting
        · cases hstart'
          refine ⟨hsub, ?_⟩
          intro e' he' hfresh'
          rcases List.mem_cons.mp he' with rfl | he'
          · rw [hfresh'] at hexisting
            cases hexisting
          · apply hrest e' he' hfresh'
        · obtain ⟨key, hkey, hstart'⟩ := Fallible.bind_eq_ok.mp hstart'
          obtain ⟨_, _, hstart'⟩ := Fallible.bind_eq_ok.mp hstart'
          cases hstart'
          constructor
          · apply Finset.Subset.trans Finset.subset_union_left hsub
          · intro e' he' hfresh'
            rcases List.mem_cons.mp he' with rfl | he'
            · use key, hkey
              intro folder hfolder
              apply hsub (Finset.mem_union_right _ (List.mem_toFinset.mpr hfolder))
            · apply hrest e' he' hfresh'
  apply (hfold ∅ hok).2 e he hfresh

/-- What is claimed from the start: the unfinished uploads with their folders, the
conflicting names, and the folders of the fresh entries. -/
theorem initialClaims_spec
    {input : PrepareInput} {claimed : Finset PathKey} (hok : initialClaims env input = .ok claimed) :
  (∀ path ∈ input.pending, ∀ key, storedPathKey env path.1 path.2 = .ok key →
      key ∈ claimed ∧ ∀ folder ∈ parentKeys key, folder ∈ claimed)
    ∧ (∀ name ∈ input.conflicts, ∀ key, storedNameKey env name = .ok key → key ∈ claimed)
    ∧ ∀ e ∈ input.entries, e.2 = none →
      FoldersTaken env input.destination claimed e.1.components
  := by
  obtain ⟨pending, hpending, hok⟩ := Fallible.bind_eq_ok.mp hok
  obtain ⟨parents, hparents, hok⟩ := Fallible.bind_eq_ok.mp hok
  obtain ⟨conflicts, hconflicts, hok⟩ := Fallible.bind_eq_ok.mp hok
  cases hok
  refine ⟨?_, ?_, ?_⟩
  · intro path hpath key hkey
    have hmem := claimKeys_spec hpending hpath hkey
    constructor
    · simp [hmem]
    · intro folder hfolder
      simp only [Finset.mem_union, Finset.mem_biUnion, List.mem_toFinset]
      left
      right
      right
      exact ⟨key, hmem, hfolder⟩
  · intro name hname key hkey
    simp [claimKeys_spec hconflicts hname hkey]
  · intro e he hfresh
    obtain ⟨key, hkey, hfolders⟩ := freshParents_spec hparents he hfresh
    use key, hkey
    intro folder hfolder
    simp [hfolders folder hfolder]

theorem flatten_chunksOf {α : Type} (size : ℕ) (n : ℕ) {l : List α} (h : l.length ≤ size * n) :
  (chunksOf size n l).flatten = l
  := by
  induction n generalizing l with
  | zero =>
      rw [Nat.mul_zero, Nat.le_zero, List.length_eq_zero_iff] at h
      rw [h]
      rfl
  | succ n ih =>
      rw [chunksOf, List.flatten_cons, ih, List.take_append_drop]
      rw [List.length_drop]
      rw [Nat.mul_succ] at h
      omega

theorem flatten_prepareChunks {α : Type} (entries : List α) :
  (prepareChunks entries).flatten = entries
  := by
  rw [prepareChunks]
  split_ifs with hshort
  · simp
  · apply flatten_chunksOf
    rw [maxChunkBatch] at *
    have hsize : 0 < (entries.length + 8 - 1) / 8 := by omega
    have hdiv := Nat.div_add_mod (entries.length + (entries.length + 8 - 1) / 8 - 1)
      ((entries.length + 8 - 1) / 8)
    have hmod := Nat.mod_lt (entries.length + (entries.length + 8 - 1) / 8 - 1) hsize
    omega

/-! ### Runs -/

/-- The keys all workers hold. -/
def Prepare.keys (env : PathEnv) (destination : List Char) (p : Prepare) : List PathKey :=
  p.workers.flatMap (PrepareWorker.keys env destination)

/-- The workers are sound, the keys they hold are apart, and no entry is left out unless a
worker has failed. -/
structure Prepare.Sound (env : PathEnv) (destination : List Char) (taken : Finset PathKey)
    (paths : List (List Char)) (p : Prepare) : Prop where
  workers : ∀ worker ∈ p.workers, worker.Sound env destination taken
  held : Claims.Held taken p.claimed (p.keys env destination)
  complete : (∃ worker ∈ p.workers, worker.failed.isSome = true)
    ∨ p.stopped = false ∧ p.workers.flatMap PrepareWorker.paths = paths

theorem startPrepare_sound
    {input : PrepareInput} {start : Prepare} (hok : startPrepare env input = .ok start) :
  initialClaims env input = .ok start.claimed
    ∧ start.Sound env input.destination start.claimed
      (input.entries.map (·.1.displayPath))
  := by
  obtain ⟨_, _, hok⟩ := Fallible.bind_eq_ok.mp hok
  obtain ⟨claimed, hclaimed, hok⟩ := Fallible.bind_eq_ok.mp hok
  cases hok
  refine ⟨hclaimed, ?_, ?_, Or.inr ⟨rfl, ?_⟩⟩
  · intro worker hworker
    obtain ⟨todo, htodo, rfl⟩ := List.mem_map.mp hworker
    refine ⟨?_, trivial, by simp [freshFiles], by simp⟩
    intro e he
    apply (initialClaims_spec hclaimed).2.2 e
    rw [← flatten_prepareChunks input.entries]
    exact List.mem_flatten.mpr ⟨todo, htodo, he⟩
  · have hnone : Prepare.keys env input.destination ⟨claimed, false,
        (prepareChunks input.entries).map (fun todo => ⟨todo, .ready, [], none⟩)⟩ = [] := by
      rw [Prepare.keys, List.flatMap_eq_nil_iff]
      intro worker hworker
      obtain ⟨todo, _, rfl⟩ := List.mem_map.mp hworker
      rfl
    rw [hnone]
    apply Claims.Held.start
  · conv_rhs => rw [← flatten_prepareChunks input.entries]
    rw [List.flatMap_map, List.map_flatten]
    rfl

/-- A list with one of its elements, and with another in its place. -/
theorem exists_append_set {α : Type} {l : List α} {i : ℕ} {a : α} (h : l[i]? = some a) :
  ∃ before after, l = before ++ a :: after ∧ ∀ b, l.set i b = before ++ b :: after
  := by
  obtain ⟨hi, rfl⟩ := List.getElem?_eq_some_iff.mp h
  use l.take i, l.drop (i + 1)
  constructor
  · rw [← List.drop_eq_getElem_cons hi, List.take_append_drop]
  · intro b
    rw [List.set_eq_take_append_cons_drop, if_pos hi]

theorem Prepare.Sound.step
    {taken : Finset PathKey} {paths : List (List Char)} {p p' : Prepare} {a : ℕ × PrepareStep}
    (henv : env.Lawful) (h : p.Sound env destination taken paths)
    (hstep : p.step env destination a = some p') :
  p'.Sound env destination taken paths
  := by
  obtain ⟨worker, hworker, hstep⟩ := Option.bind_eq_some_iff.mp hstep
  obtain ⟨⟨claimed, worker'⟩, hworker', hstep⟩ := Option.bind_eq_some_iff.mp hstep
  cases hstep
  obtain ⟨before, after, hlist, hset⟩ := exists_append_set hworker
  have hmem : worker ∈ p.workers := by
    rw [hlist]
    simp
  have hperm : ∀ w : PrepareWorker, ((before ++ w :: after).flatMap
      (PrepareWorker.keys env destination)).Perm (w.keys env destination
        ++ (before ++ after).flatMap (PrepareWorker.keys env destination)) := by
    intro w
    rw [List.flatMap_append, List.flatMap_cons, List.flatMap_append]
    apply List.perm_append_comm_assoc
  have hheld := h.held
  rw [Prepare.keys, hlist] at hheld
  obtain ⟨hsound, hheld'⟩ :=
    PrepareWorker.step_spec henv (h.workers worker hmem) hworker' _ (hheld.perm (hperm worker).symm)
  obtain ⟨htodo, hpaths⟩ := PrepareWorker.step_paths hworker'
  constructor
  · intro w hw
    dsimp only at hw
    rw [hset, List.mem_append, List.mem_cons] at hw
    have hother : w ∈ before ∨ w ∈ after → w.Sound env destination taken := by
      intro hw
      apply h.workers
      rw [hlist, List.mem_append, List.mem_cons]
      tauto
    rcases hw with hw | rfl | hw
    · apply hother (Or.inl hw)
    · apply hsound
    · apply hother (Or.inr hw)
  · rw [Prepare.keys]
    dsimp only
    rw [hset]
    apply hheld'.perm (hperm worker')
  · dsimp only
    rw [hset]
    -- The worker has not failed before, for it had an entry.
    have hnot : worker.failed = none := by
      by_contra hne
      exact htodo ((h.workers worker hmem).failed hne)
    rcases h.complete with ⟨w, hw, hfailed⟩ | ⟨hstopped, hcomplete⟩
    · left
      refine ⟨w, ?_, hfailed⟩
      rw [hlist, List.mem_append, List.mem_cons] at hw
      rw [List.mem_append, List.mem_cons]
      rcases hw with hw | rfl | hw
      · apply Or.inl hw
      · rw [hnot] at hfailed
        cases hfailed
      · apply Or.inr (Or.inr hw)
    · rcases hpaths with hfailed | hstopped' | ⟨hfailed, hsame⟩
      · left
        exact ⟨worker', by simp, hfailed⟩
      · rw [hstopped] at hstopped'
        cases hstopped'
      · right
        constructor
        · rw [hstopped, hfailed, hnot]
          rfl
        · rw [← hcomplete, hlist, List.flatMap_append, List.flatMap_append, List.flatMap_cons,
            List.flatMap_cons, hsame]

/-- When `prepare_files` has succeeded, whatever the order of its workers' steps and
whatever they have found, every entry has its file, and the keys of the fresh files are
distinct.  None of them is the key of an unfinished upload, of a folder of one, of a
conflicting name or of a folder of a fresh file. -/
theorem prepareFiles_keys
    (henv : env.Lawful) {input : PrepareInput} {start : Prepare}
    (hstart : startPrepare env input = .ok start) {steps : List (ℕ × PrepareStep)} {final : Prepare}
    (hrun : Runs.run (Prepare.step env input.destination) start steps = some final)
    {files : List PreparedFile} (hok : final.result = some (.ok files)) :
  files.map PreparedFile.displayPath = input.entries.map (·.1.displayPath)
    ∧ (freshFiles files).Pairwise (fun f g =>
      storedPathKey env input.destination f.storedComponents
        ≠ storedPathKey env input.destination g.storedComponents)
    ∧ ∀ f ∈ freshFiles files, ∃ key,
      storedPathKey env input.destination f.storedComponents = .ok key
        ∧ (∀ path ∈ input.pending, ∀ other, storedPathKey env path.1 path.2 = .ok other →
          key ≠ other ∧ key ∉ parentKeys other)
        ∧ (∀ name ∈ input.conflicts, ∀ other, storedNameKey env name = .ok other → key ≠ other)
        ∧ ∀ g ∈ freshFiles files, ∀ other,
          storedPathKey env input.destination g.storedComponents = .ok other →
          key ∉ parentKeys other
  := by
  obtain ⟨hclaims, hsound⟩ := startPrepare_sound hstart
  have hfinal : final.Sound env input.destination start.claimed
      (input.entries.map (·.1.displayPath)) :=
    Runs.run_invariant (fun _ _ _ hs => hs.step henv) hsound hrun
  obtain ⟨hpending, hconflicts, _⟩ := initialClaims_spec hclaims
  rw [Prepare.result] at hok
  split_ifs at hok with hdone
  have hdone' : ∀ worker ∈ final.workers, worker.todo = [] := by
    simpa using hdone
  cases hfailed : final.workers.findSome? PrepareWorker.failed with
  | some e =>
      simp only [hfailed] at hok
      cases hok
  | none =>
      simp only [hfailed] at hok
      cases hok
      rw [List.findSome?_eq_none_iff] at hfailed
      have hfiles : freshFiles (final.workers.flatMap PrepareWorker.files)
          = final.workers.flatMap (fun worker => freshFiles worker.files) := by
        rw [freshFiles, List.filter_flatMap]
        rfl
      have hfolders : ∀ f ∈ freshFiles (final.workers.flatMap PrepareWorker.files),
          FoldersTaken env input.destination start.claimed f.storedComponents := by
        intro f hf
        rw [hfiles] at hf
        obtain ⟨worker, hworker, hf⟩ := List.mem_flatMap.mp hf
        apply (hfinal.workers worker hworker).files f hf
      have hheld : Claims.Held start.claimed final.claimed
          ((freshFiles (final.workers.flatMap PrepareWorker.files)).map
            (PreparedFile.key env input.destination)) := by
        apply hfinal.held.sublist
        rw [hfiles, List.map_flatMap, Prepare.keys]
        apply List.Sublist.flatMap_right
        intro worker _
        apply List.sublist_append_right
      refine ⟨?_, ?_, ?_⟩
      · rcases hfinal.complete with ⟨worker, hworker, hne⟩ | ⟨_, hcomplete⟩
        · rw [hfailed worker hworker] at hne
          cases hne
        · rw [← hcomplete, List.map_flatMap]
          apply List.flatMap_congr
          intro worker hworker
          rw [PrepareWorker.paths, hdone' worker hworker, List.map_nil, List.append_nil]
      · have hnodup := hheld.nodup
        rw [List.Nodup, List.pairwise_map] at hnodup
        apply hnodup.imp
        intro f g hne he
        apply hne
        rw [PreparedFile.key, PreparedFile.key, he]
      · intro f hf
        obtain ⟨key, hkey, _⟩ := hfolders f hf
        have hnot : key ∉ start.claimed := by
          apply hheld.not_mem key
          rw [List.mem_map]
          refine ⟨f, hf, ?_⟩
          rw [PreparedFile.key, hkey]
        use key, hkey
        refine ⟨?_, ?_, ?_⟩
        · intro path hpath other hother
          obtain ⟨hmem, hparents⟩ := hpending path hpath other hother
          constructor
          · rintro rfl
            exact hnot hmem
          · intro hparent
            exact hnot (hparents key hparent)
        · intro name hname other hother
          rintro rfl
          exact hnot (hconflicts name hname key hother)
        · intro g hg other hother hparent
          obtain ⟨other', hother', hfolders'⟩ := hfolders g hg
          rw [hother] at hother'
          cases hother'
          exact hnot (hfolders' key hparent)

end Keys

/-- Unicode and manifests for names of small ASCII letters, digits and dots. -/
def plainPaths : PathEnv where
  nfc := id
  toFoldedCase := id
  portable := fun components =>
    if ∃ component ∈ components, '\x00' ∈ component then throw "ControlCharacter" else pure ()
  canonicalKey := fun name => some (utf8 name)

theorem plainPaths_lawful :
  plainPaths.Lawful
  := by
  constructor
  · intro name h
    apply h
  · intro name h
    apply h
  · intro components hok component hcomponent hnul
    rw [plainPaths] at hok
    dsimp only at hok
    rw [if_pos ⟨component, hcomponent, hnul⟩] at hok
    cases hok

/-- An upload of sixteen files, from `a.txt` on.  A conflicting file has the name of the first, and
an unfinished upload the one of the third. -/
def crowdedUpload : PrepareInput where
  destination := []
  entries := "abcdefghijklmnop".toList.map fun c =>
    (⟨[c :: ".txt".toList], List.cons_ne_nil _ _, ⟨1, [], 7⟩⟩, none)
  pending := [([], ["c.txt".toList])]
  conflicts := ["a.txt".toList]

/-- The workers prepare their files in turns, the first two of them under a second name. -/
def crowdedSteps : List (ℕ × PrepareStep) :=
  let turn (step : PrepareStep) := (List.range 8).map fun worker => (worker, step)
  let names := turn (.tryName (.ok ()))
  turn (.next true (.ok ())) ++ names ++ names.take 2 ++ turn (.create (.ok true))
    ++ turn (.next true (.ok ())) ++ names ++ turn (.create (.ok true))

/-- The workers come to their ends. -/
theorem crowdedUpload_run :
  (startPrepare plainPaths crowdedUpload).toOption.any (fun start =>
    (Runs.run (Prepare.step plainPaths []) start crowdedSteps).any fun final =>
      (final.result.bind Except.toOption).any fun files =>
        (files.take 3).map PreparedFile.storedComponents
          = [["a-1.txt".toList], ["b.txt".toList], ["c-1.txt".toList]]) = true
  := by decide +kernel

theorem prepareFiles_keys_conflict :
  ∃ start final files, startPrepare plainPaths crowdedUpload = .ok start
    ∧ Runs.run (Prepare.step plainPaths []) start crowdedSteps = some final
    ∧ final.result = some (.ok files)
    ∧ (files.take 3).map PreparedFile.storedComponents
      = [["a-1.txt".toList], ["b.txt".toList], ["c-1.txt".toList]]
    ∧ files.map PreparedFile.displayPath
      = crowdedUpload.entries.map (·.1.displayPath)
    ∧ (freshFiles files).Pairwise (fun f g =>
      storedPathKey plainPaths [] f.storedComponents
        ≠ storedPathKey plainPaths [] g.storedComponents)
    ∧ ∀ f ∈ freshFiles files, ∃ key, storedPathKey plainPaths [] f.storedComponents = .ok key
      ∧ ∀ path ∈ crowdedUpload.pending, ∀ other,
        storedPathKey plainPaths path.1 path.2 = .ok other → key ≠ other
  := by
  obtain ⟨start, hstart, hrest⟩ := (Option.any_eq_true ..).mp crowdedUpload_run
  obtain ⟨final, hrun, hrest⟩ := (Option.any_eq_true ..).mp hrest
  obtain ⟨files, hok, hnames⟩ := (Option.any_eq_true ..).mp hrest
  have hstart : startPrepare plainPaths crowdedUpload = .ok start := by
    cases hresult : startPrepare plainPaths crowdedUpload with
    | error e =>
        rw [hresult] at hstart
        cases hstart
    | ok result =>
        rw [hresult] at hstart
        cases hstart
        rfl
  have hok : final.result = some (.ok files) := by
    obtain ⟨answer, hanswer, hok⟩ := Option.bind_eq_some_iff.mp hok
    cases answer with
    | error e => cases hok
    | ok result =>
        cases hok
        exact hanswer
  obtain ⟨hpaths, hdistinct, hkeys⟩ := prepareFiles_keys plainPaths_lawful hstart hrun hok
  refine ⟨start, final, files, hstart, hrun, hok, of_decide_eq_true hnames, hpaths, hdistinct, ?_⟩
  intro f hf
  obtain ⟨key, hkey, hpending, _⟩ := hkeys f hf
  exact ⟨key, hkey, fun path hpath other hother => (hpending path hpath other hother).1⟩

end Votport
