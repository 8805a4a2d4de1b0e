import Votport.Delivery.Approval
import Votport.Foundation.Segments
import Votport.Protocol.Custody

/-!
# The directories of projects

The directories of a tenant's projects do not contain one another, and stay as they are, so
that a library path belongs to one project at most.  Containment compares names in form KC
and in upper case.  Where the library's own folding takes two names for one that differ in
this comparison, a path escapes the project of its directory.
-/

namespace Votport

variable {δ : Type} {env : DeliveryEnv δ} {w : DeliveryWorld δ}

/-! ### Containment -/

theorem within_iff (env : DeliveryEnv δ) (directory path : String) :
  within env directory path = true
    ↔ Segments.Above '/' (env.foldPath directory).toList (env.foldPath path).toList
  := by
  rw [within, Bool.or_eq_true, decide_eq_true_iff, beginsWith, List.isPrefixOf_iff_prefix,
    String.toList_append, Segments.Above, String.toList_inj]
  exact or_congr eq_comm Iff.rfl

/-- The path lies in the directory, or is it. -/
def IsAncestor (directory path : String) : Prop :=
  directory = path ∨ ∃ rest, path = directory ++ "/" ++ rest

/-- What the foldings of names do to separators: the comparison of containment folds the
segments of a path one by one, and names that the library takes for one have as many. -/
structure FoldsSegments (foldPath foldName : String → String) : Prop where
  join : ∀ head rest, foldPath (head ++ "/" ++ rest) = foldPath head ++ "/" ++ foldPath rest
  separators : ∀ name other, foldName name = foldName other →
    (foldPath name).toList.count '/' = (foldPath other).toList.count '/'

theorem FoldsSegments.above
    {foldPath foldName : String → String} (h : FoldsSegments foldPath foldName)
    {directory path : String} (hancestor : IsAncestor directory path) :
  Segments.Above '/' (foldPath directory).toList (foldPath path).toList
  := by
  rcases hancestor with rfl | ⟨rest, rfl⟩
  · exact Or.inl rfl
  · right
    rw [h.join, String.toList_append, String.toList_append]
    exact List.prefix_append _ _

/-- Containment tells the names that the library takes for one from the others exactly where
they are the same in form KC and in upper case. -/
theorem FoldsSegments.within_iff
    {foldName : String → String} (h : FoldsSegments env.foldPath foldName)
    (directory path : String) :
  ((∃ a, IsAncestor a path ∧ foldName a = foldName directory) → within env directory path = true)
    ↔ ∀ a, IsAncestor a path → foldName a = foldName directory →
        env.foldPath a = env.foldPath directory
  := by
  constructor
  · intro hcovers a hancestor hname
    have hdirectory := (Votport.within_iff env directory path).mp (hcovers ⟨a, hancestor, hname⟩)
    have hcount := h.separators a directory hname
    apply String.toList_inj.mp
    rcases hdirectory.comparable (h.above hancestor) with habove | habove
    · exact (habove.eq_of_count hcount).symm
    · exact habove.eq_of_count hcount.symm
  · rintro hsame ⟨a, hancestor, hname⟩
    rw [Votport.within_iff, ← hsame a hancestor hname]
    exact h.above hancestor

/-! ### The projects of a tenant -/

/-- The directories of a tenant's projects do not contain one another. -/
def Surroundings.Partitioned (env : DeliveryEnv δ) (tables : Surroundings) : Prop :=
  ∀ p ∈ tables.projects.rows, ∀ q ∈ tables.projects.rows, p.tenant = q.tenant →
    p.project.id ≠ q.project.id → ¬ p.project.overlaps env q.project

theorem Project.overlaps.symm {project other : Project} (h : project.overlaps env other) :
  other.overlaps env project
  := Or.symm h

theorem Surroundings.Partitioned.saveProject
    {db db' : DeliveryDb} {tenant : String} {project stored : Project}
    (h : db.toSurroundings.Partitioned env)
    (hsave : db.saveDeliveryProject env tenant project = .ok (stored, db')) :
  db'.toSurroundings.Partitioned env
  := by
  obtain ⟨_, _, hothers, rfl, rfl⟩ := DeliveryDb.saveProject_eq_ok hsave
  have hother : ∀ p ∈ db.projects.rows, p.tenant = tenant → p.project.id ≠ project.id →
      ¬ project.overlaps env p.project := by
    intro p hp htenant hid
    apply hothers p
    rw [Surroundings.otherProjects, List.mem_filter, decide_eq_true_iff]
    exact ⟨hp, htenant, hid⟩
  intro p hp q hq htenant hid
  rcases Table.mem_upsert.mp hp with rfl | ⟨hp, _⟩
  · rcases Table.mem_upsert.mp hq with rfl | ⟨hq, _⟩
    · exact absurd rfl hid
    · exact hother q hq htenant.symm hid.symm
  · rcases Table.mem_upsert.mp hq with rfl | ⟨hq, _⟩
    · intro hoverlaps
      exact hother p hp htenant hid hoverlaps.symm
    · exact h p hp q hq htenant hid

theorem Surroundings.Partitioned.step
    (h : w.db.rest.toSurroundings.Partitioned env) (op : DeliveryOp δ) :
  (w.step env op).db.rest.toSurroundings.Partitioned env
  := by
  rcases w.projects_step env op with hsame | ⟨tenant, project, rfl⟩
  · rw [Surroundings.Partitioned, hsame]
    exact h
  · dsimp only [DeliveryWorld.step]
    cases hsave : w.db.rest.saveDeliveryProject env tenant project with
    | error e => exact h
    | ok result => exact h.saveProject hsave

theorem Surroundings.Partitioned.run
    (h : w.db.rest.toSurroundings.Partitioned env) (ops : List (DeliveryOp δ)) :
  (w.run env ops).db.rest.toSurroundings.Partitioned env
  := by
  induction ops generalizing w with
  | nil => exact h
  | cons op ops ih => exact ih (h.step op)

/-- A path belongs to one project of a tenant at most. -/
theorem Surroundings.Partitioned.unique
    {tables : Surroundings} (h : tables.Partitioned env) {p q : ProjectRow}
    (hp : p ∈ tables.projects.rows) (hq : q ∈ tables.projects.rows) (htenant : p.tenant = q.tenant)
    {path : String} (hin : within env p.project.directory path = true)
    (hin' : within env q.project.directory path = true) :
  p = q
  := by
  by_contra hne
  have hid : p.project.id ≠ q.project.id := by
    intro hid
    exact hne (tables.projects.eq_of_key_eq hp hq (Prod.ext htenant hid))
  apply h p hp q hq htenant hid
  rw [within_iff] at hin hin'
  rw [Project.overlaps, within_iff, within_iff]
  exact (hin.comparable hin').symm

/-! ### Runs -/

/-- The projects of a port divide its library, and the paths that escape the comparison of
containment are those of names that it does not take for the directory's. -/
structure DeliveryWorld.Divides (env : DeliveryEnv δ) (foldName : String → String)
    (w : DeliveryWorld δ) : Prop where
  partitioned : w.db.rest.toSurroundings.Partitioned env
  unique : ∀ p ∈ w.db.rest.projects.rows, ∀ q ∈ w.db.rest.projects.rows, p.tenant = q.tenant →
    ∀ path, within env p.project.directory path = true →
      within env q.project.directory path = true → p = q
  directory : ∀ tenant id project, w.db.rest.projectIn tenant id = some project → ∀ later,
    ∃ project', (w.run env later).db.rest.projectIn tenant id = some project'
      ∧ project'.directory = project.directory
  /-- A path that the library takes for one of the directory is contained in it exactly where
  the names are the same in form KC and in upper case. -/
  covers : ∀ directory path,
    ((∃ a, IsAncestor a path ∧ foldName a = foldName directory) →
        within env directory path = true)
      ↔ ∀ a, IsAncestor a path → foldName a = foldName directory →
          env.foldPath a = env.foldPath directory

/-- The projects that are saved one after the other divide the library. -/
theorem projects_divide
    (env : DeliveryEnv δ) {foldName : String → String}
    (hfolds : FoldsSegments env.foldPath foldName) (tables : UploadDb δ Surroundings)
    (now : UInt64) (hnone : tables.rest.projects.rows = []) (ops : List (DeliveryOp δ)) :
  ((DeliveryWorld.begin tables now).run env ops).Divides env foldName
  := by
  have hbegin : (DeliveryWorld.begin tables now).db.rest.toSurroundings.Partitioned env := by
    intro p hp
    have hp : p ∈ tables.rest.projects.rows := hp
    rw [hnone] at hp
    cases hp
  have hpartitioned := hbegin.run ops
  constructor
  · exact hpartitioned
  · intro p hp q hq htenant path
    exact hpartitioned.unique hp hq htenant
  · intro tenant id project hproject later
    obtain ⟨project', hproject', hprecedes⟩ :=
      DeliveryWorld.projectIn_run env later hproject
    exact ⟨project', hproject', hprecedes.directory⟩
  · exact hfolds.within_iff

/-! ### A capital sharp s -/

/-- The letters of a name, each replaced by the letters that it folds to. -/
def foldLetters (fold : Char → List Char) (name : String) : String :=
  String.ofList (name.toList.flatMap fold)

theorem foldLetters_join (fold : Char → List Char) (hslash : fold '/' = ['/']) (head rest : String) :
  foldLetters fold (head ++ "/" ++ rest) = foldLetters fold head ++ "/" ++ foldLetters fold rest
  := by
  apply String.toList_inj.mp
  simp [foldLetters, hslash]

theorem count_foldLetters
    (fold : Char → List Char) (hfold : ∀ c, (fold c).count '/' = [c].count '/') (name : String) :
  (foldLetters fold name).toList.count '/' = name.toList.count '/'
  := by
  rw [foldLetters, String.toList_ofList]
  induction name.toList with
  | nil => rfl
  | cons c cs ih =>
      rw [List.flatMap_cons, List.count_append, ih, hfold, ← List.count_append,
        List.singleton_append]

/-- The upper case of ASCII letters and of `ß`.  These names are in form KC. -/
def upperLetter (c : Char) : List Char :=
  if c = 'ß' then ['S', 'S'] else if c.isLower then [c.toUpper] else [c]

/-- The full folding of ASCII letters and of both forms of the sharp s. -/
def foldLetter (c : Char) : List Char :=
  if c = 'ß' ∨ c = 'ẞ' then ['s', 's'] else if c.isUpper then [c.toLower] else [c]

theorem toUpper_ne_slash {c : Char} (h : c.isLower = true) :
  c.toUpper ≠ '/'
  := by
  intro heq
  rw [Char.isLower, Bool.and_eq_true, decide_eq_true_iff, decide_eq_true_iff] at h
  have hval := congrArg Char.val heq
  simp only [Char.toUpper, h, and_self, dif_pos] at hval
  have hletter : c.val = 79 := by grind
  rw [hletter] at h
  exact absurd h.1 (by decide)

theorem toLower_ne_slash {c : Char} (h : c.isUpper = true) :
  c.toLower ≠ '/'
  := by
  intro heq
  rw [Char.isUpper, decide_eq_true_iff] at h
  have hval := congrArg Char.val heq
  simp only [Char.toLower, h, and_self, dif_pos] at hval
  have hletter : c.val = 15 := by grind
  rw [hletter] at h
  exact absurd h.1 (by decide)

theorem count_upperLetter (c : Char) :
  (upperLetter c).count '/' = [c].count '/'
  := by
  rw [upperLetter]
  split_ifs with hsharp hlower
  · subst hsharp
    decide
  · have hne : c ≠ '/' := by
      rintro rfl
      exact absurd hlower (by decide)
    simp [hne, toUpper_ne_slash hlower]
  · rfl

theorem count_foldLetter (c : Char) :
  (foldLetter c).count '/' = [c].count '/'
  := by
  rw [foldLetter]
  split_ifs with hsharp hupper
  · rcases hsharp with rfl | rfl <;> decide
  · have hne : c ≠ '/' := by
      rintro rfl
      exact absurd hupper (by decide)
    simp [hne, toLower_ne_slash hupper]
  · rfl

theorem foldLetters_segments : FoldsSegments (foldLetters upperLetter) (foldLetters foldLetter) where
  join := foldLetters_join upperLetter (by decide)
  separators name other h := by
    have hcount := congrArg (fun s : String => s.toList.count '/') h
    rw [count_foldLetters _ count_foldLetter, count_foldLetters _ count_foldLetter] at hcount
    rw [count_foldLetters _ count_upperLetter, count_foldLetters _ count_upperLetter, hcount]

/-- An environment in which names are folded letter by letter. -/
def letterEnv : DeliveryEnv UploadRecord where
  toJson := id
  parseUpload := .ok
  parseEvents := fun _ => .ok ()
  statements := sampleStatementEnv
  publicHex := sampleKey 'c'
  sign := fun _ => sampleKey 'c' ++ sampleKey 'c'
  keys := ⟨id, id⟩
  foldPath := foldLetters upperLetter
  deviceKey := fun _ => true
  evidenceBytes := fun _ _ => 0

/-- The tables of a port without projects. -/
def emptyPort : UploadDb UploadRecord Surroundings where
  links := .empty
  uploads := .empty
  quota := ⟨.empty, .empty, []⟩
  sessions := .empty
  sessionFiles := .empty
  rest :=
    { tenants := [], projects := .empty, endpoints := [], linkStates := .empty
      receiveWorkflows := .empty, storages := .empty, tokens := .empty
      principals := ⟨.empty, .empty, none⟩ }

/-- A project of the directory `straẞe`. -/
def streetProject : Project where
  notificationRevision := 0
  notifications := none
  id := "street"
  revision := 0
  label := "Street"
  directory := "straẞe"
  members := ⟨[], Metadata.sorted_nil⟩
  recipients := []
  allowedDomains := []
  requireApproval := true
  requiredMetadata := []
  sequence := none
  media := none
  scanRequired := false
  destinations := []
  receive := false
  release := .localCopy

/-- A port after its project was saved. -/
def streetWorld : DeliveryWorld UploadRecord :=
  (DeliveryWorld.begin emptyPort 0).run letterEnv [.saveProject "" streetProject]

/-- The files of a directory that the library takes for the project's escape it: they may be
shared without a job. -/
theorem projects_divide_sharp_s :
  (∃ p ∈ streetWorld.db.rest.projects.rows, p.project.directory = "straẞe")
    ∧ (IsAncestor "strasse" "strasse/clip.mov"
      ∧ foldLetters foldLetter "strasse" = foldLetters foldLetter "straẞe")
    ∧ within letterEnv "straẞe" "strasse/clip.mov" = false
    ∧ checkGrantCreation letterEnv streetWorld.db
        ⟨"grant", "", "hash", "", "", 10, [⟨"strasse/clip.mov", "clip.mov", 1⟩]⟩ none = .ok ()
  := by
  refine ⟨?_, ⟨Or.inr ⟨"clip.mov", rfl⟩, ?_⟩, ?_, ?_⟩
  · decide
  · decide
  · decide
  · decide

theorem projects_divide_street :
  (∃ p ∈ streetWorld.db.rest.projects.rows, p.project.directory = "straẞe")
    ∧ streetWorld.Divides letterEnv (foldLetters foldLetter)
  := by
  constructor
  · decide
  · exact projects_divide letterEnv foldLetters_segments emptyPort 0 rfl _

end Votport
