import Votport.Protocol.Paths

/-!
# Staging files and admitted paths

At its start the port removes what an earlier run has left half written.  It knows these files by
their names, and no such name is admitted.  Admitted components that are joined stay under the
folder they are joined to.
-/

namespace Votport

/-! ### The sweep -/

/-- `is_staging_file`. -/
def isStagingFile (name : List Char) : Bool :=
  decide (".vot-".toList <+: toAsciiLowercase name
    ∧ (".stage".toList <:+ toAsciiLowercase name ∨ ".journal".toList <:+ toAsciiLowercase name))

/-- What a folder holds under a name.  A link is no folder and is not followed. -/
inductive DiskNode
  | file
  | dir (entries : List (List Char × DiskNode))

/-- There is a file at a path. -/
inductive HasFile : List (List Char × DiskNode) → List (List Char) → Prop
  | file {entries name} : (name, .file) ∈ entries → HasFile entries [name]
  | dir {entries name inner path} :
      (name, .dir inner) ∈ entries → HasFile inner path → HasFile entries (name :: path)

mutual

/-- The visit of `clean_staging`, and what `walk` finds in the folder. -/
def cleanNode (keep : List (List Char) → Bool) (path : List (List Char)) (name : List Char) :
    DiskNode → Option DiskNode
  | .file => if isStagingFile name && !keep path then none else some .file
  | .dir entries =>
      if isPushStagingName (toAsciiLowercase name) then
        if keep path then some (.dir entries) else none
      else some (.dir (cleanEntries keep path entries))

/-- `walk` in one folder. -/
def cleanEntries (keep : List (List Char) → Bool) (path : List (List Char)) :
    List (List Char × DiskNode) → List (List Char × DiskNode)
  | [] => []
  | (name, node) :: entries =>
      match cleanNode keep (path ++ [name]) name node with
      | none => cleanEntries keep path entries
      | some node => (name, node) :: cleanEntries keep path entries

end

/-- `clean_staging`, where `keep` has the files of sessions that go on. -/
def cleanStaging (keep : List (List Char) → Bool) (root : List (List Char × DiskNode)) :
    List (List Char × DiskNode) :=
  cleanEntries keep [] root

variable {env : PathEnv} {allowHidden : Bool} {component : List Char}
  {keep : List (List Char) → Bool} {path path' : List (List Char)}

/-- A name that the sweep knows is one of the port's own. -/
theorem isOwnName_of_swept
    (h : isStagingFile component = true ∨ isPushStagingName (toAsciiLowercase component) = true) :
  isOwnName (toAsciiLowercase component) = true
  := by
  rw [isOwnName, Bool.or_eq_true, Bool.or_eq_true]
  obtain h | h := h
  · exact Or.inr h
  · exact Or.inl (Or.inr h)

/-- What remains of an entry remains in its folder. -/
theorem mem_cleanEntries {entries : List (List Char × DiskNode)} {name : List Char}
    {node node' : DiskNode} (hmem : (name, node) ∈ entries)
    (hnode : cleanNode keep (path ++ [name]) name node = some node') :
  (name, node') ∈ cleanEntries keep path entries
  := by
  induction entries with
  | nil => cases hmem
  | cons entry entries ih =>
      obtain ⟨first, other⟩ := entry
      rw [cleanEntries]
      obtain heq | hmem := List.mem_cons.mp hmem
      · obtain ⟨rfl, rfl⟩ := Prod.mk.inj heq
        rw [hnode]
        exact List.mem_cons_self ..
      · split
        · exact ih hmem
        · exact List.mem_cons_of_mem _ (ih hmem)

/-- A file with admitted names is not swept. -/
theorem hasFile_cleanEntries {entries : List (List Char × DiskNode)}
    (hnames : ∀ name ∈ path', admitComponent env name allowHidden = .ok ())
    (h : HasFile entries path') :
  HasFile (cleanEntries keep path entries) path'
  := by
  have hkept : ∀ name ∈ path', isStagingFile name = false
      ∧ isPushStagingName (toAsciiLowercase name) = false := by
    intro name hname
    have hown := (admitComponent_ok (hnames name hname)).own
    have hnot := mt isOwnName_of_swept (by rw [hown]; exact Bool.false_ne_true)
    rw [not_or, Bool.not_eq_true, Bool.not_eq_true] at hnot
    exact hnot
  clear hnames
  induction h generalizing path with
  | @file entries name hmem =>
      have hstaging := (hkept name (List.mem_cons_self ..)).1
      refine .file (mem_cleanEntries hmem ?_)
      rw [cleanNode, hstaging]
      rfl
  | @dir entries name inner path' hmem _ ih =>
      have hstaging := (hkept name (List.mem_cons_self ..)).2
      have hnode : cleanNode keep (path ++ [name]) name (.dir inner)
          = some (.dir (cleanEntries keep (path ++ [name]) inner)) := by
        rw [cleanNode, hstaging]
        rfl
      exact .dir (mem_cleanEntries hmem hnode)
        (ih fun name hname => hkept name (List.mem_cons_of_mem _ hname))

/-! ### Joining -/

/-- A component of a path on the server. -/
inductive PathPart
  | rootDir
  | curDir
  | parentDir
  | normal (name : List Char)
deriving DecidableEq

/-- The component that a text between separators is. -/
def pathPart (text : List Char) : Option PathPart :=
  if text = [] ∨ text = ['.'] then none
  else if text = ['.', '.'] then some .parentDir
  else some (.normal text)

/-- `Path::components`. -/
def pathParts (path : List Char) : List PathPart :=
  (if path.head? = some '/' then [.rootDir]
    else if (path.splitOn '/').head? = some ['.'] then [.curDir] else [])
    ++ (path.splitOn '/').filterMap pathPart

/-- `PathBuf::push`. -/
def pushPath (path component : List Char) : List Char :=
  if component.head? = some '/' then component
  else if path = [] ∨ path.getLast? = some '/' then path ++ component
  else path ++ '/' :: component

/-- One component of `join_under`.  How a text is quoted in an error is a parameter. -/
def joinComponent (quoted : List Char → String) (path component : List Char) :
    Except String (List Char) := do
  Fallible.require (component ≠ [] ∧ component ≠ ['.'] ∧ component ≠ ['.', '.']
    ∧ '/' ∉ component ∧ '\\' ∉ component ∧ '\x00' ∉ component)
    ("unsafe path component " ++ quoted component)
  return pushPath path component

/-- `join_under`. -/
def joinUnder (quoted : List Char → String) (base : List Char) (components : List (List Char)) :
    Except String (List Char) :=
  components.foldlM (joinComponent quoted) base

variable {base text : List Char}

theorem pathParts_append_slash (hslash : '/' ∉ text) :
  pathParts (base ++ '/' :: text) = pathParts (base ++ ['/']) ++ [text].filterMap pathPart
  := by
  have hhead : (base ++ '/' :: text).head? = (base ++ ['/']).head? := by
    cases base with
    | nil => rfl
    | cons c base => rfl
  have hsplit : ∀ {text : List Char}, '/' ∉ text →
      (base ++ '/' :: text).splitOn '/' = base.splitOn '/' ++ [text] := by
    intro text hslash
    rw [List.splitOn_append_cons_self, List.splitOn_eq_singleton hslash]
  have hfirst : ∀ last : List (List Char),
      (base.splitOn '/' ++ last).head? = (base.splitOn '/').head? := by
    intro last
    exact List.head?_append_of_ne_nil _ (List.splitOn_ne_nil '/' base)
  have hnil : pathPart [] = none := rfl
  rw [pathParts, pathParts, hhead, hsplit hslash, hsplit (List.not_mem_nil), hfirst, hfirst,
    List.filterMap_append, List.filterMap_append, List.filterMap_cons_none hnil, List.filterMap_nil,
    List.append_nil, List.append_assoc]

/-- A separator at the end changes nothing. -/
theorem pathParts_append_end (hne : base ≠ []) :
  pathParts (base ++ ['/']) = pathParts base
  := by
  have hhead : (base ++ ['/']).head? = base.head? := List.head?_append_of_ne_nil _ hne
  have hsplit : (base ++ ['/']).splitOn '/' = base.splitOn '/' ++ [[]] := by
    rw [List.splitOn_append_cons_self, List.splitOn_nil]
  have hfirst : (base.splitOn '/' ++ [[]]).head? = (base.splitOn '/').head? :=
    List.head?_append_of_ne_nil _ (List.splitOn_ne_nil '/' base)
  have hnil : pathPart [] = none := rfl
  rw [pathParts, pathParts, hhead, hsplit, hfirst, List.filterMap_append,
    List.filterMap_cons_none hnil, List.filterMap_nil, List.append_nil]

/-- A component that is pushed comes last. -/
theorem pathParts_pushPath (hne : component ≠ []) (hdot : component ≠ ['.'])
    (hdots : component ≠ ['.', '.']) (hslash : '/' ∉ component) :
  pathParts (pushPath base component) = pathParts base ++ [.normal component]
  := by
  have hpart : [component].filterMap pathPart = [.normal component] := by
    rw [List.filterMap_cons_some (b := .normal component), List.filterMap_nil]
    rw [pathPart, if_neg (by simp [hne, hdot]), if_neg hdots]
  have hhead : component.head? ≠ some '/' := fun h => hslash (List.mem_of_mem_head? h)
  rw [pushPath, if_neg hhead]
  split
  · rename_i hend
    obtain rfl | hlast := hend
    · have hsplit : component.splitOn '/' = [component] := List.splitOn_eq_singleton hslash
      have hfirst : [component].head? ≠ some ['.'] := by simpa using hdot
      rw [List.nil_append, pathParts, if_neg hhead, hsplit, if_neg hfirst, hpart]
      rfl
    · obtain ⟨front, rfl⟩ := List.getLast?_eq_some_iff.mp hlast
      rw [List.append_assoc, List.singleton_append, pathParts_append_slash hslash, hpart]
  · rename_i hend
    rw [not_or] at hend
    rw [pathParts_append_slash hslash, pathParts_append_end hend.1, hpart]

theorem ne_dots_of_admitComponent (h : admitComponent env component allowHidden = .ok ()) :
  component ≠ ['.'] ∧ component ≠ ['.', '.']
  := by
  rw [← not_or]
  intro hdots
  rw [admitComponent] at h
  split at h
  · cases h
  · cases h

/-- An admitted component is pushed. -/
theorem joinComponent_ok (quoted : List Char → String) (base : List Char)
    (h : admitComponent env component allowHidden = .ok ()) :
  ∃ path, joinComponent quoted base component = .ok path
    ∧ pathParts path = pathParts base ++ [.normal component]
  := by
  have hadmitted := admitComponent_ok h
  obtain ⟨hdot, hdots⟩ := ne_dots_of_admitComponent h
  have hbackslash : '\\' ∉ component := by
    intro hmem
    have hrefused := hadmitted.characters _ hmem
    simp [isRefusedCharacter] at hrefused
  have hzero : '\x00' ∉ component := by
    intro hmem
    have hrefused := hadmitted.characters _ hmem
    simp [isRefusedCharacter] at hrefused
  refine ⟨pushPath base component, ?_, ?_⟩
  · exact Fallible.bind_eq_ok.mpr ⟨(), Fallible.require_eq_ok.mpr ⟨hadmitted.ne_nil, hdot, hdots,
      hadmitted.no_separator, hbackslash, hzero⟩, rfl⟩
  · exact pathParts_pushPath hadmitted.ne_nil hdot hdots hadmitted.no_separator

/-- Admitted components are joined one below the other. -/
theorem joinUnder_ok (quoted : List Char → String) (base : List Char) {components : List (List Char)}
    (h : ∀ component ∈ components, admitComponent env component allowHidden = .ok ()) :
  ∃ path, joinUnder quoted base components = .ok path
    ∧ pathParts path = pathParts base ++ components.map .normal
  := by
  induction components generalizing base with
  | nil => exact ⟨base, rfl, by rw [List.map_nil, List.append_nil]⟩
  | cons component components ih =>
      obtain ⟨next, hnext, hparts⟩ :=
        joinComponent_ok quoted base (h component (List.mem_cons_self ..))
      obtain ⟨path, hpath, hparts'⟩ :=
        ih next fun component hmem => h component (List.mem_cons_of_mem _ hmem)
      refine ⟨path, ?_, ?_⟩
      · rw [joinUnder, List.foldlM_cons, hnext]
        exact hpath
      · rw [hparts', hparts, List.append_assoc, List.map_cons]
        rfl

/-- The sweep takes no admitted name, whatever the case of its letters, and a path of admitted
components stays under its root with all its parents. -/
theorem swept_or_admitted (env : PathEnv) (allowHidden : Bool) :
  (∀ component, isStagingFile component = true
      ∨ isPushStagingName (toAsciiLowercase component) = true →
    admitComponent env component allowHidden ≠ .ok ())
  ∧ (∀ keep root path, (∀ name ∈ path, admitComponent env name allowHidden = .ok ()) →
      HasFile root path → HasFile (cleanStaging keep root) path)
  ∧ ∀ (quoted : List Char → String) (base : List Char) (components : List (List Char)),
      (∀ component ∈ components, admitComponent env component allowHidden = .ok ()) →
      ∃ path, joinUnder quoted base components = .ok path
        ∧ pathParts path = pathParts base ++ components.map .normal
        ∧ ∀ parent, parent <+: pathParts path → (pathParts base).length ≤ parent.length →
            ∃ below, parent = pathParts base ++ below
              ∧ ∀ part ∈ below, ∃ component ∈ components, part = .normal component
  := by
  refine ⟨?_, ?_, ?_⟩
  · intro component hswept hok
    have hown := (admitComponent_ok hok).own
    rw [isOwnName_of_swept hswept] at hown
    cases hown
  · intro keep root path hnames hfile
    exact hasFile_cleanEntries hnames hfile
  · intro quoted base components h
    obtain ⟨path, hpath, hparts⟩ := joinUnder_ok quoted base h
    refine ⟨path, hpath, hparts, ?_⟩
    intro parent hparent hlength
    rw [hparts] at hparent
    obtain ⟨below, rfl⟩ := List.prefix_of_prefix_length_le (List.prefix_append ..) hparent hlength
    refine ⟨below, rfl, ?_⟩
    intro part hpart
    have hbelow := (List.prefix_append_right_inj _).mp hparent
    obtain ⟨component, hcomponent, rfl⟩ := List.mem_map.mp (hbelow.subset hpart)
    exact ⟨component, hcomponent, rfl⟩

end Votport
