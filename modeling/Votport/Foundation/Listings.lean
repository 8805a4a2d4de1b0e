import Mathlib

/-!
# Trees of folders

A folder is listed entry by entry.  A process may be refused the listing, or it may fail on the way,
so what the tree holds and what can be read of it are two things.  A path is the list of the names
that lead to it, or these joined with a separator.
-/

namespace Listings

/-! ### Paths -/

section Paths

variable {α : Type*} {sep : α} {p q : List (List α)} {n : List α}

/-- A path as one list. -/
def join (sep : α) (path : List (List α)) : List α := [sep].intercalate path

/-- A name is not empty and has no separator. -/
def IsName (sep : α) (n : List α) : Prop := n ≠ [] ∧ sep ∉ n

instance [DecidableEq α] (sep : α) (n : List α) : Decidable (IsName sep n) :=
  inferInstanceAs (Decidable (_ ∧ _))

theorem join_cons (n : List α) (h : p ≠ []) :
  join sep (n :: p) = n ++ sep :: join sep p
  := by
  cases p with
  | nil => contradiction
  | cons m p => simp [join, List.intercalate_cons_cons]

theorem join_append (hp : p ≠ []) (hq : q ≠ []) :
  join sep (p ++ q) = join sep p ++ sep :: join sep q
  := by
  induction p with
  | nil => contradiction
  | cons n p ih =>
      by_cases h : p = []
      · subst h
        simpa [join] using join_cons n hq
      · rw [List.cons_append, join_cons n (by simp [h]), join_cons n h, ih h]
        simp

theorem join_ne_nil (hp : p ≠ []) (h : ∀ n ∈ p, IsName sep n) :
  join sep p ≠ []
  := by
  cases p with
  | nil => contradiction
  | cons n p =>
      have hn := (h n (List.mem_cons_self ..)).1
      by_cases hp : p = []
      · subst hp
        simpa [join] using hn
      · rw [join_cons n hp]
        simp

/-- A path is found again in what it is joined to. -/
theorem splitOn_join [DecidableEq α] (hp : p ≠ []) (h : ∀ n ∈ p, IsName sep n) :
  (join sep p).splitOn sep = p
  := by
  exact List.splitOn_intercalate sep (fun n hn => (h n hn).2) hp

theorem join_splitOn [DecidableEq α] (sep : α) (path : List α) :
  join sep (path.splitOn sep) = path
  := by
  exact List.intercalate_splitOn sep

/-- What begins with a path and a separator leads on from the path. -/
theorem join_prefix_iff [DecidableEq α] (hp : p ≠ []) (h : ∀ n ∈ p, IsName sep n)
    (path : List α) :
  join sep p ++ [sep] <+: path ↔ ∃ rest, rest ≠ [] ∧ path.splitOn sep = p ++ rest
  := by
  constructor
  · rintro ⟨rest, rfl⟩
    refine ⟨rest.splitOn sep, List.splitOn_ne_nil sep rest, ?_⟩
    rw [List.append_assoc, List.singleton_append, List.splitOn_append_cons_self,
      splitOn_join hp h]
  · rintro ⟨rest, hrest, hsplit⟩
    rw [← join_splitOn sep path, hsplit, join_append hp hrest]
    exact ⟨join sep rest, by simp⟩

end Paths

/-! ### Trees -/

section Trees

variable {ν : Type*}

/-- What a process may do with a folder: list it, not open it, not list it, or neither because of
a failure. -/
inductive Access
  | granted
  | closed
  | denied
  | failed
deriving DecidableEq, Repr

/-- A folder, entry by entry.  Reading breaks where it says so; what an entry is may stay unknown;
an entry without a name has one that is no text. -/
inductive Listing (ν : Type*)
  | done
  | broken (rest : Listing ν)
  | file (name : Option ν) (rest : Listing ν)
  | other (name : Option ν) (rest : Listing ν)
  | unknown (name : Option ν) (rest : Listing ν)
  | folder (name : Option ν) (access : Access) (contents rest : Listing ν)
deriving Repr

namespace Listing

/-- There is a regular file at the path. -/
def Holds : Listing ν → List ν → Prop
  | done, _ => False
  | broken rest, path => rest.Holds path
  | file name rest, path => (∃ n, name = some n ∧ path = [n]) ∨ rest.Holds path
  | other _ rest, path => rest.Holds path
  | unknown _ rest, path => rest.Holds path
  | folder name _ contents rest, path =>
      (∃ n below, name = some n ∧ path = n :: below ∧ contents.Holds below) ∨ rest.Holds path

/-- There is a folder at the path that may not be listed. -/
def Barred : Listing ν → List ν → Prop
  | done, _ => False
  | broken rest, path => rest.Barred path
  | file _ rest, path => rest.Barred path
  | other _ rest, path => rest.Barred path
  | unknown _ rest, path => rest.Barred path
  | folder name access contents rest, path =>
      (∃ n, name = some n ∧ path = [n] ∧ (access = .closed ∨ access = .denied))
        ∨ (∃ n below, name = some n ∧ path = n :: below ∧ contents.Barred below)
        ∨ rest.Barred path

variable (skipFolder skipFile : ν → Bool)

/-- A walk goes into the folder, or notes that it may not. -/
def enters : Option ν → Bool
  | none => false
  | some name => !skipFolder name

/-- The files that a walk comes to, by their paths. -/
def files : Listing ν → List (List ν)
  | done => []
  | broken _ => []
  | file name rest =>
      (name.toList.flatMap fun n => if skipFile n = true then [] else [[n]]) ++ rest.files
  | other _ rest => rest.files
  | unknown _ rest => rest.files
  | folder name access contents rest =>
      (name.toList.flatMap fun n =>
        if skipFolder n = true ∨ access ≠ .granted then [] else contents.files.map (n :: ·))
          ++ rest.files

/-- The folders that a walk notes because it may not list them, by their paths. -/
def barred : Listing ν → List (List ν)
  | done => []
  | broken _ => []
  | file _ rest => rest.barred
  | other _ rest => rest.barred
  | unknown _ rest => rest.barred
  | folder name access contents rest =>
      (name.toList.flatMap fun n =>
        if skipFolder n = true then []
        else if access = .granted then contents.barred.map (n :: ·)
        else if access = .failed then [] else [[n]]) ++ rest.barred

/-- The number of entries that a walk looks at. -/
def entries : Listing ν → ℕ
  | done => 0
  | broken _ => 0
  | file _ rest => rest.entries + 1
  | other _ rest => rest.entries + 1
  | unknown _ rest => rest.entries + 1
  | folder name access contents rest =>
      (if enters skipFolder name = true ∧ access = .granted then contents.entries else 0)
        + rest.entries + 1

/-- Nothing fails on a walk. -/
def Readable : Listing ν → Prop
  | done => True
  | broken _ => False
  | file _ rest => rest.Readable
  | other _ rest => rest.Readable
  | unknown _ _ => False
  | folder name access contents rest =>
      (enters skipFolder name = true →
        access ≠ .failed ∧ (access = .granted → contents.Readable)) ∧ rest.Readable

variable {skipFolder skipFile} {listing : Listing ν} {path : List ν}

theorem not_holds_nil :
  ¬ listing.Holds []
  := by
  induction listing with
  | done => exact id
  | broken rest ih => exact ih
  | file name rest ih => simpa [Holds] using ih
  | other name rest ih => exact ih
  | unknown name rest ih => exact ih
  | folder name access contents rest _ ih => simpa [Holds] using ih

theorem not_barred_nil :
  ¬ listing.Barred []
  := by
  induction listing with
  | done => exact id
  | broken rest ih => exact ih
  | file name rest ih => exact ih
  | other name rest ih => exact ih
  | unknown name rest ih => exact ih
  | folder name access contents rest _ ih => simpa [Barred] using ih

/-- A walk comes to files that are there. -/
theorem holds_of_mem_files (h : path ∈ listing.files skipFolder skipFile) :
  listing.Holds path
  := by
  induction listing generalizing path with
  | done => simp [files] at h
  | broken rest ih => simp [files] at h
  | file name rest ih =>
      rw [files, List.mem_append] at h
      rcases h with h | h
      · obtain ⟨n, hn, hpath⟩ := List.mem_flatMap.mp h
        split at hpath
        · simp at hpath
        · exact .inl ⟨n, by simpa using hn, by simpa using hpath⟩
      · exact .inr (ih h)
  | other name rest ih => exact ih h
  | unknown name rest ih => exact ih h
  | folder name access contents rest ihc ihr =>
      rw [files, List.mem_append] at h
      rcases h with h | h
      · obtain ⟨n, hn, hpath⟩ := List.mem_flatMap.mp h
        split at hpath
        · simp at hpath
        · obtain ⟨below, hbelow, rfl⟩ := List.mem_map.mp hpath
          exact .inl ⟨n, below, by simpa using hn, rfl, ihc hbelow⟩
      · exact .inr (ihr h)

/-- A walk notes folders that may not be listed. -/
theorem barred_of_mem_barred (h : path ∈ listing.barred skipFolder) :
  listing.Barred path
  := by
  induction listing generalizing path with
  | done => simp [barred] at h
  | broken rest ih => simp [barred] at h
  | file name rest ih => exact ih h
  | other name rest ih => exact ih h
  | unknown name rest ih => exact ih h
  | folder name access contents rest ihc ihr =>
      rw [barred, List.mem_append] at h
      rcases h with h | h
      · obtain ⟨n, hn, hpath⟩ := List.mem_flatMap.mp h
        have hname : name = some n := by simpa using hn
        cases access with
        | granted =>
            split at hpath
            · simp at hpath
            · obtain ⟨below, hbelow, rfl⟩ := List.mem_map.mp hpath
              exact .inr (.inl ⟨n, below, hname, rfl, ihc hbelow⟩)
        | closed =>
            split at hpath
            · simp at hpath
            · exact .inl ⟨n, hname, by simpa using hpath, .inl rfl⟩
        | denied =>
            split at hpath
            · simp at hpath
            · exact .inl ⟨n, hname, by simpa using hpath, .inr rfl⟩
        | failed => simp at hpath
      · exact .inr (.inr (ihr h))

/-- Where nothing fails, a walk comes to every file of which neither the name nor a folder is
skipped, or notes a folder above it. -/
theorem mem_files_or_barred
    (hread : listing.Readable skipFolder) (hholds : listing.Holds path)
    (hfolders : ∀ n ∈ path.dropLast, skipFolder n = false)
    (hfile : ∀ n ∈ path.getLast?, skipFile n = false) :
  path ∈ listing.files skipFolder skipFile
    ∨ ∃ p rest, rest ≠ [] ∧ path = p ++ rest ∧ p ∈ listing.barred skipFolder
  := by
  induction listing generalizing path with
  | done => exact hholds.elim
  | broken rest ih => exact hread.elim
  | file name rest ih =>
      rcases hholds with ⟨n, rfl, rfl⟩ | hholds
      · left
        rw [files, List.mem_append]
        left
        simp [hfile n rfl]
      · rcases ih hread hholds hfolders hfile with h | ⟨p, below, hbelow, hpath, h⟩
        · exact .inl (List.mem_append_right _ h)
        · exact .inr ⟨p, below, hbelow, hpath, h⟩
  | other name rest ih => exact ih hread hholds hfolders hfile
  | unknown name rest ih => exact hread.elim
  | folder name access contents rest ihc ihr =>
      rcases hholds with ⟨n, below, rfl, rfl, hholds⟩ | hholds
      · have hne : below ≠ [] := by
          rintro rfl
          exact not_holds_nil hholds
        rw [List.dropLast_cons_of_ne_nil hne] at hfolders
        rw [List.getLast?_cons_of_ne_nil hne] at hfile
        have hn : skipFolder n = false := hfolders n (List.mem_cons_self ..)
        obtain ⟨hfailed, hcontents⟩ := hread.1 (by simp [enters, hn])
        cases access with
        | granted =>
            have hinside : ∀ m ∈ below.dropLast, skipFolder m = false :=
              fun m hm => hfolders m (List.mem_cons_of_mem _ hm)
            rcases ihc (hcontents rfl) hholds hinside hfile with h | ⟨p, after, hafter, hpath, h⟩
            · left
              rw [files, List.mem_append]
              left
              simpa [hn] using h
            · right
              refine ⟨n :: p, after, hafter, by rw [hpath]; rfl, ?_⟩
              rw [barred, List.mem_append]
              left
              simpa [hn] using h
        | closed | denied =>
            right
            refine ⟨[n], below, hne, rfl, ?_⟩
            rw [barred, List.mem_append]
            left
            simp [hn]
        | failed => exact absurd rfl hfailed
      · rcases ihr hread.2 hholds hfolders hfile with h | ⟨p, below, hbelow, hpath, h⟩
        · exact .inl (List.mem_append_right _ h)
        · exact .inr ⟨p, below, hbelow, hpath, List.mem_append_right _ h⟩

/-- Where nothing fails, a walk notes a folder that may not be listed, or one above it, when none
of them is skipped. -/
theorem exists_barred_prefix
    (hread : listing.Readable skipFolder) (hbarred : listing.Barred path)
    (hfolders : ∀ n ∈ path, skipFolder n = false) :
  ∃ p rest, path = p ++ rest ∧ p ∈ listing.barred skipFolder
  := by
  induction listing generalizing path with
  | done => exact hbarred.elim
  | broken rest ih => exact hread.elim
  | file name rest ih => exact ih hread hbarred hfolders
  | other name rest ih => exact ih hread hbarred hfolders
  | unknown name rest ih => exact hread.elim
  | folder name access contents rest ihc ihr =>
      rcases hbarred with ⟨n, rfl, rfl, haccess⟩ | ⟨n, below, rfl, rfl, hbarred⟩ | hbarred
      · refine ⟨[n], [], rfl, ?_⟩
        rw [barred, List.mem_append]
        left
        rcases haccess with rfl | rfl <;> simp [hfolders n (List.mem_singleton_self n)]
      · have hn : skipFolder n = false := hfolders n (List.mem_cons_self ..)
        obtain ⟨hfailed, hcontents⟩ := hread.1 (by simp [enters, hn])
        cases access with
        | granted =>
            have hinside : ∀ m ∈ below, skipFolder m = false :=
              fun m hm => hfolders m (List.mem_cons_of_mem _ hm)
            obtain ⟨p, after, hpath, h⟩ := ihc (hcontents rfl) hbarred hinside
            refine ⟨n :: p, after, by rw [hpath]; rfl, ?_⟩
            rw [barred, List.mem_append]
            left
            simpa [hn] using h
        | closed | denied =>
            refine ⟨[n], below, rfl, ?_⟩
            rw [barred, List.mem_append]
            left
            simp [hn]
        | failed => exact absurd rfl hfailed
      · obtain ⟨p, after, hpath, h⟩ := ihr hread.2 hbarred hfolders
        exact ⟨p, after, hpath, List.mem_append_right _ h⟩

end Listing

end Trees

end Listings
