import Mathlib.Data.Char
import Mathlib.Data.List.Lex
import Mathlib.Data.Prod.Lex
import Votport.Foundation.Newest
import Votport.Foundation.Table

/-!
# The cache of roots

The roots of files of a library are remembered by tenant and path, with the stamp of the file that
was read.  The entries are bounded in number, and they are kept in a file beside.  What that file
holds when a process starts is read entry by entry, and what cannot be read is left out.
-/

namespace Votport.Library

/-- What tells that a file has changed. -/
structure FileStamp where
  size : ℕ
  mtimeNanos : ℕ
  change : Option (ℕ × ℕ × ℤ × ℤ)
deriving DecidableEq, Repr

/-- The text of a path, which has no NUL. -/
abbrev PathText := {text : List Char // '\x00' ∉ text}

/-- `cache_key`. -/
def cacheKey (tenant : List Char) (path : PathText) : List Char := tenant ++ '\x00' :: path.1

/-- `RootCacheEntry`. -/
structure RootCacheEntry where
  tenant : List Char
  path : PathText
  stamp : FileStamp
  root : String
  cachedAt : ℕ
deriving DecidableEq

/-- The key of an entry. -/
def RootCacheEntry.key (entry : RootCacheEntry) : List Char := cacheKey entry.tenant entry.path

/-- The order in which entries are dropped. -/
def RootCacheEntry.order (entry : RootCacheEntry) : ℕ ×ₗ List Char :=
  toLex (entry.cachedAt, entry.key)

/-- `ROOT_CACHE_MAX_ENTRIES`. -/
def rootCacheMaxEntries : ℕ := 8192

/-- `ROOT_CACHE_MAX_AGE_SECS`. -/
def rootCacheMaxAgeSecs : ℕ := 30 * 24 * 60 * 60

/-- The entries by their keys. -/
abbrev RootEntries := Table RootCacheEntry.key

/-- `RootCacheState`. -/
structure RootCacheState where
  loaded : Bool
  dirty : Bool
  generation : UInt64
  entries : RootEntries

/-- `RootCacheState::default`. -/
def RootCacheState.new : RootCacheState := ⟨false, false, 0, Table.empty⟩

/-- The file beside: it is not there or cannot be read, or its document is a list of entries, of
which some cannot be read. -/
inductive Sidecar
  | unreadable
  | document (entries : List (Option RootCacheEntry))
deriving DecidableEq

/-- The entries of a document that are not too old. -/
def loadEntries (now : ℕ) (entries : List (Option RootCacheEntry)) : RootEntries :=
  (entries.take rootCacheMaxEntries).foldl (fun table entry =>
    match entry with
    | none => table
    | some entry => if entry.cachedAt < now - rootCacheMaxAgeSecs then table else table.upsert entry)
    Table.empty

/-- `ensure_loaded`. -/
def RootCacheState.ensureLoaded (state : RootCacheState) (sidecar : Sidecar) (now : ℕ) :
    RootCacheState :=
  if state.loaded = true then state
  else
    match sidecar with
    | .unreadable => { state with loaded := true }
    | .document entries => { state with loaded := true, entries := loadEntries now entries }

/-- `lookup`, when the entries are loaded. -/
def RootCacheState.lookup (state : RootCacheState) (tenant : List Char) (path : PathText)
    (stamp : FileStamp) : Option String :=
  ((state.entries.find? (cacheKey tenant path)).filter fun entry =>
    decide (entry.stamp = stamp)).map RootCacheEntry.root

/-- The entries that are dropped when there are too many. -/
def victims (rows : List RootCacheEntry) : List RootCacheEntry :=
  (rows.insertionSort fun a b => a.order ≤ b.order).take (rows.length / 8)

/-- The entries without the oldest eighth, when there are too many. -/
def evict (entries : RootEntries) : RootEntries :=
  if rootCacheMaxEntries < entries.rows.length then
    entries.filter fun entry => entry.key ∉ (victims entries.rows).map RootCacheEntry.key
  else entries

/-- `insert`, when the entries are loaded. -/
def RootCacheState.insert (state : RootCacheState) (entry : RootCacheEntry) : RootCacheState :=
  { state with
    entries := evict (state.entries.upsert entry)
    dirty := true
    generation := state.generation + 1 }

/-! ### Keys -/

theorem cacheKey_inj
    {tenant tenant' : List Char} {path path' : PathText}
    (h : cacheKey tenant path = cacheKey tenant' path') :
  tenant = tenant' ∧ path = path'
  := by
  rw [cacheKey, cacheKey, List.append_eq_append_iff] at h
  rcases h with ⟨middle, htenant, hrest⟩ | ⟨middle, htenant, hrest⟩
  · cases middle with
    | nil =>
        rw [List.nil_append, List.cons.injEq] at hrest
        exact ⟨by rw [htenant, List.append_nil], Subtype.ext hrest.2⟩
    | cons c middle =>
        rw [List.cons_append, List.cons.injEq] at hrest
        exact absurd (by rw [hrest.2]; simp) path.2
  · cases middle with
    | nil =>
        rw [List.nil_append, List.cons.injEq] at hrest
        exact ⟨by rw [htenant, List.append_nil], Subtype.ext hrest.2.symm⟩
    | cons c middle =>
        rw [List.cons_append, List.cons.injEq] at hrest
        exact absurd (by rw [hrest.2]; simp) path'.2

/-- What is found for a tenant and a path was put in for them, with the stamp. -/
theorem RootCacheState.lookup_eq_some
    {state : RootCacheState} {tenant : List Char} {path : PathText} {stamp : FileStamp}
    {root : String} (h : state.lookup tenant path stamp = some root) :
  ∃ entry ∈ state.entries.rows, entry.tenant = tenant ∧ entry.path = path ∧ entry.stamp = stamp
    ∧ entry.root = root
  := by
  obtain ⟨entry, hentry, rfl⟩ := Option.map_eq_some_iff.mp h
  obtain ⟨hfind, hstamp⟩ := Option.filter_eq_some_iff.mp hentry
  obtain ⟨hmem, hkey⟩ := Table.find?_eq_some.mp hfind
  obtain ⟨htenant, hpath⟩ := cacheKey_inj hkey
  exact ⟨entry, hmem, htenant, hpath, of_decide_eq_true hstamp, rfl⟩

theorem RootCacheState.lookup_of_fresh
    {state : RootCacheState} {tenant : List Char} {path : PathText} {stamp : FileStamp}
    (h : ∀ entry ∈ state.entries.rows, entry.key ≠ cacheKey tenant path) :
  state.lookup tenant path stamp = none
  := by
  rw [RootCacheState.lookup, Table.find?_eq_none.mpr h]
  rfl

theorem rows_upsert_of_fresh
    {entries : RootEntries} {entry : RootCacheEntry}
    (h : ∀ other ∈ entries.rows, other.key ≠ entry.key) :
  (entries.upsert entry).rows = entry :: entries.rows
  := by
  rw [Table.rows_upsert, Table.erase_of_absent (Table.find?_eq_none.mpr h)]

/-! ### Loading -/

theorem mem_loadEntries
    {now : ℕ} {entries : List (Option RootCacheEntry)} {entry : RootCacheEntry}
    (h : entry ∈ (loadEntries now entries).rows) :
  some entry ∈ entries
  := by
  have hfold : ∀ (l : List (Option RootCacheEntry)) (table : RootEntries),
      entry ∈ (l.foldl (fun table entry =>
        match entry with
        | none => table
        | some entry =>
            if entry.cachedAt < now - rootCacheMaxAgeSecs then table else table.upsert entry)
        table).rows → entry ∈ table.rows ∨ some entry ∈ l := by
    intro l
    induction l with
    | nil => exact fun table h => .inl h
    | cons first l ih =>
        intro table hmem
        rw [List.foldl_cons] at hmem
        rcases ih _ hmem with hmem | hmem
        · cases first with
          | none => exact .inl hmem
          | some first =>
              dsimp only at hmem
              split at hmem
              · exact .inl hmem
              · rcases Table.mem_upsert.mp hmem with rfl | ⟨hmem, _⟩
                · exact .inr (List.mem_cons_self ..)
                · exact .inl hmem
        · exact .inr (List.mem_cons_of_mem _ hmem)
  rcases hfold _ _ h with h | h
  · cases h
  · exact List.mem_of_mem_take h

theorem length_upsert_le (table : RootEntries) (entry : RootCacheEntry) :
  (table.upsert entry).rows.length ≤ table.rows.length + 1
  := by
  rw [Table.rows_upsert, List.length_cons]
  exact Nat.succ_le_succ (List.length_filter_le _ _)

theorem length_loadEntries_le (now : ℕ) (entries : List (Option RootCacheEntry)) :
  (loadEntries now entries).rows.length ≤ rootCacheMaxEntries
  := by
  have hfold : ∀ (l : List (Option RootCacheEntry)) (table : RootEntries),
      (l.foldl (fun table entry =>
        match entry with
        | none => table
        | some entry =>
            if entry.cachedAt < now - rootCacheMaxAgeSecs then table else table.upsert entry)
        table).rows.length ≤ table.rows.length + l.length := by
    intro l
    induction l with
    | nil => exact fun table => le_rfl
    | cons first l ih =>
        intro table
        rw [List.foldl_cons, List.length_cons]
        refine (ih _).trans ?_
        cases first with
        | none =>
            dsimp only
            omega
        | some first =>
            dsimp only
            split
            · omega
            · have hle := length_upsert_le table first
              omega
  have hle := hfold (entries.take rootCacheMaxEntries) Table.empty
  rw [Table.rows_empty, List.length_nil, Nat.zero_add] at hle
  exact hle.trans (List.length_take_le _ _)

/-! ### Eviction -/

variable {entries : RootEntries} {entry : RootCacheEntry} {rows : List RootCacheEntry}

theorem sorted_victims (h : (rows.map RootCacheEntry.key).Nodup) :
  (rows.insertionSort fun a b => a.order ≤ b.order).Pairwise fun a b => a.order < b.order
  := by
  have htotal : Std.Total fun a b : RootCacheEntry => a.order ≤ b.order :=
    ⟨fun a b => le_total a.order b.order⟩
  have htrans : IsTrans RootCacheEntry fun a b => a.order ≤ b.order :=
    ⟨fun _ _ _ hab hbc => hab.trans hbc⟩
  have hsorted := List.pairwise_insertionSort
    (fun a b : RootCacheEntry => a.order ≤ b.order) rows
  have hkeys : (rows.insertionSort fun a b => a.order ≤ b.order).Pairwise
      fun a b => a.key ≠ b.key := by
    have hperm := List.perm_insertionSort (fun a b : RootCacheEntry => a.order ≤ b.order) rows
    exact List.pairwise_map.mp ((hperm.map RootCacheEntry.key).nodup_iff.mpr h)
  refine (hsorted.and hkeys).imp ?_
  rintro a b ⟨hle, hne⟩
  refine lt_of_le_of_ne hle ?_
  intro heq
  exact hne (Prod.ext_iff.mp heq).2

/-- An entry is dropped exactly when fewer than an eighth of the entries come before it. -/
theorem mem_victims (h : (rows.map RootCacheEntry.key).Nodup) (hmem : entry ∈ rows) :
  entry ∈ victims rows
    ↔ rows.countP (fun other => decide (other.order < entry.order)) < rows.length / 8
  := by
  have hperm := List.perm_insertionSort (fun a b : RootCacheEntry => a.order ≤ b.order) rows
  have hsorted := sorted_victims h
  rw [← hperm.countP_eq]
  constructor
  · intro hvictim
    obtain ⟨i, hi⟩ := List.getElem?_of_mem hvictim
    rw [victims, List.getElem?_take] at hi
    split at hi
    · rename_i hlt
      rwa [Newest.countP_lt_of_pairwise hsorted hi]
    · cases hi
  · intro hlt
    obtain ⟨i, hi⟩ := List.getElem?_of_mem (hperm.mem_iff.mpr hmem)
    rw [Newest.countP_lt_of_pairwise hsorted hi] at hlt
    apply List.mem_of_getElem? (i := i)
    rw [victims, List.getElem?_take, if_pos hlt, hi]

/-- Among entries with different keys, those that are dropped are dropped by their keys. -/
theorem key_mem_victims (hmem : entry ∈ entries.rows) :
  entry.key ∈ (victims entries.rows).map RootCacheEntry.key ↔ entry ∈ victims entries.rows
  := by
  constructor
  · intro hkey
    obtain ⟨other, hother, hsame⟩ := List.mem_map.mp hkey
    have hperm := List.perm_insertionSort
      (fun a b : RootCacheEntry => a.order ≤ b.order) entries.rows
    rwa [← entries.eq_of_key_eq (hperm.mem_iff.mp (List.mem_of_mem_take hother)) hmem hsame]
  · exact List.mem_map_of_mem

theorem mem_evict (h : entry ∈ (evict entries).rows) :
  entry ∈ entries.rows
  := by
  rw [evict] at h
  split at h
  · exact (Table.mem_filter.mp h).1
  · exact h

/-- An entry survives exactly when there are not too many, or at least an eighth come before. -/
theorem mem_evict_iff (hmem : entry ∈ entries.rows) :
  entry ∈ (evict entries).rows
    ↔ entries.rows.length ≤ rootCacheMaxEntries
      ∨ entries.rows.length / 8
        ≤ entries.rows.countP fun other => decide (other.order < entry.order)
  := by
  rw [evict]
  split
  · rename_i hmany
    rw [Table.mem_filter, key_mem_victims hmem, mem_victims entries.nodup hmem, not_lt]
    constructor
    · exact fun h => .inr h.2
    · exact fun h => ⟨hmem, h.resolve_left (Nat.not_le.mpr hmany)⟩
  · rename_i hfew
    exact ⟨fun _ => .inl (Nat.not_lt.mp hfew), fun _ => hmem⟩

theorem length_evict_le (h : entries.rows.length ≤ rootCacheMaxEntries + 1) :
  (evict entries).rows.length ≤ rootCacheMaxEntries
  := by
  rw [evict]
  split
  · rename_i hmany
    have hperm := List.perm_insertionSort
      (fun a b : RootCacheEntry => a.order ≤ b.order) entries.rows
    have hsubset : (entries.filter fun entry =>
          entry.key ∉ (victims entries.rows).map RootCacheEntry.key).rows
        ⊆ (entries.rows.insertionSort fun a b => a.order ≤ b.order).drop
          (entries.rows.length / 8) := by
      intro entry hentry
      obtain ⟨hmem, hkept⟩ := Table.mem_filter.mp hentry
      rw [key_mem_victims hmem] at hkept
      have hsorted := hperm.mem_iff.mpr hmem
      rw [← List.take_append_drop (entries.rows.length / 8)
        (entries.rows.insertionSort fun a b => a.order ≤ b.order)] at hsorted
      exact (List.mem_append.mp hsorted).resolve_left hkept
    have hnodup : (entries.filter fun entry =>
        entry.key ∉ (victims entries.rows).map RootCacheEntry.key).rows.Nodup :=
      List.Nodup.of_map _ (Table.nodup _)
    have hle := (List.subperm_of_subset hnodup hsubset).length_le
    rw [List.length_drop, List.length_insertionSort] at hle
    rw [rootCacheMaxEntries] at *
    omega
  · rename_i hfew
    exact Nat.not_lt.mp hfew

end Votport.Library
