import Votport.Delivery.Tables
import Votport.Foundation.Fields
import Votport.Protocol.Paths
import Votport.Protocol.Portable

/-!
# Objects in a bucket

What a listing tells of an object, and which listed objects only mark a directory.
-/

namespace Votport.External

attribute [local instance] Fields.lawful_texts

/-- A name of a file of a delivery. -/
abbrev FileName := List Char

/-- What the crates for objects, manifests and documents compute. -/
structure BucketEnv extends ManifestEnv where
  /-- `object_store::path::Path::parse`. -/
  parsePath : List Char → Option (List Char)

/-- A path that is parsed as itself, like the location of every listed object. -/
abbrev ObjectPath (env : BucketEnv) := {key : List Char // env.parsePath key = some key}

/-- `ObjectMeta`. -/
structure ObjectMeta (env : BucketEnv) where
  location : ObjectPath env
  size : ℕ
  eTag : Option String
  version : Option String
deriving DecidableEq

/-- An object, as it can be read from a bucket. -/
structure StoredObject (env : BucketEnv) where
  location : ObjectPath env
  eTag : Option String
  version : Option String
  content : List UInt8
deriving DecidableEq

/-- What a listing tells of an object. -/
def StoredObject.meta {env : BucketEnv} (stored : StoredObject env) : ObjectMeta env where
  location := stored.location
  size := stored.content.length
  eTag := stored.eTag
  version := stored.version

/-! ### Directory markers -/

/-- The directories that a key lies in. -/
def directoryPrefixes (key : List Char) : List (List Char) :=
  (List.range key.length).filterMap fun at' =>
    if key[at']? = some '/' then some (key.take at') else none

/-- `skip_directory_markers`. -/
def skipDirectoryMarkers {env : BucketEnv} (listed : List (ObjectMeta env × FileName)) :
    List (ObjectMeta env × FileName) :=
  let empty := (listed.filter fun entry => decide (entry.1.size = 0)).map fun entry =>
    entry.1.location.1
  let markers := listed.flatMap fun entry =>
    (directoryPrefixes entry.1.location.1).filter fun key => decide (key ∈ empty)
  listed.filter fun entry => decide (entry.1.location.1 ∉ markers)

/-- A key of no bytes that some listed key lies below. -/
def IsMarker {env : BucketEnv} (listed : List (ObjectMeta env × FileName)) (key : List Char) :
    Prop :=
  (∃ entry ∈ listed, entry.1.size = 0 ∧ entry.1.location.1 = key)
    ∧ ∃ entry ∈ listed, key ++ ['/'] <+: entry.1.location.1

/-- The object is empty, and marks a directory that some listed key lies in. -/
def Marks {env : BucketEnv} (listed : List (ObjectMeta env × FileName))
    (entry : ObjectMeta env × FileName) : Prop :=
  entry.1.size = 0 ∧ ∃ other ∈ listed, entry.1.location.1 ++ ['/'] <+: other.1.location.1

/-- No object that has bytes is listed under the key of a marker. -/
def MarkersApart {env : BucketEnv} (listed : List (ObjectMeta env × FileName)) : Prop :=
  ∀ entry ∈ listed, entry.1.size ≠ 0 → ¬ IsMarker listed entry.1.location.1

variable {env : BucketEnv} {listed listed' : List (ObjectMeta env × FileName)}

theorem mem_directoryPrefixes {key directory : List Char} :
  directory ∈ directoryPrefixes key ↔ directory ++ ['/'] <+: key
  := by
  rw [directoryPrefixes, List.mem_filterMap]
  constructor
  · rintro ⟨i, hi, h⟩
    obtain ⟨hslash, h⟩ := Option.ite_none_right_eq_some.mp h
    cases h
    rw [List.mem_range] at hi
    have hget : key[i] = '/' := by
      rw [List.getElem?_eq_getElem hi] at hslash
      exact Option.some.inj hslash
    rw [← hget, List.take_append_getElem hi]
    exact List.take_prefix _ _
  · rintro ⟨rest, rfl⟩
    refine ⟨directory.length, ?_, ?_⟩
    · rw [List.mem_range, List.length_append, List.length_append]
      simp
      omega
    · rw [if_pos]
      · rw [List.append_assoc, List.take_left]
      · rw [List.append_assoc, List.getElem?_append_right le_rfl, Nat.sub_self]
        rfl

/-- What is left of a listing is what does not mark a directory. -/
theorem mem_skipDirectoryMarkers {entry : ObjectMeta env × FileName} :
  entry ∈ skipDirectoryMarkers listed
    ↔ entry ∈ listed ∧ ¬ IsMarker listed entry.1.location.1
  := by
  have hmarker : entry.1.location.1 ∈ listed.flatMap (fun other =>
        (directoryPrefixes other.1.location.1).filter fun key =>
          decide (key ∈ (listed.filter fun entry => decide (entry.1.size = 0)).map fun entry =>
            entry.1.location.1))
      ↔ IsMarker listed entry.1.location.1 := by
    simp only [List.mem_flatMap, List.mem_filter, mem_directoryPrefixes, List.mem_map,
      decide_eq_true_eq, IsMarker]
    constructor
    · rintro ⟨other, hother, hbelow, z, ⟨hz, hsize⟩, hkey⟩
      exact ⟨⟨z, hz, hsize, hkey⟩, other, hother, hbelow⟩
    · rintro ⟨⟨z, hz, hsize, hkey⟩, other, hother, hbelow⟩
      exact ⟨other, hother, hbelow, z, ⟨hz, hsize⟩, hkey⟩
  rw [skipDirectoryMarkers, List.mem_filter, decide_eq_true_eq, hmarker]

theorem Marks.isMarker {entry : ObjectMeta env × FileName} (hentry : entry ∈ listed)
    (h : Marks listed entry) :
  IsMarker listed entry.1.location.1
  := ⟨⟨entry, hentry, h.1, rfl⟩, h.2⟩

/-- Exactly the objects that mark a directory go when the keys of the markers are theirs alone. -/
theorem mem_skipDirectoryMarkers_iff :
  (∀ entry, entry ∈ skipDirectoryMarkers listed ↔ entry ∈ listed ∧ ¬ Marks listed entry)
    ↔ MarkersApart listed
  := by
  constructor
  · intro h entry hentry hsize hmarker
    have hkept := (h entry).mpr ⟨hentry, fun hmarks => hsize hmarks.1⟩
    exact (mem_skipDirectoryMarkers.mp hkept).2 hmarker
  · intro h entry
    rw [mem_skipDirectoryMarkers]
    apply and_congr_right
    intro hentry
    apply not_congr
    constructor
    · intro hmarker
      refine ⟨?_, hmarker.2⟩
      by_contra hsize
      exact h entry hentry hsize hmarker
    · exact fun hmarks => hmarks.isMarker hentry

/-- What is left keeps its order. -/
theorem skipDirectoryMarkers_sublist :
  (skipDirectoryMarkers listed).Sublist listed
  := List.filter_sublist

theorem IsMarker.perm {key : List Char} (h : IsMarker listed key) (hperm : listed.Perm listed') :
  IsMarker listed' key
  := by
  obtain ⟨⟨z, hz, hmark⟩, other, hother, hbelow⟩ := h
  exact ⟨⟨z, hperm.mem_iff.mp hz, hmark⟩, other, hperm.mem_iff.mp hother, hbelow⟩

/-- The order of the listing does not matter. -/
theorem skipDirectoryMarkers_perm (h : listed.Perm listed') :
  (skipDirectoryMarkers listed).Perm (skipDirectoryMarkers listed')
  := by
  classical
  have hfilter : ∀ l : List (ObjectMeta env × FileName),
      skipDirectoryMarkers l = l.filter fun entry =>
        decide (¬ IsMarker l entry.1.location.1) := by
    intro l
    apply List.filter_congr
    intro entry hentry
    have hmem : entry ∈ skipDirectoryMarkers l ↔ entry ∈ l ∧ ¬ IsMarker l entry.1.location.1 :=
      mem_skipDirectoryMarkers
    rw [skipDirectoryMarkers, List.mem_filter] at hmem
    have hiff := and_congr_right_iff.mp hmem hentry
    rw [Bool.eq_iff_iff, hiff, decide_eq_true_eq]
  rw [hfilter, hfilter]
  have hsame : ∀ key, IsMarker listed key ↔ IsMarker listed' key :=
    fun key => ⟨fun hkey => hkey.perm h, fun hkey => hkey.perm h.symm⟩
  simp only [hsame]
  exact h.filter _

end Votport.External
