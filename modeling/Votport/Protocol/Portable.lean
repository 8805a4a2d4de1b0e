import Mathlib.Data.List.Lex
import Mathlib.Data.List.Sort
import Mathlib.Data.UInt
import Votport.Session.StoredPaths

/-!
# Names that stay distinct

The names of a delivery are admitted together.  Each has the key of the portable profile, folded
once more, and no key may be another or lead to another.  So admitted names are distinct, also on a
file system that takes some names for the same.
-/

namespace Votport

/-- What the crate for manifests computes of whole paths. -/
structure ManifestEnv extends PathEnv where
  /-- `canonical_path_key` of a portable path. -/
  canonicalPathKey : List (List Char) → Option (List UInt8)
  /-- `is_path_prefix`. -/
  isPathPrefix : List UInt8 → List UInt8 → Bool

/-- `fold_name`. -/
def foldName (env : PathEnv) (name : List Char) : List Char := env.nfc (env.toFoldedCase name)

/-- `String::from_utf8`. -/
def fromUtf8 (bytes : List UInt8) : Option (List Char) :=
  (String.fromUTF8? ⟨bytes.toArray⟩).map String.toList

theorem fromUtf8_utf8 (text : List Char) :
  fromUtf8 (utf8 text) = some text
  := by
  have hbytes : (⟨(utf8 text).toArray⟩ : ByteArray) = (String.ofList text).toByteArray := by
    rw [String.toByteArray_ofList]
    apply ByteArray.ext
    simp [List.utf8Encode, utf8]
  unfold fromUtf8 String.fromUTF8?
  rw [hbytes, dif_pos (String.ofList text).isValidUTF8]
  exact congrArg some (String.toList_ofList ..)

/-- A text of characters with one byte has as many bytes. -/
theorem length_utf8 {text : List Char} (h : ∀ c ∈ text, (String.utf8EncodeChar c).length = 1) :
  (utf8 text).length = text.length
  := by
  rw [utf8, List.length_flatMap, List.map_congr_left h, List.map_const', List.sum_replicate_nat,
    Nat.mul_one]

/-- `admit_portable_path`. -/
def admitPortablePath (env : PathEnv) (name : List Char) : Except String Unit := do
  Fallible.require (¬ (name.splitOn '/').any (isReceiptName env) = true)
    "filename is reserved for signed receipts; rename it before sharing"
  (env.portable (name.splitOn '/')).mapError fun _ =>
    "filename is not portable; rename it before sharing"

/-- The folded key of a name. -/
def foldedKey (env : ManifestEnv) (name : List Char) : Except String (List UInt8) := do
  checkPayloadNameLength ((name.splitOn '/').getLastD [])
  admitPortablePath env.toPathEnv name
  let key ← Fallible.present (env.canonicalPathKey (name.splitOn '/'))
    "filename is not portable; rename it before sharing"
  let key ← Fallible.present (fromUtf8 key) "filename is not portable; rename it before sharing"
  return utf8 (foldName env.toPathEnv key)

/-- The order of the bytes. -/
def bytesLe (key key' : List UInt8) : Prop := key.map UInt8.toNat ≤ key'.map UInt8.toNat

instance : DecidableRel bytesLe :=
  fun key key' => inferInstanceAs (Decidable (key.map UInt8.toNat ≤ key'.map UInt8.toNat))

/-- Two keys beside each other that cannot both be kept. -/
def collide (env : ManifestEnv) (key key' : List UInt8) : Bool :=
  decide (key = key') || env.isPathPrefix key key'

/-- `admit_portable_paths`. -/
def admitPortablePaths (env : ManifestEnv) (names : List (List Char)) : Except String Unit := do
  let keys ← names.mapM (foldedKey env)
  let sorted := keys.insertionSort bytesLe
  Fallible.require (¬ (sorted.zip sorted.tail).any (fun pair => collide env pair.1 pair.2) = true)
    "filenames collide on recipient filesystems; rename one before sharing"

/-! ### What admission leaves -/

variable {env : ManifestEnv} {names : List (List Char)}

instance : Std.Total bytesLe :=
  ⟨fun key key' => le_total (key.map UInt8.toNat) (key'.map UInt8.toNat)⟩

instance : IsTrans (List UInt8) bytesLe :=
  ⟨fun _ _ _ hle hle' => le_trans (α := List ℕ) hle hle'⟩

theorem bytesLe_antisymm {key key' : List UInt8} (h : bytesLe key key') (h' : bytesLe key' key) :
  key = key'
  := by
  have hinj : Function.Injective UInt8.toNat := fun a b hab => UInt8.toNat_inj.mp hab
  exact hinj.list_map (le_antisymm h h')

/-- Where no two beside each other are equal, the keys in order are distinct. -/
theorem nodup_of_sorted
    {keys : List (List UInt8)} (hsorted : keys.Pairwise bytesLe)
    (hbeside : ∀ pair ∈ keys.zip keys.tail, pair.1 ≠ pair.2) :
  keys.Nodup
  := by
  induction keys with
  | nil => exact .nil
  | cons key keys ih =>
      obtain ⟨hle, hrest⟩ := List.pairwise_cons.mp hsorted
      cases keys with
      | nil => exact List.nodup_singleton _
      | cons next keys =>
          have htail : (next :: keys).Nodup :=
            ih hrest fun pair hpair => hbeside pair (List.mem_cons_of_mem _ hpair)
          refine List.nodup_cons.mpr ⟨?_, htail⟩
          intro hmem
          have hnext : key ≠ next := hbeside (key, next) (List.mem_cons_self ..)
          rcases List.mem_cons.mp hmem with heq | hmem
          · exact hnext heq
          · apply hnext
            apply bytesLe_antisymm (hle next (List.mem_cons_self ..))
            exact (List.pairwise_cons.mp hrest).1 key hmem

/-- The names that are admitted together are distinct. -/
theorem nodup_of_admitPortablePaths (h : admitPortablePaths env names = .ok ()) :
  names.Nodup
  := by
  obtain ⟨keys, hkeys, h⟩ := Fallible.bind_eq_ok.mp h
  have hbeside := Fallible.require_eq_ok.mp h
  have hperm := List.perm_insertionSort bytesLe keys
  have hnodup : keys.Nodup := by
    rw [← hperm.nodup_iff]
    refine nodup_of_sorted (List.pairwise_insertionSort bytesLe keys) ?_
    intro pair hpair heq
    apply hbeside
    rw [List.any_eq_true]
    exact ⟨pair, hpair, by rw [collide, decide_eq_true heq, Bool.true_or]⟩
  have hmap : (names.map (foldedKey env)).Nodup := by
    rw [Fallible.map_of_mapM_eq_ok hkeys]
    exact hnodup.map fun key key' heq => Except.ok.inj heq
  exact hmap.of_map

end Votport
