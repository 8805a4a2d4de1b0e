import Votport.Delivery.Work
import Votport.Foundation.Fields
import Votport.Foundation.Framed

/-!
# Manifests of deliveries

A delivery is signed for by a digest of its files.  What is hashed has the length of each text
before the text, so it determines the files.  For a route the files are first sorted by their
names.
-/

namespace Votport

open Framed

/-- A file of a manifest.  A text has fewer bytes than a word counts. -/
structure ManifestFile where
  name : String
  suite : String
  root : String
  bytes : UInt64
  sized : ∀ field ∈ [name, suite, root], field.utf8ByteSize < 2 ^ 64

/-- What is hashed for a file. -/
def ManifestFile.encoding (file : ManifestFile) : List UInt8 :=
  sizedText file.name ++ sizedText file.suite ++ sizedText file.root ++ be64 file.bytes.toNat

/-- What `delivery_protocol::manifest_digest` hashes. -/
def deliveryEncoding (files : List ManifestFile) : List UInt8 :=
  "votport-delivery-files-v1\x00".toUTF8.data.toList ++ files.flatMap ManifestFile.encoding
    ++ be64 files.length

/-- `delivery_protocol::manifest_digest`. -/
def deliveryManifestDigest (sha256 : List UInt8 → List UInt8) (files : List ManifestFile) :
    String :=
  hexEncode (sha256 (deliveryEncoding files))

/-- What `route_protocol::manifest_digest` hashes. -/
def routeEncoding (files : List ManifestFile) : List UInt8 :=
  deliveryEncoding (sortBy ManifestFile.name files)

/-- `route_protocol::manifest_digest`. -/
def routeManifestDigest (sha256 : List UInt8 → List UInt8) (files : List ManifestFile) : String :=
  deliveryManifestDigest sha256 (sortBy ManifestFile.name files)

theorem length_be64 (n : ℕ) : (be64 n).length = 8 := rfl

theorem leBytes_eq_map (count n : ℕ) :
  Fields.leBytes count n = (List.range count).map fun i => UInt8.ofNat (n / 256 ^ i)
  := by
  induction count generalizing n with
  | zero => rfl
  | succ count ih =>
      have hbyte : UInt8.ofNat (n % 256) = UInt8.ofNat n := by
        apply UInt8.toNat_inj.mp
        rw [UInt8.toNat_ofNat', UInt8.toNat_ofNat', Nat.mod_mod]
      rw [Fields.leBytes, ih, List.range_succ_eq_map, List.map_cons, List.map_map, Nat.pow_zero,
        Nat.div_one, hbyte]
      congr 1
      apply List.map_congr_left
      intro i _
      rw [Function.comp_apply, Nat.pow_succ', Nat.div_div_eq_div_mul]

/-- The bytes of a word, the other way round. -/
theorem be64_eq (n : ℕ) :
  be64 n = (Fields.leBytes 8 n).reverse
  := by
  rw [leBytes_eq_map, ← List.map_reverse]
  rfl

theorem be64_inj {m n : ℕ} (hm : m < 2 ^ 64) (hn : n < 2 ^ 64) (h : be64 m = be64 n) :
  m = n
  := by
  rw [be64_eq, be64_eq] at h
  exact Fields.leBytes_inj hm hn (List.reverse_injective h)

/-- A text is read back with its length. -/
theorem sizedText_cancel {text text' : String} {rest rest' : List UInt8}
    (hsize : text.utf8ByteSize < 2 ^ 64) (hsize' : text'.utf8ByteSize < 2 ^ 64)
    (h : sizedText text ++ rest = sizedText text' ++ rest') :
  text = text' ∧ rest = rest'
  := by
  rw [sizedText, sizedText, List.append_assoc, List.append_assoc] at h
  obtain ⟨hlength, htail⟩ := List.append_inj h rfl
  have hlength := be64_inj hsize hsize' hlength
  obtain ⟨htext, hrest⟩ := List.append_inj htail hlength
  exact ⟨utf8_injective htext, hrest⟩

theorem cancels_encoding : Cancels ManifestFile.encoding := by
  intro file file' rest rest' h
  obtain ⟨name, suite, root, bytes, sized⟩ := file
  obtain ⟨name', suite', root', bytes', sized'⟩ := file'
  simp only [ManifestFile.encoding, List.append_assoc] at h
  simp only [List.mem_cons, List.not_mem_nil, or_false, forall_eq_or_imp, forall_eq] at sized sized'
  obtain ⟨rfl, hsuite⟩ := sizedText_cancel sized.1 sized'.1 h
  obtain ⟨rfl, hroot⟩ := sizedText_cancel sized.2.1 sized'.2.1 hsuite
  obtain ⟨rfl, htail⟩ := sizedText_cancel sized.2.2 sized'.2.2 hroot
  obtain ⟨hbytes, hrest⟩ := List.append_inj htail rfl
  obtain rfl := UInt64.toNat_inj.mp (be64_inj bytes.toNat_lt bytes'.toNat_lt hbytes)
  exact ⟨rfl, hrest⟩

theorem length_encoding (file : ManifestFile) :
  8 < file.encoding.length
  := by
  simp only [ManifestFile.encoding, sizedText, List.length_append, length_be64]
  omega

/-- What is hashed determines the files. -/
theorem deliveryEncoding_injective : Function.Injective deliveryEncoding := by
  intro files files' h
  simp only [deliveryEncoding, List.append_assoc] at h
  exact cancels_encoding.flatMap_inj length_encoding (length_be64 _) (length_be64 _)
    (List.append_cancel_left h)

/-- The digest of a delivery stands for its files, and that of a route for the files in any order,
where no two of them have one name and differ. -/
theorem manifestDigest_identifies (files files' : List ManifestFile) :
  (deliveryEncoding files = deliveryEncoding files' ↔ files = files')
  ∧ (routeEncoding files = routeEncoding files' → files.Perm files')
  ∧ ((∀ sha256 other, files.Perm other →
        routeManifestDigest sha256 files = routeManifestDigest sha256 other)
      ↔ ∀ file ∈ files, ∀ file' ∈ files, file.name = file'.name → file = file')
  := by
  refine ⟨deliveryEncoding_injective.eq_iff, ?_, ?_⟩
  · intro h
    have hsort := deliveryEncoding_injective h
    exact (perm_sortBy ManifestFile.name files).symm.trans
      (hsort ▸ perm_sortBy ManifestFile.name files')
  · rw [← sortBy_eq_iff ManifestFile.name files]
    constructor
    · intro h other hperm
      exact deliveryEncoding_injective (hexEncode_injective (h id other hperm))
    · intro h sha256 other hperm
      rw [routeManifestDigest, routeManifestDigest, h other hperm]

/-- A file with a name and a number of bytes. -/
def namedFile (bytes : UInt64) : ManifestFile :=
  ⟨"a.exr", "", "", bytes, by decide +kernel⟩

/-- Two files of one name are hashed in the order they are given in. -/
theorem routeManifestDigest_twins :
  ¬∀ sha256, ∀ files files' : List ManifestFile, files.Perm files' →
    routeManifestDigest sha256 files = routeManifestDigest sha256 files'
  := by
  intro h
  have hsort : ∀ other, [namedFile 1, namedFile 2].Perm other →
      sortBy ManifestFile.name [namedFile 1, namedFile 2] = sortBy ManifestFile.name other :=
    fun other hperm => deliveryEncoding_injective (hexEncode_injective (h id _ other hperm))
  have heq := (sortBy_eq_iff ManifestFile.name _).mp hsort (namedFile 1) (by simp) (namedFile 2)
    (by simp) rfl
  have hbytes : (1 : UInt64) = 2 := congrArg ManifestFile.bytes heq
  exact absurd hbytes (by decide)

end Votport
