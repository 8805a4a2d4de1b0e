import Votport.Auth.Spellings
import Votport.Foundation.Fields
import Votport.Library.Hashing
import Votport.Protocol.Portable
import Votport.Trade.Credential

/-!
# Catalogs of proofs

The catalog and the leaves of an object are files that are named by it.  From time to time the files
of objects that no active delivery and no cached root names are deleted; when a process starts, so
are the stages that publishing left.
-/

namespace Votport.Library

attribute [local instance] Fields.lawful_texts

/-! ### Names -/

/-- An object that has a catalog. -/
structure CatalogObject where
  suite : Suite
  root : {root : List UInt8 // root.length = 32}
  length : UInt64
deriving DecidableEq

/-- The number of a suite. -/
def Suite.number : Suite → Char
  | .blake3 => '1'
  | .sha256 => '2'

/-- What the names of the files of an object begin with. -/
def CatalogObject.stem (object : CatalogObject) : List Char :=
  object.suite.number
    :: '-' :: ((hexEncode object.root).toList ++ '-' :: decimalDigits object.length.toNat)

/-- What the name of a catalog ends with. -/
def catalogEnding : List Char := ".vot-catalog".toList

/-- What the name of a leaf cache ends with. -/
def leafEnding : List Char := ".leaves".toList

/-- The name of `catalog_path`. -/
def CatalogObject.catalogName (object : CatalogObject) : List Char := object.stem ++ catalogEnding

/-- The name of `leaf_cache_path`. -/
def CatalogObject.leafName (object : CatalogObject) : List Char := object.stem ++ leafEnding

/-- What is between the name of a file and the token of its stage. -/
def stageMark : List Char := ".stage-".toList

/-- The name of a stage that is published under a name. -/
def stageName (name : List Char) (token : List UInt8) : List Char :=
  '.' :: (name ++ (stageMark ++ (hexEncode token).toList))

/-- `canonical_catalog_name`. -/
def canonicalCatalogName (name : List Char) : Bool :=
  match Fields.stripSuffix catalogEnding name with
  | none => false
  | some stem =>
      match Fields.splitOnce '-' stem with
      | none => false
      | some (suite, rest) =>
          if suite ≠ ['1'] ∧ suite ≠ ['2'] then false
          else
            match Fields.rsplitOnce ['-'] rest with
            | none => false
            | some (root, length) =>
                if validHex (String.ofList root) 64 = false then false
                else
                  match parseU64 length with
                  | none => false
                  | some value =>
                      decide (length = decimalDigits value.toNat)
                        && decide (name = suite ++ '-' :: (root ++ '-' ::
                          (decimalDigits value.toNat ++ catalogEnding)))

/-- `canonical_leaf_name`. -/
def canonicalLeafName (name : List Char) : Bool :=
  match Fields.stripSuffix leafEnding name with
  | none => false
  | some stem => canonicalCatalogName (stem ++ catalogEnding)

/-- `canonical_proof_name`. -/
def canonicalProofName (name : List Char) : Bool :=
  canonicalCatalogName name || canonicalLeafName name

/-- `owned_catalog_stage_name`. -/
def ownedCatalogStageName : List Char → Bool
  | '.' :: name =>
      match Fields.rsplitOnce stageMark name with
      | none => false
      | some (catalog, token) => canonicalProofName catalog && validHex (String.ofList token) 32
  | _ => false

/-! ### What is kept -/

/-- A file of an active delivery, by the row that names it. -/
structure ObjectKey where
  grantId : String
  suite : String
  root : String
  length : UInt64

/-- The number of a suite that is written out. -/
def suiteNumber (suite : String) : Except String Char :=
  if suite = "blake3" then .ok '1'
  else if suite = "sha256" then .ok '2'
  else .error ("unknown suite " ++ suite)

/-- The suite and the root that a row names, or why it does not. -/
def ObjectKey.parse (key : ObjectKey) : Except String (Char × String) := do
  let suite ← suiteNumber key.suite
  let root ← Fallible.present
    (((hexDecode key.root.toList).filter fun bytes => bytes.length = 32).map hexEncode)
    "root is not a 32-byte hex digest"
  return (suite, root)

/-- The names of the catalog and of the leaves of an object that is written out. -/
def proofNames (suite : Char) (root : String) (length : UInt64) : List (List Char) :=
  let stem := suite :: '-' :: (root.toList ++ '-' :: decimalDigits length.toNat)
  [stem ++ catalogEnding, stem ++ leafEnding]

/-- `active_catalog_names`. -/
def activeCatalogNames (keys : List ObjectKey) : List (List Char) × List (String × String) :=
  keys.foldl (fun (names, unparseable) key =>
    match key.parse with
    | .ok (suite, root) => (names ++ proofNames suite root key.length, unparseable)
    | .error reason => (names, unparseable ++ [(key.grantId, reason)])) ([], [])

/-- A root that is cached, with the size of its file. -/
structure CachedRoot where
  root : String
  size : UInt64

/-- `catalog_names` of the cached roots. -/
def catalogNames (cached : List CachedRoot) : List (List Char) :=
  cached.flatMap fun entry =>
    match (hexDecode entry.root.toList).filter fun bytes => bytes.length = 32 with
    | none => []
    | some bytes => proofNames '1' (hexEncode bytes) entry.size

/-! ### What is deleted -/

/-- What a name in a directory is of. -/
inductive EntryKind
  | file
  | symlink
  | directory
  | other
deriving DecidableEq

/-- An entry of a directory.  Reading its metadata or removing it may fail. -/
structure DirEntry where
  name : List UInt8
  kind : EntryKind
  failing : Bool
deriving DecidableEq

/-- An entry is deleted. -/
def prunes (keys : List (List Char)) (entry : DirEntry) : Bool :=
  match fromUtf8 entry.name with
  | none => false
  | some name =>
      if canonicalProofName name = false ∨ name ∈ keys then false
      else decide (entry.kind = .file) && !entry.failing

/-- `prune_outbound_proofs`, of the entries that can be read. -/
def pruneOutboundProofs (entries : Option (List DirEntry)) (keys : List (List Char)) :
    Option (List DirEntry) :=
  entries.map fun entries => entries.filter fun entry => !prunes keys entry

/-- `clean_outbound_proofs`: what is left of the directory. -/
def cleanOutboundProofs (root : Option EntryKind) (keys : Except String (List ObjectKey))
    (cached : List CachedRoot) (entries : Option (List DirEntry)) : Option (List DirEntry) :=
  if root ≠ some .directory then entries
  else
    match keys with
    | .error _ => entries
    | .ok keys =>
        let (names, unparseable) := activeCatalogNames keys
        if unparseable ≠ [] then entries
        else pruneOutboundProofs entries (names ++ catalogNames cached)

end Votport.Library
