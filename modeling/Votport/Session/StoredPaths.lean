import Mathlib.Data.List.DropRight
import Mathlib.Data.String.Basic
import Votport.Foundation.Fallible

/-!
# The keys of stored paths

The key of a stored path are the folded bytes of its components, with a zero byte between
each two.  Paths that some file system takes for the same have the same key.  No folded
component has a zero byte, so the keys of the folders a path lies in are the prefixes of
its key that end before a zero byte, and they do not depend on the last component.
-/

namespace Votport

/-- What the crates for Unicode and for manifests compute. -/
structure PathEnv where
  /-- The normalization form C. -/
  nfc : List Char → List Char
  /-- `UniCase::to_folded_case`. -/
  toFoldedCase : List Char → List Char
  /-- `PackagePath::portable`. -/
  portable : List (List Char) → Except String Unit
  /-- `canonical_path_key` of a portable path of one component. -/
  canonicalKey : List Char → Option (List UInt8)

/-- No normalization or case folding makes a NUL, and a portable path has none. -/
structure PathEnv.Lawful (env : PathEnv) : Prop where
  nfc : ∀ name, '\x00' ∉ name → '\x00' ∉ env.nfc name
  toFoldedCase : ∀ name, '\x00' ∉ name → '\x00' ∉ env.toFoldedCase name
  portable : ∀ components, env.portable components = .ok () →
    ∀ component ∈ components, '\x00' ∉ component

/-- The key of a stored path. -/
abbrev PathKey := List UInt8

/-- `str::as_bytes`. -/
def utf8 (name : List Char) : List UInt8 := name.flatMap String.utf8EncodeChar

/-- `str::len`. -/
def utf8Len (name : List Char) : ℕ := (utf8 name).length

/-- `trim_end_matches(['.', ' '])`. -/
def trimEndDots (name : List Char) : List Char := name.rdropWhile (fun c => c = '.' ∨ c = ' ')

/-- The bytes a component has in the key of its path. -/
def foldComponent (env : PathEnv) (component : List Char) : List UInt8 :=
  let normalized := (env.nfc component).map (fun c => if c = 'İ' ∨ c = 'ı' then 'i' else c)
  utf8 (env.nfc (env.toFoldedCase (trimEndDots normalized)))

/-- A key with the bytes of one more component. -/
def pushComponent (env : PathEnv) (key : PathKey) (component : List Char) : PathKey :=
  (if key ≠ [] then key ++ [0] else key) ++ foldComponent env component

/-- The components of a destination. -/
def destinationComponents (destination : List Char) : List (List Char) :=
  (destination.splitOn '/').filter (· ≠ [])

/-- `stored_path_key`. -/
def storedPathKey (env : PathEnv) (destination : List Char) (components : List (List Char)) :
    Except String PathKey := do
  if components ≠ [] then
    (env.portable components).mapError (fun _ => "stored path rejected")
  pure ((destinationComponents destination ++ components).foldl (pushComponent env) [])

/-- The keys of the folders of a path, from its key. -/
def parentKeys (key : PathKey) : List PathKey :=
  (List.range key.length).filterMap (fun index =>
    if key[index]? = some 0 then some (key.take index) else none)

/-! ### Names -/

/-- `MAX_PAYLOAD_NAME_BYTES`. -/
def maxPayloadNameBytes : ℕ := 242

/-- `check_payload_name_length`. -/
def checkPayloadNameLength (name : List Char) : Except String Unit :=
  if utf8Len name ≤ maxPayloadNameBytes then pure ()
  else throw "filename exceeds the UTF-8 bytes of a payload name"

/-- `rsplit_once('.')`. -/
def rsplitDot (name : List Char) : Option (List Char × List Char) :=
  if '.' ∈ name then
    let extension := name.rtakeWhile (· ≠ '.')
    some (name.take (name.length - extension.length - 1), extension)
  else none

/-- `is_receipt_name`. -/
def isReceiptName (env : PathEnv) (component : List Char) : Bool :=
  match rsplitDot (trimEndDots component) with
  | none => false
  | some (_, extension) =>
      if extension.all (·.toNat < 128) then
        extension.map Char.toLower = "vot-receipt".toList
      else env.canonicalKey extension = some (utf8 "vot-receipt".toList)

/-- The longest prefix of at most `n` bytes. -/
def takeBytes : ℕ → List Char → List Char
  | _, [] => []
  | n, c :: cs => if c.utf8Size ≤ n then c :: takeBytes (n - c.utf8Size) cs else []

/-- `with_suffix`. -/
def withSuffix (name : List Char) (attempt : ℕ) : List Char :=
  if attempt = 0 then name
  else
    let (stem, extension) := match rsplitDot name with
      | some (stem, extension) => if stem ≠ [] then (stem, some extension) else (name, none)
      | none => (name, none)
    let suffix := match extension with
      | some extension => '-' :: (toString attempt).toList ++ '.' :: extension
      | none => '-' :: (toString attempt).toList
    takeBytes (min (utf8Len stem) (maxPayloadNameBytes - utf8Len suffix)) stem ++ suffix

/-! ### Folders -/

theorem zero_not_mem_utf8EncodeChar {c : Char} (h : c ≠ '\x00') :
  0 ∉ String.utf8EncodeChar c
  := by
  have hval : c.val.toNat ≠ 0 := by
    intro he
    apply h
    apply Char.ext
    apply UInt32.toNat_inj.mp he
  have hbyte : ∀ n : ℕ, n % 256 ≠ 0 → (0 : UInt8) ≠ UInt8.ofNat n := by
    intro n hn he
    apply hn
    have := congrArg UInt8.toNat he
    simpa using this.symm
  rw [String.utf8EncodeChar]
  split_ifs <;> simp only [List.mem_cons, List.not_mem_nil, or_false, not_or]
  · apply hbyte
    omega
  · constructor <;> apply hbyte <;> omega
  · refine ⟨?_, ?_, ?_⟩ <;> apply hbyte <;> omega
  · refine ⟨?_, ?_, ?_, ?_⟩ <;> apply hbyte <;> omega

theorem zero_not_mem_utf8 {name : List Char} (h : '\x00' ∉ name) :
  0 ∉ utf8 name
  := by
  rw [utf8, List.mem_flatMap]
  rintro ⟨c, hc, hzero⟩
  apply zero_not_mem_utf8EncodeChar _ hzero
  rintro rfl
  exact h hc

theorem zero_not_mem_foldComponent
    {env : PathEnv} (henv : env.Lawful) {component : List Char} (h : '\x00' ∉ component) :
  0 ∉ foldComponent env component
  := by
  apply zero_not_mem_utf8
  apply henv.nfc
  apply henv.toFoldedCase
  intro hmem
  obtain ⟨c, hc, he⟩ := List.mem_map.mp ((List.rdropWhile_prefix _ _).subset hmem)
  split_ifs at he
  · cases he
  · subst he
    exact henv.nfc component h hc

theorem mem_parentKeys {key folder : PathKey} :
  folder ∈ parentKeys key ↔ ∃ rest, key = folder ++ 0 :: rest
  := by
  rw [parentKeys, List.mem_filterMap]
  constructor
  · rintro ⟨index, _, hindex⟩
    split_ifs at hindex with hzero
    cases hindex
    obtain ⟨hlt, hzero⟩ := List.getElem?_eq_some_iff.mp hzero
    use key.drop (index + 1)
    rw [← hzero, ← List.drop_eq_getElem_cons hlt, List.take_append_drop]
  · rintro ⟨rest, rfl⟩
    refine ⟨folder.length, ?_, ?_⟩
    · simp
    · simp

/-- A folder of a path is a folder of the path without its last component, or that path. -/
theorem mem_parentKeys_pushComponent
    {env : PathEnv} {component : List Char} (h : 0 ∉ foldComponent env component)
    {key folder : PathKey} :
  folder ∈ parentKeys (pushComponent env key component)
    ↔ key ≠ [] ∧ (folder ∈ parentKeys key ∨ folder = key)
  := by
  rw [mem_parentKeys, mem_parentKeys, pushComponent]
  by_cases hkey : key = []
  · rw [if_neg (not_not.mpr hkey), hkey, List.nil_append]
    constructor
    · rintro ⟨rest, he⟩
      exfalso
      apply h
      rw [he]
      simp
    · rintro ⟨hne, _⟩
      contradiction
  · rw [if_pos hkey]
    constructor
    · rintro ⟨rest, he⟩
      use hkey
      rw [List.append_assoc, List.singleton_append, List.append_eq_append_iff] at he
      rcases he with ⟨middle, hfolder, hrest⟩ | ⟨middle, hfolder, hrest⟩
      · -- The zero byte lies behind the key, so it is the one between.
        cases middle with
        | nil =>
            right
            rw [hfolder, List.append_nil]
        | cons b middle =>
            exfalso
            apply h
            rw [List.cons_append, List.cons.injEq] at hrest
            rw [hrest.2]
            simp
      · cases middle with
        | nil =>
            right
            rw [hfolder, List.append_nil]
        | cons b middle =>
            left
            rw [List.cons_append, List.cons.injEq] at hrest
            use middle
            rw [hfolder, hrest.1]
    · rintro ⟨_, ⟨rest, he⟩ | rfl⟩
      · use rest ++ [0] ++ foldComponent env component
        rw [he]
        simp
      · use foldComponent env component
        simp

/-- The folders of a path do not depend on its last component. -/
theorem parentKeys_storedPathKey
    {env : PathEnv} (henv : env.Lawful) {destination : List Char} {components : List (List Char)}
    {last last' : List Char} {key key' : PathKey}
    (hkey : storedPathKey env destination (components ++ [last]) = .ok key)
    (hkey' : storedPathKey env destination (components ++ [last']) = .ok key') (folder : PathKey) :
  folder ∈ parentKeys key ↔ folder ∈ parentKeys key'
  := by
  have hpush : ∀ last key, storedPathKey env destination (components ++ [last]) = .ok key →
      0 ∉ foldComponent env last ∧ key = pushComponent env
        ((destinationComponents destination ++ components).foldl (pushComponent env) []) last := by
    intro last key hok
    rw [storedPathKey, if_pos (by simp)] at hok
    cases hportable : env.portable (components ++ [last]) with
    | error e =>
        rw [hportable] at hok
        cases hok
    | ok _ =>
        rw [hportable] at hok
        cases hok
        constructor
        · apply zero_not_mem_foldComponent henv
          apply henv.portable _ hportable
          simp
        · rw [← List.append_assoc, List.foldl_append]
          rfl
  obtain ⟨hzero, rfl⟩ := hpush last key hkey
  obtain ⟨hzero', rfl⟩ := hpush last' key' hkey'
  rw [mem_parentKeys_pushComponent hzero, mem_parentKeys_pushComponent hzero']

end Votport
