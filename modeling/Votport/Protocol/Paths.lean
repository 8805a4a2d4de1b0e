import Votport.Delivery.Jobs
import Votport.Foundation.Fields
import Votport.Session.StoredPaths

/-!
# Names that are admitted

The components of a path that a sender names are admitted one by one.  The names that the port keeps
for its own files are refused in any case of their letters of ASCII, and so are the names of
receipts, in any spelling with the same key.
-/

namespace Votport

attribute [local instance] Fields.lawful_texts

/-- `eq_ignore_ascii_case` and the like compare these. -/
def toAsciiLowercase (name : List Char) : List Char := name.map Char.toLower

/-- A lowercase hexadecimal digit. -/
def isHexDigit (c : Char) : Bool :=
  decide (('0' ≤ c ∧ c ≤ '9') ∨ ('a' ≤ c ∧ c ≤ 'f'))

/-- `is_push_staging_name`. -/
def isPushStagingName (name : List Char) : Bool :=
  decide (".vot-push-".toList <+: name ∧ utf8Len (name.drop ".vot-push-".length) = 32)
    && (name.drop ".vot-push-".length).all isHexDigit

/-- The ranges of the format characters. -/
def formatRanges : List (ℕ × ℕ) :=
  [(0xad, 0xad), (0x600, 0x605), (0x61c, 0x61c), (0x6dd, 0x6dd), (0x70f, 0x70f), (0x890, 0x891),
    (0x8e2, 0x8e2), (0x180e, 0x180e), (0x200b, 0x200f), (0x202a, 0x202e), (0x2060, 0x2064),
    (0x2066, 0x206f), (0xfeff, 0xfeff), (0xfff9, 0xfffb), (0x110bd, 0x110bd), (0x110cd, 0x110cd),
    (0x13430, 0x1343f), (0x1bca0, 0x1bca3), (0x1d173, 0x1d17a), (0xe0001, 0xe0001),
    (0xe0020, 0xe007f)]

/-- `is_format_character`. -/
def isFormatCharacter (c : Char) : Bool :=
  formatRanges.any fun range => decide (range.1 ≤ c.toNat ∧ c.toNat ≤ range.2)

/-- A character that no component has. -/
def isRefusedCharacter (c : Char) : Bool :=
  decide (c = '/' ∨ c = '\\' ∨ c = '~' ∨ c = '\x00') || isControl c || isFormatCharacter c
    || decide (c.toNat = 0x2028 ∨ c.toNat = 0xa0)

/-- `TENANT_STORAGE_DIR`. -/
def tenantStorageDir : List Char := ".vot-tenants.stage".toList

/-- `LEASE_FILE_NAME`. -/
def leaseFileName : List Char := ".votport-lease".toList

/-- The name is of the port's own files, in lowercase letters. -/
def isOwnName (lower : List Char) : Bool :=
  decide (lower = ".vot-stage".toList) || isPushStagingName lower
    || decide (".vot-".toList <+: lower
      ∧ (".stage".toList <:+ lower ∨ ".journal".toList <:+ lower))

/-- `admit_component`. -/
def admitComponent (env : PathEnv) (component : List Char) (allowHidden : Bool) :
    Except String Unit :=
  if component = [] ∨ 255 < utf8Len component then
    .error "empty or oversized path component"
  else if component = ['.'] ∨ component = ['.', '.'] then
    .error "path component is a directory reference"
  else if component.any isRefusedCharacter = true then
    .error "path component contains a separator, control character, or DOS alias marker"
  else if isReceiptName env component = true then
    .error "name is reserved for signed receipts"
  else if allowHidden = false ∧ component.head? = some '.' then
    .error "hidden file names are not accepted (VOTPORT_ALLOW_HIDDEN=1 to allow)"
  else if component.head? = some '.' ∧ component.any (fun c => decide (128 ≤ c.toNat)) = true then
    .error "non-ASCII hidden names are reserved for portable storage"
  else if toAsciiLowercase component = ".votport-workflows".toList then
    .error "name is reserved for delivery workflows"
  else if toAsciiLowercase component = tenantStorageDir then
    .error "name is reserved for the port's own files"
  else if toAsciiLowercase component = leaseFileName then
    .error "name is reserved for the port's own files"
  else if isOwnName (toAsciiLowercase component) = true then
    .error "name is reserved for the port's own files"
  else .ok ()

/-- `tenant_prefix`. -/
def tenantPrefix (key : List Char) : List (List Char) :=
  if key = [] then [] else [tenantStorageDir, key]

/-- `stored_components`. -/
def storedComponents (tenant storedAs : List Char) : List (List Char) :=
  tenantPrefix tenant ++ (storedAs.splitOn '/').filter (· ≠ [])

/-! ### What admission leaves -/

variable {env : PathEnv} {component : List Char} {allowHidden : Bool}

/-- What is known of an admitted component. -/
structure AdmittedComponent (env : PathEnv) (component : List Char) : Prop where
  ne_nil : component ≠ []
  characters : ∀ c ∈ component, isRefusedCharacter c = false
  receipt : isReceiptName env component = false
  own : isOwnName (toAsciiLowercase component) = false

theorem admitComponent_ok (h : admitComponent env component allowHidden = .ok ()) :
  AdmittedComponent env component
  := by
  unfold admitComponent at h
  split at h
  · cases h
  · rename_i hsize
    split at h
    · cases h
    · split at h
      · cases h
      · rename_i hcharacters
        split at h
        · cases h
        · rename_i hreceipt
          iterate 5
            split at h
            · cases h
          split at h
          · cases h
          · rename_i hown
            exact
              { ne_nil := fun hnil => hsize (.inl hnil)
                characters := by simpa using hcharacters
                receipt := by simpa using hreceipt
                own := by simpa using hown }

theorem AdmittedComponent.no_separator (h : AdmittedComponent env component) :
  '/' ∉ component
  := by
  intro hmem
  have hrefused := h.characters _ hmem
  simp [isRefusedCharacter] at hrefused

theorem toLower_of_isHexDigit {c : Char} (h : isHexDigit c = true) :
  c.toLower = c
  := by
  have hval : ('0' ≤ c ∧ c ≤ '9') ∨ ('a' ≤ c ∧ c ≤ 'f') := of_decide_eq_true h
  simp only [Char.le_def, UInt32.le_iff_toNat_le] at hval
  rw [Char.toLower, dif_neg]
  rintro ⟨hge, hle⟩
  rw [ge_iff_le, UInt32.le_iff_toNat_le] at hge
  rw [UInt32.le_iff_toNat_le] at hle
  have h0 : ('0' : Char).val.toNat = 48 := rfl
  have h9 : ('9' : Char).val.toNat = 57 := rfl
  have ha : ('a' : Char).val.toNat = 97 := rfl
  have hA : ('A' : Char).val.toNat = 65 := rfl
  have hZ : ('Z' : Char).val.toNat = 90 := rfl
  omega

/-- Only a name without capitals is for staging. -/
theorem toAsciiLowercase_of_isPushStagingName (h : isPushStagingName component = true) :
  toAsciiLowercase component = component
  := by
  rw [isPushStagingName, Bool.and_eq_true, decide_eq_true_eq, List.all_eq_true] at h
  obtain ⟨⟨⟨rest, rfl⟩, _⟩, hhex⟩ := h
  have hdrop : (".vot-push-".toList ++ rest).drop ".vot-push-".length = rest :=
    List.drop_left
  rw [hdrop] at hhex
  have hrest : rest.map Char.toLower = rest := by
    rw [List.map_congr_left fun c hc => toLower_of_isHexDigit (hhex c hc), List.map_id']
  have hstart : toAsciiLowercase ".vot-push-".toList = ".vot-push-".toList := by decide +kernel
  rw [toAsciiLowercase, List.map_append, hrest]
  exact congrArg (· ++ rest) hstart

/-- No admitted component is the name of a staging folder. -/
theorem AdmittedComponent.not_staging (h : AdmittedComponent env component) :
  component ≠ ".vot-stage".toList ∧ isPushStagingName component = false
  := by
  constructor
  · rintro rfl
    have hown : isOwnName (toAsciiLowercase ".vot-stage".toList) = true := by decide +kernel
    exact absurd h.own (by rw [hown]; exact Bool.noConfusion)
  · by_contra hpush
    rw [Bool.not_eq_false] at hpush
    have hown : isOwnName (toAsciiLowercase component) = true := by
      rw [isOwnName, toAsciiLowercase_of_isPushStagingName hpush, hpush, Bool.or_true, Bool.true_or]
    exact absurd h.own (by rw [hown]; exact Bool.noConfusion)

end Votport
