import Mathlib.Data.List.DropRight
import Votport.Admin.Identity
import Votport.Delivery.Jobs
import Votport.Foundation.Fallible

/-!
# The fields of tenants and of branding

A request changes some of the fields of a row.  It reads the row, sets the fields that it carries in
a copy, and writes all columns of the copy.  The requests here are the changes themselves, each a
function of the row that it is applied to, with the refusals.
-/

namespace Votport.Admin

/-- A refusal, with its status and text. -/
structure ApiError where
  status : Nat
  message : String
deriving DecidableEq, Repr

/-- A row of `branding`. -/
structure Branding where
  tenant : String
  name : String
  color : String
  logoExt : String
  footerText : String
  footerLinkLabel : String
  footerLinkUrl : String
  updatedAt : Nat
deriving DecidableEq, Repr

/-- `Branding::default`, for a tenant without a row. -/
def Branding.empty : Branding := ⟨"", "", "", "", "", "", "", 0⟩

/-- A URL as it was parsed, with its normal form. -/
structure ParsedUrl where
  scheme : String
  host : Option String
  username : String
  password : Option String
  text : String
deriving DecidableEq, Repr

/-- What the code takes from elsewhere: how a URL is parsed, and which keys of tenants are
admitted. -/
structure FieldsEnv where
  parseUrl : String → Option ParsedUrl
  admitDest : String → Except String String

/-- The normal form of a URL is one, and nothing is trimmed from it. -/
structure FieldsEnv.Lawful (env : FieldsEnv) : Prop where
  parse_text : ∀ s u, env.parseUrl s = some u → env.parseUrl u.text = some u
  trim_text : ∀ s u, env.parseUrl s = some u →
    (u.text.toList.dropWhile isWhiteSpace).rdropWhile isWhiteSpace = u.text.toList

/-! ### Trimming -/

/-- `str::trim`. -/
def trim (s : String) : String :=
  String.ofList ((s.toList.dropWhile isWhiteSpace).rdropWhile isWhiteSpace)

/-- Nothing is left to trim. -/
theorem trim_trim (s : String) : trim (trim s) = trim s := by
  rw [trim, trim, String.toList_ofList]
  exact congrArg String.ofList (Votport.trim_trim s.toList)

/-! ### Fields of a tenant -/

/-- `PatchTenantRequest`: what it carries of each field. -/
structure TenantPatch where
  label : Option String
  adminGroup : Option (Option String)
  maxTotalBytes : Option (Option Nat)
  maxLinks : Option (Option Nat)
  maxSessions : Option (Option Nat)
  retentionDays : Option (Option Nat)
deriving DecidableEq, Repr

/-- `patch_quota`. -/
def patchQuota (field : String) : Option Nat → Except ApiError (Option Nat)
  | none => .ok none
  | some 0 => .error ⟨422, field ++ " must be greater than zero"⟩
  | some n => .ok (some n)

/-- A quota of the row, or the one that the request carries. -/
def patchedQuota (field : String) (carried : Option (Option Nat)) (present : Option Nat) :
    Except ApiError (Option Nat) :=
  match carried with
  | none => .ok present
  | some value => patchQuota field value

/-- The row of a tenant with the fields that the request carries. -/
def TenantPatch.apply (patch : TenantPatch) (tenant : Tenant) : Except ApiError Tenant := do
  let maxTotalBytes ← patchedQuota "max_total_bytes" patch.maxTotalBytes tenant.maxTotalBytes
  let maxLinks ← patchedQuota "max_links" patch.maxLinks tenant.maxLinks
  let maxSessions ← patchedQuota "max_sessions" patch.maxSessions tenant.maxSessions
  let retentionDays ← patchedQuota "retention_days" patch.retentionDays tenant.retentionDays
  return { tenant with
    label := (patch.label.map trim).getD tenant.label
    adminGroup :=
      match patch.adminGroup with
      | none => tenant.adminGroup
      | some group => (group.filter fun value => !trimIsEmpty value).map trim
    maxTotalBytes, maxLinks, maxSessions, retentionDays }

/-- The column `retention_days`, of an `i64`. -/
def storedDays (days : Nat) : Nat := min days (2 ^ 63 - 1)

/-- The row of a tenant as it is read back. -/
def Tenant.stored (tenant : Tenant) : Tenant :=
  { tenant with retentionDays := tenant.retentionDays.map storedDays }

/-- `Store::update_tenant` sets all columns but the key, the incarnation and the time. -/
def Tenant.withColumns (row columns : Tenant) : Tenant :=
  { row with
    label := columns.label, adminGroup := columns.adminGroup
    maxTotalBytes := columns.maxTotalBytes, maxLinks := columns.maxLinks
    maxSessions := columns.maxSessions, retentionDays := columns.retentionDays.map storedDays }

/-! ### Branding -/

/-- `PutBrandingRequest`. -/
structure BrandingRequest where
  name : String
  color : String
  footerText : Option String
  footerLinkLabel : Option String
  footerLinkUrl : Option String
deriving DecidableEq, Repr

/-- The character is a hexadecimal digit. -/
def isHexDigit (c : Char) : Bool :=
  decide ('0' ≤ c ∧ c ≤ '9') || decide ('a' ≤ c ∧ c ≤ 'f') || decide ('A' ≤ c ∧ c ≤ 'F')

/-- `admit_brand_color`. -/
def admitBrandColor (color : String) : Except ApiError Unit :=
  match color.toList with
  | [] => .ok ()
  | c :: digits =>
      Fallible.require (c = '#' ∧ digits.length = 6 ∧ digits.all isHexDigit)
        ⟨422, "color must be empty or #rrggbb"⟩

/-- A text of the footer is too long or has a control character. -/
def footerTooLong (value : String) (limit : Nat) : Bool :=
  decide (limit < value.length) || value.toList.any isControl

/-- The address of a footer link is one that browsers may be sent to. -/
def footerUrl (env : FieldsEnv) (url : String) : Bool :=
  match env.parseUrl url with
  | none => false
  | some url =>
      decide (url.scheme = "https" ∨ url.scheme = "http") && url.host.isSome
        && decide (url.username = "") && url.password.isNone

/-- `admit_footer`. -/
def admitFooter (env : FieldsEnv) (branding : Branding) : Except ApiError Unit := do
  Fallible.require (footerTooLong branding.footerText 160 = false
      ∧ footerTooLong branding.footerLinkLabel 40 = false
      ∧ footerTooLong branding.footerLinkUrl 2048 = false)
    ⟨422, "Footer text is limited to 160 characters, link labels to 40, and URLs to 2048; use a single line"⟩
  Fallible.require (branding.footerLinkUrl = "" ↔ branding.footerLinkLabel = "")
    ⟨422, "Provide both a footer link label and URL, or leave both blank"⟩
  Fallible.require (branding.footerLinkUrl = "" ∨ footerUrl env branding.footerLinkUrl)
    ⟨422, "Footer links must use an HTTP or HTTPS address without embedded credentials"⟩

/-- The row that `put_branding` writes, computed from the one that it has read. -/
def BrandingRequest.apply (env : FieldsEnv) (request : BrandingRequest) (tenant : String)
    (now : Nat) (row : Option Branding) : Except ApiError Branding := do
  admitBrandColor request.color
  let previous := row.getD .empty
  let branding : Branding :=
    { tenant
      name := trim request.name
      color := request.color
      footerText := trim (request.footerText.getD previous.footerText)
      footerLinkLabel := trim (request.footerLinkLabel.getD previous.footerLinkLabel)
      footerLinkUrl := trim (request.footerLinkUrl.getD previous.footerLinkUrl)
      logoExt := previous.logoExt
      updatedAt := now }
  admitFooter env branding
  match env.parseUrl branding.footerLinkUrl with
  | none => return branding
  | some url =>
      if branding.footerLinkUrl = "" then return branding
      else
        let branding := { branding with footerLinkUrl := url.text }
        admitFooter env branding
        return branding

/-- `MAX_LOGO_BYTES`. -/
def maxLogoBytes : Nat := 512 * 1024

/-- `admit_logo`, with the declared type. -/
def admitLogo (declared : String) (bytes : List UInt8) : Except ApiError String := do
  let (ext, sniffed) ←
    if declared = "image/png" then
      pure ("png", [0x89, 0x50, 0x4E, 0x47, 0x0D, 0x0A, 0x1A, 0x0A].isPrefixOf bytes)
    else if declared = "image/jpeg" then pure ("jpg", [0xFF, 0xD8, 0xFF].isPrefixOf bytes)
    else if declared = "image/svg+xml" then pure ("svg", true)
    else .error ⟨415, "logo must be image/png, image/jpeg, or image/svg+xml"⟩
  Fallible.require (sniffed = true) ⟨422, "logo bytes do not match the declared type"⟩
  return ext

/-- The checks of the body in `put_branding_logo`. -/
def admitLogoBody (declared : String) (bytes : List UInt8) : Except ApiError String := do
  Fallible.require (bytes.length ≤ maxLogoBytes) ⟨413, "logo exceeds 512 KiB"⟩
  Fallible.require (bytes ≠ []) ⟨422, "logo body is empty"⟩
  admitLogo declared bytes

/-- The row that `put_branding_logo` writes. -/
def putLogo (tenant ext : String) (now : Nat) (row : Option Branding) : Branding :=
  { row.getD .empty with tenant, logoExt := ext, updatedAt := now }

/-- The row that `delete_branding_logo` writes. -/
def deleteLogo (now : Nat) (row : Option Branding) : Except ApiError Branding :=
  match row.filter fun branding => branding.logoExt ≠ "" with
  | none => .error ⟨404, "not found"⟩
  | some branding => .ok { branding with logoExt := "", updatedAt := now }

end Votport.Admin
