import Votport.Delivery.Jobs
import Votport.Foundation.Fields
import Votport.Foundation.Json
import Votport.Protocol.Portable

/-!
# The subject of a sign-in

A sign-in is for the account whose identity token was verified.  The principal is selected by the
configured claim, which is read from the token or else from the document about the same account.  A
key made of an opaque subject has a reserved beginning, and keys of the other claims are folded.
-/

namespace Votport.Auth

/-- Which claim becomes the subject of the principal. -/
inductive SubjectClaim
  | sub
  | email
  | preferredUsername
deriving DecidableEq

/-- The configuration of the provider. -/
structure OidcConfig where
  issuer : List Char
  subjectClaim : SubjectClaim

/-- The claims about groups. -/
structure GroupClaims where
  groups : List String
  hasgroups : Bool
  claimNames : List (String × String)

/-- `direct_groups`. -/
def GroupClaims.directGroups (claims : GroupClaims) : Except String (List String) :=
  if claims.hasgroups = true ∨ "groups" ∈ claims.claimNames.map Prod.fst then
    .error "overage or distributed group claims are not supported"
  else .ok claims.groups

/-- The claims of a verified identity token. -/
structure IdToken where
  sub : List Char
  email : Option (List Char)
  emailVerified : Option Bool
  preferredUsername : Option (List Char)
  groups : GroupClaims

/-- What is computed outside of the port. -/
structure SubjectCrates where
  sha256 : List UInt8 → List UInt8
  toLowercase : List Char → List Char

variable {ν : Type}

/-! ### Documents -/

/-- A member of a document, null when there is none. -/
def member (name : String) : Json ν → Json ν
  | .obj entries => ((entries.find? fun entry => entry.1 = name).map Prod.snd).getD .null
  | _ => .null

/-- `as_str`. -/
def asStr : Json ν → Option (List Char)
  | .str s => some s.toList
  | _ => none

/-- `as_bool`. -/
def asBool : Json ν → Option Bool
  | .bool b => some b
  | _ => none

/-- A text, or none for another value. -/
def textOf : Json ν → Option String
  | .str s => some s
  | _ => none

/-- `from_value` of the claims about groups: a member that is not there has its default. -/
def groupClaims (value : Json ν) : Option GroupClaims := do
  let .obj entries := value | none
  let present (name : String) := (entries.find? fun entry => entry.1 = name).map Prod.snd
  let groups ←
    match present "groups" with
    | none => some []
    | some (.arr items) => items.mapM textOf
    | some _ => none
  let hasgroups ←
    match present "hasgroups" with
    | none => some false
    | some value => asBool value
  let claimNames ←
    match present "_claim_names" with
    | none => some []
    | some (.obj names) => names.mapM fun entry => (textOf entry.2).map (entry.1, ·)
    | some _ => none
  return ⟨groups, hasgroups, claimNames⟩

/-! ### Keys -/

/-- A name that is compared without the case of its letters and the white space around it. -/
def fold (crates : SubjectCrates) (value : List Char) : List Char :=
  crates.toLowercase (trim value)

/-- `select_subject`. -/
def selectSubject (crates : SubjectCrates) (claim : SubjectClaim) (sub : List Char)
    (email : Option (List Char)) (emailVerified : Option Bool)
    (preferredUsername : Option (List Char)) : Except String (Option (List Char)) :=
  match claim with
  | .sub => .ok ((some sub).filter (· ≠ []))
  | .email =>
      if emailVerified = some false then .error "the provider marks this email unverified"
      else .ok ((email.map (fold crates)).filter (· ≠ []))
  | .preferredUsername => .ok ((preferredUsername.map (fold crates)).filter (· ≠ []))

/-- What a key of an opaque subject begins with. -/
def subMark : List Char := "oidc-sub-v2:".toList

/-- The key of an opaque subject. -/
def subKey (crates : SubjectCrates) (issuer sub : List Char) : List Char :=
  subMark ++ ((hexEncode (crates.sha256 (utf8 issuer))).toList
    ++ ':' :: (hexEncode (utf8 sub)).toList)

/-- `subject_key`. -/
def subjectKey (crates : SubjectCrates) (config : OidcConfig) (value : List Char) :
    Except String (List Char) :=
  if value = [] ∨ 256 < utf8Len value ∨ value.any isControl = true then
    .error "the provider subject is invalid"
  else if config.subjectClaim = .sub then .ok (subKey crates config.issuer value)
  else if fold crates value = [] ∨ subMark <+: fold crates value then
    .error "the provider subject uses a reserved identity prefix"
  else .ok (fold crates value)

/-- `original_sub`. -/
def originalSub (key : List Char) : Option (List Char) := do
  let rest ← if subMark <+: key then some (key.drop subMark.length) else none
  let (issuer, value) ← Fields.splitOnce ':' rest
  if utf8Len issuer ≠ 64 ∨ ¬issuer.all (fun c => (hexDigit c).isSome) = true then none
  else fromUtf8 (← hexDecode value)

/-! ### The callback -/

/-- A subject that is absent is selected again. -/
def ifAbsent (subject : Option (List Char)) (again : Except String (Option (List Char))) :
    Except String (Option (List Char)) :=
  match subject with
  | some subject => .ok (some subject)
  | none => again

/-- What the rest of the callback asks of the settings, the groups and the principals that are
stored. -/
structure SignInStore where
  settings : Except String Unit
  groups : List Char → List String → Except String (List String)
  principal : List Char → List String → Except String Unit

/-- The subject and the groups, from the token and the document about its account. -/
def subjectAndGroups (crates : SubjectCrates) (config : OidcConfig) (token : IdToken)
    (userinfo : Option (Except String (Json ν))) :
    Except String (Option (List Char) × List String) := do
  let subject ←
    (selectSubject crates config.subjectClaim token.sub token.email token.emailVerified
      token.preferredUsername).mapError fun _ => "identity could not be verified"
  let groups ← token.groups.directGroups
  match userinfo with
  | none => return (subject, groups)
  | some response =>
      let value ← response
      Fallible.require (asStr (member "sub" value) = some token.sub)
        "identity could not be verified"
      let subject ← ifAbsent subject <|
        (selectSubject crates config.subjectClaim token.sub (asStr (member "email" value))
          (asBool (member "email_verified" value))
          (asStr (member "preferred_username" value))).mapError
            fun _ => "identity could not be verified"
      let claims ← Fallible.present (groupClaims value) "could not verify group membership"
      let memberships ← claims.directGroups
      return (subject, groups ++ memberships)

/-- `sso_callback`, from the verified token on. -/
def ssoCallback (crates : SubjectCrates) (config : OidcConfig) (store : SignInStore)
    (token : IdToken) (userinfo : Option (Except String (Json ν))) :
    Except String (List Char) := do
  let (subject, groups) ← subjectAndGroups crates config token userinfo
  let subject ← Fallible.present subject "identity could not be verified"
  let key ← (subjectKey crates config subject).mapError fun _ => "identity could not be verified"
  store.settings
  let groups ← store.groups key (groups.mergeSort (· ≤ ·)).dedup
  Fallible.require (key ≠ "local".toList) "identity could not be verified"
  store.principal key groups
  return key

end Votport.Auth
