import Votport.Foundation.Fields
import Votport.Protocol.Statements

/-!
# Access tokens

A token is an expiry, a nonce and the MAC of both under a context: a link with its password, an
enrolled recipient of a delivery, the lease of a download with its holder, or the session of an
admin.  The fields are cut at dots.  The MAC, the serialization of an identity and the encoding of
it in a token are parameters.
-/

namespace Votport

variable {ι : Type*}

/-! ### Issuing -/

/-- What tokens take from the crates, for identities in `ι`. -/
structure TokenCrates (ι : Type*) where
  /-- HMAC-SHA256, of a key and a message. -/
  hmac : List UInt8 → List UInt8 → List UInt8
  /-- `serde_json::to_string`. -/
  identityPayload : ι → String
  /-- `serde_json::from_str`. -/
  parseIdentity : String → Option ι
  /-- The base64 of the bytes of a text. -/
  encodePayload : String → List Char
  /-- The text whose bytes have this base64. -/
  decodePayload : List Char → Option String

/-- The text has no NUL. -/
def NulFree (text : String) : Prop := 0 ∉ textBytes text

instance (text : String) : Decidable (NulFree text) := inferInstanceAs (Decidable (¬ _))

/-- What is known of them: an identity is read back from its payload, JSON has no NUL, and a text
has one base64, without dots. -/
structure TokenCrates.Lawful (crates : TokenCrates ι) : Prop where
  parse_payload : ∀ id, crates.parseIdentity (crates.identityPayload id) = some id
  parse_nulFree : ∀ payload id, crates.parseIdentity payload = some id → NulFree payload
  decode_payload : ∀ id, crates.decodePayload (crates.encodePayload (crates.identityPayload id))
    = some (crates.identityPayload id)
  decode_canonical : ∀ text payload, crates.decodePayload text = some payload →
    text = crates.encodePayload payload
  encode_dotless : ∀ id, '.' ∉ crates.encodePayload (crates.identityPayload id)

/-- The bytes that a MAC is of. -/
def tokenMessage (context : List (List UInt8)) (expires : UInt64) (nonce : List Char) :
    List UInt8 :=
  Fields.terminated 0 context
    ++ (Fields.leBytes 8 expires.toNat ++ textBytes (String.ofList nonce))

/-- The hexadecimal text of a MAC. -/
def TokenCrates.tokenMac (crates : TokenCrates ι) (secret : List UInt8)
    (context : List (List UInt8)) (expires : UInt64) (nonce : List Char) : List Char :=
  (hexEncode (crates.hmac secret (tokenMessage context expires nonce))).toList

/-- The parts of the context of a link token. -/
def linkContext (linkId phc : String) : List (List UInt8) :=
  [textBytes "votport-link", textBytes linkId, textBytes phc]

/-- The parts of the context of a recipient's token. -/
def recipientContext (grant tokenHash : String) (revision : UInt64) (holder : String) :
    List (List UInt8) :=
  [textBytes "recipient", textBytes grant, textBytes tokenHash,
    textBytes (String.ofList (decimalDigits revision.toNat)), textBytes holder]

/-- The parts of the context of a download lease. -/
def leaseContext (grantId tokenHash : String) (fileIndex : UInt64) (holder : String) :
    List (List UInt8) :=
  [textBytes "votport-download-lease", textBytes grantId, textBytes tokenHash,
    textBytes (String.ofList (decimalDigits fileIndex.toNat)), textBytes holder]

/-- The parts of the context of an admin's session. -/
def adminContext (payload version : String) : List (List UInt8) :=
  [textBytes "votport-admin-v4", textBytes payload, textBytes version]

/-- `issue_token`, once the expiry and the nonce are known. -/
def TokenCrates.issueToken (crates : TokenCrates ι) (secret : List UInt8)
    (context : List (List UInt8)) (expires : UInt64) (nonce : List Char) : List Char :=
  decimalDigits expires.toNat
    ++ '.' :: (nonce ++ '.' :: crates.tokenMac secret context expires nonce)

/-- The fields of an admin's token after its expiry. -/
def TokenCrates.adminFields (crates : TokenCrates ι) (secret : List UInt8)
    (payload version : String) (expires : UInt64) (nonce : List Char) : List Char :=
  crates.encodePayload payload
    ++ '.' :: (nonce ++ '.' :: crates.tokenMac secret (adminContext payload version) expires nonce)

/-- What a token is issued for. -/
inductive IssueContext (ι : Type*)
  | link (linkId phc : String)
  | recipient (grant tokenHash : String) (revision : UInt64) (holder : String)
  | lease (grantId tokenHash : String) (fileIndex : UInt64) (holder : String)
  | admin (identity : ι) (version : String)

/-- A token that is issued. -/
structure Issue (ι : Type*) where
  context : IssueContext ι
  expires : UInt64
  nonce : List Char

/-- The parts of the context. -/
def IssueContext.parts (crates : TokenCrates ι) : IssueContext ι → List (List UInt8)
  | link linkId phc => linkContext linkId phc
  | recipient grant tokenHash revision holder => recipientContext grant tokenHash revision holder
  | lease grantId tokenHash fileIndex holder => leaseContext grantId tokenHash fileIndex holder
  | admin identity version => adminContext (crates.identityPayload identity) version

/-- The texts of the context have no NUL. -/
def IssueContext.NulFree : IssueContext ι → Prop
  | link linkId phc => Votport.NulFree linkId ∧ Votport.NulFree phc
  | recipient grant tokenHash _ holder =>
      Votport.NulFree grant ∧ Votport.NulFree tokenHash ∧ Votport.NulFree holder
  | lease grantId tokenHash _ holder =>
      Votport.NulFree grantId ∧ Votport.NulFree tokenHash ∧ Votport.NulFree holder
  | admin _ version => Votport.NulFree version

/-- The bytes that the MAC of an issued token is of. -/
def Issue.message (crates : TokenCrates ι) (issue : Issue ι) : List UInt8 :=
  tokenMessage (issue.context.parts crates) issue.expires issue.nonce

/-- The text of an issued token. -/
def Issue.text (crates : TokenCrates ι) (secret : List UInt8) (issue : Issue ι) : List Char :=
  match issue.context with
  | .link linkId phc =>
      crates.issueToken secret (linkContext linkId phc) issue.expires issue.nonce
  | .recipient grant tokenHash revision holder =>
      crates.issueToken secret (recipientContext grant tokenHash revision holder) issue.expires
        issue.nonce
  | .lease grantId tokenHash fileIndex holder =>
      let token := crates.issueToken secret (leaseContext grantId tokenHash fileIndex holder)
        issue.expires issue.nonce
      if holder = "" then token else token ++ '.' :: holder.toList
  | .admin identity version =>
      decimalDigits issue.expires.toNat
        ++ '.' :: crates.adminFields secret (crates.identityPayload identity) version issue.expires
            issue.nonce

/-! ### Verifying -/

/-- `str::parse::<u64>`. -/
def parseU64 (text : List Char) : Option UInt64 :=
  let digits := if text.head? = some '+' then text.tail else text
  if digits ≠ [] ∧ digits.all Char.isDigit = true ∧ Nat.ofDigitChars 10 digits 0 < 2 ^ 64 then
    some (UInt64.ofNat (Nat.ofDigitChars 10 digits 0))
  else none

/-- `verify_token`, at the time `now`. -/
def TokenCrates.verifyToken (crates : TokenCrates ι) (secret : List UInt8) (now : UInt64)
    (context : List (List UInt8)) (token : List Char) : Bool :=
  match Fields.splitOnce '.' token with
  | none => false
  | some (expires, rest) =>
      match Fields.splitOnce '.' rest with
      | none => false
      | some (nonce, mac) =>
          match (parseU64 expires).filter fun value => decimalDigits value.toNat = expires with
          | none => false
          | some value =>
              if value ≤ now then false
              else decide (crates.tokenMac secret context value nonce = mac)

/-- `verify_link_token`. -/
def TokenCrates.verifyLinkToken (crates : TokenCrates ι) (secret : List UInt8) (now : UInt64)
    (linkId phc : String) (token : List Char) : Bool :=
  crates.verifyToken secret now (linkContext linkId phc) token

/-- `verify_recipient`. -/
def TokenCrates.verifyRecipient (crates : TokenCrates ι) (secret : List UInt8) (now : UInt64)
    (grant tokenHash : String) (revision : UInt64) (holder : String) (token : List Char) : Bool :=
  crates.verifyToken secret now (recipientContext grant tokenHash revision holder) token

/-- What is before the third dot of a lease, and what is after it. -/
def splitLease (lease : List Char) : Option (List Char × List Char) :=
  (Fields.splitOnce '.' lease).bind fun p => (Fields.splitOnce '.' p.2).bind fun q =>
    (Fields.splitOnce '.' q.2).map fun r => (p.1 ++ '.' :: (q.1 ++ '.' :: r.1), r.2)

/-- `verify_download_lease`: the holder, when the lease verifies. -/
def TokenCrates.verifyDownloadLease (crates : TokenCrates ι) (secret : List UInt8) (now : UInt64)
    (grantId tokenHash : String) (fileIndex : UInt64) (lease : List Char) : Option String :=
  let verified (token holder : List Char) :=
    if crates.verifyToken secret now
        (leaseContext grantId tokenHash fileIndex (String.ofList holder)) token = true then
      some (String.ofList holder)
    else none
  match splitLease lease with
  | some (token, holder) => if holder = [] then none else verified token holder
  | none => verified lease []

/-- `verify_admin_token`: the identity and the expiry, when the token verifies. -/
def TokenCrates.verifyAdminToken (crates : TokenCrates ι) (secret : List UInt8) (now : UInt64)
    (version : String) (token : List Char) : Option (ι × UInt64) :=
  (Fields.splitOnce '.' token).bind fun p => (Fields.splitOnce '.' p.2).bind fun q =>
    (Fields.splitOnce '.' q.2).bind fun r =>
      if '.' ∈ r.2 then none
      else (parseU64 p.1).bind fun expires =>
        if expires ≤ now then none
        else (crates.decodePayload q.1).bind fun payload =>
          if crates.tokenMac secret (adminContext payload version) expires r.1 = r.2 then
            (crates.parseIdentity payload).map fun identity => (identity, expires)
          else none

/-- What a presented token is asked for. -/
inductive TokenRequest
  | link (linkId phc : String)
  | recipient (grant tokenHash : String) (revision : UInt64) (holder : String)
  | lease (grantId tokenHash : String) (fileIndex : UInt64)
  | admin (version : String)

/-- What a token that verifies gives. -/
inductive TokenAnswer (ι : Type*)
  | granted
  | holder (holder : String)
  | identity (identity : ι) (expires : UInt64)
deriving DecidableEq

/-- Verifies a token for what is asked. -/
def TokenCrates.verify (crates : TokenCrates ι) (secret : List UInt8) (now : UInt64)
    (token : List Char) : TokenRequest → Option (TokenAnswer ι)
  | .link linkId phc =>
      if crates.verifyLinkToken secret now linkId phc token = true then some .granted else none
  | .recipient grant tokenHash revision holder =>
      if crates.verifyRecipient secret now grant tokenHash revision holder token = true then
        some .granted
      else none
  | .lease grantId tokenHash fileIndex =>
      (crates.verifyDownloadLease secret now grantId tokenHash fileIndex token).map .holder
  | .admin version =>
      (crates.verifyAdminToken secret now version token).map fun p => .identity p.1 p.2

/-- The texts of what is asked have no NUL. -/
def TokenRequest.NulFree : TokenRequest → Prop
  | link linkId phc => Votport.NulFree linkId ∧ Votport.NulFree phc
  | recipient grant tokenHash _ holder =>
      Votport.NulFree grant ∧ Votport.NulFree tokenHash ∧ Votport.NulFree holder
  | lease grantId tokenHash _ => Votport.NulFree grantId ∧ Votport.NulFree tokenHash
  | admin version => Votport.NulFree version

/-- The token was issued for what is asked, and gives this answer. -/
def Issue.Answers (issue : Issue ι) (asked : TokenRequest) (answer : TokenAnswer ι) : Prop :=
  match issue.context, asked with
  | .link linkId phc, .link linkId' phc' => linkId = linkId' ∧ phc = phc' ∧ answer = .granted
  | .recipient grant tokenHash revision holder, .recipient grant' tokenHash' revision' holder' =>
      grant = grant' ∧ tokenHash = tokenHash' ∧ revision = revision' ∧ holder = holder'
        ∧ answer = .granted
  | .lease grantId tokenHash fileIndex holder, .lease grantId' tokenHash' fileIndex' =>
      grantId = grantId' ∧ tokenHash = tokenHash' ∧ fileIndex = fileIndex'
        ∧ answer = .holder holder
  | .admin identity version, .admin version' =>
      version = version' ∧ answer = .identity identity issue.expires
  | _, _ => False

end Votport
