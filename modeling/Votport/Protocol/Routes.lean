import Votport.Foundation.Saturating
import Mathlib.Data.List.Sort

/-!
# Signed route statements

The statements that ports exchange about a delivery: a route that its issuer has signed, a
receipt that its receiver has signed, a revocation and its acknowledgement.  Serializing
statements, hashing and verifying signatures are parameters.
-/

namespace Votport

/-! ### Texts -/

/-- A lowercase hexadecimal digit. -/
def isLowerHexDigit (c : Char) : Bool :=
  c.isDigit || (decide ('a' ≤ c) && decide (c ≤ 'f'))

/-- The text is in lowercase hexadecimal digits. -/
def lowerHex (value : String) : Bool :=
  value.toList.all isLowerHexDigit

/-- The text is a digest, or a port's key. -/
def isDigest (value : String) : Bool :=
  decide (value.utf8ByteSize = 64) && lowerHex value

/-- The text is an identifier. -/
def isId (value : String) : Bool :=
  decide (value ≠ "") && decide (value.utf8ByteSize ≤ 100)
    && value.toList.all fun c => c.isAlphanum || c = '-' || c = '_'

/-- The characters that trimming removes. -/
def isWhiteSpace (c : Char) : Bool :=
  decide (9 ≤ c.toNat ∧ c.toNat ≤ 13) || decide (0x2000 ≤ c.toNat ∧ c.toNat ≤ 0x200A)
    || [0x20, 0x85, 0xA0, 0x1680, 0x2028, 0x2029, 0x202F, 0x205F, 0x3000].contains c.toNat

/-- Nothing is left of the text when it is trimmed. -/
def trimIsEmpty (value : String) : Bool :=
  value.toList.all isWhiteSpace

/-- The value of a hexadecimal digit. -/
def hexDigit (c : Char) : Option UInt8 :=
  if '0' ≤ c ∧ c ≤ '9' then some (c.toNat - '0'.toNat).toUInt8
  else if 'a' ≤ c ∧ c ≤ 'f' then some (c.toNat - 'a'.toNat + 10).toUInt8
  else if 'A' ≤ c ∧ c ≤ 'F' then some (c.toNat - 'A'.toNat + 10).toUInt8
  else none

/-- The bytes that pairs of hexadecimal digits stand for. -/
def hexDecode : List Char → Option (List UInt8)
  | [] => some []
  | [_] => none
  | a :: b :: rest => do
      let high ← hexDigit a
      let low ← hexDigit b
      let bytes ← hexDecode rest
      return (high * 16 + low) :: bytes

/-- The lowercase digit of a value below sixteen. -/
def hexChar (n : Nat) : Char :=
  if n < 10 then Char.ofNat ('0'.toNat + n) else Char.ofNat ('a'.toNat + (n - 10))

/-- The lowercase hexadecimal text of bytes. -/
def hexEncode (bytes : List UInt8) : String :=
  String.ofList (bytes.flatMap fun b => [hexChar (b.toNat / 16), hexChar (b.toNat % 16)])

theorem hexDigit_hexChar : ∀ n < 16, hexDigit (hexChar n) = some n.toUInt8 := by
  decide +kernel

/-- Bytes can be read back from their text. -/
theorem hexDecode_hexEncode (bytes : List UInt8) :
  hexDecode (hexEncode bytes).toList = some bytes
  := by
  rw [hexEncode, String.toList_ofList]
  induction bytes with
  | nil => rfl
  | cons b bytes ih =>
      have hb : b.toNat < 256 := b.toNat_lt
      have hnibbles : (b.toNat / 16).toUInt8 * 16 + (b.toNat % 16).toUInt8 = b := by
        apply UInt8.toNat.inj
        simp
        omega
      rw [List.flatMap_cons, List.cons_append, List.cons_append, List.nil_append, hexDecode,
        hexDigit_hexChar _ (by omega), hexDigit_hexChar _ (by omega), ih]
      simp [hnibbles]

/-- The text of bytes determines them. -/
theorem hexEncode_injective {a b : List UInt8} (h : hexEncode a = hexEncode b) :
  a = b
  := by
  have := congrArg (fun s => hexDecode s.toList) h
  simpa [hexDecode_hexEncode] using this

theorem mem_hexEncode {bytes : List UInt8} {c : Char} (h : c ∈ (hexEncode bytes).toList) :
  ∃ n : Fin 16, c = hexChar n
  := by
  rw [hexEncode, String.toList_ofList, List.mem_flatMap] at h
  obtain ⟨b, -, hc⟩ := h
  have hb := b.toNat_lt
  rcases List.mem_cons.mp hc with rfl | hc
  · exact ⟨⟨b.toNat / 16, by omega⟩, rfl⟩
  · cases List.mem_singleton.mp hc
    exact ⟨⟨b.toNat % 16, by omega⟩, rfl⟩

theorem length_hexEncode (bytes : List UInt8) :
  (hexEncode bytes).toList.length = 2 * bytes.length
  := by
  rw [hexEncode, String.toList_ofList]
  induction bytes with
  | nil => rfl
  | cons b bytes ih =>
      rw [List.flatMap_cons, List.length_append, ih, List.length_cons]
      simp only [List.length_cons, List.length_nil]
      omega

/-- The bytes of a text determine it. -/
theorem utf8_injective {a b : String} (h : a.toUTF8.data.toList = b.toUTF8.data.toList) :
  a = b
  := String.toByteArray_inj.mp (ByteArray.ext (Array.toList_inj.mp h))

/-! ### Statements -/

/-- A map of texts, in the order of its keys. -/
structure Metadata where
  entries : List (String × String)
  sorted : entries.Pairwise (·.1 < ·.1)
deriving DecidableEq

theorem Metadata.sorted_nil : ([] : List (String × String)).Pairwise (·.1 < ·.1) :=
  List.Pairwise.nil

/-- What a route permits its receiver. -/
structure RoutePermission where
  receiver : String
  grant : String
  forwarding : Bool
deriving DecidableEq, Repr

/-- What the issuer of a route states. -/
structure RouteDocument where
  issuer : String
  operationId : String
  manifest : String
  label : String
  metadata : Metadata
  parentReceipt : Option String
  visited : List String
  permission : Option RoutePermission
deriving DecidableEq

/-- A route with the signature of its issuer. -/
structure SignedRoute where
  document : RouteDocument
  signature : String
deriving DecidableEq

/-- What the receiver of a route states. -/
structure ReceiptDocument where
  source : SignedRoute
  receiver : String
  uploadId : String
  receivedAt : UInt64
deriving DecidableEq

/-- A receipt with the signature of its receiver. -/
structure RouteReceipt where
  document : ReceiptDocument
  signature : String
deriving DecidableEq

/-- What the issuer of a route states to revoke it. -/
structure RevocationDocument where
  routeDigest : String
  source : SignedRoute
  receiver : String
deriving DecidableEq

/-- A revocation with the signature of the route's issuer. -/
structure RouteRevocation where
  document : RevocationDocument
  signature : String
deriving DecidableEq

/-- What the receiver of a revocation states. -/
structure RevokedDocument where
  request : RouteRevocation
  revokedAt : UInt64
deriving DecidableEq

/-- An acknowledgement with the signature of the receiver. -/
structure RouteRevoked where
  document : RevokedDocument
  signature : String
deriving DecidableEq

/-- What a port reads of the body of a message. -/
structure PortBody where
  grant : Option String
  credential : Option String
  next : Option String
deriving DecidableEq, Repr

/-- A message from port to port. -/
structure PortMessage where
  issuer : String
  audience : String
  purpose : String
  nonce : String
  expiresAt : UInt64
  body : PortBody
deriving DecidableEq

/-- A message with the signature of its issuer. -/
structure SignedPortMessage where
  document : PortMessage
  signature : String
deriving DecidableEq

/-- What a port signs. -/
inductive Statement
  | port (document : PortMessage)
  | route (document : RouteDocument)
  | receipt (document : ReceiptDocument)
  | revocation (document : RevocationDocument)
  | revoked (document : RevokedDocument)
deriving DecidableEq

/-- The domain that a statement is signed under. -/
def Statement.domain : Statement → String
  | .port _ => "votport-port-message-v1\x00"
  | .route _ => "votport-trade-route-v1\x00"
  | .receipt _ => "votport-route-receipt-v1\x00"
  | .revocation _ => "votport-route-revoke-v1\x00"
  | .revoked _ => "votport-route-revoked-v1\x00"

/-- What the statements take from the crates they use. -/
structure StatementEnv where
  /-- The serialized statement. -/
  json : Statement → List UInt8
  /-- The serialized receipt with its signature. -/
  receiptJson : RouteReceipt → List UInt8
  sha256 : List UInt8 → List UInt8
  /-- Verifies the signature of a message with a key of 32 bytes. -/
  verifyStrict : List UInt8 → List UInt8 → List UInt8 → Bool

variable (env : StatementEnv)

/-- The bytes that are signed. -/
def Statement.message (s : Statement) : List UInt8 :=
  s.domain.toUTF8.data.toList ++ env.json s

/-- The signature of a message is one of the key, and in lowercase. -/
def verify (key signature : String) (message : List UInt8) : Bool :=
  lowerHex signature
    && (hexDecode key.toList).any fun k => (hexDecode signature.toList).any fun s =>
      k.length = 32 && s.length = 64 && env.verifyStrict k s message

/-! ### Verifying -/

/-- How far the clocks of two ports may differ. -/
def portMessageSkew : UInt64 := 300

/-- The message is for this purpose and audience, has not expired, and is signed. -/
def SignedPortMessage.verify (signed : SignedPortMessage) (purpose audience : String)
    (now : UInt64) : Bool :=
  decide (signed.document.purpose = purpose)
    && decide (signed.document.audience = audience)
    && decide (now < Saturating.add signed.document.expiresAt portMessageSkew)
    && isId signed.document.nonce
    && isDigest signed.document.issuer
    && Votport.verify env signed.document.issuer signed.signature
        ((Statement.port signed.document).message env)

/-- The route is well formed and signed by its issuer, the last of the ports it visited. -/
def SignedRoute.verify (route : SignedRoute) : Bool :=
  let document := route.document
  isDigest document.issuer
    && isDigest document.manifest
    && isId document.operationId
    && !trimIsEmpty document.label
    && decide (document.label.utf8ByteSize ≤ 200)
    && decide (document.metadata.entries.length ≤ 50)
    && document.metadata.entries.all (fun e => isId e.1 && decide (e.2.utf8ByteSize ≤ 4096))
    && document.parentReceipt.all isDigest
    && !document.visited.isEmpty
    && decide (document.visited.length ≤ 8)
    && document.visited.all isDigest
    && decide (document.visited.dedup.length = document.visited.length)
    && decide (document.visited.getLast? = some document.issuer)
    && document.permission.all (fun p => isDigest p.receiver && isId p.grant)
    && Votport.verify env document.issuer route.signature
        ((Statement.route document).message env)

/-- The port may receive the route. -/
def SignedRoute.admits (route : SignedRoute) (receiver : String) : Bool :=
  route.verify env
    && isDigest receiver
    && !route.document.visited.contains receiver
    && route.document.permission.all (·.receiver = receiver)

/-- The receipt is signed by the port, which may receive its route. -/
def RouteReceipt.verify (receipt : RouteReceipt) (receiver : String) : Bool :=
  decide (receipt.document.receiver = receiver)
    && receipt.document.source.admits env receiver
    && isId receipt.document.uploadId
    && decide (0 < receipt.document.receivedAt)
    && Votport.verify env receiver receipt.signature
        ((Statement.receipt receipt.document).message env)

/-- The digest of a receipt. -/
def RouteReceipt.digest (receipt : RouteReceipt) : String :=
  hexEncode (env.sha256 (env.receiptJson receipt))

/-- The receipt is the one of the hop at a place of the route. -/
def verifyAncestor (source : SignedRoute) (ancestors : List RouteReceipt)
    (receipt : RouteReceipt) (index : Nat) : Bool :=
  source.document.visited[index + 1]?.any (receipt.verify env)
    && receipt.document.source.document.permission.all RoutePermission.forwarding
    && decide (receipt.document.source.document.visited
        = source.document.visited.take (index + 1))
    && decide (receipt.document.source.document.manifest = source.document.manifest)
    && decide (receipt.document.source.document.parentReceipt
        = if index = 0 then none else ancestors[index - 1]?.map (RouteReceipt.digest env))

/-- The receipts are those of the hops before the route. -/
def verifyAncestry (source : SignedRoute) (ancestors : List RouteReceipt) : Bool :=
  source.verify env
    && decide (ancestors.length + 1 = source.document.visited.length)
    && decide (source.document.parentReceipt
        = ancestors.getLast?.map (RouteReceipt.digest env))
    && ancestors.zipIdx.all fun hop => verifyAncestor env source ancestors hop.1 hop.2

/-- The check a port makes of a route it is sent. -/
def acceptsRoute (receiver : String) (source : SignedRoute) (ancestors : List RouteReceipt) :
    Bool :=
  source.admits env receiver && verifyAncestry env source ancestors

/-- The revocation is signed by the issuer of a route that its receiver may receive. -/
def RouteRevocation.verify (revocation : RouteRevocation) : Bool :=
  isDigest revocation.document.routeDigest
    && revocation.document.source.admits env revocation.document.receiver
    && Votport.verify env revocation.document.source.document.issuer revocation.signature
        ((Statement.revocation revocation.document).message env)

/-- The acknowledgement is of the request, and signed by its receiver. -/
def RouteRevoked.verify (revoked : RouteRevoked) (request : RouteRevocation) : Bool :=
  decide (revoked.document.request = request)
    && request.verify env
    && decide (0 < revoked.document.revokedAt)
    && Votport.verify env request.document.receiver revoked.signature
        ((Statement.revoked revoked.document).message env)

end Votport
