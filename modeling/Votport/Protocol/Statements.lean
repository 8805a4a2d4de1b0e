import Votport.Foundation.Json
import Votport.Protocol.Routes

/-!
# The bytes that are signed

Eight kinds of statements are signed: the messages of ports, the routes with their receipts,
revocations and acknowledgements, and the challenges, the evidence and the proofs of access of
recipients.  What is signed is the name of the kind, which ends in a NUL, and the JSON text of
the statement.  The text of a floating point number, the hash and the signature are parameters.
-/

namespace Votport

/-! ### Canonical texts -/

/-- A lowercase digit is the text of its value. -/
theorem hexChar_of_lowerHex
    {c : Char} {v : UInt8} (hc : isLowerHexDigit c = true) (hv : hexDigit c = some v) :
  v.toNat < 16 ∧ hexChar v.toNat = c
  := by
  have hdigits : ∀ n : Fin 128, isLowerHexDigit (Char.ofNat n) = true →
      (hexDigit (Char.ofNat n)).all
        (fun v => decide (v.toNat < 16) && decide (hexChar v.toNat = Char.ofNat n)) := by
    decide +kernel
  have hsmall : c.toNat < 128 := by
    simp only [isLowerHexDigit, Char.isDigit, Bool.or_eq_true, Bool.and_eq_true,
      decide_eq_true_eq] at hc
    rcases hc with ⟨_, hle⟩ | ⟨_, hle⟩
    · exact lt_of_le_of_lt (show c.toNat ≤ 57 from hle) (by decide)
    · exact lt_of_le_of_lt (show c.toNat ≤ 102 from hle) (by decide)
  have hd := hdigits ⟨c.toNat, hsmall⟩
  rw [Char.ofNat_toNat, hv] at hd
  simpa using hd hc

/-- Text in lowercase digits is the text of its bytes. -/
theorem flatMap_hexChar_of_hexDecode :
  ∀ {text : List Char} {bytes : List UInt8}, text.all isLowerHexDigit = true →
    hexDecode text = some bytes →
      bytes.flatMap (fun b => [hexChar (b.toNat / 16), hexChar (b.toNat % 16)]) = text
  | [], bytes, _, hbytes => by
      obtain rfl := Option.some.inj hbytes
      rfl
  | [_], _, _, hbytes => by cases hbytes
  | a :: b :: rest, bytes, htext, hbytes => by
      rw [List.all_cons, List.all_cons, Bool.and_eq_true, Bool.and_eq_true] at htext
      simp only [hexDecode, Option.bind_eq_bind, Option.bind_eq_some_iff] at hbytes
      obtain ⟨high, hhigh, low, hlow, tail, htail, hbytes⟩ := hbytes
      obtain rfl := Option.some.inj hbytes
      obtain ⟨hhigh', ha⟩ := hexChar_of_lowerHex htext.1 hhigh
      obtain ⟨hlow', hb⟩ := hexChar_of_lowerHex htext.2.1 hlow
      have hbyte : (high * 16 + low).toNat = high.toNat * 16 + low.toNat := by
        simp only [UInt8.toNat_add, UInt8.toNat_mul, UInt8.reduceToNat]
        omega
      rw [List.flatMap_cons, flatMap_hexChar_of_hexDecode htext.2.2 htail, hbyte,
        show (high.toNat * 16 + low.toNat) / 16 = high.toNat by omega,
        show (high.toNat * 16 + low.toNat) % 16 = low.toNat by omega, ha, hb]
      rfl

/-- Text in lowercase digits is the text of its bytes. -/
theorem hexEncode_of_hexDecode
    {text : String} {bytes : List UInt8} (htext : lowerHex text = true)
    (hbytes : hexDecode text.toList = some bytes) :
  hexEncode bytes = text
  := by
  rw [hexEncode, flatMap_hexChar_of_hexDecode htext hbytes, String.ofList_toList]

/-! ### Numbers -/

/-- The texts of finite floating point numbers, which have a point or an exponent. -/
structure FloatFormat (φ : Type) where
  text : φ → List Char
  chars : ∀ x, ∀ c ∈ text x, Json.isNumberChar c = true
  pointed : ∀ x, '.' ∈ text x ∨ 'e' ∈ text x
  injective : Function.Injective text

/-- A number of a JSON value. -/
inductive Number (φ : Type)
  | posInt (n : UInt64)
  | negInt (n : Int64) (h : n < 0)
  | float (x : φ)

/-- The decimal digits of a number. -/
def decimalDigits (n : Nat) : List Char := Nat.toDigits 10 n

theorem isDigit_of_mem_decimalDigits {n : Nat} {c : Char} (hc : c ∈ decimalDigits n) :
  c.isDigit = true
  := Nat.isDigit_of_mem_toDigits (by decide) (by decide) hc

/-- The digits of a number determine it. -/
theorem decimalDigits_injective :
  Function.Injective decimalDigits
  := by
  intro m n h
  have hread := congrArg (Nat.ofDigitChars 10 · 0) h
  simpa [decimalDigits] using hread

variable {φ : Type}

/-- A number as it is written. -/
def Number.text (format : FloatFormat φ) : Number φ → List Char
  | .posInt n => decimalDigits n.toNat
  | .negInt n _ => '-' :: decimalDigits n.toInt.natAbs
  | .float x => format.text x

theorem isNumberChar_of_isDigit {c : Char} (hc : c.isDigit = true) :
  Json.isNumberChar c = true
  := by
  simp [Json.isNumberChar, hc]

/-- The text of a floating point number is not the text of an integer. -/
theorem FloatFormat.text_ne (format : FloatFormat φ) (x : φ) {text : List Char}
    (htext : ∀ c ∈ text, c.isDigit = true ∨ c = '-') :
  format.text x ≠ text
  := by
  intro h
  rcases format.pointed x with hpoint | hpoint
  · rcases htext _ (h ▸ hpoint) with hc | hc <;> cases hc
  · rcases htext _ (h ▸ hpoint) with hc | hc <;> cases hc

theorem Number.negInt_text_ne {n : Int64} {m : Nat} :
  '-' :: decimalDigits n.toInt.natAbs ≠ decimalDigits m
  := by
  intro h
  have hc : '-'.isDigit = true := isDigit_of_mem_decimalDigits (h ▸ List.mem_cons_self)
  cases hc

theorem isDigit_or_of_mem_negative {n : Nat} :
  ∀ c ∈ '-' :: decimalDigits n, c.isDigit = true ∨ c = '-'
  := by
  intro c hc
  rcases List.mem_cons.mp hc with rfl | hc
  · exact .inr rfl
  · exact .inl (isDigit_of_mem_decimalDigits hc)

/-- The text of a number determines it. -/
theorem Number.text_injective (format : FloatFormat φ) :
  Function.Injective (Number.text format)
  := by
  intro a b h
  cases a with
  | posInt n =>
      cases b with
      | posInt m => rw [UInt64.toNat_inj.mp (decimalDigits_injective h)]
      | negInt m hm => cases Number.negInt_text_ne h.symm
      | float y => cases format.text_ne y (fun c hc => .inl (isDigit_of_mem_decimalDigits hc)) h.symm
  | negInt n hn =>
      cases b with
      | posInt m => cases Number.negInt_text_ne h
      | negInt m hm =>
          have habs := decimalDigits_injective (List.cons.inj h).2
          have hn' := Int64.lt_iff_toInt_lt.mp hn
          have hm' := Int64.lt_iff_toInt_lt.mp hm
          have hint : n.toInt = m.toInt := by
            rw [Int64.toInt_zero] at hn' hm'
            omega
          obtain rfl := Int64.toInt_inj.mp hint
          rfl
      | float y => cases format.text_ne y isDigit_or_of_mem_negative h.symm
  | float x =>
      cases b with
      | posInt m => cases format.text_ne x (fun c hc => .inl (isDigit_of_mem_decimalDigits hc)) h
      | negInt m hm => cases format.text_ne x isDigit_or_of_mem_negative h
      | float y => rw [format.injective h]

/-- How the numbers of JSON values are written. -/
def FloatFormat.numbers (format : FloatFormat φ) : Json.NumberFormat (Number φ) where
  text := Number.text format
  nonempty n := by
    cases n with
    | posInt n => exact Nat.toDigits_ne_nil
    | negInt n h => exact List.cons_ne_nil _ _
    | float x => exact format.text_ne x nofun
  chars n c hc := by
    cases n with
    | posInt n => exact isNumberChar_of_isDigit (isDigit_of_mem_decimalDigits hc)
    | negInt n h =>
        rcases List.mem_cons.mp hc with rfl | hc
        · rfl
        · exact isNumberChar_of_isDigit (isDigit_of_mem_decimalDigits hc)
    | float x => exact format.chars x c hc
  injective := Number.text_injective format

/-! ### Documents -/

/-- A JSON value that a message carries: its objects are sorted maps. -/
structure Value (φ : Type) where
  json : Json (Number φ)
  ordered : json.Ordered

/-- What a port states in a message, with the whole of the body. -/
structure PortStatement (φ : Type) where
  issuer : String
  audience : String
  purpose : String
  nonce : String
  expiresAt : UInt64
  body : Value φ

/-- A message with the whole of its body and the signature of its issuer. -/
structure SignedPortStatement (φ : Type) where
  document : PortStatement φ
  signature : String

/-- What the server states about a device that asks for a delivery. -/
structure Challenge where
  origin : String
  grantId : String
  manifest : String
  holder : String
  nonce : String
  issuedAt : UInt64
  expiresAt : UInt64
deriving DecidableEq

/-- A challenge with the signature of the server. -/
structure SignedChallenge where
  challenge : Challenge
  issuer : String
  signature : String
deriving DecidableEq

/-- What a recipient says of a delivery. -/
inductive EvidenceKind
  | verified
  | accepted
deriving DecidableEq

/-- What a recipient says of a delivery, with the signature of the device. -/
structure Evidence where
  authorization : SignedChallenge
  kind : EvidenceKind
  signature : String
deriving DecidableEq

/-- A challenge with the signature of the device. -/
structure AccessProof where
  authorization : SignedChallenge
  signature : String
deriving DecidableEq

/-! ### Serializing -/

/-- A text, a time and a choice as JSON values. -/
def jsonTime (n : UInt64) : Json (Number φ) := .num (.posInt n)

def jsonOption : Option String → Json (Number φ)
  | none => .null
  | some s => .str s

def PortStatement.toJson (d : PortStatement φ) : Json (Number φ) :=
  .obj [("issuer", .str d.issuer), ("audience", .str d.audience), ("purpose", .str d.purpose),
    ("nonce", .str d.nonce), ("expires_at", jsonTime d.expiresAt), ("body", d.body.json)]

def Metadata.toJson (m : Metadata) : Json (Number φ) :=
  .obj (m.entries.map fun e => (e.1, .str e.2))

def RoutePermission.toJson (p : RoutePermission) : Json (Number φ) :=
  .obj [("receiver", .str p.receiver), ("grant", .str p.grant), ("forwarding", .bool p.forwarding)]

/-- The permission is left out where a route has none. -/
def RouteDocument.toJson (d : RouteDocument) : Json (Number φ) :=
  .obj ([("issuer", .str d.issuer), ("operation_id", .str d.operationId),
    ("manifest", .str d.manifest), ("label", .str d.label), ("metadata", d.metadata.toJson),
    ("parent_receipt", jsonOption d.parentReceipt), ("visited", .arr (d.visited.map .str))]
    ++ d.permission.toList.map fun p => ("permission", p.toJson))

def SignedRoute.toJson (r : SignedRoute) : Json (Number φ) :=
  .obj [("document", r.document.toJson), ("signature", .str r.signature)]

def ReceiptDocument.toJson (d : ReceiptDocument) : Json (Number φ) :=
  .obj [("source", d.source.toJson), ("receiver", .str d.receiver), ("upload_id", .str d.uploadId),
    ("received_at", jsonTime d.receivedAt)]

def RouteReceipt.toJson (r : RouteReceipt) : Json (Number φ) :=
  .obj [("document", r.document.toJson), ("signature", .str r.signature)]

def RevocationDocument.toJson (d : RevocationDocument) : Json (Number φ) :=
  .obj [("route_digest", .str d.routeDigest), ("source", d.source.toJson),
    ("receiver", .str d.receiver)]

def RouteRevocation.toJson (r : RouteRevocation) : Json (Number φ) :=
  .obj [("document", r.document.toJson), ("signature", .str r.signature)]

def RevokedDocument.toJson (d : RevokedDocument) : Json (Number φ) :=
  .obj [("request", d.request.toJson), ("revoked_at", jsonTime d.revokedAt)]

def Challenge.toJson (c : Challenge) : Json (Number φ) :=
  .obj [("origin", .str c.origin), ("grant_id", .str c.grantId), ("manifest", .str c.manifest),
    ("holder", .str c.holder), ("nonce", .str c.nonce), ("issued_at", jsonTime c.issuedAt),
    ("expires_at", jsonTime c.expiresAt)]

def SignedChallenge.toJson (c : SignedChallenge) : Json (Number φ) :=
  .obj [("challenge", c.challenge.toJson), ("issuer", .str c.issuer), ("signature", .str c.signature)]

def EvidenceKind.toJson : EvidenceKind → Json (Number φ)
  | .verified => .str "verified"
  | .accepted => .str "accepted"

theorem jsonTime_injective : Function.Injective (jsonTime : UInt64 → Json (Number φ)) := by
  intro a b h
  cases h
  rfl

theorem jsonOption_injective :
  Function.Injective (jsonOption : Option String → Json (Number φ))
  := by
  intro a b h
  cases a with
  | none =>
      cases b with
      | none => rfl
      | some s => cases h
  | some s =>
      cases b with
      | none => cases h
      | some t =>
          cases h
          rfl

/-! #### Different documents are serialized differently -/

theorem PortStatement.toJson_injective :
  Function.Injective (toJson : PortStatement φ → Json (Number φ))
  := by
  rintro ⟨issuer, audience, purpose, nonce, expires, ⟨body, _⟩⟩
    ⟨issuer', audience', purpose', nonce', expires', ⟨body', _⟩⟩ h
  cases h
  rfl

theorem Metadata.toJson_injective :
  Function.Injective (toJson : Metadata → Json (Number φ))
  := by
  rintro ⟨entries, _⟩ ⟨entries', _⟩ h
  have hentry : Function.Injective
      (fun e : String × String => ((e.1, .str e.2) : String × Json (Number φ))) := by
    rintro ⟨key, value⟩ ⟨key', value'⟩ he
    cases he
    rfl
  obtain rfl := hentry.list_map (Json.obj.inj h)
  rfl

theorem RoutePermission.toJson_injective :
  Function.Injective (toJson : RoutePermission → Json (Number φ))
  := by
  rintro ⟨receiver, grant, forwarding⟩ ⟨receiver', grant', forwarding'⟩ h
  cases h
  rfl

theorem RouteDocument.toJson_injective :
  Function.Injective (toJson : RouteDocument → Json (Number φ))
  := by
  rintro ⟨issuer, operation, manifest, label, metadata, parent, visited, permission⟩
    ⟨issuer', operation', manifest', label', metadata', parent', visited', permission'⟩ h
  obtain ⟨hfields, hpermission⟩ := List.append_inj (Json.obj.inj h) rfl
  simp only [List.cons.injEq, Prod.mk.injEq, Json.str.injEq, Json.arr.injEq, true_and,
    and_true] at hfields
  obtain ⟨rfl, rfl, rfl, rfl, hmetadata, hparent, hvisited⟩ := hfields
  obtain rfl := Metadata.toJson_injective hmetadata
  obtain rfl := jsonOption_injective hparent
  have hstr : Function.Injective (Json.str : String → Json (Number φ)) := by
    intro a b he
    apply Json.str.inj he
  obtain rfl := hstr.list_map hvisited
  have hentry : Function.Injective
      (fun p : RoutePermission => (("permission", p.toJson) : String × Json (Number φ))) := by
    intro a b he
    apply RoutePermission.toJson_injective (Prod.mk.inj he).2
  have hlist : permission.toList = permission'.toList := hentry.list_map hpermission
  have hhead := congrArg List.head? hlist
  rw [Option.head?_toList, Option.head?_toList] at hhead
  rw [hhead]

theorem SignedRoute.toJson_injective :
  Function.Injective (toJson : SignedRoute → Json (Number φ))
  := by
  rintro ⟨document, signature⟩ ⟨document', signature'⟩ h
  simp only [toJson, Json.obj.injEq, List.cons.injEq, Prod.mk.injEq, Json.str.injEq, true_and,
    and_true] at h
  obtain ⟨hdocument, rfl⟩ := h
  rw [RouteDocument.toJson_injective hdocument]

theorem ReceiptDocument.toJson_injective :
  Function.Injective (toJson : ReceiptDocument → Json (Number φ))
  := by
  rintro ⟨source, receiver, upload, received⟩ ⟨source', receiver', upload', received'⟩ h
  simp only [toJson, Json.obj.injEq, List.cons.injEq, Prod.mk.injEq, Json.str.injEq, true_and,
    and_true] at h
  obtain ⟨hsource, rfl, rfl, hreceived⟩ := h
  rw [SignedRoute.toJson_injective hsource, jsonTime_injective hreceived]

theorem RevocationDocument.toJson_injective :
  Function.Injective (toJson : RevocationDocument → Json (Number φ))
  := by
  rintro ⟨route, source, receiver⟩ ⟨route', source', receiver'⟩ h
  simp only [toJson, Json.obj.injEq, List.cons.injEq, Prod.mk.injEq, Json.str.injEq, true_and,
    and_true] at h
  obtain ⟨rfl, hsource, rfl⟩ := h
  rw [SignedRoute.toJson_injective hsource]

theorem RouteRevocation.toJson_injective :
  Function.Injective (toJson : RouteRevocation → Json (Number φ))
  := by
  rintro ⟨document, signature⟩ ⟨document', signature'⟩ h
  simp only [toJson, Json.obj.injEq, List.cons.injEq, Prod.mk.injEq, Json.str.injEq, true_and,
    and_true] at h
  obtain ⟨hdocument, rfl⟩ := h
  rw [RevocationDocument.toJson_injective hdocument]

theorem RevokedDocument.toJson_injective :
  Function.Injective (toJson : RevokedDocument → Json (Number φ))
  := by
  rintro ⟨request, revoked⟩ ⟨request', revoked'⟩ h
  simp only [toJson, Json.obj.injEq, List.cons.injEq, Prod.mk.injEq, true_and, and_true] at h
  obtain ⟨hrequest, hrevoked⟩ := h
  rw [RouteRevocation.toJson_injective hrequest, jsonTime_injective hrevoked]

theorem Challenge.toJson_injective :
  Function.Injective (toJson : Challenge → Json (Number φ))
  := by
  rintro ⟨origin, grant, manifest, holder, nonce, issued, expires⟩
    ⟨origin', grant', manifest', holder', nonce', issued', expires'⟩ h
  cases h
  rfl

theorem SignedChallenge.toJson_injective :
  Function.Injective (toJson : SignedChallenge → Json (Number φ))
  := by
  rintro ⟨challenge, issuer, signature⟩ ⟨challenge', issuer', signature'⟩ h
  simp only [toJson, Json.obj.injEq, List.cons.injEq, Prod.mk.injEq, Json.str.injEq, true_and,
    and_true] at h
  obtain ⟨hchallenge, rfl, rfl⟩ := h
  rw [Challenge.toJson_injective hchallenge]

theorem EvidenceKind.toJson_injective :
  Function.Injective (toJson : EvidenceKind → Json (Number φ))
  := by
  intro a b h
  cases a <;> cases b
  · rfl
  · cases (show "verified" ≠ "accepted" by decide) (Json.str.inj h)
  · cases (show "accepted" ≠ "verified" by decide) (Json.str.inj h)
  · rfl

/-! ### Signing -/

/-- The kinds of statements. -/
inductive StatementKind
  | portMessage
  | route
  | routeReceipt
  | routeRevocation
  | routeRevoked
  | evidenceChallenge
  | evidenceStatement
  | recipientAccess
deriving DecidableEq

/-- The domain that a kind of statements is signed under. -/
def StatementKind.domain : StatementKind → String
  | .portMessage => "votport-port-message-v1\x00"
  | .route => "votport-trade-route-v1\x00"
  | .routeReceipt => "votport-route-receipt-v1\x00"
  | .routeRevocation => "votport-route-revoke-v1\x00"
  | .routeRevoked => "votport-route-revoked-v1\x00"
  | .evidenceChallenge => "votport-evidence-challenge-v1\x00"
  | .evidenceStatement => "votport-evidence-statement-v1\x00"
  | .recipientAccess => "votport-recipient-access-v1\x00"

/-- The name that is in a domain, before the NUL at its end. -/
def StatementKind.domainName (k : StatementKind) : List Char := k.domain.toList.dropLast

theorem StatementKind.domain_toList (k : StatementKind) :
  k.domain.toList = k.domainName ++ ['\x00']
  := by
  cases k <;> simp [domainName, domain]

theorem StatementKind.domainName_ne (k : StatementKind) {c : Char} (h : c ∈ k.domainName) :
  c ≠ '\x00'
  := by
  rintro rfl
  cases k <;> simp [domainName, domain] at h

/-- The kinds are signed under domains that differ. -/
theorem StatementKind.domain_injective :
  Function.Injective domain
  := by
  intro a b h
  cases a <;> cases b <;> first | rfl | exact absurd h (by simp [domain])

/-- A domain has one NUL, at its end. -/
theorem StatementKind.domain_eq (k : StatementKind) :
  ∃ name : List Char, (∀ c ∈ name, decide (c ≠ '\x00') = true)
    ∧ k.domain.toList = name ++ ['\x00']
  := by
  refine ⟨k.domainName, ?_, k.domain_toList⟩
  intro c hc
  rw [decide_eq_true_iff]
  apply k.domainName_ne hc

/-- Texts under domains can be read in one way only. -/
theorem StatementKind.domain_append_injective
    {a b : StatementKind} {text text' : String} (h : a.domain ++ text = b.domain ++ text') :
  a = b ∧ text = text'
  := by
  obtain ⟨name, hname, ha⟩ := a.domain_eq
  obtain ⟨name', hname', hb⟩ := b.domain_eq
  have hchars := congrArg String.toList h
  rw [String.toList_append, String.toList_append, ha, hb, List.append_assoc,
    List.append_assoc] at hchars
  obtain ⟨rfl, htail⟩ := Json.run_unique hname hname'
    (by simp) (by simp) hchars
  constructor
  · apply domain_injective
    apply String.toList_inj.mp
    rw [ha, hb]
  · exact String.toList_inj.mp (List.cons.inj htail).2

/-- What is signed. -/
inductive Signable (φ : Type)
  | portMessage (document : PortStatement φ)
  | route (document : RouteDocument)
  | routeReceipt (document : ReceiptDocument)
  | routeRevocation (document : RevocationDocument)
  | routeRevoked (document : RevokedDocument)
  | evidenceChallenge (challenge : Challenge)
  | evidenceStatement (authorization : SignedChallenge) (kind : EvidenceKind)
  | recipientAccess (authorization : SignedChallenge)

namespace Signable

/-- The kind of a statement. -/
def kind : Signable φ → StatementKind
  | portMessage _ => .portMessage
  | route _ => .route
  | routeReceipt _ => .routeReceipt
  | routeRevocation _ => .routeRevocation
  | routeRevoked _ => .routeRevoked
  | evidenceChallenge _ => .evidenceChallenge
  | evidenceStatement _ _ => .evidenceStatement
  | recipientAccess _ => .recipientAccess

/-- A statement as a JSON value; that of evidence is a pair. -/
def toJson : Signable φ → Json (Number φ)
  | portMessage d => d.toJson
  | route d => d.toJson
  | routeReceipt d => d.toJson
  | routeRevocation d => d.toJson
  | routeRevoked d => d.toJson
  | evidenceChallenge c => c.toJson
  | evidenceStatement a k => .arr [a.toJson, k.toJson]
  | recipientAccess a => a.toJson

/-- Statements of one kind are serialized differently. -/
theorem eq_of_toJson
    {s s' : Signable φ} (hkind : s.kind = s'.kind) (h : s.toJson = s'.toJson) :
  s = s'
  := by
  cases s with
  | portMessage d =>
      cases s' with
      | portMessage d' => rw [PortStatement.toJson_injective h]
      | _ => cases hkind
  | route d =>
      cases s' with
      | route d' => rw [RouteDocument.toJson_injective h]
      | _ => cases hkind
  | routeReceipt d =>
      cases s' with
      | routeReceipt d' => rw [ReceiptDocument.toJson_injective h]
      | _ => cases hkind
  | routeRevocation d =>
      cases s' with
      | routeRevocation d' => rw [RevocationDocument.toJson_injective h]
      | _ => cases hkind
  | routeRevoked d =>
      cases s' with
      | routeRevoked d' => rw [RevokedDocument.toJson_injective h]
      | _ => cases hkind
  | evidenceChallenge c =>
      cases s' with
      | evidenceChallenge c' => rw [Challenge.toJson_injective h]
      | _ => cases hkind
  | evidenceStatement a k =>
      cases s' with
      | evidenceStatement a' k' =>
          simp only [toJson, Json.arr.injEq, List.cons.injEq, and_true] at h
          rw [SignedChallenge.toJson_injective h.1, EvidenceKind.toJson_injective h.2]
      | _ => cases hkind
  | recipientAccess a =>
      cases s' with
      | recipientAccess a' => rw [SignedChallenge.toJson_injective h]
      | _ => cases hkind

end Signable

/-- What the statements take from the crates they use. -/
structure Crates (φ : Type) where
  float : FloatFormat φ
  sha256 : List UInt8 → List UInt8
  /-- Verifies the signature of a message with a key of 32 bytes. -/
  verifyStrict : List UInt8 → List UInt8 → List UInt8 → Bool

variable (crates : Crates φ)

/-- The JSON text of a value. -/
def Crates.jsonText (value : Json (Number φ)) : String :=
  String.ofList (value.write crates.float.numbers)

/-- The bytes of a text. -/
def textBytes (text : String) : List UInt8 := text.toUTF8.data.toList

/-- The bytes that are signed. -/
def Signable.message (s : Signable φ) : List UInt8 :=
  textBytes s.kind.domain ++ textBytes (crates.jsonText s.toJson)

theorem textBytes_append (a b : String) : textBytes (a ++ b) = textBytes a ++ textBytes b := by
  rw [textBytes, String.toUTF8, String.toByteArray_append]
  simp [textBytes]

/-- Different statements sign different bytes. -/
theorem Signable.message_injective :
  Function.Injective (Signable.message crates)
  := by
  intro s s' h
  rw [message, message, ← textBytes_append, ← textBytes_append] at h
  obtain ⟨hkind, htext⟩ := StatementKind.domain_append_injective (utf8_injective h)
  apply eq_of_toJson hkind
  apply Json.write_injective crates.float.numbers
  apply String.ofList_injective htext

/-! ### Verifying -/

/-- The body of a message, of what a port reads of it. -/
def PortBody.toJson (body : PortBody) : Json (Number φ) :=
  .obj ([("credential", body.credential), ("grant", body.grant), ("next", body.next)].filterMap
    fun e => e.2.map fun text => (e.1, .str text))

/-- A message, of what a port reads of it. -/
def PortMessage.toJson (d : PortMessage) : Json (Number φ) :=
  .obj [("issuer", .str d.issuer), ("audience", .str d.audience), ("purpose", .str d.purpose),
    ("nonce", .str d.nonce), ("expires_at", jsonTime d.expiresAt), ("body", d.body.toJson)]

/-- The statements of ports, serialized. -/
def Statement.toJson : Statement → Json (Number φ)
  | .port d => d.toJson
  | .route d => d.toJson
  | .receipt d => d.toJson
  | .revocation d => d.toJson
  | .revoked d => d.toJson

/-- What the statements of ports take from the crates. -/
def Crates.env : StatementEnv where
  json s := textBytes (crates.jsonText s.toJson)
  receiptJson r := textBytes (crates.jsonText r.toJson)
  sha256 := crates.sha256
  verifyStrict := crates.verifyStrict

/-- The signature of a message is one of the holder's, both in lowercase. -/
def verifySignature (holder : String) (message : List UInt8) (signature : String) : Bool :=
  lowerHex holder && verify crates.env holder signature message

/-- The message is for this purpose and audience, has not expired, and is signed. -/
def SignedPortStatement.verify (signed : SignedPortStatement φ) (purpose audience : String)
    (now : UInt64) : Bool :=
  decide (signed.document.purpose = purpose)
    && decide (signed.document.audience = audience)
    && decide (now < Saturating.add signed.document.expiresAt portMessageSkew)
    && isId signed.document.nonce
    && isDigest signed.document.issuer
    && Votport.verify crates.env signed.document.issuer signed.signature
        ((Signable.portMessage signed.document).message crates)

/-- How long a message lives. -/
def portMessageLifetime : UInt64 := 300

/-- The message is signed and for this purpose and audience, but has expired or is from too far
ahead. -/
def SignedPortStatement.windowFailed (signed : SignedPortStatement φ) (purpose audience : String)
    (now : UInt64) : Bool :=
  decide (signed.document.purpose = purpose)
    && decide (signed.document.audience = audience)
    && isDigest signed.document.issuer
    && Votport.verify crates.env signed.document.issuer signed.signature
        ((Signable.portMessage signed.document).message crates)
    && (decide (Saturating.add signed.document.expiresAt portMessageSkew ≤ now)
      || decide (Saturating.add (Saturating.add now portMessageLifetime) portMessageSkew
          < signed.document.expiresAt))

/-- The text under a key of an object. -/
def Value.text? (value : Value φ) (key : String) : Option String :=
  match value.json with
  | .obj entries =>
      match entries.find? (fun e => decide (e.1 = key)) with
      | some (_, .str text) => some text
      | _ => none
  | _ => none

/-- The challenge is signed by the issuer. -/
def SignedChallenge.verify (signed : SignedChallenge) (issuer : String) : Bool :=
  decide (signed.issuer = issuer)
    && verifySignature crates issuer
        ((Signable.evidenceChallenge signed.challenge).message crates) signed.signature

/-- The evidence is signed by the holder of a challenge that the issuer has signed. -/
def Evidence.verify (evidence : Evidence) (issuer : String) : Bool :=
  evidence.authorization.verify crates issuer
    && verifySignature crates evidence.authorization.challenge.holder
        ((Signable.evidenceStatement evidence.authorization evidence.kind).message crates)
        evidence.signature

/-- The proof is signed by the holder of a challenge that the issuer has signed. -/
def AccessProof.verify (proof : AccessProof) (issuer : String) : Bool :=
  proof.authorization.verify crates issuer
    && verifySignature crates proof.authorization.challenge.holder
        ((Signable.recipientAccess proof.authorization).message crates) proof.signature

/-- A statement with its signature. -/
inductive Signed (φ : Type)
  | portMessage (signed : SignedPortStatement φ)
  | route (route : SignedRoute)
  | routeReceipt (receipt : RouteReceipt)
  | routeRevocation (revocation : RouteRevocation)
  | routeRevoked (revoked : RouteRevoked)
  | evidenceChallenge (challenge : SignedChallenge)
  | evidenceStatement (evidence : Evidence)
  | recipientAccess (proof : AccessProof)

/-- What a verifier asks of a statement beside its signature. -/
structure Asked where
  purpose : String
  audience : String
  now : UInt64
  receiver : String
  request : RouteRevocation

namespace Signed

/-- What is signed. -/
def signable : Signed φ → Signable φ
  | portMessage s => .portMessage s.document
  | route r => .route r.document
  | routeReceipt r => .routeReceipt r.document
  | routeRevocation r => .routeRevocation r.document
  | routeRevoked r => .routeRevoked r.document
  | evidenceChallenge c => .evidenceChallenge c.challenge
  | evidenceStatement e => .evidenceStatement e.authorization e.kind
  | recipientAccess p => .recipientAccess p.authorization

/-- The text of the signature. -/
def signature : Signed φ → String
  | portMessage s => s.signature
  | route r => r.signature
  | routeReceipt r => r.signature
  | routeRevocation r => r.signature
  | routeRevoked r => r.signature
  | evidenceChallenge c => c.signature
  | evidenceStatement e => e.signature
  | recipientAccess p => p.signature

/-- The statement verifies, for the key of an issuer and what is asked of it. -/
def verify (issuer : String) (asked : Asked) : Signed φ → Bool
  | portMessage s => s.verify crates asked.purpose asked.audience asked.now
  | route r => r.verify crates.env
  | routeReceipt r => r.verify crates.env asked.receiver
  | routeRevocation r => r.verify crates.env
  | routeRevoked r => r.verify crates.env asked.request
  | evidenceChallenge c => c.verify crates issuer
  | evidenceStatement e => e.verify crates issuer
  | recipientAccess p => p.verify crates issuer

/-- The signature of a statement that verifies is in lowercase, and of 64 bytes. -/
theorem lowerHex_of_verify
    {key signature : String} {message : List UInt8}
    (h : Votport.verify crates.env key signature message = true) :
  lowerHex signature = true ∧ ∃ bytes, hexDecode signature.toList = some bytes
    ∧ bytes.length = 64
  := by
  rw [Votport.verify, Bool.and_eq_true] at h
  obtain ⟨hlower, hkey⟩ := h
  obtain ⟨k, _, hsignature⟩ := Option.any_eq_true _ _ |>.mp hkey
  obtain ⟨s, hs, hverify⟩ := Option.any_eq_true _ _ |>.mp hsignature
  rw [Bool.and_eq_true, Bool.and_eq_true] at hverify
  exact ⟨hlower, s, hs, of_decide_eq_true hverify.1.2⟩

/-- A statement that verifies has the lowercase text of its signature. -/
theorem signature_eq
    {issuer : String} {asked : Asked} {s : Signed φ} (h : s.verify crates issuer asked = true) :
  ∃ bytes, hexDecode s.signature.toList = some bytes ∧ bytes.length = 64
    ∧ s.signature = hexEncode bytes
  := by
  have hverify : ∃ key message, Votport.verify crates.env key s.signature message = true := by
    cases s with
    | portMessage s => exact ⟨_, _, (Bool.and_eq_true_iff.mp h).2⟩
    | route r => exact ⟨_, _, (Bool.and_eq_true_iff.mp h).2⟩
    | routeReceipt r => exact ⟨_, _, (Bool.and_eq_true_iff.mp h).2⟩
    | routeRevocation r => exact ⟨_, _, (Bool.and_eq_true_iff.mp h).2⟩
    | routeRevoked r => exact ⟨_, _, (Bool.and_eq_true_iff.mp h).2⟩
    | evidenceChallenge c =>
        exact ⟨_, _, (Bool.and_eq_true_iff.mp (Bool.and_eq_true_iff.mp h).2).2⟩
    | evidenceStatement e =>
        exact ⟨_, _, (Bool.and_eq_true_iff.mp (Bool.and_eq_true_iff.mp h).2).2⟩
    | recipientAccess p =>
        exact ⟨_, _, (Bool.and_eq_true_iff.mp (Bool.and_eq_true_iff.mp h).2).2⟩
  obtain ⟨key, message, hverify⟩ := hverify
  obtain ⟨hlower, bytes, hbytes, hlength⟩ := lowerHex_of_verify crates hverify
  exact ⟨bytes, hbytes, hlength, (hexEncode_of_hexDecode hlower hbytes).symm⟩

/-- What is signed and the text of the signature determine a statement, and so does the issuer
where it is not signed. -/
theorem eq_of_signable
    {issuer : String} {asked asked' : Asked} {s s' : Signed φ}
    (h : s.verify crates issuer asked = true) (h' : s'.verify crates issuer asked' = true)
    (hsigned : s.signable = s'.signable) (hsignature : s.signature = s'.signature) :
  s = s'
  := by
  cases s with
  | evidenceChallenge c =>
      cases s' with
      | evidenceChallenge c' =>
          have hissuer := of_decide_eq_true (Bool.and_eq_true_iff.mp h).1
          have hissuer' := of_decide_eq_true (Bool.and_eq_true_iff.mp h').1
          obtain ⟨challenge, _, _⟩ := c
          obtain ⟨challenge', _, _⟩ := c'
          cases hissuer
          cases hissuer'
          cases hsigned
          cases hsignature
          rfl
      | _ => cases hsigned
  | portMessage s =>
      cases s' with
      | portMessage s' =>
          obtain ⟨document, _⟩ := s
          obtain ⟨document', _⟩ := s'
          cases hsigned
          cases hsignature
          rfl
      | _ => cases hsigned
  | route r =>
      cases s' with
      | route r' =>
          obtain ⟨document, _⟩ := r
          obtain ⟨document', _⟩ := r'
          cases hsigned
          cases hsignature
          rfl
      | _ => cases hsigned
  | routeReceipt r =>
      cases s' with
      | routeReceipt r' =>
          obtain ⟨document, _⟩ := r
          obtain ⟨document', _⟩ := r'
          cases hsigned
          cases hsignature
          rfl
      | _ => cases hsigned
  | routeRevocation r =>
      cases s' with
      | routeRevocation r' =>
          obtain ⟨document, _⟩ := r
          obtain ⟨document', _⟩ := r'
          cases hsigned
          cases hsignature
          rfl
      | _ => cases hsigned
  | routeRevoked r =>
      cases s' with
      | routeRevoked r' =>
          obtain ⟨document, _⟩ := r
          obtain ⟨document', _⟩ := r'
          cases hsigned
          cases hsignature
          rfl
      | _ => cases hsigned
  | evidenceStatement e =>
      cases s' with
      | evidenceStatement e' =>
          obtain ⟨authorization, kind, _⟩ := e
          obtain ⟨authorization', kind', _⟩ := e'
          cases hsigned
          cases hsignature
          rfl
      | _ => cases hsigned
  | recipientAccess p =>
      cases s' with
      | recipientAccess p' =>
          obtain ⟨authorization, _⟩ := p
          obtain ⟨authorization', _⟩ := p'
          cases hsigned
          cases hsignature
          rfl
      | _ => cases hsigned

end Signed

/-- Statements of different kinds never sign the same bytes, and statements of one kind do only
where they are equal.  Of the documents that parse and verify, those with the same bytes and the
same signature have the same fields and the same text of the signature. -/
theorem statements_have_one_spelling (crates : Crates φ) :
  (∀ s s' : Signable φ, s.kind ≠ s'.kind → s.message crates ≠ s'.message crates)
    ∧ (∀ s s' : Signable φ, s.message crates = s'.message crates → s = s')
    ∧ ∀ (parse parse' : List UInt8 → Option (Signed φ)) (text text' : List UInt8) (s s' : Signed φ)
        (issuer : String) (asked asked' : Asked),
        parse text = some s → parse' text' = some s' →
        s.verify crates issuer asked = true → s'.verify crates issuer asked' = true →
        s.signable.message crates = s'.signable.message crates →
        hexDecode s.signature.toList = hexDecode s'.signature.toList → s = s'
  := by
  have hinjective := Signable.message_injective crates
  refine ⟨?_, ?_, ?_⟩
  · intro s s' hkind h
    apply hkind
    rw [hinjective h]
  · intro s s' h
    apply hinjective h
  · intro parse parse' text text' s s' issuer asked asked' _ _ hs hs' hmessage hbytes
    obtain ⟨bytes, hdecode, _, htext⟩ := Signed.signature_eq crates hs
    obtain ⟨bytes', hdecode', _, htext'⟩ := Signed.signature_eq crates hs'
    obtain rfl : bytes = bytes' := by
      apply Option.some.inj
      rw [← hdecode, ← hdecode', hbytes]
    apply Signed.eq_of_signable crates hs hs' (hinjective hmessage)
    rw [htext, htext']

/-- Crates without floating point numbers, and with signatures that begin with a message and end
with a key. -/
def plainCrates : Crates Empty where
  float :=
    { text := nofun
      chars := nofun
      pointed := nofun
      injective := nofun }
  sha256 bytes := bytes
  verifyStrict key signature message :=
    decide (signature = (message ++ List.replicate 32 0).take 32 ++ key)

/-- A challenge for the device with key `holder`, signed with `key`. -/
def plainChallenge (key holder : List UInt8) : SignedChallenge :=
  let challenge : Challenge :=
    { origin := "https://drop.example"
      grantId := "delivery-1"
      manifest := "00"
      holder := hexEncode holder
      nonce := "nonce-1"
      issuedAt := 1
      expiresAt := 2 }
  { challenge
    issuer := hexEncode key
    signature := hexEncode
      (((Signable.evidenceChallenge challenge).message plainCrates).take 32 ++ key) }

theorem statements_have_one_spelling_once :
  let key := List.replicate 32 7
  let signed := plainChallenge key (List.replicate 32 8)
  let asked : Asked :=
    { purpose := ""
      audience := ""
      now := 1
      receiver := ""
      request := ⟨⟨"", ⟨⟨"", "", "", "", ⟨[], .nil⟩, none, [], none⟩, ""⟩, ""⟩, ""⟩ }
  (Signable.evidenceChallenge signed.challenge).message plainCrates
      ≠ (Signable.recipientAccess signed).message plainCrates
    ∧ Signed.verify plainCrates (hexEncode key) asked (.evidenceChallenge signed) = true
    ∧ (Signed.evidenceChallenge signed : Signed Empty) = .evidenceChallenge signed
  := by
  intro key signed asked
  have hverify :
      Signed.verify plainCrates (hexEncode key) asked (.evidenceChallenge signed) = true := by
    decide +kernel
  obtain ⟨hkinds, _, hone⟩ := statements_have_one_spelling plainCrates
  refine ⟨hkinds _ _ nofun, hverify, ?_⟩
  apply hone (fun _ => some (.evidenceChallenge signed))
    (fun _ => some (.evidenceChallenge signed)) [] [] _ _ _ asked asked
  · rfl
  · rfl
  · apply hverify
  · apply hverify
  · rfl
  · rfl

end Votport
