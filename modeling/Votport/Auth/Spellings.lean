import Votport.Auth.Tokens

/-!
# Which strings verify

A token of a link, a recipient or a download verifies in the spelling it was issued in and for what
it was issued, as long as nobody else makes MACs.  The session of an admin verifies also when its
expiry is written with a sign or with leading zeros.
-/

namespace Votport

variable {ι : Type*} {crates : TokenCrates ι} {secret : List UInt8} {now : UInt64}

/-! ### Numbers -/

theorem dot_notMem_decimalDigits (n : Nat) : '.' ∉ decimalDigits n := by
  intro h
  cases (show '.'.isDigit = false by decide).symm.trans (isDigit_of_mem_decimalDigits h)

theorem decimalDigits_ne_nil (n : Nat) : decimalDigits n ≠ [] := by
  intro h
  have hread := congrArg (Nat.ofDigitChars 10 · 0) h
  have hzero : n = 0 := by simpa [decimalDigits] using hread
  subst hzero
  cases h

/-- The decimal digits of a word parse as it. -/
theorem parseU64_decimalDigits (value : UInt64) :
  parseU64 (decimalDigits value.toNat) = some value
  := by
  have hne := decimalDigits_ne_nil value.toNat
  have hsign : (decimalDigits value.toNat).head? ≠ some '+' := by
    intro h
    have hmem := List.mem_of_mem_head? (Option.mem_def.mpr h)
    cases (show '+'.isDigit = false by decide).symm.trans (isDigit_of_mem_decimalDigits hmem)
  have hall : (decimalDigits value.toNat).all Char.isDigit = true := by
    rw [List.all_eq_true]
    intro c hc
    apply isDigit_of_mem_decimalDigits hc
  have hvalue : Nat.ofDigitChars 10 (decimalDigits value.toNat) 0 = value.toNat := by
    simp [decimalDigits]
  rw [parseU64]
  simp only [if_neg hsign]
  rw [hvalue, if_pos ⟨hne, hall, value.toNat_lt⟩, UInt64.ofNat_toNat]

/-- What parses as a word has no dot. -/
theorem dot_notMem_of_parseU64 {text : List Char} {value : UInt64}
    (h : parseU64 text = some value) :
  '.' ∉ text
  := by
  rw [parseU64] at h
  obtain ⟨⟨_, hall, _⟩, _⟩ := Option.ite_none_right_eq_some.mp h
  rw [List.all_eq_true] at hall
  have hdigit : ('.').isDigit ≠ true := by decide
  split_ifs at hall with hsign
  · cases text with
    | nil => simp
    | cons c text =>
        cases hsign
        rw [List.mem_cons, not_or]
        exact ⟨by decide, fun h => hdigit (hall _ h)⟩
  · intro hmem
    apply hdigit (hall _ hmem)

/-! ### What verifies -/

/-- A token of the shared form verifies in one spelling. -/
theorem TokenCrates.verifyToken_eq_true {context : List (List UInt8)} {token : List Char} :
  crates.verifyToken secret now context token = true
    ↔ ∃ expires nonce, token = crates.issueToken secret context expires nonce ∧ '.' ∉ nonce
      ∧ now < expires
  := by
  constructor
  · intro h
    rw [verifyToken] at h
    split at h
    · cases h
    · rename_i digits rest hfirst
      obtain ⟨rfl, _⟩ := Fields.splitOnce_eq_some.mp hfirst
      split at h
      · cases h
      · rename_i nonce mac hsecond
        obtain ⟨rfl, hnonce⟩ := Fields.splitOnce_eq_some.mp hsecond
        split at h
        · cases h
        · rename_i expires hparse
          obtain ⟨_, hcanonical⟩ := Option.filter_eq_some_iff.mp hparse
          split_ifs at h with hexpired
          refine ⟨expires, nonce, ?_, hnonce, UInt64.not_le.mp hexpired⟩
          rw [issueToken, of_decide_eq_true h, of_decide_eq_true hcanonical]
  · rintro ⟨expires, nonce, rfl, hnonce, hexpires⟩
    rw [verifyToken, issueToken, Fields.splitOnce_append (dot_notMem_decimalDigits _)]
    dsimp only
    rw [Fields.splitOnce_append hnonce]
    dsimp only
    rw [parseU64_decimalDigits, Option.filter_some, if_pos (decide_eq_true rfl)]
    dsimp only
    rw [if_neg (UInt64.not_le.mpr hexpires)]
    exact decide_eq_true rfl

/-- A lease with a third dot is a token with its holder. -/
theorem splitLease_eq_some {lease token holder : List Char} :
  splitLease lease = some (token, holder)
    ↔ ∃ a b c, token = a ++ '.' :: (b ++ '.' :: c) ∧ lease = token ++ '.' :: holder
      ∧ '.' ∉ a ∧ '.' ∉ b ∧ '.' ∉ c
  := by
  rw [splitLease]
  constructor
  · intro h
    obtain ⟨⟨a, rest⟩, hfirst, h⟩ := Option.bind_eq_some_iff.mp h
    obtain ⟨⟨b, rest'⟩, hsecond, h⟩ := Option.bind_eq_some_iff.mp h
    obtain ⟨⟨c, holder'⟩, hthird, hpair⟩ := Option.map_eq_some_iff.mp h
    cases hpair
    obtain ⟨rfl, ha⟩ := Fields.splitOnce_eq_some.mp hfirst
    obtain ⟨rfl, hb⟩ := Fields.splitOnce_eq_some.mp hsecond
    obtain ⟨rfl, hc⟩ := Fields.splitOnce_eq_some.mp hthird
    exact ⟨a, b, c, rfl, by simp, ha, hb, hc⟩
  · rintro ⟨a, b, c, rfl, rfl, ha, hb, hc⟩
    rw [List.append_assoc, List.cons_append, List.append_assoc, List.cons_append,
      Fields.splitOnce_append ha, Option.bind_some, Fields.splitOnce_append hb, Option.bind_some,
      Fields.splitOnce_append hc, Option.map_some]

/-- The hexadecimal text of a MAC has no dot. -/
theorem dot_notMem_hexEncode (bytes : List UInt8) : '.' ∉ (hexEncode bytes).toList := by
  have hchar : ∀ n < 16, hexChar n ≠ '.' := by decide
  rw [hexEncode, String.toList_ofList]
  intro h
  obtain ⟨b, _, hb⟩ := List.mem_flatMap.mp h
  have hlt : b.toNat < 256 := b.toNat_lt
  simp only [List.mem_cons, List.not_mem_nil, or_false] at hb
  rcases hb with hb | hb
  · exact hchar _ (by omega) hb.symm
  · exact hchar _ (by omega) hb.symm

/-- The text of a lease for a holder. -/
def TokenCrates.leaseText (crates : TokenCrates ι) (secret : List UInt8)
    (context : List (List UInt8)) (expires : UInt64) (nonce : List Char) (holder : String) :
    List Char :=
  let token := crates.issueToken secret context expires nonce
  if holder = "" then token else token ++ '.' :: holder.toList

/-- A lease verifies in one spelling for each holder, and gives the holder. -/
theorem TokenCrates.verifyDownloadLease_eq_some
    {grantId tokenHash : String} {fileIndex : UInt64} {lease : List Char} {holder : String}
    (h : crates.verifyDownloadLease secret now grantId tokenHash fileIndex lease = some holder) :
  ∃ expires nonce,
    lease = crates.leaseText secret (leaseContext grantId tokenHash fileIndex holder) expires nonce
      holder
    ∧ '.' ∉ nonce ∧ now < expires
  := by
  dsimp only [verifyDownloadLease] at h
  split at h
  · rename_i token text hsplit
    obtain ⟨_, _, _, _, rfl, _⟩ := splitLease_eq_some.mp hsplit
    obtain ⟨hempty, h⟩ := Option.ite_none_left_eq_some.mp h
    obtain ⟨hverify, hholder⟩ := Option.ite_none_right_eq_some.mp h
    cases hholder
    obtain ⟨expires, nonce, rfl, hnonce, hexpires⟩ := verifyToken_eq_true.mp hverify
    refine ⟨expires, nonce, ?_, hnonce, hexpires⟩
    have hne : String.ofList text ≠ "" := by
      intro he
      apply hempty
      exact String.ofList_injective he
    rw [leaseText, if_neg hne, String.toList_ofList]
  · obtain ⟨hverify, hholder⟩ := Option.ite_none_right_eq_some.mp h
    cases hholder
    obtain ⟨expires, nonce, rfl, hnonce, hexpires⟩ := verifyToken_eq_true.mp hverify
    refine ⟨expires, nonce, ?_, hnonce, hexpires⟩
    have hempty : String.ofList [] = "" := rfl
    rw [leaseText, if_pos hempty]

/-- The text of an admin's token with its expiry spelled so. -/
def TokenCrates.adminText (crates : TokenCrates ι) (secret : List UInt8) (spelling : List Char)
    (payload version : String) (expires : UInt64) (nonce : List Char) : List Char :=
  spelling ++ '.' :: crates.adminFields secret payload version expires nonce

/-- An admin's token verifies in every spelling of its expiry. -/
theorem TokenCrates.verifyAdminToken_eq_some
    (hcrates : crates.Lawful) {version : String} {token : List Char} {identity : ι}
    {expires : UInt64}
    (h : crates.verifyAdminToken secret now version token = some (identity, expires)) :
  ∃ spelling payload nonce,
    token = crates.adminText secret spelling payload version expires nonce
    ∧ parseU64 spelling = some expires ∧ now < expires
    ∧ crates.parseIdentity payload = some identity ∧ '.' ∉ nonce
  := by
  rw [verifyAdminToken] at h
  obtain ⟨⟨spelling, rest⟩, hfirst, h⟩ := Option.bind_eq_some_iff.mp h
  obtain ⟨⟨encoded, rest'⟩, hsecond, h⟩ := Option.bind_eq_some_iff.mp h
  obtain ⟨⟨nonce, mac⟩, hthird, h⟩ := Option.bind_eq_some_iff.mp h
  obtain ⟨hdot, h⟩ := Option.ite_none_left_eq_some.mp h
  obtain ⟨value, hparse, h⟩ := Option.bind_eq_some_iff.mp h
  obtain ⟨hexpired, h⟩ := Option.ite_none_left_eq_some.mp h
  obtain ⟨payload, hdecode, h⟩ := Option.bind_eq_some_iff.mp h
  obtain ⟨hmac, h⟩ := Option.ite_none_right_eq_some.mp h
  obtain ⟨_, hidentity, hpair⟩ := Option.map_eq_some_iff.mp h
  cases hpair
  obtain ⟨rfl, _⟩ := Fields.splitOnce_eq_some.mp hfirst
  obtain ⟨rfl, _⟩ := Fields.splitOnce_eq_some.mp hsecond
  obtain ⟨rfl, hnonce⟩ := Fields.splitOnce_eq_some.mp hthird
  refine ⟨spelling, payload, nonce, ?_, hparse, UInt64.not_le.mp hexpired, hidentity, hnonce⟩
  rw [adminText, adminFields, hmac, hcrates.decode_canonical encoded payload hdecode]

/-- The token of an identity verifies in every spelling of its expiry. -/
theorem TokenCrates.verifyAdminToken_adminText
    (hcrates : crates.Lawful) {spelling : List Char} {identity : ι} {version : String}
    {expires : UInt64} {nonce : List Char} (hspelling : parseU64 spelling = some expires)
    (hexpires : now < expires) (hnonce : '.' ∉ nonce) :
  crates.verifyAdminToken secret now version
      (crates.adminText secret spelling (crates.identityPayload identity) version expires nonce)
    = some (identity, expires)
  := by
  have hmac : '.' ∉ crates.tokenMac secret (adminContext (crates.identityPayload identity) version)
      expires nonce := dot_notMem_hexEncode _
  rw [verifyAdminToken, adminText, Fields.splitOnce_append (dot_notMem_of_parseU64 hspelling),
    Option.bind_some, adminFields, Fields.splitOnce_append (hcrates.encode_dotless identity),
    Option.bind_some, Fields.splitOnce_append hnonce, Option.bind_some,
    if_neg hmac, hspelling, Option.bind_some,
    if_neg (UInt64.not_le.mpr hexpires), hcrates.decode_payload, Option.bind_some, if_pos rfl,
    hcrates.parse_payload, Option.map_some]

/-! ### Contexts -/

theorem textBytes_ofList (text : List Char) :
  textBytes (String.ofList text) = text.flatMap String.utf8EncodeChar
  := by
  rw [textBytes, String.toUTF8]
  simp [String.ofList, List.utf8Encode]

/-- The encoding of a character other than NUL has no NUL. -/
theorem zero_notMem_utf8EncodeChar {c : Char} (h : c.val.toNat ≠ 0) :
  0 ∉ String.utf8EncodeChar c
  := by
  have hbyte : ∀ n, 0 < n → n < 256 → (0 : UInt8) ≠ UInt8.ofNat n := by
    intro n hpos hlt he
    have hnat : 0 = (UInt8.ofNat n).toNat := congrArg UInt8.toNat he
    rw [UInt8.toNat_ofNat', Nat.mod_eq_of_lt hlt] at hnat
    omega
  fun_cases String.utf8EncodeChar with
  | case1 v hv =>
      simp only [List.mem_cons, List.not_mem_nil, or_false]
      exact hbyte _ (by omega) (by omega)
  | case2 v hv =>
      simp only [List.mem_cons, List.not_mem_nil, or_false, not_or]
      exact ⟨hbyte _ (by omega) (by omega), hbyte _ (by omega) (by omega)⟩
  | case3 v hv =>
      simp only [List.mem_cons, List.not_mem_nil, or_false, not_or]
      exact ⟨hbyte _ (by omega) (by omega), hbyte _ (by omega) (by omega),
        hbyte _ (by omega) (by omega)⟩
  | case4 v hv =>
      simp only [List.mem_cons, List.not_mem_nil, or_false, not_or]
      exact ⟨hbyte _ (by omega) (by omega), hbyte _ (by omega) (by omega),
        hbyte _ (by omega) (by omega), hbyte _ (by omega) (by omega)⟩

theorem nulFree_decimalDigits (n : Nat) : NulFree (String.ofList (decimalDigits n)) := by
  rw [NulFree, textBytes_ofList, List.mem_flatMap]
  rintro ⟨c, hc, hzero⟩
  have hdigit := isDigit_of_mem_decimalDigits hc
  apply zero_notMem_utf8EncodeChar _ hzero
  intro he
  rw [Char.isDigit, Bool.and_eq_true, decide_eq_true_iff, decide_eq_true_iff] at hdigit
  have hlow : ('0' : Char).val.toNat ≤ c.val.toNat := hdigit.1
  rw [he] at hlow
  exact absurd hlow (by decide)

/-- What a text is, from its bytes. -/
theorem textBytes_inj {a b : String} (h : textBytes a = textBytes b) : a = b := utf8_injective h

theorem decimalText_inj {m n : UInt64}
    (h : textBytes (String.ofList (decimalDigits m.toNat))
      = textBytes (String.ofList (decimalDigits n.toNat))) :
  m = n
  := by
  apply UInt64.toNat_inj.mp
  apply decimalDigits_injective
  apply String.ofList_injective
  apply textBytes_inj h

/-- How many parts a context has, from its first one. -/
def contextArity (first : List UInt8) : Nat :=
  if first = textBytes "recipient" ∨ first = textBytes "votport-download-lease" then 5 else 3

/-- The parts of contexts that the bytes under MACs can be read back to. -/
structure IsContext (parts : List (List UInt8)) : Prop where
  length : parts.length = contextArity (parts.headD [])
  nulFree : ∀ part ∈ parts, 0 ∉ part

theorem isContext_link {linkId phc : String} (hlink : NulFree linkId) (hphc : NulFree phc) :
  IsContext (linkContext linkId phc)
  := by
  constructor
  · exact (show 3 = contextArity (textBytes "votport-link") by decide)
  · simp only [linkContext, List.mem_cons, List.not_mem_nil, or_false, forall_eq_or_imp,
      forall_eq]
    exact ⟨by decide, hlink, hphc⟩

theorem isContext_recipient
    {grant tokenHash holder : String} {revision : UInt64} (hgrant : NulFree grant)
    (hhash : NulFree tokenHash) (hholder : NulFree holder) :
  IsContext (recipientContext grant tokenHash revision holder)
  := by
  constructor
  · exact (show 5 = contextArity (textBytes "recipient") by decide)
  · simp only [recipientContext, List.mem_cons, List.not_mem_nil, or_false, forall_eq_or_imp,
      forall_eq]
    exact ⟨by decide, hgrant, hhash, nulFree_decimalDigits _, hholder⟩

theorem isContext_lease
    {grantId tokenHash holder : String} {fileIndex : UInt64} (hgrant : NulFree grantId)
    (hhash : NulFree tokenHash) (hholder : NulFree holder) :
  IsContext (leaseContext grantId tokenHash fileIndex holder)
  := by
  constructor
  · exact (show 5 = contextArity (textBytes "votport-download-lease") by decide)
  · simp only [leaseContext, List.mem_cons, List.not_mem_nil, or_false, forall_eq_or_imp,
      forall_eq]
    exact ⟨by decide, hgrant, hhash, nulFree_decimalDigits _, hholder⟩

theorem isContext_admin {payload version : String} (hpayload : NulFree payload)
    (hversion : NulFree version) :
  IsContext (adminContext payload version)
  := by
  constructor
  · exact (show 3 = contextArity (textBytes "votport-admin-v4") by decide)
  · simp only [adminContext, List.mem_cons, List.not_mem_nil, or_false, forall_eq_or_imp,
      forall_eq]
    exact ⟨by decide, hpayload, hversion⟩

/-- The context, the expiry and the nonce can be read back from the bytes that a MAC is of. -/
theorem tokenMessage_inj
    {parts parts' : List (List UInt8)} {expires expires' : UInt64} {nonce nonce' : List Char}
    (hparts : IsContext parts) (hparts' : IsContext parts')
    (h : tokenMessage parts expires nonce = tokenMessage parts' expires' nonce') :
  parts = parts' ∧ expires = expires' ∧ nonce = nonce'
  := by
  have harity (parts : List (List UInt8)) (hparts : IsContext parts) :
      ∃ first rest, parts = first :: rest := by
    cases parts with
    | nil => exact absurd hparts.length (by decide)
    | cons first rest => exact ⟨first, rest, rfl⟩
  obtain ⟨first, rest, rfl⟩ := harity parts hparts
  obtain ⟨first', rest', rfl⟩ := harity parts' hparts'
  rw [tokenMessage, tokenMessage] at h
  have hfirst : first = first' := by
    have hcons := h
    rw [Fields.terminated_cons, Fields.terminated_cons] at hcons
    exact (Fields.append_cons_inj (hparts.nulFree _ List.mem_cons_self)
      (hparts'.nulFree _ List.mem_cons_self) hcons).1
  have hlength : (first :: rest).length = (first' :: rest').length := by
    rw [hparts.length, hparts'.length]
    exact congrArg contextArity hfirst
  obtain ⟨hsame, htail⟩ := Fields.terminated_inj hlength hparts.nulFree hparts'.nulFree h
  obtain ⟨hexpires, hnonce⟩ := List.append_inj htail (by simp)
  refine ⟨hsame, ?_, ?_⟩
  · apply UInt64.toNat_inj.mp
    exact Fields.leBytes_inj expires.toNat_lt expires'.toNat_lt hexpires
  · apply String.ofList_injective
    apply textBytes_inj hnonce

namespace IssueContext

variable {c : IssueContext ι}

theorem isContext (hcrates : crates.Lawful) (hc : c.NulFree) : IsContext (c.parts crates) := by
  cases c with
  | link linkId phc => exact isContext_link hc.1 hc.2
  | recipient grant tokenHash revision holder => exact isContext_recipient hc.1 hc.2.1 hc.2.2
  | lease grantId tokenHash fileIndex holder => exact isContext_lease hc.1 hc.2.1 hc.2.2
  | admin identity version =>
      exact isContext_admin (hcrates.parse_nulFree _ _ (hcrates.parse_payload identity)) hc

theorem eq_link {linkId phc : String} (h : c.parts crates = linkContext linkId phc) :
  c = link linkId phc
  := by
  cases c with
  | link linkId' phc' =>
      simp only [parts, linkContext, List.cons.injEq, and_true, true_and] at h
      rw [textBytes_inj h.1, textBytes_inj h.2]
  | recipient | lease => cases congrArg List.length h
  | admin identity version =>
      exact absurd (textBytes_inj (List.cons.inj h).1) (by decide)

theorem eq_recipient
    {grant tokenHash holder : String} {revision : UInt64}
    (h : c.parts crates = recipientContext grant tokenHash revision holder) :
  c = recipient grant tokenHash revision holder
  := by
  cases c with
  | recipient grant' tokenHash' revision' holder' =>
      simp only [parts, recipientContext, List.cons.injEq, and_true, true_and] at h
      rw [textBytes_inj h.1, textBytes_inj h.2.1, decimalText_inj h.2.2.1, textBytes_inj h.2.2.2]
  | link | admin => cases congrArg List.length h
  | lease grantId tokenHash' fileIndex holder' =>
      exact absurd (textBytes_inj (List.cons.inj h).1) (by decide)

theorem eq_lease
    {grantId tokenHash holder : String} {fileIndex : UInt64}
    (h : c.parts crates = leaseContext grantId tokenHash fileIndex holder) :
  c = lease grantId tokenHash fileIndex holder
  := by
  cases c with
  | lease grantId' tokenHash' fileIndex' holder' =>
      simp only [parts, leaseContext, List.cons.injEq, and_true, true_and] at h
      rw [textBytes_inj h.1, textBytes_inj h.2.1, decimalText_inj h.2.2.1, textBytes_inj h.2.2.2]
  | link | admin => cases congrArg List.length h
  | recipient grant tokenHash' revision holder' =>
      exact absurd (textBytes_inj (List.cons.inj h).1) (by decide)

theorem eq_admin
    {payload version : String} (h : c.parts crates = adminContext payload version) :
  ∃ identity, c = admin identity version ∧ payload = crates.identityPayload identity
  := by
  cases c with
  | admin identity version' =>
      simp only [parts, adminContext, List.cons.injEq, and_true, true_and] at h
      exact ⟨identity, by rw [textBytes_inj h.2], (textBytes_inj h.1).symm⟩
  | recipient | lease => cases congrArg List.length h
  | link linkId phc => exact absurd (textBytes_inj (List.cons.inj h).1) (by decide)

end IssueContext

/-! ### Tokens that nobody else could make -/

/-- Of what bytes the presented text holds the MAC, a token was issued over them. -/
def MacUnforged (crates : TokenCrates ι) (secret : List UInt8) (issued : List (Issue ι))
    (presented : List Char) : Prop :=
  ∀ message, (hexEncode (crates.hmac secret message)).toList <:+: presented →
    ∃ issue ∈ issued, issue.message crates = message

/-- A presented text verifies only as a token that was issued for what is asked, in the spelling it
was issued in and while it has not expired. -/
def OnlyIssued (crates : TokenCrates ι) (secret : List UInt8) (issued : List (Issue ι))
    (now : UInt64) (request : TokenRequest) (presented : List Char) : Prop :=
  ∀ answer, crates.verify secret now presented request = some answer →
    ∃ issue ∈ issued, issue.Answers request answer ∧ presented = issue.text crates secret
      ∧ now < issue.expires

/-- The presented text is the token of an admin's session that is asked for and has not expired,
with its expiry spelled in another way. -/
def Respelled (crates : TokenCrates ι) (secret : List UInt8) (issued : List (Issue ι))
    (now : UInt64) (request : TokenRequest) (presented : List Char) : Prop :=
  ∃ issue ∈ issued, ∃ identity version spelling, issue.context = .admin identity version
    ∧ request = .admin version ∧ now < issue.expires ∧ '.' ∉ issue.nonce
    ∧ parseU64 spelling = some issue.expires ∧ spelling ≠ decimalDigits issue.expires.toNat
    ∧ presented = crates.adminText secret spelling (crates.identityPayload identity) version
        issue.expires issue.nonce

section Issued

variable {issued : List (Issue ι)} {request : TokenRequest} {presented : List Char}

/-- A MAC that the presented text ends with is of an issued token. -/
theorem MacUnforged.issue
    (hcrates : crates.Lawful) (hissued : ∀ issue ∈ issued, issue.context.NulFree)
    (h : MacUnforged crates secret issued presented) {parts : List (List UInt8)} {expires : UInt64}
    {nonce before after : List Char} (hparts : IsContext parts)
    (hmac : presented = before ++ crates.tokenMac secret parts expires nonce ++ after) :
  ∃ issue ∈ issued, issue.context.parts crates = parts ∧ issue.expires = expires
    ∧ issue.nonce = nonce
  := by
  obtain ⟨issue, hmem, hmessage⟩ := h (tokenMessage parts expires nonce)
    ⟨before, after, hmac.symm⟩
  have hcontext := IssueContext.isContext hcrates (hissued issue hmem)
  exact ⟨issue, hmem, tokenMessage_inj hcontext hparts hmessage⟩

/-- Tokens of the shared form end with their MAC. -/
theorem TokenCrates.issueToken_eq {parts : List (List UInt8)} {expires : UInt64}
    {nonce : List Char} :
  crates.issueToken secret parts expires nonce
    = decimalDigits expires.toNat ++ '.' :: (nonce ++ ['.'])
      ++ crates.tokenMac secret parts expires nonce ++ []
  := by
  simp [issueToken]

theorem TokenCrates.adminText_eq {spelling : List Char} {payload version : String}
    {expires : UInt64} {nonce : List Char} :
  crates.adminText secret spelling payload version expires nonce
    = spelling ++ '.' :: (crates.encodePayload payload ++ '.' :: (nonce ++ ['.']))
      ++ crates.tokenMac secret (adminContext payload version) expires nonce ++ []
  := by
  simp [adminText, adminFields]

/-- The holder of a lease without NUL has none. -/
theorem TokenCrates.leaseText_nulFree
    {parts : List (List UInt8)} {expires : UInt64} {nonce : List Char} {holder : String}
    (h : NulFree (String.ofList (crates.leaseText secret parts expires nonce holder))) :
  NulFree holder
  := by
  rw [leaseText] at h
  split_ifs at h with hempty
  · rw [hempty]
    decide
  · intro hzero
    apply h
    rw [textBytes_ofList, List.flatMap_append, List.mem_append]
    right
    rw [List.flatMap_cons, List.mem_append]
    right
    rw [← textBytes_ofList, String.ofList_toList]
    apply hzero

/-- A token of the shared form that verifies was issued. -/
theorem MacUnforged.of_verifyToken
    (hcrates : crates.Lawful) (hissued : ∀ issue ∈ issued, issue.context.NulFree)
    (h : MacUnforged crates secret issued presented) {parts : List (List UInt8)}
    (hparts : IsContext parts) (hverify : crates.verifyToken secret now parts presented = true) :
  ∃ issue ∈ issued, issue.context.parts crates = parts
    ∧ presented = crates.issueToken secret parts issue.expires issue.nonce ∧ now < issue.expires
  := by
  obtain ⟨expires, nonce, htext, _, hexpires⟩ := TokenCrates.verifyToken_eq_true.mp hverify
  obtain ⟨issue, hmem, hcontext, rfl, rfl⟩ := h.issue hcrates hissued hparts
    (htext.trans TokenCrates.issueToken_eq)
  exact ⟨issue, hmem, hcontext, htext, hexpires⟩

/-- A lease that verifies was issued to its holder. -/
theorem MacUnforged.of_verifyDownloadLease
    (hcrates : crates.Lawful) (hissued : ∀ issue ∈ issued, issue.context.NulFree)
    (h : MacUnforged crates secret issued presented) (hpresented : NulFree (String.ofList presented))
    {grantId tokenHash holder : String} {fileIndex : UInt64} (hgrant : NulFree grantId)
    (hhash : NulFree tokenHash)
    (hverify : crates.verifyDownloadLease secret now grantId tokenHash fileIndex presented
      = some holder) :
  ∃ issue ∈ issued, issue.context = .lease grantId tokenHash fileIndex holder
    ∧ presented = issue.text crates secret ∧ now < issue.expires
  := by
  obtain ⟨expires, nonce, htext, _, hexpires⟩ := TokenCrates.verifyDownloadLease_eq_some hverify
  have hholder : NulFree holder := TokenCrates.leaseText_nulFree (htext ▸ hpresented)
  have hmac : ∃ before after, presented = before
      ++ crates.tokenMac secret (leaseContext grantId tokenHash fileIndex holder) expires nonce
      ++ after := by
    rw [htext, TokenCrates.leaseText]
    split_ifs
    · exact ⟨_, _, TokenCrates.issueToken_eq⟩
    · refine ⟨decimalDigits expires.toNat ++ '.' :: (nonce ++ ['.']), '.' :: holder.toList, ?_⟩
      rw [TokenCrates.issueToken_eq, List.append_nil]
  obtain ⟨before, after, hmac⟩ := hmac
  obtain ⟨issue, hmem, hparts, rfl, rfl⟩ := h.issue hcrates hissued
    (isContext_lease hgrant hhash hholder) hmac
  have hcontext := IssueContext.eq_lease hparts
  refine ⟨issue, hmem, hcontext, ?_, hexpires⟩
  rw [Issue.text, hcontext]
  exact htext

/-- A session of an admin that verifies was issued, with its expiry in some spelling. -/
theorem MacUnforged.of_verifyAdminToken
    (hcrates : crates.Lawful) (hissued : ∀ issue ∈ issued, issue.context.NulFree)
    (h : MacUnforged crates secret issued presented) {version : String} (hversion : NulFree version)
    {identity : ι} {expires : UInt64}
    (hverify : crates.verifyAdminToken secret now version presented = some (identity, expires)) :
  ∃ issue ∈ issued, issue.context = .admin identity version ∧ issue.expires = expires
    ∧ '.' ∉ issue.nonce ∧ now < issue.expires
    ∧ ∃ spelling, parseU64 spelling = some expires
      ∧ presented = crates.adminText secret spelling (crates.identityPayload identity) version
          expires issue.nonce
  := by
  obtain ⟨spelling, payload, nonce, htext, hspelling, hexpires, hparse, hnonce⟩ :=
    TokenCrates.verifyAdminToken_eq_some hcrates hverify
  have hpayload := hcrates.parse_nulFree payload identity hparse
  obtain ⟨issue, hmem, hparts, rfl, rfl⟩ := h.issue hcrates hissued
    (isContext_admin hpayload hversion) (htext.trans TokenCrates.adminText_eq)
  obtain ⟨identity', hcontext, rfl⟩ := IssueContext.eq_admin hparts
  cases (hcrates.parse_payload identity').symm.trans hparse
  exact ⟨issue, hmem, hcontext, rfl, hnonce, hexpires, spelling, hspelling, htext⟩

/-- Of the strings that verify, those of admins' sessions with their expiry respelled are the only
ones that were not issued for what is asked: a string verifies only as the token that was issued
exactly when it is not one of these. -/
theorem tokens_only_issued
    (hcrates : crates.Lawful) (hissued : ∀ issue ∈ issued, issue.context.NulFree)
    (hrequest : request.NulFree) (hpresented : NulFree (String.ofList presented))
    (hunforged : MacUnforged crates secret issued presented) :
  OnlyIssued crates secret issued now request presented
    ↔ ¬ Respelled crates secret issued now request presented
  := by
  constructor
  · rintro honly ⟨issue, _, identity, version, spelling, hcontext, rfl, hexpires, hnonce,
      hspelling, hne, rfl⟩
    have hverify : crates.verifyAdminToken secret now version
        (crates.adminText secret spelling (crates.identityPayload identity) version issue.expires
          issue.nonce) = some (identity, issue.expires) :=
      TokenCrates.verifyAdminToken_adminText hcrates hspelling hexpires hnonce
    obtain ⟨other, _, hanswers, htext, _⟩ := honly (.identity identity issue.expires) (by
      rw [TokenCrates.verify, hverify]
      rfl)
    unfold Issue.Answers at hanswers
    cases hother : other.context with
    | link | recipient | lease =>
        rw [hother] at hanswers
        exact hanswers
    | admin identity' version' =>
        rw [Issue.text, hother] at htext
        obtain ⟨rfl, _⟩ := Fields.append_cons_inj (dot_notMem_of_parseU64 hspelling)
          (dot_notMem_decimalDigits _) htext
        rw [parseU64_decimalDigits, Option.some.injEq] at hspelling
        rw [hspelling] at hne
        exact hne rfl
  · intro hspelled answer hverify
    cases request with
    | link linkId phc =>
        obtain ⟨hgranted, hanswer⟩ := Option.ite_none_right_eq_some.mp hverify
        cases hanswer
        obtain ⟨issue, hmem, hparts, htext, hexpires⟩ := hunforged.of_verifyToken hcrates hissued
          (isContext_link hrequest.1 hrequest.2) hgranted
        have hcontext := IssueContext.eq_link hparts
        refine ⟨issue, hmem, ?_, ?_, hexpires⟩
        · unfold Issue.Answers
          rw [hcontext]
          exact ⟨rfl, rfl, rfl⟩
        · rw [Issue.text, hcontext]
          exact htext
    | recipient grant tokenHash revision holder =>
        obtain ⟨hgranted, hanswer⟩ := Option.ite_none_right_eq_some.mp hverify
        cases hanswer
        obtain ⟨issue, hmem, hparts, htext, hexpires⟩ := hunforged.of_verifyToken hcrates hissued
          (isContext_recipient hrequest.1 hrequest.2.1 hrequest.2.2) hgranted
        have hcontext := IssueContext.eq_recipient hparts
        refine ⟨issue, hmem, ?_, ?_, hexpires⟩
        · unfold Issue.Answers
          rw [hcontext]
          exact ⟨rfl, rfl, rfl, rfl, rfl⟩
        · rw [Issue.text, hcontext]
          exact htext
    | lease grantId tokenHash fileIndex =>
        obtain ⟨holder, hheld, rfl⟩ := Option.map_eq_some_iff.mp hverify
        obtain ⟨issue, hmem, hcontext, htext, hexpires⟩ := hunforged.of_verifyDownloadLease hcrates
          hissued hpresented hrequest.1 hrequest.2 hheld
        refine ⟨issue, hmem, ?_, htext, hexpires⟩
        unfold Issue.Answers
        rw [hcontext]
        exact ⟨rfl, rfl, rfl, rfl⟩
    | admin version =>
        obtain ⟨⟨identity, expires⟩, hsession, rfl⟩ := Option.map_eq_some_iff.mp hverify
        obtain ⟨issue, hmem, hcontext, rfl, hnonce, hexpires, spelling, hspelling, htext⟩ :=
          hunforged.of_verifyAdminToken hcrates hissued hrequest hsession
        have hcanonical : spelling = decimalDigits issue.expires.toNat := by
          by_contra hne
          apply hspelled
          exact ⟨issue, hmem, identity, version, spelling, hcontext, rfl, hexpires, hnonce,
            hspelling, hne, htext⟩
        refine ⟨issue, hmem, ?_, ?_, hexpires⟩
        · unfold Issue.Answers
          rw [hcontext]
          exact ⟨rfl, rfl⟩
        · rw [Issue.text, hcontext, htext, hcanonical]
          rfl

/-- A token that has not expired verifies for what it was issued for, when its nonce has no dot. -/
theorem Issue.verifies
    (hcrates : crates.Lawful) {issue : Issue ι} (hexpires : now < issue.expires)
    (hnonce : '.' ∉ issue.nonce) :
  ∃ request answer, issue.Answers request answer
    ∧ crates.verify secret now (issue.text crates secret) request = some answer
  := by
  have hverify (parts : List (List UInt8)) : crates.verifyToken secret now parts
      (crates.issueToken secret parts issue.expires issue.nonce) = true :=
    TokenCrates.verifyToken_eq_true.mpr ⟨issue.expires, issue.nonce, rfl, hnonce, hexpires⟩
  unfold Issue.Answers Issue.text
  cases issue.context with
  | link linkId phc =>
      exact ⟨.link linkId phc, .granted, ⟨rfl, rfl, rfl⟩, if_pos (hverify _)⟩
  | recipient grant tokenHash revision holder =>
      exact ⟨.recipient grant tokenHash revision holder, .granted, ⟨rfl, rfl, rfl, rfl, rfl⟩,
        if_pos (hverify _)⟩
  | lease grantId tokenHash fileIndex holder =>
      refine ⟨.lease grantId tokenHash fileIndex, .holder holder, ⟨rfl, rfl, rfl, rfl⟩, ?_⟩
      apply Option.map_eq_some_iff.mpr
      refine ⟨holder, ?_, rfl⟩
      have hfields : crates.issueToken secret (leaseContext grantId tokenHash fileIndex holder)
          issue.expires issue.nonce = decimalDigits issue.expires.toNat
            ++ '.' :: (issue.nonce ++ '.' :: crates.tokenMac secret
              (leaseContext grantId tokenHash fileIndex holder) issue.expires issue.nonce) := rfl
      have hmac : '.' ∉ crates.tokenMac secret (leaseContext grantId tokenHash fileIndex holder)
          issue.expires issue.nonce := dot_notMem_hexEncode _
      dsimp only [TokenCrates.verifyDownloadLease]
      by_cases hempty : holder = ""
      · rw [if_pos hempty]
        have hsplit : splitLease (crates.issueToken secret
            (leaseContext grantId tokenHash fileIndex holder) issue.expires issue.nonce) = none := by
          rw [splitLease, hfields, Fields.splitOnce_append (dot_notMem_decimalDigits _),
            Option.bind_some, Fields.splitOnce_append hnonce, Option.bind_some,
            Fields.splitOnce_eq_none.mpr hmac, Option.map_none]
        rw [hsplit]
        dsimp only
        have hnil : String.ofList [] = holder := hempty.symm
        rw [hnil, if_pos (hverify _)]
      · rw [if_neg hempty]
        have hsplit : splitLease (crates.issueToken secret
              (leaseContext grantId tokenHash fileIndex holder) issue.expires issue.nonce
              ++ '.' :: holder.toList)
            = some (crates.issueToken secret (leaseContext grantId tokenHash fileIndex holder)
              issue.expires issue.nonce, holder.toList) :=
          splitLease_eq_some.mpr ⟨_, _, _, hfields, rfl, dot_notMem_decimalDigits _, hnonce, hmac⟩
        rw [hsplit]
        dsimp only
        have hne : holder.toList ≠ [] := by
          intro h
          apply hempty
          rw [← String.ofList_toList (s := holder), h]
        rw [if_neg hne, String.ofList_toList, if_pos (hverify _)]
  | admin identity version =>
      refine ⟨.admin version, .identity identity issue.expires, ⟨rfl, rfl⟩, ?_⟩
      have hsession : crates.verifyAdminToken secret now version
          (crates.adminText secret (decimalDigits issue.expires.toNat)
            (crates.identityPayload identity) version issue.expires issue.nonce)
          = some (identity, issue.expires) :=
        TokenCrates.verifyAdminToken_adminText hcrates (parseU64_decimalDigits _) hexpires hnonce
      exact Option.map_eq_some_iff.mpr ⟨_, hsession, rfl⟩

end Issued

/-! ### A session spelled twice -/

/-- Crates with one identity and with the MAC of one message, all other messages having another. -/
def plainTokens (message : List UInt8) : TokenCrates Unit where
  hmac _ bytes := List.replicate 32 (if bytes = message then 0xaa else 0xbb)
  identityPayload _ := "\x7b\x7d"
  parseIdentity payload := if payload = "\x7b\x7d" then some () else none
  encodePayload _ := "e30".toList
  decodePayload text := if text = "e30".toList then some "\x7b\x7d" else none

theorem plainTokens_lawful (message : List UInt8) : (plainTokens message).Lawful where
  parse_payload _ := rfl
  parse_nulFree payload id h := by
    obtain ⟨rfl, _⟩ := Option.ite_none_right_eq_some.mp h
    decide
  decode_payload _ := rfl
  decode_canonical text payload h := (Option.ite_none_right_eq_some.mp h).1
  encode_dotless _ := show '.' ∉ "e30".toList by decide

/-- A presented text without the other MAC holds none of a message that was not issued. -/
theorem plainTokens_unforged
    {secret : List UInt8} {issue : Issue Unit} {presented : List Char}
    (h : ¬ (hexEncode (List.replicate 32 0xbb)).toList <:+: presented)
    (hmessage : ∀ message message',
      issue.message (plainTokens message) = issue.message (plainTokens message')) :
  MacUnforged (plainTokens (issue.message (plainTokens []))) secret [issue] presented
  := by
  intro message hmac
  refine ⟨issue, List.mem_singleton_self issue, ?_⟩
  by_contra hne
  apply h
  have hother : message ≠ issue.message (plainTokens []) := by
    rintro rfl
    apply hne
    apply hmessage
  have hmac_eq : (plainTokens (issue.message (plainTokens []))).hmac secret message
      = List.replicate 32 0xbb := by
    rw [plainTokens]
    dsimp only
    rw [if_neg hother]
  rw [hmac_eq] at hmac
  exact hmac

/-- The token of a link. -/
def linkIssue : Issue Unit where
  context := .link "l1" "phc"
  expires := 9
  nonce := ['n']

/-- The session of an admin. -/
def adminIssue : Issue Unit where
  context := .admin () "v1"
  expires := 9
  nonce := ['n']

/-- The crates that the token of the link is issued with. -/
def linkTokens : TokenCrates Unit := plainTokens (linkIssue.message (plainTokens []))

/-- The crates that the session is issued with. -/
def adminTokens : TokenCrates Unit := plainTokens (adminIssue.message (plainTokens []))

theorem tokens_only_issued_link :
  OnlyIssued linkTokens [] [linkIssue] 5 (.link "l1" "phc") (linkIssue.text linkTokens [])
  ∧ linkTokens.verify [] 5 (linkIssue.text linkTokens []) (.link "l1" "phc") = some .granted
  := by
  constructor
  · apply (tokens_only_issued (plainTokens_lawful _) _ _ _ _).mpr
    · rintro ⟨_, _, _, _, _, _, h, _⟩
      cases h
    · intro issue hmem
      rw [List.mem_singleton.mp hmem]
      exact ⟨by decide, by decide⟩
    · exact ⟨by decide, by decide⟩
    · decide
    · apply plainTokens_unforged
      · decide +kernel
      · intro _ _
        rfl
  · decide

/-- The session of an admin verifies with a zero before its expiry, although nobody makes MACs and
no token was issued in that spelling. -/
theorem admin_session_respelled :
  let presented := '0' :: adminIssue.text adminTokens []
  adminTokens.Lawful ∧ MacUnforged adminTokens [] [adminIssue] presented
  ∧ adminTokens.verify [] 5 presented (.admin "v1") = some (.identity () 9)
  ∧ ¬ OnlyIssued adminTokens [] [adminIssue] 5 (.admin "v1") presented
  := by
  intro presented
  have hverify : adminTokens.verify [] 5 presented (.admin "v1") = some (.identity () 9) := by
    decide
  refine ⟨plainTokens_lawful _, ?_, hverify, ?_⟩
  · apply plainTokens_unforged
    · decide +kernel
    · intro _ _
      rfl
  · intro honly
    obtain ⟨issue, hmem, _, htext, _⟩ := honly _ hverify
    rw [List.mem_singleton.mp hmem] at htext
    have hlength := congrArg List.length htext
    rw [List.length_cons] at hlength
    omega

end Votport
