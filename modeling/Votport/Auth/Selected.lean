import Votport.Auth.Subjects
import Votport.Foundation.Fields

/-!
# Which account a subject is for

A sign-in that is accepted has the key of the configured claim of the account that was verified.
The keys of opaque subjects are distinct, can be read back, and are none of the other claims.  An
email that a document marks unverified is not always refused: the document is not asked when the
token has an email, and a mark that is not a boolean is not seen.
-/

namespace Votport.Auth

attribute [local instance] Fields.lawful_texts

/-- A digest has 32 bytes, the letters of ASCII are lowered, and a folded text is folded. -/
structure SubjectCrates.Lawful (crates : SubjectCrates) : Prop where
  length_sha256 : ∀ bytes, (crates.sha256 bytes).length = 32
  toLowercase_ascii : ∀ text : List Char, (∀ c ∈ text, c.toNat < 128) →
    crates.toLowercase text = text.map Char.toLower
  fold_fold : ∀ text, fold crates (fold crates text) = fold crates text

variable {ν : Type} {crates : SubjectCrates} {config : OidcConfig} {store : SignInStore}
  {token : IdToken} {userinfo : Option (Except String (Json ν))}

/-! ### Keys of opaque subjects -/

/-- A character that folding leaves as it is. -/
def Plain (c : Char) : Prop := c.toNat < 128 ∧ c.toLower = c ∧ isWhiteSpace c = false

instance (c : Char) : Decidable (Plain c) := inferInstanceAs (Decidable (_ ∧ _ ∧ _))

theorem plain_hexChar : ∀ n : Fin 16, Plain (hexChar n) := by decide

theorem colon_notMem_hexEncode (bytes : List UInt8) : ':' ∉ (hexEncode bytes).toList := by
  intro h
  obtain ⟨n, hn⟩ := mem_hexEncode h
  exact absurd hn ((show ∀ n : Fin 16, ':' ≠ hexChar n by decide) n)

theorem plain_subKey (issuer sub : List Char) :
  ∀ c ∈ subKey crates issuer sub, Plain c
  := by
  intro c hc
  have hhex : ∀ bytes, c ∈ (hexEncode bytes).toList → Plain c := by
    intro bytes hmem
    obtain ⟨n, rfl⟩ := mem_hexEncode hmem
    exact plain_hexChar n
  rcases List.mem_append.mp hc with hmark | hrest
  · have hplain : (subMark.all fun c => decide (Plain c)) = true := by decide
    exact of_decide_eq_true (List.all_eq_true.mp hplain c hmark)
  · rcases List.mem_append.mp hrest with hissuer | hsub
    · exact hhex _ hissuer
    · rcases List.mem_cons.mp hsub with rfl | hsub
      · decide
      · exact hhex _ hsub

theorem fold_of_plain (hcrates : crates.Lawful) {text : List Char} (h : ∀ c ∈ text, Plain c) :
  fold crates text = text
  := by
  have htrim : trim text = text := by
    have hleft : text.dropWhile isWhiteSpace = text := by
      cases text with
      | nil => rfl
      | cons c text => exact List.dropWhile_cons_of_neg (by simp [(h c List.mem_cons_self).2.2])
    unfold trim
    rw [hleft, List.rdropWhile_eq_self_iff]
    intro hne hlast
    rw [(h _ (List.getLast_mem hne)).2.2] at hlast
    cases hlast
  unfold fold
  rw [htrim, hcrates.toLowercase_ascii text fun c hc => (h c hc).1]
  have hid : text.map Char.toLower = text.map id := List.map_congr_left fun c hc => (h c hc).2.1
  rw [hid, List.map_id]

/-- The keys of opaque subjects tell the subjects apart, and the issuers as far as digests do. -/
theorem subKey_inj
    {issuer issuer' sub sub' : List Char} (hcrates : crates.Lawful)
    (h : subKey crates issuer sub = subKey crates issuer' sub') :
  crates.sha256 (utf8 issuer) = crates.sha256 (utf8 issuer') ∧ sub = sub'
  := by
  have hlength : (hexEncode (crates.sha256 (utf8 issuer))).toList.length
      = (hexEncode (crates.sha256 (utf8 issuer'))).toList.length := by
    rw [length_hexEncode, length_hexEncode, hcrates.length_sha256, hcrates.length_sha256]
  obtain ⟨hissuer, hrest⟩ := List.append_inj (List.append_cancel_left h) hlength
  have hsub := hexEncode_injective (String.toList_inj.mp (List.cons.inj hrest).2)
  refine ⟨hexEncode_injective (String.toList_inj.mp hissuer), ?_⟩
  have hsame := congrArg fromUtf8 hsub
  rw [fromUtf8_utf8, fromUtf8_utf8] at hsame
  exact Option.some.inj hsame

/-- An opaque subject is read back from its key. -/
theorem originalSub_subKey (hcrates : crates.Lawful) (issuer sub : List Char) :
  originalSub (subKey crates issuer sub) = some sub
  := by
  have hdigit : ∀ c ∈ (hexEncode (crates.sha256 (utf8 issuer))).toList,
      (hexDigit c).isSome = true ∧ (String.utf8EncodeChar c).length = 1 := by
    intro c hc
    obtain ⟨n, rfl⟩ := mem_hexEncode hc
    exact (show ∀ n : Fin 16, (hexDigit (hexChar n)).isSome = true
      ∧ (String.utf8EncodeChar (hexChar n)).length = 1 by decide) n
  have hlength : utf8Len (hexEncode (crates.sha256 (utf8 issuer))).toList = 64 := by
    rw [utf8Len, length_utf8 fun c hc => (hdigit c hc).2, length_hexEncode, hcrates.length_sha256]
  have hgood : ¬(utf8Len (hexEncode (crates.sha256 (utf8 issuer))).toList ≠ 64
      ∨ ¬(hexEncode (crates.sha256 (utf8 issuer))).toList.all (fun c => (hexDigit c).isSome)
        = true) := by
    rintro (h | h)
    · exact h hlength
    · exact h (List.all_eq_true.mpr fun c hc => (hdigit c hc).1)
  unfold originalSub subKey
  rw [if_pos (List.prefix_append _ _), List.drop_left]
  simp only [Option.bind_eq_bind, Option.bind_some]
  rw [Fields.splitOnce_append (colon_notMem_hexEncode _), Option.bind_some, if_neg hgood,
    hexDecode_hexEncode, Option.bind_some, fromUtf8_utf8]

/-- A key of another claim has another beginning. -/
theorem subjectKey_folded
    {value key : List Char} (hclaim : config.subjectClaim ≠ .sub)
    (h : subjectKey crates config value = .ok key) :
  key = fold crates value ∧ ¬subMark <+: key
  := by
  unfold subjectKey at h
  split at h
  · cases h
  · split at h
    case isTrue => cases h
    case isFalse hvalue =>
      cases h
      exact ⟨rfl, fun hmark => hvalue (.inr hmark)⟩

/-- No spelling of a text that is no key of an opaque subject is one. -/
theorem ne_subKey_of_fold
    (hcrates : crates.Lawful) {issuer sub text other : List Char} (hne : text ≠ subKey crates issuer sub)
    (h : fold crates other = text) :
  other ≠ subKey crates issuer sub
  := by
  rintro rfl
  rw [fold_of_plain hcrates (plain_subKey issuer sub)] at h
  exact hne h.symm

/-! ### What is accepted -/

/-- A text that is not empty when it is folded. -/
def folded (crates : SubjectCrates) (value : Option (List Char)) : Option (List Char) :=
  (value.map (fold crates)).filter (· ≠ [])

/-- The rest of the callback accepts a key. -/
def SignInStore.Admits (store : SignInStore) (key : List Char) (groups : List String) : Prop :=
  store.settings = .ok () ∧ ∃ groups', store.groups key groups = .ok groups'
    ∧ key ≠ "local".toList ∧ store.principal key groups' = .ok ()

theorem ssoCallback_eq_ok {key : List Char} :
  ssoCallback crates config store token userinfo = .ok key
    ↔ ∃ subject groups, subjectAndGroups crates config token userinfo = .ok (some subject, groups)
      ∧ subjectKey crates config subject = .ok key
      ∧ store.Admits key (groups.mergeSort (· ≤ ·)).dedup
  := by
  unfold ssoCallback
  constructor
  · intro h
    obtain ⟨⟨subject, groups⟩, hsubject, h⟩ := Fallible.bind_eq_ok.mp h
    obtain ⟨chosen, hchosen, h⟩ := Fallible.bind_eq_ok.mp h
    obtain ⟨key', hkey, h⟩ := Fallible.bind_eq_ok.mp h
    obtain ⟨_, hsettings, h⟩ := Fallible.bind_eq_ok.mp h
    obtain ⟨groups', hgroups, h⟩ := Fallible.bind_eq_ok.mp h
    obtain ⟨_, hlocal, h⟩ := Fallible.bind_eq_ok.mp h
    obtain ⟨_, hprincipal, h⟩ := Fallible.bind_eq_ok.mp h
    rw [Fallible.present_eq_ok] at hchosen
    rw [Fallible.require_eq_ok] at hlocal
    rw [Fallible.mapError_eq_ok] at hkey
    obtain rfl : key' = key := Except.ok.inj h
    cases hchosen
    exact ⟨chosen, groups, hsubject, hkey, hsettings, groups', hgroups, hlocal, hprincipal⟩
  · rintro ⟨subject, groups, hsubject, hkey, hsettings, groups', hgroups, hlocal, hprincipal⟩
    refine Fallible.bind_eq_ok.mpr ⟨_, hsubject, ?_⟩
    refine Fallible.bind_eq_ok.mpr ⟨_, Fallible.present_eq_ok.mpr rfl, ?_⟩
    refine Fallible.bind_eq_ok.mpr ⟨_, Fallible.mapError_eq_ok.mpr hkey, ?_⟩
    refine Fallible.bind_eq_ok.mpr ⟨_, hsettings, ?_⟩
    refine Fallible.bind_eq_ok.mpr ⟨_, hgroups, ?_⟩
    refine Fallible.bind_eq_ok.mpr ⟨(), Fallible.require_eq_ok.mpr hlocal, ?_⟩
    exact Fallible.bind_eq_ok.mpr ⟨_, hprincipal, rfl⟩

/-- The document about the account is read: it is about the account, and its groups are direct. -/
structure DocumentRead (token : IdToken) (value : Json ν) (memberships : List String) : Prop where
  sub : asStr (member "sub" value) = some token.sub
  groups : ∃ claims, groupClaims value = some claims ∧ claims.directGroups = .ok memberships

theorem subjectAndGroups_none {result : Option (List Char) × List String} :
  subjectAndGroups crates config token (none : Option (Except String (Json ν))) = .ok result
    ↔ selectSubject crates config.subjectClaim token.sub token.email token.emailVerified
        token.preferredUsername = .ok result.1
      ∧ token.groups.directGroups = .ok result.2
  := by
  unfold subjectAndGroups
  constructor
  · intro h
    obtain ⟨subject, hsubject, h⟩ := Fallible.bind_eq_ok.mp h
    obtain ⟨groups, hgroups, h⟩ := Fallible.bind_eq_ok.mp h
    cases h
    exact ⟨Fallible.mapError_eq_ok.mp hsubject, hgroups⟩
  · rintro ⟨hsubject, hgroups⟩
    refine Fallible.bind_eq_ok.mpr ⟨_, Fallible.mapError_eq_ok.mpr hsubject, ?_⟩
    exact Fallible.bind_eq_ok.mpr ⟨_, hgroups, rfl⟩

theorem subjectAndGroups_some
    {response : Except String (Json ν)} {subject : List Char} {groups : List String} :
  subjectAndGroups crates config token (some response) = .ok (some subject, groups)
    ↔ ∃ value chosen own memberships, response = .ok value
      ∧ selectSubject crates config.subjectClaim token.sub token.email token.emailVerified
          token.preferredUsername = .ok chosen
      ∧ token.groups.directGroups = .ok own
      ∧ DocumentRead token value memberships
      ∧ (chosen = some subject ∨ chosen = none
          ∧ selectSubject crates config.subjectClaim token.sub (asStr (member "email" value))
              (asBool (member "email_verified" value))
              (asStr (member "preferred_username" value)) = .ok (some subject))
      ∧ groups = own ++ memberships
  := by
  unfold subjectAndGroups
  constructor
  · intro h
    obtain ⟨chosen, hchosen, h⟩ := Fallible.bind_eq_ok.mp h
    obtain ⟨own, hown, h⟩ := Fallible.bind_eq_ok.mp h
    obtain ⟨value, hvalue, h⟩ := Fallible.bind_eq_ok.mp h
    obtain ⟨_, hsub, h⟩ := Fallible.bind_eq_ok.mp h
    obtain ⟨selected, hselected, h⟩ := Fallible.bind_eq_ok.mp h
    obtain ⟨claims, hclaims, h⟩ := Fallible.bind_eq_ok.mp h
    obtain ⟨memberships, hmemberships, h⟩ := Fallible.bind_eq_ok.mp h
    rw [Fallible.present_eq_ok] at hclaims
    rw [Fallible.require_eq_ok] at hsub
    cases h
    refine ⟨value, chosen, own, memberships, hvalue, Fallible.mapError_eq_ok.mp hchosen, hown,
      ⟨hsub, claims, hclaims, hmemberships⟩, ?_, rfl⟩
    cases chosen with
    | some chosen =>
        cases hselected
        exact .inl rfl
    | none => exact .inr ⟨rfl, Fallible.mapError_eq_ok.mp hselected⟩
  · rintro ⟨value, chosen, own, memberships, hvalue, hchosen, hown, hread, hselected, rfl⟩
    obtain ⟨claims, hclaims, hmemberships⟩ := hread.groups
    refine Fallible.bind_eq_ok.mpr ⟨_, Fallible.mapError_eq_ok.mpr hchosen, ?_⟩
    refine Fallible.bind_eq_ok.mpr ⟨_, hown, ?_⟩
    refine Fallible.bind_eq_ok.mpr ⟨_, hvalue, ?_⟩
    refine Fallible.bind_eq_ok.mpr ⟨(), Fallible.require_eq_ok.mpr hread.sub, ?_⟩
    refine Fallible.bind_eq_ok.mpr ⟨some subject, ?_, ?_⟩
    · rcases hselected with rfl | ⟨rfl, hselected⟩
      · rfl
      · exact Fallible.mapError_eq_ok.mpr hselected
    refine Fallible.bind_eq_ok.mpr ⟨_, Fallible.present_eq_ok.mpr hclaims, ?_⟩
    exact Fallible.bind_eq_ok.mpr ⟨_, hmemberships, rfl⟩

/-! ### What is selected -/

/-- A claim of the account: the one of the token, or else that of the document about it. -/
inductive ClaimOf (userinfo : Option (Except String (Json ν))) (name : String)
    (own : Option (List Char)) : List Char → Prop
  | token {value : List Char} (h : own = some value) : ClaimOf userinfo name own value
  | userinfo {value : List Char} {document : Json ν} (hdocument : userinfo = some (.ok document))
      (h : asStr (member name document) = some value) : ClaimOf userinfo name own value

/-- What the key of an accepted sign-in is made of. -/
def KeyOf (crates : SubjectCrates) (config : OidcConfig) (token : IdToken)
    (userinfo : Option (Except String (Json ν))) (key : List Char) : Prop :=
  match config.subjectClaim with
  | .sub => key = subKey crates config.issuer token.sub
  | .email => ∃ email, ClaimOf userinfo "email" token.email email
      ∧ key = fold crates (fold crates email)
  | .preferredUsername => ∃ name,
      ClaimOf userinfo "preferred_username" token.preferredUsername name
        ∧ key = fold crates (fold crates name)

/-- The subject that an email of the token or else of the document makes, a boolean mark of the
document being seen when its email is taken. -/
def emailSubject (crates : SubjectCrates) (token : IdToken) (value : Json ν) :
    Option (List Char) :=
  match folded crates token.email with
  | some subject => some subject
  | none =>
      if asBool (member "email_verified" value) = some false then none
      else folded crates (asStr (member "email" value))

theorem folded_eq_some {value : Option (List Char)} {subject : List Char} :
  folded crates value = some subject
    ↔ ∃ text, value = some text ∧ subject = fold crates text ∧ subject ≠ []
  := by
  unfold folded
  rw [Option.filter_eq_some_iff, Option.map_eq_some_iff]
  constructor
  · rintro ⟨⟨text, htext, rfl⟩, hne⟩
    exact ⟨text, htext, rfl, of_decide_eq_true hne⟩
  · rintro ⟨text, htext, rfl, hne⟩
    exact ⟨⟨text, htext, rfl⟩, decide_eq_true hne⟩

theorem selectSubject_email
    {sub : List Char} {email name : Option (List Char)} {verified : Option Bool}
    {result : Option (List Char)} :
  selectSubject crates .email sub email verified name = .ok result
    ↔ verified ≠ some false ∧ folded crates email = result
  := by
  unfold selectSubject
  dsimp only
  by_cases h : verified = some false
  · rw [if_pos h]
    exact iff_of_false (fun h => by cases h) (fun hand => hand.1 h)
  · rw [if_neg h]
    exact ⟨fun hok => ⟨h, Except.ok.inj hok⟩, fun hand => congrArg Except.ok hand.2⟩

/-- The subject of a document or of the token alone is the one of a claim. -/
theorem claim_of_subject
    {subject : List Char} {groups : List String}
    (h : subjectAndGroups crates config token userinfo = .ok (some subject, groups)) :
  match config.subjectClaim with
  | .sub => subject = token.sub
  | .email => ∃ email, ClaimOf userinfo "email" token.email email ∧ subject = fold crates email
  | .preferredUsername => ∃ name,
      ClaimOf userinfo "preferred_username" token.preferredUsername name
        ∧ subject = fold crates name
  := by
  have hown : selectSubject crates config.subjectClaim token.sub token.email token.emailVerified
        token.preferredUsername = .ok (some subject)
      ∨ ∃ value, userinfo = some (.ok value)
        ∧ selectSubject crates config.subjectClaim token.sub (asStr (member "email" value))
            (asBool (member "email_verified" value))
            (asStr (member "preferred_username" value)) = .ok (some subject) := by
    cases userinfo with
    | none => exact .inl (subjectAndGroups_none.mp h).1
    | some response =>
        obtain ⟨value, chosen, own, memberships, rfl, hchosen, -, -, hselected, -⟩ :=
          subjectAndGroups_some.mp h
        rcases hselected with rfl | ⟨rfl, hselected⟩
        · exact .inl hchosen
        · exact .inr ⟨value, rfl, hselected⟩
  cases hclaim : config.subjectClaim with
  | sub =>
      rw [hclaim] at hown
      have hsame : ∀ {email verified name},
          selectSubject crates .sub token.sub email verified name = .ok (some subject) →
          subject = token.sub := by
        intro email verified name hselect
        have hfilter := Except.ok.inj hselect
        exact (Option.some.inj (Option.filter_eq_some_iff.mp hfilter).1).symm
      rcases hown with hselect | ⟨value, -, hselect⟩
      · exact hsame hselect
      · exact hsame hselect
  | email =>
      rw [hclaim] at hown
      rcases hown with hselect | ⟨value, hvalue, hselect⟩
      · obtain ⟨text, htext, hsubject, -⟩ := folded_eq_some.mp (selectSubject_email.mp hselect).2
        exact ⟨text, .token htext, hsubject⟩
      · obtain ⟨text, htext, hsubject, -⟩ := folded_eq_some.mp (selectSubject_email.mp hselect).2
        exact ⟨text, .userinfo hvalue htext, hsubject⟩
  | preferredUsername =>
      rw [hclaim] at hown
      rcases hown with hselect | ⟨value, hvalue, hselect⟩
      · obtain ⟨text, htext, hsubject, -⟩ := folded_eq_some.mp (Except.ok.inj hselect)
        exact ⟨text, .token htext, hsubject⟩
      · obtain ⟨text, htext, hsubject, -⟩ := folded_eq_some.mp (Except.ok.inj hselect)
        exact ⟨text, .userinfo hvalue htext, hsubject⟩

theorem keyOf_accepted
    {key : List Char} (h : ssoCallback crates config store token userinfo = .ok key) :
  KeyOf crates config token userinfo key
  := by
  obtain ⟨subject, groups, hsubject, hkey, -⟩ := ssoCallback_eq_ok.mp h
  have hclaim := claim_of_subject hsubject
  unfold KeyOf
  cases hconfig : config.subjectClaim with
  | sub =>
      simp only [hconfig] at hclaim ⊢
      subst hclaim
      unfold subjectKey at hkey
      split at hkey
      · cases hkey
      · exact (Except.ok.inj hkey).symm
  | email =>
      simp only [hconfig] at hclaim ⊢
      obtain ⟨email, hemail, rfl⟩ := hclaim
      exact ⟨email, hemail, (subjectKey_folded (by rw [hconfig]; decide) hkey).1⟩
  | preferredUsername =>
      simp only [hconfig] at hclaim ⊢
      obtain ⟨name, hname, rfl⟩ := hclaim
      exact ⟨name, hname, (subjectKey_folded (by rw [hconfig]; decide) hkey).1⟩

theorem account_accepted
    {key : List Char} {response : Except String (Json ν)}
    (h : ssoCallback crates config store token (some response) = .ok key) :
  ∃ value, response = .ok value ∧ asStr (member "sub" value) = some token.sub
  := by
  obtain ⟨subject, groups, hsubject, -⟩ := ssoCallback_eq_ok.mp h
  obtain ⟨value, chosen, own, memberships, hvalue, -, -, hread, -⟩ :=
    subjectAndGroups_some.mp hsubject
  exact ⟨value, hvalue, hread.sub⟩

/-- A document with an email for its claim is accepted in this way only. -/
theorem email_accepted
    {key : List Char} {value : Json ν} (hclaim : config.subjectClaim = .email) :
  ssoCallback crates config store token (some (.ok value)) = .ok key
    ↔ token.emailVerified ≠ some false ∧ ∃ own memberships subject,
      DocumentRead token value memberships ∧ token.groups.directGroups = .ok own
      ∧ emailSubject crates token value = some subject
      ∧ subjectKey crates config subject = .ok key
      ∧ store.Admits key ((own ++ memberships).mergeSort (· ≤ ·)).dedup
  := by
  rw [ssoCallback_eq_ok]
  constructor
  · rintro ⟨subject, groups, hsubject, hkey, hadmits⟩
    obtain ⟨value', chosen, own, memberships, hvalue, hchosen, hown, hread, hselected, rfl⟩ :=
      subjectAndGroups_some.mp hsubject
    cases hvalue
    rw [hclaim, selectSubject_email] at hchosen
    refine ⟨hchosen.1, own, memberships, subject, hread, hown, ?_, hkey, hadmits⟩
    unfold emailSubject
    rw [hchosen.2]
    rcases hselected with rfl | ⟨rfl, hselected⟩
    · rfl
    · rw [hclaim, selectSubject_email] at hselected
      exact (if_neg hselected.1).trans hselected.2
  · rintro ⟨hmark, own, memberships, subject, hread, hown, hsubject, hkey, hadmits⟩
    refine ⟨subject, _, subjectAndGroups_some.mpr ⟨value, folded crates token.email, own,
      memberships, rfl, ?_, hown, hread, ?_, rfl⟩, hkey, hadmits⟩
    · rw [hclaim, selectSubject_email]
      exact ⟨hmark, rfl⟩
    · unfold emailSubject at hsubject
      cases hfolded : folded crates token.email with
      | some chosen =>
          simp only [hfolded] at hsubject
          exact .inl hsubject
      | none =>
          simp only [hfolded] at hsubject
          obtain ⟨hverified, hsubject⟩ := Option.ite_none_left_eq_some.mp hsubject
          rw [hclaim, selectSubject_email]
          exact .inr ⟨rfl, hverified, hsubject⟩

/-! ### Marks of emails -/

variable [Zero ν] [DecidableEq ν]

/-- A mark of an email that is not verified: the boolean, a text that says it, or a zero. -/
def marksUnverified : Json ν → Bool
  | .bool b => !b
  | .str s => decide ((trim s.toList).map Char.toLower ∈ ["false".toList, "0".toList])
  | .num n => decide (n = 0)
  | _ => false

/-- An email that a document marks as unverified. -/
inductive MarkedEmail (token : IdToken) (userinfo : Option (Except String (Json ν))) :
    List Char → Prop
  | token {email : List Char} (hmark : token.emailVerified = some false)
      (hemail : token.email = some email) : MarkedEmail token userinfo email
  | userinfo {email : List Char} {value : Json ν} (hvalue : userinfo = some (.ok value))
      (hmark : marksUnverified (member "email_verified" value) = true)
      (hemail : asStr (member "email" value) = some email) : MarkedEmail token userinfo email

/-- An accepted sign-in is for the account that was verified, and for no email that a document marks
unverified. -/
structure Verified (crates : SubjectCrates) (config : OidcConfig) (store : SignInStore)
    (token : IdToken) (userinfo : Option (Except String (Json ν))) : Prop where
  account : ∀ key, ssoCallback crates config store token userinfo = .ok key →
    ∀ response, userinfo = some response →
      ∃ value, response = .ok value ∧ asStr (member "sub" value) = some token.sub
  key : ∀ key, ssoCallback crates config store token userinfo = .ok key →
    KeyOf crates config token userinfo key
  unmarked : ∀ key, ssoCallback crates config store token userinfo = .ok key →
    config.subjectClaim = .email → ∀ email, MarkedEmail token userinfo email →
      key ≠ fold crates (fold crates email)

/-- The mark of the document is overlooked: the claim is the email, both documents and what is
stored let it pass, and the email that is taken is the marked one. -/
structure Overlooked (crates : SubjectCrates) (config : OidcConfig) (store : SignInStore)
    (token : IdToken) (userinfo : Option (Except String (Json ν))) : Prop where
  claim : config.subjectClaim = .email
  unmarked : token.emailVerified ≠ some false
  passes : ∃ value own memberships subject key email, userinfo = some (.ok value)
    ∧ DocumentRead token value memberships ∧ token.groups.directGroups = .ok own
    ∧ emailSubject crates token value = some subject
    ∧ subjectKey crates config subject = .ok key
    ∧ store.Admits key ((own ++ memberships).mergeSort (· ≤ ·)).dedup
    ∧ marksUnverified (member "email_verified" value) = true
    ∧ asStr (member "email" value) = some email ∧ key = fold crates (fold crates email)

/-! ### When a sign-in is for a verified account -/

/-- A sign-in is for a verified account unless it overlooks the mark of a document. -/
theorem verified_iff :
  Verified crates config store token userinfo ↔ ¬Overlooked crates config store token userinfo
  := by
  constructor
  · rintro hverified ⟨hclaim, htoken, value, own, memberships, subject, key, email, rfl, hread,
      hown, hsubject, hkey, hadmits, hmark, hemail, hsame⟩
    have haccepted := (email_accepted hclaim).mpr
      ⟨htoken, own, memberships, subject, hread, hown, hsubject, hkey, hadmits⟩
    exact hverified.unmarked key haccepted hclaim email (.userinfo rfl hmark hemail) hsame
  · intro hoverlooked
    refine ⟨?_, fun key => keyOf_accepted, ?_⟩
    · rintro key haccepted response rfl
      exact account_accepted haccepted
    · intro key haccepted hclaim email hmarked hsame
      cases hmarked with
      | token hmark _ =>
          obtain ⟨subject, groups, hsubject, -⟩ := ssoCallback_eq_ok.mp haccepted
          have hselect : ∃ chosen, selectSubject crates config.subjectClaim token.sub token.email
              token.emailVerified token.preferredUsername = .ok chosen := by
            cases userinfo with
            | none => exact ⟨_, (subjectAndGroups_none.mp hsubject).1⟩
            | some response =>
                obtain ⟨-, chosen, -, -, -, hchosen, -⟩ := subjectAndGroups_some.mp hsubject
                exact ⟨chosen, hchosen⟩
          obtain ⟨chosen, hchosen⟩ := hselect
          rw [hclaim, selectSubject_email] at hchosen
          exact hchosen.1 hmark
      | userinfo hvalue hmark hemail =>
          subst hvalue
          obtain ⟨htoken, own, memberships, subject, hread, hown, hsubject, hkey, hadmits⟩ :=
            (email_accepted hclaim).mp haccepted
          exact hoverlooked ⟨hclaim, htoken, _, own, memberships, subject, key, email, rfl, hread,
            hown, hsubject, hkey, hadmits, hmark, hemail, hsame⟩

/-- Every sign-in is for a verified account unless a mark of the document is overlooked.  The keys of
opaque subjects are distinct unless digests of issuers collide, they are read back, and no spelling
of another key or of the local subject is one. -/
theorem subjects_verified (hcrates : crates.Lawful) :
  (∀ (config : OidcConfig) (store : SignInStore) (token : IdToken)
      (userinfo : Option (Except String (Json ν))),
      Verified crates config store token userinfo ↔ ¬Overlooked crates config store token userinfo)
    ∧ (∀ issuer issuer' sub sub' : List Char,
        (crates.sha256 (utf8 issuer) = crates.sha256 (utf8 issuer') → issuer = issuer') →
        subKey crates issuer sub = subKey crates issuer' sub' → issuer = issuer' ∧ sub = sub')
    ∧ (∀ issuer sub : List Char, originalSub (subKey crates issuer sub) = some sub)
    ∧ (∀ (config : OidcConfig) (value key other issuer sub : List Char),
        config.subjectClaim ≠ .sub → subjectKey crates config value = .ok key →
        fold crates other = fold crates key → other ≠ subKey crates issuer sub)
    ∧ ∀ other issuer sub : List Char,
        fold crates other = "local".toList → other ≠ subKey crates issuer sub
  := by
  refine ⟨fun _ _ _ _ => verified_iff, ?_, originalSub_subKey hcrates, ?_, ?_⟩
  · intro issuer issuer' sub sub' hcollision h
    obtain ⟨hissuer, hsub⟩ := subKey_inj hcrates h
    exact ⟨hcollision hissuer, hsub⟩
  · intro config value key other issuer sub hclaim hkey hfold
    obtain ⟨rfl, hmark⟩ := subjectKey_folded hclaim hkey
    rw [hcrates.fold_fold] at hfold
    refine ne_subKey_of_fold hcrates (fun h => hmark ?_) hfold
    rw [h]
    exact List.prefix_append _ _
  · intro other issuer sub hfold
    refine ne_subKey_of_fold hcrates (fun h => ?_) hfold
    have hfirst : some 'l' = some 'o' := congrArg List.head? h
    exact absurd hfirst (by decide)

/-! ### Sign-ins that are not -/

/-- Letters of ASCII are lowered, and every digest is the same. -/
def sampleCrates : SubjectCrates where
  sha256 _ := List.replicate 32 0
  toLowercase text := text.map Char.toLower

/-- A character is an uppercase letter or stays as it is. -/
theorem letter_or_toLower (c : Char) :
  (∃ n : Fin 26, c = Char.ofNat (65 + n)) ∨ c.toLower = c
  := by
  by_cases h : c.val ≥ 'A'.val ∧ c.val ≤ 'Z'.val
  · have hc : 65 ≤ c.toNat ∧ c.toNat ≤ 90 := h
    have hn : 65 + (c.toNat - 65) = c.toNat := by omega
    refine .inl ⟨⟨c.toNat - 65, by omega⟩, ?_⟩
    exact ((congrArg Char.ofNat hn).trans (Char.ofNat_toNat c)).symm
  · exact .inr (dif_neg h)

theorem toLower_toLower (c : Char) :
  c.toLower.toLower = c.toLower
  := by
  rcases letter_or_toLower c with ⟨n, rfl⟩ | h
  · exact (show ∀ n : Fin 26, (Char.ofNat (65 + n)).toLower.toLower
      = (Char.ofNat (65 + n)).toLower by decide) n
  · rw [h, h]

theorem isWhiteSpace_toLower (c : Char) :
  isWhiteSpace c.toLower = isWhiteSpace c
  := by
  rcases letter_or_toLower c with ⟨n, rfl⟩ | h
  · exact (show ∀ n : Fin 26, isWhiteSpace (Char.ofNat (65 + n)).toLower
      = isWhiteSpace (Char.ofNat (65 + n)) by decide) n
  · rw [h]

theorem trim_map_toLower (text : List Char) :
  trim (text.map Char.toLower) = (trim text).map Char.toLower
  := by
  have hsame : isWhiteSpace ∘ Char.toLower = isWhiteSpace := funext isWhiteSpace_toLower
  unfold trim List.rdropWhile
  rw [List.dropWhile_map, hsame, ← List.map_reverse, List.dropWhile_map, hsame, List.map_reverse]

theorem sampleCrates_lawful : sampleCrates.Lawful
  := by
  refine ⟨fun _ => List.length_replicate, fun _ _ => rfl, fun text => ?_⟩
  unfold fold sampleCrates
  dsimp only
  rw [trim_map_toLower, trim_trim, List.map_map]
  exact List.map_congr_left fun c _ => toLower_toLower c

/-- Everyone who has signed in is accepted. -/
def openStore : SignInStore where
  settings := .ok ()
  groups _ groups := .ok groups
  principal _ _ := .ok ()

/-- A token for an account, with an email or without. -/
def sampleToken (email : Option (List Char)) : IdToken where
  sub := "u".toList
  email := email
  emailVerified := none
  preferredUsername := none
  groups := ⟨[], false, []⟩

/-- A document about the account that marks its email in some form. -/
def sampleDocument (mark : Json ℤ) : Json ℤ :=
  .obj [("sub", .str "u"), ("email", .str "a@b.example"), ("email_verified", mark)]

/-- A token without a mark is enough for an email, and so is a document that marks it verified. -/
theorem subjects_verified_token :
  Verified sampleCrates ⟨"https://idp.example".toList, .email⟩ openStore
      (sampleToken (some "a@b.example".toList)) (none : Option (Except String (Json ℤ)))
    ∧ Verified sampleCrates ⟨"https://idp.example".toList, .email⟩ openStore
      (sampleToken none) (some (.ok (sampleDocument (.bool true))))
  := by
  constructor
  · refine ((subjects_verified sampleCrates_lawful).1 _ _ _ _).mpr fun h => ?_
    obtain ⟨value, own, memberships, subject, key, email, hvalue, -⟩ := h.passes
    cases hvalue
  · refine ((subjects_verified sampleCrates_lawful).1 _ _ _ _).mpr fun h => ?_
    obtain ⟨value, own, memberships, subject, key, email, hvalue, _, _, _, _, _, hmark, _⟩ :=
      h.passes
    cases hvalue
    cases hmark

/-- An email that the document marks unverified is accepted from the token, and one that it marks
with a text is accepted from the document. -/
theorem unverified_accepted :
  ¬Verified sampleCrates ⟨"https://idp.example".toList, .email⟩ openStore
      (sampleToken (some "a@b.example".toList)) (some (.ok (sampleDocument (.bool false))))
    ∧ ¬Verified sampleCrates ⟨"https://idp.example".toList, .email⟩ openStore
      (sampleToken none) (some (.ok (sampleDocument (.str "false"))))
  := by
  have hadmits : ∀ groups, openStore.Admits "a@b.example".toList groups :=
    fun groups => ⟨rfl, groups, rfl, by decide, rfl⟩
  have hread : ∀ email mark, DocumentRead (sampleToken email) (sampleDocument mark) [] :=
    fun _ _ => ⟨rfl, _, rfl, rfl⟩
  constructor
  · intro h
    refine verified_iff.mp h ⟨rfl, by decide, _, [], [], "a@b.example".toList,
      "a@b.example".toList, "a@b.example".toList, rfl, hread _ _, rfl, ?_, ?_, hadmits _, rfl, rfl,
      ?_⟩
    · decide
    · rfl
    · decide
  · intro h
    refine verified_iff.mp h ⟨rfl, by decide, _, [], [], "a@b.example".toList,
      "a@b.example".toList, "a@b.example".toList, rfl, hread _ _, rfl, ?_, ?_, hadmits _, ?_, rfl,
      ?_⟩
    · decide
    · rfl
    · decide
    · decide

end Votport.Auth
