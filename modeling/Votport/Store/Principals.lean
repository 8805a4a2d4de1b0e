import Mathlib
import Votport.Foundation.Table

/-!
# Principals and their credential versions

A session carries the credential version its principal had when it was minted, and
`principal_allows` compares the two.  A revocation moves the version on.  A purge deletes
the row, and leaves a tombstone with its last version, under a key made of the folded
subject; a row created later starts one above it.

SQL folds the letters of ASCII only, where the tombstone's key is folded by Rust, and a
look-up takes the first of the rows that fold alike.  So the version of a principal only
goes up as long as no other spelling of its subject is inserted.
-/

namespace Votport

/-! ### Rows and keys -/

/-- `lower` in SQL, which folds the letters of ASCII. -/
def sqlLower (subject : String) : String := String.ofList (subject.toList.map Char.toLower)

/-- The functions the key of a tombstone is made with: `str::to_lowercase` and
`hash_token`. -/
structure SubjectKeys where
  toLowercase : String → String
  hashToken : String → String

/-- Lowering a string that SQL has lowered gives what lowering the string gives. -/
structure SubjectKeys.Lawful (keys : SubjectKeys) : Prop where
  toLowercase_lower : ∀ s, keys.toLowercase (sqlLower s) = keys.toLowercase s

/-- A row of `principals`. -/
structure PrincipalRow where
  subject : String
  credentialVersion : ℕ
  blocked : Bool
  lastLoginAt : ℕ
  lastGroups : String
  lastGrants : String
  source : String
  externalId : Option String
  createdAt : ℕ
deriving DecidableEq

/-- A row of `meta` that a purge leaves. -/
structure Tombstone where
  key : String
  version : ℕ
deriving DecidableEq

/-- The table `principals`, with the rows of `meta` that are about it: the tombstones,
and the hash of the current issuer. -/
structure Principals where
  rows : Table PrincipalRow.subject
  tombstones : Table Tombstone.key
  issuer : Option String

/-- What the keys of tombstones begin with. -/
def purgedPrincipalPrefix : String := "purged_principal:"

/-- `purged_principal_key`. -/
def purgedPrincipalKey (keys : SubjectKeys) (subject : String) : String :=
  purgedPrincipalPrefix ++ keys.hashToken (keys.toLowercase subject)

/-- The row `WHERE lower(subject) = lower(?1) ORDER BY subject LIMIT 1`. -/
def principal (s : Principals) (subject : String) : Option PrincipalRow :=
  ((s.rows.rows.filter (fun r => sqlLower r.subject = sqlLower subject)).insertionSort
    (fun r r' => r.subject ≤ r'.subject)).head?

/-- `principal_allows`. -/
def principalAllows
    (keys : SubjectKeys) (s : Principals) (subject : String) (credentialVersion : ℕ) : Bool :=
  let purged := (s.tombstones.find? (purgedPrincipalKey keys subject)).isSome
  match principal s subject with
  | none => credentialVersion = 1 ∧ ¬ purged
  | some row => credentialVersion = row.credentialVersion ∧ ¬ row.blocked

/-! ### Operations -/

/-- The version a new row of the subject starts with. -/
def startVersion (keys : SubjectKeys) (s : Principals) (subject : String) : ℕ :=
  match s.tombstones.find? (purgedPrincipalKey keys subject) with
  | none => 1
  | some tombstone => tombstone.version + 1

/-- `upsert_sso_principal`, with the principal it returns. -/
def upsertSsoPrincipal
    (keys : SubjectKeys) (s : Principals) (subject groups grants : String) (at' : ℕ) :
    PrincipalRow × Principals :=
  let row :=
    match s.rows.find? subject with
    | none => {
        subject, credentialVersion := startVersion keys s subject, blocked := false,
        lastLoginAt := at', lastGroups := groups, lastGrants := grants, source := "sso",
        externalId := none, createdAt := at' }
    | some row => {
        row with
        lastLoginAt := if row.blocked then row.lastLoginAt else at'
        lastGroups := if row.blocked then row.lastGroups else groups
        lastGrants := if row.blocked then row.lastGrants else grants }
  (row, {
    s with
    rows := s.rows.upsert row
    tombstones := s.tombstones.erase (purgedPrincipalKey keys subject) })

/-- `provision_principal`, false when the subject exists. -/
def provisionPrincipal
    (keys : SubjectKeys) (s : Principals) (subject : String) (externalId : Option String)
    (at' : ℕ) : Bool × Principals :=
  match s.rows.insert? {
      subject, credentialVersion := startVersion keys s subject, blocked := false,
      lastLoginAt := 0, lastGroups := "[]", lastGrants := "[]", source := "scim",
      externalId, createdAt := at' } with
  | none => (false, s)
  | some rows => (true, {
      s with
      rows, tombstones := s.tombstones.erase (purgedPrincipalKey keys subject) })

/-- The table with `f` applied to the rows of a subject, in any spelling. -/
def updateSubject
    (s : Principals) (subject : String) (f : PrincipalRow → PrincipalRow)
    (hf : ∀ r, (f r).subject = r.subject) : Principals :=
  { s with
    rows := s.rows.map (fun r => if sqlLower r.subject = sqlLower subject then f r else r)
      (by intro r; split_ifs; exacts [hf r, rfl]) }

/-- `revoke_principal`, false when no row is the subject's. -/
def revokePrincipal (s : Principals) (subject : String) : Bool × Principals :=
  (∃ r ∈ s.rows.rows, sqlLower r.subject = sqlLower subject,
    updateSubject s subject
      (fun r => { r with credentialVersion := r.credentialVersion + 1, blocked := true })
      (fun _ => rfl))

/-- `unblock_principal`, false when no row is the subject's. -/
def unblockPrincipal (s : Principals) (subject : String) : Bool × Principals :=
  if ∃ r ∈ s.rows.rows, sqlLower r.subject = sqlLower subject then
    (true, updateSubject s subject (fun r => { r with blocked := false }) (fun _ => rfl))
  else (false, s)

/-- The rows a purge erases. -/
def purgedRows (s : Principals) (subject : String) : List PrincipalRow :=
  s.rows.rows.filter (fun r => sqlLower r.subject = sqlLower subject ∧ r.blocked = true)

/-- `purge_principal`, false when no blocked row is the subject's. -/
def purgePrincipal (keys : SubjectKeys) (s : Principals) (subject : String) : Bool × Principals :=
  let purged := purgedRows s subject
  (purged ≠ [], {
    s with
    rows := s.rows.filter
      (fun r => ¬ (sqlLower r.subject = sqlLower subject ∧ r.blocked = true))
    tombstones :=
      if purged = [] then s.tombstones
      else s.tombstones.upsert
        ⟨purgedPrincipalKey keys subject, (purged.map PrincipalRow.credentialVersion).foldr max 0⟩ })

/-- `migrate_oidc_subjects`, with the hash of the issuer. -/
def migrateOidcSubjects (s : Principals) (issuerHash : String) : Principals :=
  if s.issuer = some issuerHash then s
  else {
    s with
    issuer := some issuerHash
    rows := s.rows.map
      (fun r => if r.subject = "local" then r
        else { r with credentialVersion := r.credentialVersion + 1, blocked := true,
                      externalId := none })
      (by intro r; split_ifs <;> rfl) }

/-! ### Runs -/

/-- An operation on the principals. -/
inductive PrincipalOp where
  | upsert (subject groups grants : String) (at' : ℕ)
  | provision (subject : String) (externalId : Option String) (at' : ℕ)
  | revoke (subject : String)
  | unblock (subject : String)
  | purge (subject : String)
  | migrateOidc (issuerHash : String)

/-- The principals after an operation. -/
def Principals.apply (keys : SubjectKeys) (s : Principals) : PrincipalOp → Principals
  | .upsert subject groups grants at' => (upsertSsoPrincipal keys s subject groups grants at').2
  | .provision subject externalId at' => (provisionPrincipal keys s subject externalId at').2
  | .revoke subject => (revokePrincipal s subject).2
  | .unblock subject => (unblockPrincipal s subject).2
  | .purge subject => (purgePrincipal keys s subject).2
  | .migrateOidc issuerHash => migrateOidcSubjects s issuerHash

/-- The subject an operation may insert. -/
def PrincipalOp.inserted : PrincipalOp → Option String
  | .upsert subject _ _ _ => some subject
  | .provision subject _ _ => some subject
  | _ => none

/-- A session as its cookie names it. -/
structure PrincipalSession where
  subject : String
  credentialVersion : ℕ

/-- The session carries the version of its principal's row. -/
def PrincipalSession.Minted (session : PrincipalSession) (s : Principals) : Prop :=
  ∃ row, s.rows.find? session.subject = some row
    ∧ row.credentialVersion = session.credentialVersion

/-- The operation revokes or purges the principal of the subject: it is called with a
spelling of the subject and answers true. -/
def Revokes (keys : SubjectKeys) (s : Principals) (subject : String) : PrincipalOp → Prop
  | .revoke subject' => sqlLower subject' = sqlLower subject ∧ (revokePrincipal s subject').1
  | .purge subject' => sqlLower subject' = sqlLower subject ∧ (purgePrincipal keys s subject').1
  | _ => False

/-- None of the subjects is another spelling of the given one. -/
def OneSpelling (keys : SubjectKeys) (subject : String) (subjects : List String) : Prop :=
  ∀ x ∈ subjects, keys.toLowercase x = keys.toLowercase subject → x = subject

/-- The hash tells those of the subjects that fold otherwise from the given one. -/
def HashedApart (keys : SubjectKeys) (subject : String) (subjects : List String) : Prop :=
  ∀ x ∈ subjects,
    keys.hashToken (keys.toLowercase x) = keys.hashToken (keys.toLowercase subject) →
      keys.toLowercase x = keys.toLowercase subject

/-! ### The version a subject has reached -/

/-- The version of the subject's row, or the one a row created now would get. -/
def reachedVersion (keys : SubjectKeys) (s : Principals) (subject : String) : ℕ :=
  match s.rows.find? subject with
  | some row => row.credentialVersion
  | none => startVersion keys s subject

/-- The subjects of the rows are among the given ones. -/
def SubjectsIn (subjects : List String) (s : Principals) : Prop :=
  ∀ r ∈ s.rows.rows, r.subject ∈ subjects

section OneSpelling

variable {keys : SubjectKeys} (hkeys : keys.Lawful) {subject : String} {subjects : List String}
  (hone : OneSpelling keys subject subjects) (hhash : HashedApart keys subject subjects)

include hkeys in
theorem toLowercase_eq_of_lower_eq {x y : String} (h : sqlLower x = sqlLower y) :
  keys.toLowercase x = keys.toLowercase y
  := by
  rw [← hkeys.toLowercase_lower x, h, hkeys.toLowercase_lower]

theorem purgedPrincipalKey_congr {x y : String} (h : keys.toLowercase x = keys.toLowercase y) :
  purgedPrincipalKey keys x = purgedPrincipalKey keys y
  := by
  rw [purgedPrincipalKey, purgedPrincipalKey, h]

include hone hhash in
/-- Of the given subjects, one with the key of the subject is the subject. -/
theorem eq_of_purgedPrincipalKey_eq {x : String} (hx : x ∈ subjects)
    (h : purgedPrincipalKey keys x = purgedPrincipalKey keys subject) :
  x = subject
  := by
  rw [purgedPrincipalKey, purgedPrincipalKey] at h
  have hhashed := (String.append_right_inj _).mp h
  exact hone x hx (hhash x hx hhashed)

include hkeys hone

/-- Of the given subjects, one that folds as the subject in SQL is the subject. -/
theorem eq_of_lower_eq {x : String} (hx : x ∈ subjects) (h : sqlLower x = sqlLower subject) :
  x = subject
  := hone x hx (toLowercase_eq_of_lower_eq hkeys h)

/-- The look-up in any spelling finds the row of the subject itself. -/
theorem principal_eq_find?
    {s : Principals} (hs : SubjectsIn subjects s) :
  principal s subject = s.rows.find? subject
  := by
  have hmem : ∀ r, r ∈ (s.rows.rows.filter
      (fun r => sqlLower r.subject = sqlLower subject)).insertionSort
        (fun r r' => r.subject ≤ r'.subject) ↔ r ∈ s.rows.rows ∧ r.subject = subject := by
    intro r
    rw [(List.perm_insertionSort _ _).mem_iff, List.mem_filter, decide_eq_true_iff]
    constructor
    · rintro ⟨hr, hl⟩
      exact ⟨hr, eq_of_lower_eq hkeys hone (hs r hr) hl⟩
    · rintro ⟨hr, rfl⟩
      exact ⟨hr, rfl⟩
  rw [principal]
  cases hfind : s.rows.find? subject with
  | none =>
      rw [List.head?_eq_none_iff, List.eq_nil_iff_forall_not_mem]
      intro r hr
      obtain ⟨hr, he⟩ := (hmem r).mp hr
      apply Table.find?_eq_none.mp hfind r hr he
  | some row =>
      obtain ⟨hrow, he⟩ := Table.find?_eq_some.mp hfind
      cases hl : (s.rows.rows.filter
          (fun r => sqlLower r.subject = sqlLower subject)).insertionSort
            (fun r r' => r.subject ≤ r'.subject) with
      | nil =>
          have hno := (hmem row).mpr ⟨hrow, he⟩
          rw [hl] at hno
          cases hno
      | cons r l =>
          obtain ⟨hr, hre⟩ := (hmem r).mp (hl ▸ List.mem_cons_self)
          rw [List.head?_cons, s.rows.eq_of_key_eq hr hrow (hre.trans he.symm)]

/-- A session that is let through carries the version its subject has reached. -/
theorem eq_reachedVersion_of_allows
    {s : Principals} (hs : SubjectsIn subjects s)
    {version : ℕ} (h : principalAllows keys s subject version = true) :
  version = reachedVersion keys s subject
  := by
  rw [principalAllows, principal_eq_find? hkeys hone hs] at h
  rw [reachedVersion]
  cases hfind : s.rows.find? subject with
  | none =>
      simp only [hfind, startVersion] at h ⊢
      cases htomb : s.tombstones.find? (purgedPrincipalKey keys subject) with
      | none => simpa [htomb] using h
      | some t => simp [htomb] at h
  | some row =>
      rw [hfind] at h
      simp only [decide_eq_true_iff] at h
      apply h.1

/-! ### What an operation does to the version -/

include hhash

omit hkeys in
/-- A new row takes the version its subject has reached, and the tombstones of the others
stay. -/
theorem startVersion_erase
    (s : Principals) {x : String} (hx : x ∈ subjects) (hne : subject ≠ x)
    (rows : Table PrincipalRow.subject) :
  startVersion keys
      { s with rows, tombstones := s.tombstones.erase (purgedPrincipalKey keys x) } subject
    = startVersion keys s subject
  := by
  have hkey : purgedPrincipalKey keys subject ≠ purgedPrincipalKey keys x := by
    intro he
    exact hne (eq_of_purgedPrincipalKey_eq hone hhash hx he.symm).symm
  rw [startVersion, startVersion]
  dsimp only
  rw [Table.find?_erase, if_neg hkey]

omit hkeys hone hhash in
theorem upsertSsoPrincipal_subject
    (keys : SubjectKeys) (s : Principals) (x groups grants : String) (at' : ℕ) :
  (upsertSsoPrincipal keys s x groups grants at').1.subject = x
  := by
  rw [upsertSsoPrincipal]
  cases hfind : s.rows.find? x with
  | none => rfl
  | some row => apply (Table.find?_eq_some.mp hfind).2

omit hkeys in
theorem reachedVersion_upsert
    (s : Principals) {x : String} (hx : x ∈ subjects)
    (groups grants : String) (at' : ℕ) :
  reachedVersion keys (upsertSsoPrincipal keys s x groups grants at').2 subject
    = reachedVersion keys s subject
  := by
  have hkey := upsertSsoPrincipal_subject keys s x groups grants at'
  have hrows : (upsertSsoPrincipal keys s x groups grants at').2.rows
      = s.rows.upsert (upsertSsoPrincipal keys s x groups grants at').1 := rfl
  rw [reachedVersion, hrows, Table.find?_upsert, hkey]
  split_ifs with he
  · subst he
    rw [upsertSsoPrincipal, reachedVersion]
    cases hfind : s.rows.find? subject with
    | none => rfl
    | some row => rfl
  · rw [reachedVersion]
    cases hfind : s.rows.find? subject with
    | none => apply startVersion_erase hone hhash s hx he
    | some row => rfl

omit hkeys in
theorem reachedVersion_provision
    (s : Principals) {x : String} (hx : x ∈ subjects)
    (externalId : Option String) (at' : ℕ) :
  reachedVersion keys (provisionPrincipal keys s x externalId at').2 subject
    = reachedVersion keys s subject
  := by
  rw [provisionPrincipal]
  split
  · rfl
  · rename_i rows hrows
    have habsent := (Table.insert?_eq_some.mp hrows).1
    rw [reachedVersion]
    dsimp only at habsent ⊢
    rw [Table.find?_insert? hrows]
    dsimp only
    split_ifs with he
    · subst he
      rw [reachedVersion, habsent]
    · rw [reachedVersion]
      cases hfind : s.rows.find? subject with
      | none => apply startVersion_erase hone hhash s hx he
      | some row => rfl

omit hkeys hone hhash in
theorem reachedVersion_map
    (s : Principals) (f : PrincipalRow → PrincipalRow) (hf : ∀ r, (f r).subject = r.subject)
    (hle : ∀ r, r.credentialVersion ≤ (f r).credentialVersion) (issuer : Option String)
    (subject : String) :
  reachedVersion keys s subject
    ≤ reachedVersion keys { s with rows := s.rows.map f hf, issuer } subject
  := by
  rw [reachedVersion, reachedVersion]
  dsimp only
  rw [Table.find?_map]
  cases s.rows.find? subject with
  | none => apply le_refl
  | some row => apply hle

omit hhash in
/-- The rows a purge by any spelling of the subject erases are the subject's row, when
that is blocked. -/
theorem mem_purgedRows
    {s : Principals} (hs : SubjectsIn subjects s) {x : String}
    (hx : keys.toLowercase x = keys.toLowercase subject)
    {r : PrincipalRow} (hr : r ∈ purgedRows s x) :
  s.rows.find? subject = some r ∧ sqlLower subject = sqlLower x ∧ r.blocked = true
  := by
  rw [purgedRows, List.mem_filter, decide_eq_true_iff] at hr
  obtain ⟨hmem, hlower, hblocked⟩ := hr
  have he : r.subject = subject := by
    apply hone _ (hs r hmem)
    rw [← hx]
    apply toLowercase_eq_of_lower_eq hkeys hlower
  subst he
  exact ⟨Table.find?_key hmem, hlower, hblocked⟩

omit hhash in
/-- The tombstone of a purge carries the version of the row it erases. -/
theorem foldr_purgedRows
    {s : Principals} (hs : SubjectsIn subjects s) {x : String}
    (hx : keys.toLowercase x = keys.toLowercase subject)
    {row : PrincipalRow} (hrow : row ∈ purgedRows s x) :
  ((purgedRows s x).map PrincipalRow.credentialVersion).foldr max 0 = row.credentialVersion
  := by
  have hall : ∀ r ∈ purgedRows s x, r = row := by
    intro r hr
    have h := (mem_purgedRows hkeys hone hs hx hr).1
    rw [(mem_purgedRows hkeys hone hs hx hrow).1] at h
    apply (Option.some.inj h).symm
  have hnodup : (purgedRows s x).Nodup := (List.Nodup.of_map _ s.rows.nodup).filter _
  have hsingle : purgedRows s x = [row] := by
    rw [List.eq_replicate_of_mem hall, List.nodup_replicate] at hnodup
    rw [List.eq_replicate_of_mem hall]
    have hpos := List.length_pos_of_mem hrow
    rw [show (purgedRows s x).length = 1 by omega]
    rfl
  simp [hsingle]

/-- A purge moves the version of the subject on when it erases the subject's row. -/
theorem reachedVersion_purge
    {s : Principals} (hs : SubjectsIn subjects s) (x : String) :
  reachedVersion keys (purgePrincipal keys s x).2 subject
    = reachedVersion keys s subject
      + if ∃ row ∈ s.rows.find? subject, row ∈ purgedRows s x then 1 else 0
  := by
  have hrows : (purgePrincipal keys s x).2.rows = s.rows.filter
      (fun r => ¬ (sqlLower r.subject = sqlLower x ∧ r.blocked = true)) := rfl
  rw [reachedVersion, reachedVersion, hrows, Table.find?_filter]
  cases hfind : s.rows.find? subject with
  | some row =>
      have hmem : row ∈ purgedRows s x ↔ sqlLower row.subject = sqlLower x ∧ row.blocked = true := by
        rw [purgedRows, List.mem_filter, decide_eq_true_iff,
          and_iff_right (Table.find?_eq_some.mp hfind).1]
      by_cases hp : row ∈ purgedRows s x
      · have he := (Table.find?_eq_some.mp hfind).2
        have hx : keys.toLowercase x = keys.toLowercase subject := by
          rw [← he]
          apply (toLowercase_eq_of_lower_eq hkeys (hmem.mp hp).1).symm
        have hversion := foldr_purgedRows hkeys hone hs hx hp
        rw [Option.filter_some, if_neg (by simpa using hmem.mp hp), if_pos (by simpa using hp)]
        dsimp only
        rw [startVersion, purgePrincipal]
        dsimp only
        rw [if_neg (List.ne_nil_of_mem hp), Table.find?_upsert,
          if_pos (purgedPrincipalKey_congr hx.symm)]
        dsimp only
        rw [hversion]
      · have hkept : decide (¬ (sqlLower row.subject = sqlLower x ∧ row.blocked = true)) = true := by
          rw [decide_eq_true_iff]
          apply mt hmem.mpr hp
        rw [Option.filter_some, if_pos hkept, if_neg (by simpa using hp)]
        rfl
  | none =>
      rw [Option.filter_none, if_neg (by simp)]
      dsimp only
      rw [startVersion, startVersion, purgePrincipal, Nat.add_zero]
      dsimp only
      split_ifs with hnil
      · rfl
      · have hkey : purgedPrincipalKey keys subject ≠ purgedPrincipalKey keys x := by
          intro he
          obtain ⟨r, hr⟩ := List.exists_mem_of_ne_nil _ hnil
          have hlower := (List.mem_filter.mp hr).2
          rw [decide_eq_true_iff] at hlower
          have hr := (List.mem_filter.mp hr).1
          have hrow : r.subject = subject := by
            apply eq_of_purgedPrincipalKey_eq hone hhash (hs r hr)
            rw [he]
            exact purgedPrincipalKey_congr (toLowercase_eq_of_lower_eq hkeys hlower.1)
          exact Table.find?_eq_none.mp hfind r hr hrow
        rw [Table.find?_upsert, if_neg hkey]

omit hkeys hone hhash in
theorem subjectsIn_map
    {s : Principals} (hs : SubjectsIn subjects s) {f : PrincipalRow → PrincipalRow}
    (hf : ∀ r, (f r).subject = r.subject) (issuer : Option String) :
  SubjectsIn subjects { s with rows := s.rows.map f hf, issuer }
  := by
  intro r hr
  have hmem : r ∈ (s.rows.map f hf).rows := hr
  obtain ⟨r', hr', rfl⟩ := Table.mem_map.mp hmem
  rw [hf]
  apply hs r' hr'

variable (keys) in
omit hkeys hone hhash in
/-- The subjects stay among the given ones while the inserted ones are. -/
theorem subjectsIn_apply
    {s : Principals} (hs : SubjectsIn subjects s) (op : PrincipalOp)
    (hop : ∀ x ∈ op.inserted, x ∈ subjects) :
  SubjectsIn subjects (s.apply keys op)
  := by
  cases op with
  | upsert x groups grants at' =>
      intro r hr
      have hmem : r ∈ (s.rows.upsert (upsertSsoPrincipal keys s x groups grants at').1).rows := hr
      rcases Table.mem_upsert.mp hmem with he | ⟨hr, _⟩
      · rw [he, upsertSsoPrincipal_subject]
        apply hop x rfl
      · apply hs r hr
  | provision x externalId at' =>
      rw [Principals.apply, provisionPrincipal]
      split
      · apply hs
      · rename_i rows hrows
        intro r hr
        rw [(Table.insert?_eq_some.mp hrows).2] at hr
        rcases List.mem_cons.mp hr with rfl | hr
        · apply hop x rfl
        · apply hs r hr
  | revoke x => apply subjectsIn_map hs
  | unblock x =>
      rw [Principals.apply, unblockPrincipal]
      split_ifs
      · apply subjectsIn_map hs
      · apply hs
  | purge x =>
      intro r hr
      apply hs r (Table.mem_filter.mp hr).1
  | migrateOidc issuerHash =>
      rw [Principals.apply, migrateOidcSubjects]
      split_ifs
      · apply hs
      · apply subjectsIn_map hs

/-- No operation moves a version back. -/
theorem reachedVersion_le_apply
    {s : Principals} (hs : SubjectsIn subjects s) (op : PrincipalOp)
    (hop : ∀ x ∈ op.inserted, x ∈ subjects) :
  reachedVersion keys s subject ≤ reachedVersion keys (s.apply keys op) subject
  := by
  cases op with
  | upsert x groups grants at' =>
      apply (reachedVersion_upsert hone hhash s (hop x rfl) groups grants at').ge
  | provision x externalId at' =>
      apply (reachedVersion_provision hone hhash s (hop x rfl) externalId at').ge
  | revoke x =>
      apply reachedVersion_map
      intro r
      split_ifs
      · apply Nat.le_succ
      · apply le_refl
  | unblock x =>
      rw [Principals.apply, unblockPrincipal]
      split_ifs
      · apply reachedVersion_map
        intro r
        split_ifs <;> apply le_refl
      · apply le_refl
  | purge x =>
      rw [Principals.apply, reachedVersion_purge hkeys hone hhash hs x]
      apply Nat.le_add_right
  | migrateOidc issuerHash =>
      rw [Principals.apply, migrateOidcSubjects]
      split_ifs
      · apply le_refl
      · apply reachedVersion_map
        intro r
        split_ifs
        · apply le_refl
        · apply Nat.le_succ

/-- A revocation or a purge of a subject moves its version on. -/
theorem reachedVersion_lt_of_revokes
    {s : Principals} (hs : SubjectsIn subjects s) (op : PrincipalOp)
    (hrevokes : Revokes keys s subject op) :
  reachedVersion keys s subject < reachedVersion keys (s.apply keys op) subject
  := by
  cases op with
  | revoke x =>
      obtain ⟨hx, hchanged⟩ := hrevokes
      obtain ⟨r, hr, hlower⟩ := of_decide_eq_true hchanged
      obtain rfl := eq_of_lower_eq hkeys hone (hs r hr) (hlower.trans hx)
      have hrows : (s.apply keys (.revoke x)).rows.find? r.subject
          = some { r with credentialVersion := r.credentialVersion + 1, blocked := true } := by
        rw [Principals.apply, revokePrincipal, updateSubject, Table.find?_map, Table.find?_key hr,
          Option.map_some, if_pos hlower]
      rw [reachedVersion, reachedVersion, hrows, Table.find?_key hr]
      apply Nat.lt_succ_self
  | purge x =>
      obtain ⟨hx, hchanged⟩ := hrevokes
      have hnil : purgedRows s x ≠ [] := by simpa [purgePrincipal] using hchanged
      obtain ⟨r, hr⟩ := List.exists_mem_of_ne_nil _ hnil
      have hfind := (mem_purgedRows hkeys hone hs
        (toLowercase_eq_of_lower_eq hkeys hx) hr).1
      rw [Principals.apply, reachedVersion_purge hkeys hone hhash hs x, if_pos ⟨r, hfind, hr⟩]
      apply Nat.lt_succ_self
  | upsert => cases hrevokes
  | provision => cases hrevokes
  | unblock => cases hrevokes
  | migrateOidc => cases hrevokes

variable (keys) in
omit hkeys hone hhash in
theorem subjectsIn_run
    {s : Principals} (hs : SubjectsIn subjects s) (ops : List PrincipalOp)
    (hops : ∀ op ∈ ops, ∀ x ∈ op.inserted, x ∈ subjects) :
  SubjectsIn subjects (ops.foldl (Principals.apply keys) s)
  := by
  apply List.foldlRecOn
  · apply hs
  · intro s hs op hop
    apply subjectsIn_apply _ hs op (hops op hop)

/-- No run that inserts none but the given subjects moves a version back. -/
theorem reachedVersion_le_run
    {s : Principals} (hs : SubjectsIn subjects s) (ops : List PrincipalOp)
    (hops : ∀ op ∈ ops, ∀ x ∈ op.inserted, x ∈ subjects) :
  reachedVersion keys s subject
    ≤ reachedVersion keys (ops.foldl (Principals.apply keys) s) subject
  := by
  induction ops generalizing s with
  | nil => apply le_refl
  | cons op ops ih =>
      have hop := hops op List.mem_cons_self
      apply le_trans (reachedVersion_le_apply hkeys hone hhash hs _ hop)
      apply ih (subjectsIn_apply _ hs op hop)
      intro op' hop'
      apply hops op' (List.mem_cons_of_mem op hop')

end OneSpelling

/-! ### Revoked sessions -/

/-- In a run that inserts no other spelling of its subject, a session stays refused once
its principal has been revoked or purged. -/
theorem principalAllows_of_revoked
    {keys : SubjectKeys} (hkeys : keys.Lawful) {start : Principals}
    {before middle after : List PrincipalOp} {op : PrincipalOp} {session : PrincipalSession}
    (hone : OneSpelling keys session.subject (start.rows.rows.map PrincipalRow.subject
      ++ (before ++ middle ++ op :: after).filterMap PrincipalOp.inserted))
    (hhash : HashedApart keys session.subject (start.rows.rows.map PrincipalRow.subject
      ++ (before ++ middle ++ op :: after).filterMap PrincipalOp.inserted))
    (hminted : session.Minted (before.foldl (Principals.apply keys) start))
    (hrevokes : Revokes keys ((before ++ middle).foldl (Principals.apply keys) start)
      session.subject op) :
  principalAllows keys ((before ++ middle ++ op :: after).foldl (Principals.apply keys) start)
    session.subject session.credentialVersion = false
  := by
  have hstart : SubjectsIn (start.rows.rows.map PrincipalRow.subject
      ++ (before ++ middle ++ op :: after).filterMap PrincipalOp.inserted) start := by
    intro r hr
    apply List.mem_append_left
    apply List.mem_map_of_mem hr
  generalize hS : start.rows.rows.map PrincipalRow.subject
      ++ (before ++ middle ++ op :: after).filterMap PrincipalOp.inserted = subjects
    at hone hhash hstart
  have hops : ∀ op' ∈ before ++ middle ++ op :: after, ∀ x ∈ op'.inserted, x ∈ subjects := by
    intro op' hop' x hx
    rw [← hS, List.mem_append, List.mem_filterMap]
    right
    use op', hop', hx
  obtain ⟨row, hrow, hversion⟩ := hminted
  have hbefore := subjectsIn_run keys hstart before (by grind)
  have hmiddle := subjectsIn_run keys hbefore middle (by grind)
  have hop := subjectsIn_apply keys hmiddle op (by grind)
  have hafter := subjectsIn_run keys hop after (by grind)
  have hle₁ := reachedVersion_le_run hkeys hone hhash hbefore middle (by grind)
  rw [List.foldl_append] at hrevokes
  have hlt := reachedVersion_lt_of_revokes hkeys hone hhash hmiddle _ hrevokes
  have hle₂ := reachedVersion_le_run hkeys hone hhash hop after (by grind)
  have hminted : reachedVersion keys (before.foldl (Principals.apply keys) start) session.subject
      = session.credentialVersion := by
    rw [reachedVersion, hrow]
    apply hversion
  rw [List.foldl_append, List.foldl_append, List.foldl_cons, Bool.eq_false_iff]
  intro hallows
  have := eq_reachedVersion_of_allows hkeys hone hafter hallows
  omega

/-- Keys that fold and hash the subject `bob` as Rust does. -/
def sampleKeys : SubjectKeys where
  toLowercase := sqlLower
  hashToken s :=
    if s = "bob" then "81b637d8fcd2c6da6359e6963113a1170de795e4b725b84d1e0b4cfd9ec58ce9"
    else "#" ++ s

theorem sampleKeys_lawful :
  sampleKeys.Lawful
  := by
  constructor
  intro s
  have hlower : Char.toLower ∘ Char.toLower = Char.toLower := by
    funext c
    apply Char.toLower_toLower_eq_toLower
  simp [sampleKeys, sqlLower, hlower]

/-- Two rows of an earlier version that are spellings of another subject are no matter. -/
theorem principalAllows_of_revoked_bob :
  let start : Principals := ⟨Table.empty, Table.empty, none⟩
  let session : PrincipalSession := ⟨"bob", 1⟩
  let before := [PrincipalOp.provision "Alice" none 0, .provision "alice" none 0,
    .upsert "bob" "[]" "[]" 1]
  let middle := [PrincipalOp.revoke "alice", .migrateOidc "issuer"]
  let after := [PrincipalOp.purge "BOB", .upsert "bob" "[]" "[]" 2]
  principalAllows sampleKeys
    ((before ++ middle ++ PrincipalOp.revoke "Bob" :: after).foldl
      (Principals.apply sampleKeys) start) session.subject session.credentialVersion = false
  := by
  intro start session before middle after
  apply principalAllows_of_revoked sampleKeys_lawful
  · unfold OneSpelling
    decide +kernel
  · unfold HashedApart
    decide +kernel
  · refine ⟨⟨"bob", 1, false, 1, "[]", "[]", "sso", none, 1⟩, ?_, rfl⟩
    decide +kernel
  · constructor
    · decide +kernel
    · decide +kernel

/-- A row stored in mixed case is revoked under its folded name.  A log-in then inserts
the folded name beside it, and the purge erases the revoked row alone, so that the other
one lets the revoked session through. -/
theorem principalAllows_of_two_spellings :
  let start : Principals := ⟨Table.empty, Table.empty, none⟩
  let before := [PrincipalOp.provision "Bob" none 1]
  let op := PrincipalOp.revoke "bob"
  let after := [PrincipalOp.upsert "bob" "[]" "[]" 2, PrincipalOp.purge "bob"]
  let session : PrincipalSession := ⟨"Bob", 1⟩
  session.Minted (before.foldl (Principals.apply sampleKeys) start)
    ∧ Revokes sampleKeys (before.foldl (Principals.apply sampleKeys) start) session.subject op
    ∧ principalAllows sampleKeys
        ((before ++ op :: after).foldl (Principals.apply sampleKeys) start)
        session.subject session.credentialVersion = true
  := by
  refine ⟨?_, ?_, ?_⟩
  · refine ⟨⟨"Bob", 1, false, 0, "[]", "[]", "scim", none, 1⟩, ?_, rfl⟩
    decide +kernel
  · constructor
    · decide +kernel
    · decide +kernel
  · decide +kernel

end Votport
