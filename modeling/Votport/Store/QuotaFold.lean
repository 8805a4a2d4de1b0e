import Votport.Store.Quota

/-!
# The quota fold

`quota_fold` adds up a tenant's files from the table itself, walking the live rows in
the order of the identity index and counting the first row of each identity, which is
the largest.  `backfill_quota_usage` does this for all tenants in one walk, and
`tenant_received_bytes` for one tenant whose aggregate row is dirty.
-/

namespace Votport

/-! ### The order of the walk -/

/-- The columns `quota_live_file_sql` orders by. -/
def quotaOrder (r : FileRow) :
    String ×ₗ (ℤ ×ₗ String ×ₗ String ×ₗ String ×ₗ ℤ) ×ₗ ℤᵒᵈ ×ₗ ℤᵒᵈ :=
  toLex (r.tenant, toLex (quotaIdentity r,
    toLex (OrderDual.toDual r.bytes.hi, OrderDual.toDual r.bytes.lo)))

/-- The order of the walk. -/
def walkLe (r s : FileRow) : Prop := quotaOrder r ≤ quotaOrder s

instance : DecidableRel walkLe :=
  fun _ _ => inferInstanceAs (Decidable (_ ≤ _))

instance : Std.Total walkLe := ⟨fun _ _ => le_total _ _⟩

instance : IsTrans FileRow walkLe := ⟨fun _ _ _ => le_trans⟩

/-- What counts once in a walk over all tenants. -/
def FileRow.walkClass (r : FileRow) : String × FileIdentity := (r.tenant, r.identity)

theorem walkLe_iff (r s : FileRow) :
  walkLe r s ↔ r.tenant < s.tenant ∨ r.tenant = s.tenant
    ∧ (quotaIdentity r < quotaIdentity s ∨ quotaIdentity r = quotaIdentity s ∧ s.size ≤ r.size)
  := by
  rw [walkLe, quotaOrder, quotaOrder, Prod.Lex.toLex_le_toLex, Prod.Lex.toLex_le_toLex,
    ← bytesDesc_iff, bytesDesc, Prod.Lex.toLex_le_toLex]
  simp only [OrderDual.toDual_lt_toDual, OrderDual.toDual_inj, OrderDual.toDual_le_toDual]
  grind

theorem tenant_le_of_walkLe {r s : FileRow} (h : walkLe r s) :
  r.tenant ≤ s.tenant
  := by
  rcases (walkLe_iff r s).mp h with h | h
  · apply h.le
  · apply h.1.le

/-- The walk meets the rows of an identity together, the largest first. -/
theorem walkGrouping :
  ClassMax.Grouping FileRow.walkClass FileRow.size walkLe
  := by
  constructor
  · intro a b c hab hbc hac
    rw [FileRow.walkClass, FileRow.walkClass, Prod.mk.injEq] at hac
    have htenant : a.tenant = b.tenant :=
      le_antisymm (tenant_le_of_walkLe hab) (hac.1 ▸ tenant_le_of_walkLe hbc)
    have hidentity : quotaIdentity a = quotaIdentity c := (quotaIdentity_eq_iff a c).mpr hac.2
    rw [walkLe_iff] at hab hbc
    have hle : quotaIdentity a ≤ quotaIdentity b := by
      rcases hab with h | ⟨_, h | ⟨h, _⟩⟩
      · exact absurd htenant h.ne
      · apply h.le
      · apply h.le
    have hge : quotaIdentity b ≤ quotaIdentity a := by
      rw [hidentity]
      rcases hbc with h | ⟨_, h | ⟨h, _⟩⟩
      · exact absurd (htenant.symm.trans hac.1) h.ne
      · apply h.le
      · apply h.le
    rw [FileRow.walkClass, FileRow.walkClass, htenant,
      (quotaIdentity_eq_iff a b).mp (le_antisymm hle hge)]
  · intro a b hab hc
    rw [FileRow.walkClass, FileRow.walkClass, Prod.mk.injEq, ← quotaIdentity_eq_iff] at hc
    rw [walkLe_iff] at hab
    rcases hab with h | ⟨_, h | h⟩
    · exact absurd hc.1 h.ne
    · exact absurd hc.2 h.ne
    · apply h.2

/-! ### The walk -/

/-- The `QuotaIdentity` of a row. -/
structure QuotaIdentity where
  tenant : String
  storedAs : String
  discriminator : ℤ
  linkId : String
  uploadId : String
  fileIndex : ℤ
deriving DecidableEq

/-- The comparison of two `QuotaIdentity`s. -/
def QuotaIdentity.eq (self other : QuotaIdentity) : Prop :=
  self.tenant = other.tenant ∧ self.discriminator = other.discriminator
    ∧ if self.discriminator = 0 then self.storedAs = other.storedAs
      else self.linkId = other.linkId ∧ self.uploadId = other.uploadId
        ∧ self.fileIndex = other.fileIndex

instance (self other : QuotaIdentity) : Decidable (self.eq other) :=
  inferInstanceAs (Decidable (_ ∧ _ ∧ _))

/-- The identity the walk reads from a row. -/
def walkIdentity (r : FileRow) : QuotaIdentity where
  tenant := r.tenant
  storedAs := r.storedAs
  discriminator := if r.storedAs = "" then 1 else 0
  linkId := r.key.linkId
  uploadId := r.key.uploadId
  fileIndex := r.key.fileIndex

@[simp]
theorem walkIdentity_tenant (r : FileRow) : (walkIdentity r).tenant = r.tenant := rfl

theorem walkIdentity_eq_iff (r s : FileRow) :
  (walkIdentity r).eq (walkIdentity s) ↔ r.walkClass = s.walkClass
  := by
  obtain ⟨⟨_, _, _⟩, _, _, _, _, _, _, _, _⟩ := r
  obtain ⟨⟨_, _, _⟩, _, _, _, _, _, _, _, _⟩ := s
  simp only [QuotaIdentity.eq, walkIdentity, FileRow.walkClass, FileRow.identity]
  split_ifs <;> simp_all

/-- The loop of `walk_quota_files`: the visitor sees the rows at which the identity
changes. -/
def walkRows {σ : Type} (visit : σ → QuotaIdentity → ℕ → Except String σ) :
    Option QuotaIdentity → σ → List FileRow → Except String σ
  | _, s, [] => pure s
  | previous, s, r :: rows =>
      if ∃ p ∈ previous, p.eq (walkIdentity r) then walkRows visit previous s rows
      else visit s (walkIdentity r) r.size >>= (walkRows visit (some (walkIdentity r)) · rows)

/-- The rows `walk_quota_files` reads: the live ones, of one tenant or of all. -/
def quotaLiveFiles (files : Files) (tenant : Option String) : List FileRow :=
  match tenant with
  | some tenant => (liveFiles files.rows tenant).insertionSort walkLe
  | none => (files.rows.filter (·.deleted = false)).insertionSort walkLe

/-- `walk_quota_files`. -/
def walkQuotaFiles {σ : Type}
    (files : Files) (tenant : Option String)
    (visit : σ → QuotaIdentity → ℕ → Except String σ) (s : σ) : Except String σ :=
  walkRows visit none s (quotaLiveFiles files tenant)

/-- The walk visits the heads. -/
theorem walkRows_eq
    {σ : Type} (visit : σ → QuotaIdentity → ℕ → Except String σ) (previous : Option FileRow) (s : σ) (rows : List FileRow) :
  walkRows visit (previous.map walkIdentity) s rows
    = (ClassMax.heads FileRow.walkClass (previous.map FileRow.walkClass) rows).foldlM
        (fun s r => visit s (walkIdentity r) r.size) s
  := by
  induction rows generalizing previous s with
  | nil => rfl
  | cons r rows ih =>
      have hsame : (∃ p ∈ previous.map walkIdentity, p.eq (walkIdentity r))
          ↔ previous.map FileRow.walkClass = some r.walkClass := by
        cases previous with
        | none => simp
        | some p => simp [walkIdentity_eq_iff]
      rw [walkRows, ClassMax.heads]
      split_ifs with h h' h'
      · apply ih previous s
      · exact absurd (hsame.mp h) h'
      · exact absurd (hsame.mpr h') h
      · rw [List.foldlM_cons]
        apply congrArg
        funext t
        apply ih (some r) t

/-! ### Saturating totals -/

/-- The running total of a fold: `total` and `saturated`. -/
structure ByteTotal where
  total : ℕ
  saturated : Bool
  /-- The total is a `u64`. -/
  total_le : total ≤ u64Max

namespace ByteTotal

/-- The total before anything is added. -/
def zero : ByteTotal := ⟨0, false, Nat.zero_le _⟩

/-- `checked_add`, the total staying at `u64::MAX` when it fails. -/
def add (t : ByteTotal) (bytes : ℕ) : ByteTotal :=
  if h : t.total + bytes ≤ u64Max then ⟨t.total + bytes, t.saturated, h⟩
  else ⟨u64Max, true, le_refl _⟩

/-- The state a total is recorded with. -/
def state (t : ByteTotal) : QuotaState :=
  if t.saturated ∨ t.total = u64Max then .saturated else .exact

/-- The total of summands that add up to `n`. -/
def Of (t : ByteTotal) (n : ℕ) : Prop :=
  t.total = min n u64Max ∧ (t.saturated = true → u64Max ≤ n)

theorem of_zero :
  zero.Of 0
  := ⟨rfl, by simp [zero]⟩

theorem of_add {t : ByteTotal} {n : ℕ} (h : t.Of n) (bytes : ℕ) :
  (t.add bytes).Of (n + bytes)
  := by
  obtain ⟨htotal, hsaturated⟩ := h
  rw [add]
  split_ifs with hle
  · constructor
    · simp only
      omega
    · intro hs
      apply le_trans (hsaturated hs) (Nat.le_add_right _ _)
  · constructor
    · simp only
      omega
    · intro _
      omega

theorem of_foldl
    {t : ByteTotal} {n : ℕ} (h : t.Of n) (l : List FileRow) :
  (l.foldl (fun t r => t.add r.size) t).Of (n + (l.map FileRow.size).sum)
  := by
  induction l generalizing t n with
  | nil => apply h
  | cons r l ih =>
      rw [List.foldl_cons, List.map_cons, List.sum_cons, ← Nat.add_assoc]
      apply ih (of_add h r.size)

theorem state_eq {t : ByteTotal} {n : ℕ} (h : t.Of n) :
  t.state = if u64Max ≤ n then .saturated else .exact
  := by
  obtain ⟨htotal, hsaturated⟩ := h
  rw [state]
  split_ifs with h₁ h₂ h₂
  · rfl
  · rcases h₁ with h₁ | h₁
    · exact absurd (hsaturated h₁) h₂
    · omega
  · omega
  · rfl

/-- The row that records a total. -/
def row (t : ByteTotal) (tenant : String) : UsageRow :=
  ⟨tenant, splitBytes t.total t.total_le, t.state⟩

@[simp]
theorem row_tenant (t : ByteTotal) (tenant : String) : (t.row tenant).tenant = tenant := rfl

/-- A row that records the total of a tenant's live files accounts for them. -/
theorem accounts_row
    {t : ByteTotal} {live : List FileRow} (h : t.Of (distinctBytes live)) (tenant : String) :
  Accounts live (some (t.row tenant))
  := by
  have hstate := state_eq h
  obtain ⟨htotal, _⟩ := h
  simp only [Accounts, row]
  rw [hstate]
  split_ifs with hle
  · apply hle
  · dsimp only
    rw [value_splitBytes, htotal]
    omega

end ByteTotal

/-! ### The fold of one tenant -/

/-- `quota_fold`: the number of identities and their total, which carries its state. -/
def quotaFold (files : Files) (tenant : String) : Except String (ℕ × ByteTotal) :=
  walkQuotaFiles files (some tenant)
    (fun acc _ bytes => pure (min (acc.1 + 1) u64Max, acc.2.add bytes)) (0, ByteTotal.zero)

/-- The heads of a walk that are a tenant's weigh as much as the tenant's files. -/
theorem sum_heads_tenant {rows : List FileRow} (h : rows.Pairwise walkLe) (tenant : String) :
  (((ClassMax.heads FileRow.walkClass none rows).filter (·.tenant = tenant)).map
      FileRow.size).sum
    = ClassMax.classMaxSum FileRow.identity FileRow.size (rows.filter (·.tenant = tenant))
  := by
  have hgroup : ClassMax.Grouping FileRow.walkClass
      (fun r => if r.tenant = tenant then r.size else 0) walkLe := by
    constructor
    · intro a b c
      apply walkGrouping.between
    · intro a b hab hc
      have htenant : a.tenant = b.tenant := congrArg Prod.fst hc
      rw [htenant]
      split_ifs
      · apply walkGrouping.descending hab hc
      · apply le_refl
  have hsum := ClassMax.sum_heads hgroup h
  rw [ClassMax.classMaxSum_filter] at hsum
  · rw [ClassMax.classMaxSum_congr FileRow.walkClass FileRow.size FileRow.identity] at hsum
    · rw [← hsum, List.sum_map_ite, List.sum_map_zero]
      simp
    · intro r hr s hs
      rw [List.mem_filter, decide_eq_true_iff] at hr hs
      rw [FileRow.walkClass, FileRow.walkClass, Prod.mk.injEq, hr.2, hs.2]
      simp
  · intro r s hc hr
    have htenant : r.tenant = s.tenant := congrArg Prod.fst hc
    rw [← htenant]
    apply hr

/-- The sorted rows of a tenant weigh, head by head, as much as its live files. -/
theorem sum_heads_liveFiles (files : Files) (tenant : String) :
  ((ClassMax.heads FileRow.walkClass none (quotaLiveFiles files (some tenant))).map
      FileRow.size).sum
    = distinctBytes (liveFiles files.rows tenant)
  := by
  have hperm := List.perm_insertionSort walkLe (liveFiles files.rows tenant)
  rw [quotaLiveFiles, ClassMax.sum_heads walkGrouping (List.pairwise_insertionSort _ _),
    ClassMax.classMaxSum_perm _ _ hperm, distinctBytes]
  apply ClassMax.classMaxSum_congr
  intro r hr s hs
  rw [FileRow.walkClass, FileRow.walkClass, (mem_liveFiles.mp hr).2.1, (mem_liveFiles.mp hs).2.1,
    Prod.mk.injEq]
  simp

/-- The fold succeeds with the total of the tenant's files. -/
theorem quotaFold_spec (files : Files) (tenant : String) :
  ∃ count total, quotaFold files tenant = .ok (count, total)
    ∧ total.Of (distinctBytes (liveFiles files.rows tenant))
  := by
  have hwalk := walkRows_eq
    (fun (acc : ℕ × ByteTotal) _ bytes => pure (min (acc.1 + 1) u64Max, acc.2.add bytes))
    none (0, ByteTotal.zero) (quotaLiveFiles files (some tenant))
  have hpure := List.foldlM_pure (m := Except String)
    (f := fun (acc : ℕ × ByteTotal) (r : FileRow) => (min (acc.1 + 1) u64Max, acc.2.add r.size))
    (b := (0, ByteTotal.zero))
    (l := ClassMax.heads FileRow.walkClass none (quotaLiveFiles files (some tenant)))
  have hsnd : (ClassMax.heads FileRow.walkClass none (quotaLiveFiles files (some tenant))).foldl
      (fun t r => t.add r.size) ((0 : ℕ), ByteTotal.zero).2
      = ((ClassMax.heads FileRow.walkClass none (quotaLiveFiles files (some tenant))).foldl
        (fun (acc : ℕ × ByteTotal) (r : FileRow) => (min (acc.1 + 1) u64Max, acc.2.add r.size))
        (0, ByteTotal.zero)).2 :=
    List.foldl_hom Prod.snd (fun _ _ => rfl)
  have hof := ByteTotal.of_foldl ByteTotal.of_zero
    (ClassMax.heads FileRow.walkClass none (quotaLiveFiles files (some tenant)))
  rw [sum_heads_liveFiles, Nat.zero_add] at hof
  refine ⟨_, _, hwalk.trans hpure, ?_⟩
  rw [← hsnd]
  apply hof

/-- `rebuild_tenant_quota`. -/
def rebuildTenantQuota
    (files : Files) (tenant : String) (usage : Usage) : Except String (ℕ × Usage) := do
  let (count, total) ← quotaFold files tenant
  let bytes :=
    if total.state = .saturated then splitBytes u64Max (le_refl _)
    else splitBytes total.total total.total_le
  pure (count, usage.upsert ⟨tenant, bytes, total.state⟩)

/-- The rebuild puts the total of the tenant's files in. -/
theorem rebuildTenantQuota_spec (files : Files) (tenant : String) (usage : Usage) :
  ∃ (count : ℕ) (total : ByteTotal),
    rebuildTenantQuota files tenant usage = .ok (count, usage.upsert (total.row tenant))
    ∧ total.Of (distinctBytes (liveFiles files.rows tenant))
  := by
  obtain ⟨count, total, hfold, hof⟩ := quotaFold_spec files tenant
  have hbytes : (if total.state = .saturated then splitBytes u64Max (le_refl _)
      else splitBytes total.total total.total_le) = splitBytes total.total total.total_le := by
    have hstate := ByteTotal.state_eq hof
    have htotal := hof.1
    split_ifs with hs
    · apply Limbs.value_inj
      rw [value_splitBytes, value_splitBytes]
      grind
    · rfl
  use count, total
  constructor
  · rw [rebuildTenantQuota, hfold, ByteTotal.row, ← hbytes]
    rfl
  · apply hof

/-! ### The backfill -/

/-- What `backfill_quota_usage` keeps across its walk. -/
structure BackfillState where
  previousTenant : Option String
  total : ByteTotal
  usage : Usage
  moved : List (String × ℕ)

/-- `flush`, with the tenant it wrote put to the list of those that moved. -/
def BackfillState.flush (s : BackfillState) : Except String BackfillState :=
  match s.previousTenant with
  | none => pure s
  | some tenant =>
      match s.usage.insert? (s.total.row tenant) with
      | none => throw "UNIQUE constraint failed: tenant_quota_usage.tenant"
      | some usage => pure { s with usage, moved := s.moved ++ [(tenant, s.total.total)] }

/-- The visitor of `backfill_quota_usage`. -/
def backfillVisit
    (s : BackfillState) (identity : QuotaIdentity) (bytes : ℕ) : Except String BackfillState := do
  let s ←
    if s.previousTenant ≠ some identity.tenant then do
      let s ← s.flush
      pure { s with previousTenant := some identity.tenant, total := ByteTotal.zero }
    else pure s
  pure { s with total := s.total.add bytes }

/-- `INSERT OR IGNORE` of a row for a tenant without files. -/
def insertOrIgnoreUsage (usage : Usage) (tenant : String) : Usage :=
  (usage.insert? ⟨tenant, Limbs.zero, .exact⟩).getD usage

/-- `backfill_quota_usage`, which deletes what the aggregate held. -/
def backfillQuotaUsage
    (files : Files) (tenants : List String) : Except String (Usage × List (String × ℕ)) := do
  let s ← walkQuotaFiles files none backfillVisit ⟨none, ByteTotal.zero, Table.empty, []⟩
  let s ← s.flush
  pure ((tenants ++ [""]).foldl insertOrIgnoreUsage s.usage, s.moved)

/-- The bytes of the visited rows of a tenant. -/
def visitedBytes (seen : List FileRow) (tenant : String) : ℕ :=
  ((seen.filter (·.tenant = tenant)).map FileRow.size).sum

/-- What the aggregate says of a tenant whose visits are over. -/
def Flushed (seen : List FileRow) (usage : Usage) (tenant : String) : Prop :=
  match usage.find? tenant with
  | none => ∀ r ∈ seen, r.tenant ≠ tenant
  | some row => ∃ total : ByteTotal, row = total.row tenant ∧ total.Of (visitedBytes seen tenant)

/-- What holds between two visits, `seen` being the rows visited so far. -/
structure Backfilled (seen : List FileRow) (s : BackfillState) : Prop where
  /-- The current tenant has no row yet, and its total is running. -/
  current : ∀ t, s.previousTenant = some t →
    s.usage.find? t = none ∧ s.total.Of (visitedBytes seen t)
  /-- The other tenants are done with. -/
  flushed : ∀ t, s.previousTenant ≠ some t → Flushed seen s.usage t
  /-- Only visited tenants have rows. -/
  visited : ∀ t, s.usage.find? t ≠ none → ∃ r ∈ seen, r.tenant = t
  /-- The current tenant is the one visited last. -/
  last : ∀ t, s.previousTenant = some t → (∃ r ∈ seen, r.tenant = t) ∧ ∀ r ∈ seen, r.tenant ≤ t
  /-- Without a current tenant nothing has been visited. -/
  fresh : s.previousTenant = none → seen = []

theorem visitedBytes_append (seen : List FileRow) (r : FileRow) (tenant : String) :
  visitedBytes (seen ++ [r]) tenant
    = visitedBytes seen tenant + if r.tenant = tenant then r.size else 0
  := by
  rw [visitedBytes, List.filter_append, List.map_append, List.sum_append, visitedBytes]
  split_ifs with h
  · simp [h]
  · simp [h]

theorem visitedBytes_of_not_visited
    {seen : List FileRow} {tenant : String} (h : ∀ r ∈ seen, r.tenant ≠ tenant) :
  visitedBytes seen tenant = 0
  := by
  rw [visitedBytes, List.filter_eq_nil_iff.mpr]
  · rfl
  · simpa using h

/-- Flushing is not refused and leaves every tenant done with. -/
theorem flush_spec {seen : List FileRow} {s : BackfillState} (h : Backfilled seen s) :
  ∃ s', s.flush = .ok s' ∧ (∀ t, Flushed seen s'.usage t)
    ∧ ∀ t, s'.usage.find? t ≠ none → ∃ r ∈ seen, r.tenant = t
  := by
  rw [BackfillState.flush]
  cases hp : s.previousTenant with
  | none =>
      use s, rfl
      constructor
      · intro t
        apply h.flushed t
        simp [hp]
      · apply h.visited
  | some p =>
      obtain ⟨habsent, hof⟩ := h.current p hp
      dsimp only
      rw [Table.insert?_of_absent habsent]
      refine ⟨_, rfl, ?_, ?_⟩
      · intro t
        by_cases ht : t = p
        · rw [Flushed, Table.find?_upsert, ByteTotal.row_tenant, if_pos ht, ht]
          use s.total
        · rw [Flushed, Table.find?_upsert, ByteTotal.row_tenant, if_neg ht]
          apply h.flushed t
          rw [hp]
          simpa using Ne.symm ht
      · intro t
        rw [Table.find?_upsert]
        split_ifs with ht
        · intro _
          rw [ht]
          apply (h.last p hp).1
        · apply h.visited t

/-- A visit of a row of a later tenant, or of the current one, keeps the backfill. -/
theorem backfillVisit_spec
    {seen : List FileRow} {s : BackfillState} (h : Backfilled seen s) {r : FileRow}
    (hr : ∀ x ∈ seen, x.tenant ≤ r.tenant) :
  ∃ s', backfillVisit s (walkIdentity r) r.size = .ok s' ∧ Backfilled (seen ++ [r]) s'
  := by
  rw [backfillVisit]
  have hother : ∀ (usage : Usage) (t : String), t ≠ r.tenant → Flushed seen usage t →
      Flushed (seen ++ [r]) usage t := by
    intro usage t ht hflushed
    rw [Flushed] at hflushed ⊢
    rw [visitedBytes_append, if_neg (Ne.symm ht), Nat.add_zero]
    split at hflushed
    · grind
    · apply hflushed
  split_ifs with hp
  · obtain ⟨s', hflush, hflushed, hvisited⟩ := flush_spec h
    have hnew : ∀ x ∈ seen, x.tenant ≠ r.tenant := by
      intro x hx he
      cases hprevious : s.previousTenant with
      | none =>
          rw [h.fresh hprevious] at hx
          cases hx
      | some p =>
          obtain ⟨⟨y, hy, rfl⟩, hle⟩ := h.last p hprevious
          apply hp
          rw [hprevious, walkIdentity_tenant, Option.some.injEq]
          apply le_antisymm (hr y hy)
          rw [← he]
          apply hle x hx
    rw [hflush]
    refine ⟨_, rfl, ?_, ?_, ?_, ?_, ?_⟩
    · intro t ht
      obtain rfl : r.tenant = t := Option.some.inj ht
      constructor
      · by_contra hsome
        obtain ⟨x, hx, he⟩ := hvisited r.tenant hsome
        apply hnew x hx he
      · rw [visitedBytes_append, visitedBytes_of_not_visited hnew, if_pos rfl]
        apply ByteTotal.of_add ByteTotal.of_zero
    · intro t ht
      apply hother _ t (fun he => ht (he ▸ rfl)) (hflushed t)
    · intro t ht
      obtain ⟨x, hx, he⟩ := hvisited t ht
      use x, List.mem_append_left _ hx, he
    · intro t ht
      obtain rfl : r.tenant = t := Option.some.inj ht
      constructor
      · use r, List.mem_append_right _ List.mem_cons_self
      · intro x hx
        rcases List.mem_append.mp hx with hx | hx
        · apply hr x hx
        · rw [List.mem_singleton.mp hx]
    · intro hn
      cases hn
  · have hcurrent : s.previousTenant = some r.tenant := not_not.mp hp
    refine ⟨_, rfl, ?_, ?_, ?_, ?_, ?_⟩
    · intro t ht
      obtain rfl : r.tenant = t := Option.some.inj (hcurrent.symm.trans ht)
      obtain ⟨habsent, hof⟩ := h.current _ ht
      use habsent
      rw [visitedBytes_append, if_pos rfl]
      apply ByteTotal.of_add hof
    · intro t ht
      apply hother _ t _ (h.flushed t ht)
      rintro rfl
      apply ht hcurrent
    · intro t ht
      obtain ⟨x, hx, he⟩ := h.visited t ht
      use x, List.mem_append_left _ hx, he
    · intro t ht
      obtain rfl : r.tenant = t := Option.some.inj (hcurrent.symm.trans ht)
      constructor
      · use r, List.mem_append_right _ List.mem_cons_self
      · intro x hx
        rcases List.mem_append.mp hx with hx | hx
        · apply hr x hx
        · rw [List.mem_singleton.mp hx]
    · intro hn
      rw [hcurrent] at hn
      cases hn

/-- The walk of the backfill is not refused. -/
theorem foldlM_backfillVisit_spec
    {seen rest : List FileRow} {s : BackfillState} (h : Backfilled seen s)
    (hsorted : (seen ++ rest).Pairwise (fun (r s : FileRow) => r.tenant ≤ s.tenant)) :
  ∃ s', rest.foldlM (fun s r => backfillVisit s (walkIdentity r) r.size) s = .ok s'
    ∧ Backfilled (seen ++ rest) s'
  := by
  induction rest generalizing seen s with
  | nil =>
      use s, rfl
      rw [List.append_nil]
      apply h
  | cons r rest ih =>
      rw [List.append_cons] at hsorted
      have hr : ∀ x ∈ seen, x.tenant ≤ r.tenant := by
        intro x hx
        have hseen := (List.pairwise_append.mp (List.pairwise_append.mp hsorted).1).2.2
        apply hseen x hx r List.mem_cons_self
      obtain ⟨s₁, hs₁, h₁⟩ := backfillVisit_spec h hr
      obtain ⟨s₂, hs₂, h₂⟩ := ih h₁ hsorted
      use s₂
      constructor
      · rw [List.foldlM_cons, hs₁]
        apply hs₂
      · rw [List.append_cons]
        apply h₂

theorem insertOrIgnoreUsage_accounts
    {rows : List FileRow} {usage : Usage} (h : UsageAccounts rows usage) (tenant : String) :
  UsageAccounts rows (insertOrIgnoreUsage usage tenant)
  := by
  rw [insertOrIgnoreUsage]
  cases hins : usage.insert? ⟨tenant, Limbs.zero, .exact⟩ with
  | none => apply h
  | some usage' =>
      have habsent := (Table.insert?_eq_some.mp hins).1
      intro t
      rw [Option.getD_some, Table.find?_insert? hins]
      have ht := h t
      split_ifs with he
      · subst he
        rw [habsent, Accounts] at ht
        rw [ht]
        rfl
      · apply ht

/-- A backfill succeeds, and its rows account for the files. -/
theorem backfillQuotaUsage_spec (files : Files) (tenants : List String) :
  ∃ usage moved, backfillQuotaUsage files tenants = .ok (usage, moved)
    ∧ UsageAccounts files.rows usage
  := by
  have hsorted : (quotaLiveFiles files none).Pairwise walkLe := List.pairwise_insertionSort _ _
  have hperm : (quotaLiveFiles files none).Perm (files.rows.filter (·.deleted = false)) :=
    List.perm_insertionSort _ _
  have hheads : ([] ++ ClassMax.heads FileRow.walkClass none (quotaLiveFiles files none)).Pairwise
      (fun (r s : FileRow) => r.tenant ≤ s.tenant) := by
    apply List.Pairwise.imp tenant_le_of_walkLe
    apply hsorted.sublist (ClassMax.heads_sublist _ _)
  have hstart : Backfilled [] ⟨none, ByteTotal.zero, Table.empty, []⟩ := by
    constructor <;> simp [Flushed]
  obtain ⟨s₁, hs₁, h₁⟩ := foldlM_backfillVisit_spec hstart hheads
  obtain ⟨s₂, hs₂, h₂, _⟩ := flush_spec h₁
  have haccounts : UsageAccounts files.rows s₂.usage := by
    intro t
    have hlive : ((quotaLiveFiles files none).filter (·.tenant = t)).Perm
        (liveFiles files.rows t) := by
      apply (hperm.filter _).trans
      rw [List.filter_filter, liveFiles]
      apply List.Perm.of_eq
      apply List.filter_congr
      grind
    have ht := h₂ t
    rw [List.nil_append, Flushed, visitedBytes, sum_heads_tenant hsorted t,
      ClassMax.classMaxSum_perm _ _ hlive] at ht
    cases hrow : s₂.usage.find? t with
    | none =>
        rw [hrow] at ht
        rw [Accounts, List.eq_nil_iff_forall_not_mem]
        intro r hr
        have hmem := (hlive.symm.subset hr)
        rw [List.mem_filter, decide_eq_true_iff] at hmem
        rcases ClassMax.exists_mem_heads FileRow.walkClass none _ hmem.1 with hc | ⟨x, hx, hc⟩
        · cases hc
        · apply ht x hx
          rw [← hmem.2]
          apply congrArg Prod.fst hc
    | some row =>
        rw [hrow] at ht
        obtain ⟨total, rfl, hof⟩ := ht
        apply ByteTotal.accounts_row hof
  use (tenants ++ [""]).foldl insertOrIgnoreUsage s₂.usage, s₂.moved
  constructor
  · have hwalk := walkRows_eq backfillVisit none ⟨none, ByteTotal.zero, Table.empty, []⟩
      (quotaLiveFiles files none)
    rw [backfillQuotaUsage, walkQuotaFiles]
    rw [Option.map_none, Option.map_none, hs₁] at hwalk
    rw [hwalk]
    simp only [bind, Except.bind, hs₂]
    rfl
  · apply List.foldlRecOn
    · apply haccounts
    · intro usage h tenant _
      apply insertOrIgnoreUsage_accounts h

end Votport
