import Votport.Store.Files
import Mathlib.Data.List.Sort
import Mathlib.Data.Prod.Lex

/-!
# The quota triggers

`tenant_quota_usage` keeps for each tenant the bytes of its stored files, so that an
admission need not add them up.  Three triggers on `files` maintain it row by row.  They
run after the row has changed, and find what the row's identity weighs without it by a
probe into the table.

A row of the aggregate accounts for a list of live files when, in the exact state, it
holds their distinct bytes, and, in the saturated state, these do not fit below
`u64::MAX`.  Each trigger keeps every tenant's row accounting for the tenant's files, and
no write of a trigger is refused by the table's checks.
-/

namespace Votport

/-! ### The aggregate -/

/-- The column `state` of `tenant_quota_usage`. -/
inductive QuotaState where
  | exact
  | saturated
  | dirty
deriving DecidableEq

/-- A row of `tenant_quota_usage`.  The table's checks hold of it. -/
structure UsageRow where
  tenant : String
  bytes : Limbs
  state : QuotaState
deriving DecidableEq

/-- The table `tenant_quota_usage`. -/
abbrev Usage := Table UsageRow.tenant

/-- A comparison as the integer it is in SQL. -/
def sqlBool (p : Prop) [Decidable p] : ℤ := if p then 1 else 0

/-- The columns `quota_identity` compares. -/
def quotaIdentity (r : FileRow) : ℤ ×ₗ String ×ₗ String ×ₗ String ×ₗ ℤ :=
  toLex (if r.storedAs = "" then 1 else 0,
    toLex (if r.storedAs = "" then "" else r.storedAs,
      toLex (if r.storedAs = "" then r.key.linkId else "",
        toLex (if r.storedAs = "" then r.key.uploadId else "",
          if r.storedAs = "" then r.key.fileIndex else 0))))

/-- The compared columns agree exactly when the identities do. -/
theorem quotaIdentity_eq_iff (r s : FileRow) :
  quotaIdentity r = quotaIdentity s ↔ r.identity = s.identity
  := by
  obtain ⟨⟨_, _, _⟩, _, _, _, _, _, _, _, _⟩ := r
  obtain ⟨⟨_, _, _⟩, _, _, _, _, _, _, _, _⟩ := s
  simp only [quotaIdentity, FileRow.identity, EmbeddingLike.apply_eq_iff_eq, Prod.mk.injEq]
  split_ifs <;> simp_all

/-- The order `bytes_hi DESC, bytes_lo DESC`. -/
def bytesDesc (r s : FileRow) : Prop :=
  s.bytes.hi < r.bytes.hi ∨ (s.bytes.hi = r.bytes.hi ∧ s.bytes.lo ≤ r.bytes.lo)

instance : DecidableRel bytesDesc :=
  fun _ _ => inferInstanceAs (Decidable (_ ∨ _))

theorem bytesDesc_iff (r s : FileRow) :
  bytesDesc r s ↔ s.size ≤ r.size
  := by
  have := Limbs.value_lt_iff r.bytes s.bytes
  simp only [bytesDesc, FileRow.size]
  omega

/-- The rows `quota_probe` looks at: the live ones of the tenant and identity of
`reference`, the row `exclude` left out. -/
def quotaCandidates (files : Files) (reference exclude : FileRow) : List FileRow :=
  files.rows.filter (fun candidate =>
    candidate.tenant = reference.tenant ∧ candidate.deleted = false
      ∧ quotaIdentity candidate = quotaIdentity reference ∧ ¬ candidate.key = exclude.key)

/-- The greatest byte count among the candidates, `COALESCE` making it zero when there
are none.  The two columns are probed apart, but in the one order. -/
def quotaProbe (files : Files) (reference exclude : FileRow) : Limbs :=
  (((quotaCandidates files reference exclude).insertionSort bytesDesc).head?).elim
    Limbs.zero FileRow.bytes

/-- The comparison both updates make before they subtract. -/
def exceeds (a b : Limbs) : Prop := a.hi > b.hi ∨ (a.hi = b.hi ∧ a.lo > b.lo)

instance (a b : Limbs) : Decidable (exceeds a b) :=
  inferInstanceAs (Decidable (_ ∨ _))

/-- The column `delta_hi`. -/
def deltaHi (a b : Limbs) : ℤ :=
  if exceeds a b then a.hi - b.hi - sqlBool (a.lo < b.lo) else 0

/-- The column `delta_lo`. -/
def deltaLo (a b : Limbs) : ℤ :=
  if exceeds a b then (a.lo - b.lo + quotaBase) % quotaBase else 0

/-- The row `quota_add_update` writes, `new` taking the place of `old` as the weight of
an identity; none when a column would fail its check. -/
def quotaAddSet (row : UsageRow) (new old : Limbs) : Option UsageRow :=
  let hi := row.bytes.hi + deltaHi new old + sqlBool (row.bytes.lo + deltaLo new old ≥ quotaBase)
  let lo := (row.bytes.lo + deltaLo new old) % quotaBase
  (Limbs.ofColumns? (if hi > quotaMaxLimb then quotaMaxLimb else hi) lo).map
    (UsageRow.mk row.tenant ·
      (if hi > quotaMaxLimb ∨ (hi = quotaMaxLimb ∧ lo = quotaMaxLimb) then .saturated
        else .exact))

/-- The row `quota_remove_update` writes, `remaining` taking the place of `old` as the
weight of an identity; none when a column would fail its check. -/
def quotaRemoveSet (row : UsageRow) (old remaining : Limbs) : Option UsageRow :=
  let dHi := deltaHi old remaining
  let dLo := deltaLo old remaining
  let short := row.bytes.hi < dHi ∨ (row.bytes.hi = dHi ∧ row.bytes.lo < dLo)
  (Limbs.ofColumns?
      (if short then row.bytes.hi else row.bytes.hi - dHi - sqlBool (row.bytes.lo < dLo))
      (if short then row.bytes.lo else (row.bytes.lo - dLo + quotaBase) % quotaBase)).map
    (UsageRow.mk row.tenant ·
      (if row.state = .saturated ∧ exceeds old remaining then .dirty
        else if row.state = .exact ∧ short then .dirty
        else row.state))

/-- An update of the rows of one tenant, refused as a whole when a check fails. -/
def updateUsage
    (usage : Usage) (tenant : String) (p : UsageRow → Prop) [DecidablePred p]
    (set : UsageRow → Option UsageRow) : Option Usage :=
  match usage.find? tenant with
  | none => some usage
  | some row => if p row then (set row).map usage.upsert else some usage

/-- `quota_add_update`. -/
def quotaAddUpdate
    (files : Files) (reference exclude : FileRow) (live : Prop) [Decidable live]
    (usage : Usage) : Option Usage :=
  updateUsage usage reference.tenant (fun row => row.state = .exact ∧ live)
    (quotaAddSet · reference.bytes (quotaProbe files reference exclude))

/-- `quota_remove_update`. -/
def quotaRemoveUpdate
    (files : Files) (reference exclude : FileRow) (live : Prop) [Decidable live]
    (usage : Usage) : Option Usage :=
  updateUsage usage reference.tenant
    (fun row => (row.state = .exact ∨ row.state = .saturated) ∧ live)
    (quotaRemoveSet · reference.bytes (quotaProbe files reference exclude))

/-- `quota_ensure_row`. -/
def quotaEnsureRow (files : Files) (reference exclude : FileRow) (usage : Usage) : Usage :=
  match usage.find? reference.tenant with
  | some _ => usage
  | none =>
      usage.upsert ⟨reference.tenant, Limbs.zero,
        if ∃ existing ∈ files.rows, existing.tenant = reference.tenant
            ∧ existing.deleted = false ∧ ¬ existing.key = exclude.key
          then .dirty else .exact⟩

/-! ### The triggers -/

/-- `tenant_quota_usage_insert`, `files` being the table after the insertion. -/
def quotaTriggerInsert (files : Files) (new : FileRow) (usage : Usage) : Option Usage :=
  if new.deleted = false then
    quotaAddUpdate files new new True (quotaEnsureRow files new new usage)
  else some usage

/-- `tenant_quota_usage_delete`, `files` being the table after the deletion. -/
def quotaTriggerDelete (files : Files) (old : FileRow) (usage : Usage) : Option Usage :=
  if old.deleted = false ∧ ¬ ∃ row ∈ usage.rows, row.tenant = old.tenant ∧ row.state = .dirty then
    quotaRemoveUpdate files old old True (quotaEnsureRow files old old usage)
  else some usage

/-- `tenant_quota_usage_update`, `files` being the table after the update. -/
def quotaTriggerUpdate (files : Files) (old new : FileRow) (usage : Usage) : Option Usage :=
  if (old.tenant, old.key, old.bytes, old.deleted, old.storedAs)
      ≠ (new.tenant, new.key, new.bytes, new.deleted, new.storedAs) then
    (quotaRemoveUpdate files old new (old.deleted = false)
      (quotaEnsureRow files new new (quotaEnsureRow files old new usage))).bind
      (quotaAddUpdate files new new (new.deleted = false))
  else some usage

/-! ### The probe -/

theorem quotaCandidates_eq (files : Files) (reference exclude : FileRow) :
  quotaCandidates files reference exclude
    = (liveFiles (files.erase exclude.key).rows reference.tenant).filter
        (FileRow.identity · = reference.identity)
  := by
  rw [quotaCandidates, liveFiles, Table.erase, Table.filter, List.filter_filter,
    List.filter_filter]
  apply List.filter_congr
  intro r _
  simp only [quotaIdentity_eq_iff]
  grind

/-- The probe finds the weight of the identity of `reference` in the table without the
row `exclude`. -/
theorem value_quotaProbe (files : Files) (reference exclude : FileRow) :
  (quotaProbe files reference exclude).value
    = ClassMax.classMax FileRow.identity FileRow.size
        (liveFiles (files.erase exclude.key).rows reference.tenant) reference.identity
  := by
  have htotal : Std.Total bytesDesc := by
    constructor
    intro r s
    rw [bytesDesc_iff, bytesDesc_iff]
    apply le_total
  have htrans : IsTrans FileRow bytesDesc := by
    constructor
    intro r s t
    rw [bytesDesc_iff, bytesDesc_iff, bytesDesc_iff]
    omega
  have hsorted := List.pairwise_insertionSort bytesDesc (quotaCandidates files reference exclude)
  have hperm := List.perm_insertionSort bytesDesc (quotaCandidates files reference exclude)
  have hdesc : ((quotaCandidates files reference exclude).insertionSort bytesDesc).Pairwise
      (fun r s => s.size ≤ r.size) := by
    apply hsorted.imp
    intro r s
    apply (bytesDesc_iff r s).mp
  nth_rewrite 2 [quotaCandidates_eq] at hperm
  rw [ClassMax.classMax_eq_head FileRow.identity FileRow.size hperm hdesc, quotaProbe]
  cases ((quotaCandidates files reference exclude).insertionSort bytesDesc).head? with
  | none => rfl
  | some r => rfl

/-! ### The updates of one row -/

theorem exceeds_iff (a b : Limbs) :
  exceeds a b ↔ b.value < a.value
  := by
  rw [Limbs.value_lt_iff, exceeds]
  omega

/-- The two delta columns are the limbs of what `a` exceeds `b` by. -/
theorem delta_spec (a b : Limbs) :
  ∃ d : Limbs, deltaHi a b = d.hi ∧ deltaLo a b = d.lo ∧ d.value = a.value - b.value
  := by
  have hle : a.value - b.value ≤ u64Max := le_trans (Nat.sub_le _ _) a.value_le
  use splitBytes (a.value - b.value) hle
  rw [value_splitBytes]
  have := a.coe_value
  have := b.coe_value
  have := a.hi_mem
  have := a.lo_mem
  have := b.hi_mem
  have := b.lo_mem
  simp only [splitBytes, deltaHi, deltaLo, exceeds_iff, sqlBool, quotaBase, quotaMaxLimb,
    and_true] at *
  split_ifs <;> omega

/-- Adding in the exact state keeps the total exact, or finds that it does not fit. -/
theorem quotaAddSet_spec (row : UsageRow) (new old : Limbs) :
  ∃ row', quotaAddSet row new old = some row' ∧ row'.tenant = row.tenant
    ∧ ((row'.state = .exact ∧ row'.bytes.value = row.bytes.value + (new.value - old.value))
      ∨ (row'.state = .saturated ∧ u64Max ≤ row.bytes.value + (new.value - old.value)))
  := by
  obtain ⟨d, hHi, hLo, hd⟩ := delta_spec new old
  have hrow := row.bytes.coe_value
  have hdelta := d.coe_value
  have := row.bytes.hi_mem
  have := row.bytes.lo_mem
  have := d.hi_mem
  have := d.lo_mem
  obtain ⟨carry, hcarry, hc⟩ : ∃ c, sqlBool (row.bytes.lo + d.lo ≥ quotaBase) = c
      ∧ c * quotaBase + (row.bytes.lo + d.lo) % quotaBase = row.bytes.lo + d.lo := by
    use sqlBool (row.bytes.lo + d.lo ≥ quotaBase), rfl
    simp only [sqlBool, quotaBase, quotaMaxLimb] at *
    split_ifs <;> omega
  simp only [quotaAddSet, hHi, hLo, ← hd, hcarry]
  simp only [quotaBase, quotaMaxLimb] at *
  rw [Limbs.ofColumns?_of_mem (by simp only [quotaMaxLimb]; split_ifs <;> omega)
    (by simp only [quotaMaxLimb]; omega), Option.map_some]
  refine ⟨_, rfl, rfl, ?_⟩
  by_cases hfull : row.bytes.hi + d.hi + carry > 4294967295
      ∨ row.bytes.hi + d.hi + carry = 4294967295
        ∧ (row.bytes.lo + d.lo) % 4294967296 = 4294967295
  · right
    constructor
    · apply if_pos hfull
    · simp only [u64Max]
      omega
  · left
    constructor
    · apply if_neg hfull
    · rw [Limbs.value_eq_iff]
      dsimp only
      rw [if_neg (by omega)]
      omega

/-- Removing subtracts from an exact total that is large enough.  A saturated total
becomes dirty when the removal changes it. -/
theorem quotaRemoveSet_spec
    (row : UsageRow) (old remaining : Limbs) (hstate : row.state ≠ .dirty)
    (hle : row.state = .exact → old.value - remaining.value ≤ row.bytes.value) :
  ∃ row', quotaRemoveSet row old remaining = some row' ∧ row'.tenant = row.tenant
    ∧ ((row.state = .exact ∧ row'.state = .exact
          ∧ row'.bytes.value = row.bytes.value - (old.value - remaining.value))
      ∨ (row.state = .saturated ∧ row'.state = .saturated ∧ old.value ≤ remaining.value)
      ∨ row'.state = .dirty)
  := by
  obtain ⟨d, hHi, hLo, hd⟩ := delta_spec old remaining
  have hrow := row.bytes.coe_value
  have hdelta := d.coe_value
  have := row.bytes.hi_mem
  have := row.bytes.lo_mem
  have := d.hi_mem
  have := d.lo_mem
  simp only [quotaRemoveSet, hHi, hLo]
  simp only [quotaBase, quotaMaxLimb, sqlBool] at *
  rw [Limbs.ofColumns?_of_mem (by simp only [quotaMaxLimb]; split_ifs <;> omega)
    (by simp only [quotaMaxLimb]; split_ifs <;> omega), Option.map_some]
  refine ⟨_, rfl, rfl, ?_⟩
  cases hs : row.state with
  | dirty => contradiction
  | saturated =>
      right
      simp only [reduceCtorEq, true_and, false_and, if_false]
      by_cases h : exceeds old remaining
      · right
        apply if_pos h
      · left
        constructor
        · apply if_neg h
        · rw [exceeds_iff] at h
          omega
  | exact =>
      have hle := hle hs
      have hshort : ¬ (row.bytes.hi < d.hi ∨ row.bytes.hi = d.hi ∧ row.bytes.lo < d.lo) := by
        omega
      left
      simp only [reduceCtorEq, true_and, false_and, if_false, hshort]
      rw [Limbs.value_eq_iff]
      dsimp only
      split_ifs <;> omega

/-! ### What a row accounts for -/

/-- What the row of a tenant, when there is one, says of the tenant's live files. -/
def Accounts (live : List FileRow) : Option UsageRow → Prop
  | none => live = []
  | some row =>
      match row.state with
      | .exact => row.bytes.value = distinctBytes live
      | .saturated => u64Max ≤ distinctBytes live
      | .dirty => True

/-- Every tenant's row accounts for the tenant's live files. -/
def UsageAccounts (rows : List FileRow) (usage : Usage) : Prop :=
  ∀ tenant, Accounts (liveFiles rows tenant) (usage.find? tenant)

theorem accounts_perm {live live' : List FileRow} (h : live.Perm live') (row : Option UsageRow) :
  Accounts live row ↔ Accounts live' row
  := by
  cases row with
  | none =>
      rw [Accounts, Accounts]
      constructor
      · rintro rfl
        apply h.symm.eq_nil
      · rintro rfl
        apply h.eq_nil
  | some row => simp only [Accounts, distinctBytes_perm h]

/-- The account depends on a row's identity and size only. -/
theorem accounts_cons_congr
    {r r' : FileRow} (hidentity : r.identity = r'.identity) (hsize : r.size = r'.size)
    (live : List FileRow) (row : Option UsageRow) :
  Accounts (r :: live) row ↔ Accounts (r' :: live) row
  := by
  cases row with
  | none => simp [Accounts]
  | some row => simp only [Accounts, distinctBytes_cons, hidentity, hsize]

theorem usageAccounts_perm {rows rows' : List FileRow} (h : rows.Perm rows') (usage : Usage) :
  UsageAccounts rows usage ↔ UsageAccounts rows' usage
  := forall_congr' (fun tenant => accounts_perm (liveFiles_perm h tenant) _)

/-- An update of one tenant's row is carried out, and the rows account for the changed
files, when this holds of the tenant's own row. -/
theorem updateUsage_accounts
    {rows rows' : List FileRow} {usage : Usage} (h : UsageAccounts rows usage)
    (tenant : String) (p : UsageRow → Prop) [DecidablePred p]
    (set : UsageRow → Option UsageRow)
    (hother : ∀ t ≠ tenant, liveFiles rows' t = liveFiles rows t)
    (hnone : liveFiles rows tenant = [] → usage.find? tenant = none →
      liveFiles rows' tenant = [])
    (hkeep : ∀ row, Accounts (liveFiles rows tenant) (some row) → ¬ p row →
      Accounts (liveFiles rows' tenant) (some row))
    (hset : ∀ row, Accounts (liveFiles rows tenant) (some row) → p row →
      ∃ row', set row = some row' ∧ row'.tenant = row.tenant
        ∧ Accounts (liveFiles rows' tenant) (some row')) :
  ∃ usage', updateUsage usage tenant p set = some usage' ∧ UsageAccounts rows' usage'
  := by
  have htenant := h tenant
  rw [updateUsage]
  cases hrow : usage.find? tenant with
  | none =>
      rw [hrow] at htenant
      use usage, rfl
      intro t
      by_cases ht : t = tenant
      · rw [ht, hrow]
        apply hnone htenant hrow
      · rw [hother t ht]
        apply h t
  | some row =>
      rw [hrow] at htenant
      dsimp only
      split_ifs with hp
      · obtain ⟨row', hrow', htenant', haccounts⟩ := hset row htenant hp
        have hkey : row'.tenant = tenant := htenant'.trans (Table.find?_eq_some.mp hrow).2
        use usage.upsert row', by rw [hrow', Option.map_some]
        intro t
        by_cases ht : t = tenant
        · rw [ht, Table.find?_upsert, if_pos hkey.symm]
          apply haccounts
        · rw [hother t ht, Table.find?_upsert, if_neg (hkey ▸ ht)]
          apply h t
      · use usage, rfl
        intro t
        by_cases ht : t = tenant
        · rw [ht, hrow]
          apply hkeep row htenant hp
        · rw [hother t ht]
          apply h t

/-- An update keeps every row's tenant. -/
theorem updateUsage_find?
    {usage usage' : Usage} {tenant : String} {p : UsageRow → Prop} [DecidablePred p]
    {set : UsageRow → Option UsageRow} (h : updateUsage usage tenant p set = some usage')
    {t : String} (ht : usage.find? t ≠ none) :
  usage'.find? t ≠ none
  := by
  rw [updateUsage] at h
  split at h
  · cases h
    apply ht
  · split_ifs at h
    · obtain ⟨row', _, rfl⟩ := Option.map_eq_some_iff.mp h
      rw [Table.find?_upsert]
      split_ifs
      · apply Option.some_ne_none
      · apply ht
    · cases h
      apply ht

/-- After `quota_add_update` the rows account for the files with the new one. -/
theorem quotaAddUpdate_accounts
    {files : Files} {base : List FileRow} {new : FileRow} {usage : Usage}
    (hbase : (files.erase new.key).rows.Perm base) (live : Prop) [Decidable live]
    (hlive : live ↔ new.deleted = false) (h : UsageAccounts base usage)
    (hrow : usage.find? new.tenant ≠ none) :
  ∃ usage', quotaAddUpdate files new new live usage = some usage'
    ∧ UsageAccounts (new :: base) usage'
  := by
  apply updateUsage_accounts h
  · intro t ht
    apply liveFiles_cons_of_not
    rintro ⟨rfl, _⟩
    contradiction
  · intro _ hnone
    contradiction
  · intro row haccounts hp
    by_cases hnew : new.deleted = false
    · rw [liveFiles_cons_of_live hnew]
      simp only [Accounts] at haccounts ⊢
      cases hs : row.state with
      | exact => exact absurd ⟨hs, hlive.mpr hnew⟩ hp
      | saturated =>
          rw [hs] at haccounts
          simp only [distinctBytes_cons] at haccounts ⊢
          omega
      | dirty => trivial
    · rw [liveFiles_cons_of_not (fun hc => hnew hc.2)]
      apply haccounts
  · rintro row haccounts ⟨hs, hl⟩
    obtain ⟨row', hset, htenant, hresult⟩ :=
      quotaAddSet_spec row new.bytes (quotaProbe files new new)
    rw [value_quotaProbe, ClassMax.classMax_perm _ _ (liveFiles_perm hbase _)] at hresult
    use row', hset, htenant
    rw [liveFiles_cons_of_live (hlive.mp hl)]
    simp only [Accounts, hs] at haccounts ⊢
    rw [distinctBytes_cons, ← haccounts]
    rcases hresult with ⟨hs', hv⟩ | ⟨hs', hv⟩
    · rw [hs']
      apply hv
    · rw [hs']
      apply hv

/-- After `quota_remove_update` the rows account for the files without the old one. -/
theorem quotaRemoveUpdate_accounts
    {files : Files} {base : List FileRow} {old exclude : FileRow} {usage : Usage}
    (hbase : (files.erase exclude.key).rows.Perm base) (live : Prop) [Decidable live]
    (hlive : live ↔ old.deleted = false) (h : UsageAccounts (old :: base) usage) :
  ∃ usage', quotaRemoveUpdate files old exclude live usage = some usage'
    ∧ UsageAccounts base usage'
  := by
  apply updateUsage_accounts h
  · intro t ht
    symm
    apply liveFiles_cons_of_not
    rintro ⟨rfl, _⟩
    contradiction
  · intro hnil _
    have hsub : (liveFiles base old.tenant).Sublist (liveFiles (old :: base) old.tenant) :=
      (List.sublist_cons_self old base).filter _
    rw [hnil] at hsub
    apply List.sublist_nil.mp hsub
  · intro row haccounts hp
    by_cases hold : old.deleted = false
    · simp only [Accounts]
      cases hs : row.state with
      | exact => exact absurd ⟨Or.inl hs, hlive.mpr hold⟩ hp
      | saturated => exact absurd ⟨Or.inr hs, hlive.mpr hold⟩ hp
      | dirty => trivial
    · rw [liveFiles_cons_of_not (fun hc => hold hc.2)] at haccounts
      apply haccounts
  · rintro row haccounts ⟨hs, hl⟩
    rw [liveFiles_cons_of_live (hlive.mp hl)] at haccounts
    have hprobe := value_quotaProbe files old exclude
    rw [ClassMax.classMax_perm _ _ (liveFiles_perm hbase _)] at hprobe
    have hcons := distinctBytes_cons old (liveFiles base old.tenant)
    rw [← hprobe] at hcons
    obtain ⟨row', hset, htenant, hresult⟩ :=
      quotaRemoveSet_spec row old.bytes (quotaProbe files old exclude) (by grind)
        (by
          intro hexact
          simp only [Accounts, hexact] at haccounts
          rw [haccounts, hcons]
          apply Nat.le_add_left)
    use row', hset, htenant
    rcases hresult with ⟨hs₁, hs', hv⟩ | ⟨hs₁, hs', hv⟩ | hs'
    · simp only [Accounts, hs₁, hs', FileRow.size] at haccounts hcons ⊢
      omega
    · simp only [Accounts, hs₁, hs', FileRow.size] at haccounts hcons ⊢
      omega
    · simp only [Accounts, hs']

theorem quotaEnsureRow_find?
    (files : Files) (reference exclude : FileRow) (usage : Usage) {tenant : String}
    (h : tenant = reference.tenant ∨ usage.find? tenant ≠ none) :
  (quotaEnsureRow files reference exclude usage).find? tenant ≠ none
  := by
  rw [quotaEnsureRow]
  cases hrow : usage.find? reference.tenant with
  | some row =>
      dsimp only
      rcases h with rfl | h
      · rw [hrow]
        apply Option.some_ne_none
      · apply h
  | none =>
      dsimp only
      by_cases ht : tenant = reference.tenant
      · rw [Table.find?_upsert, if_pos ht]
        apply Option.some_ne_none
      · rw [Table.find?_upsert, if_neg ht]
        apply h.resolve_left ht

/-- A tenant without a row has no live file, so a row starts at zero. -/
theorem quotaEnsureRow_accounts
    {files : Files} {rows : List FileRow} (reference : FileRow) {exclude : FileRow}
    {usage : Usage} (hrows : ∀ r ∈ files.rows, r.key ≠ exclude.key → r ∈ rows)
    (h : UsageAccounts rows usage) :
  UsageAccounts rows (quotaEnsureRow files reference exclude usage)
  := by
  rw [quotaEnsureRow]
  cases hrow : usage.find? reference.tenant with
  | some row => apply h
  | none =>
      have hnil := h reference.tenant
      rw [hrow, Accounts] at hnil
      have hno : ¬ ∃ existing ∈ files.rows, existing.tenant = reference.tenant
          ∧ existing.deleted = false ∧ ¬ existing.key = exclude.key := by
        rintro ⟨r, hr, htenant, hlive, hkey⟩
        have hmem := mem_liveFiles.mpr ⟨hrows r hr hkey, htenant, hlive⟩
        rw [hnil] at hmem
        cases hmem
      intro t
      dsimp only
      by_cases ht : t = reference.tenant
      · rw [Table.find?_upsert, if_pos ht, ht, hnil, if_neg hno]
        rfl
      · rw [Table.find?_upsert, if_neg ht]
        apply h t

/-! ### What a trigger keeps -/

theorem quotaTriggerInsert_accounts
    {files files' : Files} {new : FileRow} {usage : Usage}
    (hfiles : files.insert? new = some files') (h : UsageAccounts files.rows usage) :
  ∃ usage', quotaTriggerInsert files' new usage = some usage'
    ∧ UsageAccounts files'.rows usage'
  := by
  obtain ⟨_, hrows⟩ := Table.insert?_eq_some.mp hfiles
  have hnew : files'.find? new.key = some new := by
    rw [Table.find?_insert? hfiles, if_pos rfl]
  have hbase := Table.perm_cons_erase hnew
  rw [hrows, List.perm_cons] at hbase
  rw [quotaTriggerInsert, hrows]
  split_ifs with hlive
  · apply quotaAddUpdate_accounts hbase.symm
    · simp [hlive]
    · apply quotaEnsureRow_accounts _ _ h
      rw [hrows]
      grind
    · apply quotaEnsureRow_find?
      left
      rfl
  · use usage, rfl
    intro t
    rw [liveFiles_cons_of_not (fun hc => hlive hc.2)]
    apply h t

theorem quotaTriggerDelete_accounts
    {files : Files} {old : FileRow} {usage : Usage} (hold : files.find? old.key = some old)
    (h : UsageAccounts files.rows usage) :
  ∃ usage', quotaTriggerDelete (files.erase old.key) old usage = some usage'
    ∧ UsageAccounts (files.erase old.key).rows usage'
  := by
  have hbase := Table.perm_cons_erase hold
  rw [usageAccounts_perm hbase] at h
  rw [quotaTriggerDelete]
  split_ifs with hlive
  · apply quotaRemoveUpdate_accounts
    · rw [Table.erase_of_absent (Table.find?_erase_self files old.key)]
    · simp [hlive.1]
    · apply quotaEnsureRow_accounts _ _ h
      intro r hr _
      apply List.mem_cons_of_mem old hr
  · use usage, rfl
    intro t
    by_cases hc : old.tenant = t ∧ old.deleted = false
    · obtain ⟨rfl, hd⟩ := hc
      rw [not_and, not_not] at hlive
      obtain ⟨row, hrow, htenant, hstate⟩ := hlive hd
      rw [← htenant, Table.find?_key hrow]
      simp only [Accounts, hstate]
    · have ht := h t
      rw [liveFiles_cons_of_not hc] at ht
      apply ht

theorem quotaTriggerUpdate_accounts
    {files files' : Files} {old new : FileRow} {usage : Usage}
    (hold : files.find? old.key = some old)
    (hfiles : (files.erase old.key).insert? new = some files')
    (h : UsageAccounts files.rows usage) :
  ∃ usage', quotaTriggerUpdate files' old new usage = some usage'
    ∧ UsageAccounts files'.rows usage'
  := by
  obtain ⟨_, hrows⟩ := Table.insert?_eq_some.mp hfiles
  have hnew : files'.find? new.key = some new := by
    rw [Table.find?_insert? hfiles, if_pos rfl]
  have hbase := Table.perm_cons_erase hnew
  rw [hrows, List.perm_cons] at hbase
  rw [usageAccounts_perm (Table.perm_cons_erase hold)] at h
  have hsub : ∀ r ∈ files'.rows, r.key ≠ new.key → r ∈ old :: (files.erase old.key).rows := by
    rw [hrows]
    grind
  rw [quotaTriggerUpdate, hrows]
  split_ifs with hchanged
  · obtain ⟨usage₁, hremove, h₁⟩ := quotaRemoveUpdate_accounts hbase.symm (old.deleted = false)
      Iff.rfl (quotaEnsureRow_accounts new hsub (quotaEnsureRow_accounts old hsub h))
    rw [hremove, Option.bind_some]
    apply quotaAddUpdate_accounts hbase.symm _ Iff.rfl h₁
    apply updateUsage_find? hremove
    apply quotaEnsureRow_find?
    left
    rfl
  · use usage, rfl
    simp only [ne_eq, not_not, Prod.mk.injEq] at hchanged
    obtain ⟨htenant, hkey, hbytes, hdeleted, hstored⟩ := hchanged
    intro t
    have ht := h t
    by_cases hc : new.tenant = t ∧ new.deleted = false
    · obtain ⟨rfl, hd⟩ := hc
      rw [← htenant, liveFiles_cons_of_live (hdeleted.trans hd)] at ht
      rw [liveFiles_cons_of_live hd, ← htenant]
      apply (accounts_cons_congr (r := old) _ _ _ _).mp ht
      · rw [FileRow.identity, FileRow.identity, hstored, hkey]
      · rw [FileRow.size, FileRow.size, hbytes]
    · rw [liveFiles_cons_of_not (htenant ▸ hdeleted ▸ hc)] at ht
      rw [liveFiles_cons_of_not hc]
      apply ht

end Votport
