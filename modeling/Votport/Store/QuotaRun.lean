import Votport.Store.QuotaFold

/-!
# The quota aggregate over runs

The tables `files` and `tenant_quota_usage` change by statements on `files`, each row of
which fires the triggers, and by `tenant_received_bytes`, which rebuilds a dirty row.
From an empty or a backfilled database, every tenant's row accounts for the tenant's
files after any number of them, and `tenant_received_bytes` answers what the fold does.
-/

namespace Votport

/-- The tables the quota aggregate is about, with the keys of `tenants`. -/
structure QuotaDb where
  files : Files
  usage : Usage
  tenants : List String

namespace QuotaDb

/-! ### Statements -/

/-- An inserted row, none when its primary key is taken or a trigger fails. -/
def insertFile (db : QuotaDb) (new : FileRow) : Option QuotaDb := do
  let files ← db.files.insert? new
  let usage ← quotaTriggerInsert files new db.usage
  pure { db with files, usage }

/-- A deleted row. -/
def deleteFile (db : QuotaDb) (key : FileKey) : Option QuotaDb :=
  match db.files.find? key with
  | none => some db
  | some old => do
      let files := db.files.erase key
      let usage ← quotaTriggerDelete files old db.usage
      pure { db with files, usage }

/-- An updated row, which may get another key. -/
def updateFile (db : QuotaDb) (key : FileKey) (new : FileRow) : Option QuotaDb :=
  match db.files.find? key with
  | none => some db
  | some old => do
      let files ← (db.files.erase key).insert? new
      let usage ← quotaTriggerUpdate files old new db.usage
      pure { db with files, usage }

end QuotaDb

/-- The bytes `tenant_received_bytes` reads from a row that is not dirty. -/
def UsageRow.receivedBytes (row : UsageRow) : ℕ :=
  if row.state = .saturated then u64Max else row.bytes.value

/-- `tenant_received_bytes`. -/
def tenantReceivedBytes (db : QuotaDb) (tenant : String) : Except String (ℕ × QuotaDb) :=
  match db.usage.find? tenant with
  | none =>
      if ∃ r ∈ db.files.rows, r.tenant = tenant ∧ r.deleted = false then
        throw "tenant quota aggregate is missing for live files; refusing admission"
      else pure (0, db)
  | some row =>
      if row.state = .dirty then do
        let (_, usage) ← rebuildTenantQuota db.files tenant db.usage
        match usage.find? tenant with
        | none => throw "Query returned no rows"
        | some row => pure (row.receivedBytes, { db with usage })
      else pure (row.receivedBytes, db)

/-! ### Runs -/

/-- A statement on one row of `files`, or a call of `tenant_received_bytes`. -/
inductive QuotaEvent where
  | insert (new : FileRow)
  | update (key : FileKey) (new : FileRow)
  | delete (key : FileKey)
  | receivedBytes (tenant : String)

/-- The database after an event.  One that fails changes nothing. -/
def QuotaDb.apply (db : QuotaDb) : QuotaEvent → QuotaDb
  | .insert new => (db.insertFile new).getD db
  | .update key new => (db.updateFile key new).getD db
  | .delete key => (db.deleteFile key).getD db
  | .receivedBytes tenant =>
      match tenantReceivedBytes db tenant with
      | .error _ => db
      | .ok (_, db) => db

/-- The databases a run starts from: an empty one, or one that has been backfilled. -/
def QuotaStart (db : QuotaDb) : Prop :=
  (db.files = Table.empty ∧ db.usage = Table.empty)
    ∨ ∃ moved, backfillQuotaUsage db.files db.tenants = .ok (db.usage, moved)

/-- Every tenant's row accounts for the tenant's files. -/
def QuotaDb.Consistent (db : QuotaDb) : Prop :=
  UsageAccounts db.files.rows db.usage

theorem consistent_of_start {db : QuotaDb} (h : QuotaStart db) :
  db.Consistent
  := by
  rcases h with ⟨hfiles, husage⟩ | ⟨moved, hbackfill⟩
  · intro tenant
    rw [hfiles, husage]
    rfl
  · obtain ⟨usage, moved', hok, haccounts⟩ := backfillQuotaUsage_spec db.files db.tenants
    rw [hbackfill] at hok
    cases hok
    apply haccounts

theorem insertFile_consistent {db db' : QuotaDb} {new : FileRow} (h : db.Consistent)
    (hdb : db.insertFile new = some db') :
  db'.Consistent
  := by
  obtain ⟨files, hfiles, hdb⟩ := Option.bind_eq_some_iff.mp hdb
  obtain ⟨usage, husage, hdb⟩ := Option.bind_eq_some_iff.mp hdb
  cases hdb
  obtain ⟨usage', husage', haccounts⟩ := quotaTriggerInsert_accounts hfiles h
  rw [husage] at husage'
  cases husage'
  apply haccounts

theorem deleteFile_consistent {db db' : QuotaDb} {key : FileKey} (h : db.Consistent)
    (hdb : db.deleteFile key = some db') :
  db'.Consistent
  := by
  rw [QuotaDb.deleteFile] at hdb
  cases hold : db.files.find? key with
  | none =>
      rw [hold] at hdb
      cases hdb
      apply h
  | some old =>
      rw [hold] at hdb
      obtain ⟨usage, husage, hdb⟩ := Option.bind_eq_some_iff.mp hdb
      cases hdb
      obtain rfl := (Table.find?_eq_some.mp hold).2
      obtain ⟨usage', husage', haccounts⟩ := quotaTriggerDelete_accounts hold h
      rw [husage] at husage'
      cases husage'
      apply haccounts

theorem updateFile_consistent {db db' : QuotaDb} {key : FileKey} {new : FileRow}
    (h : db.Consistent) (hdb : db.updateFile key new = some db') :
  db'.Consistent
  := by
  rw [QuotaDb.updateFile] at hdb
  cases hold : db.files.find? key with
  | none =>
      rw [hold] at hdb
      cases hdb
      apply h
  | some old =>
      rw [hold] at hdb
      obtain ⟨files, hfiles, hdb⟩ := Option.bind_eq_some_iff.mp hdb
      obtain ⟨usage, husage, hdb⟩ := Option.bind_eq_some_iff.mp hdb
      cases hdb
      obtain rfl := (Table.find?_eq_some.mp hold).2
      obtain ⟨usage', husage', haccounts⟩ := quotaTriggerUpdate_accounts hold hfiles h
      rw [husage] at husage'
      cases husage'
      apply haccounts

/-- What a consistent row that is not dirty answers. -/
theorem receivedBytes_of_accounts
    {row : UsageRow} {live : List FileRow} (h : Accounts live (some row))
    (hdirty : row.state ≠ .dirty) :
  row.receivedBytes = min (distinctBytes live) u64Max
  := by
  simp only [Accounts] at h
  rw [UsageRow.receivedBytes]
  cases hs : row.state with
  | dirty => contradiction
  | exact =>
      rw [hs] at h
      have hle := row.bytes.value_le
      rw [if_neg (by decide)]
      dsimp only at h
      omega
  | saturated =>
      rw [hs] at h
      rw [if_pos rfl, min_eq_right h]

/-- On a consistent database `tenant_received_bytes` answers the tenant's bytes, and
leaves the tenant's row, if there is one, in the exact or the saturated state. -/
theorem tenantReceivedBytes_spec {db : QuotaDb} (h : db.Consistent) (tenant : String) :
  ∃ db', tenantReceivedBytes db tenant
      = .ok (min (distinctBytes (liveFiles db.files.rows tenant)) u64Max, db')
    ∧ db'.files = db.files ∧ db'.Consistent
    ∧ ∀ row, db.usage.find? tenant = some row →
      ∃ row', db'.usage.find? tenant = some row' ∧ row'.state ≠ .dirty
  := by
  have ht := h tenant
  rw [tenantReceivedBytes]
  cases hrow : db.usage.find? tenant with
  | none =>
      rw [hrow, Accounts] at ht
      have hno : ¬ ∃ r ∈ db.files.rows, r.tenant = tenant ∧ r.deleted = false := by
        rintro ⟨r, hr, hlive⟩
        have hmem := mem_liveFiles.mpr ⟨hr, hlive⟩
        rw [ht] at hmem
        cases hmem
      use db
      dsimp only
      rw [if_neg hno, ht]
      refine ⟨rfl, rfl, h, ?_⟩
      intro row hrow'
      cases hrow'
  | some row =>
      rw [hrow] at ht
      dsimp only
      split_ifs with hdirty
      · obtain ⟨count, total, hrebuild, hof⟩ :=
          rebuildTenantQuota_spec db.files tenant db.usage
        have hfind : (db.usage.upsert (total.row tenant)).find? tenant = some (total.row tenant) := by
          rw [Table.find?_upsert, if_pos (ByteTotal.row_tenant _ _).symm]
        have hclean : (total.row tenant).state ≠ .dirty := by
          rw [ByteTotal.row, ByteTotal.state]
          dsimp only
          split_ifs <;> simp
        have haccounts := ByteTotal.accounts_row hof tenant
        use { db with usage := db.usage.upsert (total.row tenant) }
        refine ⟨?_, rfl, ?_, ?_⟩
        · rw [hrebuild]
          simp only [bind, Except.bind, hfind]
          rw [receivedBytes_of_accounts haccounts hclean]
          rfl
        · intro t
          dsimp only
          rw [Table.find?_upsert]
          split_ifs with he
          · rw [he, ByteTotal.row_tenant]
            apply haccounts
          · apply h t
        · intro _ _
          use total.row tenant, hfind, hclean
      · use db
        refine ⟨?_, rfl, h, ?_⟩
        · rw [receivedBytes_of_accounts ht hdirty]
          rfl
        · intro row' hrow'
          cases hrow'
          use row, hrow, hdirty

/-- Every event keeps the aggregate. -/
theorem apply_consistent {db : QuotaDb} (h : db.Consistent) (e : QuotaEvent) :
  (db.apply e).Consistent
  := by
  cases e with
  | insert new =>
      rw [QuotaDb.apply]
      cases hdb : db.insertFile new with
      | none => apply h
      | some db' => apply insertFile_consistent h hdb
  | update key new =>
      rw [QuotaDb.apply]
      cases hdb : db.updateFile key new with
      | none => apply h
      | some db' => apply updateFile_consistent h hdb
  | delete key =>
      rw [QuotaDb.apply]
      cases hdb : db.deleteFile key with
      | none => apply h
      | some db' => apply deleteFile_consistent h hdb
  | receivedBytes tenant =>
      obtain ⟨db', hok, _, h', _⟩ := tenantReceivedBytes_spec h tenant
      rw [QuotaDb.apply, hok]
      apply h'

/-- Along every run from an empty or a backfilled database, the aggregate row of a
tenant holds the tenant's bytes in the exact state, a saturated one says that they do
not fit, a dirty one is rebuilt to them, and `tenant_received_bytes` is the fold. -/
theorem tenantReceivedBytes_eq_quotaFold
    {start : QuotaDb} (hstart : QuotaStart start) (events : List QuotaEvent) (tenant : String) :
  let db := events.foldl QuotaDb.apply start
  let bytes := distinctBytes (liveFiles db.files.rows tenant)
  (∀ row, db.usage.find? tenant = some row →
      (row.state = .exact → row.bytes.hi * quotaBase + row.bytes.lo = bytes)
      ∧ (row.state = .saturated → u64Max ≤ bytes)
      ∧ (row.state = .dirty → ∃ answer db' row', tenantReceivedBytes db tenant = .ok (answer, db')
          ∧ db'.usage.find? tenant = some row'
          ∧ (row'.state = .exact ∧ row'.bytes.hi * quotaBase + row'.bytes.lo = bytes
            ∨ row'.state = .saturated ∧ u64Max ≤ bytes)))
    ∧ ∃ count total db', quotaFold db.files tenant = .ok (count, total)
      ∧ total.total = min bytes u64Max
      ∧ tenantReceivedBytes db tenant = .ok (total.total, db')
  := by
  intro db bytes
  have h : db.Consistent := by
    apply List.foldlRecOn
    · apply consistent_of_start hstart
    · intro db' h' e _
      apply apply_consistent h' e
  obtain ⟨db', hok, hfiles, h', hclean⟩ := tenantReceivedBytes_spec h tenant
  constructor
  · intro row hrow
    have ht := h tenant
    rw [hrow] at ht
    refine ⟨?_, ?_, ?_⟩
    · intro hs
      simp only [Accounts, hs] at ht
      rw [← row.bytes.coe_value, ht]
    · intro hs
      simp only [Accounts, hs] at ht
      apply ht
    · intro _
      obtain ⟨row', hrow', hstate⟩ := hclean row hrow
      have ht' := h' tenant
      rw [hrow', hfiles] at ht'
      refine ⟨_, db', row', hok, hrow', ?_⟩
      cases hs : row'.state with
      | dirty => contradiction
      | exact =>
          left
          simp only [Accounts, hs] at ht'
          rw [← row'.bytes.coe_value, ht']
          exact ⟨rfl, rfl⟩
      | saturated =>
          right
          simp only [Accounts, hs] at ht'
          exact ⟨rfl, ht'⟩
  · obtain ⟨count, total, hfold, hof⟩ := quotaFold_spec db.files tenant
    use count, total, db', hfold, hof.1
    rw [hof.1]
    apply hok

/-- A row of the tenant `acme` for a stored file. -/
def sampleFile (storedAs : String) (fileIndex : ℤ) (bytes : ℕ) (h : bytes ≤ u64Max) : FileRow where
  key := ⟨"link", "upload", fileIndex⟩
  tenant := "acme"
  bytes := splitBytes bytes h
  deleted := false
  storedAs := storedAs
  path := storedAs
  suite := "blake3"
  root := "00"
  receipt := true

/-- Two rows of one file, the larger of which is deleted, and then a file of the largest size, which
comes and goes. -/
def sampleEvents : List QuotaEvent := [
  .insert (sampleFile "a.txt" 0 (2 ^ 32 + 7) (by decide)),
  .insert (sampleFile "a.txt" 1 9 (by decide)),
  .delete ⟨"link", "upload", 0⟩,
  .insert (sampleFile "b.bin" 2 u64Max le_rfl),
  .delete ⟨"link", "upload", 2⟩]

/-- The database after the first events. -/
def quotaAfter (n : ℕ) : QuotaDb :=
  (sampleEvents.take n).foldl QuotaDb.apply ⟨Table.empty, Table.empty, []⟩

/-- The state of the row of the tenant `acme`. -/
def sampleState (n : ℕ) : Option QuotaState :=
  ((quotaAfter n).usage.find? "acme").map UsageRow.state

theorem tenantReceivedBytes_eq_quotaFold_deleted :
  (∃ row, (quotaAfter 3).usage.find? "acme" = some row
      ∧ row.bytes.hi * quotaBase + row.bytes.lo = 9)
    ∧ u64Max ≤ distinctBytes (liveFiles (quotaAfter 4).files.rows "acme")
    ∧ (∃ answer db' row', tenantReceivedBytes (quotaAfter 5) "acme" = .ok (answer, db')
      ∧ db'.usage.find? "acme" = some row'
      ∧ (row'.state = .exact ∧ row'.bytes.hi * quotaBase + row'.bytes.lo = 9
        ∨ row'.state = .saturated ∧ u64Max ≤ 9))
    ∧ ∃ count total db', quotaFold (quotaAfter 5).files "acme" = .ok (count, total)
      ∧ total.total = 9
      ∧ tenantReceivedBytes (quotaAfter 5) "acme" = .ok (total.total, db')
  := by
  have hstart : QuotaStart ⟨Table.empty, Table.empty, []⟩ := Or.inl ⟨rfl, rfl⟩
  have hexact := tenantReceivedBytes_eq_quotaFold hstart (sampleEvents.take 3) "acme"
  have hsaturated := tenantReceivedBytes_eq_quotaFold hstart (sampleEvents.take 4) "acme"
  have hdirty := tenantReceivedBytes_eq_quotaFold hstart (sampleEvents.take 5) "acme"
  have hbytes : distinctBytes (liveFiles (quotaAfter 5).files.rows "acme") = 9 := by
    decide +kernel
  have hrow : ∀ n state, sampleState n = some state →
      ∃ row, (quotaAfter n).usage.find? "acme" = some row ∧ row.state = state := by
    intro n state h
    exact Option.map_eq_some_iff.mp h
  refine ⟨?_, ?_, ?_, ?_⟩
  · obtain ⟨row, hfind, hstate⟩ := hrow 3 .exact (by decide +kernel)
    refine ⟨row, hfind, ((hexact.1 row hfind).1 hstate).trans ?_⟩
    decide +kernel
  · obtain ⟨row, hfind, hstate⟩ := hrow 4 .saturated (by decide +kernel)
    exact (hsaturated.1 row hfind).2.1 hstate
  · obtain ⟨row, hfind, hstate⟩ := hrow 5 .dirty (by decide +kernel)
    obtain ⟨answer, db', row', hok, hrow', hbytes'⟩ := (hdirty.1 row hfind).2.2 hstate
    refine ⟨answer, db', row', hok, hrow', ?_⟩
    rw [← hbytes]
    exact hbytes'
  · obtain ⟨count, total, db', hfold, htotal, hok⟩ := hdirty.2
    refine ⟨count, total, db', hfold, htotal.trans ?_, hok⟩
    exact (congrArg (min · u64Max) hbytes).trans (by decide)

-- Deleting the larger of two rows of one file leaves the smaller.
example : (tenantReceivedBytes (quotaAfter 3) "acme").toOption.map Prod.fst = some 9
  := by decide +kernel

end Votport
