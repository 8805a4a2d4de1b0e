import Votport.Foundation.Table
import Votport.Foundation.ClassMax
import Mathlib.Data.String.Basic

/-!
# The rows of `files`

A committed upload leaves one row for each of its files.  Its byte count is kept as two
32-bit limbs, since the columns are signed 64-bit integers and the count is an unsigned
one.  Several rows may name one stored file; `identity` says when they do.
-/

namespace Votport

/-- `QUOTA_BASE`, one more than the greatest limb. -/
abbrev quotaBase : ℤ := 4294967296

/-- `QUOTA_MAX_LIMB`. -/
abbrev quotaMaxLimb : ℤ := 4294967295

/-- `u64::MAX`. -/
def u64Max : ℕ := 18446744073709551615

/-! ### Limbs -/

/-- A byte count as the columns `bytes_hi` and `bytes_lo` hold it. -/
structure Limbs where
  /-- The column `bytes_hi`. -/
  hi : ℤ
  /-- The column `bytes_lo`. -/
  lo : ℤ
  /-- The high limb is one. -/
  hi_mem : 0 ≤ hi ∧ hi ≤ quotaMaxLimb
  /-- The low limb is one. -/
  lo_mem : 0 ≤ lo ∧ lo ≤ quotaMaxLimb
deriving DecidableEq

namespace Limbs

/-- The byte count of two limbs. -/
def value (b : Limbs) : ℕ := (b.hi * quotaBase + b.lo).toNat

/-- The limbs of zero. -/
def zero : Limbs := ⟨0, 0, by decide, by decide⟩

/-- The limbs in two columns, none when a column holds no limb. -/
def ofColumns? (hi lo : ℤ) : Option Limbs :=
  if h : (0 ≤ hi ∧ hi ≤ quotaMaxLimb) ∧ (0 ≤ lo ∧ lo ≤ quotaMaxLimb) then
    some ⟨hi, lo, h.1, h.2⟩
  else none

@[simp]
theorem value_zero : zero.value = 0 := rfl

theorem coe_value (b : Limbs) :
  (b.value : ℤ) = b.hi * 4294967296 + b.lo
  := by
  have := b.hi_mem
  have := b.lo_mem
  simp only [value, quotaBase]
  omega

theorem value_eq_iff (b : Limbs) (n : ℕ) :
  b.value = n ↔ b.hi * 4294967296 + b.lo = n
  := by
  rw [← b.coe_value]
  omega

theorem value_le (b : Limbs) :
  b.value ≤ u64Max
  := by
  have := b.coe_value
  have := b.hi_mem
  have := b.lo_mem
  simp only [quotaMaxLimb, u64Max] at *
  omega

theorem ofColumns?_of_mem
    {hi lo : ℤ} (hhi : 0 ≤ hi ∧ hi ≤ quotaMaxLimb) (hlo : 0 ≤ lo ∧ lo ≤ quotaMaxLimb) :
  ofColumns? hi lo = some ⟨hi, lo, hhi, hlo⟩
  := dif_pos ⟨hhi, hlo⟩

/-- The order on the two columns is the order on the byte counts. -/
theorem value_lt_iff (a b : Limbs) :
  a.value < b.value ↔ a.hi < b.hi ∨ (a.hi = b.hi ∧ a.lo < b.lo)
  := by
  have := a.coe_value
  have := b.coe_value
  have := a.lo_mem
  have := b.lo_mem
  simp only [quotaMaxLimb] at *
  omega

theorem value_inj {a b : Limbs} (h : a.value = b.value) :
  a = b
  := by
  have := a.coe_value
  have := b.coe_value
  have := a.lo_mem
  have := b.lo_mem
  obtain ⟨ahi, alo, _, _⟩ := a
  obtain ⟨bhi, blo, _, _⟩ := b
  simp only [quotaMaxLimb, Limbs.mk.injEq] at *
  omega

end Limbs

/-- The limbs of a 64-bit byte count, `split_bytes`. -/
def splitBytes (bytes : ℕ) (h : bytes ≤ u64Max) : Limbs where
  hi := bytes / 4294967296
  lo := bytes % 4294967296
  hi_mem := by
    simp only [u64Max, quotaMaxLimb] at *
    omega
  lo_mem := by
    simp only [quotaMaxLimb] at *
    omega

@[simp]
theorem value_splitBytes (bytes : ℕ) (h : bytes ≤ u64Max) :
  (splitBytes bytes h).value = bytes
  := by
  have := (splitBytes bytes h).coe_value
  simp only [splitBytes] at *
  omega

/-! ### Rows -/

/-- The primary key of `files`. -/
structure FileKey where
  linkId : String
  uploadId : String
  fileIndex : ℤ
deriving DecidableEq

/-- A row of `files`. -/
structure FileRow where
  key : FileKey
  tenant : String
  bytes : Limbs
  deleted : Bool
  storedAs : String
  path : String
  suite : String
  root : String
  receipt : Bool
deriving DecidableEq

/-- The table `files`. -/
abbrev Files := Table FileRow.key

/-- What counts once towards a tenant's total: a stored file, or a row of its own when
the row names no stored file. -/
inductive FileIdentity where
  | stored (storedAs : String)
  | row (key : FileKey)
deriving DecidableEq

/-- The identity of the file a row is about. -/
def FileRow.identity (r : FileRow) : FileIdentity :=
  if r.storedAs = "" then .row r.key else .stored r.storedAs

/-- The bytes a row records. -/
def FileRow.size (r : FileRow) : ℕ := r.bytes.value

/-- The rows of a tenant that are not deleted. -/
def liveFiles (rows : List FileRow) (tenant : String) : List FileRow :=
  rows.filter (fun r => r.tenant = tenant ∧ r.deleted = false)

theorem mem_liveFiles {rows : List FileRow} {tenant : String} {r : FileRow} :
  r ∈ liveFiles rows tenant ↔ r ∈ rows ∧ r.tenant = tenant ∧ r.deleted = false
  := by
  simp [liveFiles]

theorem liveFiles_cons_of_live {r : FileRow} (h : r.deleted = false) (rows : List FileRow) :
  liveFiles (r :: rows) r.tenant = r :: liveFiles rows r.tenant
  := by
  simp [liveFiles, h]

theorem liveFiles_cons_of_not
    {r : FileRow} {tenant : String} (h : ¬ (r.tenant = tenant ∧ r.deleted = false))
    (rows : List FileRow) :
  liveFiles (r :: rows) tenant = liveFiles rows tenant
  := by
  rw [liveFiles, List.filter_cons_of_neg (by simpa using h), liveFiles]

theorem liveFiles_perm {rows rows' : List FileRow} (h : rows.Perm rows') (tenant : String) :
  (liveFiles rows tenant).Perm (liveFiles rows' tenant)
  := h.filter _

/-- The bytes of the files of `live`, each counted once at the most a row records. -/
def distinctBytes (live : List FileRow) : ℕ :=
  ClassMax.classMaxSum FileRow.identity FileRow.size live

theorem distinctBytes_perm {live live' : List FileRow} (h : live.Perm live') :
  distinctBytes live = distinctBytes live'
  := ClassMax.classMaxSum_perm _ _ h

theorem distinctBytes_cons (r : FileRow) (live : List FileRow) :
  distinctBytes (r :: live) = distinctBytes live
    + (r.size - ClassMax.classMax FileRow.identity FileRow.size live r.identity)
  := ClassMax.classMaxSum_cons _ _ r live

end Votport
