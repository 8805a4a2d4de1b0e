import Votport.Foundation.Runs
import Votport.Foundation.Table
import Votport.Foundation.TokenBucket

/-!
# The rate of downloads

Each grant has a bucket of tokens, counted in parts so small that a nanosecond refills a whole
number of them.  A request for the whole grant costs one unit, and a request for one of its files
the unit divided by the number of files.  The number of files is looked up before the bucket is
locked, so the time of a request may be before that of another that comes to the bucket first.
When a grant has no bucket, buckets that were idle for the window are dropped, and it gets a full
one.
-/

namespace Votport.Budget

/-! ### Arithmetic -/

/-- `u128::saturating_mul`. -/
@[irreducible] def satMul (a b : ℕ) : ℕ := min (a * b) (2 ^ 128 - 1)

/-- `u128::saturating_add`. -/
@[irreducible] def satAdd (a b : ℕ) : ℕ := min (a + b) (2 ^ 128 - 1)

/-- A time in nanoseconds; seconds are 64 bits. -/
abbrev Instant := Fin (2 ^ 64 * 10 ^ 9)

/-- `saturating_duration_since`, in nanoseconds. -/
def durationSince (now last : Instant) : ℕ := now.val - last.val

/-! ### Buckets -/

/-- `DOWNLOAD_CAPACITY`. -/
@[irreducible] def downloadCapacity : ℕ := 2000

/-- `DOWNLOAD_WINDOW`, and `DOWNLOAD_WINDOW_NANOS`. -/
@[irreducible] def windowNanos : ℕ := 600000000000

/-- `DOWNLOAD_SCALE`. -/
@[irreducible] def downloadScale : ℕ := 1000000

/-- `DOWNLOAD_TABLE_CAP`. -/
def downloadTableCap : ℕ := 4096

/-- `DOWNLOAD_MAX_TOKENS`. -/
@[irreducible] def maxTokens : ℕ := downloadCapacity * downloadScale * windowNanos

/-- `DownloadBucket`, with its key. -/
structure DownloadBucket where
  key : String
  tokens : ℕ
  last : Instant
  fileCount : Option ℕ
deriving DecidableEq, Repr

/-- The buckets of `DownloadRate`. -/
abbrev Buckets := Table DownloadBucket.key

/-- The bucket that a key gets. -/
def freshBucket (key : String) (fileCount : Option ℕ) (now : Instant) : DownloadBucket :=
  { key := key, tokens := maxTokens, last := now, fileCount := fileCount }

/-- No other bucket was used last at an earlier time. -/
def IsOldest (buckets : Buckets) (victim : String) : Prop :=
  ∃ bucket ∈ buckets.rows, bucket.key = victim ∧ ∀ other ∈ buckets.rows, bucket.last ≤ other.last

instance (buckets : Buckets) (victim : String) : Decidable (IsOldest buckets victim) :=
  inferInstanceAs (Decidable (∃ bucket ∈ buckets.rows, _))

/-- The buckets that were used in the window. -/
def retained (buckets : Buckets) (now : Instant) : Buckets :=
  buckets.filter fun bucket => durationSince now bucket.last < windowNanos

/-- Whether a bucket has to be evicted for the key. -/
def Evicts (buckets : Buckets) (key : String) (now : Instant) : Prop :=
  buckets.find? key = none ∧ downloadTableCap ≤ (retained buckets now).rows.length

instance (buckets : Buckets) (key : String) (now : Instant) : Decidable (Evicts buckets key now) :=
  inferInstanceAs (Decidable (_ ∧ _))

/-- The table in which there is room for the key.  Which bucket is evicted depends on the order of
the table when several are equally old, so it is given. -/
def makeRoom (buckets : Buckets) (key : String) (now : Instant) (victim : String) :
    Option Buckets :=
  if buckets.find? key ≠ none then some buckets
  else if Evicts buckets key now then
    if IsOldest (retained buckets now) victim then some ((retained buckets now).erase victim)
    else none
  else some (retained buckets now)

/-- The bucket at a time, with the tokens that were refilled. -/
def DownloadBucket.refilled (bucket : DownloadBucket) (fileCount : Option ℕ) (now : Instant) :
    DownloadBucket :=
  let refill := satMul (durationSince now bucket.last) (downloadCapacity * downloadScale)
  { bucket with
    tokens := min (satAdd bucket.tokens refill) maxTokens
    last := max bucket.last now
    fileCount := bucket.fileCount.or fileCount }

/-- The bucket without the tokens, when it has as many. -/
def DownloadBucket.spend (bucket : DownloadBucket) (tokens : ℕ) : DownloadBucket × Bool :=
  if bucket.tokens < tokens then (bucket, false)
  else ({ bucket with tokens := bucket.tokens - tokens }, true)

/-- What a charge does with a bucket, and whether it is allowed. -/
def DownloadBucket.charge (bucket : DownloadBucket) (cost : ℕ) (fileCount : Option ℕ)
    (now : Instant) : DownloadBucket × Bool :=
  (bucket.refilled fileCount now).spend (satMul cost windowNanos)

/-- The bucket that a charge for the key is made with. -/
def bucketOf (buckets : Buckets) (key : String) (fileCount : Option ℕ) (now : Instant) :
    DownloadBucket :=
  (buckets.find? key).getD (freshBucket key fileCount now)

/-- What a charge does when there is room for its key. -/
def chargeKey (buckets : Buckets) (key : String) (cost : ℕ) (fileCount : Option ℕ)
    (now : Instant) : Buckets × DownloadBucket × Bool :=
  let charged := (bucketOf buckets key fileCount now).charge cost fileCount now
  (buckets.upsert charged.1, charged)

/-- `allow_at`, with the bucket after the charge.  Without sweeping no bucket is ever dropped. -/
def allowAt (sweeping : Bool) (buckets : Buckets) (key : String) (cost : ℕ)
    (fileCount : Option ℕ) (now : Instant) (victim : String) :
    Option (Buckets × DownloadBucket × Bool) :=
  (if sweeping then makeRoom buckets key now victim else some buckets).map fun buckets =>
    chargeKey buckets key cost fileCount now

/-! ### Requests -/

/-- The number of files that a charge for one of them goes by: the number that was looked up, or
else the one that is loaded. -/
def fileCount (cached : Option ℕ) (loaded : ℕ) : ℕ := cached.getD (max loaded 1)

/-- What a request for one file costs. -/
def individualCost (count : ℕ) : ℕ := downloadScale ⌈/⌉ count

/-- A charge that was made: the time it came with, the time of the bucket's clock then, whether it
was for one file, what it cost, and whether it was allowed. -/
structure Charge where
  key : String
  now : Instant
  clock : Instant
  individual : Bool
  cost : ℕ
  allowed : Bool
deriving DecidableEq, Repr

/-- The buckets, what was looked up for requests for one file, and the charges that were made. -/
structure BudgetState where
  buckets : Buckets
  looked : List (String × Option ℕ)
  charges : List Charge

/-- There are no buckets. -/
def BudgetState.start : BudgetState := { buckets := Table.empty, looked := [], charges := [] }

/-- What happens to the buckets: a charge for a whole grant; the number of files being looked up for
a request for one file; and the charge for such a request, any time later. -/
inductive BudgetCall
  | full (key : String) (now : Instant) (victim : String)
  | look (key : String)
  | individual (look : ℕ) (now : Instant) (victim : String)

/-- The charge of a call for its key, with the number of files that goes into the bucket. -/
def chargeCall (sweeping individual : Bool) (s : BudgetState) (key : String) (cost : ℕ)
    (fileCount : Option ℕ) (now : Instant) (victim : String) : Option BudgetState :=
  (allowAt sweeping s.buckets key cost fileCount now victim).map fun (buckets, bucket, allowed) =>
    { s with
      buckets := buckets
      charges := s.charges ++
        [{ key := key, now := now, clock := bucket.last, individual := individual, cost := cost,
           allowed := allowed }] }

/-- `allow`, and the two halves of `allow_individual_at`.  The number of files of a grant never
changes, so loading it gives the number of its key. -/
def budgetStep (files : String → ℕ) (sweeping : Bool) (s : BudgetState) :
    BudgetCall → Option BudgetState
  | .full key now victim => chargeCall sweeping false s key downloadScale none now victim
  | .look key =>
      some { s with
        looked := s.looked ++ [(key, (s.buckets.find? key).bind DownloadBucket.fileCount)] }
  | .individual look now victim =>
      s.looked[look]?.bind fun (key, cached) =>
        let count := fileCount cached (files key)
        chargeCall sweeping true s key (individualCost count) (some count) now victim

/-- The key that a call charges, and its time. -/
def charged (s : BudgetState) : BudgetCall → Option (String × Instant)
  | .full key now _ => some (key, now)
  | .look _ => none
  | .individual look now _ => s.looked[look]?.map fun (key, _) => (key, now)

/-- A charge for the key, when its bucket was dropped, comes with a time that is later by the window
than any time the key was charged with. -/
def Current (key : String) (s : BudgetState) (call : BudgetCall) : Prop :=
  ∀ charge ∈ charged s call, charge.1 = key → s.buckets.find? key = none →
    ∀ before ∈ s.charges, before.key = key → before.now.val + windowNanos ≤ charge.2.val

instance (key : String) (s : BudgetState) (call : BudgetCall) : Decidable (Current key s call) :=
  inferInstanceAs (Decidable (∀ charge ∈ charged s call, _))

end Votport.Budget
