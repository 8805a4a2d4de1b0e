import Votport.Serving.DownloadRate

/-!
# What a grant may download

A bucket never has more tokens than fit, and no product or sum of the code is cut.  While charges
for a key whose bucket was dropped come later by the window than those before, dropping buckets
changes no answer, and in any stretch of a window of the bucket's clock at most twice the capacity
is admitted.
-/

namespace Votport.Budget

variable {files : String → ℕ} {sweeping : Bool} {key key' : String} {buckets : Buckets}
  {s s' u u' : BudgetState} {call : BudgetCall}

/-! ### One bucket -/

/-- The tokens of a nanosecond. -/
def rate : ℕ := downloadCapacity * downloadScale

/-- The tokens and the clock of a bucket. -/
def DownloadBucket.bare (bucket : DownloadBucket) : TokenBucket :=
  { tokens := bucket.tokens, last := bucket.last.val }

/-- The costs of requests fit, and so do the tokens of any time that passes. -/
theorem fits {bucket : DownloadBucket} {cost : ℕ} (htokens : bucket.tokens ≤ maxTokens)
    (hcost : cost ≤ downloadScale) (now : Instant) :
  cost * windowNanos < 2 ^ 128
    ∧ bucket.tokens + durationSince now bucket.last * rate < 2 ^ 128
  := by
  have helapsed : durationSince now bucket.last < 2 ^ 64 * 10 ^ 9 :=
    lt_of_le_of_lt (Nat.sub_le ..) now.isLt
  simp only [maxTokens, downloadCapacity, downloadScale, windowNanos, rate] at *
  omega

theorem satMul_of_lt {a b : ℕ} (h : a * b < 2 ^ 128) : satMul a b = a * b := by
  rw [satMul]
  omega

theorem satAdd_of_lt {a b : ℕ} (h : a + b < 2 ^ 128) : satAdd a b = a + b := by
  rw [satAdd]
  omega

theorem bare_spend (bucket : DownloadBucket) (tokens : ℕ) :
  (bucket.spend tokens).1.bare
      = (if bucket.bare.tokens < tokens then (bucket.bare, false)
        else ({ bucket.bare with tokens := bucket.bare.tokens - tokens }, true)).1
    ∧ (bucket.spend tokens).2
      = (if bucket.bare.tokens < tokens then (bucket.bare, false)
        else ({ bucket.bare with tokens := bucket.bare.tokens - tokens }, true)).2
  := by
  by_cases hfew : bucket.tokens < tokens
  · simp only [DownloadBucket.spend, DownloadBucket.bare, hfew, if_true, and_self]
  · simp only [DownloadBucket.spend, DownloadBucket.bare, hfew, if_false, and_self]

/-- A charge does with the tokens and the clock what it does with any bucket. -/
theorem bare_charge {bucket : DownloadBucket} {cost : ℕ} (htokens : bucket.tokens ≤ maxTokens)
    (hcost : cost ≤ downloadScale) (count : Option ℕ) (now : Instant) :
  (bucket.charge cost count now).1.bare
      = (TokenBucket.charge maxTokens rate bucket.bare (cost * windowNanos) now.val).1
    ∧ (bucket.charge cost count now).2
      = (TokenBucket.charge maxTokens rate bucket.bare (cost * windowNanos) now.val).2
  := by
  obtain ⟨hcost, hrefill⟩ := fits htokens hcost now
  have helapsed : durationSince now bucket.last * (downloadCapacity * downloadScale) < 2 ^ 128 :=
    lt_of_le_of_lt (Nat.le_add_left ..) hrefill
  have hrefilled : (bucket.refilled count now).bare
      = TokenBucket.refill maxTokens rate bucket.bare now.val := by
    apply congrArg₂ TokenBucket.mk
    · show min (satAdd bucket.tokens
        (satMul (durationSince now bucket.last) (downloadCapacity * downloadScale))) maxTokens = _
      rw [satMul_of_lt helapsed]
      exact congrArg (min · maxTokens) (satAdd_of_lt hrefill)
    · exact Fin.coe_max ..
  rw [DownloadBucket.charge, satMul_of_lt hcost, TokenBucket.charge, ← hrefilled]
  exact bare_spend (bucket.refilled count now) (cost * windowNanos)

theorem spend_fst (bucket : DownloadBucket) (tokens : ℕ) :
  (bucket.spend tokens).1 = { bucket with tokens := (bucket.spend tokens).1.tokens }
    ∧ (bucket.spend tokens).1.tokens ≤ bucket.tokens
  := by
  rw [DownloadBucket.spend]
  split_ifs
  · exact ⟨rfl, le_rfl⟩
  · exact ⟨rfl, Nat.sub_le ..⟩

theorem refilled_fields (bucket : DownloadBucket) (count : Option ℕ) (now : Instant) :
  (bucket.refilled count now).key = bucket.key
    ∧ (bucket.refilled count now).fileCount = bucket.fileCount.or count
    ∧ (bucket.refilled count now).last = max bucket.last now
    ∧ (bucket.refilled count now).tokens ≤ maxTokens
  := by
  rw [DownloadBucket.refilled]
  refine ⟨?_, ?_, ?_, ?_⟩
  · with_reducible rfl
  · with_reducible rfl
  · with_reducible rfl
  · dsimp only
    exact Nat.min_le_right ..

theorem key_charge (bucket : DownloadBucket) (cost : ℕ) (count : Option ℕ) (now : Instant) :
  (bucket.charge cost count now).1.key = bucket.key
    ∧ (bucket.charge cost count now).1.fileCount = bucket.fileCount.or count
    ∧ (bucket.charge cost count now).1.last = max bucket.last now
  := by
  have hspend := (spend_fst (bucket.refilled count now) (satMul cost windowNanos)).1
  obtain ⟨hkey, hcount, hlast, _⟩ := refilled_fields bucket count now
  rw [DownloadBucket.charge, hspend]
  exact ⟨hkey, hcount, hlast⟩

theorem tokens_charge_le (bucket : DownloadBucket) (cost : ℕ) (count : Option ℕ) (now : Instant) :
  (bucket.charge cost count now).1.tokens ≤ maxTokens
  := (spend_fst (bucket.refilled count now) _).2.trans (refilled_fields bucket count now).2.2.2

/-! ### The table -/

theorem key_bucketOf (buckets : Buckets) (key : String) (count : Option ℕ) (now : Instant) :
  (bucketOf buckets key count now).key = key
  := by
  rw [bucketOf]
  cases hfind : buckets.find? key with
  | none => rfl
  | some bucket => exact (Table.find?_eq_some.mp hfind).2

/-- Making room drops buckets, and not that of the key itself. -/
theorem find?_makeRoom {now : Instant} {victim : String} {buckets' : Buckets}
    (h : makeRoom buckets key' now victim = some buckets') :
  (∀ bucket ∈ buckets'.rows, bucket ∈ buckets.rows)
    ∧ buckets'.find? key' = buckets.find? key'
    ∧ ∀ key, buckets'.find? key = none ∨ buckets'.find? key = buckets.find? key
  := by
  rw [makeRoom] at h
  have hfilter : ∀ key, (retained buckets now).find? key = none
      ∨ (retained buckets now).find? key = buckets.find? key := by
    intro key
    rw [retained, Table.find?_filter]
    cases buckets.find? key with
    | none => exact Or.inl rfl
    | some bucket =>
        by_cases hnew : durationSince now bucket.last < windowNanos
        · exact Or.inr (by simp [Option.filter, hnew])
        · exact Or.inl (by simp [Option.filter, hnew])
  split_ifs at h with hthere hevicts holdest
  · obtain rfl := Option.some.inj h
    exact ⟨fun _ h => h, rfl, fun _ => Or.inr rfl⟩
  · obtain rfl := Option.some.inj h
    refine ⟨fun _ h => (Table.mem_filter.mp (Table.mem_erase.mp h).1).1, ?_, ?_⟩
    · rw [hevicts.1, Table.find?_erase]
      split_ifs
      · rfl
      · exact (hfilter key').elim id fun hsame => hsame.trans hevicts.1
    · intro key
      rw [Table.find?_erase]
      split_ifs
      · exact Or.inl rfl
      · exact hfilter key
  · obtain rfl := Option.some.inj h
    have hnone := not_ne_iff.mp hthere
    refine ⟨fun _ h => (Table.mem_filter.mp h).1, ?_, hfilter⟩
    rw [hnone]
    exact (hfilter key').elim id fun hsame => hsame.trans hnone

/-- What a charge does to the table: the bucket of its key is charged, and another is as it was or
is dropped. -/
theorem allowAt_eq_some {cost : ℕ} {count : Option ℕ} {now : Instant} {victim : String}
    {buckets' : Buckets} {bucket : DownloadBucket} {allowed : Bool}
    (h : allowAt sweeping buckets key' cost count now victim = some (buckets', bucket, allowed)) :
  (bucketOf buckets key' count now).charge cost count now = (bucket, allowed)
    ∧ (∀ other ∈ buckets'.rows, other = bucket ∨ other ∈ buckets.rows)
    ∧ buckets'.find? key' = some bucket
    ∧ ∀ key, key ≠ key' → buckets'.find? key = buckets.find? key
      ∨ sweeping = true ∧ buckets'.find? key = none
  := by
  obtain ⟨middle, hroom, hcharge⟩ := Option.map_eq_some_iff.mp h
  have hmiddle : (∀ bucket ∈ middle.rows, bucket ∈ buckets.rows)
      ∧ middle.find? key' = buckets.find? key'
      ∧ ∀ key, middle.find? key = buckets.find? key
        ∨ sweeping = true ∧ middle.find? key = none := by
    cases sweeping with
    | true =>
        obtain ⟨hsub, hsame, hother⟩ := find?_makeRoom hroom
        exact ⟨hsub, hsame, fun key => (hother key).symm.imp_right fun hnone => ⟨rfl, hnone⟩⟩
    | false =>
        obtain rfl := Option.some.inj hroom
        exact ⟨fun _ h => h, rfl, fun _ => Or.inl rfl⟩
  obtain ⟨hsub, hsame, hother⟩ := hmiddle
  have hof : bucketOf middle key' count now = bucketOf buckets key' count now := by
    rw [bucketOf, bucketOf, hsame]
  rw [chargeKey, hof] at hcharge
  obtain ⟨hbuckets, hcharged⟩ := Prod.mk.inj hcharge
  rw [hcharged] at hbuckets
  subst hbuckets
  have hkey : bucket.key = key' := by
    have hkey := (key_charge (bucketOf buckets key' count now) cost count now).1
    rw [hcharged] at hkey
    exact hkey.trans (key_bucketOf buckets key' count now)
  refine ⟨hcharged, ?_, ?_, ?_⟩
  · intro other hmem
    exact (Table.mem_upsert.mp hmem).imp_right fun hmem => hsub other hmem.1
  · rw [Table.find?_upsert, if_pos hkey.symm]
  · intro key hne
    rw [Table.find?_upsert, if_neg (by rw [hkey]; exact hne)]
    exact hother key

/-! ### Costs -/

/-- What a request costs. -/
def costOf (files : String → ℕ) (key : String) (individual : Bool) : ℕ :=
  if individual then individualCost (max (files key) 1) else downloadScale

/-- The number of files that a request brings to the bucket. -/
def countOf (files : String → ℕ) (key : String) (individual : Bool) : Option ℕ :=
  if individual then some (max (files key) 1) else none

theorem individualCost_bounds {count : ℕ} (hcount : 0 < count) :
  individualCost count ≤ downloadScale ∧ downloadScale ≤ count * individualCost count
    ∧ count * individualCost count ≤ downloadScale + count
  := by
  have hcost : individualCost count = (downloadScale + count - 1) / count :=
    Nat.ceilDiv_eq_add_pred_div ..
  have hdiv := Nat.div_add_mod (downloadScale + count - 1) count
  have hmod := Nat.mod_lt (downloadScale + count - 1) hcount
  have hscale : 0 < downloadScale := by simp [downloadScale]
  refine ⟨?_, ?_, ?_⟩
  · rw [hcost]
    apply Nat.div_le_of_le_mul
    have hmul : count - 1 ≤ (count - 1) * downloadScale := Nat.le_mul_of_pos_right _ hscale
    have hsplit : count * downloadScale = (count - 1) * downloadScale + downloadScale := by
      rw [← Nat.succ_mul]
      congr 1
      omega
    omega
  · rw [hcost]
    omega
  · rw [hcost]
    omega

theorem costOf_le (files : String → ℕ) (key : String) (individual : Bool) :
  costOf files key individual ≤ downloadScale
  := by
  rw [costOf]
  split_ifs
  · exact (individualCost_bounds (by omega)).1
  · exact le_rfl

/-- The numbers of files that are kept are those of the grants, and what charges cost goes by these.
-/
structure Sound (files : String → ℕ) (s : BudgetState) : Prop where
  tokens : ∀ bucket ∈ s.buckets.rows, bucket.tokens ≤ maxTokens
  counts : ∀ bucket ∈ s.buckets.rows, ∀ count ∈ bucket.fileCount, count = max (files bucket.key) 1
  looked : ∀ look ∈ s.looked, ∀ count ∈ look.2, count = max (files look.1) 1
  costs : ∀ charge ∈ s.charges, charge.cost = costOf files charge.key charge.individual

theorem Sound.start (files : String → ℕ) : Sound files BudgetState.start where
  tokens _ h := by cases h
  counts _ h := by cases h
  looked _ h := by cases h
  costs _ h := by cases h

/-- The charge of a request for one file goes by the number of files of its grant. -/
theorem Sound.individual (hs : Sound files s) {look : ℕ} {cached : Option ℕ}
    (hlook : s.looked[look]? = some (key, cached)) (now : Instant) (victim : String) :
  budgetStep files sweeping s (.individual look now victim)
    = chargeCall sweeping true s key (costOf files key true) (countOf files key true) now victim
  := by
  have hcount : fileCount cached (files key) = max (files key) 1 := by
    cases hcached : cached with
    | none => rfl
    | some count => exact hs.looked _ (List.mem_of_getElem? hlook) count hcached
  rw [budgetStep, hlook, Option.bind_some]
  simp only [hcount]
  rfl

theorem chargeCall_eq_some {individual : Bool} {cost : ℕ} {count : Option ℕ} {now : Instant}
    {victim : String} (h : chargeCall sweeping individual s key cost count now victim = some s') :
  ∃ buckets bucket allowed,
    allowAt sweeping s.buckets key cost count now victim = some (buckets, bucket, allowed)
      ∧ s' = { buckets := buckets, looked := s.looked, charges := s.charges ++
          [{ key := key, now := now, clock := bucket.last, individual := individual, cost := cost,
             allowed := allowed }] }
  := by
  obtain ⟨⟨buckets, bucket, allowed⟩, hallow, rfl⟩ := Option.map_eq_some_iff.mp h
  exact ⟨buckets, bucket, allowed, hallow, rfl⟩

/-- A call looks up a number of files, or charges a key by the number of its files, in every state
in which the same keys were looked up. -/
theorem Sound.step_cases (hs : Sound files s) (h : budgetStep files sweeping s call = some s') :
  (∃ key, call = .look key ∧ s' = { s with
      looked := s.looked ++ [(key, (s.buckets.find? key).bind DownloadBucket.fileCount)] })
  ∨ ∃ individual key now victim, charged s call = some (key, now)
      ∧ chargeCall sweeping individual s key (costOf files key individual)
          (countOf files key individual) now victim = some s'
      ∧ ∀ u sweeping, Sound files u → s.looked.map Prod.fst = u.looked.map Prod.fst →
          budgetStep files sweeping u call = chargeCall sweeping individual u key
            (costOf files key individual) (countOf files key individual) now victim
  := by
  cases call with
  | full key now victim => exact Or.inr ⟨false, key, now, victim, rfl, h, fun _ _ _ _ => rfl⟩
  | look key => exact Or.inl ⟨key, rfl, (Option.some.inj h).symm⟩
  | individual look now victim =>
      right
      cases hlook : s.looked[look]? with
      | none =>
          rw [budgetStep, hlook] at h
          cases h
      | some found =>
          obtain ⟨key, cached⟩ := found
          rw [hs.individual hlook] at h
          refine ⟨true, key, now, victim, by rw [charged, hlook]; rfl, h, ?_⟩
          intro u sweeping hu hsame
          have hkey := congrArg (·[look]?) hsame
          simp only [List.getElem?_map, hlook, Option.map_some] at hkey
          obtain ⟨⟨_, cached'⟩, hlook', rfl⟩ := Option.map_eq_some_iff.mp hkey.symm
          exact hu.individual hlook' now victim

theorem Sound.bucketOf (hs : Sound files s) (key : String) (individual : Bool) (now : Instant) :
  (bucketOf s.buckets key (countOf files key individual) now).tokens ≤ maxTokens
    ∧ ∀ count ∈ (Budget.bucketOf s.buckets key (countOf files key individual) now).fileCount,
        count = max (files key) 1
  := by
  rw [Budget.bucketOf]
  cases hfind : s.buckets.find? key with
  | none =>
      refine ⟨le_rfl, ?_⟩
      intro count hcount
      cases individual with
      | true => exact (Option.some.inj hcount).symm
      | false => cases hcount
  | some bucket =>
      obtain ⟨hmem, rfl⟩ := Table.find?_eq_some.mp hfind
      exact ⟨hs.tokens bucket hmem, hs.counts bucket hmem⟩

theorem Sound.step (hs : Sound files s) (h : budgetStep files sweeping s call = some s') :
  Sound files s'
  := by
  obtain ⟨key, rfl, rfl⟩ | ⟨individual, key, now, victim, _, hcharge, _⟩ := hs.step_cases h
  · refine ⟨hs.tokens, hs.counts, ?_, hs.costs⟩
    intro look hlook
    obtain hlook | hlook := List.mem_append.mp hlook
    · exact hs.looked look hlook
    · rw [List.mem_singleton.mp hlook]
      intro count hcount
      obtain ⟨bucket, hfind, hkept⟩ := Option.bind_eq_some_iff.mp hcount
      obtain ⟨hmem, hkey⟩ := Table.find?_eq_some.mp hfind
      have hsame := hs.counts bucket hmem count hkept
      rw [hkey] at hsame
      exact hsame
  · obtain ⟨buckets, bucket, allowed, hallow, rfl⟩ := chargeCall_eq_some hcharge
    obtain ⟨hbucket, hrows, _, _⟩ := allowAt_eq_some hallow
    obtain ⟨htokens, hcounts⟩ := hs.bucketOf key individual now
    have hkey := key_charge (Budget.bucketOf s.buckets key (countOf files key individual) now)
      (costOf files key individual) (countOf files key individual) now
    have hle := tokens_charge_le (Budget.bucketOf s.buckets key (countOf files key individual) now)
      (costOf files key individual) (countOf files key individual) now
    rw [hbucket, key_bucketOf] at hkey
    rw [hbucket] at hle
    refine ⟨?_, ?_, hs.looked, ?_⟩
    · intro other hother
      obtain rfl | hother := hrows other hother
      · exact hle
      · exact hs.tokens other hother
    · intro other hother
      obtain rfl | hother := hrows other hother
      · intro count hcount
        rw [hkey.2.1, Option.mem_def, Option.or_eq_some_iff] at hcount
        rw [hkey.1]
        obtain hcount | ⟨_, hcount⟩ := hcount
        · exact hcounts count hcount
        · cases individual with
          | true => exact (Option.some.inj hcount).symm
          | false => cases hcount
      · exact hs.counts other hother
    · intro charge hmem
      obtain hmem | hmem := List.mem_append.mp hmem
      · exact hs.costs charge hmem
      · rw [List.mem_singleton.mp hmem]

/-! ### Buckets that are never dropped -/

/-- The charges for the key. -/
def chargesOf (key : String) (charges : List Charge) : List Charge :=
  charges.filter fun charge => charge.key = key

/-- What the charges for the key took, by the clock of its bucket. -/
def takenOf (key : String) (charges : List Charge) : List TokenBucket.Taken :=
  (chargesOf key charges).map fun charge =>
    (charge.clock.val, if charge.allowed then charge.cost * windowNanos else 0)

theorem chargesOf_concat (charges : List Charge) (charge : Charge) :
  chargesOf key (charges ++ [charge])
    = chargesOf key charges ++ if charge.key = key then [charge] else []
  := by
  rw [chargesOf, List.filter_append, chargesOf]
  split_ifs with h <;> simp [h]

/-- Without sweeping the bucket of a key has taken what the charges for it took, and its clock is
the latest of their times. -/
inductive Lone (key : String) (u : BudgetState) : Prop
  | absent (find : u.buckets.find? key = none) (charges : chargesOf key u.charges = [])
  | present (bucket : DownloadBucket) (find : u.buckets.find? key = some bucket)
      (spent : TokenBucket.Spent maxTokens rate bucket.bare (takenOf key u.charges))
      (past : ∀ charge ∈ chargesOf key u.charges, charge.now ≤ bucket.last)
      (latest : ∃ charge ∈ chargesOf key u.charges, charge.now = bucket.last)

theorem Lone.start (key : String) : Lone key BudgetState.start := .absent rfl rfl

/-- What is known of the bucket that a charge for the key is made with. -/
theorem Lone.bucketOf (h : Lone key u) (count : Option ℕ) (now : Instant) :
  TokenBucket.Spent maxTokens rate (bucketOf u.buckets key count now).bare (takenOf key u.charges)
    ∧ ∀ charge ∈ chargesOf key u.charges,
        charge.now ≤ (Budget.bucketOf u.buckets key count now).last
  := by
  rw [Budget.bucketOf]
  cases h with
  | absent find charges =>
      rw [find, takenOf, charges]
      exact ⟨TokenBucket.Spent.nil le_rfl, fun _ h => by cases h⟩
  | present bucket find spent past latest =>
      rw [find]
      exact ⟨spent, past⟩

theorem Lone.charge {individual : Bool} {now : Instant} {victim : String} (h : Lone key u)
    (hs : Sound files u)
    (hcharge : chargeCall false individual u key' (costOf files key' individual)
      (countOf files key' individual) now victim = some u') :
  Lone key u'
  := by
  obtain ⟨buckets, bucket, allowed, hallow, rfl⟩ := chargeCall_eq_some hcharge
  obtain ⟨hbucket, _, hfind, hother⟩ := allowAt_eq_some hallow
  by_cases hkey : key = key'
  · subst hkey
    obtain ⟨hspent, hpast⟩ := h.bucketOf (countOf files key individual) now
    have htokens := (hs.bucketOf key individual now).1
    obtain ⟨hbare, hallowed⟩ := bare_charge htokens (costOf_le files key individual)
      (countOf files key individual) now
    have hlast := (key_charge (Budget.bucketOf u.buckets key (countOf files key individual) now)
      (costOf files key individual) (countOf files key individual) now).2.2
    rw [hbucket] at hbare hallowed hlast
    have hclock : bucket.last.val = max (Budget.bucketOf u.buckets key
        (countOf files key individual) now).bare.last now.val := by
      rw [hlast]
      exact Fin.coe_max ..
    apply Lone.present bucket hfind
    · have hcharged := hspent.charge (costOf files key individual * windowNanos) now.val
      rw [← hbare, ← hclock] at hcharged
      rw [takenOf, chargesOf_concat, if_pos rfl, List.map_append, List.map_singleton]
      rw [TokenBucket.taken, ← hallowed] at hcharged
      exact hcharged
    · intro charge hmem
      rw [chargesOf_concat, if_pos rfl] at hmem
      rw [hlast]
      obtain hmem | hmem := List.mem_append.mp hmem
      · exact (hpast charge hmem).trans (le_max_left ..)
      · rw [List.mem_singleton.mp hmem]
        exact le_max_right ..
    · rw [chargesOf_concat, if_pos rfl, hlast]
      obtain hle | hle := le_total
        (Budget.bucketOf u.buckets key (countOf files key individual) now).last now
      · exact ⟨_, List.mem_append_right _ (List.mem_singleton_self _), (max_eq_right hle).symm⟩
      · rw [max_eq_left hle]
        cases h with
        | absent find charges =>
            refine ⟨_, List.mem_append_right _ (List.mem_singleton_self _), ?_⟩
            rw [Budget.bucketOf, find]
            rfl
        | present bucket' find spent past latest =>
            obtain ⟨charge, hmem, hnow⟩ := latest
            refine ⟨charge, List.mem_append_left _ hmem, ?_⟩
            rw [Budget.bucketOf, find]
            exact hnow
  · have hsame := (hother key hkey).resolve_right fun h => Bool.false_ne_true h.1
    have hcharges : chargesOf key (u.charges ++
        [{ key := key', now := now, clock := bucket.last, individual := individual,
           cost := costOf files key' individual, allowed := allowed }])
        = chargesOf key u.charges := by
      rw [chargesOf_concat, if_neg (Ne.symm hkey), List.append_nil]
    cases h with
    | absent find charges => exact .absent (hsame.trans find) (hcharges.trans charges)
    | present bucket' find spent past latest =>
        apply Lone.present bucket' (hsame.trans find)
        · rw [takenOf, hcharges]
          exact spent
        · rw [hcharges]
          exact past
        · rw [hcharges]
          exact latest

/-! ### Dropping buckets -/

/-- What a run and one that drops no bucket have in common for a key. -/
structure Matches (key : String) (s u : BudgetState) : Prop where
  looked : s.looked.map Prod.fst = u.looked.map Prod.fst
  charges : chargesOf key s.charges = chargesOf key u.charges
  same : ∀ bucket ∈ s.buckets.find? key, ∃ other ∈ u.buckets.find? key, other.bare = bucket.bare

theorem Matches.refl (key : String) (s : BudgetState) : Matches key s s where
  looked := rfl
  charges := rfl
  same bucket h := ⟨bucket, h, rfl⟩

/-- A bucket that was dropped when it was idle would have been full. -/
theorem Matches.refill (h : Matches key s u) (hlone : Lone key u) (count : Option ℕ) {now : Instant}
    (hcurrent : s.buckets.find? key = none → ∀ before ∈ s.charges, before.key = key →
      before.now.val + windowNanos ≤ now.val) :
  TokenBucket.refill maxTokens rate (bucketOf s.buckets key count now).bare now.val
    = TokenBucket.refill maxTokens rate (bucketOf u.buckets key count now).bare now.val
  := by
  cases hfind : s.buckets.find? key with
  | some bucket =>
      obtain ⟨other, hother, hbare⟩ := h.same bucket hfind
      rw [bucketOf, hfind, bucketOf, hother]
      exact congrArg (TokenBucket.refill maxTokens rate · now.val) hbare.symm
  | none =>
      cases hlone with
      | absent find charges => rw [bucketOf, hfind, bucketOf, find]
      | present bucket find spent past latest =>
          obtain ⟨charge, hmem, hnow⟩ := latest
          rw [← h.charges] at hmem
          obtain ⟨hmem, hkey⟩ := List.mem_filter.mp hmem
          have hidle : bucket.bare.last + windowNanos ≤ now.val := by
            rw [DownloadBucket.bare, ← hnow]
            exact hcurrent hfind charge hmem (of_decide_eq_true hkey)
          have hwindow : maxTokens ≤ windowNanos * rate := by
            rw [maxTokens, rate]
            exact (Nat.mul_comm ..).le
          rw [bucketOf, hfind, bucketOf, find, Option.getD_some, Option.getD_none,
            TokenBucket.refill_of_idle hwindow hidle]
          simp [TokenBucket.refill, freshBucket, DownloadBucket.bare]

theorem charge_congr {bucket bucket' : TokenBucket} {cost now : ℕ}
    (h : TokenBucket.refill maxTokens rate bucket now
      = TokenBucket.refill maxTokens rate bucket' now) :
  TokenBucket.charge maxTokens rate bucket cost now
    = TokenBucket.charge maxTokens rate bucket' cost now
  := by
  rw [TokenBucket.charge, TokenBucket.charge, h]

/-- A charge that is made while buckets are dropped is made when none is dropped. -/
theorem Matches.charge {individual : Bool} {now : Instant} {victim : String}
    (h : Matches key s u) (hlone : Lone key u) (hs : Sound files s) (hu : Sound files u)
    (hcurrent : key' = key → s.buckets.find? key = none →
      ∀ before ∈ s.charges, before.key = key → before.now.val + windowNanos ≤ now.val)
    (hcharge : chargeCall sweeping individual s key' (costOf files key' individual)
      (countOf files key' individual) now victim = some s') :
  ∃ u', chargeCall false individual u key' (costOf files key' individual)
      (countOf files key' individual) now victim = some u' ∧ Matches key s' u'
  := by
  obtain ⟨buckets, bucket, allowed, hallow, rfl⟩ := chargeCall_eq_some hcharge
  obtain ⟨hbucket, _, hfind, hother⟩ := allowAt_eq_some hallow
  obtain ⟨u', hu'⟩ : ∃ u', chargeCall false individual u key' (costOf files key' individual)
      (countOf files key' individual) now victim = some u' := ⟨_, rfl⟩
  refine ⟨u', hu', ?_⟩
  obtain ⟨buckets', bucket', allowed', hallow', rfl⟩ := chargeCall_eq_some hu'
  obtain ⟨hbucket', _, hfind', hother'⟩ := allowAt_eq_some hallow'
  by_cases hkey : key' = key
  · subst hkey
    have hrefill := h.refill hlone (countOf files key' individual) (hcurrent rfl)
    have hcost := costOf_le files key' individual
    obtain ⟨hbare, hallowed⟩ := bare_charge (hs.bucketOf key' individual now).1 hcost
      (countOf files key' individual) now
    obtain ⟨hbare', hallowed'⟩ := bare_charge (hu.bucketOf key' individual now).1 hcost
      (countOf files key' individual) now
    rw [hbucket, charge_congr hrefill] at hbare hallowed
    rw [hbucket'] at hbare' hallowed'
    have hsame : bucket.bare = bucket'.bare := hbare.trans hbare'.symm
    have hclock : bucket.last = bucket'.last := Fin.ext (congrArg TokenBucket.last hsame)
    obtain rfl : allowed = allowed' := hallowed.trans hallowed'.symm
    refine ⟨h.looked, ?_, ?_⟩
    · rw [chargesOf_concat, chargesOf_concat, h.charges, hclock]
    · intro found hfound
      obtain rfl := Option.some.inj (hfind.symm.trans hfound)
      exact ⟨bucket', hfind', hsame.symm⟩
  · have hne : key ≠ key' := Ne.symm hkey
    refine ⟨h.looked, ?_, ?_⟩
    · rw [chargesOf_concat, chargesOf_concat, if_neg hkey, if_neg hkey, h.charges]
    · intro found hfound
      have hunswept := (hother' key hne).resolve_right fun h => Bool.false_ne_true h.1
      obtain hsame | ⟨_, hnone⟩ := hother key hne
      · obtain ⟨other, hmem, hbare⟩ := h.same found (hsame.symm.trans hfound)
        exact ⟨other, hunswept.trans hmem, hbare⟩
      · rw [hnone] at hfound
        cases hfound

/-- A run in which dropped buckets come back late is one of a table that drops none. -/
theorem Matches.run {calls : List BudgetCall} (h : Matches key s u) (hlone : Lone key u)
    (hs : Sound files s) (hu : Sound files u)
    (hrun : Runs.run (budgetStep files true) s calls = some s')
    (hcalls : Runs.Along (budgetStep files true) (Current key) s calls) :
  ∃ u', Runs.run (budgetStep files false) u calls = some u' ∧ Matches key s' u' ∧ Lone key u'
  := by
  induction calls generalizing s u with
  | nil =>
      cases hrun
      exact ⟨u, rfl, h, hlone⟩
  | cons call calls ih =>
      obtain ⟨t, hstep, hrun⟩ := (Runs.run_cons _).mp hrun
      obtain ⟨hcurrent, hcalls⟩ := hcalls
      have hcalls := hcalls t hstep
      obtain ⟨v, hv, hmatches, hlone'⟩ : ∃ v, budgetStep files false u call = some v
          ∧ Matches key t v ∧ Lone key v := by
        obtain ⟨other, rfl, rfl⟩ | ⟨individual, other, now, victim, hcharged, hcharge, hunswept⟩ :=
          hs.step_cases hstep
        · refine ⟨_, rfl, ⟨?_, h.charges, h.same⟩, ?_⟩
          · rw [List.map_append, List.map_append, h.looked]
            rfl
          · cases hlone with
            | absent find charges => exact .absent find charges
            | present bucket find spent past latest =>
                exact .present bucket find spent past latest
        · obtain ⟨v, hv, hmatches⟩ := h.charge hlone hs hu
            (fun hkey => hcurrent _ hcharged hkey) hcharge
          refine ⟨v, ?_, hmatches, hlone.charge hu hv⟩
          rw [hunswept u false hu h.looked, hv]
      obtain ⟨u', hu', hrest⟩ := ih hmatches hlone' (hs.step hstep) (hu.step hv) hrun hcalls
      exact ⟨u', (Runs.run_cons _).mpr ⟨v, hv, hu'⟩, hrest⟩

/-! ### Runs -/

/-- What the charges of the key that were allowed cost, while the clock of its bucket was in the
window from the start. -/
def admittedIn (key : String) (start : ℕ) (charges : List Charge) : ℕ :=
  (((chargesOf key charges).filter fun charge =>
    charge.allowed ∧ start ≤ charge.clock.val ∧ charge.clock.val < start + windowNanos).map
      Charge.cost).sum

/-- What is taken in a stretch is the cost of what was allowed in it, in parts. -/
theorem sum_taken (start length parts : ℕ) (charges : List Charge) :
  TokenBucket.takenIn start length (charges.map fun charge =>
      (charge.clock.val, if charge.allowed then charge.cost * parts else 0))
    = ((charges.filter fun charge => charge.allowed ∧ start ≤ charge.clock.val
        ∧ charge.clock.val < start + length).map Charge.cost).sum * parts
  := by
  induction charges with
  | nil => exact (Nat.zero_mul _).symm
  | cons charge charges ih =>
      rw [TokenBucket.takenIn] at ih ⊢
      rw [List.map_cons, List.filter_cons, List.filter_cons]
      by_cases hin : start ≤ charge.clock.val ∧ charge.clock.val < start + length
      · rw [if_pos (decide_eq_true hin), List.map_cons, List.sum_cons, ih]
        by_cases hallowed : charge.allowed = true
        · rw [if_pos (decide_eq_true ⟨hallowed, hin⟩), List.map_cons, List.sum_cons, Nat.add_mul,
            if_pos hallowed]
        · rw [if_neg hallowed, if_neg fun h => hallowed (of_decide_eq_true h).1]
          exact Nat.zero_add _
      · rw [if_neg fun h => hin (of_decide_eq_true h),
          if_neg fun h => hin (of_decide_eq_true h).2, ih]

theorem takenIn_takenOf (key : String) (start : ℕ) (charges : List Charge) :
  TokenBucket.takenIn start windowNanos (takenOf key charges)
    = admittedIn key start charges * windowNanos
  := sum_taken start windowNanos windowNanos (chargesOf key charges)

/-- In every run, buckets have no more tokens than fit, no product or sum is cut, and requests for
each file of a grant once cost the unit, or a little more.  While the charges for a key come late
when its bucket was dropped, in any window of the bucket's clock at most twice the capacity is
admitted, and the answers are those of a table that drops no bucket. -/
theorem downloads_limited (files : String → ℕ) (calls : List BudgetCall) (s : BudgetState)
    (hrun : Runs.run (budgetStep files true) BudgetState.start calls = some s) :
  (∀ bucket ∈ s.buckets.rows, bucket.tokens ≤ maxTokens
    ∧ ∀ now : Instant, bucket.tokens + durationSince now bucket.last * rate < 2 ^ 128)
  ∧ (∀ charge ∈ s.charges, charge.cost * windowNanos < 2 ^ 128)
  ∧ (∀ key requests, (∀ charge ∈ requests, charge ∈ s.charges ∧ charge.key = key
        ∧ charge.individual = true) → requests.length = files key → requests ≠ [] →
      downloadScale ≤ (requests.map Charge.cost).sum
        ∧ (requests.map Charge.cost).sum ≤ downloadScale + files key)
  ∧ ∀ key, Runs.Along (budgetStep files true) (Current key) BudgetState.start calls →
      (∀ start, admittedIn key start s.charges ≤ 2 * (downloadCapacity * downloadScale))
      ∧ ∃ u, Runs.run (budgetStep files false) BudgetState.start calls = some u
        ∧ (chargesOf key s.charges).map Charge.allowed
          = (chargesOf key u.charges).map Charge.allowed
  := by
  have hsound : Sound files s := by
    apply Runs.run_invariant _ (Sound.start files) hrun
    intro s call s' hs hstep
    exact hs.step hstep
  refine ⟨?_, ?_, ?_, ?_⟩
  · intro bucket hbucket
    have htokens := hsound.tokens bucket hbucket
    exact ⟨htokens, fun now => (fits htokens (Nat.zero_le _) now).2⟩
  · intro charge hcharge
    rw [hsound.costs charge hcharge]
    have hfull : (freshBucket "" none 0).tokens ≤ maxTokens := le_rfl
    exact (fits hfull (costOf_le ..) 0).1
  · intro key requests hrequests hlength hne
    have hcost : ∀ cost ∈ requests.map Charge.cost, cost = individualCost (files key) := by
      intro cost hcost
      obtain ⟨charge, hmem, rfl⟩ := List.mem_map.mp hcost
      obtain ⟨hthere, rfl, hindividual⟩ := hrequests charge hmem
      have hpos : 0 < requests.length := List.length_pos_of_mem hmem
      rw [hsound.costs charge hthere, costOf, if_pos hindividual, Nat.max_eq_left (by omega)]
    have hpos : 0 < files key := by
      rw [← hlength]
      exact List.length_pos_iff.mpr hne
    rw [List.eq_replicate_of_mem hcost, List.sum_replicate, List.length_map, hlength, smul_eq_mul]
    exact (individualCost_bounds hpos).2
  · intro key hcalls
    obtain ⟨u, hu, hmatches, hlone⟩ := (Matches.refl key BudgetState.start).run (Lone.start key)
      (Sound.start files) (Sound.start files) hrun hcalls
    refine ⟨?_, u, hu, by rw [hmatches.charges]⟩
    intro start
    have hbound : TokenBucket.takenIn start windowNanos (takenOf key s.charges)
        ≤ maxTokens + windowNanos * rate := by
      rw [takenOf, hmatches.charges, ← takenOf]
      exact (hlone.bucketOf none 0).1.bounded start windowNanos
    rw [takenIn_takenOf] at hbound
    simp only [maxTokens, downloadCapacity, downloadScale, windowNanos, rate] at hbound ⊢
    omega

/-! ### A grant of three files -/

attribute [local semireducible] satMul satAdd downloadCapacity downloadScale windowNanos maxTokens

/-- The whole grant and two of its files are requested; a number of files is looked up before the
charges, and used after them.  Another grant drops the bucket a window later, and then the whole
grant is requested again. -/
def sampleCalls : List BudgetCall :=
  [.look "grant", .full "grant" 7 "", .individual 0 5 "", .look "grant", .individual 1 9 "",
    .full "other" 600000000009 "", .full "grant" 600000000010 ""]

/-- The bucket of the grant is dropped, and all its requests are allowed. -/
theorem sampleCalls_run :
  (Runs.run (budgetStep (fun _ => 3) true) BudgetState.start (sampleCalls.take 6)).any
      (fun s => (s.buckets.find? "grant").isNone) = true
    ∧ (Runs.run (budgetStep (fun _ => 3) true) BudgetState.start sampleCalls).any
      (fun s => (chargesOf "grant" s.charges).map Charge.allowed = [true, true, true, true]) = true
  := by decide

theorem downloads_limited_three :
  ∃ s, Runs.run (budgetStep (fun _ => 3) true) BudgetState.start sampleCalls = some s
    ∧ (∀ bucket ∈ s.buckets.rows, bucket.tokens ≤ maxTokens)
    ∧ (∀ start, admittedIn "grant" start s.charges ≤ 2 * (downloadCapacity * downloadScale))
    ∧ ∃ u, Runs.run (budgetStep (fun _ => 3) false) BudgetState.start sampleCalls = some u
      ∧ (chargesOf "grant" u.charges).map Charge.allowed = [true, true, true, true]
  := by
  obtain ⟨s, hrun, hallowed⟩ := (Option.any_eq_true ..).mp sampleCalls_run.2
  have hcurrent : Runs.Along (budgetStep (fun _ => 3) true) (Current "grant") BudgetState.start
      sampleCalls := by decide
  obtain ⟨htokens, _, _, hlimited⟩ := downloads_limited (fun _ => 3) sampleCalls s hrun
  obtain ⟨hbound, u, hu, hsame⟩ := hlimited "grant" hcurrent
  exact ⟨s, hrun, fun bucket hbucket => (htokens bucket hbucket).1, hbound, u, hu,
    hsame.symm.trans (of_decide_eq_true hallowed)⟩

end Votport.Budget
