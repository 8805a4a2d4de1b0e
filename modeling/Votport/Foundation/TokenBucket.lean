import Mathlib

/-!
# Token buckets

A bucket has tokens, up to a capacity, and the time of its clock.  A charge sets the clock to its
time, unless the clock is later, adds the tokens of the time that has passed, and takes its cost
when there are as many tokens.  In any stretch of time of the clock no more is taken than the
capacity and the tokens of that time.
-/

/-- The tokens of a bucket, and the time of its clock. -/
structure TokenBucket where
  tokens : ℕ
  last : ℕ
deriving DecidableEq, Repr

namespace TokenBucket

variable {capacity rate : ℕ} {bucket : TokenBucket}

/-- The bucket at a time; the clock does not go back. -/
def refill (capacity rate : ℕ) (bucket : TokenBucket) (now : ℕ) : TokenBucket :=
  { tokens := min (bucket.tokens + (now - bucket.last) * rate) capacity
    last := max bucket.last now }

/-- The bucket after a charge, and whether there were enough tokens. -/
def charge (capacity rate : ℕ) (bucket : TokenBucket) (cost now : ℕ) : TokenBucket × Bool :=
  let bucket := refill capacity rate bucket now
  if bucket.tokens < cost then (bucket, false)
  else ({ bucket with tokens := bucket.tokens - cost }, true)

theorem last_charge (capacity rate : ℕ) (bucket : TokenBucket) (cost now : ℕ) :
  (charge capacity rate bucket cost now).1.last = max bucket.last now
  := by
  rw [charge]
  split_ifs <;> rfl

theorem tokens_charge_le (bucket : TokenBucket) (cost now : ℕ) :
  (charge capacity rate bucket cost now).1.tokens ≤ capacity
  := by
  rw [charge]
  split_ifs
  · exact Nat.min_le_right ..
  · exact (Nat.sub_le ..).trans (Nat.min_le_right ..)

/-- What a charge takes of the tokens: nothing, or its cost. -/
def taken (capacity rate : ℕ) (bucket : TokenBucket) (cost now : ℕ) : ℕ :=
  if (charge capacity rate bucket cost now).2 then cost else 0

theorem tokens_add_taken (capacity rate : ℕ) (bucket : TokenBucket) (cost now : ℕ) :
  (charge capacity rate bucket cost now).1.tokens + taken capacity rate bucket cost now
    = min (bucket.tokens + (now - bucket.last) * rate) capacity
  := by
  rw [taken, charge]
  by_cases h : (refill capacity rate bucket now).tokens < cost
  · simp only [h, if_true, Bool.false_eq_true, if_false]
    rfl
  · simp only [h, if_false, if_true]
    exact Nat.sub_add_cancel (Nat.le_of_not_lt h)

/-- A bucket that had time to fill is full. -/
theorem refill_of_idle {window now : ℕ} (hwindow : capacity ≤ window * rate)
    (hidle : bucket.last + window ≤ now) :
  refill capacity rate bucket now = { tokens := capacity, last := now }
  := by
  have hfull : capacity ≤ (now - bucket.last) * rate :=
    hwindow.trans (Nat.mul_le_mul_right rate (by omega))
  rw [refill, Nat.min_eq_right (hfull.trans (Nat.le_add_left ..)), Nat.max_eq_right (by omega)]

/-! ### What is taken in a stretch of time -/

/-- A charge that was made: the time of the clock then, and what it took. -/
abbrev Taken := ℕ × ℕ

/-- What was taken while the clock was from the start on and before the end. -/
def takenIn (start length : ℕ) (charges : List Taken) : ℕ :=
  ((charges.filter fun charge => start ≤ charge.1 ∧ charge.1 < start + length).map Prod.snd).sum

theorem takenIn_concat (start length : ℕ) (charges : List Taken) (charge : Taken) :
  takenIn start length (charges ++ [charge])
    = takenIn start length charges
      + if start ≤ charge.1 ∧ charge.1 < start + length then charge.2 else 0
  := by
  rw [takenIn, List.filter_append, List.map_append, List.sum_append, takenIn]
  congr 1
  by_cases h : start ≤ charge.1 ∧ charge.1 < start + length
  · simp [h]
  · rw [if_neg h, List.filter_eq_nil_iff.mpr]
    · rfl
    · simpa using h

/-- What is taken, and what the tokens say of it while the clock is in the stretch. -/
structure Spent (capacity rate : ℕ) (bucket : TokenBucket) (charges : List Taken) : Prop where
  past : ∀ charge ∈ charges, charge.1 ≤ bucket.last
  tokens : bucket.tokens ≤ capacity
  inside : ∀ start, start ≤ bucket.last → ∀ length, bucket.last < start + length →
    takenIn start length charges + bucket.tokens ≤ capacity + (bucket.last - start) * rate
  bounded : ∀ start length, takenIn start length charges ≤ capacity + length * rate

theorem takenIn_of_before {start length : ℕ} {charges : List Taken}
    (h : ∀ charge ∈ charges, charge.1 < start) :
  takenIn start length charges = 0
  := by
  rw [takenIn, List.filter_eq_nil_iff.mpr]
  · rfl
  · intro charge hcharge
    have hlt := h charge hcharge
    simp only [decide_eq_true_eq]
    omega

/-- A bucket of which nothing was taken yet. -/
theorem Spent.nil (htokens : bucket.tokens ≤ capacity) : Spent capacity rate bucket [] where
  past _ h := by cases h
  tokens := htokens
  inside start _ length _ := by
    have hnone : takenIn start length [] = 0 := rfl
    omega
  bounded start length := by
    have hnone : takenIn start length [] = 0 := rfl
    omega

theorem Spent.charge {charges : List Taken} (h : Spent capacity rate bucket charges)
    (cost now : ℕ) :
  Spent capacity rate (charge capacity rate bucket cost now).1
    (charges ++ [(max bucket.last now, taken capacity rate bucket cost now)])
  := by
  have hlast := last_charge capacity rate bucket cost now
  have htaken := tokens_add_taken capacity rate bucket cost now
  have hinside : ∀ start, start ≤ max bucket.last now → ∀ length,
      max bucket.last now < start + length →
      takenIn start length (charges ++ [(max bucket.last now, taken capacity rate bucket cost now)])
          + (TokenBucket.charge capacity rate bucket cost now).1.tokens
        ≤ capacity + (max bucket.last now - start) * rate := by
    intro start hstart length hlength
    rw [takenIn_concat, if_pos ⟨hstart, hlength⟩]
    by_cases hbefore : bucket.last < start
    · rw [takenIn_of_before fun charge hcharge => (h.past charge hcharge).trans_lt hbefore]
      omega
    · have hle := h.inside start (by omega) length (by omega)
      have hsplit : (max bucket.last now - start) * rate
          = (bucket.last - start) * rate + (now - bucket.last) * rate := by
        rw [← Nat.add_mul]
        congr 1
        omega
      omega
  constructor
  · intro charge hcharge
    rw [hlast]
    obtain hcharge | hcharge := List.mem_append.mp hcharge
    · exact (h.past charge hcharge).trans (Nat.le_max_left ..)
    · rw [List.mem_singleton.mp hcharge]
  · exact tokens_charge_le bucket cost now
  · rw [hlast]
    exact hinside
  · intro start length
    by_cases hin : start ≤ max bucket.last now ∧ max bucket.last now < start + length
    · have hle := hinside start hin.1 length hin.2
      have hmul : (max bucket.last now - start) * rate ≤ length * rate :=
        Nat.mul_le_mul_right rate (by omega)
      omega
    · rw [takenIn_concat, if_neg hin, Nat.add_zero]
      exact h.bounded start length

end TokenBucket
