import Votport.Foundation.Runs
import Votport.Foundation.Table

/-!
# The rate of new sessions

For each address the times of the sessions that were created are kept, and those that are older than
the window are dropped.  An address may create a session while fewer than the limit are kept.  A
refund drops the newest time that is kept, whichever session it is for.
-/

namespace Votport.Rate

/-! ### The table -/

/-- `WINDOW`, in nanoseconds. -/
def window : ℕ := 600 * 10 ^ 9

/-- `TABLE_CAP`. -/
def tableCap : ℕ := 4096

/-- The times that are kept for an address. -/
structure Attempts where
  ip : String
  entries : List ℕ
deriving DecidableEq, Repr

/-- `SessionRate`. -/
structure SessionRate where
  attempts : Table Attempts.ip
  maxPerWindow : ℕ

/-- `SessionRate::with_limit`. -/
def SessionRate.withLimit (maxPerWindow : ℕ) : SessionRate :=
  { attempts := Table.empty, maxPerWindow := maxPerWindow }

/-- `MAX_PER_WINDOW`. -/
def maxPerWindow : ℕ := 20

/-- The times in the window that ends now. -/
def live (now : ℕ) (entries : List ℕ) : List ℕ := entries.filter (now - · < window)

/-- The times that are kept for the address. -/
def entriesOf (attempts : Table Attempts.ip) (ip : String) : List ℕ :=
  ((attempts.find? ip).map Attempts.entries).getD []

/-- The addresses that have times in the window, with these. -/
def sweep (now : ℕ) (attempts : Table Attempts.ip) : Table Attempts.ip :=
  (attempts.map (fun row => { row with entries := live now row.entries }) fun _ => rfl).filter
    fun row => row.entries ≠ []

/-- How new the newest time is; no time at all is older than any. -/
def newest (entries : List ℕ) : ℕ := entries.max?.elim 0 (· + 1)

/-- No other address has an older newest time. -/
def IsVictim (attempts : Table Attempts.ip) (victim : String) : Prop :=
  ∃ row ∈ attempts.rows, row.ip = victim
    ∧ ∀ other ∈ attempts.rows, newest row.entries ≤ newest other.entries

instance (attempts : Table Attempts.ip) (victim : String) : Decidable (IsVictim attempts victim) :=
  inferInstanceAs (Decidable (∃ row ∈ attempts.rows, _))

/-- Whether the table is full and has no row for the address. -/
def Full (attempts : Table Attempts.ip) (ip : String) : Prop :=
  tableCap ≤ attempts.rows.length ∧ attempts.find? ip = none

instance (attempts : Table Attempts.ip) (ip : String) : Decidable (Full attempts ip) :=
  inferInstanceAs (Decidable (_ ∧ _))

/-- The table in which there is room for the address.  Which address is evicted depends on the order
of the table when several are equally old, so it is given; none is a choice that the code does not
make. -/
def makeRoom (attempts : Table Attempts.ip) (ip : String) (now : ℕ) (victim : String) :
    Option (Table Attempts.ip) :=
  if attempts.rows.length < tableCap then some attempts
  else if Full (sweep now attempts) ip then
    if IsVictim (sweep now attempts) victim then some ((sweep now attempts).erase victim) else none
  else some (sweep now attempts)

/-- What `allow` does when there is room. -/
def SessionRate.record (rate : SessionRate) (attempts : Table Attempts.ip) (ip : String)
    (now : ℕ) : SessionRate × Bool :=
  let entries := live now (entriesOf attempts ip)
  if rate.maxPerWindow ≤ entries.length then
    ({ rate with attempts := attempts.upsert ⟨ip, entries⟩ }, false)
  else ({ rate with attempts := attempts.upsert ⟨ip, entries ++ [now]⟩ }, true)

/-- `SessionRate::allow`. -/
def SessionRate.allow (rate : SessionRate) (ip : String) (now : ℕ) (victim : String) :
    Option (SessionRate × Bool) :=
  (makeRoom rate.attempts ip now victim).map fun attempts => rate.record attempts ip now

/-- `SessionRate::refund`. -/
def SessionRate.refund (rate : SessionRate) (ip : String) : SessionRate :=
  match rate.attempts.find? ip with
  | some row =>
      { rate with attempts := rate.attempts.upsert { row with entries := row.entries.dropLast } }
  | none => rate

/-! ### Runs -/

/-- A session that was created, and whether it was refunded. -/
structure Creation where
  ip : String
  time : ℕ
  refunded : Bool
deriving DecidableEq, Repr

/-- The table, the time of the last call, and all the sessions that were created. -/
structure RateState where
  rate : SessionRate
  clock : ℕ
  created : List Creation

/-- A call; a refund is for one of the sessions that were created. -/
inductive RateCall
  | allow (ip : String) (now : ℕ) (victim : String)
  | refund (index : ℕ) (now : ℕ)

/-- The session that is refunded, when it was created and not refunded before. -/
def refundable (created : List Creation) (index : ℕ) : Option Creation :=
  created[index]?.filter fun creation => !creation.refunded

/-- What a call does, at a time that is not before that of the last call. -/
def rateStep (s : RateState) : RateCall → Option RateState
  | .allow ip now victim =>
      if s.clock ≤ now then
        (s.rate.allow ip now victim).map fun (rate, allowed) =>
          { rate := rate, clock := now,
            created := if allowed then s.created ++ [⟨ip, now, false⟩] else s.created }
      else none
  | .refund index now =>
      if s.clock ≤ now then
        (refundable s.created index).map fun creation =>
          { rate := s.rate.refund creation.ip, clock := now,
            created := s.created.set index { creation with refunded := true } }
      else none

/-- Nothing is kept, and nothing was created. -/
def RateState.start (maxPerWindow : ℕ) : RateState :=
  { rate := SessionRate.withLimit maxPerWindow, clock := 0, created := [] }

/-- The address is not evicted when there is no room for another. -/
def NotEvicted (ip : String) (s : RateState) : RateCall → Prop
  | .allow ip' now victim =>
      ¬(s.rate.attempts.rows.length < tableCap) → Full (sweep now s.rate.attempts) ip' → victim ≠ ip
  | .refund _ _ => True

instance (ip : String) (s : RateState) : (call : RateCall) → Decidable (NotEvicted ip s call)
  | .allow ip' now victim =>
      inferInstanceAs (Decidable (¬(s.rate.attempts.rows.length < tableCap) →
        Full (sweep now s.rate.attempts) ip' → victim ≠ ip))
  | .refund _ _ => .isTrue trivial

/-- What a refund drops, when it is still in the window, is the time of the session itself. -/
def OwnEntry (ip : String) (s : RateState) : RateCall → Prop
  | .allow _ _ _ => True
  | .refund index now =>
      ∀ creation ∈ refundable s.created index, creation.ip = ip →
        ∀ last ∈ (entriesOf s.rate.attempts ip).getLast?, now - last < window →
          last = creation.time

instance (ip : String) (s : RateState) : (call : RateCall) → Decidable (OwnEntry ip s call)
  | .allow _ _ _ => .isTrue trivial
  | .refund index now =>
      inferInstanceAs (Decidable (∀ creation ∈ refundable s.created index, creation.ip = ip →
        ∀ last ∈ (entriesOf s.rate.attempts ip).getLast?, now - last < window →
          last = creation.time))

end Votport.Rate
