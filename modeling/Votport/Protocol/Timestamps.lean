import Mathlib.Data.UInt
import Votport.Foundation.Calendar
import Votport.Foundation.Padded
import Votport.Foundation.Words

/-!
# Timestamps

Receipts and sign-ins carry the time in UTC.  The server and the client each compute the day from
its number, with signed integers of 64 bits.
-/

namespace Votport

open Calendar Padded

/-- A signed integer of 64 bits, unless the computation overflows. -/
def i64 (n : ℤ) : Option ℤ := if -2 ^ 63 ≤ n ∧ n < 2 ^ 63 then some n else none

/-- Year, month and day of a number of days since 1970. -/
def civilFromDays (days : ℤ) : Option (ℤ × ℤ × ℤ) := do
  let z ← i64 (days + 719468)
  let era := z / 146097
  let doe := z % 146097
  let leaps ← i64 (doe - doe.tdiv 1460)
  let centuries ← i64 (leaps + doe.tdiv 36524)
  let eras ← i64 (centuries - doe.tdiv 146096)
  let yoe := eras.tdiv 365
  let year ← i64 (yoe + (← i64 (era * 400)))
  let years ← i64 ((← i64 (365 * yoe)) + yoe.tdiv 4)
  let doy ← i64 (doe - (← i64 (years - yoe.tdiv 100)))
  let mp := (← i64 ((← i64 (5 * doy)) + 2)).tdiv 153
  let month ← i64 ((← i64 (153 * mp)) + 2)
  let day ← i64 ((← i64 (doy - month.tdiv 5)) + 1)
  let month ← if mp < 10 then i64 (mp + 3) else i64 (mp - 9)
  let year ← if month ≤ 2 then i64 (year + 1) else some year
  return (year, month, day)

/-- `{n:0w}` of a signed integer. -/
def paddedInt (width : ℕ) (n : ℤ) : List Char :=
  if n < 0 then '-' :: padded (width - 1) n.natAbs else padded width n.toNat

/-- `{year:04}-{month:02}-{day:02}`. -/
def dateText (date : ℤ × ℤ × ℤ) : List Char :=
  paddedInt 4 date.1 ++ '-' :: paddedInt 2 date.2.1 ++ '-' :: paddedInt 2 date.2.2

/-- `rfc3339`. -/
def rfc3339 (unix : UInt64) : Option (List Char) := do
  let days := (i64 (unix / 86400).toNat).getD 0
  let seconds := unix % 86400
  let date ← civilFromDays days
  return dateText date ++ 'T' :: padded 2 (seconds / 3600).toNat
    ++ ':' :: padded 2 ((seconds % 3600) / 60).toNat
    ++ ':' :: padded 2 (seconds % 60).toNat ++ ['Z']

/-- `civil_date`. -/
def civilDate (days : UInt64) : Option (List Char) := do
  let date ← civilFromDays (asI64 days.toNat)
  return dateText date

/-! ### Days -/

theorem i64_eq {n : ℤ} (hle : -2 ^ 63 ≤ n) (hlt : n < 2 ^ 63) :
  i64 n = some n
  := if_pos ⟨hle, hlt⟩

/-- A step that ends in a number that fits. -/
theorem bind_i64 {α : Type} {n : ℤ} {next : ℤ → Option α} {result : Option α} (m : ℕ)
    (heq : n = m) (hlt : m < 2 ^ 63) (h : next m = result) :
  (i64 n >>= next) = result
  := by
  rw [heq, i64_eq (by omega) (by omega)]
  exact h

/-- Nothing overflows, and the day is that of the calendar. -/
theorem civilFromDays_eq {days : ℕ} (h : days < 2 ^ 50) :
  civilFromDays days
    = some (((dateOf days).year : ℤ), ((dateOf days).month : ℤ), ((dateOf days).day : ℤ))
  := by
  rw [← ofNumber_eq_dateOf, civilFromDays]
  refine bind_i64 (days + 719468) (by omega) (by omega) ?_
  have hlt : days + 719468 < 2 ^ 51 := by omega
  generalize days + 719468 = z at hlt
  have hera : (z : ℤ) / 146097 = ((z / 146097 : ℕ) : ℤ) := by omega
  have hdoe : (z : ℤ) % 146097 = ((z % 146097 : ℕ) : ℤ) := by omega
  have hmod : z % 146097 < 146097 := Nat.mod_lt _ (by decide)
  have heras : z / 146097 < 2 ^ 51 := by omega
  have htdiv : ∀ (m : ℕ) (k : ℤ), (m : ℤ).tdiv k = m / k :=
    fun m k => Int.tdiv_eq_ediv_of_nonneg (Int.natCast_nonneg m)
  dsimp only
  rw [ofNumber, hera, hdoe]
  generalize z / 146097 = era at *
  generalize z % 146097 = doe at *
  obtain ⟨hyoe, hstart, hend⟩ := yearOfEra_spec hmod
  have hyear : ((doe - doe / 1460 + doe / 36524 - doe / 146096 : ℕ) : ℤ) / 365 = yearOfEra doe :=
    (Int.natCast_ediv _ 365).symm
  generalize yearOfEra doe = yoe at *
  have hbegin : yearStart yoe = 365 * yoe + yoe / 4 - yoe / 100 := by
    rw [yearStart, Nat.div_eq_of_lt hyoe, Nat.add_zero]
  refine bind_i64 (doe - doe / 1460) (by rw [htdiv]; omega) (by omega) ?_
  refine bind_i64 (doe - doe / 1460 + doe / 36524) (by rw [htdiv]; omega) (by omega) ?_
  refine bind_i64 (doe - doe / 1460 + doe / 36524 - doe / 146096)
    (by rw [htdiv]; omega) (by omega) ?_
  rw [htdiv, hyear]
  refine bind_i64 (era * 400) (by omega) (by omega) ?_
  refine bind_i64 (yoe + era * 400) (by omega) (by omega) ?_
  refine bind_i64 (365 * yoe) (by omega) (by omega) ?_
  refine bind_i64 (365 * yoe + yoe / 4) (by rw [htdiv]; omega) (by omega) ?_
  refine bind_i64 (365 * yoe + yoe / 4 - yoe / 100) (by rw [htdiv]; omega) (by omega) ?_
  rw [← hbegin]
  refine bind_i64 (doe - yearStart yoe) (by omega) (by omega) ?_
  have hdoy : doe - yearStart yoe < 366 := by
    rw [yearStart_succ] at hend
    split at hend <;> omega
  generalize doe - yearStart yoe = doy at *
  refine bind_i64 (5 * doy) (by omega) (by omega) ?_
  refine bind_i64 (5 * doy + 2) (by omega) (by omega) ?_
  have hmp : ((5 * doy + 2 : ℕ) : ℤ) / 153 = ((5 * doy + 2) / 153 : ℕ) := (Int.natCast_ediv _ 153).symm
  rw [htdiv, hmp]
  have hmonth : (153 * ((5 * doy + 2) / 153) + 2) / 5 ≤ doy ∧ (5 * doy + 2) / 153 ≤ 11 := by omega
  generalize (5 * doy + 2) / 153 = mp at *
  refine bind_i64 (153 * mp) (by omega) (by omega) ?_
  refine bind_i64 (153 * mp + 2) (by omega) (by omega) ?_
  refine bind_i64 (doy - (153 * mp + 2) / 5) (by rw [htdiv]; omega) (by omega) ?_
  refine bind_i64 (doy - (153 * mp + 2) / 5 + 1) (by omega) (by omega) ?_
  obtain ⟨_, hlast⟩ := hmonth
  by_cases hspring : mp < 10
  · have hnot : ¬mp + 3 ≤ 2 := by omega
    rw [if_pos (by omega), ofMarch]
    refine bind_i64 (mp + 3) (by omega) (by omega) ?_
    rw [if_neg (by omega)]
    simp only [hspring, hnot, if_true, if_false]
    rfl
  · have hle : mp - 9 ≤ 2 := by omega
    rw [if_neg (by omega), ofMarch]
    refine bind_i64 (mp - 9) (by omega) (by omega) ?_
    rw [if_pos (by omega)]
    refine bind_i64 (yoe + era * 400 + 1) (by omega) (by omega) ?_
    simp only [hspring, hle, if_true, if_false]
    rfl

/-! ### Texts -/

/-- A day and a time of the day, as a text. -/
def stamp (date : Date) (hour minute second : ℕ) : List Char :=
  render [(4, '-'), (2, '-'), (2, 'T'), (2, ':'), (2, ':'), (2, 'Z')]
    (date.fields ++ [hour, minute, second])

theorem paddedInt_natCast (width n : ℕ) :
  paddedInt width n = padded width n
  := if_neg (by omega)

/-- The text is that of the day and the time of the day. -/
theorem rfc3339_eq_stamp (unix : UInt64) :
  rfc3339 unix = some (stamp (dateOf (unix.toNat / 86400)) (unix.toNat % 86400 / 3600)
    (unix.toNat % 86400 % 3600 / 60) (unix.toNat % 86400 % 60))
  := by
  have hunix := unix.toNat_lt
  have hdays : (unix / 86400).toNat = unix.toNat / 86400 := UInt64.toNat_div ..
  have hcivil : civilFromDays (unix.toNat / 86400 : ℕ) = _ := civilFromDays_eq (by omega)
  rw [rfc3339, hdays, i64_eq (by omega) (by omega), Option.getD_some, hcivil]
  simp only [Option.bind_eq_bind, Option.bind_some, dateText, paddedInt_natCast]
  simp only [stamp, Date.fields, List.cons_append, List.nil_append, List.append_assoc, render]
  rfl

theorem ne_of_isDigit {c : Char} (h : c.isDigit = true) :
  c ≠ 'T'
  := by
  rintro rfl
  cases h

/-- The text of the day is what comes before the time. -/
theorem civilDate_eq (unix : UInt64) :
  civilDate (unix / 86400) = (rfc3339 unix).map fun text => text.takeWhile (· ≠ 'T')
  := by
  have hunix := unix.toNat_lt
  have hdays : (unix / 86400).toNat = unix.toNat / 86400 := UInt64.toNat_div ..
  have hcivil : civilFromDays (unix.toNat / 86400 : ℕ) = _ := civilFromDays_eq (by omega)
  have hword : asI64 (unix.toNat / 86400) = (unix.toNat / 86400 : ℕ) :=
    Int.bmod_eq_of_le (by omega) (by omega)
  rw [civilDate, hdays, hword, hcivil, rfc3339, hdays,
    i64_eq (by omega) (by omega), Option.getD_some, hcivil]
  simp only [Option.bind_eq_bind, Option.bind_some, dateText, paddedInt_natCast, Option.map_some,
    Option.pure_def, List.append_assoc, List.cons_append]
  have hdigits : ∀ width n, ∀ c ∈ padded width n, decide (c ≠ 'T') = true :=
    fun width n c hc => decide_eq_true (ne_of_isDigit (isDigit_of_mem_padded hc))
  have hmark : ∀ l, List.takeWhile (fun c => decide (c ≠ 'T')) ('-' :: l)
      = '-' :: List.takeWhile (fun c => decide (c ≠ 'T')) l :=
    fun l => List.takeWhile_cons_of_pos (by decide)
  have hend : ∀ l, List.takeWhile (fun c => decide (c ≠ 'T')) ('T' :: l) = [] :=
    fun l => List.takeWhile_cons_of_neg (by decide)
  rw [List.takeWhile_append_of_pos (hdigits _ _), hmark,
    List.takeWhile_append_of_pos (hdigits _ _), hmark,
    List.takeWhile_append_of_pos (hdigits _ _), hend, List.append_nil]

/-- Different times have different texts. -/
theorem rfc3339_injective : Function.Injective rfc3339 := by
  intro unix unix' h
  rw [rfc3339_eq_stamp, rfc3339_eq_stamp] at h
  have hfields := render_inj (by decide) rfl rfl (Option.some.inj h)
  obtain ⟨hdate, htime⟩ := List.append_inj hfields rfl
  have hdays := strictMono_dateOf.injective hdate
  have hhour := (List.cons.inj htime).1
  have hminute := (List.cons.inj (List.cons.inj htime).2).1
  have hsecond := (List.cons.inj (List.cons.inj (List.cons.inj htime).2).2).1
  apply UInt64.toNat_inj.mp
  omega

/-- A day of a year with four digits, and a time of the day, can be written. -/
theorem fits_stamp {date : Date} {hour minute second : ℕ} (hdate : date.Valid)
    (hyear : date.year ≤ 9999) (hhour : hour < 24) (hminute : minute < 60) (hsecond : second < 60) :
  Fits [(4, '-'), (2, '-'), (2, 'T'), (2, ':'), (2, ':'), (2, 'Z')]
    (date.fields ++ [hour, minute, second])
  := by
  have hmonth := hdate.month_le
  have hday := hdate.day_le.trans (monthLength_le ..)
  have htwo : ∀ {n : ℕ} (mark : Char), n < 60 → 0 < (2, mark).1 ∧ n < 10 ^ (2, mark).1 :=
    fun _ hn => ⟨Nat.two_pos, hn.trans (show 60 < 10 ^ 2 by decide)⟩
  refine .cons ⟨by decide, hyear.trans_lt (by decide)⟩ (.cons (htwo '-' (by omega)) ?_)
  refine .cons (htwo 'T' (by omega)) (.cons (htwo ':' (by omega)) ?_)
  exact .cons (htwo ':' (by omega)) (.cons (htwo 'Z' (by omega)) .nil)

theorem stamp_lt_stamp {unix unix' : UInt64} (hlt : unix < unix')
    (hyear : (dateOf (unix'.toNat / 86400)).year ≤ 9999) :
  ∃ text text', rfc3339 unix = some text ∧ rfc3339 unix' = some text' ∧ text < text'
  := by
  refine ⟨_, _, rfc3339_eq_stamp unix, rfc3339_eq_stamp unix', ?_⟩
  have hlt : unix.toNat < unix'.toNat := hlt
  have hdays : unix.toNat / 86400 ≤ unix'.toNat / 86400 := Nat.div_le_div_right hlt.le
  have hyear' : (dateOf (unix.toNat / 86400)).year ≤ 9999 := by
    have hle := strictMono_dateOf.monotone hdays
    obtain hless | ⟨heq, _⟩ := Neighbours.cons_le_cons_iff.mp hle
    · omega
    · omega
  apply render_lt_render (fits_stamp (valid_dateOf _) hyear' (by omega) (by omega) (by omega))
    (fits_stamp (valid_dateOf _) hyear (by omega) (by omega) (by omega))
  obtain hless | heq := hdays.lt_or_eq
  · have hdate : (dateOf (unix.toNat / 86400)).fields < (dateOf (unix'.toNat / 86400)).fields :=
      strictMono_dateOf hless
    have hlen : (dateOf (unix.toNat / 86400)).fields.length
        = (dateOf (unix'.toNat / 86400)).fields.length := rfl
    exact append_lt_append hlen hdate _ _
  · rw [heq]
    apply append_lt_append_left
    simp only [List.cons_lt_cons_iff]
    omega

/-- The time of a receipt or of a sign-in is that of the calendar, and the client's date is its
day. -/
theorem timestamps_eq :
  (∀ unix : UInt64, ∃ days hour minute second,
    unix.toNat = days * 86400 + hour * 3600 + minute * 60 + second
      ∧ hour < 24 ∧ minute < 60 ∧ second < 60
      ∧ rfc3339 unix = some (stamp (dateOf days) hour minute second)
      ∧ civilDate (unix / 86400) = (rfc3339 unix).map fun text => text.takeWhile (· ≠ 'T'))
  ∧ Function.Injective rfc3339
  ∧ ∀ unix unix' : UInt64, unix < unix' → (dateOf (unix'.toNat / 86400)).year ≤ 9999 →
      ∃ text text', rfc3339 unix = some text ∧ rfc3339 unix' = some text' ∧ text < text'
  := by
  refine ⟨?_, rfc3339_injective, fun unix unix' => stamp_lt_stamp⟩
  intro unix
  refine ⟨unix.toNat / 86400, unix.toNat % 86400 / 3600, unix.toNat % 86400 % 3600 / 60,
    unix.toNat % 86400 % 60, by omega, by omega, by omega, by omega, ?_, ?_⟩
  · exact rfc3339_eq_stamp unix
  · exact civilDate_eq unix

/-- The leap day begins. -/
theorem timestamps_leap :
  ∃ text text', rfc3339 68169599 = some text ∧ rfc3339 68169600 = some text' ∧ text < text'
  := timestamps_eq.2.2 68169599 68169600 (by decide) (by decide +kernel)

end Votport
