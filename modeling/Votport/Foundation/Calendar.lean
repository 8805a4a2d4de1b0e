import Mathlib

/-!
# The calendar

Days follow one another in months, and months in years.  Years that begin in March have their leap
day at the end, so a day has a number that is read back by division.
-/

namespace Calendar

structure Date where
  year : ℕ
  month : ℕ
  day : ℕ
  deriving DecidableEq, Repr

/-- Every fourth year is a leap year, but of the centuries only every fourth. -/
def IsLeap (year : ℕ) : Prop := year % 4 = 0 ∧ (year % 100 ≠ 0 ∨ year % 400 = 0)

instance (year : ℕ) : Decidable (IsLeap year) :=
  inferInstanceAs (Decidable (_ ∧ _))

def monthLength (year : ℕ) : ℕ → ℕ
  | 2 => if IsLeap year then 29 else 28
  | 4 | 6 | 9 | 11 => 30
  | _ => 31

/-- The day after a day. -/
def Date.next (d : Date) : Date :=
  if d.day < monthLength d.year d.month then { d with day := d.day + 1 }
  else if d.month < 12 then ⟨d.year, d.month + 1, 1⟩
  else ⟨d.year + 1, 1, 1⟩

/-- The day that comes so many days after the first of January 1970. -/
def dateOf (days : ℕ) : Date := Date.next^[days] ⟨1970, 1, 1⟩

structure Date.Valid (d : Date) : Prop where
  year_pos : 1 ≤ d.year
  month_pos : 1 ≤ d.month
  month_le : d.month ≤ 12
  day_pos : 1 ≤ d.day
  day_le : d.day ≤ monthLength d.year d.month

variable {d d' : Date} {y z m n : ℕ}

theorem monthLength_pos (year month : ℕ) :
  1 ≤ monthLength year month
  := by
  unfold monthLength
  split
  · split <;> decide
  all_goals decide

theorem monthLength_le (year month : ℕ) :
  monthLength year month ≤ 31
  := by
  unfold monthLength
  split
  · split <;> decide
  all_goals decide

/-- The day after a day of the calendar is one too. -/
theorem Date.Valid.next (h : d.Valid) :
  d.next.Valid
  := by
  obtain ⟨hyear, hmonth, hmonth', hday, hday'⟩ := h
  unfold Date.next
  split
  · exact ⟨hyear, hmonth, hmonth', by simp, by assumption⟩
  · split
    · exact ⟨hyear, by simp, by assumption, le_rfl, monthLength_pos ..⟩
    · exact ⟨by simp, le_rfl, by simp, le_rfl, monthLength_pos ..⟩

theorem dateOf_succ (days : ℕ) :
  dateOf (days + 1) = (dateOf days).next
  := Function.iterate_succ_apply' ..

theorem valid_dateOf (days : ℕ) :
  (dateOf days).Valid
  := by
  induction days with
  | zero => exact ⟨by decide, by decide, by decide, by decide, by decide⟩
  | succ days ih =>
      rw [dateOf_succ]
      exact ih.next

/-! ### The order of the days -/

/-- Year, month and day. -/
def Date.fields (d : Date) : List ℕ := [d.year, d.month, d.day]

theorem Date.fields_lt_next (d : Date) :
  d.fields < d.next.fields
  := by
  unfold Date.next
  split
  · simp [Date.fields, List.cons_lt_cons_iff]
  · split
    · simp [Date.fields, List.cons_lt_cons_iff]
    · simp [Date.fields, List.cons_lt_cons_iff]

theorem strictMono_dateOf :
  StrictMono fun days => (dateOf days).fields
  := by
  apply strictMono_nat_of_lt_succ
  intro days
  rw [dateOf_succ]
  exact Date.fields_lt_next _

/-! ### Years from March -/

/-- The days before a year that begins in March. -/
def yearStart (y : ℕ) : ℕ := 365 * y + y / 4 - y / 100 + y / 400

/-- The days of such a year before one of its months. -/
def monthStart (m : ℕ) : ℕ := (153 * m + 2) / 5

def Date.marchYear (d : Date) : ℕ := if d.month ≤ 2 then d.year - 1 else d.year

def Date.marchMonth (d : Date) : ℕ := if d.month ≤ 2 then d.month + 9 else d.month - 3

/-- The number of a day. -/
def Date.number (d : Date) : ℕ :=
  yearStart d.marchYear + monthStart d.marchMonth + (d.day - 1)

theorem yearStart_succ (y : ℕ) :
  yearStart (y + 1) = yearStart y + if IsLeap (y + 1) then 366 else 365
  := by
  have hle : y / 100 ≤ y / 4 := Nat.div_le_div_left (by decide) (by decide)
  have h100 : 100 ∣ y + 1 → 4 ∣ y + 1 := dvd_trans (by decide)
  have h400 : 400 ∣ y + 1 → 100 ∣ y + 1 := dvd_trans (by decide)
  have hleap : IsLeap (y + 1) ↔ 4 ∣ y + 1 ∧ (¬100 ∣ y + 1 ∨ 400 ∣ y + 1) := by
    simp only [IsLeap, Nat.dvd_iff_mod_eq_zero, ne_eq]
  simp only [yearStart, Nat.succ_div, hleap]
  generalize y / 4 = fourths at *
  generalize y / 100 = centuries at *
  by_cases hfour : 4 ∣ y + 1 <;> by_cases hcentury : 100 ∣ y + 1
    <;> by_cases hera : 400 ∣ y + 1 <;> simp_all <;> omega

theorem strictMono_yearStart :
  StrictMono yearStart
  := by
  apply strictMono_nat_of_lt_succ
  intro y
  rw [yearStart_succ]
  split <;> omega

/-- The length of a month is what lies between its beginning and the next. -/
theorem monthLength_eq (hyear : 1 ≤ d.year) (hmonth : 1 ≤ d.month) (hmonth' : d.month ≤ 12) :
  (d.marchMonth < 11 ∧
      monthLength d.year d.month + monthStart d.marchMonth = monthStart (d.marchMonth + 1))
    ∨ d.marchMonth = 11 ∧
      yearStart d.marchYear + monthStart 11 + monthLength d.year d.month
        = yearStart (d.marchYear + 1)
  := by
  obtain ⟨year, month, day⟩ := d
  change 1 ≤ year at hyear
  change 1 ≤ month at hmonth
  change month ≤ 12 at hmonth'
  unfold Date.marchMonth Date.marchYear
  interval_cases month
  case «2» =>
    right
    obtain ⟨year, rfl⟩ := Nat.exists_eq_add_of_le' hyear
    refine ⟨rfl, ?_⟩
    simp only [monthLength, monthStart, yearStart_succ, le_refl, if_true, Nat.add_sub_cancel]
    split <;> rfl
  all_goals exact Or.inl (by simp [monthLength, monthStart])

theorem monthStart_mono (h : m ≤ n) :
  monthStart m ≤ monthStart n
  := Nat.div_le_div_right (by omega)

/-- A day lies in its month. -/
theorem Date.Valid.number_lt (h : d.Valid) :
  monthStart d.marchMonth + (d.day - 1) < monthStart (d.marchMonth + 1)
    ∧ yearStart d.marchYear ≤ d.number ∧ d.number < yearStart (d.marchYear + 1)
  := by
  have hlength : yearStart d.marchYear + 365 ≤ yearStart (d.marchYear + 1) := by
    rw [yearStart_succ]
    split <;> omega
  have hpos := h.day_pos
  have hle := h.day_le
  unfold Date.number
  obtain ⟨hlt, heq⟩ | ⟨hlast, heq⟩ := monthLength_eq h.year_pos h.month_pos h.month_le
  · have hstart : monthStart (d.marchMonth + 1) ≤ 337 := monthStart_mono hlt
    omega
  · have hstart : monthStart 11 = 337 := rfl
    have hstart' : monthStart (11 + 1) = 367 := rfl
    have hle' : yearStart (d.marchYear + 1) ≤ yearStart d.marchYear + 366 := by
      rw [yearStart_succ]
      split <;> omega
    rw [hlast]
    omega

theorem Date.ext_march (h : d.Valid) (h' : d'.Valid) (hyear : d.marchYear = d'.marchYear)
    (hmonth : d.marchMonth = d'.marchMonth) (hday : d.day - 1 = d'.day - 1) :
  d = d'
  := by
  obtain ⟨year, month, day⟩ := d
  obtain ⟨year', month', day'⟩ := d'
  obtain ⟨_, _, _, _, _⟩ := h
  obtain ⟨_, _, _, _, _⟩ := h'
  unfold Date.marchYear at hyear
  unfold Date.marchMonth at hmonth
  simp only at *
  have hmonth : month = month' := by
    split at hmonth <;> split at hmonth <;> omega
  subst hmonth
  have hyear : year = year' := by
    split at hyear <;> omega
  have hday : day = day' := by omega
  rw [hyear, hday]

/-- No two days have one number. -/
theorem Date.number_inj (h : d.Valid) (h' : d'.Valid) (hnumber : d.number = d'.number) :
  d = d'
  := by
  obtain ⟨hmonth, hstart, hend⟩ := h.number_lt
  obtain ⟨hmonth', hstart', hend'⟩ := h'.number_lt
  have hyear : d.marchYear = d'.marchYear := by
    have hle := strictMono_yearStart.lt_iff_lt.mp (hstart.trans_lt (hnumber ▸ hend'))
    have hle' := strictMono_yearStart.lt_iff_lt.mp (hstart'.trans_lt (hnumber ▸ hend))
    omega
  have hoffset : monthStart d.marchMonth + (d.day - 1) = monthStart d'.marchMonth + (d'.day - 1) := by
    unfold Date.number at hnumber
    rw [hyear] at hnumber
    omega
  have hsame : d.marchMonth = d'.marchMonth := by
    unfold monthStart at hmonth hmonth' hoffset
    omega
  refine Date.ext_march h h' hyear hsame ?_
  rw [hsame] at hoffset
  omega

/-- The day after has the next number. -/
theorem Date.Valid.number_next (h : d.Valid) :
  d.next.number = d.number + 1
  := by
  have hlength := monthLength_eq h.year_pos h.month_pos h.month_le
  obtain ⟨year, month, day⟩ := d
  obtain ⟨hyear, hmonth, hmonth', hday, hday'⟩ := h
  simp only at hyear hmonth hmonth' hday hday'
  unfold Date.next
  split
  case isTrue hlt =>
    simp only [Date.number, Date.marchYear, Date.marchMonth]
    omega
  case isFalse hnot =>
    have heq : day = monthLength year month := le_antisymm hday' (not_lt.mp hnot)
    simp only [Date.number, Date.marchYear, Date.marchMonth] at hlength ⊢
    split
    case isTrue hlt =>
      rcases (by omega : month = 1 ∨ month = 2 ∨ 3 ≤ month) with rfl | rfl | hmarch
      · obtain ⟨_, hstart⟩ | ⟨hlast, _⟩ := hlength
        · simp only [Nat.reduceLeDiff, if_true, Nat.reduceAdd] at hstart ⊢
          omega
        · cases hlast
      · obtain ⟨hlt, _⟩ | ⟨_, hstart⟩ := hlength
        · exact absurd hlt (by decide)
        · have hyear : year - 1 + 1 = year := Nat.sub_add_cancel hyear
          simp only [le_refl, Nat.reduceLeDiff, if_true, if_false, Nat.reduceAdd, hyear] at hstart ⊢
          have hzero : monthStart (3 - 3) = 0 := rfl
          omega
      · have hnot : ¬month ≤ 2 := by omega
        have hnot' : ¬month + 1 ≤ 2 := by omega
        have hnext : month + 1 - 3 = month - 3 + 1 := by omega
        simp only [hnot, hnot', if_false, hnext] at hlength ⊢
        omega
    case isFalse hlast =>
      obtain rfl : month = 12 := by omega
      simp only [Nat.reduceLeDiff, if_true, if_false, Nat.reduceAdd, Nat.reduceSub,
        Nat.add_sub_cancel] at hlength ⊢
      omega

/-- So many days after the first of January 1970. -/
theorem number_dateOf (days : ℕ) :
  (dateOf days).number = days + 719468
  := by
  induction days with
  | zero => decide
  | succ days ih =>
      have hnext := (valid_dateOf days).number_next
      rw [← dateOf_succ] at hnext
      omega

/-! ### Reading a number -/

/-- The year of an era of four hundred years that a day of the era lies in. -/
def yearOfEra (doe : ℕ) : ℕ := (doe - doe / 1460 + doe / 36524 - doe / 146096) / 365

/-- The day of a month that is counted from March. -/
def ofMarch (year mp day : ℕ) : Date :=
  let month := if mp < 10 then mp + 3 else mp - 9
  ⟨if month ≤ 2 then year + 1 else year, month, day⟩

/-- The day with a number. -/
def ofNumber (z : ℕ) : Date :=
  let era := z / 146097
  let doe := z % 146097
  let yoe := yearOfEra doe
  let year := yoe + era * 400
  let doy := doe - (365 * yoe + yoe / 4 - yoe / 100)
  let mp := (5 * doy + 2) / 153
  ofMarch year mp (doy - (153 * mp + 2) / 5 + 1)

/-- The first and the last day of each year of an era. -/
theorem yearOfEra_ends :
  ∀ y < 400, yearOfEra (yearStart y) = y ∧ yearOfEra (yearStart (y + 1) - 1) = y
  := by decide +kernel

theorem yearOfEra_mono {a b : ℕ} (hle : a ≤ b) (hb : b < 146096) :
  yearOfEra a ≤ yearOfEra b
  := by
  have hcentury : a / 36524 ≤ b / 36524 := Nat.div_le_div_right hle
  have hdays : a - a / 1460 ≤ b - b / 1460 := by omega
  have hera : b / 146096 = 0 := Nat.div_eq_of_lt hb
  have hera' : a / 146096 = 0 := Nat.div_eq_of_lt (hle.trans_lt hb)
  apply Nat.div_le_div_right
  omega

theorem exists_between {f : ℕ → ℕ} {x : ℕ} (hzero : f 0 ≤ x) (hn : x < f n) :
  ∃ y < n, f y ≤ x ∧ x < f (y + 1)
  := by
  induction n with
  | zero => exact absurd hn (not_lt.mpr hzero)
  | succ n ih =>
      by_cases hlt : x < f n
      · obtain ⟨y, hy, h⟩ := ih hlt
        exact ⟨y, hy.trans (Nat.lt_succ_self n), h⟩
      · exact ⟨n, Nat.lt_succ_self n, not_lt.mp hlt, hn⟩

/-- A day of an era lies in its year. -/
theorem yearOfEra_spec {doe : ℕ} (h : doe < 146097) :
  yearOfEra doe < 400 ∧ yearStart (yearOfEra doe) ≤ doe ∧ doe < yearStart (yearOfEra doe + 1)
  := by
  have hera : yearStart 400 = 146097 := rfl
  obtain ⟨y, hy, hstart, hend⟩ := exists_between (Nat.zero_le doe) (hera ▸ h)
  obtain ⟨hfirst, hlast⟩ := yearOfEra_ends y hy
  have hyear : yearOfEra doe = y := by
    by_cases htop : doe = 146096
    · -- The last day of an era is the last of its year.
      have hle : yearStart (y + 1) ≤ yearStart 400 := strictMono_yearStart.monotone hy
      have heq : yearStart 400 = 146097 := rfl
      have hdoe : doe = yearStart (y + 1) - 1 := by omega
      rw [hdoe, hlast]
    · have hlow : y ≤ yearOfEra doe := by
        have hmono := yearOfEra_mono hstart (by omega)
        rwa [hfirst] at hmono
      have hhigh : yearOfEra doe ≤ y := by
        by_cases hend' : yearStart (y + 1) - 1 < 146096
        · have hmono := yearOfEra_mono (Nat.le_sub_one_of_lt hend) hend'
          rwa [hlast] at hmono
        · unfold yearOfEra
          unfold yearStart at hend'
          omega
      exact le_antisymm hhigh hlow
  rw [hyear]
  exact ⟨hy, hstart, hend⟩

theorem yearStart_add_era (yoe era : ℕ) :
  yearStart (yoe + era * 400) = yearStart yoe + era * 146097
  := by
  unfold yearStart
  omega

theorem ofMarch_spec (year : ℕ) {mp : ℕ} (day : ℕ) (h : mp ≤ 11) :
  (ofMarch year mp day).marchYear = year ∧ (ofMarch year mp day).marchMonth = mp
    ∧ year ≤ (ofMarch year mp day).year
    ∧ 1 ≤ (ofMarch year mp day).month ∧ (ofMarch year mp day).month ≤ 12
  := by
  unfold ofMarch Date.marchYear Date.marchMonth
  dsimp only
  by_cases hlate : mp < 10
  · have hmonth : ¬mp + 3 ≤ 2 := by omega
    simp only [hlate, hmonth, if_true, if_false, true_and]
    omega
  · have hmonth : mp - 9 ≤ 2 := by omega
    simp only [hlate, hmonth, if_true, if_false]
    omega

/-- A number read is a day of the calendar with this number. -/
theorem ofNumber_spec (h : 366 ≤ z) :
  (ofNumber z).Valid ∧ (ofNumber z).number = z
  := by
  have hz : z % 146097 + 146097 * (z / 146097) = z := Nat.mod_add_div z 146097
  have hmod : z % 146097 < 146097 := Nat.mod_lt _ (by decide)
  obtain ⟨hyoe, hstart, hend⟩ := yearOfEra_spec hmod
  have hbegin := yearStart_add_era (yearOfEra (z % 146097)) (z / 146097)
  have hnext := yearStart_add_era (yearOfEra (z % 146097) + 1) (z / 146097)
  rw [Nat.add_right_comm] at hnext
  have hlen := yearStart_succ (yearOfEra (z % 146097))
  unfold ofNumber
  dsimp only
  generalize z / 146097 = era at *
  generalize z % 146097 = doe at *
  generalize yearOfEra doe = yoe at *
  have hera : yearStart yoe = 365 * yoe + yoe / 4 - yoe / 100 := by
    rw [yearStart, Nat.div_eq_of_lt hyoe, Nat.add_zero]
  rw [← hera]
  obtain ⟨doy, rfl⟩ := Nat.exists_eq_add_of_le hstart
  rw [Nat.add_sub_cancel_left]
  have hdoy : doy < 366 := by
    split at hlen <;> omega
  obtain ⟨mp, hmp⟩ : ∃ mp, (5 * doy + 2) / 153 = mp := ⟨_, rfl⟩
  have hmonth : (153 * mp + 2) / 5 ≤ doy ∧ doy < monthStart (mp + 1) := by
    unfold monthStart
    omega
  have hmp' : mp ≤ 11 := by omega
  rw [hmp]
  obtain ⟨hday, hbefore⟩ := hmonth
  obtain ⟨hyear, hmarch, hyear', hmonth, hmonth'⟩ :=
    ofMarch_spec (yoe + era * 400) (doy - (153 * mp + 2) / 5 + 1) hmp'
  have hfirst : 1 ≤ yoe + era * 400 := by
    by_contra hzero
    have hyoe' : yoe = 0 := by omega
    have hera' : era = 0 := by omega
    subst hyoe'
    subst hera'
    unfold yearStart at hend hera hz
    omega
  have hlength := monthLength_eq (hfirst.trans hyear') hmonth hmonth'
  rw [hyear, hmarch] at hlength
  have hday' : (ofMarch (yoe + era * 400) mp (doy - (153 * mp + 2) / 5 + 1)).day
      = doy - (153 * mp + 2) / 5 + 1 := rfl
  refine ⟨⟨hfirst.trans hyear', hmonth, hmonth', ?_, ?_⟩, ?_⟩
  · rw [hday']
    omega
  · rw [hday']
    unfold monthStart at hlength hday
    omega
  · rw [Date.number, hyear, hmarch, hday', hbegin]
    unfold monthStart
    omega

/-- So many days after the first of January 1970, again. -/
theorem ofNumber_eq_dateOf (days : ℕ) :
  ofNumber (days + 719468) = dateOf days
  := by
  obtain ⟨hvalid, hnumber⟩ := ofNumber_spec (show 366 ≤ days + 719468 by omega)
  exact Date.number_inj hvalid (valid_dateOf days) (hnumber.trans (number_dateOf days).symm)

end Calendar
