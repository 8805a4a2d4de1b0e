import Mathlib.Data.List.Pairwise
import Mathlib.Data.Nat.Basic
import Mathlib.Order.Basic
import Mathlib.Data.List.Perm.Subperm
import Votport.Session.Rate

/-!
# How many sessions an address creates

While each refund drops the time of the session that it is for, the times that are kept are those
of the sessions that were not refunded, as far as they are in the window, and there are no more of
these in any window than the limit.
-/

namespace Votport.Rate

variable {attempts attempts' : Table Attempts.ip} {ip ip' victim : String} {now : ℕ}
  {s s' : RateState} {call : RateCall}

/-! ### The table -/

theorem window_pos : 0 < window := by decide

theorem entriesOf_upsert (row : Attempts) :
  entriesOf (attempts.upsert row) ip = if ip = row.ip then row.entries else entriesOf attempts ip
  := by
  rw [entriesOf, Table.find?_upsert]
  split_ifs <;> rfl

theorem live_live (now : ℕ) (entries : List ℕ) :
  live now (live now entries) = live now entries
  := by
  simp [live]

/-- Sweeping keeps of an address the times in the window. -/
theorem entriesOf_sweep :
  entriesOf (sweep now attempts) ip = live now (entriesOf attempts ip)
  := by
  rw [entriesOf, sweep, Table.find?_filter, Table.find?_map, entriesOf]
  cases attempts.find? ip with
  | none => rfl
  | some row =>
      by_cases hempty : live now row.entries = []
      · simp [hempty, Option.filter]
      · simp [hempty, Option.filter]

/-- When there is room, the times of an address that is not evicted are the same, or those in the
window. -/
theorem entriesOf_makeRoom (h : makeRoom attempts ip' now victim = some attempts')
    (hvictim : ¬(attempts.rows.length < tableCap) → Full (sweep now attempts) ip' → victim ≠ ip) :
  entriesOf attempts' ip = entriesOf attempts ip
    ∨ entriesOf attempts' ip = live now (entriesOf attempts ip)
  := by
  rw [makeRoom] at h
  split_ifs at h with hroom hfull hleast
  · obtain rfl := Option.some.inj h
    exact Or.inl rfl
  · obtain rfl := Option.some.inj h
    right
    rw [entriesOf, Table.find?_erase, if_neg (Ne.symm (hvictim hroom hfull)), ← entriesOf,
      entriesOf_sweep]
  · obtain rfl := Option.some.inj h
    exact Or.inr entriesOf_sweep

/-- A call drops times that are out of the window, and for its own address all of these; when the
session is allowed, its time comes last. -/
theorem entriesOf_allow {rate rate' : SessionRate} {allowed : Bool}
    (h : rate.allow ip' now victim = some (rate', allowed))
    (hvictim : ¬(rate.attempts.rows.length < tableCap) → Full (sweep now rate.attempts) ip' →
      victim ≠ ip) :
  rate'.maxPerWindow = rate.maxPerWindow
    ∧ if ip = ip' then
        if allowed then
          entriesOf rate'.attempts ip = live now (entriesOf rate.attempts ip) ++ [now]
            ∧ (live now (entriesOf rate.attempts ip)).length < rate.maxPerWindow
        else entriesOf rate'.attempts ip = live now (entriesOf rate.attempts ip)
      else entriesOf rate'.attempts ip = entriesOf rate.attempts ip
        ∨ entriesOf rate'.attempts ip = live now (entriesOf rate.attempts ip)
  := by
  obtain ⟨attempts', hroom, hrecord⟩ := Option.map_eq_some_iff.mp h
  have hkept := entriesOf_makeRoom hroom hvictim
  rw [SessionRate.record] at hrecord
  by_cases hip : ip = ip'
  · subst hip
    have hlive : live now (entriesOf attempts' ip) = live now (entriesOf rate.attempts ip) := by
      obtain hsame | hsame := hkept
      · rw [hsame]
      · rw [hsame, live_live]
    rw [hlive] at hrecord
    rw [if_pos rfl]
    by_cases hfull : rate.maxPerWindow ≤ (live now (entriesOf rate.attempts ip)).length
    · rw [if_pos hfull] at hrecord
      obtain ⟨rfl, rfl⟩ := Prod.mk.inj hrecord
      refine ⟨rfl, ?_⟩
      rw [if_neg Bool.false_ne_true, entriesOf_upsert, if_pos rfl]
    · rw [if_neg hfull] at hrecord
      obtain ⟨rfl, rfl⟩ := Prod.mk.inj hrecord
      refine ⟨rfl, ?_⟩
      rw [if_pos rfl, entriesOf_upsert, if_pos rfl]
      exact ⟨rfl, Nat.lt_of_not_le hfull⟩
  · rw [if_neg hip]
    split_ifs at hrecord with hfull
    · obtain ⟨rfl, rfl⟩ := Prod.mk.inj hrecord
      rw [entriesOf_upsert, if_neg hip]
      exact ⟨rfl, hkept⟩
    · obtain ⟨rfl, rfl⟩ := Prod.mk.inj hrecord
      rw [entriesOf_upsert, if_neg hip]
      exact ⟨rfl, hkept⟩

/-- A refund drops the last time of its address. -/
theorem entriesOf_refund (rate : SessionRate) :
  entriesOf (rate.refund ip').attempts ip
    = if ip = ip' then (entriesOf rate.attempts ip).dropLast else entriesOf rate.attempts ip
  := by
  rw [SessionRate.refund]
  cases hfind : rate.attempts.find? ip' with
  | none =>
      split_ifs with hip
      · subst hip
        rw [entriesOf, hfind]
        rfl
      · rfl
  | some row =>
      have hrow : row.ip = ip' := (Table.find?_eq_some.mp hfind).2
      rw [entriesOf_upsert, hrow]
      split_ifs with hip
      · subst hip
        rw [entriesOf, hfind]
        rfl
      · rfl

/-! ### What is kept -/

/-- The session is of the address and time, and was not refunded. -/
def kept (ip : String) (time : ℕ) (creation : Creation) : Bool :=
  creation.ip = ip && !creation.refunded && creation.time = time

/-- The session is of the address and in the window, and was not refunded. -/
def inWindow (ip : String) (start : ℕ) (creation : Creation) : Bool :=
  creation.ip = ip && !creation.refunded
    && (start ≤ creation.time && creation.time < start + window)

/-- Each session of the address that was not refunded and is in the window has its time. -/
def Accounted (ip : String) (s : RateState) : Prop :=
  ∀ time, s.clock < time + window →
    (entriesOf s.rate.attempts ip).count time = s.created.countP (kept ip time)

/-- The limit holds of every window, and the times that are kept are in order. -/
structure Limited (maxPerWindow : ℕ) (ip : String) (s : RateState) : Prop where
  limit : s.rate.maxPerWindow = maxPerWindow
  ordered : (entriesOf s.rate.attempts ip).Pairwise (· ≤ ·)
  past : ∀ time ∈ entriesOf s.rate.attempts ip, time ≤ s.clock
  created : ∀ creation ∈ s.created, creation.time ≤ s.clock
  accounted : Accounted ip s
  bounded : ∀ start, s.created.countP (inWindow ip start) ≤ maxPerWindow

theorem count_live {entries : List ℕ} {time : ℕ} (h : now < time + window) :
  (live now entries).count time = entries.count time
  := by
  rw [live, List.count_filter]
  have := window_pos
  simp
  omega

/-- The sessions in a window that ends with the time have their times in it. -/
theorem countP_inWindow_le {entries : List ℕ} {created : List Creation} {start : ℕ}
    (hcount : ∀ time, now < time + window → entries.count time = created.countP (kept ip time))
    (hnow : now < start + window) :
  created.countP (inWindow ip start) ≤ (live now entries).length
  := by
  have hsub : ((created.filter (inWindow ip start)).map Creation.time).Subperm
      (live now entries) := by
    apply List.subperm_ext_iff.mpr
    intro time hmem
    obtain ⟨creation, hcreation, rfl⟩ := List.mem_map.mp hmem
    obtain ⟨_, hin⟩ := List.mem_filter.mp hcreation
    simp only [inWindow, Bool.and_eq_true, decide_eq_true_eq] at hin
    rw [count_live (by omega), hcount _ (by omega), List.count, List.countP_map, List.countP_filter]
    apply List.countP_mono_left
    intro other _ hother
    simp only [Function.comp_apply, Bool.and_eq_true, beq_iff_eq, inWindow, kept,
      decide_eq_true_eq] at hother ⊢
    exact ⟨hother.2.1, hother.1⟩
  have hle := hsub.length_le
  rwa [List.length_map, ← List.countP_eq_length_filter] at hle

/-! ### Steps -/

theorem refundable_eq_some {created : List Creation} {index : ℕ} {creation : Creation} :
  refundable created index = some creation
    ↔ created[index]? = some creation ∧ creation.refunded = false
  := by
  rw [refundable, Option.filter_eq_some_iff, Bool.not_eq_true']

theorem rateStep_allow
    (h : rateStep s (.allow ip' now victim) = some s') :
  ∃ rate allowed, s.rate.allow ip' now victim = some (rate, allowed) ∧ s.clock ≤ now
    ∧ s' = { rate := rate, clock := now,
             created := if allowed then s.created ++ [⟨ip', now, false⟩] else s.created }
  := by
  rw [rateStep, Option.ite_none_right_eq_some, Option.map_eq_some_iff] at h
  obtain ⟨hclock, ⟨rate, allowed⟩, hallow, rfl⟩ := h
  exact ⟨rate, allowed, hallow, hclock, rfl⟩

theorem rateStep_refund {index : ℕ} (h : rateStep s (.refund index now) = some s') :
  ∃ creation, refundable s.created index = some creation ∧ s.clock ≤ now
    ∧ s' = { rate := s.rate.refund creation.ip, clock := now,
             created := s.created.set index { creation with refunded := true } }
  := by
  rw [rateStep, Option.ite_none_right_eq_some, Option.map_eq_some_iff] at h
  obtain ⟨hclock, creation, hcreation, rfl⟩ := h
  exact ⟨creation, hcreation, hclock, rfl⟩

theorem Limited.start (ip : String) (limit : ℕ) : Limited limit ip (RateState.start limit) where
  limit := rfl
  ordered := List.Pairwise.nil
  past _ h := by simp [RateState.start, SessionRate.withLimit, entriesOf] at h
  created _ h := by simp [RateState.start] at h
  accounted _ _ := by simp [RateState.start, SessionRate.withLimit, entriesOf]
  bounded _ := by simp [RateState.start]

/-- Times that go out of the window while nothing happens to the address. -/
theorem Limited.later {limit : ℕ} {rate : SessionRate} (h : Limited limit ip s)
    (hclock : s.clock ≤ now) (hlimit : rate.maxPerWindow = s.rate.maxPerWindow)
    (hkept : entriesOf rate.attempts ip = entriesOf s.rate.attempts ip
      ∨ entriesOf rate.attempts ip = live now (entriesOf s.rate.attempts ip)) :
  Limited limit ip { rate := rate, clock := now, created := s.created }
  := by
  have hsub : (entriesOf rate.attempts ip).Sublist (entriesOf s.rate.attempts ip) := by
    obtain hsame | hlive := hkept
    · rw [hsame]
    · rw [hlive]
      exact List.filter_sublist
  constructor
  · exact hlimit.trans h.limit
  · exact h.ordered.sublist hsub
  · intro time htime
    exact (h.past time (hsub.subset htime)).trans hclock
  · intro creation hcreation
    exact (h.created creation hcreation).trans hclock
  · intro time htime
    have hbefore := h.accounted time (lt_of_le_of_lt hclock htime)
    rw [← hbefore]
    obtain hsame | hlive := hkept
    · exact congrArg (List.count time) hsame
    · show (entriesOf rate.attempts ip).count time = _
      rw [hlive, count_live htime]
  · exact h.bounded

/-- A session that is allowed when the times in the window are fewer than the limit. -/
theorem Limited.allowed {limit : ℕ} {rate : SessionRate} (h : Limited limit ip s)
    (hclock : s.clock ≤ now) (hlimit : rate.maxPerWindow = s.rate.maxPerWindow)
    (hentries : entriesOf rate.attempts ip = live now (entriesOf s.rate.attempts ip) ++ [now])
    (hroom : (live now (entriesOf s.rate.attempts ip)).length < s.rate.maxPerWindow) :
  Limited limit ip { rate := rate, clock := now, created := s.created ++ [⟨ip, now, false⟩] }
  := by
  have hpast : ∀ time ∈ live now (entriesOf s.rate.attempts ip), time ≤ now := by
    intro time htime
    exact (h.past time (List.filter_sublist.subset htime)).trans hclock
  have hbefore : ∀ time, now < time + window →
      (entriesOf s.rate.attempts ip).count time = s.created.countP (kept ip time) :=
    fun time htime => h.accounted time (lt_of_le_of_lt hclock htime)
  constructor
  · exact hlimit.trans h.limit
  · show (entriesOf rate.attempts ip).Pairwise (· ≤ ·)
    rw [hentries, List.pairwise_append]
    refine ⟨h.ordered.sublist List.filter_sublist, List.pairwise_singleton _ _, ?_⟩
    intro time htime last hlast
    rw [List.mem_singleton.mp hlast]
    exact hpast time htime
  · show ∀ time ∈ entriesOf rate.attempts ip, time ≤ now
    rw [hentries]
    intro time htime
    obtain htime | htime := List.mem_append.mp htime
    · exact hpast time htime
    · exact (List.mem_singleton.mp htime).le
  · intro creation hcreation
    obtain hcreation | hcreation := List.mem_append.mp hcreation
    · exact (h.created creation hcreation).trans hclock
    · rw [List.mem_singleton.mp hcreation]
  · intro time htime
    show (entriesOf rate.attempts ip).count time = _
    rw [hentries, List.count_append, count_live htime, hbefore time htime, List.countP_append]
    by_cases hnow : now = time <;> simp [kept, hnow]
  · intro start
    rw [List.countP_append]
    by_cases hin : start ≤ now ∧ now < start + window
    · have hle := countP_inWindow_le hbefore hin.2
      have hlimit := h.limit
      have hone : [Creation.mk ip now false].countP (inWindow ip start) ≤ 1 := List.countP_le_length
      omega
    · have hnone : [Creation.mk ip now false].countP (inWindow ip start) = 0 := by
        simp [inWindow]
        omega
      rw [hnone]
      exact h.bounded start

theorem Limited.allow {limit : ℕ} (h : Limited limit ip s)
    (hstep : rateStep s (.allow ip' now victim) = some s')
    (hvictim : NotEvicted ip s (.allow ip' now victim)) :
  Limited limit ip s'
  := by
  obtain ⟨rate, allowed, hallow, hclock, rfl⟩ := rateStep_allow hstep
  obtain ⟨hlimit, hentries⟩ := entriesOf_allow hallow hvictim
  by_cases hip : ip = ip'
  · subst hip
    rw [if_pos rfl] at hentries
    cases allowed with
    | true =>
        rw [if_pos rfl] at hentries ⊢
        exact h.allowed hclock hlimit hentries.1 hentries.2
    | false => exact h.later hclock hlimit (Or.inr hentries)
  · rw [if_neg hip] at hentries
    have hlater := h.later hclock hlimit hentries
    cases allowed with
    | false => exact hlater
    | true =>
        have hother : ∀ p : Creation → Bool, p ⟨ip', now, false⟩ = false →
            (s.created ++ [Creation.mk ip' now false]).countP p = s.created.countP p := by
          intro p hp
          rw [List.countP_append, List.countP_singleton, hp]
          simp
        constructor
        · exact hlater.limit
        · exact hlater.ordered
        · exact hlater.past
        · intro creation hcreation
          obtain hcreation | hcreation := List.mem_append.mp hcreation
          · exact hlater.created creation hcreation
          · rw [List.mem_singleton.mp hcreation]
        · intro time htime
          simp only [if_true]
          rw [hother _ (by simp [kept, Ne.symm hip])]
          exact hlater.accounted time htime
        · intro start
          simp only [if_true]
          rw [hother _ (by simp [inWindow, Ne.symm hip])]
          exact hlater.bounded start

/-- What a refund leaves of the times of its address. -/
theorem count_dropLast {entries : List ℕ} {last : ℕ} (h : entries.getLast? = some last) (time : ℕ) :
  entries.dropLast.count time + (if last = time then 1 else 0) = entries.count time
  := by
  conv_rhs => rw [← List.dropLast_append_getLast? last h]
  rw [List.count_append, List.count_singleton]
  simp

/-- A session that is refunded counts no more. -/
theorem countP_refunded {created : List Creation} {index : ℕ} {creation : Creation}
    (h : refundable created index = some creation) (p : Creation → Bool)
    (hp : p { creation with refunded := true } = false) :
  (created.set index { creation with refunded := true }).countP p
      + (if p creation then 1 else 0)
    = created.countP p
  := by
  obtain ⟨hget, _⟩ := refundable_eq_some.mp h
  obtain ⟨hlt, rfl⟩ := List.getElem?_eq_some_iff.mp hget
  rw [List.countP_set hlt, hp]
  by_cases hin : p created[index] = true
  · have hpos : 0 < created.countP p := List.countP_pos_iff.mpr ⟨_, List.getElem_mem hlt, hin⟩
    simp only [hin, if_true]
    simp
    omega
  · simp [hin]

/-- A refund leaves each other session its time exactly when what it drops is the time of its own
session. -/
theorem Limited.accounted_refund {limit index : ℕ} (h : Limited limit ip s)
    (hstep : rateStep s (.refund index now) = some s') :
  Accounted ip s' ↔ OwnEntry ip s (.refund index now)
  := by
  obtain ⟨creation, hcreation, hclock, rfl⟩ := rateStep_refund hstep
  have hfresh := (refundable_eq_some.mp hcreation).2
  have hbefore : ∀ time, now < time + window →
      (entriesOf s.rate.attempts ip).count time = s.created.countP (kept ip time) :=
    fun time htime => h.accounted time (lt_of_le_of_lt hclock htime)
  have hset : ∀ time, _ := fun time => countP_refunded hcreation (kept ip time) (by simp [kept])
  have hkept : ∀ time,
      kept ip time creation = (creation.ip = ip ∧ creation.time = time : Bool) := by
    intro time
    simp [kept, hfresh]
  simp only [Accounted, OwnEntry, hcreation, Option.mem_some_iff, entriesOf_refund]
  by_cases hip : creation.ip = ip
  · subst hip
    simp only [if_true]
    constructor
    · rintro hafter _ rfl - last hlast hlive
      by_contra hne
      have hdrop := count_dropLast hlast last
      have hthere := hset last
      rw [hkept] at hthere
      simp only [true_and, Ne.symm hne, decide_false, Bool.false_eq_true, if_false, if_true]
        at hthere hdrop
      have hlast' := hafter last (by omega)
      have hbefore' := hbefore last (by omega)
      omega
    · intro hown time htime
      have hthere := hset time
      rw [hkept] at hthere
      have hbefore' := hbefore time htime
      cases hlast : (entriesOf s.rate.attempts creation.ip).getLast? with
      | none =>
          rw [List.getLast?_eq_none_iff.mp hlast] at hbefore' ⊢
          simp only [List.count_nil, List.dropLast_nil] at hbefore' ⊢
          omega
      | some last =>
          have hdrop := count_dropLast hlast time
          by_cases hlive : now - last < window
          · rw [hown creation rfl rfl last hlast hlive] at hdrop
            simp only [true_and, decide_eq_true_eq] at hthere
            omega
          · have hnone : (entriesOf s.rate.attempts creation.ip).count time = 0 := by
              apply List.count_eq_zero.mpr
              intro hmem
              have hle : time ≤ last := by
                rw [List.getLast?_eq_some_getLast (List.ne_nil_of_mem hmem)] at hlast
                rw [← Option.some.inj hlast]
                exact h.ordered.rel_getLast hmem
              have hpos := window_pos
              omega
            omega
  · rw [if_neg (Ne.symm hip)]
    constructor
    · rintro - _ rfl hip'
      exact absurd hip' hip
    · intro _ time htime
      have hthere := hset time
      rw [hkept] at hthere
      simp only [hip, false_and, decide_false, Bool.false_eq_true, if_false] at hthere
      rw [hbefore time htime]
      omega

theorem Limited.refund {limit index : ℕ} (h : Limited limit ip s)
    (hstep : rateStep s (.refund index now) = some s') (hown : OwnEntry ip s (.refund index now)) :
  Limited limit ip s'
  := by
  have haccounted := (h.accounted_refund hstep).mpr hown
  obtain ⟨creation, hcreation, hclock, rfl⟩ := rateStep_refund hstep
  have hsub : (entriesOf (s.rate.refund creation.ip).attempts ip).Sublist
      (entriesOf s.rate.attempts ip) := by
    rw [entriesOf_refund]
    split_ifs
    · exact List.dropLast_sublist _
    · exact List.Sublist.refl _
  constructor
  · rw [← h.limit, SessionRate.refund]
    split <;> rfl
  · exact h.ordered.sublist hsub
  · intro time htime
    exact (h.past time (hsub.subset htime)).trans hclock
  · intro other hother
    obtain hother | rfl := List.mem_or_eq_of_mem_set hother
    · exact (h.created other hother).trans hclock
    · have hmem := List.mem_of_getElem? (refundable_eq_some.mp hcreation).1
      exact (h.created creation hmem).trans hclock
  · exact haccounted
  · intro start
    have hset := countP_refunded hcreation (inWindow ip start) (by simp [inWindow])
    have hbefore := h.bounded start
    show (s.created.set index { creation with refunded := true }).countP (inWindow ip start) ≤ limit
    omega

/-! ### Runs -/

/-- While each refund on an address that is not evicted drops the time of its own session, no window
has more sessions that are not refunded than the limit, and each of these in the last window has its
time.  A refund that drops another time takes that of a session that was not refunded. -/
theorem sessions_limited (limit : ℕ) (ip : String) (calls : List RateCall) (s : RateState)
    (hrun : Runs.run rateStep (RateState.start limit) calls = some s)
    (hcalls : Runs.Along rateStep (fun s call => NotEvicted ip s call ∧ OwnEntry ip s call)
      (RateState.start limit) calls) :
  (∀ start, s.created.countP (inWindow ip start) ≤ limit)
  ∧ Accounted ip s
  ∧ ∀ index now s', rateStep s (.refund index now) = some s' →
      (Accounted ip s' ↔ OwnEntry ip s (.refund index now))
  := by
  have hlimited : Limited limit ip s := by
    apply Runs.run_invariant_along _ hcalls (Limited.start ip limit) hrun
    rintro s call s' ⟨hevicted, hown⟩ hs hstep
    cases call with
    | allow ip' now victim => exact hs.allow hstep hevicted
    | refund index now => exact hs.refund hstep hown
  refine ⟨hlimited.bounded, hlimited.accounted, ?_⟩
  intro index now s' hstep
  exact hlimited.accounted_refund hstep

/-- Two sessions are created, and the first is refunded when it is about to leave the window.  Then
as many are created as the limit allows. -/
def refundedEarly : List RateCall :=
  [.allow "192.0.2.1" 0 "", .allow "192.0.2.1" (599 * 10 ^ 9) "", .refund 0 (599 * 10 ^ 9)]
    ++ List.replicate 20 (.allow "192.0.2.1" (600 * 10 ^ 9) "")

/-- There are more sessions in one window than the limit, and none of these is refunded. -/
theorem one_too_many :
  ∃ s, Runs.run rateStep (RateState.start maxPerWindow) refundedEarly = some s
    ∧ s.created.countP (inWindow "192.0.2.1" (599 * 10 ^ 9)) = 21
    ∧ ¬Accounted "192.0.2.1" s
  := by
  have hrun : ((Runs.run rateStep (RateState.start maxPerWindow) refundedEarly).map fun s =>
      (s.created.countP (inWindow "192.0.2.1" (599 * 10 ^ 9)), s.clock,
        (entriesOf s.rate.attempts "192.0.2.1").count (599 * 10 ^ 9),
        s.created.countP (kept "192.0.2.1" (599 * 10 ^ 9)))) = some (21, 600 * 10 ^ 9, 0, 1) := by
    decide
  obtain ⟨s, hs, hcounts⟩ := Option.map_eq_some_iff.mp hrun
  obtain ⟨hwindow, hcounts⟩ := Prod.mk.inj hcounts
  obtain ⟨hclock, hcounts⟩ := Prod.mk.inj hcounts
  obtain ⟨hentries, hcreated⟩ := Prod.mk.inj hcounts
  refine ⟨s, hs, hwindow, fun haccounted => ?_⟩
  have hkept := haccounted (599 * 10 ^ 9) (by rw [hclock]; decide)
  rw [hentries, hcreated] at hkept
  cases hkept

/-- A session that is refunded before the next is created. -/
theorem sessions_limited_refunded :
  ∃ s, Runs.run rateStep (RateState.start 1)
      [.allow "192.0.2.1" 0 "", .refund 0 1, .allow "192.0.2.1" 2 ""] = some s
    ∧ s.created.countP (inWindow "192.0.2.1" 0) ≤ 1
  := by
  obtain ⟨s, hs⟩ := Option.isSome_iff_exists.mp
    (show (Runs.run rateStep (RateState.start 1)
      [.allow "192.0.2.1" 0 "", .refund 0 1, .allow "192.0.2.1" 2 ""]).isSome = true by
        decide)
  have hcalls : Runs.Along rateStep
      (fun s call => NotEvicted "192.0.2.1" s call ∧ OwnEntry "192.0.2.1" s call)
      (RateState.start 1) [.allow "192.0.2.1" 0 "", .refund 0 1, .allow "192.0.2.1" 2 ""] := by
    decide
  exact ⟨s, hs, (sessions_limited 1 "192.0.2.1" _ s hs hcalls).1 0⟩

end Votport.Rate
