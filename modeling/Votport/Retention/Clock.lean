import Votport.Foundation.Runs
import Mathlib.Tactic.Common

/-!
# The clock of age retention

What is deleted by age is deleted by a clock that does not trust the wall.  The store keeps the
latest time that was trusted; a process reads it when it starts, and from there the clock runs no
faster than the monotonic time of the process.  A wall that jumps ahead is cut off there.  The
trusted time is written before a later one is handed out, and an operator may acknowledge a time.

Beside the state of the process and the store the model keeps a history, which the code does not
have: where the clock was last set, and for how long processes have been running since.
-/

namespace Votport

/-- The largest value of a column of integers. -/
def columnMax : Nat := 2 ^ 63 - 1

/-- The nanoseconds of a second. -/
def nanosPerSec : Nat := 1000000000

/-- The seconds of a duration in nanoseconds. -/
def asSecs (nanos : Nat) : Nat := nanos / nanosPerSec

/-- The clock of a running process. -/
structure RetentionClockState where
  trustedAt : Option Nat
  anchorAt : Nat
  startedAt : Nat
deriving DecidableEq, Repr

/-- What is handed out: a time, and whether something may be deleted by age. -/
structure RetentionObservation where
  effectiveAt : Nat
  allowAge : Bool
deriving DecidableEq, Repr

/-- A write to the store is done, or fails, or is done while the process ends. -/
inductive StoreOutcome
  | done
  | failed (error : String)
  | lost
deriving DecidableEq, Repr

/-- The write took place. -/
def StoreOutcome.written : StoreOutcome → Bool
  | .failed _ => false
  | _ => true

/-- Moves the stored time ahead.  The column is compared and set as an integer. -/
def advanceRetentionClock (stored : Option Nat) (time : Nat) : Option Nat :=
  stored.map fun value =>
    if min value columnMax < min time columnMax then min time columnMax else value

/-- The time that is stored by an acknowledgement. -/
def acknowledgeRetentionClock (stored : Option Nat) (time : Nat) : Nat :=
  max (stored.getD time) time

namespace RetentionClockState

/-- The clock of a process that starts. -/
def ofStored (stored : Option Nat) (now : Nat) : RetentionClockState where
  trustedAt := stored
  anchorAt := stored.getD 0
  startedAt := now

/-- The time of the clock for a reading of the wall. -/
def effectiveAt (state : RetentionClockState) (rawWall elapsed : Nat) : Nat :=
  min rawWall (min (state.anchorAt + asSecs elapsed) (2 ^ 64 - 1))

/-- Observes the clock: the stored time, and the process with its answer unless it ended. -/
def observeLocked (stored : Option Nat) (outcome : StoreOutcome) (rawWall elapsed : Nat)
    (state : RetentionClockState) :
    Option Nat × Option (RetentionClockState × Except String RetentionObservation) :=
  match state.trustedAt with
  | none => (stored, some (state, .ok { effectiveAt := rawWall, allowAge := false }))
  | some trustedAt =>
      let effectiveAt := state.effectiveAt rawWall elapsed
      let persisted := max trustedAt effectiveAt
      if trustedAt < persisted then
        match outcome with
        | .done =>
            (advanceRetentionClock stored persisted,
              some ({ state with trustedAt := some persisted },
                .ok { effectiveAt, allowAge := true }))
        | .failed error => (stored, some (state, .error error))
        | .lost => (advanceRetentionClock stored persisted, none)
      else (stored, some (state, .ok { effectiveAt, allowAge := true }))

/-- Why an acknowledgement is refused. -/
inductive AcknowledgementError
  | futureObservation
  | store (error : String)
deriving DecidableEq, Repr

/-- Acknowledges a time that the operator has seen. -/
def acknowledgeAt (stored : Option Nat) (outcome : StoreOutcome)
    (observedAt currentWall now : Nat) (state : RetentionClockState) :
    Option Nat × Option (RetentionClockState × Except AcknowledgementError Unit) :=
  if currentWall < observedAt then (stored, some (state, .error .futureObservation))
  else
    let trustedAt := acknowledgeRetentionClock stored observedAt
    match outcome with
    | .done =>
        (some trustedAt,
          some ({ trustedAt := some trustedAt, anchorAt := trustedAt, startedAt := now }, .ok ()))
    | .failed error => (stored, some (state, .error (.store error)))
    | .lost => (some trustedAt, none)

end RetentionClockState

/-! ### What one operation does -/

/-- Where a time is stored, a time is stored after it is moved ahead: the same one, or a later one
up to the given one, which is reached up to the size of a column. -/
theorem advanceRetentionClock_some (s time : Nat) :
  ∃ s', advanceRetentionClock (some s) time = some s' ∧ min time columnMax ≤ s'
    ∧ (s' = s ∨ s < s' ∧ s' ≤ time)
  := by
  by_cases hlt : min s columnMax < min time columnMax
  · refine ⟨min time columnMax, ?_, Nat.le_refl _, .inr ⟨?_, Nat.min_le_left _ _⟩⟩
    · rw [advanceRetentionClock, Option.map_some, if_pos hlt]
    · omega
  · refine ⟨s, ?_, ?_, .inl rfl⟩
    · rw [advanceRetentionClock, Option.map_some, if_neg hlt]
    · omega

namespace RetentionClockState

variable {state state' : RetentionClockState} {stored stored' : Option Nat}
  {outcome : StoreOutcome} {rawWall elapsed : Nat} {observation : RetentionObservation}
  {answer : Option (RetentionClockState × Except String RetentionObservation)}

theorem effectiveAt_le : state.effectiveAt rawWall elapsed ≤ rawWall := Nat.min_le_left _ _

theorem effectiveAt_le_anchor :
  state.effectiveAt rawWall elapsed ≤ state.anchorAt + asSecs elapsed
  := Nat.le_trans (Nat.min_le_right _ _) (Nat.min_le_left _ _)

/-- All that an observation can do: without a trusted time it only reads the wall; a time that is
not ahead is handed out; a time that is ahead is written first. -/
inductive Observes (stored : Option Nat) (outcome : StoreOutcome) (rawWall elapsed : Nat)
    (state : RetentionClockState) :
    Option Nat → Option (RetentionClockState × Except String RetentionObservation) → Prop
  | held (hnone : state.trustedAt = none) :
      Observes stored outcome rawWall elapsed state stored
        (some (state, .ok { effectiveAt := rawWall, allowAge := false }))
  | behind (t : Nat) (htrusted : state.trustedAt = some t)
      (hle : state.effectiveAt rawWall elapsed ≤ t) :
      Observes stored outcome rawWall elapsed state stored
        (some (state, .ok
          { effectiveAt := state.effectiveAt rawWall elapsed, allowAge := true }))
  | ahead (t : Nat) (htrusted : state.trustedAt = some t)
      (hlt : t < state.effectiveAt rawWall elapsed) (houtcome : outcome = .done) :
      Observes stored outcome rawWall elapsed state
        (advanceRetentionClock stored (state.effectiveAt rawWall elapsed))
        (some ({ state with trustedAt := some (state.effectiveAt rawWall elapsed) }, .ok
          { effectiveAt := state.effectiveAt rawWall elapsed, allowAge := true }))
  | failed (t : Nat) (htrusted : state.trustedAt = some t)
      (hlt : t < state.effectiveAt rawWall elapsed) (error : String)
      (houtcome : outcome = .failed error) :
      Observes stored outcome rawWall elapsed state stored (some (state, .error error))
  | lost (t : Nat) (htrusted : state.trustedAt = some t)
      (hlt : t < state.effectiveAt rawWall elapsed) (houtcome : outcome = .lost) :
      Observes stored outcome rawWall elapsed state
        (advanceRetentionClock stored (state.effectiveAt rawWall elapsed)) none

theorem observeLocked_observes
    (h : state.observeLocked stored outcome rawWall elapsed = (stored', answer)) :
  state.Observes stored outcome rawWall elapsed stored' answer
  := by
  rw [observeLocked] at h
  cases htrusted : state.trustedAt with
  | none =>
      rw [htrusted] at h
      cases h
      exact .held htrusted
  | some t =>
      rw [htrusted] at h
      dsimp only at h
      by_cases hlt : t < state.effectiveAt rawWall elapsed
      · rw [Nat.max_eq_right (Nat.le_of_lt hlt), if_pos hlt] at h
        cases outcome with
        | done =>
            cases h
            exact .ahead t htrusted hlt rfl
        | failed error =>
            cases h
            exact .failed t htrusted hlt error rfl
        | lost =>
            cases h
            exact .lost t htrusted hlt rfl
      · have hle := Nat.le_of_not_lt hlt
        rw [Nat.max_eq_left hle, if_neg (Nat.lt_irrefl t)] at h
        cases h
        exact .behind t htrusted hle

end RetentionClockState

/-! ### Processes -/

/-- What happened so far: the time at which the clock of this process was set and the nanoseconds
since, the time that was acknowledged last and the nanoseconds that processes were up since, and
the largest time observed or acknowledged. -/
structure ClockHistory where
  origin : Nat
  since : Nat
  acknowledged : Nat
  uptime : Nat
  largest : Nat
deriving DecidableEq, Repr

/-- The store, the process that runs, its monotonic time, and what happened. -/
structure ClockWorld where
  stored : Option Nat
  process : Option RetentionClockState
  now : Nat
  history : ClockHistory
deriving DecidableEq, Repr

/-- What happens to the clock.  A wall reading is any. -/
inductive ClockOp
  | start (ok : Bool)
  | stop
  | pass (nanos : Nat)
  | observe (rawWall : Nat) (outcome : StoreOutcome)
  | acknowledge (observedAt currentWall : Nat) (outcome : StoreOutcome)
deriving DecidableEq, Repr

namespace ClockHistory

/-- A process reads the stored time. -/
def opened (h : ClockHistory) (stored : Option Nat) : ClockHistory :=
  { h with origin := stored.getD 0, since := 0 }

/-- Time passes for a process. -/
def passed (h : ClockHistory) (nanos : Nat) : ClockHistory :=
  { h with since := h.since + nanos, uptime := h.uptime + nanos }

/-- A time is observed. -/
def observed (h : ClockHistory) (time : Nat) : ClockHistory :=
  { h with largest := max h.largest time }

/-- A time is acknowledged, and another one set by it. -/
def acknowledge (h : ClockHistory) (time trusted : Nat) : ClockHistory where
  origin := trusted
  since := 0
  acknowledged := trusted
  uptime := 0
  largest := max h.largest time

end ClockHistory

namespace ClockWorld

/-- The history after an observation: a time counts when it was handed out or written. -/
def afterObserve (w : ClockWorld) (rawWall : Nat) (outcome : StoreOutcome)
    (state : RetentionClockState) : ClockHistory :=
  if state.trustedAt.isSome && outcome.written then
    w.history.observed (state.effectiveAt rawWall (w.now - state.startedAt))
  else w.history

/-- The history after an acknowledgement: it counts when it was written. -/
def afterAcknowledge (w : ClockWorld) (observedAt currentWall : Nat) (outcome : StoreOutcome) :
    ClockHistory :=
  if currentWall < observedAt then w.history
  else if outcome.written then
    w.history.acknowledge observedAt (acknowledgeRetentionClock w.stored observedAt)
  else w.history

/-- One step. -/
def step (w : ClockWorld) : ClockOp → Option ClockWorld
  | .start ok =>
      match w.process with
      | some _ => none
      | none =>
          if ok then
            some { w with
              process := some (.ofStored w.stored w.now)
              history := w.history.opened w.stored }
          else some w
  | .stop => some { w with process := none }
  | .pass nanos =>
      match w.process with
      | none => some w
      | some _ => some { w with now := w.now + nanos, history := w.history.passed nanos }
  | .observe rawWall outcome =>
      w.process.map fun state =>
        let result := state.observeLocked w.stored outcome rawWall (w.now - state.startedAt)
        { w with
          stored := result.1
          process := result.2.map Prod.fst
          history := w.afterObserve rawWall outcome state }
  | .acknowledge observedAt currentWall outcome =>
      w.process.map fun state =>
        let result := state.acknowledgeAt w.stored outcome observedAt currentWall w.now
        { w with
          stored := result.1
          process := result.2.map Prod.fst
          history := w.afterAcknowledge observedAt currentWall outcome }

/-- Before the first process: the time that the store came with counts as acknowledged. -/
structure Begins (w : ClockWorld) : Prop where
  process : w.process = none
  acknowledged : w.history.acknowledged = w.stored.getD 0
  uptime : w.history.uptime = 0
  largest : w.history.largest = w.stored.getD 0

/-! ### The invariant -/

/-- A running process: it knows of a time when one is stored, it has the origin of the history,
and what it trusts is what is stored, up to the size of a column. -/
structure Running (w : ClockWorld) (state : RetentionClockState) : Prop where
  held : state.trustedAt = none ↔ w.stored = none
  origin : state.anchorAt = w.history.origin
  since : w.now - state.startedAt = w.history.since
  started : state.startedAt ≤ w.now
  trusted : ∀ t s, state.trustedAt = some t → w.stored = some s → s ≤ t ∧ min t columnMax ≤ s
  behind : ∀ s, w.stored = some s →
    w.history.origin * nanosPerSec + w.history.since
      ≤ w.history.acknowledged * nanosPerSec + w.history.uptime

/-- The stored time was observed or acknowledged, and does not run ahead. -/
structure Kept (w : ClockWorld) : Prop where
  largest : ∀ s, w.stored = some s → s ≤ w.history.largest
  behind : ∀ s, w.stored = some s →
    s * nanosPerSec ≤ w.history.acknowledged * nanosPerSec + w.history.uptime
  running : ∀ state, w.process = some state → w.Running state

/-- The stored time only goes up. -/
def Le (w w' : ClockWorld) : Prop :=
  ∀ s, w.stored = some s → ∃ s', w'.stored = some s' ∧ s ≤ s'

variable {w w' : ClockWorld} {state : RetentionClockState}

theorem Begins.kept (h : w.Begins) : w.Kept where
  largest s hs := by
    rw [h.largest, hs]
    exact Nat.le_refl s
  behind s hs := by
    rw [h.acknowledged, hs]
    exact Nat.le_add_right _ _
  running state hstate := by
    rw [h.process] at hstate
    cases hstate

theorem Le.refl (w : ClockWorld) : w.Le w := fun s hs => ⟨s, hs, Nat.le_refl s⟩

theorem Le.trans {u v : ClockWorld} (h : w.Le u) (h' : u.Le v) : w.Le v := by
  intro s hs
  obtain ⟨s₁, hs₁, hle⟩ := h s hs
  obtain ⟨s₂, hs₂, hle'⟩ := h' s₁ hs₁
  exact ⟨s₂, hs₂, Nat.le_trans hle hle'⟩

/-- An observed time is not ahead of the last acknowledgement by more than the time that
processes were up. -/
theorem Running.effectiveAt_behind
    (h : w.Running state) {s rawWall : Nat} (hs : w.stored = some s) :
  state.effectiveAt rawWall (w.now - state.startedAt) * nanosPerSec
    ≤ w.history.acknowledged * nanosPerSec + w.history.uptime
  := by
  rw [h.since]
  have hanchor : state.effectiveAt rawWall w.history.since
      ≤ w.history.origin + asSecs w.history.since := by
    rw [← h.origin]
    exact state.effectiveAt_le_anchor
  have hscaled := Nat.mul_le_mul_right nanosPerSec hanchor
  rw [Nat.add_mul] at hscaled
  have hfloor : asSecs w.history.since * nanosPerSec ≤ w.history.since := Nat.div_mul_le_self _ _
  have hbehind := h.behind s hs
  omega

/-- A process that knows of a time finds one stored. -/
theorem Running.stored_some
    (h : w.Running state) {t : Nat} (htrusted : state.trustedAt = some t) :
  ∃ s, w.stored = some s
  := by
  cases hs : w.stored with
  | none =>
      rw [h.held.mpr hs] at htrusted
      cases htrusted
  | some s => exact ⟨s, rfl⟩

/-- A time is observed: the stored one and the history move. -/
theorem Kept.observed
    (hw : w.Kept) (hrunning : w.Running state) {rawWall s s' : Nat} (hs : w.stored = some s)
    (hs' : s' = s ∨ s < s' ∧ s' ≤ state.effectiveAt rawWall (w.now - state.startedAt))
    {process : Option RetentionClockState} {h : ClockHistory}
    (hprocess : ∀ state', process = some state' →
      state'.anchorAt = state.anchorAt ∧ state'.startedAt = state.startedAt
      ∧ ∃ t, state'.trustedAt = some t ∧ s' ≤ t ∧ min t columnMax ≤ s')
    (hh : h = w.history.observed (state.effectiveAt rawWall (w.now - state.startedAt))) :
  Kept { w with stored := some s', process := process, history := h }
  := by
  subst hh
  have hlargest := hw.largest s hs
  have hbehind := hw.behind s hs
  refine ⟨?_, ?_, ?_⟩
  · rintro _ ⟨⟩
    rcases hs' with rfl | ⟨_, hle⟩
    · exact Nat.le_trans hlargest (Nat.le_max_left _ _)
    · exact Nat.le_trans hle (Nat.le_max_right _ _)
  · rintro _ ⟨⟩
    rcases hs' with rfl | ⟨_, hle⟩
    · exact hbehind
    · exact Nat.le_trans (Nat.mul_le_mul_right _ hle) (hrunning.effectiveAt_behind hs)
  · intro state' hstate'
    obtain ⟨hanchor, hstarted, t, htrusted, hle, hmin⟩ := hprocess state' hstate'
    refine ⟨?_, hanchor.trans hrunning.origin, ?_, ?_, ?_, fun _ _ => hrunning.behind s hs⟩
    · rw [htrusted]
      exact ⟨nofun, nofun⟩
    · rw [hstarted]
      exact hrunning.since
    · rw [hstarted]
      exact hrunning.started
    · intro t' s₁ ht' hs₁
      rw [htrusted] at ht'
      cases ht'
      cases hs₁
      exact ⟨hle, hmin⟩

/-- The process after an observation, with what it answered. -/
def withObserved (w : ClockWorld) (state : RetentionClockState) (rawWall : Nat)
    (outcome : StoreOutcome) (stored : Option Nat)
    (answer : Option (RetentionClockState × Except String RetentionObservation)) : ClockWorld :=
  { w with
    stored := stored
    process := answer.map Prod.fst
    history := w.afterObserve rawWall outcome state }

/-- An observation keeps the invariant. -/
theorem Kept.observe_step
    (hw : w.Kept) (hprocess : w.process = some state) {rawWall : Nat} {outcome : StoreOutcome}
    {stored : Option Nat}
    {answer : Option (RetentionClockState × Except String RetentionObservation)}
    (h : state.Observes w.stored outcome rawWall (w.now - state.startedAt) stored answer) :
  (w.withObserved state rawWall outcome stored answer).Kept
  ∧ w.Le (w.withObserved state rawWall outcome stored answer)
  := by
  have hrunning := hw.running state hprocess
  have hhistory : ∀ {t}, state.trustedAt = some t → outcome.written = true →
      w.afterObserve rawWall outcome state
        = w.history.observed (state.effectiveAt rawWall (w.now - state.startedAt)) := by
    intro t htrusted hwritten
    rw [afterObserve, htrusted, hwritten]
    rfl
  cases h with
  | held hnone =>
      have hhistory : w.afterObserve rawWall outcome state = w.history := by
        rw [afterObserve, hnone]
        rfl
      rw [withObserved, hhistory, Option.map_some, ← hprocess]
      exact ⟨hw, Le.refl w⟩
  | behind t htrusted hle =>
      obtain ⟨s, hs⟩ := hrunning.stored_some htrusted
      have htrust := hrunning.trusted t s htrusted hs
      cases outcome with
      | failed error =>
          have hhistory : w.afterObserve rawWall (.failed error) state = w.history := by
            rw [afterObserve, htrusted]
            rfl
          rw [withObserved, hhistory, Option.map_some, ← hprocess]
          exact ⟨hw, Le.refl w⟩
      | done =>
          rw [withObserved, hs]
          refine ⟨hw.observed hrunning hs (.inl rfl) ?_ (hhistory htrusted rfl), ?_⟩
          · rintro _ ⟨⟩
            exact ⟨rfl, rfl, t, htrusted, htrust⟩
          · intro s₁ hs₁
            exact ⟨s₁, hs.symm.trans hs₁, Nat.le_refl _⟩
      | lost =>
          rw [withObserved, hs]
          refine ⟨hw.observed hrunning hs (.inl rfl) ?_ (hhistory htrusted rfl), ?_⟩
          · rintro _ ⟨⟩
            exact ⟨rfl, rfl, t, htrusted, htrust⟩
          · intro s₁ hs₁
            exact ⟨s₁, hs.symm.trans hs₁, Nat.le_refl _⟩
  | failed t htrusted hlt error houtcome =>
      have hhistory : w.afterObserve rawWall outcome state = w.history := by
        rw [afterObserve, htrusted, houtcome]
        rfl
      rw [withObserved, hhistory, Option.map_some, ← hprocess]
      exact ⟨hw, Le.refl w⟩
  | ahead t htrusted hlt houtcome =>
      obtain ⟨s, hs⟩ := hrunning.stored_some htrusted
      obtain ⟨s', hs', hmin, hmoved⟩ :=
        advanceRetentionClock_some s (state.effectiveAt rawWall _)
      have htrust := hrunning.trusted t s htrusted hs
      rw [withObserved, hs, hs']
      refine ⟨hw.observed hrunning hs hmoved ?_ (hhistory htrusted (by rw [houtcome]; rfl)), ?_⟩
      · rintro _ ⟨⟩
        refine ⟨rfl, rfl, _, rfl, ?_, hmin⟩
        omega
      · intro s₁ hs₁
        cases hs.symm.trans hs₁
        refine ⟨s', rfl, ?_⟩
        omega
  | lost t htrusted hlt houtcome =>
      obtain ⟨s, hs⟩ := hrunning.stored_some htrusted
      obtain ⟨s', hs', hmin, hmoved⟩ :=
        advanceRetentionClock_some s (state.effectiveAt rawWall _)
      rw [withObserved, hs, hs']
      refine ⟨hw.observed hrunning hs hmoved nofun (hhistory htrusted (by rw [houtcome]; rfl)), ?_⟩
      intro s₁ hs₁
      cases hs.symm.trans hs₁
      refine ⟨s', rfl, ?_⟩
      omega

/-- A time that is written by an acknowledgement, while the process goes on or ends. -/
theorem Kept.acknowledged
    (hw : w.Kept) {time : Nat} {process : Option RetentionClockState}
    (hprocess : ∀ state, process = some state →
      state = { trustedAt := some (acknowledgeRetentionClock w.stored time)
                anchorAt := acknowledgeRetentionClock w.stored time
                startedAt := w.now }) :
  Kept { w with
    stored := some (acknowledgeRetentionClock w.stored time)
    process := process
    history := w.history.acknowledge time (acknowledgeRetentionClock w.stored time) }
  ∧ w.Le { w with
    stored := some (acknowledgeRetentionClock w.stored time)
    process := process
    history := w.history.acknowledge time (acknowledgeRetentionClock w.stored time) }
  := by
  refine ⟨⟨?_, ?_, ?_⟩, ?_⟩
  · rintro _ ⟨⟩
    cases hs : w.stored with
    | none => exact Nat.le_trans (Nat.le_of_eq (Nat.max_self time)) (Nat.le_max_right _ _)
    | some s =>
        have hlargest := hw.largest s hs
        show max s time ≤ max w.history.largest time
        omega
  · rintro _ ⟨⟩
    exact Nat.le_add_right _ _
  · intro state hstate
    cases hprocess state hstate
    refine ⟨⟨nofun, nofun⟩, rfl, Nat.sub_self _, Nat.le_refl _, ?_, fun _ _ => Nat.le_refl _⟩
    rintro _ _ ⟨⟩ ⟨⟩
    exact ⟨Nat.le_refl _, Nat.min_le_left _ _⟩
  · intro s hs
    refine ⟨_, rfl, ?_⟩
    rw [hs]
    exact Nat.le_max_left _ _

/-- An acknowledgement keeps the invariant. -/
theorem Kept.acknowledge_step
    (hw : w.Kept) (hprocess : w.process = some state) {observedAt currentWall : Nat}
    {outcome : StoreOutcome} (h : w.step (.acknowledge observedAt currentWall outcome) = some w') :
  w'.Kept ∧ w.Le w'
  := by
  rw [step, hprocess, Option.map_some] at h
  cases h
  rw [RetentionClockState.acknowledgeAt, afterAcknowledge]
  by_cases hfuture : currentWall < observedAt
  · rw [if_pos hfuture, if_pos hfuture]
    dsimp only
    rw [Option.map_some, ← hprocess]
    exact ⟨hw, Le.refl w⟩
  · rw [if_neg hfuture, if_neg hfuture]
    cases outcome with
    | done =>
        apply hw.acknowledged
        rintro _ ⟨⟩
        rfl
    | failed error =>
        dsimp only
        rw [Option.map_some, ← hprocess]
        exact ⟨hw, Le.refl w⟩
    | lost =>
        apply hw.acknowledged
        exact nofun

/-- Every step keeps the invariant and lets the stored time go up only. -/
theorem kept_step {op : ClockOp} (hw : w.Kept) (h : w.step op = some w') :
  w'.Kept ∧ w.Le w'
  := by
  cases op with
  | start ok =>
      rw [step] at h
      cases hprocess : w.process with
      | some state =>
          rw [hprocess] at h
          cases h
      | none =>
          rw [hprocess] at h
          dsimp only at h
          split_ifs at h
          · cases h
            refine ⟨⟨hw.largest, hw.behind, ?_⟩, Le.refl w⟩
            rintro _ ⟨⟩
            refine ⟨Iff.rfl, rfl, Nat.sub_self _, Nat.le_refl _, ?_, ?_⟩
            · intro t s ht hs
              have hts : s = t := Option.some.inj (hs.symm.trans ht)
              rw [hts]
              exact ⟨Nat.le_refl _, Nat.min_le_left _ _⟩
            · intro s hs
              have hs : w.stored = some s := hs
              have hbehind := hw.behind s hs
              rw [ClockHistory.opened]
              dsimp only
              rw [hs, Option.getD_some, Nat.add_zero]
              exact hbehind
          · cases h
            exact ⟨hw, Le.refl w⟩
  | stop =>
      cases h
      exact ⟨⟨hw.largest, hw.behind, nofun⟩, Le.refl w⟩
  | pass nanos =>
      rw [step] at h
      cases hprocess : w.process with
      | none =>
          rw [hprocess] at h
          cases h
          exact ⟨hw, Le.refl w⟩
      | some state =>
          rw [hprocess] at h
          cases h
          refine ⟨⟨hw.largest, ?_, ?_⟩, Le.refl w⟩
          · intro s hs
            exact Nat.le_trans (hw.behind s hs)
              (Nat.add_le_add_left (Nat.le_add_right _ _) _)
          · rintro _ ⟨⟩
            have hrunning := hw.running state hprocess
            refine ⟨hrunning.held, hrunning.origin, ?_, ?_, hrunning.trusted, ?_⟩
            · have hsince := hrunning.since
              have hstarted := hrunning.started
              dsimp only [ClockHistory.passed]
              omega
            · exact Nat.le_trans hrunning.started (Nat.le_add_right _ _)
            · intro s hs
              have hbehind := hrunning.behind s hs
              dsimp only [ClockHistory.passed]
              omega
  | observe rawWall outcome =>
      obtain ⟨state, hprocess, rfl⟩ := Option.map_eq_some_iff.mp h
      exact hw.observe_step hprocess (RetentionClockState.observeLocked_observes rfl)
  | acknowledge observedAt currentWall outcome =>
      obtain ⟨state, hprocess, _⟩ := Option.map_eq_some_iff.mp h
      exact hw.acknowledge_step hprocess h

/-- In every run the invariant holds. -/
theorem kept_run {w₀ : ClockWorld} {ops : List ClockOp} (h₀ : w₀.Begins)
    (h : Runs.run step w₀ ops = some w) :
  w.Kept
  := Runs.run_invariant (fun _ _ _ hw h => (kept_step hw h).1) h₀.kept h

/-! ### The clock does not run ahead -/

/-- What holds of an observation that is handed out, with the store after it. -/
structure Behind (w : ClockWorld) (rawWall : Nat) (stored : Option Nat)
    (observation : RetentionObservation) : Prop where
  /-- It is not later than the wall. -/
  wall : observation.effectiveAt ≤ rawWall
  /-- Nothing is deleted by age unless a time is stored. -/
  held : observation.allowAge = true ↔ w.stored.isSome = true
  /-- It is not later than where the clock was set and the seconds since. -/
  origin : observation.allowAge = true →
    observation.effectiveAt ≤ w.history.origin + asSecs w.history.since
  /-- It passes the last acknowledgement by no more than the time that processes were up. -/
  uptime : observation.allowAge = true →
    observation.effectiveAt * nanosPerSec
      ≤ w.history.acknowledged * nanosPerSec + w.history.uptime
  /-- It is written before it is handed out, up to the size of a column. -/
  written : observation.allowAge = true →
    ∃ s, stored = some s ∧ min observation.effectiveAt columnMax ≤ s
  /-- The store moves only to a time that this observation reached. -/
  moved : stored ≠ w.stored →
    ∃ s s', w.stored = some s ∧ stored = some s' ∧ s < s' ∧ s' ≤ observation.effectiveAt

/-- What is handed out by a process of a run. -/
theorem Kept.handed_out
    (hw : w.Kept) (hprocess : w.process = some state) {rawWall : Nat} {outcome : StoreOutcome}
    {stored : Option Nat} {state' : RetentionClockState} {observation : RetentionObservation}
    (h : state.observeLocked w.stored outcome rawWall (w.now - state.startedAt)
      = (stored, some (state', .ok observation))) :
  w.Behind rawWall stored observation
  := by
  have hrunning := hw.running state hprocess
  have horigin : state.effectiveAt rawWall (w.now - state.startedAt)
      ≤ w.history.origin + asSecs w.history.since := by
    rw [← hrunning.origin, ← hrunning.since]
    exact state.effectiveAt_le_anchor
  cases RetentionClockState.observeLocked_observes h with
  | held hnone =>
      refine ⟨Nat.le_refl _, ?_, nofun, nofun, nofun, fun hne => absurd rfl hne⟩
      rw [hrunning.held.mp hnone]
      exact ⟨nofun, nofun⟩
  | behind t htrusted hle =>
      obtain ⟨s, hs⟩ := hrunning.stored_some htrusted
      have htrust := hrunning.trusted t s htrusted hs
      refine ⟨state.effectiveAt_le, ?_, fun _ => horigin, fun _ => ?_, fun _ => ?_,
        fun hne => absurd rfl hne⟩
      · rw [hs]
        exact ⟨fun _ => rfl, fun _ => rfl⟩
      · exact hrunning.effectiveAt_behind hs
      · refine ⟨s, hs, ?_⟩
        dsimp only
        omega
  | ahead t htrusted hlt houtcome =>
      obtain ⟨s, hs⟩ := hrunning.stored_some htrusted
      obtain ⟨s', hs', hmin, hmoved⟩ := advanceRetentionClock_some s
        (state.effectiveAt rawWall (w.now - state.startedAt))
      refine ⟨state.effectiveAt_le, ?_, fun _ => horigin, fun _ => ?_, fun _ => ?_, fun hne => ?_⟩
      · rw [hs]
        exact ⟨fun _ => rfl, fun _ => rfl⟩
      · exact hrunning.effectiveAt_behind hs
      · rw [hs]
        exact ⟨s', hs', hmin⟩
      · rw [hs, hs'] at hne
        rcases hmoved with heq | ⟨hlt', hle⟩
        · exact absurd (congrArg some heq) hne
        · refine ⟨s, s', hs, ?_, hlt', hle⟩
          rw [hs]
          exact hs'

end ClockWorld

/-- In every run of processes, observations and acknowledgements, whatever the wall reads and
whichever writes fail, the clock of age retention does not run ahead: what is handed out stays
behind the wall, the place where the clock was set and the time processes were up, the stored time
was observed or acknowledged and never goes down, and a time in the future is not acknowledged. -/
theorem retention_clock_behind
    {w₀ w : ClockWorld} {ops : List ClockOp} (h₀ : w₀.Begins)
    (h : Runs.run ClockWorld.step w₀ ops = some w) :
  (∀ state rawWall outcome stored state' observation, w.process = some state →
    state.observeLocked w.stored outcome rawWall (w.now - state.startedAt)
      = (stored, some (state', .ok observation)) →
    w.Behind rawWall stored observation)
  ∧ (∀ s, w.stored = some s → s ≤ w.history.largest)
  ∧ (∀ later w', Runs.run ClockWorld.step w later = some w' → w.Le w')
  ∧ (∀ state observedAt currentWall outcome, w.process = some state → currentWall < observedAt →
    state.acknowledgeAt w.stored outcome observedAt currentWall w.now
      = (w.stored, some (state, .error .futureObservation)))
  := by
  have hw := ClockWorld.kept_run h₀ h
  refine ⟨?_, hw.largest, ?_, ?_⟩
  · intro state rawWall outcome stored state' observation hprocess hobserve
    exact hw.handed_out hprocess hobserve
  · intro later w' hlater
    exact Runs.run_le (fun _ _ _ hw h => (ClockWorld.kept_step hw h).1) ClockWorld.Le.refl
      (fun _ _ _ => ClockWorld.Le.trans) (fun _ _ _ hw h => (ClockWorld.kept_step hw h).2) hw hlater
  · intro state observedAt currentWall outcome _ hfuture
    rw [RetentionClockState.acknowledgeAt, if_pos hfuture]

/-- The clock of a store that came with a time, before the first process. -/
def newClock : ClockWorld where
  stored := some 1000
  process := none
  now := 0
  history :=
    { origin := 0, since := 0, acknowledged := 1000, uptime := 0, largest := 1000 }

/-- The clock five seconds after it was set, when it has been observed. -/
def cutClock : ClockWorld where
  stored := some 1005
  process := some { trustedAt := some 1005, anchorAt := 1000, startedAt := 0 }
  now := 5 * nanosPerSec
  history :=
    { origin := 1000, since := 5 * nanosPerSec, acknowledged := 1000, uptime := 5 * nanosPerSec
      largest := 1005 }

/-- A wall that jumps far ahead after five seconds is cut off at these. -/
theorem retention_clock_behind_jump :
  Runs.run ClockWorld.step newClock
    [.start true, .pass (5 * nanosPerSec), .observe (2 ^ 63) .done] = some cutClock
  ∧ ∃ state stored state' observation, cutClock.process = some state
    ∧ state.observeLocked cutClock.stored .done (2 ^ 63) (cutClock.now - state.startedAt)
      = (stored, some (state', .ok observation))
    ∧ observation.allowAge = true ∧ observation.effectiveAt ≤ 1005
  := by
  have hrun : Runs.run ClockWorld.step newClock
      [.start true, .pass (5 * nanosPerSec), .observe (2 ^ 63) .done] = some cutClock := by
    decide +kernel
  refine ⟨hrun, ?_⟩
  obtain ⟨state, stored, state', observation, hprocess, hobserved⟩ :
      ∃ state stored state' observation, cutClock.process = some state
        ∧ state.observeLocked cutClock.stored .done (2 ^ 63) (cutClock.now - state.startedAt)
          = (stored, some (state', .ok observation)) := ⟨_, _, _, _, rfl, rfl⟩
  have hbehind := (retention_clock_behind ⟨rfl, rfl, rfl, rfl⟩ hrun).1 state (2 ^ 63) .done stored
    state' observation hprocess hobserved
  have hallow : observation.allowAge = true := hbehind.held.mpr rfl
  exact ⟨state, stored, state', observation, hprocess, hobserved, hallow, hbehind.origin hallow⟩

end Votport
