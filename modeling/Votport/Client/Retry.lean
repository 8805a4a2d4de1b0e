import Mathlib.Data.List.Basic
import Votport.Foundation.Runs

/-!
# Trying again

A call that fails for a moment is sent again, after a pause that doubles each time, until its budget
is spent.  Whether a failure is for a moment is told from the flags of the transport or from the
status of the answer.  A timeout does not tell whether the request had been written.

Times are in milliseconds.
-/

namespace Votport.Client

/-- The calls that are tried again. -/
inductive Call
  | recipientChallenge
  | linkInfo
  | createSession
  | seal
  | page
  | begin
  | chunk
  | finish
  | pushIdentity
  | createPushSession
  | outboundMetadata
  | verifyOutbound
  | download
  | mintFetch
  | adminGet
  | adminUploadChunk
  | adminUploadEmpty
deriving DecidableEq, Repr

/-- The call may be sent again when its answer was lost. -/
def Call.idempotent : Call → Bool
  | .createSession | .seal | .page | .finish | .createPushSession | .mintFetch
  | .adminUploadChunk | .adminUploadEmpty => false
  | .recipientChallenge | .linkInfo | .begin | .chunk | .pushIdentity | .outboundMetadata
  | .verifyOutbound | .download | .adminGet => true

/-- How an attempt ends: with its value, with an error of the transport and its flags, with a status
that tells of a failure, or with another error. -/
inductive Outcome
  | value
  | http (isConnect isTimeout isRequest : Bool)
  | server (status : ℕ)
  | other
deriving DecidableEq, Repr

/-- Without a connection the server does not apply a request. -/
def Outcome.connected : Outcome → Bool
  | .http true _ _ => false
  | _ => true

/-- One time that a request is sent: how it ends, whether the server applied it, how long it takes,
and how much longer than asked the pause after it takes. -/
structure Sending where
  outcome : Outcome
  applied : Bool
  duration : ℕ
  overslept : ℕ
  connected : applied = true → outcome.connected = true
deriving DecidableEq

/-- `RETRY_BUDGET`. -/
def retryBudget : ℕ := 90000

/-- `RETRY_CAP`. -/
def retryCap : ℕ := 5000

/-- `is_retryable`. -/
def isRetryable (outcome : Outcome) (idempotent : Bool) : Bool :=
  match outcome with
  | .http isConnect isTimeout isRequest => isConnect || isTimeout || (idempotent && isRequest)
  | .server status => decide (status = 503) || (idempotent && decide (status = 429))
  | _ => false

/-- A call that is under way, or has ended. -/
structure RetryState where
  now : ℕ
  delay : ℕ
  deadline : ℕ
  /-- When the attempts started. -/
  starts : List ℕ
  ended : Option Outcome
deriving DecidableEq

/-- A call that begins. -/
def RetryState.start (now : ℕ) : RetryState := ⟨now, 200, now + retryBudget, [], none⟩

/-- After this attempt there is another. -/
def RetryState.again (call : Call) (s : RetryState) (sending : Sending) : Bool :=
  isRetryable sending.outcome call.idempotent
    && decide (s.now + sending.duration + s.delay < s.deadline)

/-- `retry`, for one attempt. -/
def RetryState.step (call : Call) (s : RetryState) (sending : Sending) : Option RetryState :=
  if s.ended.isSome = true then none
  else if s.again call sending = true then
    some { s with
      now := s.now + sending.duration + s.delay + sending.overslept
      delay := min (2 * s.delay) retryCap
      starts := s.now :: s.starts }
  else
    some { s with
      now := s.now + sending.duration, starts := s.now :: s.starts, ended := some sending.outcome }

/-- The server refuses the request: it answers that it failed, and not to come again later. -/
def Outcome.refuses : Outcome → Bool
  | .server status => decide (status ≠ 503 ∧ status ≠ 429)
  | _ => false

/-- What is asked of a call that has ended: what is not idempotent is sent again only when it was
not applied before, a refusal ends the call, and no attempt starts after the budget. -/
structure SentSafely (call : Call) (began : ℕ) (sendings : List Sending) (s : RetryState) :
    Prop where
  unapplied : call.idempotent = false → ∀ sending ∈ sendings.dropLast, sending.applied = false
  refusals : ∀ sending ∈ sendings.dropLast, sending.outcome.refuses = false
  budget : ∀ t ∈ s.starts, t ≤ began + retryBudget

/-- An attempt that is followed by another was not applied, where it timed out or the server was not
available, and the pause ends in time. -/
def RetryState.Careful (call : Call) (s : RetryState) (sending : Sending) : Prop :=
  s.again call sending = true →
    (call.idempotent = false → (∃ isRequest, sending.outcome = .http false true isRequest)
        ∨ sending.outcome = .server 503 → sending.applied = false)
      ∧ s.now + sending.duration + s.delay + sending.overslept ≤ s.deadline

/-! ### Attempts -/

variable {call : Call} {s s' : RetryState} {sending : Sending} {sendings : List Sending} {began : ℕ}

theorem RetryState.step_again (hopen : s.ended = none) (h : s.again call sending = true) :
  s.step call sending = some { s with
    now := s.now + sending.duration + s.delay + sending.overslept
    delay := min (2 * s.delay) retryCap
    starts := s.now :: s.starts }
  := by
  rw [RetryState.step, hopen, if_neg (by decide), if_pos h]

theorem RetryState.step_last (hopen : s.ended = none) (h : s.again call sending = false) :
  s.step call sending = some { s with
    now := s.now + sending.duration, starts := s.now :: s.starts, ended := some sending.outcome }
  := by
  rw [RetryState.step, hopen, if_neg (by decide), if_neg (by rw [h]; decide)]

/-- A step is made from a call that is under way, with an attempt that is the last or not. -/
theorem RetryState.step_cases (h : s.step call sending = some s') :
  s.ended = none ∧ s'.starts = s.now :: s.starts ∧ s'.deadline = s.deadline
    ∧ (s.again call sending = true ∧ s'.ended = none
        ∧ s'.now = s.now + sending.duration + s.delay + sending.overslept
        ∧ s'.delay = min (2 * s.delay) retryCap
      ∨ s.again call sending = false ∧ s'.ended = some sending.outcome)
  := by
  obtain ⟨hopen, _⟩ := Option.ite_none_left_eq_some.mp h
  have hnone : s.ended = none := Option.not_isSome_iff_eq_none.mp hopen
  cases hagain : s.again call sending with
  | true =>
      rw [step_again hnone hagain] at h
      cases h
      exact ⟨hnone, rfl, rfl, .inl ⟨rfl, hnone, rfl, rfl⟩⟩
  | false =>
      rw [step_last hnone hagain] at h
      cases h
      exact ⟨hnone, rfl, rfl, .inr ⟨rfl, rfl⟩⟩

/-- A call that has ended makes no step. -/
theorem RetryState.run_ended (hended : s.ended.isSome = true)
    (h : Runs.run (RetryState.step call) s sendings = some s') :
  sendings = [] ∧ s = s'
  := by
  cases sendings with
  | nil =>
      cases h
      exact ⟨rfl, rfl⟩
  | cons sending sendings =>
      obtain ⟨u, hu, _⟩ := (Runs.run_cons _).mp h
      rw [RetryState.step, if_pos hended] at hu
      cases hu

/-- What is sent again was no refusal. -/
theorem refuses_of_retryable {outcome : Outcome} {idempotent : Bool}
    (h : isRetryable outcome idempotent = true) :
  outcome.refuses = false
  := by
  cases outcome with
  | server status =>
      rw [isRetryable, Bool.or_eq_true, Bool.and_eq_true, decide_eq_true_eq, decide_eq_true_eq] at h
      rw [Outcome.refuses, decide_eq_false_iff_not]
      rintro ⟨hunavailable, hlater⟩
      rcases h with h | h
      · exact hunavailable h
      · exact hlater h.2
  | value => rfl
  | http isConnect isTimeout isRequest => rfl
  | other => rfl

/-- What is not idempotent is sent again for three reasons. -/
theorem retryable_cases {outcome : Outcome} (h : isRetryable outcome false = true) :
  outcome.connected = false ∨ (∃ isRequest, outcome = .http false true isRequest)
    ∨ outcome = .server 503
  := by
  cases outcome with
  | value => cases h
  | other => cases h
  | server status =>
      rw [isRetryable, Bool.false_and, Bool.or_false, decide_eq_true_eq] at h
      rw [h]
      exact .inr (.inr rfl)
  | http isConnect isTimeout isRequest =>
      rw [isRetryable, Bool.false_and, Bool.or_false] at h
      cases isConnect with
      | true => exact .inl rfl
      | false =>
          cases isTimeout with
          | true => exact .inr (.inl ⟨isRequest, rfl⟩)
          | false => cases h

/-! ### Calls -/

/-- When an attempt started stays known. -/
theorem RetryState.starts_subset (h : Runs.run (RetryState.step call) s sendings = some s') :
  s.starts ⊆ s'.starts
  := by
  have hrun : s.starts ⊆ s.starts → s.starts ⊆ s'.starts := by
    intro hs
    refine Runs.run_invariant (I := fun t : RetryState => s.starts ⊆ t.starts) ?_ hs h
    intro t sending u ht hstep
    rw [(step_cases hstep).2.1]
    exact List.Subset.trans ht (List.subset_cons_self ..)
  exact hrun (List.Subset.refl _)

/-- From a call that is under way in time, what is asked of it is what each attempt meets. -/
theorem RetryState.sentSafely_iff
    (hopen : s.ended = none) (hstarts : ∀ t ∈ s.starts, t ≤ s.deadline) (hnow : s.now ≤ s.deadline)
    (h : Runs.run (RetryState.step call) s sendings = some s') (hended : s'.ended.isSome = true) :
  ((call.idempotent = false → ∀ sending ∈ sendings.dropLast, sending.applied = false)
      ∧ (∀ sending ∈ sendings.dropLast, sending.outcome.refuses = false)
      ∧ ∀ t ∈ s'.starts, t ≤ s.deadline)
    ↔ Runs.Along (RetryState.step call) (RetryState.Careful call) s sendings
  := by
  induction sendings generalizing s with
  | nil =>
      cases h
      rw [hopen] at hended
      cases hended
  | cons sending rest ih =>
      obtain ⟨u, hu, hrest⟩ := (Runs.run_cons _).mp h
      obtain ⟨-, hus, hdeadline, ⟨hagain, huopen, hunow, -⟩ | ⟨hlast, hulast⟩⟩ := step_cases hu
      · -- the attempt is followed by another one, which starts at the time of the next state
        have hne : rest ≠ [] := by
          rintro rfl
          cases hrest
          rw [huopen] at hended
          cases hended
        have hnext : u.now ∈ s'.starts := by
          obtain ⟨next, rest', rfl⟩ := List.exists_cons_of_ne_nil hne
          obtain ⟨v, hv, hrest'⟩ := (Runs.run_cons _).mp hrest
          apply starts_subset hrest'
          rw [(step_cases hv).2.1]
          exact List.mem_cons_self ..
        have hustarts : ∀ t ∈ u.starts, t ≤ u.deadline := by
          intro t ht
          rw [hdeadline]
          rw [hus] at ht
          rcases List.mem_cons.mp ht with rfl | ht
          · exact hnow
          · exact hstarts t ht
        rw [List.dropLast_cons_of_ne_nil hne]
        simp only [List.forall_mem_cons]
        constructor
        · rintro ⟨hunapplied, ⟨-, hrefusals⟩, hbudget⟩
          have htime : u.now ≤ u.deadline := by
            rw [hdeadline]
            exact hbudget _ hnext
          refine ⟨?_, ?_⟩
          · intro _
            refine ⟨fun hidempotent _ => (hunapplied hidempotent).1, ?_⟩
            rw [← hunow, ← hdeadline]
            exact htime
          · intro v hv
            rw [hu] at hv
            cases hv
            refine (ih huopen hustarts htime hrest).mp ⟨?_, hrefusals, ?_⟩
            · exact fun hidempotent => (hunapplied hidempotent).2
            · rw [hdeadline]
              exact hbudget
        · rintro ⟨hcareful, halong⟩
          obtain ⟨happlied, htime⟩ := hcareful hagain
          rw [← hunow, ← hdeadline] at htime
          obtain ⟨hunapplied, hrefusals, hbudget⟩ :=
            (ih huopen hustarts htime hrest).mpr (halong u hu)
          obtain ⟨hretryable, -⟩ := (Bool.and_eq_true _ _).mp hagain
          refine ⟨?_, ⟨refuses_of_retryable hretryable, hrefusals⟩, ?_⟩
          · intro hidempotent
            refine ⟨?_, hunapplied hidempotent⟩
            rw [hidempotent] at hretryable
            rcases retryable_cases hretryable with hconnected | hreason
            · by_contra hne
              have happlied := sending.connected (by simpa using hne)
              rw [hconnected] at happlied
              cases happlied
            · exact happlied hidempotent hreason
          · rw [← hdeadline]
            exact hbudget
      · obtain ⟨rfl, rfl⟩ := run_ended (by rw [hulast]; rfl) hrest
        constructor
        · intro _
          refine ⟨?_, fun _ _ => trivial⟩
          intro hagain
          rw [hlast] at hagain
          cases hagain
        · intro _
          refine ⟨fun _ _ hmem => (List.not_mem_nil hmem).elim,
            fun _ hmem => (List.not_mem_nil hmem).elim, ?_⟩
          intro t ht
          rw [hus] at ht
          rcases List.mem_cons.mp ht with rfl | ht
          · exact hnow
          · exact hstarts t ht

/-- A call ends, however its attempts end. -/
theorem RetryState.ends
    (n : ℕ) (sendings : ℕ → Sending) (hopen : s.ended = none) (hdelay : 200 ≤ s.delay)
    (hn : s.deadline ≤ s.now + 200 * n) :
  ∃ k ≤ n + 1, ∃ s', Runs.run (RetryState.step call) s ((List.range k).map sendings) = some s'
    ∧ s'.ended.isSome = true
  := by
  induction n generalizing s sendings with
  | zero =>
      have hlast : s.again call (sendings 0) = false := by
        rw [RetryState.again, Bool.and_eq_false_iff, decide_eq_false_iff_not]
        right
        omega
      exact ⟨1, Nat.le_refl 1, _, (Runs.run_cons _).mpr ⟨_, step_last hopen hlast, rfl⟩, rfl⟩
  | succ n ih =>
      cases hagain : s.again call (sendings 0) with
      | false =>
          exact ⟨1, by omega, _, (Runs.run_cons _).mpr ⟨_, step_last hopen hagain, rfl⟩, rfl⟩
      | true =>
          obtain ⟨k, hk, s', hrun, hended⟩ := ih
            (s := { s with
              now := s.now + (sendings 0).duration + s.delay + (sendings 0).overslept
              delay := min (2 * s.delay) retryCap
              starts := s.now :: s.starts })
            (fun i => sendings (i + 1)) hopen (by dsimp only [retryCap]; omega)
            (by dsimp only; omega)
          refine ⟨k + 1, by omega, s', ?_, hended⟩
          rw [List.range_succ_eq_map, List.map_cons, List.map_map]
          exact (Runs.run_cons _).mpr ⟨_, step_again hopen hagain, hrun⟩

/-- Every call ends, and a call that has ended was sent as asked exactly when the attempts that were
followed by another did not time out, or find the server not available, once they were applied, and
the pauses ended in time. -/
theorem retry_sent_safely (call : Call) (began : ℕ) :
  (∀ sendings : ℕ → Sending, ∃ k ≤ 451, ∃ s,
      Runs.run (RetryState.step call) (.start began) ((List.range k).map sendings) = some s
        ∧ s.ended.isSome = true)
    ∧ ∀ sendings s, Runs.run (RetryState.step call) (.start began) sendings = some s →
        s.ended.isSome = true →
        (SentSafely call began sendings s
          ↔ Runs.Along (RetryState.step call) (RetryState.Careful call) (.start began) sendings)
  := by
  constructor
  · intro sendings
    exact RetryState.ends 450 sendings rfl (Nat.le_refl 200) (Nat.le_refl _)
  · intro sendings s h hended
    rw [← RetryState.sentSafely_iff rfl (fun t ht => (List.not_mem_nil ht).elim)
      (Nat.le_add_right _ _) h hended]
    exact ⟨fun hsafe => ⟨hsafe.unapplied, hsafe.refusals, hsafe.budget⟩,
      fun ⟨hunapplied, hrefusals, hbudget⟩ => ⟨hunapplied, hrefusals, hbudget⟩⟩

/-- A session is created, the answer takes too long, and another session is created. -/
theorem created_twice :
  ∃ sendings s, Runs.run (RetryState.step .createSession) (.start 0) sendings = some s
    ∧ s.ended = some .value ∧ (sendings.filter Sending.applied).length = 2
    ∧ ¬ SentSafely .createSession 0 sendings s
  := by
  refine ⟨[⟨.http false true true, true, 30000, 0, fun _ => rfl⟩,
    ⟨.value, true, 100, 0, fun _ => rfl⟩], _, rfl, rfl, rfl, ?_⟩
  intro hsafe
  have happlied := hsafe.unapplied rfl _ (List.mem_cons_self ..)
  cases happlied

end Votport.Client
