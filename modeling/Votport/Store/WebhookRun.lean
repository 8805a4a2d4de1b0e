import Votport.Foundation.Runs
import Votport.Store.EvidenceExport
import Votport.Store.WebhookQueue

/-!
# Runs of the webhook queue

Every operation is described by the attempts it writes.  From these descriptions follow the
invariants of the tables and of the claims, and from them what every step of a run does to
a cursor, to an attempt and to what an operator has replayed.
-/

namespace Votport

variable {π : Type*} {env : EventEnv π} {changed : String → Nat → Bool → π}

/-! ### Writes of attempts -/

/-- What a write does to a stored attempt; only a replay starts it again. -/
inductive WebhookAttempt.Written : Bool → WebhookAttempt → WebhookAttempt → Prop
  | superseded (a : WebhookAttempt) (h : a.status = .pending) :
      Written false a (supersede a.tenant a)
  | finished (a : WebhookAttempt) (h : a.status = .pending) (error : Option String)
      (now : Nat) :
      Written false a (a.finished (a.attempts + 1) error now)
  | replayed (a : WebhookAttempt) (now : Nat) : Written true a (a.replayed now)

/-- The attempts under the keys `p` were written, the others stay, and new ones have not
been sent. -/
structure WebhookDb.Writes
    (p : String × Int × Nat → Bool) (isReplay : Bool) (db db' : WebhookDb) : Prop where
  old : ∀ key a, db.attempts.find? key = some a →
    ∃ a', db'.attempts.find? key = some a' ∧ if p key then a.Written isReplay a' else a' = a
  new : ∀ key a', db'.attempts.find? key = some a' → db.attempts.find? key = none →
    Unsent db'.hooks.rows a'

theorem WebhookDb.Writes.refl {db db' : WebhookDb} (h : db'.attempts = db.attempts) :
  db.Writes (fun _ => false) false db'
  where
    old key a ha := by
      rw [h]
      exact ⟨a, ha, rfl⟩
    new key a ha hno := by
      rw [h, hno] at ha
      cases ha

/-- A save supersedes the pending attempts of its tenant. -/
theorem WebhookDb.writes_save
    {db db' : WebhookDb} {tenant : String}
    (h : db'.attempts = db.attempts.map (supersede tenant) (key_supersede tenant)) :
  db.Writes (db.savePending tenant) false db'
  where
    old key a ha := by
      rw [h, Table.find?_map, ha]
      refine ⟨supersede tenant a, rfl, ?_⟩
      rw [savePending, ha, Option.any_some]
      by_cases hwrite : a.tenant = tenant ∧ a.status = .pending
      · rw [if_pos (by simpa using hwrite), ← hwrite.1]
        exact .superseded a hwrite.2
      · rw [if_neg (by simpa using hwrite), supersede, if_neg hwrite]
    new key a ha hno := by
      rw [h, Table.find?_map, hno] at ha
      cases ha

/-- A queueing pass writes no stored attempt. -/
theorem WebhookDb.writes_queue (db : WebhookDb) (limit now : Nat) :
  db.Writes (fun _ => false) false (db.queueDeliveryWebhooks limit now)
  := by
  obtain ⟨hextends, hhooks, _⟩ := db.queue_spec limit now
  constructor
  · intro key a ha
    exact ⟨a, hextends.old key a ha, rfl⟩
  · intro key a ha hno
    rcases hextends.new key a ha with h | ⟨hpending, hzero, hook, hhook, htenant, hrevision⟩
    · rw [hno] at h
      cases h
    · refine ⟨hpending, hzero, db.passed limit hook, ?_, ?_, ?_⟩
      · have hpassed := hhooks hook.tenant
        rw [Table.find?_key (List.mem_of_mem_filter hhook)] at hpassed
        exact (Table.find?_eq_some.mp hpassed).1
      · rw [passed_tenant, htenant]
      · rw [passed_revision, hrevision]

/-- A finish writes the attempt it claimed, when it is still the one. -/
theorem WebhookDb.writes_finish
    (db : WebhookDb) (attempt : WebhookAttempt) (error : Option String) (now : Nat) :
  db.Writes (db.finishes attempt) false (db.finishDeliveryWebhook attempt error now)
  where
    old key a ha := by
      rw [finishDeliveryWebhook]
      dsimp only
      rw [Table.find?_map, ha]
      refine ⟨_, rfl, ?_⟩
      dsimp only
      rw [finishes, ha, Option.any_some]
      by_cases hclaimed : a.claimedAs attempt
      · rw [if_pos (by simpa using hclaimed), if_pos hclaimed, ← hclaimed.2.2]
        exact .finished a hclaimed.2.1 error now
      · rw [if_neg (by simpa using hclaimed), if_neg hclaimed]
    new key a ha hno := by
      rw [finishDeliveryWebhook] at ha
      dsimp only at ha
      rw [Table.find?_map, hno] at ha
      cases ha

/-- The three ways of a replay. -/
theorem WebhookDb.replay_cases (db : WebhookDb) (tenant : String) (id : Int) (now : Nat) :
  ((db.replayDeliveryWebhook tenant id now).2 = db ∧ ∀ key, db.replays tenant id key = false)
    ∨ ∃ hook, db.hooks.find? tenant = some hook
        ∧ (∀ key, db.replays tenant id key = true ↔ key = (tenant, id, hook.revision))
        ∧ ((∃ a, db.attempts.find? (tenant, id, hook.revision) = some a
            ∧ (db.replayDeliveryWebhook tenant id now).2
              = { db with
                attempts := db.attempts.upsert (a.replayed now)
                attemptSequence := db.attemptSequence + 1 })
          ∨ db.attempts.find? (tenant, id, hook.revision) = none
            ∧ (db.replayDeliveryWebhook tenant id now).2 = db.queueEvent hook now id)
  := by
  cases hhook : db.hooks.find? tenant with
  | none =>
      left
      constructor
      · rw [replayDeliveryWebhook, hhook]
      · intro key
        rw [replays, hhook]
        rfl
  | some hook =>
      by_cases hquery : hook.enabled = true ∧ id ∈ db.eventIds tenant
      · right
        refine ⟨hook, rfl, ?_, ?_⟩
        · intro key
          rw [replays, hhook]
          simp [hquery]
        · rw [replayDeliveryWebhook, hhook]
          dsimp only
          rw [if_pos hquery]
          cases hattempt : db.attempts.find? (tenant, id, hook.revision) with
          | none => exact Or.inr ⟨rfl, rfl⟩
          | some a => exact Or.inl ⟨a, rfl, rfl⟩
      · left
        constructor
        · rw [replayDeliveryWebhook, hhook]
          dsimp only
          rw [if_neg hquery]
        · intro key
          rw [replays, hhook]
          simp only [Option.any_some, Bool.and_eq_false_iff, decide_eq_false_iff_not]
          left
          by_cases henabled : hook.enabled = true
          · exact Or.inr fun hid => hquery ⟨henabled, hid⟩
          · exact Or.inl (Bool.eq_false_iff.mpr henabled)

/-- A replay writes the attempt of the webhook's revision for its event. -/
theorem WebhookDb.writes_replay (db : WebhookDb) (tenant : String) (id : Int) (now : Nat) :
  db.Writes (db.replays tenant id) true (db.replayDeliveryWebhook tenant id now).2
  := by
  rcases db.replay_cases tenant id now with ⟨hsame, hno⟩ | ⟨hook, hhook, hkeys, hcase⟩
  · rw [hsame]
    constructor
    · intro key a ha
      rw [hno]
      exact ⟨a, ha, rfl⟩
    · intro key a ha hnone
      rw [hnone] at ha
      cases ha
  · rcases hcase with ⟨stored, hstored, hdb⟩ | ⟨habsent, hdb⟩
    · have hkey : (stored.replayed now).key = (tenant, id, hook.revision) :=
        (Table.find?_eq_some.mp hstored).2
      rw [hdb]
      constructor
      · intro key a ha
        dsimp only
        rw [Table.find?_upsert, hkey]
        by_cases hwrite : key = (tenant, id, hook.revision)
        · rw [if_pos hwrite]
          refine ⟨_, rfl, ?_⟩
          rw [if_pos ((hkeys key).mpr hwrite)]
          rw [hwrite, hstored] at ha
          cases ha
          exact .replayed stored now
        · rw [if_neg hwrite]
          refine ⟨a, ha, ?_⟩
          rw [if_neg (mt (hkeys key).mp hwrite)]
      · intro key a ha hnone
        dsimp only at ha
        rw [Table.find?_upsert, hkey] at ha
        split at ha
        · next hwrite =>
            rw [hwrite, hstored] at hnone
            cases hnone
        · rw [hnone] at ha
          cases ha
    · obtain ⟨hextends, hhooks, _⟩ := db.queueEvent_spec hook now id
      rw [hdb]
      constructor
      · intro key a ha
        refine ⟨a, hextends.old key a ha, ?_⟩
        rw [if_neg]
        intro hwrite
        rw [(hkeys key).mp hwrite, habsent] at ha
        cases ha
      · intro key a ha hnone
        rcases hextends.new key a ha with h | ⟨hpending, hzero, h, hh, hof⟩
        · rw [hnone] at h
          cases h
        · refine ⟨hpending, hzero, h, ?_, hof⟩
          rw [hhooks, List.mem_singleton.mp hh]
          exact (Table.find?_eq_some.mp hhook).1

/-! ### Attempts -/

/-- At most twelve attempts are counted, and after the last one none is pending. -/
def WebhookAttempt.Bounded (a : WebhookAttempt) : Prop :=
  a.attempts ≤ 12 ∧ (a.status = .pending → a.attempts < 12)
    ∧ (a.attempts = 12 → a.status = .dead ∨ a.status = .delivered)

theorem Unsent.bounded {hooks : List DeliveryWebhook} {a : WebhookAttempt} (h : Unsent hooks a) :
  a.Bounded
  := by
  obtain ⟨_, hzero, _⟩ := h
  refine ⟨?_, ?_, ?_⟩
  · omega
  · omega
  · omega

theorem WebhookAttempt.Written.bounded
    {isReplay : Bool} {a a' : WebhookAttempt} (h : a.Written isReplay a') (ha : a.Bounded) :
  a'.Bounded
  := by
  obtain ⟨hle, hlt, _⟩ := ha
  cases h with
  | superseded _ hpending =>
      have := hlt hpending
      rw [supersede, if_pos ⟨rfl, hpending⟩]
      refine ⟨hle, ?_, ?_⟩
      · intro h
        cases h
      · intro h
        dsimp only at h
        omega
  | finished _ hpending error now =>
      have := hlt hpending
      refine ⟨by rw [WebhookAttempt.finished]; dsimp only; omega, ?_, ?_⟩
      · rw [WebhookAttempt.finished]
        dsimp only
        split
        · intro h
          cases h
        · split
          · intro h
            cases h
          · omega
      · rw [WebhookAttempt.finished]
        dsimp only
        intro h
        split
        · exact Or.inr rfl
        · rw [if_pos h.ge]
          exact Or.inl rfl
  | replayed _ now =>
      refine ⟨Nat.zero_le 12, fun _ => Nat.succ_pos 11, ?_⟩
      intro h
      cases h

/-- What a write of an attempt does to its count and to its status. -/
theorem WebhookAttempt.Written.counted {a a' : WebhookAttempt} (h : a.Written false a') :
  a'.status ≠ .pending ∧ a'.attempts = a.attempts ∨ a'.attempts = a.attempts + 1
  := by
  cases h with
  | superseded _ hpending =>
      left
      rw [supersede, if_pos ⟨rfl, hpending⟩]
      refine ⟨?_, rfl⟩
      intro h
      cases h
  | finished _ _ error now => exact Or.inr rfl

theorem WebhookAttempt.Written.columns
    {isReplay : Bool} {a a' : WebhookAttempt} (h : a.Written isReplay a') :
  a'.key = a.key
  := by
  cases h with
  | superseded _ hpending => exact key_supersede a.tenant a
  | finished _ _ error now => rfl
  | replayed _ now => rfl

/-! ### Claims -/

/-- What is known of a claim: unless its attempt was replayed since, the stored one counts
at least as many attempts, and once written it is another one. -/
structure WebhookClaim.Kept (db : WebhookDb) (c : WebhookClaim) : Prop where
  written_of_replayed : c.replayed = true → c.written = true
  stored : c.replayed = false → ∃ a, db.attempts.find? c.attempt.key = some a
    ∧ c.attempt.attempts ≤ a.attempts
    ∧ (c.written = true → a.status ≠ .pending ∨ c.attempt.attempts < a.attempts)

theorem WebhookClaim.Kept.wrote
    {p : String × Int × Nat → Bool} {isReplay : Bool} {db db' : WebhookDb} {c : WebhookClaim}
    (hwrites : db.Writes p isReplay db') (h : c.Kept db) :
  (c.wrote p isReplay).Kept db'
  := by
  rw [WebhookClaim.wrote]
  split
  · next hp =>
      constructor
      · intro _
        rfl
      · intro hreplayed
        obtain ⟨hold, rfl⟩ := Bool.or_eq_false_iff.mp hreplayed
        obtain ⟨a, ha, hle, _⟩ := h.stored hold
        obtain ⟨a', ha', hwritten⟩ := hwrites.old _ a ha
        rw [if_pos hp] at hwritten
        refine ⟨a', ha', ?_, ?_⟩
        · dsimp only
          rcases hwritten.counted with ⟨_, hcount⟩ | hcount
          · omega
          · omega
        · intro _
          rcases hwritten.counted with ⟨hstatus, _⟩ | hcount
          · exact Or.inl hstatus
          · right
            dsimp only
            omega
  · next hp =>
      constructor
      · exact h.written_of_replayed
      · intro hreplayed
        obtain ⟨a, ha, hle, hwritten⟩ := h.stored hreplayed
        obtain ⟨a', ha', hsame⟩ := hwrites.old _ a ha
        rw [if_neg hp] at hsame
        cases hsame
        exact ⟨a, ha', hle, hwritten⟩

/-- A claim of the attempt that is stored. -/
def WebhookClaim.IsNew (db : WebhookDb) (c : WebhookClaim) : Prop :=
  c.replayed = false ∧ c.written = false ∧ db.attempts.find? c.attempt.key = some c.attempt

theorem WebhookClaim.IsNew.kept {db : WebhookDb} {c : WebhookClaim} (h : c.IsNew db) :
  c.Kept db
  := by
  obtain ⟨hreplayed, hwritten, hstored⟩ := h
  constructor
  · intro hc
    rw [hreplayed] at hc
    cases hc
  · intro _
    refine ⟨c.attempt, hstored, Nat.le_refl _, ?_⟩
    intro hc
    rw [hwritten] at hc
    cases hc

theorem WebhookDb.find?_of_due
    {db : WebhookDb} {now : Nat} {a : WebhookAttempt} (h : a ∈ db.dueDeliveryWebhooks now) :
  db.attempts.find? a.key = some a
  := by
  have hmem := List.mem_mergeSort.mp (List.mem_of_mem_take h)
  exact Table.find?_key (List.mem_of_mem_filter hmem)

/-- The operation is a replay. -/
def WebhookOp.isReplay : WebhookOp π → Bool
  | .replay .. => true
  | _ => false

/-- A save that was made. -/
theorem WebhookDb.save_eq_ok
    {db db' : WebhookDb} {tenant actor url secret : String} {enabled : Bool} {revision : Nat}
    {now : UInt64} {hook : DeliveryWebhook}
    (h : db.saveDeliveryWebhook env changed tenant actor url secret enabled revision now
      = .ok (hook, db')) :
  db.revision tenant = revision ∧ hook = db.nextHook tenant url secret enabled revision
    ∧ db'.hooks = db.hooks.upsert hook
    ∧ db'.attempts = db.attempts.map (supersede tenant) (key_supersede tenant)
    ∧ deliveryEvent env db.log tenant "" "webhook_changed"
        (changed actor (revision + 1) enabled) now = some db'.log
  := by
  rw [saveDeliveryWebhook] at h
  split at h
  · cases h
  · split at h
    · cases h
    · next hrevision =>
        split at h
        · cases h
        · next log hlog =>
            cases h
            exact ⟨not_not.mp hrevision, rfl, rfl, rfl, hlog⟩

/-- What an operation writes, and the claims after it. -/
theorem WebhookWorld.step_writes
    {w w' : WebhookWorld} {op : WebhookOp π} (h : w.step env changed op = some w') :
  ∃ p, w.db.Writes p op.isReplay w'.db
    ∧ ∀ c ∈ w'.claims, (∃ c' ∈ w.claims, c'.wrote p op.isReplay = c) ∨ c.IsNew w'.db
  := by
  cases op with
  | append tenant grantId kind payload now =>
      obtain ⟨log, _, rfl⟩ := Option.map_eq_some_iff.mp h
      refine ⟨fun _ => false, .refl rfl, ?_⟩
      intro c hc
      exact Or.inl ⟨c, hc, rfl⟩
  | save tenant actor url secret enabled revision now =>
      rw [step] at h
      split at h
      · cases h
      · next hook db hsave =>
          cases h
          refine ⟨w.db.savePending tenant, w.db.writes_save (WebhookDb.save_eq_ok hsave).2.2.2.1,
            ?_⟩
          intro c hc
          exact Or.inl (List.mem_map.mp hc)
  | queue limit now =>
      cases h
      refine ⟨fun _ => false, w.db.writes_queue limit now, ?_⟩
      intro c hc
      exact Or.inl ⟨c, hc, rfl⟩
  | claim now =>
      cases h
      refine ⟨fun _ => false, .refl rfl, ?_⟩
      intro c hc
      rcases List.mem_append.mp hc with hc | hc
      · exact Or.inl ⟨c, hc, rfl⟩
      · obtain ⟨a, ha, rfl⟩ := List.mem_map.mp hc
        exact Or.inr ⟨rfl, rfl, WebhookDb.find?_of_due ha⟩
  | finish i error now =>
      obtain ⟨claim, _, rfl⟩ := Option.map_eq_some_iff.mp h
      refine ⟨w.db.finishes claim.attempt, w.db.writes_finish claim.attempt error now, ?_⟩
      intro c hc
      exact Or.inl (List.mem_map.mp hc)
  | replay tenant id now =>
      cases h
      refine ⟨w.db.replays tenant id, w.db.writes_replay tenant id now, ?_⟩
      intro c hc
      exact Or.inl (List.mem_map.mp hc)

/-! ### The log -/

/-- The events of a log are those of an earlier one and some with later ids. -/
def EventLog.Grows (log log' : EventLog) : Prop :=
  log.sequence ≤ log'.sequence
    ∧ ∀ row ∈ log'.rows, row ∈ log.rows ∨ (log.sequence : Int) < row.id

theorem EventLog.Grows.refl (log : EventLog) : log.Grows log :=
  ⟨Nat.le_refl _, fun _ h => Or.inl h⟩

theorem EventLog.grows_deliveryEvent
    {log log' : EventLog} {tenant grantId kind : String} {payload : π} {now : UInt64}
    (h : deliveryEvent env log tenant grantId kind payload now = some log') :
  log.Grows log'
  := by
  rw [deliveryEvent] at h
  split at h
  · cases h
    constructor
    · exact Nat.le_succ _
    · intro row hrow
      rcases List.mem_append.mp hrow with hrow | hrow
      · exact Or.inl hrow
      · right
        rw [List.mem_singleton.mp hrow]
        simp only [DeliveryEvent.row, EventDocument.event, nextDocument]
        omega
  · cases h

theorem WebhookDb.eventIds_grows
    {db db' : WebhookDb} (h : db.log.Grows db'.log) {tenant : String} {id : Int}
    (hid : id ∈ db'.eventIds tenant) :
  id ∈ db.eventIds tenant ∨ (db.log.sequence : Int) < id
  := by
  obtain ⟨row, hrow, rfl⟩ := List.mem_map.mp hid
  obtain ⟨hrow, htenant⟩ := List.mem_filter.mp hrow
  rcases h.2 row hrow with hold | hnew
  · exact Or.inl (List.mem_map_of_mem (List.mem_filter.mpr ⟨hold, htenant⟩))
  · exact Or.inr hnew

/-- An operation only appends to the log. -/
theorem WebhookWorld.step_grows
    {w w' : WebhookWorld} {op : WebhookOp π} (h : w.step env changed op = some w') :
  w.db.log.Grows w'.db.log
  := by
  cases op with
  | append tenant grantId kind payload now =>
      obtain ⟨log, hlog, rfl⟩ := Option.map_eq_some_iff.mp h
      exact EventLog.grows_deliveryEvent hlog
  | save tenant actor url secret enabled revision now =>
      rw [step] at h
      split at h
      · cases h
      · next hook db hsave =>
          cases h
          exact EventLog.grows_deliveryEvent (WebhookDb.save_eq_ok hsave).2.2.2.2
  | queue limit now =>
      cases h
      rw [(w.db.queue_spec limit now).1.log]
      exact .refl _
  | claim now =>
      cases h
      exact .refl _
  | finish i error now =>
      obtain ⟨claim, _, rfl⟩ := Option.map_eq_some_iff.mp h
      exact .refl _
  | replay tenant id now =>
      cases h
      rcases w.db.replay_cases tenant id now with ⟨hsame, _⟩ | ⟨hook, _, _, hcase⟩
      · dsimp only
        rw [hsame]
        exact .refl _
      · rcases hcase with ⟨a, _, hdb⟩ | ⟨_, hdb⟩
        · dsimp only
          rw [hdb]
          exact .refl _
        · dsimp only
          rw [hdb, (w.db.queueEvent_spec hook now id).1.log]
          exact .refl _

/-! ### The tables -/

/-- The attempt is of the revision its tenant's webhook has. -/
def WebhookDb.Current (db : WebhookDb) (a : WebhookAttempt) : Prop :=
  ∃ hook, db.hooks.find? a.tenant = some hook ∧ hook.revision = a.revision

/-- What is known of the tables. -/
structure WebhookDb.Kept (db : WebhookDb) : Prop where
  positive : ∀ row ∈ db.log.rows, 0 < row.id
  bounded : ∀ key a, db.attempts.find? key = some a → a.Bounded
  current : ∀ key a, db.attempts.find? key = some a → a.status = .pending → db.Current a
  cursor : ∀ tenant hook, db.hooks.find? tenant = some hook →
    0 ≤ hook.cursor ∧ hook.cursor ≤ (db.log.sequence : Int)

theorem WebhookDb.positive_grows
    {db db' : WebhookDb} (h : db.log.Grows db'.log) (hpositive : ∀ row ∈ db.log.rows, 0 < row.id) :
  ∀ row ∈ db'.log.rows, 0 < row.id
  := by
  intro row hrow
  rcases h.2 row hrow with hold | hnew
  · exact hpositive row hold
  · omega

theorem WebhookDb.Writes.bounded
    {p : String × Int × Nat → Bool} {isReplay : Bool} {db db' : WebhookDb}
    (h : db.Writes p isReplay db') (hbounded : ∀ key a, db.attempts.find? key = some a → a.Bounded) :
  ∀ key a, db'.attempts.find? key = some a → a.Bounded
  := by
  intro key a' ha'
  cases ha : db.attempts.find? key with
  | none => exact (h.new key a' ha' ha).bounded
  | some a =>
      obtain ⟨a'', ha'', hcase⟩ := h.old key a ha
      obtain rfl : a'' = a' := Option.some.inj (ha''.symm.trans ha')
      split at hcase
      · exact hcase.bounded (hbounded key a ha)
      · rw [hcase]
        exact hbounded key a ha

/-- Where the webhooks keep their revisions and a replay writes attempts of these, pending
attempts stay of the revisions. -/
theorem WebhookDb.Writes.current
    {p : String × Int × Nat → Bool} {isReplay : Bool} {db db' : WebhookDb}
    (h : db.Writes p isReplay db')
    (hcurrent : ∀ key a, db.attempts.find? key = some a → a.status = .pending → db.Current a)
    (hhooks : ∀ tenant hook, db.hooks.find? tenant = some hook →
      ∃ hook', db'.hooks.find? tenant = some hook' ∧ hook'.revision = hook.revision)
    (hreplay : isReplay = true → ∀ key a, db.attempts.find? key = some a → p key = true →
      db.Current a) :
  ∀ key a, db'.attempts.find? key = some a → a.status = .pending → db'.Current a
  := by
  have hkeep : ∀ a, db.Current a → db'.Current a := by
    rintro a ⟨hook, hhook, hrevision⟩
    obtain ⟨hook', hhook', hsame⟩ := hhooks _ _ hhook
    exact ⟨hook', hhook', hsame.trans hrevision⟩
  intro key a' ha' hpending
  cases ha : db.attempts.find? key with
  | none =>
      obtain ⟨_, _, hook, hhook, htenant, hrevision⟩ := h.new key a' ha' ha
      refine ⟨hook, ?_, hrevision⟩
      rw [← htenant]
      exact Table.find?_key hhook
  | some a =>
      obtain ⟨a'', ha'', hcase⟩ := h.old key a ha
      obtain rfl : a'' = a' := Option.some.inj (ha''.symm.trans ha')
      split at hcase
      · next hp =>
          cases hcase with
          | superseded _ hold =>
              rw [supersede, if_pos ⟨rfl, hold⟩] at hpending
              cases hpending
          | finished _ hold error now => exact hkeep a (hcurrent key a ha hold)
          | replayed _ now => exact hkeep a (hreplay rfl key a ha hp)
      · cases hcase
        exact hkeep a (hcurrent key a ha hpending)

/-- A save leaves no attempt of its tenant pending. -/
theorem WebhookDb.current_save
    {db db' : WebhookDb} {tenant : String} {hook : DeliveryWebhook}
    (htenant : hook.tenant = tenant) (hhooks : db'.hooks = db.hooks.upsert hook)
    (hattempts : db'.attempts = db.attempts.map (supersede tenant) (key_supersede tenant))
    (hcurrent : ∀ key a, db.attempts.find? key = some a → a.status = .pending → db.Current a) :
  ∀ key a, db'.attempts.find? key = some a → a.status = .pending → db'.Current a
  := by
  intro key a' ha' hpending
  rw [hattempts, Table.find?_map, Option.map_eq_some_iff] at ha'
  obtain ⟨a, ha, rfl⟩ := ha'
  rw [supersede] at hpending ⊢
  split at hpending
  · cases hpending
  · next hno =>
      rw [if_neg hno]
      obtain ⟨old, hold, hrevision⟩ := hcurrent key a ha hpending
      refine ⟨old, ?_, hrevision⟩
      rw [hhooks, Table.find?_upsert, if_neg, hold]
      intro he
      exact hno ⟨he.trans htenant, hpending⟩

/-! ### Cursors -/

/-- What a step does to the webhook of a tenant: it is saved anew, or it queues the events
its cursor passes. -/
inductive WebhookWorld.Moves
    (w w' : WebhookWorld) (tenant : String) (hook' : DeliveryWebhook) : Prop
  | saved (hcursor : w'.saved tenant = hook'.cursor) (hnonneg : 0 ≤ hook'.cursor)
      (hbound : hook'.cursor ≤ (w.db.log.sequence : Int))
      (hrevision : hook'.revision = w.db.revision tenant + 1)
  | moved (hook : DeliveryWebhook) (hhook : w.db.hooks.find? tenant = some hook)
      (hrevision : hook'.revision = hook.revision) (hsaved : w'.saved tenant = w.saved tenant)
      (hle : hook.cursor ≤ hook'.cursor)
      (hlast : hook'.cursor = hook.cursor ∨ hook'.cursor ∈ w'.db.eventIds tenant)
      (hqueued : ∀ id ∈ w'.db.eventIds tenant, hook.cursor < id → id ≤ hook'.cursor →
        (w'.db.attempts.find? (tenant, id, hook.revision)).isSome)

/-- A webhook that stays moves nowhere. -/
theorem WebhookWorld.Moves.refl
    {w w' : WebhookWorld} {tenant : String} {hook : DeliveryWebhook}
    (hhook : w.db.hooks.find? tenant = some hook) (hsaved : w'.saved tenant = w.saved tenant) :
  w.Moves w' tenant hook
  := by
  apply Moves.moved hook hhook rfl hsaved (le_refl _) (Or.inl rfl)
  intro id _ hlt hle
  omega

/-- A webhook after a pass. -/
theorem WebhookWorld.moves_queue
    {w : WebhookWorld} (hw : w.db.Kept) {limit now : Nat} {tenant : String}
    {hook' : DeliveryWebhook}
    (hhook' : (w.db.queueDeliveryWebhooks limit now).hooks.find? tenant = some hook') :
  w.Moves { w with db := w.db.queueDeliveryWebhooks limit now } tenant hook'
  := by
  obtain ⟨hextends, hhooks, hqueued⟩ := w.db.queue_spec limit now
  rw [hhooks, Option.map_eq_some_iff] at hhook'
  obtain ⟨hook, hhook, rfl⟩ := hhook'
  obtain rfl := (Table.find?_eq_some.mp hhook).2
  have hbatch := w.db.batch_last limit hook (hw.cursor _ hook hhook).1
  refine .moved hook hhook (w.db.passed_revision limit hook) rfl
    (DeliveryWebhook.cursor_le_passed w.db limit hook) ?_ ?_
  · dsimp only
    rw [hextends.eventIds, WebhookDb.passed]
    split
    · rcases hbatch with ⟨_, hsame⟩ | ⟨last, hlast, _, hcursor⟩
      · exact Or.inl hsame
      · right
        rw [hcursor]
        exact List.mem_of_mem_filter (List.mem_of_mem_take (List.mem_of_getLast? hlast))
    · exact Or.inl rfl
  · intro id hid hlt hle
    dsimp only at hid ⊢
    rw [hextends.eventIds] at hid
    rw [WebhookDb.passed] at hle
    split at hle
    · next henabled =>
        rcases hbatch with ⟨_, hsame⟩ | ⟨last, hlast, _, hcursor⟩
        · omega
        · apply hqueued _ hook hhook henabled
          rw [WebhookDb.batch] at hlast ⊢
          apply mem_take_of_le_last (w.db.beyond_sorted hook) hlast
          · rw [WebhookDb.beyond, List.mem_filter]
            exact ⟨hid, by simpa using hlt⟩
          · omega
    · omega

/-- A replay leaves the webhooks. -/
theorem WebhookDb.hooks_replay (db : WebhookDb) (tenant : String) (id : Int) (now : Nat) :
  (db.replayDeliveryWebhook tenant id now).2.hooks = db.hooks
  := by
  rcases db.replay_cases tenant id now with ⟨hsame, _⟩ | ⟨hook, _, _, hcase⟩
  · rw [hsame]
  · rcases hcase with ⟨a, _, hdb⟩ | ⟨_, hdb⟩
    · rw [hdb]
    · rw [hdb, (db.queueEvent_spec hook now id).2.1]

/-- The cursor a save starts from. -/
theorem WebhookDb.nextHook_cursor
    {db : WebhookDb} (hpositive : ∀ row ∈ db.log.rows, 0 < row.id) (tenant url secret : String)
    (enabled : Bool) (revision : Nat) :
  0 ≤ (db.nextHook tenant url secret enabled revision).cursor
    ∧ (db.nextHook tenant url secret enabled revision).cursor ≤ (db.log.sequence : Int)
  := by
  rw [nextHook]
  cases h : (db.eventIds tenant).getLast? with
  | none =>
      rw [Option.getD_none]
      dsimp only
      omega
  | some last =>
      have hmem := List.mem_of_getLast? h
      obtain ⟨row, hrow, rfl⟩ := List.mem_map.mp hmem
      have := hpositive row (List.mem_of_mem_filter hrow)
      have := db.eventIds_le hmem
      rw [Option.getD_some]
      dsimp only
      omega

/-- Every webhook after a step is one that moved. -/
theorem WebhookWorld.step_moves
    {w w' : WebhookWorld} (hw : w.db.Kept) {op : WebhookOp π}
    (h : w.step env changed op = some w') {tenant : String} {hook' : DeliveryWebhook}
    (hhook' : w'.db.hooks.find? tenant = some hook') :
  w.Moves w' tenant hook'
  := by
  cases op with
  | append t grantId kind payload now =>
      obtain ⟨log, _, rfl⟩ := Option.map_eq_some_iff.mp h
      exact .refl hhook' rfl
  | save t actor url secret enabled revision now =>
      rw [step] at h
      split at h
      · cases h
      · next hook db hsave =>
          cases h
          obtain ⟨hrevision, hhook, hhooks, _, _⟩ := WebhookDb.save_eq_ok hsave
          have htenant : hook.tenant = t := by rw [hhook, WebhookDb.nextHook]
          dsimp only at hhook'
          rw [hhooks, Table.find?_upsert, htenant] at hhook'
          split at hhook'
          · next ht =>
              cases hhook'
              have hcursor := WebhookDb.nextHook_cursor hw.positive t url secret enabled revision
              apply Moves.saved
              · dsimp only
                rw [if_pos ht]
              · rw [hhook]
                exact hcursor.1
              · rw [hhook]
                exact hcursor.2
              · rw [hhook, ht, hrevision]
                rfl
          · next ht =>
              apply Moves.refl hhook'
              dsimp only
              rw [if_neg ht]
  | queue limit now =>
      cases h
      exact moves_queue hw hhook'
  | claim now =>
      cases h
      exact .refl hhook' rfl
  | finish i error now =>
      obtain ⟨claim, _, rfl⟩ := Option.map_eq_some_iff.mp h
      exact .refl hhook' rfl
  | replay t id now =>
      cases h
      dsimp only at hhook'
      rw [WebhookDb.hooks_replay] at hhook'
      exact .refl hhook' rfl

/-! ### The invariant -/

/-- What holds of the tables, the claims and the saved cursors in every run. -/
structure WebhookWorld.Kept (w : WebhookWorld) : Prop where
  db : w.db.Kept
  saved : ∀ tenant hook, w.db.hooks.find? tenant = some hook →
    0 ≤ w.saved tenant ∧ w.saved tenant ≤ hook.cursor
  queued : ∀ tenant hook, w.db.hooks.find? tenant = some hook → ∀ id ∈ w.db.eventIds tenant,
    w.saved tenant < id → id ≤ hook.cursor →
      (w.db.attempts.find? (tenant, id, hook.revision)).isSome
  claims : ∀ c ∈ w.claims, c.Kept w.db

theorem WebhookWorld.kept_start (tenants : List String) : (start tenants).Kept where
  db :=
    { positive := fun _ h => by cases h
      bounded := fun _ _ h => by cases h
      current := fun _ _ h => by cases h
      cursor := fun _ _ h => by cases h }
  saved _ _ h := by cases h
  queued _ _ h := by cases h
  claims _ h := by cases h

/-- Pending attempts stay of the revisions of the webhooks. -/
theorem WebhookWorld.current_step
    {w w' : WebhookWorld} (hw : w.db.Kept) {op : WebhookOp π}
    (h : w.step env changed op = some w') :
  ∀ key a, w'.db.attempts.find? key = some a → a.status = .pending → w'.db.Current a
  := by
  cases op with
  | append tenant grantId kind payload now =>
      obtain ⟨log, _, rfl⟩ := Option.map_eq_some_iff.mp h
      exact hw.current
  | save tenant actor url secret enabled revision now =>
      rw [step] at h
      split at h
      · cases h
      · next hook db hsave =>
          cases h
          obtain ⟨_, hhook, hhooks, hattempts, _⟩ := WebhookDb.save_eq_ok hsave
          exact WebhookDb.current_save (by rw [hhook, WebhookDb.nextHook]) hhooks hattempts
            hw.current
  | queue limit now =>
      cases h
      apply (w.db.writes_queue limit now).current hw.current
      · intro tenant hook hhook
        refine ⟨w.db.passed limit hook, ?_, w.db.passed_revision limit hook⟩
        rw [(w.db.queue_spec limit now).2.1, hhook]
        rfl
      · intro hno
        cases hno
  | claim now =>
      cases h
      exact hw.current
  | finish i error now =>
      obtain ⟨claim, _, rfl⟩ := Option.map_eq_some_iff.mp h
      apply (w.db.writes_finish claim.attempt error now).current hw.current
      · intro tenant hook hhook
        exact ⟨hook, hhook, rfl⟩
      · intro hno
        cases hno
  | replay tenant id now =>
      cases h
      apply (w.db.writes_replay tenant id now).current hw.current
      · intro t hook hhook
        rw [w.db.hooks_replay]
        exact ⟨hook, hhook, rfl⟩
      · intro _ key a ha hreplays
        rcases w.db.replay_cases tenant id now with ⟨_, hno⟩ | ⟨hook, hhook, hkeys, _⟩
        · rw [hno] at hreplays
          cases hreplays
        · have hkey : a.key = (tenant, id, hook.revision) :=
            (Table.find?_eq_some.mp ha).2.trans ((hkeys key).mp hreplays)
          simp only [WebhookAttempt.key, Prod.mk.injEq] at hkey
          refine ⟨hook, ?_, hkey.2.2.symm⟩
          rw [hkey.1]
          exact hhook

theorem WebhookWorld.kept_step
    {w w' : WebhookWorld} {op : WebhookOp π} (hw : w.Kept)
    (h : w.step env changed op = some w') :
  w'.Kept
  := by
  obtain ⟨p, hwrites, hclaims⟩ := step_writes h
  have hgrows := step_grows h
  have hmoves : ∀ tenant hook, w'.db.hooks.find? tenant = some hook → w.Moves w' tenant hook := by
    intro tenant hook hhook
    exact step_moves hw.db h hhook
  constructor
  · constructor
    · exact WebhookDb.positive_grows hgrows hw.db.positive
    · exact hwrites.bounded hw.db.bounded
    · exact current_step hw.db h
    · intro tenant hook' hhook'
      have hsequence := hgrows.1
      cases hmoves tenant hook' hhook' with
      | saved hcursor hnonneg hbound hrevision => omega
      | moved hook hhook hrevision hsaved hle hlast hqueued =>
          have := hw.db.cursor tenant hook hhook
          rcases hlast with hsame | hlast
          · omega
          · have := w'.db.eventIds_le hlast
            omega
  · intro tenant hook' hhook'
    cases hmoves tenant hook' hhook' with
    | saved hcursor hnonneg hbound hrevision => omega
    | moved hook hhook hrevision hsaved hle hlast hqueued =>
        have := hw.saved tenant hook hhook
        omega
  · intro tenant hook' hhook' id hid hlt hle
    cases hmoves tenant hook' hhook' with
    | saved hcursor hnonneg hbound hrevision => omega
    | moved hook hhook hrevision hsaved hmono hlast hqueued =>
        by_cases hold : id ≤ hook.cursor
        · have hcursor := (hw.db.cursor tenant hook hhook).2
          rcases WebhookDb.eventIds_grows hgrows hid with hid | hnew
          · rw [hsaved] at hlt
            obtain ⟨a, ha⟩ := Option.isSome_iff_exists.mp
              (hw.queued tenant hook hhook id hid hlt hold)
            obtain ⟨a', ha', _⟩ := hwrites.old _ a ha
            rw [hrevision, ha']
            rfl
          · omega
        · rw [hrevision]
          exact hqueued id hid (by omega) hle
  · intro c hc
    rcases hclaims c hc with ⟨c', hc', rfl⟩ | hnew
    · exact (hw.claims c' hc').wrote hwrites
    · exact hnew.kept

/-! ### What the queue promises -/

/-- What the queue promises of a state: the events after the saved cursor that the cursor
has passed are queued once, a pass queues the next ones, and an attempt is dead or
delivered once twelve are counted. -/
structure WebhookWorld.Honoured (w : WebhookWorld) : Prop where
  saved : ∀ tenant hook, w.db.hooks.find? tenant = some hook →
    w.saved tenant ≤ hook.cursor ∧ hook.cursor ≤ (w.db.log.sequence : Int)
  queued : ∀ tenant hook, w.db.hooks.find? tenant = some hook → ∀ id ∈ w.db.eventIds tenant,
    w.saved tenant < id → id ≤ hook.cursor →
      w.db.attempts.rows.countP (·.key = (tenant, id, hook.revision)) = 1
  pass : ∀ limit now tenant hook, w.db.hooks.find? tenant = some hook → hook.enabled = true →
    ∃ hook', (w.db.queueDeliveryWebhooks limit now).hooks.find? tenant = some hook'
      ∧ hook'.revision = hook.revision
      ∧ (w.db.queueDeliveryWebhooks limit now).beyond hook' = (w.db.beyond hook).drop limit
  attempts : ∀ a ∈ w.db.attempts.rows,
    a.attempts ≤ 12 ∧ (a.attempts = 12 → a.status = .dead ∨ a.status = .delivered)

/-- What the queue promises of a step: a cursor stays or moves forward within a revision,
an attempt counts one more when it is finished and starts again only by a replay, and a
finish of a claim that is out of date changes nothing. -/
structure WebhookWorld.StepHonoured (w : WebhookWorld) (op : WebhookOp π) (w' : WebhookWorld) :
    Prop where
  cursor : ∀ tenant hook hook', w.db.hooks.find? tenant = some hook →
    w'.db.hooks.find? tenant = some hook' → hook'.revision = hook.revision →
      hook.cursor ≤ hook'.cursor
  attempt : ∀ key a, w.db.attempts.find? key = some a →
    ∃ a', w'.db.attempts.find? key = some a' ∧ (a' = a ∨ a.Written op.isReplay a')
  stale : ∀ i error now c, op = .finish i error now → w.claims[i]? = some c →
    c.written = true ∨ w.db.revision c.attempt.tenant ≠ c.attempt.revision → w'.db = w.db

/-- A claim whose attempt was replayed since is not finished where the attempt is pending
with as many attempts counted as the claim has. -/
def WebhookWorld.Meets (w : WebhookWorld) : WebhookOp π → Prop
  | .finish i _ _ => ∀ c, w.claims[i]? = some c → c.replayed = true →
      ∀ a, w.db.attempts.find? c.attempt.key = some a → a.status = .pending →
        a.attempts ≠ c.attempt.attempts
  | _ => True

/-- A pass leaves the events after its batch. -/
theorem WebhookDb.beyond_passed
    {db : WebhookDb} {limit now : Nat} {hook : DeliveryWebhook} (hcursor : 0 ≤ hook.cursor)
    (henabled : hook.enabled = true) :
  (db.queueDeliveryWebhooks limit now).beyond (db.passed limit hook)
    = (db.beyond hook).drop limit
  := by
  rw [beyond, passed_tenant, (db.queue_spec limit now).1.eventIds, passed, if_pos henabled]
  rcases db.batch_last limit hook hcursor with ⟨hnone, hsame⟩ | ⟨last, hlast, hlt, hlast'⟩
  · rw [hsame]
    rw [batch, List.getLast?_eq_none_iff] at hnone
    have hsplit := List.take_append_drop limit (db.beyond hook)
    rw [hnone, List.nil_append] at hsplit
    rw [hsplit, beyond]
  · rw [hlast', ← filter_gt_last (db.beyond_sorted hook) hlast, beyond, List.filter_filter]
    apply List.filter_congr
    intro id _
    rw [Bool.eq_iff_iff]
    simp only [decide_eq_true_eq, Bool.and_eq_true]
    omega

theorem WebhookWorld.Kept.honoured {w : WebhookWorld} (hw : w.Kept) :
  w.Honoured
  where
    saved tenant hook hhook :=
      ⟨(hw.saved tenant hook hhook).2, (hw.db.cursor tenant hook hhook).2⟩
    queued tenant hook hhook id hid hlt hle := by
      obtain ⟨a, ha⟩ := Option.isSome_iff_exists.mp (hw.queued tenant hook hhook id hid hlt hle)
      exact Table.countP_key ha
    pass limit now tenant hook hhook henabled := by
      refine ⟨w.db.passed limit hook, ?_, w.db.passed_revision limit hook, ?_⟩
      · rw [(w.db.queue_spec limit now).2.1, hhook]
        rfl
      · exact WebhookDb.beyond_passed (hw.db.cursor tenant hook hhook).1 henabled
    attempts a ha := by
      obtain ⟨hle, _, hdead⟩ := hw.db.bounded a.key a (Table.find?_key ha)
      exact ⟨hle, hdead⟩

/-- A finish that does not find the claimed attempt changes nothing. -/
theorem WebhookDb.finish_eq_self
    {db : WebhookDb} {attempt : WebhookAttempt} {error : Option String} {now : Nat}
    (h : ∀ a, db.attempts.find? attempt.key = some a → ¬ a.claimedAs attempt) :
  db.finishDeliveryWebhook attempt error now = db
  := by
  have hsame : (db.finishDeliveryWebhook attempt error now).attempts = db.attempts := by
    apply Table.ext
    apply Eq.trans (List.map_congr_left _) (List.map_id _)
    intro a ha
    rw [if_neg, id]
    intro hclaimed
    apply h a _ hclaimed
    rw [← hclaimed.1]
    exact Table.find?_key ha
  rw [finishDeliveryWebhook] at hsame ⊢
  dsimp only at hsame
  rw [hsame]

/-- An effective finish counts an attempt. -/
theorem WebhookDb.finish_claimed
    {db : WebhookDb} {attempt a : WebhookAttempt} (error : Option String) (now : Nat)
    (ha : db.attempts.find? attempt.key = some a) (hclaimed : a.claimedAs attempt) :
  (db.finishDeliveryWebhook attempt error now).attempts.find? attempt.key
    = some (a.finished (attempt.attempts + 1) error now)
  := by
  rw [finishDeliveryWebhook]
  dsimp only
  rw [Table.find?_map, ha, Option.map_some, if_pos hclaimed]

/-- A step promises what it should exactly when its claim is not one that was replayed and
has come to the same count again. -/
theorem WebhookWorld.Kept.stepHonoured_iff
    {w : WebhookWorld} (hw : w.Kept) (op : WebhookOp π) :
  (∀ w', w.step env changed op = some w' → w.StepHonoured op w') ↔ w.Meets op
  := by
  constructor
  · intro hstep
    cases op with
    | finish i error now =>
        intro c hc hreplayed a ha hpending hcount
        have hclaimed : a.claimedAs c.attempt := ⟨(Table.find?_eq_some.mp ha).2, hpending, hcount⟩
        have hsame := (hstep _ (Option.map_eq_some_iff.mpr ⟨c, hc, rfl⟩)).stale i error now c rfl hc
          (Or.inl ((hw.claims c (List.mem_of_getElem? hc)).written_of_replayed hreplayed))
        have hfinished := WebhookDb.finish_claimed error now ha hclaimed
        dsimp only at hsame
        rw [hsame, ha, Option.some.injEq] at hfinished
        have := congrArg WebhookAttempt.attempts hfinished
        rw [WebhookAttempt.finished] at this
        dsimp only at this
        omega
    | append => trivial
    | save => trivial
    | queue => trivial
    | claim => trivial
    | replay => trivial
  · intro hmeets w' h
    constructor
    · intro tenant hook hook' hhook hhook' hsame
      cases step_moves hw.db h hhook' with
      | saved hcursor hnonneg hbound hrevision =>
          rw [WebhookDb.revision, hhook, Option.map_some, Option.getD_some] at hrevision
          omega
      | moved old hold hrevision hsaved hle hlast hqueued =>
          rw [hhook] at hold
          cases hold
          exact hle
    · intro key a ha
      obtain ⟨p, hwrites, _⟩ := step_writes h
      obtain ⟨a', ha', hcase⟩ := hwrites.old key a ha
      refine ⟨a', ha', ?_⟩
      split at hcase
      · exact Or.inr hcase
      · exact Or.inl hcase
    · rintro i error now c rfl hc hstale
      obtain ⟨c', hc', rfl⟩ := Option.map_eq_some_iff.mp h
      rw [hc] at hc'
      cases hc'
      apply WebhookDb.finish_eq_self
      rintro a ha ⟨_, hpending, hcount⟩
      cases hreplayed : c.replayed with
      | true => exact hmeets c hc hreplayed a ha hpending hcount
      | false =>
          obtain ⟨stored, hstored, _, hwritten⟩ :=
            (hw.claims c (List.mem_of_getElem? hc)).stored hreplayed
          rw [ha] at hstored
          cases hstored
          rcases hstale with hstale | hrevision
          · rcases hwritten hstale with hno | hlt
            · exact hno hpending
            · omega
          · obtain ⟨hook, hhook, hof⟩ := hw.db.current _ a ha hpending
            have hkey : a.key = c.attempt.key := (Table.find?_eq_some.mp ha).2
            simp only [WebhookAttempt.key, Prod.mk.injEq] at hkey
            apply hrevision
            rw [WebhookDb.revision, ← hkey.1, hhook, Option.map_some, Option.getD_some, hof,
              hkey.2.2]

/-- In every run the state is as the queue promises, and the steps are exactly when each of
them meets the condition on its claim. -/
theorem webhooks_honoured
    (env : EventEnv π) (changed : String → Nat → Bool → π) (tenants : List String)
    (ops : List (WebhookOp π)) :
  (∀ w, Runs.run (WebhookWorld.step env changed) (.start tenants) ops = some w → w.Honoured)
    ∧ (Runs.Along (WebhookWorld.step env changed)
        (fun w op => ∀ w', w.step env changed op = some w' → w.StepHonoured op w')
        (.start tenants) ops
      ↔ Runs.Along (WebhookWorld.step env changed) WebhookWorld.Meets (.start tenants) ops)
  := by
  have hstart := WebhookWorld.kept_start tenants
  constructor
  · intro w hrun
    exact (Runs.run_invariant (fun _ _ _ => WebhookWorld.kept_step) hstart hrun).honoured
  · exact Runs.along_congr (fun _ _ _ => WebhookWorld.kept_step)
      (fun _ op hw => hw.stepHonoured_iff op) hstart

/-- A webhook whose first event is queued and claimed, and replayed before the finish. -/
def claimThenReplay : List (WebhookOp String) :=
  [.save "acme" "owner" "https://hook" "secret" true 0 1, .queue queueLimit 2, .claim 3,
    .replay "acme" 1 4]

/-- The finish of a claim from before a replay delivers the attempt the replay has put back. -/
theorem finish_after_replay :
  ∃ w c w', Runs.run (WebhookWorld.step sampleEventEnv fun _ _ _ => "{}") (.start ["acme"])
      claimThenReplay = some w
    ∧ w.claims[0]? = some c ∧ c.written = true
    ∧ w.step sampleEventEnv (fun _ _ _ => "{}") (.finish 0 none 5) = some w'
    ∧ w.db.attempts.rows.map WebhookAttempt.status = [.pending]
    ∧ w'.db.attempts.rows.map WebhookAttempt.status = [.delivered]
  := by
  have h : ((Runs.run (WebhookWorld.step sampleEventEnv fun _ _ _ => "{}") (.start ["acme"])
      claimThenReplay).bind fun w => w.claims[0]?.bind fun c =>
        (w.step sampleEventEnv (fun _ _ _ => "{}") (.finish 0 none 5)).map fun w' =>
          (c.written, w.db.attempts.rows.map WebhookAttempt.status,
            w'.db.attempts.rows.map WebhookAttempt.status))
      = some (true, [.pending], [.delivered]) := by
    decide +kernel
  obtain ⟨w, hw, h⟩ := Option.bind_eq_some_iff.mp h
  obtain ⟨c, hc, h⟩ := Option.bind_eq_some_iff.mp h
  obtain ⟨w', hw', h⟩ := Option.map_eq_some_iff.mp h
  simp only [Prod.mk.injEq] at h
  obtain ⟨hwritten, hbefore, hafter⟩ := h
  exact ⟨w, c, w', hw, hc, hwritten, hw', hbefore, hafter⟩

end Votport
