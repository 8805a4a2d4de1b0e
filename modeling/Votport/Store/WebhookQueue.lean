import Votport.Foundation.Runs
import Votport.Store.Webhooks

/-!
# What the webhook queue guarantees

Every event a webhook's cursor has passed since its save has one attempt of its revision,
and a pass moves the cursor on by a batch.  A claim that is out of date finishes nothing,
unless the attempt was replayed since and has come to the same number of attempts again.
-/

namespace Votport

variable {π : Type*}

/-! ### Ids of events -/

theorem WebhookDb.eventIds_sorted (db : WebhookDb) (tenant : String) :
  (db.eventIds tenant).Pairwise (· < ·)
  := by
  rw [eventIds, List.pairwise_map]
  exact db.log.sorted.sublist List.filter_sublist

theorem WebhookDb.eventIds_le
    (db : WebhookDb) {tenant : String} {id : Int} (h : id ∈ db.eventIds tenant) :
  id ≤ (db.log.sequence : Int)
  := by
  obtain ⟨row, hrow, rfl⟩ := List.mem_map.mp h
  exact db.log.bounded row (List.mem_of_mem_filter hrow)

theorem WebhookDb.beyond_sorted (db : WebhookDb) (hook : DeliveryWebhook) :
  (db.beyond hook).Pairwise (· < ·)
  := (db.eventIds_sorted hook.tenant).sublist List.filter_sublist

/-- In a sorted list, what is at most the last of an initial segment is in the segment. -/
theorem mem_take_of_le_last
    {ids : List Int} (hsorted : ids.Pairwise (· < ·)) {n : Nat} {last id : Int}
    (hlast : (ids.take n).getLast? = some last) (hid : id ∈ ids) (hle : id ≤ last) :
  id ∈ ids.take n
  := by
  rw [← List.take_append_drop n ids] at hid hsorted
  rcases List.mem_append.mp hid with hid | hid
  · exact hid
  · have := (List.pairwise_append.mp hsorted).2.2 last (List.mem_of_getLast? hlast) id hid
    omega

/-- In a sorted list, what is above the last of an initial segment is the rest. -/
theorem filter_gt_last
    {ids : List Int} (hsorted : ids.Pairwise (· < ·)) {n : Nat} {last : Int}
    (hlast : (ids.take n).getLast? = some last) :
  ids.filter (last < ·) = ids.drop n
  := by
  have hsplit := List.take_append_drop n ids
  rw [← hsplit, List.pairwise_append] at hsorted
  obtain ⟨htake, _, hcross⟩ := hsorted
  obtain ⟨init, hinit⟩ := List.getLast?_eq_some_iff.mp hlast
  nth_rewrite 1 [← hsplit]
  rw [List.filter_append, List.filter_eq_nil_iff.mpr, List.filter_eq_self.mpr, List.nil_append]
  · intro id hid
    have := hcross last (List.mem_of_getLast? hlast) id hid
    simpa using this
  · intro id hid
    rw [hinit, List.pairwise_append] at htake
    rw [hinit] at hid
    rcases List.mem_append.mp hid with hid | hid
    · have := htake.2.2 id hid last (List.mem_singleton_self last)
      simp only [decide_eq_true_eq]
      omega
    · rw [List.mem_singleton.mp hid]
      simp

/-! ### What queueing does -/

/-- An attempt of one of the webhooks' revisions that has not been sent. -/
def Unsent (hooks : List DeliveryWebhook) (a : WebhookAttempt) : Prop :=
  a.status = .pending ∧ a.attempts = 0
    ∧ ∃ hook ∈ hooks, hook.tenant = a.tenant ∧ hook.revision = a.revision

/-- The attempts are the earlier ones and some of the webhooks that have not been sent;
nothing but the hooks and the attempts changed. -/
structure WebhookDb.Extends (hooks : List DeliveryWebhook) (db db' : WebhookDb) : Prop where
  old : ∀ key a, db.attempts.find? key = some a → db'.attempts.find? key = some a
  new : ∀ key a, db'.attempts.find? key = some a →
    db.attempts.find? key = some a ∨ Unsent hooks a
  log : db'.log = db.log
  tenants : db'.tenants = db.tenants

theorem WebhookDb.Extends.refl (hooks : List DeliveryWebhook) (db : WebhookDb) :
  db.Extends hooks db
  where
    old _ _ h := h
    new _ _ h := Or.inl h
    log := rfl
    tenants := rfl

theorem WebhookDb.Extends.trans
    {hooks hooks' hooks'' : List DeliveryWebhook} {db db' db'' : WebhookDb}
    (h : db.Extends hooks db') (h' : db'.Extends hooks' db'')
    (hsub : hooks ⊆ hooks'') (hsub' : hooks' ⊆ hooks'') :
  db.Extends hooks'' db''
  where
    old key a ha := h'.old key a (h.old key a ha)
    new key a ha := by
      rcases h'.new key a ha with ha | ⟨hpending, hzero, hook, hhook, hof⟩
      · rcases h.new key a ha with ha | ⟨hpending, hzero, hook, hhook, hof⟩
        · exact Or.inl ha
        · exact Or.inr ⟨hpending, hzero, hook, hsub hhook, hof⟩
      · exact Or.inr ⟨hpending, hzero, hook, hsub' hhook, hof⟩
    log := h'.log.trans h.log
    tenants := h'.tenants.trans h.tenants

theorem WebhookDb.Extends.eventIds
    {hooks : List DeliveryWebhook} {db db' : WebhookDb} (h : db.Extends hooks db')
    (tenant : String) :
  db'.eventIds tenant = db.eventIds tenant
  := by
  rw [WebhookDb.eventIds, h.log, WebhookDb.eventIds]

theorem WebhookDb.queueEvent_spec (hook : DeliveryWebhook) (now : Nat) (db : WebhookDb) (id : Int) :
  db.Extends [hook] (db.queueEvent hook now id) ∧ (db.queueEvent hook now id).hooks = db.hooks
    ∧ ((db.queueEvent hook now id).attempts.find? (hook.tenant, id, hook.revision)).isSome
  := by
  rw [queueEvent]
  cases h : db.attempts.insert? (newAttempt (db.attemptSequence + 1) hook id now) with
  | none =>
      refine ⟨⟨fun _ _ h => h, fun _ _ h => Or.inl h, rfl, rfl⟩, rfl, ?_⟩
      by_contra hno
      rw [Bool.not_eq_true, Option.isSome_eq_false_iff, Option.isNone_iff_eq_none] at hno
      rw [Table.insert?_of_absent hno] at h
      cases h
  | some attempts =>
      have habsent := (Table.insert?_eq_some.mp h).1
      have hkey : (newAttempt (db.attemptSequence + 1) hook id now).key
          = (hook.tenant, id, hook.revision) := rfl
      refine ⟨⟨?_, ?_, rfl, rfl⟩, rfl, ?_⟩
      · intro key a ha
        dsimp only
        rw [Table.find?_insert? h, if_neg, ha]
        rintro rfl
        rw [ha] at habsent
        cases habsent
      · intro key a ha
        dsimp only at ha
        rw [Table.find?_insert? h] at ha
        split at ha
        · cases ha
          exact Or.inr ⟨rfl, rfl, hook, List.mem_singleton_self hook, rfl, rfl⟩
        · exact Or.inl ha
      · dsimp only
        rw [Table.find?_insert? h, if_pos hkey.symm]
        rfl

theorem WebhookDb.queueEvents_spec
    (hook : DeliveryWebhook) (now : Nat) (ids : List Int) (db : WebhookDb) :
  db.Extends [hook] (ids.foldl (WebhookDb.queueEvent hook now) db)
    ∧ (ids.foldl (WebhookDb.queueEvent hook now) db).hooks = db.hooks
    ∧ ∀ id ∈ ids, ((ids.foldl (WebhookDb.queueEvent hook now) db).attempts.find?
        (hook.tenant, id, hook.revision)).isSome
  := by
  induction ids generalizing db with
  | nil => exact ⟨Extends.refl [hook] db, rfl, fun id h => by cases h⟩
  | cons id ids ih =>
      obtain ⟨hfirst, hhooks, hsome⟩ := db.queueEvent_spec hook now id
      obtain ⟨hrest, hhooks', hall⟩ := ih (db.queueEvent hook now id)
      refine ⟨hfirst.trans hrest (List.Subset.refl _) (List.Subset.refl _),
        hhooks'.trans hhooks, ?_⟩
      intro id' hid'
      rcases List.mem_cons.mp hid' with rfl | hid'
      · obtain ⟨a, ha⟩ := Option.isSome_iff_exists.mp hsome
        rw [List.foldl_cons, hrest.old _ a ha]
        rfl
      · exact hall id' hid'

/-- The webhook after a batch. -/
def DeliveryWebhook.moved (hook : DeliveryWebhook) (last : Option Int) : DeliveryWebhook :=
  { hook with cursor := max hook.cursor (last.getD 0) }

/-- What a batch for one webhook does: its events are queued, its cursor moves to the last
of them, and the other webhooks stay. -/
theorem WebhookDb.queueHook_spec (limit now : Nat) (db : WebhookDb) (hook : DeliveryWebhook) :
  db.Extends [hook] (db.queueHook limit now hook)
    ∧ (∀ tenant, (db.queueHook limit now hook).hooks.find? tenant
        = (db.hooks.find? tenant).map fun h =>
            if tenant = hook.tenant then h.moved ((db.beyond hook).take limit).getLast? else h)
    ∧ ∀ id ∈ (db.beyond hook).take limit, ((db.queueHook limit now hook).attempts.find?
        (hook.tenant, id, hook.revision)).isSome
  := by
  obtain ⟨hextends, hhooks, hall⟩ :=
    WebhookDb.queueEvents_spec hook now ((db.beyond hook).take limit) db
  refine ⟨⟨hextends.old, hextends.new, hextends.log, hextends.tenants⟩, ?_, hall⟩
  intro tenant
  rw [queueHook]
  dsimp only
  rw [Table.find?_map, hhooks]
  cases h : db.hooks.find? tenant with
  | none => rfl
  | some found =>
      have hkey : found.tenant = tenant := (Table.find?_eq_some.mp h).2
      rw [Option.map_some, Option.map_some]
      by_cases ht : tenant = hook.tenant
      · rw [if_pos (hkey.trans ht), if_pos ht]
        rfl
      · rw [if_neg (hkey ▸ ht), if_neg ht]

/-- The batch a pass takes for a webhook. -/
def WebhookDb.batch (db : WebhookDb) (limit : Nat) (hook : DeliveryWebhook) : List Int :=
  (db.beyond hook).take limit

/-- What the passes over some of the webhooks do. -/
theorem WebhookDb.queueHooks_spec
    (limit now : Nat) (hooks : List DeliveryWebhook) (db : WebhookDb)
    (hnodup : (hooks.map DeliveryWebhook.tenant).Nodup) :
  db.Extends hooks (hooks.foldl (WebhookDb.queueHook limit now) db)
    ∧ (∀ hook ∈ hooks, (hooks.foldl (WebhookDb.queueHook limit now) db).hooks.find? hook.tenant
        = (db.hooks.find? hook.tenant).map (·.moved (db.batch limit hook).getLast?))
    ∧ (∀ tenant, (∀ hook ∈ hooks, hook.tenant ≠ tenant) →
        (hooks.foldl (WebhookDb.queueHook limit now) db).hooks.find? tenant
          = db.hooks.find? tenant)
    ∧ ∀ hook ∈ hooks, ∀ id ∈ db.batch limit hook,
        ((hooks.foldl (WebhookDb.queueHook limit now) db).attempts.find?
          (hook.tenant, id, hook.revision)).isSome
  := by
  induction hooks generalizing db with
  | nil =>
      refine ⟨Extends.refl [] db, ?_, ?_, ?_⟩
      · intro hook hhook
        cases hhook
      · intro tenant _
        rfl
      · intro hook hhook
        cases hhook
  | cons hook hooks ih =>
      rw [List.map_cons, List.nodup_cons] at hnodup
      obtain ⟨hfirst, hmoved, hqueued⟩ := db.queueHook_spec limit now hook
      obtain ⟨hrest, hmoved', hkept, hqueued'⟩ := ih (db.queueHook limit now hook) hnodup.2
      have hother : ∀ h ∈ hooks, h.tenant ≠ hook.tenant := by
        intro h hh he
        apply hnodup.1
        rw [← he]
        exact List.mem_map_of_mem hh
      have hbatch : ∀ h, (db.queueHook limit now hook).batch limit h = db.batch limit h := by
        intro h
        rw [batch, batch, beyond, beyond, hfirst.eventIds]
      refine ⟨hfirst.trans hrest ?_ (List.subset_cons_self hook hooks), ?_, ?_, ?_⟩
      · intro h hh
        rw [List.mem_singleton.mp hh]
        exact List.mem_cons_self
      · intro h hh
        rw [List.foldl_cons]
        rcases List.mem_cons.mp hh with rfl | hh
        · rw [hkept h.tenant hother, hmoved]
          simp only [if_true]
          rfl
        · rw [hmoved' h hh, hmoved, hbatch]
          simp only [if_neg (hother h hh), Option.map_id']
      · intro tenant htenant
        rw [List.foldl_cons, hkept tenant fun h hh => htenant h (List.mem_cons_of_mem _ hh), hmoved]
        simp only [if_neg (Ne.symm (htenant hook List.mem_cons_self)), Option.map_id']
      · intro h hh id hid
        rw [List.foldl_cons]
        rcases List.mem_cons.mp hh with rfl | hh
        · obtain ⟨a, ha⟩ := Option.isSome_iff_exists.mp (hqueued id hid)
          rw [hrest.old _ a ha]
          rfl
        · apply hqueued' h hh
          rw [hbatch]
          exact hid

/-- A webhook after a pass. -/
def WebhookDb.passed (db : WebhookDb) (limit : Nat) (hook : DeliveryWebhook) : DeliveryWebhook :=
  if hook.enabled then hook.moved (db.batch limit hook).getLast? else hook

/-- What a pass does: the batch of every enabled webhook is queued and its cursor moved,
the other webhooks stay. -/
theorem WebhookDb.queue_spec (limit now : Nat) (db : WebhookDb) :
  db.Extends (db.hooks.rows.filter DeliveryWebhook.enabled) (db.queueDeliveryWebhooks limit now)
    ∧ (∀ tenant, (db.queueDeliveryWebhooks limit now).hooks.find? tenant
        = (db.hooks.find? tenant).map (db.passed limit))
    ∧ ∀ tenant hook, db.hooks.find? tenant = some hook → hook.enabled = true →
        ∀ id ∈ db.batch limit hook,
          ((db.queueDeliveryWebhooks limit now).attempts.find?
            (tenant, id, hook.revision)).isSome
  := by
  have hnodup : ((db.hooks.rows.filter DeliveryWebhook.enabled).map
      DeliveryWebhook.tenant).Nodup :=
    (List.filter_sublist.map _).nodup db.hooks.nodup
  obtain ⟨hextends, hmoved, hkept, hqueued⟩ := db.queueHooks_spec limit now _ hnodup
  refine ⟨hextends, ?_, ?_⟩
  · intro tenant
    cases h : db.hooks.find? tenant with
    | none =>
        rw [queueDeliveryWebhooks, hkept, h]
        · rfl
        · intro hook hhook
          exact Table.find?_eq_none.mp h hook (List.mem_of_mem_filter hhook)
    | some hook =>
        obtain ⟨hrow, rfl⟩ := Table.find?_eq_some.mp h
        rw [Option.map_some, passed]
        split
        · next henabled =>
            rw [queueDeliveryWebhooks, hmoved hook (List.mem_filter.mpr ⟨hrow, henabled⟩), h]
            rfl
        · next henabled =>
            rw [queueDeliveryWebhooks, hkept, h]
            intro hook' hhook' he
            obtain ⟨hrow', henabled'⟩ := List.mem_filter.mp hhook'
            obtain rfl := db.hooks.eq_of_key_eq hrow' hrow he
            exact henabled henabled'
  · intro tenant hook h henabled id hid
    obtain ⟨hrow, rfl⟩ := Table.find?_eq_some.mp h
    exact hqueued hook (List.mem_filter.mpr ⟨hrow, henabled⟩) id hid

/-- A pass moves a cursor forward. -/
theorem DeliveryWebhook.cursor_le_passed (db : WebhookDb) (limit : Nat) (hook : DeliveryWebhook) :
  hook.cursor ≤ (db.passed limit hook).cursor
  := by
  rw [WebhookDb.passed]
  split
  · exact le_max_left _ _
  · exact le_rfl

@[simp]
theorem WebhookDb.passed_revision (db : WebhookDb) (limit : Nat) (hook : DeliveryWebhook) :
  (db.passed limit hook).revision = hook.revision
  := by
  rw [passed]
  split <;> rfl

@[simp]
theorem WebhookDb.passed_enabled (db : WebhookDb) (limit : Nat) (hook : DeliveryWebhook) :
  (db.passed limit hook).enabled = hook.enabled
  := by
  rw [passed]
  split <;> rfl

@[simp]
theorem WebhookDb.passed_tenant (db : WebhookDb) (limit : Nat) (hook : DeliveryWebhook) :
  (db.passed limit hook).tenant = hook.tenant
  := by
  rw [passed]
  split <;> rfl

/-- The cursor after a batch: the last event of it, or the same without one. -/
theorem WebhookDb.batch_last
    (db : WebhookDb) (limit : Nat) (hook : DeliveryWebhook) (hcursor : 0 ≤ hook.cursor) :
  ((db.batch limit hook).getLast? = none ∧ (hook.moved (db.batch limit hook).getLast?).cursor
      = hook.cursor)
    ∨ ∃ last, (db.batch limit hook).getLast? = some last ∧ hook.cursor < last
        ∧ (hook.moved (db.batch limit hook).getLast?).cursor = last
  := by
  cases h : (db.batch limit hook).getLast? with
  | none =>
      left
      refine ⟨rfl, ?_⟩
      rw [DeliveryWebhook.moved, Option.getD_none, max_eq_left hcursor]
  | some last =>
      right
      have hmem : last ∈ db.beyond hook := List.mem_of_mem_take (List.mem_of_getLast? h)
      have hlt : hook.cursor < last := by
        simpa using List.of_mem_filter hmem
      refine ⟨last, rfl, hlt, ?_⟩
      rw [DeliveryWebhook.moved, Option.getD_some, max_eq_right hlt.le]

end Votport
