import Votport.Store.Evidence

/-!
# Exporting the event log

A client fetches the pages of a tenant's events one after the other, each from the end of
the one before and all up to the terminal place of the first.  While events are appended
in between, the pages put together are the tenant's events up to that place.  When the
rows are altered, a client that gets to the terminal place has the events of the log.
-/

namespace Votport

variable {π : Type*}

/-! ### Sorted events -/

/-- The events after `a` and up to `b`. -/
def eventsBetween (events : List (DeliveryEvent π)) (a b : Nat) : List (DeliveryEvent π) :=
  events.filter fun event => a < event.id ∧ event.id ≤ b

theorem mem_eventsBetween {events : List (DeliveryEvent π)} {a b : Nat} {e : DeliveryEvent π} :
  e ∈ eventsBetween events a b ↔ e ∈ events ∧ a < e.id ∧ e.id ≤ b
  := by
  simp [eventsBetween]

theorem eventsBetween_self (events : List (DeliveryEvent π)) (a : Nat) :
  eventsBetween events a a = []
  := by
  rw [eventsBetween, List.filter_eq_nil_iff]
  intro e _
  simp only [decide_eq_true_eq]
  omega

theorem eventsBetween_cons (e : DeliveryEvent π) (events : List (DeliveryEvent π)) (a b : Nat) :
  eventsBetween (e :: events) a b
    = if a < e.id ∧ e.id ≤ b then e :: eventsBetween events a b
      else eventsBetween events a b
  := by
  rw [eventsBetween, List.filter_cons]
  simp [eventsBetween]

theorem eventsBetween_eq_nil
    {events : List (DeliveryEvent π)} {a b : Nat} (h : ∀ e ∈ events, b < e.id) :
  eventsBetween events a b = []
  := by
  rw [eventsBetween, List.filter_eq_nil_iff]
  intro e he
  have := h e he
  simp only [decide_eq_true_eq]
  omega

theorem eventsBetween_append
    {events : List (DeliveryEvent π)} (hsorted : events.Pairwise (·.id < ·.id)) {a b c : Nat}
    (hab : a ≤ b) (hbc : b ≤ c) :
  eventsBetween events a b ++ eventsBetween events b c = eventsBetween events a c
  := by
  induction events with
  | nil => rfl
  | cons e events ih =>
      obtain ⟨hhead, htail⟩ := List.pairwise_cons.mp hsorted
      have ih := ih htail
      rw [eventsBetween_cons, eventsBetween_cons, eventsBetween_cons]
      by_cases heb : e.id ≤ b
      · have hbe : ¬ (b < e.id ∧ e.id ≤ c) := by omega
        rw [if_neg hbe]
        by_cases hea : a < e.id
        · have hec : e.id ≤ c := by omega
          rw [if_pos ⟨hea, heb⟩, if_pos ⟨hea, hec⟩, List.cons_append, ih]
        · rw [if_neg (fun h => hea h.1), if_neg (fun h => hea h.1), ih]
      · have hnone : eventsBetween events a b = [] := by
          apply eventsBetween_eq_nil
          intro x hx
          have := hhead x hx
          omega
        have hae : a < e.id := by omega
        have hbe : b < e.id := by omega
        rw [hnone, List.nil_append] at ih
        rw [if_neg (fun h => heb h.2), hnone, List.nil_append, ih]
        simp only [hae, hbe, true_and]

/-- The events of an initial segment are those up to its last one. -/
theorem take_eq_filter
    {events : List (DeliveryEvent π)} (hsorted : events.Pairwise (·.id < ·.id)) {k : Nat}
    {e : DeliveryEvent π} (he : (events.take k).getLast? = some e) :
  events.take k = events.filter (·.id ≤ e.id)
  := by
  obtain ⟨init, hinit⟩ := List.getLast?_eq_some_iff.mp he
  have hsplit := List.take_append_drop k events
  rw [← hsplit, List.pairwise_append, hinit] at hsorted
  obtain ⟨hinitSorted, _, hcross⟩ := hsorted
  rw [List.pairwise_append] at hinitSorted
  nth_rewrite 2 [← hsplit]
  rw [List.filter_append, hinit]
  have hkeep : (init ++ [e]).filter (fun x => decide (x.id ≤ e.id)) = init ++ [e] := by
    rw [List.filter_eq_self]
    intro x hx
    rw [decide_eq_true_eq]
    rcases List.mem_append.mp hx with hx | hx
    · have := hinitSorted.2.2 x hx e (List.mem_singleton_self e)
      omega
    · obtain rfl := List.mem_singleton.mp hx
      apply Nat.le_refl
  have hdrop : (events.drop k).filter (fun x => decide (x.id ≤ e.id)) = [] := by
    rw [List.filter_eq_nil_iff]
    intro x hx
    have := hcross e (by simp) x hx
    rw [decide_eq_true_eq]
    omega
  rw [hkeep, hdrop, List.append_nil]

/-! ### A tenant's chain -/

/-- The rows of a tenant are the rows of these events: verified, in the order of their ids
and each linked to the one before. -/
structure TenantLog
    (env : EventEnv π) (table : EventTable) (tenant : String)
    (events : List (DeliveryEvent π)) : Prop where
  rows : table.ofTenant tenant = events.map (·.row env)
  verified : ∀ e ∈ events, e.verifyFor env tenant = true
  ids : ∀ e ∈ events, e.id ≤ i64Max
  sorted : events.Pairwise (·.id < ·.id)
  linked : HashChain.Linked DeliveryEvent.hash DeliveryEvent.previousHash "" events

/-- The place of the last of the events up to an id. -/
def placeAt (events : List (DeliveryEvent π)) (through : Nat) : EventCheckpoint :=
  ((events.filter (·.id ≤ through)).getLast?.map .of).getD .default

/-- The checkpoint is a place in the log. -/
def IsPlace (events : List (DeliveryEvent π)) (checkpoint : EventCheckpoint) : Prop :=
  placeAt events checkpoint.id = checkpoint

theorem DeliveryEvent.event?_row
    {env : EventEnv π} (hlaw : env.Lawful) {e : DeliveryEvent π} (hid : e.id ≤ i64Max) :
  (e.row env).event? env = some e
  := by
  have hasU64 : asU64 (e.id : Int) = e.id := by
    rw [asU64]
    rw [i64Max] at hid
    omega
  rw [EventRow.event?, DeliveryEvent.row, hlaw.parse_render, Option.map_some, hasU64]

/-- Reading the row of an event gives the event, if it gives any. -/
theorem eventRow_row
    {env : EventEnv π} (hlaw : env.Lawful) {e : DeliveryEvent π} (hid : e.id ≤ i64Max)
    {e' : DeliveryEvent π} (h : eventRow env (e.row env) = some e') :
  e' = e
  := by
  rw [eventRow] at h
  split at h
  · cases h
  · rw [DeliveryEvent.event?_row hlaw hid] at h
    cases h
    rfl

theorem verifyFor_iff
    {env : EventEnv π} {tenant : String} {e : DeliveryEvent π} :
  e.verifyFor env tenant = true
    ↔ e.issuer = env.issuer ∧ e.tenant = tenant ∧ 0 < e.id
      ∧ env.digest e.document e.signature = e.hash
      ∧ env.signatureVerifies e.issuer e.document e.signature = true
  := by
  simp [DeliveryEvent.verifyFor, DeliveryEvent.verify, and_assoc]

/-- Two verified events with one hash are one event. -/
theorem eq_of_hash_eq
    {env : EventEnv π} (hlaw : env.Lawful) {tenant : String} {e f : DeliveryEvent π}
    (he : e.verifyFor env tenant = true) (hf : f.verifyFor env tenant = true)
    (h : e.hash = f.hash) :
  e = f
  := by
  obtain ⟨_, _, _, hed, _⟩ := verifyFor_iff.mp he
  obtain ⟨_, _, _, hfd, _⟩ := verifyFor_iff.mp hf
  rw [← hed, ← hfd] at h
  obtain ⟨hdocument, hsignature⟩ := hlaw.digest_injective _ _ _ _ h
  have hhash : e.hash = f.hash := by rw [← hed, ← hfd, hdocument, hsignature]
  cases e
  cases f
  simp only [DeliveryEvent.document, EventDocument.mk.injEq] at hdocument
  simp_all

theorem hash_ne_empty
    {env : EventEnv π} (hlaw : env.Lawful) {tenant : String} {e : DeliveryEvent π}
    (he : e.verifyFor env tenant = true) :
  e.hash ≠ ""
  := by
  obtain ⟨_, _, _, hed, _⟩ := verifyFor_iff.mp he
  rw [← hed]
  apply hlaw.digest_ne_empty

section Places

variable {events : List (DeliveryEvent π)} {env : EventEnv π} {tenant : String}

theorem placeAt_cases (events : List (DeliveryEvent π)) (through : Nat) :
  (placeAt events through = .default ∧ ∀ e ∈ events, through < e.id)
    ∨ ∃ e ∈ events, placeAt events through = .of e ∧ e.id ≤ through
  := by
  rw [placeAt]
  cases h : (events.filter (·.id ≤ through)).getLast? with
  | none =>
      left
      refine ⟨rfl, ?_⟩
      intro e he
      have := List.filter_eq_nil_iff.mp (List.getLast?_eq_none_iff.mp h) e he
      simpa using this
  | some e =>
      right
      have hmem := List.mem_of_getLast? h
      rw [List.mem_filter] at hmem
      exact ⟨e, hmem.1, rfl, by simpa using hmem.2⟩

/-- A place is the start of the log or one of its events. -/
theorem IsPlace.cases {c : EventCheckpoint} (h : IsPlace events c) :
  (c = .default ∧ ∀ e ∈ events, 0 < e.id) ∨ ∃ e ∈ events, c = .of e
  := by
  rcases placeAt_cases events c.id with ⟨hd, hall⟩ | ⟨e, he, hof, _⟩
  · left
    have hc : c = .default := by
      rw [← hd]
      exact h.symm
    refine ⟨hc, ?_⟩
    intro e he
    have := hall e he
    rw [hc] at this
    exact this
  · right
    refine ⟨e, he, ?_⟩
    rw [← hof]
    exact h.symm

/-- The last of the events up to the id of an event is that event. -/
theorem placeAt_event
    (hsorted : events.Pairwise (·.id < ·.id)) {e : DeliveryEvent π} (he : e ∈ events) :
  placeAt events e.id = .of e
  := by
  obtain ⟨init, rest, rfl⟩ := List.append_of_mem he
  rw [List.pairwise_append, List.pairwise_cons] at hsorted
  have hinit : (init ++ [e]).filter (fun x => decide (x.id ≤ e.id)) = init ++ [e] := by
    rw [List.filter_eq_self]
    intro x hx
    rw [decide_eq_true_eq]
    rcases List.mem_append.mp hx with hx | hx
    · have := hsorted.2.2 x hx e List.mem_cons_self
      omega
    · obtain rfl := List.mem_singleton.mp hx
      apply Nat.le_refl
  have hrest : rest.filter (fun x => decide (x.id ≤ e.id)) = [] := by
    rw [List.filter_eq_nil_iff]
    intro x hx
    have := hsorted.2.1.1 x hx
    rw [decide_eq_true_eq]
    omega
  rw [placeAt, List.append_cons, List.filter_append, hinit, hrest, List.append_nil,
    List.getLast?_concat]
  rfl

theorem isPlace_of
    (hsorted : events.Pairwise (·.id < ·.id)) {e : DeliveryEvent π} (he : e ∈ events) :
  IsPlace events (.of e)
  := placeAt_event hsorted he

theorem placeAt_append
    (e : DeliveryEvent π) {through : Nat} (h : through < e.id) :
  placeAt (events ++ [e]) through = placeAt events through
  := by
  have : ¬ e.id ≤ through := by omega
  simp [placeAt, List.filter_append, this]

end Places

/-! ### What a page of any rows shows -/

/-- The events of a page verify and are linked from its start, whatever the rows are. -/
theorem pageRows_sound
    {env : EventEnv π} {tenant : String} {budget : Nat} {isFirst : Bool}
    {previous : EventCheckpoint} {bytes : Nat} {rows : List EventRow}
    {events : List (DeliveryEvent π)}
    (h : pageRows env tenant budget isFirst previous bytes rows = some events) :
  HashChain.Linked DeliveryEvent.hash DeliveryEvent.previousHash previous.hash events
    ∧ ∀ e ∈ events, e.verifyFor env tenant = true ∧ previous.id < e.id
        ∧ ∃ row ∈ rows, row.event? env = some e
  := by
  induction rows generalizing isFirst previous bytes events with
  | nil =>
      cases h
      exact ⟨trivial, fun e he => by cases he⟩
  | cons row rows ih =>
      rw [pageRows, Option.bind_eq_some_iff] at h
      obtain ⟨event, hevent, h⟩ := h
      have hparse : row.event? env = some event := by
        rw [eventRow] at hevent
        split at hevent
        · cases hevent
        · exact hevent
      split at h
      · cases h
      · next hgood =>
          simp only [Bool.or_eq_true, Bool.not_eq_true', decide_eq_true_eq,
            decide_eq_false_iff_not, not_or, Nat.not_le, not_not, Bool.not_eq_false] at hgood
          obtain ⟨⟨hverified, hid⟩, hlinked⟩ := hgood
          split at h
          · split at h
            · cases h
            · cases h
              exact ⟨trivial, fun e he => by cases he⟩
          · obtain ⟨tail, htail, rfl⟩ := Option.map_eq_some_iff.mp h
            obtain ⟨hchain, hall⟩ := ih htail
            refine ⟨⟨hlinked, hchain⟩, ?_⟩
            intro e he
            rcases List.mem_cons.mp he with rfl | he
            · exact ⟨hverified, by omega, row, List.mem_cons_self, hparse⟩
            · obtain ⟨hv, hlt, row', hrow', hparse'⟩ := hall e he
              have hlt' : event.id < e.id := hlt
              exact ⟨hv, by omega, row', List.mem_cons_of_mem _ hrow', hparse'⟩

/-- What a page says when the export gives one. -/
theorem deliveryEventExport_eq_some
    {env : EventEnv π} {table : EventTable} {tenant : String} {start : EventCheckpoint}
    {terminal : Option EventCheckpoint} {limit : Nat} {x : EventExport π}
    (h : deliveryEventExport env table tenant start terminal limit = some x) :
  1 ≤ limit ∧ requireCheckpoint env table tenant start = true
    ∧ exportTerminal env table tenant terminal = some x.terminal
    ∧ start.id ≤ x.terminal.id
    ∧ eventPage env table tenant start x.terminal.id limit
        (maxEventPageBytes - env.envelopeBytes tenant start x.terminal) = some x.events
    ∧ x.finish = (x.events.getLast?.map .of).getD start
    ∧ x.complete = decide (x.finish = x.terminal)
    ∧ (x.finish = x.terminal ∨ x.events ≠ [])
  := by
  rw [deliveryEventExport] at h
  split at h
  · cases h
  · next hlimit =>
      split at h
      · next hstart =>
          obtain ⟨t, ht, h⟩ := Option.bind_eq_some_iff.mp h
          rw [exportBetween] at h
          split at h
          · cases h
          · next hle =>
              split at h
              · cases h
              · obtain ⟨events, hevents, h⟩ := Option.bind_eq_some_iff.mp h
                dsimp only at h
                split at h
                · cases h
                · next hprogress =>
                    cases h
                    refine ⟨by omega, hstart, ht, Nat.le_of_not_lt hle, hevents, rfl, rfl, ?_⟩
                    by_contra hno
                    rw [not_or, not_not] at hno
                    exact hprogress hno
      · cases h

/-- The end of a page carries the digest its events end with. -/
theorem hash_finish (start : EventCheckpoint) (events : List (DeliveryEvent π)) :
  ((events.getLast?.map EventCheckpoint.of).getD start).hash
    = HashChain.tip DeliveryEvent.hash start.hash events
  := by
  cases events using List.reverseRecOn with
  | nil => rfl
  | append_singleton events e =>
      rw [List.getLast?_concat, HashChain.tip_concat]
      rfl

/-! ### The client -/

/-- A client that fetches pages: where it is, where it goes to, what it has. -/
structure ExportClient (π : Type*) where
  place : EventCheckpoint
  terminal : Option EventCheckpoint
  events : List (DeliveryEvent π)
  complete : Bool

/-- A client before its first page. -/
def ExportClient.begin (start : EventCheckpoint) (terminal : Option EventCheckpoint) :
    ExportClient π where
  place := start
  terminal := terminal
  events := []
  complete := false

/-- Fetches the next page, none when the export is refused. -/
def ExportClient.page
    (env : EventEnv π) (tenant : String) (client : ExportClient π) (table : EventTable)
    (limit : Nat) : Option (ExportClient π) :=
  (deliveryEventExport env table tenant client.place client.terminal limit).map fun x =>
    { place := x.finish
      terminal := some x.terminal
      events := client.events ++ x.events
      complete := x.complete }

/-- A page from any rows. -/
def ExportClient.pageOf (env : EventEnv π) (tenant : String) (client : ExportClient π)
    (request : EventTable × Nat) : Option (ExportClient π) :=
  client.page env tenant request.1 request.2

/-- What a client has shown itself, whatever the rows were. -/
structure ExportClient.Shown
    (env : EventEnv π) (tenant : String) (start : EventCheckpoint) (client : ExportClient π) :
    Prop where
  linked :
    HashChain.Linked DeliveryEvent.hash DeliveryEvent.previousHash start.hash client.events
  tip : HashChain.tip DeliveryEvent.hash start.hash client.events = client.place.hash
  verified : ∀ e ∈ client.events, e.verifyFor env tenant = true
  after : ∀ e ∈ client.events, start.id < e.id
  place : start.id ≤ client.place.id
  complete : client.complete = true → client.terminal = some client.place

theorem ExportClient.shown_begin
    (env : EventEnv π) (tenant : String) (start : EventCheckpoint)
    (terminal : Option EventCheckpoint) :
  (ExportClient.begin start terminal : ExportClient π).Shown env tenant start
  where
    linked := trivial
    tip := rfl
    verified _ h := by cases h
    after _ h := by cases h
    place := Nat.le_refl _
    complete h := by cases h

theorem ExportClient.page_eq_some
    {env : EventEnv π} {tenant : String} {client client' : ExportClient π}
    {table : EventTable} {limit : Nat} (h : client.page env tenant table limit = some client') :
  ∃ x, deliveryEventExport env table tenant client.place client.terminal limit = some x
    ∧ client' = ⟨x.finish, some x.terminal, client.events ++ x.events, x.complete⟩
  := by
  obtain ⟨x, hx, rfl⟩ := Option.map_eq_some_iff.mp h
  exact ⟨x, hx, rfl⟩

theorem ExportClient.shown_page
    {env : EventEnv π} {tenant : String} {start : EventCheckpoint}
    (client : ExportClient π) (request : EventTable × Nat) (client' : ExportClient π)
    (hshown : client.Shown env tenant start)
    (h : client.pageOf env tenant request = some client') :
  client'.Shown env tenant start
  := by
  obtain ⟨x, hx, rfl⟩ := page_eq_some h
  obtain ⟨_, _, _, _, hpage, hfinish, hcomplete, _⟩ := deliveryEventExport_eq_some hx
  obtain ⟨hlinked, hall⟩ := pageRows_sound hpage
  constructor
  · rw [HashChain.linked_append, hshown.tip]
    exact ⟨hshown.linked, hlinked⟩
  · dsimp only
    rw [hfinish, hash_finish, HashChain.tip_append, hshown.tip]
  · intro e he
    rcases List.mem_append.mp he with he | he
    · exact hshown.verified e he
    · exact (hall e he).1
  · intro e he
    rcases List.mem_append.mp he with he | he
    · exact hshown.after e he
    · have := (hall e he).2.1
      have := hshown.place
      omega
  · have hle := hshown.place
    dsimp only
    rw [hfinish]
    cases hlast : x.events.getLast? with
    | none => exact hle
    | some e =>
        have := (hall e (List.mem_of_getLast? hlast)).2.1
        simp only [Option.map_some, Option.getD_some, EventCheckpoint.of]
        omega
  · intro hdone
    dsimp only at hdone ⊢
    rw [hcomplete, decide_eq_true_eq] at hdone
    rw [hdone]

/-- The named terminal place stays the same. -/
theorem ExportClient.terminal_page
    {env : EventEnv π} {tenant : String} {terminal : EventCheckpoint}
    (client : ExportClient π) (request : EventTable × Nat) (client' : ExportClient π)
    (hterminal : client.terminal = some terminal)
    (h : client.pageOf env tenant request = some client') :
  client'.terminal = some terminal
  := by
  obtain ⟨x, hx, rfl⟩ := page_eq_some h
  obtain ⟨_, _, ht, _⟩ := deliveryEventExport_eq_some hx
  rw [hterminal, exportTerminal] at ht
  split at ht
  · exact ht.symm
  · cases ht

/-- The hash of an event after a place of the log is not the hash of the place. -/
theorem hash_ne_place
    {env : EventEnv π} (hlaw : env.Lawful) {tenant : String} {events : List (DeliveryEvent π)}
    (hevents : ∀ e ∈ events, e.verifyFor env tenant = true) {start : EventCheckpoint}
    (hstart : IsPlace events start) {e : DeliveryEvent π} (he : e.verifyFor env tenant = true)
    (hid : start.id < e.id) :
  e.hash ≠ start.hash
  := by
  rcases hstart.cases with ⟨rfl, _⟩ | ⟨s, hs, rfl⟩
  · exact hash_ne_empty hlaw he
  · intro hhash
    obtain rfl := eq_of_hash_eq hlaw he (hevents s hs) hhash
    apply Nat.lt_irrefl _ hid

section Log

variable {env : EventEnv π} {table : EventTable} {tenant : String}
  {events : List (DeliveryEvent π)}

theorem TenantLog.id_pos (hlog : TenantLog env table tenant events) {e : DeliveryEvent π}
    (he : e ∈ events) :
  0 < e.id
  := (verifyFor_iff.mp (hlog.verified e he)).2.2.1

/-- The events up to a place end with its hash. -/
theorem TenantLog.tip_place
    (hlog : TenantLog env table tenant events) {c : EventCheckpoint} (hc : IsPlace events c) :
  HashChain.tip DeliveryEvent.hash "" (eventsBetween events 0 c.id) = c.hash
  := by
  have hfilter : events.filter (·.id ≤ c.id) = eventsBetween events 0 c.id := by
    apply List.filter_congr
    intro e he
    have := hlog.id_pos he
    simp [this]
  have hplace : (((eventsBetween events 0 c.id).getLast?.map EventCheckpoint.of).getD
      EventCheckpoint.default).hash = c.hash := by
    rw [← hfilter]
    exact congrArg EventCheckpoint.hash hc
  rw [hash_finish] at hplace
  exact hplace

/-- The whole log is the events up to a place and the events after it. -/
theorem TenantLog.between_split
    (hlog : TenantLog env table tenant events) (c : Nat) :
  eventsBetween events 0 c ++ eventsBetween events c (max c i64Max) = events
  := by
  rw [eventsBetween_append hlog.sorted (Nat.zero_le _) (Nat.le_max_left _ _), eventsBetween,
    List.filter_eq_self]
  intro e he
  have := hlog.id_pos he
  have := hlog.ids e he
  simp only [decide_eq_true_eq]
  omega

/-- The events between two places are linked from the one to the other. -/
theorem TenantLog.linked_between
    (hlog : TenantLog env table tenant events) {a b : EventCheckpoint}
    (ha : IsPlace events a) (hb : IsPlace events b) (hab : a.id ≤ b.id) :
  HashChain.Linked DeliveryEvent.hash DeliveryEvent.previousHash a.hash
      (eventsBetween events a.id b.id)
    ∧ HashChain.tip DeliveryEvent.hash a.hash (eventsBetween events a.id b.id) = b.hash
  := by
  have hlinked := hlog.linked
  rw [← hlog.between_split b.id, HashChain.linked_append,
    ← eventsBetween_append hlog.sorted (Nat.zero_le _) hab, HashChain.linked_append,
    hlog.tip_place ha] at hlinked
  refine ⟨hlinked.1.2, ?_⟩
  rw [← hlog.tip_place hb, ← eventsBetween_append hlog.sorted (Nat.zero_le _) hab,
    HashChain.tip_append, hlog.tip_place ha]

theorem TenantLog.linked_after
    (hlog : TenantLog env table tenant events) {a : EventCheckpoint} (ha : IsPlace events a) :
  HashChain.Linked DeliveryEvent.hash DeliveryEvent.previousHash a.hash
    (eventsBetween events a.id (max a.id i64Max))
  := by
  have hlinked := hlog.linked
  rw [← hlog.between_split a.id, HashChain.linked_append, hlog.tip_place ha] at hlinked
  exact hlinked.2

/-- A client that got to a terminal place of the log, from whatever rows, has exactly the
events of the log up to it. -/
theorem TenantLog.complete_eq
    (hlaw : env.Lawful) (hlog : TenantLog env table tenant events)
    {start terminal : EventCheckpoint} (hstart : IsPlace events start)
    (hterminal : IsPlace events terminal) {client : ExportClient π}
    (hshown : client.Shown env tenant start) (hplace : client.place = terminal) :
  client.events = eventsBetween events start.id terminal.id
  := by
  have hle : start.id ≤ terminal.id := by
    rw [← hplace]
    exact hshown.place
  obtain ⟨hlinked, htip⟩ := hlog.linked_between hstart hterminal hle
  apply HashChain.eq_of_tip_eq hshown.linked hlinked
  · intro e he f hf
    exact eq_of_hash_eq hlaw (hshown.verified e he)
      (hlog.verified f (mem_eventsBetween.mp hf).1)
  · intro e he
    exact hash_ne_place hlaw hlog.verified hstart (hshown.verified e he) (hshown.after e he)
  · intro f hf
    obtain ⟨hmem, hlt, _⟩ := mem_eventsBetween.mp hf
    exact hash_ne_place hlaw hlog.verified hstart (hlog.verified f hmem) hlt
  · rw [hshown.tip, htip, hplace]

theorem TenantLog.nodup_hash
    (hlaw : env.Lawful) (hlog : TenantLog env table tenant events) {start : EventCheckpoint}
    (hstart : IsPlace events start) (b : Nat) :
  (start.hash :: (eventsBetween events start.id b).map DeliveryEvent.hash).Nodup
  := by
  rw [List.nodup_cons]
  constructor
  · rw [List.mem_map]
    rintro ⟨e, he, hhash⟩
    obtain ⟨hmem, hlt, _⟩ := mem_eventsBetween.mp he
    exact hash_ne_place hlaw hlog.verified hstart (hlog.verified e hmem) hlt hhash
  · rw [List.Nodup, List.pairwise_map]
    apply (hlog.sorted.sublist List.filter_sublist).imp_of_mem
    intro e f he hf hlt hhash
    obtain rfl := eq_of_hash_eq hlaw (hlog.verified e (mem_eventsBetween.mp he).1)
      (hlog.verified f (mem_eventsBetween.mp hf).1) hhash
    apply Nat.lt_irrefl _ hlt

/-- A client that was shown only events of the log has an initial part of those after its
start. -/
theorem TenantLog.prefix_of_unforged
    (hlaw : env.Lawful) (hlog : TenantLog env table tenant events) {start : EventCheckpoint}
    (hstart : IsPlace events start) {client : ExportClient π}
    (hshown : client.Shown env tenant start) (hsub : ∀ e ∈ client.events, e ∈ events) :
  client.events <+: eventsBetween events start.id (max start.id i64Max)
  := by
  apply HashChain.prefix_of_subset hshown.linked (hlog.linked_after hstart)
  · intro e he
    rw [mem_eventsBetween]
    have := hlog.ids e (hsub e he)
    exact ⟨hsub e he, hshown.after e he, by omega⟩
  · exact hlog.nodup_hash hlaw hstart _

/-! ### Pages of the log itself -/

/-- The event can be read and is at most a page of `budget` bytes. -/
def DeliveryEvent.Fits (env : EventEnv π) (budget : Nat) (e : DeliveryEvent π) : Prop :=
  (∀ text ∈ (e.row env).texts, text.utf8ByteSize ≤ maxEventPageBytes)
    ∧ env.eventBytes e + 1 ≤ budget

theorem eventRow_of_fits
    (hlaw : env.Lawful) {e : DeliveryEvent π} (hid : e.id ≤ i64Max) {budget : Nat}
    (hfits : e.Fits env budget) :
  eventRow env (e.row env) = some e
  := by
  rw [eventRow, if_neg, DeliveryEvent.event?_row hlaw hid]
  rw [Bool.not_eq_true, List.any_eq_false]
  intro text htext
  have := hfits.1 text htext
  simp only [decide_eq_true_eq]
  omega

/-- A page of rows of the log is an initial part of its events. -/
theorem pageRows_take
    (hlaw : env.Lawful) {budget : Nat} {es : List (DeliveryEvent π)}
    (hids : ∀ e ∈ es, e.id ≤ i64Max) {isFirst : Bool} {previous : EventCheckpoint}
    {bytes : Nat} {xs : List (DeliveryEvent π)}
    (h : pageRows env tenant budget isFirst previous bytes (es.map (·.row env)) = some xs) :
  ∃ k, xs = es.take k
  := by
  induction es generalizing isFirst previous bytes xs with
  | nil =>
      cases h
      exact ⟨0, rfl⟩
  | cons e es ih =>
      rw [List.map_cons, pageRows, Option.bind_eq_some_iff] at h
      obtain ⟨e', he', h⟩ := h
      obtain rfl := eventRow_row hlaw (hids e List.mem_cons_self) he'
      split at h
      · cases h
      · split at h
        · split at h
          · cases h
          · cases h
            exact ⟨0, rfl⟩
        · obtain ⟨tail, htail, rfl⟩ := Option.map_eq_some_iff.mp h
          obtain ⟨k, rfl⟩ := ih (fun x hx => hids x (List.mem_cons_of_mem _ hx)) htail
          exact ⟨k + 1, rfl⟩

/-- A page of rows of the log is not refused when every event fits a page. -/
theorem pageRows_of_fits
    (hlaw : env.Lawful) {budget : Nat} {es : List (DeliveryEvent π)}
    (hids : ∀ e ∈ es, e.id ≤ i64Max) (hfits : ∀ e ∈ es, e.Fits env budget)
    (hverified : ∀ e ∈ es, e.verifyFor env tenant = true)
    (hsorted : es.Pairwise (·.id < ·.id)) (previous : EventCheckpoint) (isFirst : Bool)
    (bytes : Nat)
    (hlinked : HashChain.Linked DeliveryEvent.hash DeliveryEvent.previousHash previous.hash es)
    (hafter : ∀ e ∈ es, previous.id < e.id) (hfirst : isFirst = true → bytes = 0) :
  ∃ xs, pageRows env tenant budget isFirst previous bytes (es.map (·.row env)) = some xs
    ∧ (isFirst = true → es ≠ [] → xs ≠ [])
  := by
  induction es generalizing isFirst previous bytes with
  | nil => exact ⟨[], rfl, fun _ h => absurd rfl h⟩
  | cons e es ih =>
      obtain ⟨hhead, htail⟩ := List.pairwise_cons.mp hsorted
      have hfit := hfits e List.mem_cons_self
      rw [List.map_cons, pageRows,
        eventRow_of_fits hlaw (hids e List.mem_cons_self) hfit, Option.bind_some, if_neg]
      · split
        · next hbig =>
            split
            · next hf =>
                rw [hfirst hf] at hbig
                have := hfit.2
                omega
            · next hf => exact ⟨[], rfl, fun h => absurd h hf⟩
        · obtain ⟨xs, hxs, _⟩ := ih (fun x hx => hids x (List.mem_cons_of_mem _ hx))
            (fun x hx => hfits x (List.mem_cons_of_mem _ hx))
            (fun x hx => hverified x (List.mem_cons_of_mem _ hx)) htail (.of e) false
            (bytes + (env.eventBytes e + 1)) hlinked.2 hhead (fun h => by cases h)
          rw [hxs]
          exact ⟨e :: xs, rfl, fun _ _ => List.cons_ne_nil _ _⟩
      · have hid := hafter e List.mem_cons_self
        simp only [hverified e List.mem_cons_self, hlinked.1, Bool.not_true, Bool.false_or,
          decide_true, Bool.or_false, decide_eq_true_eq]
        omega

/-- The rows of a page are those of the events between its ends. -/
theorem TenantLog.page_rows
    (hlog : TenantLog env table tenant events) (a b limit : Nat) :
  ((table.ofTenant tenant).filter
      (fun row => (a : Int) < row.id ∧ row.id ≤ (b : Int))).take limit
    = ((eventsBetween events a b).take limit).map (·.row env)
  := by
  rw [hlog.rows, List.filter_map, List.map_take]
  congr 2
  apply List.filter_congr
  intro e _
  simp only [Function.comp_apply, DeliveryEvent.row]
  norm_cast

theorem IsPlace.id_le
    (hlog : TenantLog env table tenant events) {c : EventCheckpoint} (hc : IsPlace events c) :
  c.id ≤ i64Max
  := by
  rcases hc.cases with ⟨rfl, _⟩ | ⟨e, he, rfl⟩
  · apply Nat.zero_le
  · exact hlog.ids e he

theorem TenantLog.rows_through
    (hlog : TenantLog env table tenant events) (through : Nat) :
  (table.ofTenant tenant).filter (·.id ≤ (through : Int))
    = (events.filter (·.id ≤ through)).map (·.row env)
  := by
  rw [hlog.rows, List.filter_map]
  congr 1
  apply List.filter_congr
  intro e _
  simp only [Function.comp_apply, DeliveryEvent.row]
  norm_cast

/-- The place the store finds in a log is the place in its events. -/
theorem TenantLog.predecessor_eq
    (hlaw : env.Lawful) (hlog : TenantLog env table tenant events) {through : Nat}
    {c : EventCheckpoint} (h : predecessor env table tenant through = some c) :
  placeAt events through = c
  := by
  rw [predecessor, hlog.rows_through, List.getLast?_map] at h
  rw [placeAt]
  cases hlast : (events.filter (·.id ≤ through)).getLast? with
  | none =>
      rw [hlast] at h
      cases h
      rfl
  | some e =>
      rw [hlast] at h
      have he : e ∈ events := List.mem_of_mem_filter (List.mem_of_getLast? hlast)
      obtain ⟨e', he', hplace⟩ := Option.bind_eq_some_iff.mp h
      obtain rfl := eventRow_row hlaw (hlog.ids e he) he'
      rw [if_pos (hlog.verified e' he)] at hplace
      cases hplace
      rfl

theorem TenantLog.isPlace_of_require
    (hlaw : env.Lawful) (hlog : TenantLog env table tenant events) {c : EventCheckpoint}
    (h : requireCheckpoint env table tenant c = true) :
  IsPlace events c
  := by
  rw [requireCheckpoint, Bool.and_eq_true, decide_eq_true_eq, decide_eq_true_eq] at h
  exact hlog.predecessor_eq hlaw h.2

/-- Every event fits a page, whatever two places the page names. -/
structure FitsPages (env : EventEnv π) (tenant : String) (events : List (DeliveryEvent π)) :
    Prop where
  envelope : ∀ a b, IsPlace events a → IsPlace events b →
    env.envelopeBytes tenant a b ≤ maxEventPageBytes
  fits : ∀ e ∈ events, ∀ a b, IsPlace events a → IsPlace events b →
    e.Fits env (maxEventPageBytes - env.envelopeBytes tenant a b)

theorem isPlace_placeAt (hsorted : events.Pairwise (·.id < ·.id)) {through : Nat}
    (hpos : ∀ e ∈ events, 0 < e.id) :
  IsPlace events (placeAt events through)
  := by
  rcases placeAt_cases events through with ⟨hd, _⟩ | ⟨e, he, hof, _⟩
  · rw [hd, IsPlace]
    have hnil : events.filter (fun e => decide (e.id ≤ EventCheckpoint.default.id)) = [] := by
      rw [List.filter_eq_nil_iff]
      intro e he
      have := hpos e he
      rw [decide_eq_true_eq]
      change ¬ e.id ≤ 0
      omega
    rw [placeAt, hnil]
    rfl
  · rw [hof]
    exact isPlace_of hsorted he

theorem TenantLog.predecessor_of_fits
    (hlaw : env.Lawful) (hlog : TenantLog env table tenant events)
    (hfits : FitsPages env tenant events) (through : Nat) :
  predecessor env table tenant through = some (placeAt events through)
  := by
  rw [predecessor, hlog.rows_through, List.getLast?_map, placeAt]
  cases hlast : (events.filter (·.id ≤ through)).getLast? with
  | none => rfl
  | some e =>
      have he : e ∈ events := List.mem_of_mem_filter (List.mem_of_getLast? hlast)
      have hplace := isPlace_of hlog.sorted he
      have hrow := eventRow_of_fits hlaw (hlog.ids e he) (hfits.fits e he _ _ hplace hplace)
      simp only [Option.map_some, hrow, Option.bind_some, hlog.verified e he, if_true,
        Option.getD_some]

/-- The terminal place a log gives to a request. -/
def terminalPlace (events : List (DeliveryEvent π)) : Option EventCheckpoint → EventCheckpoint
  | some terminal => terminal
  | none => placeAt events i64Max

/-- A page of a log is not refused when its places are places of the log, and goes on. -/
theorem TenantLog.export_of_fits
    (hlaw : env.Lawful) (hlog : TenantLog env table tenant events)
    (hfits : FitsPages env tenant events) {start : EventCheckpoint}
    (hstart : IsPlace events start) {terminal : Option EventCheckpoint}
    (hterminal : IsPlace events (terminalPlace events terminal))
    (hle : start.id ≤ (terminalPlace events terminal).id) {limit : Nat}
    (hlimit : 1 ≤ limit ∧ limit ≤ 100) :
  ∃ x, deliveryEventExport env table tenant start terminal limit = some x
    ∧ x.terminal = terminalPlace events terminal
    ∧ (x.complete = true ∨ x.events ≠ [])
  := by
  have hrequire : ∀ c, IsPlace events c → requireCheckpoint env table tenant c = true := by
    intro c hc
    rw [requireCheckpoint, hlog.predecessor_of_fits hlaw hfits]
    have hid := hc.id_le hlog
    have heq : placeAt events c.id = c := hc
    simp [hid, heq]
  have hexport : exportTerminal env table tenant terminal = some (terminalPlace events terminal) := by
    cases terminal with
    | none => exact hlog.predecessor_of_fits hlaw hfits _
    | some t =>
        have ht : requireCheckpoint env table tenant t = true := hrequire t hterminal
        rw [exportTerminal, if_pos ht, terminalPlace]
  obtain ⟨xs, hxs, hne⟩ : ∃ xs, eventPage env table tenant start
      (terminalPlace events terminal).id limit
      (maxEventPageBytes
        - env.envelopeBytes tenant start (terminalPlace events terminal)) = some xs
      ∧ (eventsBetween events start.id (terminalPlace events terminal).id ≠ [] → xs ≠ []) := by
    rw [eventPage, hlog.page_rows]
    have hsub := List.take_sublist (min limit 100)
      (eventsBetween events start.id (terminalPlace events terminal).id)
    have hmem : ∀ e ∈ (eventsBetween events start.id (terminalPlace events terminal).id).take
        (min limit 100), e ∈ events ∧ start.id < e.id := by
      intro e he
      obtain ⟨he, hlt, _⟩ := mem_eventsBetween.mp (hsub.subset he)
      exact ⟨he, hlt⟩
    have hlinked := (hlog.linked_between hstart hterminal hle).1
    rw [← List.take_append_drop (min limit 100) (eventsBetween events start.id _),
      HashChain.linked_append] at hlinked
    obtain ⟨xs, hxs, hne⟩ := pageRows_of_fits hlaw
      (fun e he => hlog.ids e (hmem e he).1)
      (fun e he => hfits.fits e (hmem e he).1 _ _ hstart hterminal)
      (fun e he => hlog.verified e (hmem e he).1)
      (hlog.sorted.sublist (hsub.trans List.filter_sublist)) start true 0 hlinked.1
      (fun e he => (hmem e he).2) (fun _ => rfl)
    refine ⟨xs, hxs, fun hbetween => hne rfl ?_⟩
    rw [Ne, List.take_eq_nil_iff]
    rintro (h | h)
    · omega
    · exact hbetween h
  rw [deliveryEventExport, if_neg (by omega), if_pos (hrequire start hstart), hexport,
    Option.bind_some, exportBetween, if_neg (by omega),
    if_neg (Nat.not_lt.mpr (hfits.envelope _ _ hstart hterminal)), hxs, Option.bind_some]
  by_cases hbetween : eventsBetween events start.id (terminalPlace events terminal).id = []
  · -- nothing is between the places, so they are one place
    have htip := (hlog.linked_between hstart hterminal hle).2
    have hplace : placeAt events start.id = placeAt events (terminalPlace events terminal).id := by
      have hfilter : ∀ b, events.filter (·.id ≤ b) = eventsBetween events 0 b := by
        intro b
        apply List.filter_congr
        intro e he
        have := hlog.id_pos he
        simp [this]
      rw [placeAt, placeAt, hfilter, hfilter,
        ← eventsBetween_append hlog.sorted (Nat.zero_le _) hle, hbetween, List.append_nil]
    have heq : start = terminalPlace events terminal := by
      rw [← (hstart : placeAt events start.id = start),
        ← (hterminal : placeAt events (terminalPlace events terminal).id = _), hplace]
    obtain ⟨k, hk⟩ : ∃ k, xs = (eventsBetween events start.id
        (terminalPlace events terminal).id).take k := by
      rw [eventPage, hlog.page_rows] at hxs
      obtain ⟨k, hk⟩ := pageRows_take hlaw
        (fun e he => hlog.ids e (mem_eventsBetween.mp (List.mem_of_mem_take he)).1) hxs
      exact ⟨min k (min limit 100), by rw [hk, List.take_take]⟩
    rw [hbetween, List.take_nil] at hk
    subst hk
    refine ⟨_, if_neg ?_, rfl, Or.inl ?_⟩
    · intro h
      exact h.1 heq
    · exact decide_eq_true heq
  · have hxsne := hne hbetween
    refine ⟨_, if_neg (fun h => hxsne h.2), rfl, Or.inr hxsne⟩

end Log

/-! ### Appending keeps the chains -/

/-- The events of a tenant. -/
def EventTable.events (env : EventEnv π) (table : EventTable) (tenant : String) :
    List (DeliveryEvent π) :=
  (table.ofTenant tenant).filterMap (·.event? env)

theorem EventLog.ofTenant_push
    (log : EventLog) (row : EventRow) (hid : row.id = (log.sequence : Int) + 1)
    (tenant : String) :
  (log.push row hid).ofTenant tenant
    = log.ofTenant tenant ++ if row.tenant = tenant then [row] else []
  := by
  rw [EventTable.ofTenant, EventTable.ofTenant, push, List.filter_append]
  congr 1
  rw [List.filter_singleton]
  simp

/-- The log is a chain for every tenant, with ids up to the last one given. -/
structure EventLog.Chained (env : EventEnv π) (log : EventLog) : Prop where
  tenants : ∀ tenant, TenantLog env log.toEventTable tenant (log.events env tenant)
  sequence : log.sequence ≤ i64Max

theorem EventLog.chained_empty (env : EventEnv π) : EventLog.empty.Chained env where
  tenants _ :=
    { rows := rfl
      verified := fun _ h => by cases h
      ids := fun _ h => by cases h
      sorted := List.Pairwise.nil
      linked := trivial }
  sequence := Nat.zero_le _

theorem EventLog.id_le_sequence
    {env : EventEnv π} {log : EventLog} (hlog : log.Chained env) {tenant : String}
    {e : DeliveryEvent π} (he : e ∈ log.events env tenant) :
  e.id ≤ log.sequence
  := by
  have hrow : e.row env ∈ log.ofTenant tenant := by
    rw [(hlog.tenants tenant).rows]
    exact List.mem_map_of_mem he
  have : (e.id : Int) ≤ (log.sequence : Int) := log.bounded _ (List.mem_of_mem_filter hrow)
  omega

/-- The hash a new event names is the one its tenant's chain ends with. -/
theorem EventLog.lastHash_eq
    {env : EventEnv π} {log : EventLog} (hlog : log.Chained env) (tenant : String) :
  log.lastHash tenant = HashChain.tip DeliveryEvent.hash "" (log.events env tenant)
  := by
  rw [EventTable.lastHash, (hlog.tenants tenant).rows, List.getLast?_map]
  cases h : (log.events env tenant) using List.reverseRecOn with
  | nil => rfl
  | append_singleton es e =>
      rw [List.getLast?_concat, HashChain.tip_concat]
      rfl

theorem verifyFor_nextDocument
    {env : EventEnv π} (hlaw : env.Lawful) (log : EventLog) (tenant grantId kind : String)
    (payload : π) (now : UInt64) :
  ((nextDocument env log tenant grantId kind payload now).event env).verifyFor env tenant
    = true
  := by
  rw [verifyFor_iff]
  exact ⟨rfl, rfl, Nat.succ_pos _, rfl, hlaw.verifies _⟩

theorem EventLog.rows_push
    {env : EventEnv π} {log log' : EventLog} {tenant grantId kind : String} {payload : π}
    {now : UInt64}
    (h : deliveryEvent env log tenant grantId kind payload now = some log') (t : String) :
  log'.ofTenant t = log.ofTenant t
    ++ if tenant = t then
        [((nextDocument env log tenant grantId kind payload now).event env).row env]
      else []
  := by
  rw [deliveryEvent] at h
  split at h
  · cases h
    apply ofTenant_push
  · cases h

/-- Appending an event adds it to its tenant's events and to no others. -/
theorem EventLog.events_push
    {env : EventEnv π} (hlaw : env.Lawful) {log log' : EventLog}
    {tenant grantId kind : String} {payload : π} {now : UInt64} (hroom : log.sequence < i64Max)
    (h : deliveryEvent env log tenant grantId kind payload now = some log') (t : String) :
  log'.events env t = log.events env t
    ++ if tenant = t then [(nextDocument env log tenant grantId kind payload now).event env]
      else []
  := by
  have hid : ((nextDocument env log tenant grantId kind payload now).event env).id
      ≤ i64Max := hroom
  rw [EventTable.events, rows_push h, List.filterMap_append, EventTable.events]
  congr 1
  split
  · rw [List.filterMap_cons, DeliveryEvent.event?_row hlaw hid]
    rfl
  · rfl

/-- Appending keeps every tenant's chain. -/
theorem EventLog.chained_deliveryEvent
    {env : EventEnv π} (hlaw : env.Lawful) {log log' : EventLog} (hlog : log.Chained env)
    {tenant grantId kind : String} {payload : π} {now : UInt64}
    (h : deliveryEvent env log tenant grantId kind payload now = some log') :
  log'.Chained env ∧ log'.sequence = log.sequence + 1
  := by
  have hseq : log'.sequence = log.sequence + 1 ∧ log.sequence < i64Max := by
    rw [deliveryEvent] at h
    split at h
    · next hroom =>
        cases h
        exact ⟨rfl, hroom⟩
    · cases h
  refine ⟨⟨?_, by omega⟩, hseq.1⟩
  intro t
  have hold := hlog.tenants t
  rw [events_push hlaw hseq.2 h]
  by_cases ht : tenant = t
  · subst ht
    have hnewid : ((nextDocument env log tenant grantId kind payload now).event env).id
        = log.sequence + 1 := rfl
    rw [if_pos rfl]
    constructor
    · rw [rows_push h, if_pos rfl, hold.rows, List.map_append]
      rfl
    · intro e he
      rcases List.mem_append.mp he with he | he
      · exact hold.verified e he
      · rw [List.mem_singleton.mp he]
        apply verifyFor_nextDocument hlaw
    · intro e he
      rcases List.mem_append.mp he with he | he
      · exact hold.ids e he
      · rw [List.mem_singleton.mp he, hnewid]
        omega
    · rw [List.pairwise_append]
      refine ⟨hold.sorted, List.pairwise_singleton _ _, ?_⟩
      intro a ha b hb
      rw [List.mem_singleton.mp hb, hnewid]
      have := id_le_sequence hlog ha
      omega
    · rw [HashChain.linked_concat]
      exact ⟨hold.linked, lastHash_eq hlog tenant⟩
  · rw [if_neg ht, List.append_nil]
    constructor
    · rw [rows_push h, if_neg ht, List.append_nil, hold.rows]
    · exact hold.verified
    · exact hold.ids
    · exact hold.sorted
    · exact hold.linked

/-! ### Runs of a log with a client -/

/-- The log with a client of one tenant. -/
structure ExportWorld (π : Type*) where
  log : EventLog
  client : ExportClient π

/-- The log takes an event, or the client fetches a page. -/
inductive ExportOp (π : Type*)
  | append (tenant grantId kind : String) (payload : π) (now : UInt64)
  | page (limit : Nat)

/-- One operation, none when it is refused. -/
def ExportWorld.step (env : EventEnv π) (tenant : String) (w : ExportWorld π) :
    ExportOp π → Option (ExportWorld π)
  | .append t grantId kind payload now =>
      (deliveryEvent env w.log t grantId kind payload now).map ({ w with log := · })
  | .page limit =>
      (w.client.page env tenant w.log.toEventTable limit).map ({ w with client := · })

/-- The client has the events of the log up to where it is, on the way to a place of the
log. -/
structure ExportClient.Between
    (events : List (DeliveryEvent π)) (start : EventCheckpoint) (client : ExportClient π)
    (terminal : EventCheckpoint) : Prop where
  startPlace : IsPlace events start
  herePlace : IsPlace events client.place
  goalPlace : IsPlace events terminal
  named : client.terminal = some terminal
  order : start.id ≤ client.place.id ∧ client.place.id ≤ terminal.id
  got : client.events = eventsBetween events start.id client.place.id
  done : client.complete = decide (client.place = terminal)

/-- A client that has not begun, or one on its way. -/
def ExportClient.OnWay
    (events : List (DeliveryEvent π)) (start : EventCheckpoint)
    (terminal : Option EventCheckpoint) (client : ExportClient π) : Prop :=
  client = .begin start terminal
    ∨ ∃ t, client.Between events start t ∧ ∀ t', terminal = some t' → t = t'

theorem IsPlace.append
    {events : List (DeliveryEvent π)} {e : DeliveryEvent π} {c : EventCheckpoint}
    (hc : IsPlace events c) (hid : c.id < e.id) :
  IsPlace (events ++ [e]) c
  := by
  rw [IsPlace, placeAt_append e hid]
  exact hc

theorem eventsBetween_concat
    (events : List (DeliveryEvent π)) {e : DeliveryEvent π} {a b : Nat} (h : b < e.id) :
  eventsBetween (events ++ [e]) a b = eventsBetween events a b
  := by
  have : ¬ e.id ≤ b := by omega
  simp [eventsBetween, List.filter_append, this]

/-- Appending an event leaves a client on its way. -/
theorem ExportClient.Between.append
    {events : List (DeliveryEvent π)} {start terminal : EventCheckpoint}
    {client : ExportClient π} (h : client.Between events start terminal)
    {e : DeliveryEvent π} (hids : ∀ x ∈ events, x.id < e.id) (hpos : 0 < e.id) :
  client.Between (events ++ [e]) start terminal
  := by
  have hplace : ∀ c, IsPlace events c → c.id < e.id := by
    intro c hc
    rcases hc.cases with ⟨rfl, _⟩ | ⟨x, hx, rfl⟩
    · exact hpos
    · exact hids x hx
  exact
    { startPlace := h.startPlace.append (hplace _ h.startPlace)
      herePlace := h.herePlace.append (hplace _ h.herePlace)
      goalPlace := h.goalPlace.append (hplace _ h.goalPlace)
      named := h.named
      order := h.order
      got := by rw [h.got, eventsBetween_concat events (hplace _ h.herePlace)]
      done := h.done }

/-- A page takes a client at a place of the log further on its way. -/
theorem TenantLog.page_between
    {env : EventEnv π} (hlaw : env.Lawful) {table : EventTable} {tenant : String}
    {events : List (DeliveryEvent π)} (hlog : TenantLog env table tenant events)
    (start : EventCheckpoint) {client client' : ExportClient π}
    (hevents : IsPlace events client.place → IsPlace events start
      ∧ start.id ≤ client.place.id
      ∧ client.events = eventsBetween events start.id client.place.id)
    {limit : Nat} (h : client.page env tenant table limit = some client') :
  ∃ terminal, client'.Between events start terminal
    ∧ exportTerminal env table tenant client.terminal = some terminal
  := by
  obtain ⟨x, hx, rfl⟩ := ExportClient.page_eq_some h
  obtain ⟨_, hrequire, hterminal, hle, hpage, hfinish, hcomplete, _⟩ :=
    deliveryEventExport_eq_some hx
  have hplace := hlog.isPlace_of_require hlaw hrequire
  obtain ⟨hstart, hstartle, hsofar⟩ := hevents hplace
  have hterminalPlace : IsPlace events x.terminal := by
    cases ht : client.terminal with
    | none =>
        rw [ht, exportTerminal] at hterminal
        rw [← hlog.predecessor_eq hlaw hterminal]
        exact isPlace_placeAt hlog.sorted fun e he => hlog.id_pos he
    | some t =>
        rw [ht, exportTerminal] at hterminal
        split at hterminal
        · next ht' =>
            cases hterminal
            exact hlog.isPlace_of_require hlaw ht'
        · cases hterminal
  rw [eventPage, hlog.page_rows] at hpage
  obtain ⟨k, hk⟩ := pageRows_take hlaw
    (fun e he => hlog.ids e (mem_eventsBetween.mp (List.mem_of_mem_take he)).1) hpage
  rw [List.take_take] at hk
  refine ⟨x.terminal, ?_, hterminal⟩
  have hsorted := hlog.sorted.sublist
    (List.filter_sublist (p := fun e => decide (client.place.id < e.id ∧ e.id ≤ x.terminal.id)))
  -- where the page ends, and what it has
  have hend : IsPlace events x.finish ∧ client.place.id ≤ x.finish.id
      ∧ x.finish.id ≤ x.terminal.id
      ∧ x.events = eventsBetween events client.place.id x.finish.id := by
    rw [hfinish]
    cases hlast : x.events.getLast? with
    | none =>
        have hnil := List.getLast?_eq_none_iff.mp hlast
        exact ⟨hplace, Nat.le_refl _, hle, by
          rw [hnil, Option.map_none, Option.getD_none, eventsBetween_self]⟩
    | some e =>
        have hmem : e ∈ eventsBetween events client.place.id x.terminal.id := by
          apply List.mem_of_mem_take (i := min k (min limit 100))
          rw [← hk]
          exact List.mem_of_getLast? hlast
        obtain ⟨he, hlt, hle'⟩ := mem_eventsBetween.mp hmem
        refine ⟨isPlace_of hlog.sorted he, by
          simp only [Option.map_some, Option.getD_some, EventCheckpoint.of]; omega, hle', ?_⟩
        rw [hk] at hlast
        have htake := take_eq_filter hsorted hlast
        rw [hk]
        refine htake.trans ?_
        rw [List.filter_filter]
        apply List.filter_congr
        intro y _
        simp only [Option.map_some, Option.getD_some, EventCheckpoint.of]
        rw [← Bool.decide_and]
        apply decide_eq_decide.mpr
        omega
  exact
    { startPlace := hstart
      herePlace := hend.1
      goalPlace := hterminalPlace
      named := rfl
      order := ⟨Nat.le_trans hstartle hend.2.1, hend.2.2.1⟩
      got := by
        rw [hsofar, hend.2.2.2]
        exact eventsBetween_append hlog.sorted hstartle hend.2.1
      done := hcomplete }

/-- The log is chained and its client on its way. -/
structure ExportWorld.Sound
    (env : EventEnv π) (tenant : String) (start : EventCheckpoint)
    (terminal : Option EventCheckpoint) (w : ExportWorld π) : Prop where
  log : w.log.Chained env
  client : w.client.OnWay (w.log.events env tenant) start terminal
  shown : w.client.Shown env tenant start

theorem ExportWorld.sound_append
    {env : EventEnv π} (hlaw : env.Lawful) {tenant : String} {start : EventCheckpoint}
    {terminal : Option EventCheckpoint} {w : ExportWorld π}
    (hw : w.Sound env tenant start terminal) {t grantId kind : String} {payload : π}
    {now : UInt64} {log' : EventLog}
    (h : deliveryEvent env w.log t grantId kind payload now = some log') :
  ExportWorld.Sound env tenant start terminal ⟨log', w.client⟩
  := by
  obtain ⟨hchained, hseq⟩ := EventLog.chained_deliveryEvent hlaw hw.log h
  have hroom : w.log.sequence < i64Max := by
    have := hchained.sequence
    omega
  refine ⟨hchained, ?_, hw.shown⟩
  rcases hw.client with hbegin | ⟨goal, hbetween, hgoal⟩
  · exact Or.inl hbegin
  · refine Or.inr ⟨goal, ?_, hgoal⟩
    dsimp only
    rw [EventLog.events_push hlaw hroom h]
    split
    · apply hbetween.append
      · intro x hx
        have := EventLog.id_le_sequence hw.log hx
        change x.id < w.log.sequence + 1
        omega
      · exact Nat.succ_pos _
    · rw [List.append_nil]
      exact hbetween

theorem ExportWorld.sound_page
    {env : EventEnv π} (hlaw : env.Lawful) {tenant : String} {start : EventCheckpoint}
    {terminal : Option EventCheckpoint} {w : ExportWorld π}
    (hw : w.Sound env tenant start terminal) {limit : Nat} {client' : ExportClient π}
    (h : w.client.page env tenant w.log.toEventTable limit = some client') :
  ExportWorld.Sound env tenant start terminal ⟨w.log, client'⟩
  := by
  refine ⟨hw.log, Or.inr ?_,
    ExportClient.shown_page w.client (w.log.toEventTable, limit) client' hw.shown h⟩
  have hlog := hw.log.tenants tenant
  rcases hw.client with hbegin | ⟨goal, hbetween, hgoal⟩
  · obtain ⟨t, ht, hterminal⟩ := hlog.page_between hlaw start
      (fun hplace => by
        rw [hbegin] at hplace ⊢
        exact ⟨hplace, Nat.le_refl _, (eventsBetween_self _ _).symm⟩) h
    refine ⟨t, ht, ?_⟩
    intro t' ht'
    rw [hbegin, ExportClient.begin, ht', exportTerminal] at hterminal
    split at hterminal
    · cases hterminal
      rfl
    · cases hterminal
  · obtain ⟨t, ht, hterminal⟩ := hlog.page_between hlaw start
      (fun _ => ⟨hbetween.startPlace, hbetween.order.1, hbetween.got⟩) h
    refine ⟨t, ht, ?_⟩
    intro t' ht'
    rw [hbetween.named, exportTerminal] at hterminal
    split at hterminal
    · cases hterminal
      exact hgoal t' ht'
    · cases hterminal

theorem ExportWorld.sound_step
    {env : EventEnv π} (hlaw : env.Lawful) {tenant : String} {start : EventCheckpoint}
    {terminal : Option EventCheckpoint} (w : ExportWorld π) (op : ExportOp π)
    (w' : ExportWorld π) (hw : w.Sound env tenant start terminal)
    (h : w.step env tenant op = some w') :
  w'.Sound env tenant start terminal
  := by
  cases op with
  | append t grantId kind payload now =>
      obtain ⟨log', hlog', rfl⟩ := Option.map_eq_some_iff.mp h
      exact sound_append hlaw hw hlog'
  | page limit =>
      obtain ⟨client', hclient', rfl⟩ := Option.map_eq_some_iff.mp h
      exact sound_page hlaw hw hclient'

/-- The places a client asks for are places of the log, in order. -/
structure ValidRequest
    (events : List (DeliveryEvent π)) (start : EventCheckpoint)
    (terminal : Option EventCheckpoint) : Prop where
  startPlace : IsPlace events start
  goalPlace : IsPlace events (terminalPlace events terminal)
  order : start.id ≤ (terminalPlace events terminal).id

/-- The next page of a client on its way is not refused and brings it further. -/
theorem ExportWorld.page_progress
    {env : EventEnv π} (hlaw : env.Lawful) {tenant : String} {start : EventCheckpoint}
    {terminal : Option EventCheckpoint} {w : ExportWorld π}
    (hw : w.Sound env tenant start terminal)
    (hfits : FitsPages env tenant (w.log.events env tenant))
    (hvalid : w.client = .begin start terminal →
      ValidRequest (w.log.events env tenant) start terminal)
    {limit : Nat} (hlimit : 1 ≤ limit ∧ limit ≤ 100) :
  ∃ client', w.client.page env tenant w.log.toEventTable limit = some client'
    ∧ client'.terminal
      = some (terminalPlace (w.log.events env tenant) w.client.terminal)
    ∧ (client'.complete = true ∨ w.client.events.length < client'.events.length)
  := by
  have hlog := hw.log.tenants tenant
  have hrequest : ValidRequest (w.log.events env tenant) w.client.place w.client.terminal := by
    rcases hw.client with hbegin | ⟨goal, hbetween, _⟩
    · have := hvalid hbegin
      rw [hbegin]
      exact this
    · rw [hbetween.named]
      exact ⟨hbetween.herePlace, hbetween.goalPlace, hbetween.order.2⟩
  obtain ⟨x, hx, hterminal, hprogress⟩ := hlog.export_of_fits hlaw hfits
    hrequest.startPlace hrequest.goalPlace hrequest.order hlimit
  rw [ExportClient.page, hx]
  refine ⟨_, rfl, congrArg some hterminal, ?_⟩
  rcases hprogress with hdone | hmore
  · exact Or.inl hdone
  · right
    rw [List.length_append]
    have := List.length_pos_of_ne_nil hmore
    omega

/-- A page that is given is on its way to the place that was named, or to the head of the log. -/
theorem ExportClient.page_terminal
    {env : EventEnv π} (hlaw : env.Lawful) {tenant : String} {table : EventTable}
    {events : List (DeliveryEvent π)} (hlog : TenantLog env table tenant events)
    {client client' : ExportClient π} {limit : Nat}
    (h : client.page env tenant table limit = some client') :
  client'.terminal = some (terminalPlace events client.terminal)
  := by
  obtain ⟨x, hx, rfl⟩ := Option.map_eq_some_iff.mp h
  obtain ⟨_, _, hterminal, _⟩ := deliveryEventExport_eq_some hx
  dsimp only
  cases hnamed : client.terminal with
  | none =>
      rw [hnamed] at hterminal
      rw [terminalPlace, hlog.predecessor_eq hlaw hterminal]
  | some t =>
      rw [hnamed, exportTerminal] at hterminal
      obtain ⟨_, hterminal⟩ := Option.ite_none_right_eq_some.mp hterminal
      exact hterminal.symm

/-- No event of the tenant in the rows verifies but those the server appended. -/
def Unforged
    (env : EventEnv π) (tenant : String) (events : List (DeliveryEvent π))
    (table : EventTable) : Prop :=
  ∀ row ∈ table.rows, ∀ e, row.event? env = some e → e.verifyFor env tenant = true → e ∈ events

/-- Pages of unforged rows show only events of the log. -/
theorem ExportClient.unforged_run
    {env : EventEnv π} {tenant : String} {events : List (DeliveryEvent π)}
    {client client' : ExportClient π} {requests : List (EventTable × Nat)}
    (hrequests : ∀ request ∈ requests, Unforged env tenant events request.1)
    (hclient : ∀ e ∈ client.events, e ∈ events)
    (h : Runs.run (ExportClient.pageOf env tenant) client requests = some client') :
  ∀ e ∈ client'.events, e ∈ events
  := by
  apply Runs.run_invariant_along
    (P := fun _ request => Unforged env tenant events request.1)
    (I := fun c : ExportClient π => ∀ e ∈ c.events, e ∈ events) _ _ hclient h
  · intro c request c' hunforged hc hpage e he
    obtain ⟨x, hx, rfl⟩ := page_eq_some hpage
    rcases List.mem_append.mp he with he | he
    · exact hc e he
    · obtain ⟨_, _, _, _, hrows, _⟩ := deliveryEventExport_eq_some hx
      obtain ⟨hverified, _, row, hrow, hparse⟩ := (pageRows_sound hrows).2 e he
      have hmem : row ∈ request.1.rows :=
        List.mem_of_mem_filter (List.mem_of_mem_filter (List.mem_of_mem_take hrow))
      exact hunforged row hmem e hparse hverified
  · apply Runs.along_of_forall
    intro request hrequest _
    exact hrequests request hrequest

/-- The export is a complete, tamper-evident chain.  In every interleaving of appends and
pages the client has the tenant's events up to where it is, linked and verified, and its
next page names the place it goes to and goes on until there.  And a client that gets there
from whatever rows has the events of the log, up to the place it named, or, when it named
none, an initial part of them. -/
theorem deliveryEventExport_chain
    {env : EventEnv π} (hlaw : env.Lawful) (tenant : String) (start : EventCheckpoint)
    (terminal : Option EventCheckpoint) {ops : List (ExportOp π)} {w : ExportWorld π}
    (h : Runs.run (ExportWorld.step env tenant) ⟨.empty, .begin start terminal⟩ ops = some w) :
  w.client.OnWay (w.log.events env tenant) start terminal
    ∧ w.client.Shown env tenant start
    ∧ (∀ limit client', w.client.page env tenant w.log.toEventTable limit = some client' →
        client'.terminal
          = some (terminalPlace (w.log.events env tenant) w.client.terminal))
    ∧ (FitsPages env tenant (w.log.events env tenant) →
        (w.client = .begin start terminal →
          ValidRequest (w.log.events env tenant) start terminal) →
        ∀ limit, 1 ≤ limit ∧ limit ≤ 100 →
          ∃ client', w.client.page env tenant w.log.toEventTable limit = some client'
            ∧ client'.terminal
              = some (terminalPlace (w.log.events env tenant) w.client.terminal)
            ∧ (client'.complete = true
                ∨ w.client.events.length < client'.events.length))
    ∧ ∀ requests client,
        Runs.run (ExportClient.pageOf env tenant) (.begin start terminal) requests = some client →
        client.complete = true → IsPlace (w.log.events env tenant) start →
        (∀ t, terminal = some t → IsPlace (w.log.events env tenant) t →
            client.events = eventsBetween (w.log.events env tenant) start.id t.id)
          ∧ ((∀ request ∈ requests,
                Unforged env tenant (w.log.events env tenant) request.1) →
              client.events <+: eventsBetween (w.log.events env tenant) start.id i64Max)
  := by
  have hw : w.Sound env tenant start terminal :=
    Runs.run_invariant (ExportWorld.sound_step hlaw)
      ⟨EventLog.chained_empty env, Or.inl rfl, ExportClient.shown_begin env tenant start terminal⟩
      h
  have hlog := hw.log.tenants tenant
  refine ⟨hw.client, hw.shown, fun _ _ hpage => ExportClient.page_terminal hlaw hlog hpage, ?_, ?_⟩
  · intro hfits hvalid limit hlimit
    exact ExportWorld.page_progress hlaw hw hfits hvalid hlimit
  · intro requests client hrun hcomplete hstart
    have hshown : client.Shown env tenant start :=
      Runs.run_invariant ExportClient.shown_page
        (ExportClient.shown_begin env tenant start terminal) hrun
    constructor
    · rintro t rfl ht
      have hnamed : client.terminal = some t :=
        Runs.run_invariant (I := fun c : ExportClient π => c.terminal = some t)
          (ExportClient.terminal_page) rfl hrun
      have hplace := hshown.complete hcomplete
      rw [hnamed, Option.some.injEq] at hplace
      exact hlog.complete_eq hlaw hstart ht hshown hplace.symm
    · intro hunforged
      have hsub := ExportClient.unforged_run hunforged (fun e he => by cases he) hrun
      have hprefix := hlog.prefix_of_unforged hlaw hstart hshown hsub
      rw [Nat.max_eq_right (hstart.id_le hlog)] at hprefix
      exact hprefix

/-! ### An environment to compute with -/

/-- Characters marked so that the end of the list shows. -/
def markChars (l : List Char) : List Char :=
  l.flatMap (fun c => ['1', c]) ++ ['0']

theorem markChars_injective {l l' r r' : List Char} (h : markChars l ++ r = markChars l' ++ r') :
  l = l' ∧ r = r'
  := by
  induction l generalizing l' with
  | nil =>
      cases l' with
      | nil => simpa [markChars] using h
      | cons c l' => simp [markChars] at h
  | cons c l ih =>
      cases l' with
      | nil => simp [markChars] at h
      | cons c' l' =>
          simp only [markChars, List.flatMap_cons, List.cons_append, List.nil_append,
            List.cons.injEq, true_and] at h
          obtain ⟨rfl, h⟩ := h
          obtain ⟨rfl, rfl⟩ := ih h
          exact ⟨rfl, rfl⟩

/-- The fields of a document one after the other, in place of a hash. -/
def sampleDigest (document : EventDocument String) (signature : String) : String :=
  String.ofList
    (markChars (List.replicate document.id 'i') ++ (markChars document.tenant.toList
      ++ (markChars document.grantId.toList ++ (markChars document.kind.toList
        ++ (markChars (List.replicate document.createdAt.toNat 't')
          ++ (markChars document.payload.toList ++ (markChars document.previousHash.toList
            ++ (markChars document.issuer.toList ++ (markChars signature.toList ++ [])))))))))

/-- Payloads are their texts, and every signature of the server is one text. -/
def sampleEventEnv : EventEnv String where
  render payload := payload
  parse text := some text
  digest := sampleDigest
  sign _ := "signed"
  signatureVerifies issuer _ signature := issuer = "server" && signature = "signed"
  issuer := "server"
  eventBytes event := event.payload.length + 500
  envelopeBytes _ _ _ := 500

theorem sampleEventEnv_lawful : sampleEventEnv.Lawful where
  parse_render _ := rfl
  verifies _ := rfl
  digest_injective := by
    intro document signature document' signature' h
    have h := String.ofList_injective h
    obtain ⟨hid, h⟩ := markChars_injective h
    obtain ⟨htenant, h⟩ := markChars_injective h
    obtain ⟨hgrant, h⟩ := markChars_injective h
    obtain ⟨hkind, h⟩ := markChars_injective h
    obtain ⟨hcreated, h⟩ := markChars_injective h
    obtain ⟨hpayload, h⟩ := markChars_injective h
    obtain ⟨hprevious, h⟩ := markChars_injective h
    obtain ⟨hissuer, h⟩ := markChars_injective h
    obtain ⟨hsignature, _⟩ := markChars_injective h
    have hid := congrArg List.length hid
    have hcreated := congrArg List.length hcreated
    simp only [List.length_replicate, UInt64.toNat_inj] at hid hcreated
    simp only [String.toList_inj] at htenant hgrant hkind hpayload hprevious hissuer hsignature
    refine ⟨?_, hsignature⟩
    cases document
    cases document'
    simp_all
  digest_ne_empty := by
    intro document signature h
    have h := congrArg String.toList h
    simp [sampleEventEnv, sampleDigest, markChars] at h

/-- A log with an event, and a client that fetched it. -/
theorem deliveryEventExport_chain_sample :
  ∃ w, Runs.run (ExportWorld.step sampleEventEnv "acme") ⟨.empty, .begin .default none⟩
      [.append "acme" "" "fixture" "{}" 1, .page 10] = some w
    ∧ w.client.OnWay (w.log.events sampleEventEnv "acme") .default none
    ∧ w.client.Shown sampleEventEnv "acme" .default
  := by
  have hsome : (Runs.run (ExportWorld.step sampleEventEnv "acme")
      ⟨.empty, .begin .default none⟩
      [.append "acme" "" "fixture" "{}" 1, .page 10]).isSome = true := by
    decide
  obtain ⟨w, h⟩ := Option.isSome_iff_exists.mp hsome
  obtain ⟨hway, hshown, _⟩ :=
    deliveryEventExport_chain sampleEventEnv_lawful "acme" .default none h
  exact ⟨w, h, hway, hshown⟩

/-- A page that begins with an event larger than it is refused. -/
theorem pageRows_oversized
    {env : EventEnv π} (hlaw : env.Lawful) {tenant : String} {budget : Nat}
    {e : DeliveryEvent π} (hid : e.id ≤ i64Max) (hbig : budget < env.eventBytes e + 1)
    (previous : EventCheckpoint) (rows : List EventRow) :
  pageRows env tenant budget true previous 0 (e.row env :: rows) = none
  := by
  rw [pageRows]
  cases h : eventRow env (e.row env) with
  | none => rfl
  | some e' =>
      obtain rfl := eventRow_row hlaw hid h
      rw [Option.bind_some, Nat.zero_add, if_pos hbig]
      split <;> rfl

/-- The export of a log whose one event is as large as a page is refused. -/
theorem deliveryEventExport_large
    {payload : String} (hlength : maxEventPageBytes ≤ payload.length) {log : EventLog}
    (h : deliveryEvent sampleEventEnv .empty "acme" "" "fixture" payload 1 = some log) :
  deliveryEventExport sampleEventEnv log.toEventTable "acme" .default none 10 = none
  := by
  have hlaw := sampleEventEnv_lawful
  have hlog := (EventLog.chained_deliveryEvent hlaw (EventLog.chained_empty _) h).1.tenants "acme"
  have hevents := EventLog.events_push hlaw (by decide) h "acme"
  rw [if_pos rfl] at hevents
  cases hx : deliveryEventExport sampleEventEnv log.toEventTable "acme" .default none 10 with
  | none => rfl
  | some x =>
      obtain ⟨_, _, hterminal, _, hpage, _⟩ := deliveryEventExport_eq_some hx
      have hplace := hlog.predecessor_eq hlaw hterminal
      rw [eventPage, hlog.page_rows, ← hplace, hevents] at hpage
      have hbetween : ∀ document : EventDocument String, document.id = 1 →
          (eventsBetween ([] ++ [document.event sampleEventEnv]) EventCheckpoint.default.id
            (placeAt ([] ++ [document.event sampleEventEnv]) i64Max).id).take (min 10 100)
            = [document.event sampleEventEnv] := by
        intro document hid
        have hevent : (document.event sampleEventEnv).id = 1 := hid
        simp [eventsBetween, placeAt, EventCheckpoint.default, EventCheckpoint.of, hevent, i64Max]
      have hempty : EventTable.events sampleEventEnv EventLog.empty.toEventTable "acme" = [] := rfl
      rw [hempty, hbetween _ rfl, List.map_cons,
        pageRows_oversized hlaw (e := (nextDocument sampleEventEnv .empty "acme" "" "fixture"
          payload 1).event sampleEventEnv) (by change 1 ≤ i64Max; decide)] at hpage
      · cases hpage
      · change _ < payload.length + 500 + 1
        omega

theorem exists_large_payload (n : Nat) :
  ∃ payload : String, n ≤ payload.length
  := by
  refine ⟨String.ofList (List.replicate n 'a'), Nat.le_of_eq ?_⟩
  rw [String.length_ofList, List.length_replicate]

/-- A log cut back to an earlier place is exported as complete, and an event larger than a
page is never exported. -/
theorem deliveryEventExport_rollback :
  (∃ log x, deliveryEvent sampleEventEnv .empty "acme" "" "fixture" "{}" 1 = some log
    ∧ deliveryEventExport sampleEventEnv EventLog.empty.toEventTable "acme" .default none 10
      = some x
    ∧ x.complete = true ∧ x.events ≠ log.events sampleEventEnv "acme")
  ∧ ∃ payload log, deliveryEvent sampleEventEnv .empty "acme" "" "fixture" payload 1 = some log
    ∧ deliveryEventExport sampleEventEnv log.toEventTable "acme" .default none 10 = none
  := by
  constructor
  · refine ⟨_, _, rfl, rfl, rfl, ?_⟩
    exact (List.cons_ne_nil _ _).symm
  · obtain ⟨payload, hlength⟩ := exists_large_payload maxEventPageBytes
    exact ⟨payload, _, rfl, deliveryEventExport_large hlength rfl⟩

end Votport
