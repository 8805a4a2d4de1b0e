import Votport.Foundation.Runs
import Votport.Session.Registry

/-!
# Guards of the session registry

A guard is a right that its holder gives back by dropping it: an admission won before
shutdown, a pinned tenant or link, an outbound operation in progress, a lease on a
session.  The registry counts the guards that are out.  The state here is the registry
together with the guards that have been given and not yet dropped, and a run is any
sequence of requests, drops and registry operations.
-/

namespace Votport

/-- A right given by the registry. -/
inductive Guard
  | admission
  | tenantPin (tenant : String)
  | linkPin (linkId : String)
  | outboundOperation (tenant : Option String)
  | ownedOutboundOperation (tenant : Option String)
  /-- The lease on the activity record at an address. -/
  | sessionLease (activity : Nat)
deriving DecidableEq, Repr

/-! ### Taking a guard -/

/-- Wins the admission fence, if shutdown has not closed it. -/
def Sessions.tryAdmit (s : Sessions) : Option Guard × Sessions :=
  if s.inner.admissionClosed then (none, s)
  else
    (some .admission,
      { s with inner := { s.inner with activeAdmissions := s.inner.activeAdmissions + 1 } })

/-- Stops new sessions for good and tells whether it was the first to do so. -/
def Sessions.closeAdmission (s : Sessions) : Bool × Sessions :=
  (!s.inner.admissionClosed, { s with inner := { s.inner with admissionClosed := true } })

/-- Excludes other mutations of a named tenant and its new sessions. -/
def Sessions.tryPinTenant (s : Sessions) (tenant : String) : Option Guard × Sessions :=
  if tenant = "" then (none, s)
  else if tenant ∈ s.inner.pinned then (none, s)
  else
    (some (.tenantPin tenant),
      { s with inner := { s.inner with pinned := insert tenant s.inner.pinned } })

/-- Blocks new sessions of a link. -/
def Sessions.tryPinLink (s : Sessions) (linkId : String) : Option Guard × Sessions :=
  if linkId ∈ s.inner.pinnedLinks then (none, s)
  else
    (some (.linkPin linkId),
      { s with inner := { s.inner with pinnedLinks := insert linkId s.inner.pinnedLinks } })

/-- Counts one more outbound operation of a tenant. -/
def Sessions.beginOutbound (s : Sessions) (tenant : String) : Sessions :=
  { s with
    inner :=
      { s.inner with
        outbound := s.inner.outbound.upsert (tenant, s.activeOutboundForTenant tenant + 1) } }

/-- Registers an outbound operation unless its tenant is pinned.  The default tenant is
not deletable and is not counted. -/
def Sessions.tryBeginOutbound (s : Sessions) (tenant : String) : Option Guard × Sessions :=
  if tenant = "" then (some (.outboundOperation none), s)
  else if tenant ∈ s.inner.pinned then (none, s)
  else (some (.outboundOperation (some tenant)), s.beginOutbound tenant)

/-- Registers an outbound operation that can outlive its request. -/
def Sessions.tryBeginOutboundOwned (s : Sessions) (tenant : String) : Option Guard × Sessions :=
  if tenant = "" then (some (.ownedOutboundOperation none), s)
  else if tenant ∈ s.inner.pinned then (none, s)
  else (some (.ownedOutboundOperation (some tenant)), s.beginOutbound tenant)

/-- Keeps a native push registered while its lease is held. -/
def Sessions.pushLease (s : Sessions) (id : String) : Option Guard × Sessions :=
  match s.inner.map.find? id with
  | none => (none, s)
  | some (_, handle) =>
      match handle.kind with
      | .http => (none, s)
      | .push _ =>
          (some (.sessionLease handle.activity),
            s.updateActivity handle.activity fun activity =>
              { activity with inFlight := activity.inFlight + 1 })

/-- Gives the channel of an HTTP session with a lease on it. -/
def Sessions.touch (s : Sessions) (now : Nat) (id : String) :
    Except TouchError (Nat × Guard) × Sessions :=
  match s.inner.map.find? id with
  | none => (.error .notFound, s)
  | some (_, handle) =>
      match handle.kind with
      | .push _ => (.error .wrongKind, s)
      | .http =>
          (.ok (handle.sender, .sessionLease handle.activity),
            s.updateActivity handle.activity fun activity =>
              { activity with lastActive := now, inFlight := activity.inFlight + 1 })

/-! ### Dropping a guard -/

/-- Counts one outbound operation of a tenant less. -/
def Sessions.endOutbound (s : Sessions) (tenant : String) : Sessions :=
  match s.inner.outbound.find? tenant with
  | none => s
  | some (_, count) =>
      { s with
        inner :=
          { s.inner with
            outbound :=
              if count - 1 = 0 then s.inner.outbound.erase tenant
              else s.inner.outbound.upsert (tenant, count - 1) } }

/-- What dropping a guard does to the registry. -/
def Guard.drop (now : Nat) (s : Sessions) : Guard → Sessions
  | .admission =>
      { s with inner := { s.inner with activeAdmissions := s.inner.activeAdmissions - 1 } }
  | .tenantPin tenant =>
      { s with inner := { s.inner with pinned := s.inner.pinned.erase tenant } }
  | .linkPin linkId =>
      { s with inner := { s.inner with pinnedLinks := s.inner.pinnedLinks.erase linkId } }
  | .outboundOperation none => s
  | .outboundOperation (some tenant) => s.endOutbound tenant
  | .ownedOutboundOperation none => s
  | .ownedOutboundOperation (some tenant) => s.endOutbound tenant
  | .sessionLease address =>
      s.updateActivity address fun activity =>
        { activity with lastActive := now, inFlight := activity.inFlight - 1 }

/-- Admits a session of a request that won its admission; a refusal drops the guard. -/
def Sessions.insertAdmittedWithGuard
    (s : Sessions) (now : Nat) (admission : SessionAdmission) (sender : Nat)
    (usage : Except String (UInt64 × List RetainedReservation)) (guard : Guard) :
    Except InsertError Guard × Sessions :=
  match s.insertAdmittedInner now admission sender usage true with
  | (.ok (), s) => (.ok guard, s)
  | (.error e, s) => (.error e, guard.drop now s)

/-! ### Runs -/

/-- The registry with the guards that are out. -/
structure GuardedSessions where
  sessions : Sessions
  guards : List Guard

/-- The registry at the start of the process, before any guard is given. -/
def GuardedSessions.new : GuardedSessions where
  sessions := .new
  guards := []

/-- An operation on the registry. -/
inductive SessionsOp
  | tryAdmit
  | closeAdmission
  | tryPinTenant (tenant : String)
  | tryPinLink (linkId : String)
  | tryBeginOutbound (tenant : String)
  | tryBeginOutboundOwned (tenant : String)
  | insertAdmitted (now : Nat) (admission : SessionAdmission) (sender : Nat)
      (usage : Except String (UInt64 × List RetainedReservation))
  /-- The admission with the guard at a place of the list of guards. -/
  | insertAdmittedWithGuard (now : Nat) (admission : SessionAdmission) (sender : Nat)
      (usage : Except String (UInt64 × List RetainedReservation)) (guard : Nat)
  | insertResumed (now : Nat) (id linkId tenant : String) (reservedBytes : UInt64)
      (sender : Nat)
  | takeHttp
  | touch (now : Nat) (id : String)
  | pushLease (id : String)
  | remove (id : String)
  | sweep (now idle : Nat)
  | parkPush (id : String)
  | connectPush (id : String)
  | abortPush (id : String)
  | cancelPushesForLink (link : String)
  | markActive (now : Nat) (id : String)
  | setReceived (id : String) (bytes : UInt64)
  | seedResumed (id : String) (startedAt : Nat) (received : UInt64)
  /-- Drops the guard at a place of the list of guards. -/
  | dropGuard (now : Nat) (guard : Nat)

/-- The admission of an operation, if it is one. -/
def SessionsOp.admission? : SessionsOp → Option SessionAdmission
  | .insertAdmitted _ admission _ _ => some admission
  | .insertAdmittedWithGuard _ admission _ _ _ => some admission
  | .insertResumed _ id linkId tenant reservedBytes _ =>
      some (resumedAdmission id linkId tenant reservedBytes)
  | _ => none

/-- The state after a request for a guard. -/
def GuardedSessions.take (w : GuardedSessions) (r : Option Guard × Sessions) :
    GuardedSessions where
  sessions := r.2
  guards := r.1.toList ++ w.guards

/-- The state after an operation that gives no guard. -/
def GuardedSessions.withSessions (w : GuardedSessions) (s : Sessions) : GuardedSessions :=
  { w with sessions := s }

/-- The state after an admission with the guard at place `i`. -/
def GuardedSessions.admitWith
    (w : GuardedSessions) (i : Nat) (r : Except InsertError Guard × Sessions) :
    GuardedSessions where
  sessions := r.2
  guards :=
    match r.1 with
    | .ok _ => w.guards
    | .error _ => w.guards.eraseIdx i

/-- One operation, none for one that names a guard that is not out. -/
def GuardedSessions.step (w : GuardedSessions) : SessionsOp → Option GuardedSessions
  | .tryAdmit => some (w.take w.sessions.tryAdmit)
  | .closeAdmission => some (w.withSessions w.sessions.closeAdmission.2)
  | .tryPinTenant tenant => some (w.take (w.sessions.tryPinTenant tenant))
  | .tryPinLink linkId => some (w.take (w.sessions.tryPinLink linkId))
  | .tryBeginOutbound tenant => some (w.take (w.sessions.tryBeginOutbound tenant))
  | .tryBeginOutboundOwned tenant => some (w.take (w.sessions.tryBeginOutboundOwned tenant))
  | .insertAdmitted now admission sender usage =>
      some (w.withSessions (w.sessions.insertAdmitted now admission sender usage).2)
  | .insertAdmittedWithGuard now admission sender usage i =>
      if w.guards[i]? = some .admission then
        some (w.admitWith i
          (w.sessions.insertAdmittedWithGuard now admission sender usage .admission))
      else none
  | .insertResumed now id linkId tenant reservedBytes sender =>
      some (w.withSessions
        (w.sessions.insertResumed now id linkId tenant reservedBytes sender).2)
  | .takeHttp => some (w.withSessions w.sessions.takeHttp.2)
  | .touch now id =>
      some (w.take ((w.sessions.touch now id).1.toOption.map Prod.snd,
        (w.sessions.touch now id).2))
  | .pushLease id => some (w.take (w.sessions.pushLease id))
  | .remove id => some (w.withSessions (w.sessions.remove id).2)
  | .sweep now idle => some (w.withSessions (w.sessions.sweep now idle))
  | .parkPush id => some (w.withSessions (w.sessions.parkPush id))
  | .connectPush id => some (w.withSessions (w.sessions.connectPush id))
  | .abortPush id => some (w.withSessions (w.sessions.abortPush id))
  | .cancelPushesForLink link => some (w.withSessions (w.sessions.cancelPushesForLink link))
  | .markActive now id => some (w.withSessions (w.sessions.markActive now id).2)
  | .setReceived id bytes => some (w.withSessions (w.sessions.setReceived id bytes))
  | .seedResumed id startedAt received =>
      some (w.withSessions (w.sessions.seedResumed id startedAt received))
  | .dropGuard now i =>
      (w.guards[i]?).map fun guard => ⟨guard.drop now w.sessions, w.guards.eraseIdx i⟩

/-! ### The counters -/

/-- A counter or flag of the registry. -/
inductive Counter
  | admissions
  | tenantPin (tenant : String)
  | linkPin (linkId : String)
  | outbound (tenant : String)
  | inFlight (activity : Nat)
deriving DecidableEq

/-- The counter that counts a guard, none for an operation of the default tenant. -/
def Guard.counter : Guard → Option Counter
  | .admission => some .admissions
  | .tenantPin tenant => some (.tenantPin tenant)
  | .linkPin linkId => some (.linkPin linkId)
  | .outboundOperation tenant => tenant.map .outbound
  | .ownedOutboundOperation tenant => tenant.map .outbound
  | .sessionLease address => some (.inFlight address)

/-- What the registry has in a counter. -/
def Sessions.count (s : Sessions) : Counter → Nat
  | .admissions => s.inner.activeAdmissions
  | .tenantPin tenant => if tenant ∈ s.inner.pinned then 1 else 0
  | .linkPin linkId => if linkId ∈ s.inner.pinnedLinks then 1 else 0
  | .outbound tenant => s.activeOutboundForTenant tenant
  | .inFlight address => ((s.activities[address]?).map SessionActivity.inFlight).getD 0

/-- One for the counter that counts a guard, zero for the others. -/
def Guard.unit (guard : Guard) (c : Counter) : Nat :=
  if guard.counter = some c then 1 else 0

/-- The guards that are out and that a counter counts. -/
def GuardedSessions.held (w : GuardedSessions) (c : Counter) : Nat :=
  w.guards.countP (·.counter = some c)

/-- The activity records of the live sessions are allocated. -/
def Sessions.Addressed (s : Sessions) : Prop :=
  ∀ row ∈ s.inner.map.rows, row.2.activity < s.activities.length

/-- A request gives no guard and changes no counter, or counts the guard it gives. -/
def Sessions.Counts (s : Sessions) (r : Option Guard × Sessions) : Prop :=
  ∀ c, r.2.count c = s.count c + (r.1.map (·.unit c)).getD 0

theorem Sessions.counts_none (s : Sessions) :
  s.Counts (none, s)
  := by
  intro c
  simp

theorem Sessions.activeOutbound_upsert (s : Sessions) (tenant tenant' : String) (n : Nat) :
  Sessions.activeOutboundForTenant
      { s with inner := { s.inner with outbound := s.inner.outbound.upsert (tenant, n) } } tenant'
    = if tenant' = tenant then n else s.activeOutboundForTenant tenant'
  := by
  rw [activeOutboundForTenant, activeOutboundForTenant, Table.find?_upsert]
  split <;> rfl

theorem Sessions.count_beginOutbound (s : Sessions) (tenant : String) (c : Counter) :
  (s.beginOutbound tenant).count c
    = s.count c + if some (Counter.outbound tenant) = some c then 1 else 0
  := by
  cases c with
  | outbound tenant' =>
      rw [count, beginOutbound, activeOutbound_upsert, count]
      grind
  | _ => rfl

theorem Sessions.count_updateActivity
    (s : Sessions) {address : Nat} (haddress : address < s.activities.length)
    (f : SessionActivity → SessionActivity) (c : Counter) :
  (s.updateActivity address f).count c
    = if c = .inFlight address then
        ((s.activities[address]?).map (fun a => (f a).inFlight)).getD 0
      else s.count c
  := by
  cases c with
  | inFlight address' =>
      simp only [count, updateActivity, List.getElem?_modify, Counter.inFlight.injEq]
      by_cases h : address = address'
      · subst h
        simp [haddress]
      · simp [h, Ne.symm h]
  | _ => rfl

theorem Sessions.count_lease
    (s : Sessions) {address : Nat} (haddress : address < s.activities.length)
    {f : SessionActivity → SessionActivity} (hf : ∀ a, (f a).inFlight = a.inFlight + 1)
    (c : Counter) :
  (s.updateActivity address f).count c = s.count c + (Guard.sessionLease address).unit c
  := by
  rw [count_updateActivity s haddress, Guard.unit, Guard.counter]
  by_cases h : c = .inFlight address
  · subst h
    simp [count, haddress, hf]
  · simp [h, Ne.symm h]

theorem Sessions.counts_tryAdmit (s : Sessions) : s.Counts s.tryAdmit := by
  rw [tryAdmit]
  split
  · apply counts_none
  · intro c
    cases c <;> rfl

theorem Sessions.counts_tryPinTenant (s : Sessions) (tenant : String) :
  s.Counts (s.tryPinTenant tenant)
  := by
  rw [tryPinTenant]
  split
  · apply counts_none
  · split
    · apply counts_none
    · next h =>
        intro c
        cases c with
        | tenantPin tenant' =>
            simp only [count, Guard.unit, Guard.counter, Finset.mem_insert]
            grind
        | _ => rfl

theorem Sessions.counts_tryPinLink (s : Sessions) (linkId : String) :
  s.Counts (s.tryPinLink linkId)
  := by
  rw [tryPinLink]
  split
  · apply counts_none
  · next h =>
      intro c
      cases c with
      | linkPin linkId' =>
          simp only [count, Guard.unit, Guard.counter, Finset.mem_insert]
          grind
      | _ => rfl

theorem Sessions.counts_tryBeginOutbound (s : Sessions) (tenant : String) :
  s.Counts (s.tryBeginOutbound tenant)
  := by
  rw [tryBeginOutbound]
  split
  · intro c
    simp [Guard.unit, Guard.counter]
  · split
    · apply counts_none
    · intro c
      apply s.count_beginOutbound

theorem Sessions.counts_tryBeginOutboundOwned (s : Sessions) (tenant : String) :
  s.Counts (s.tryBeginOutboundOwned tenant)
  := by
  rw [tryBeginOutboundOwned]
  split
  · intro c
    simp [Guard.unit, Guard.counter]
  · split
    · apply counts_none
    · intro c
      apply s.count_beginOutbound

theorem Sessions.Addressed.of_find?
    {s : Sessions} (hs : s.Addressed) {id : String} {row : String × SessionHandle}
    (h : s.inner.map.find? id = some row) :
  row.2.activity < s.activities.length
  := hs row (Table.find?_eq_some.mp h).1

theorem Sessions.counts_pushLease {s : Sessions} (hs : s.Addressed) (id : String) :
  s.Counts (s.pushLease id)
  := by
  rw [pushLease]
  split
  · apply counts_none
  · next heq =>
      split
      · apply counts_none
      · intro c
        apply s.count_lease (hs.of_find? heq)
        intro _
        rfl

theorem Sessions.counts_touch {s : Sessions} (hs : s.Addressed) (now : Nat) (id : String) :
  s.Counts ((s.touch now id).1.toOption.map Prod.snd, (s.touch now id).2)
  := by
  rw [touch]
  split
  · apply counts_none
  · next heq =>
      split
      · apply counts_none
      · intro c
        apply s.count_lease (hs.of_find? heq)
        intro _
        rfl

theorem Sessions.count_endOutbound (s : Sessions) (tenant : String) (c : Counter) :
  (s.endOutbound tenant).count c
    = s.count c - if some (Counter.outbound tenant) = some c then 1 else 0
  := by
  rw [endOutbound]
  cases c with
  | outbound tenant' =>
      split
      · next heq =>
          simp only [count, activeOutboundForTenant]
          grind
      · next id count heq =>
          obtain rfl : id = tenant := (Table.find?_eq_some.mp heq).2
          simp only [Sessions.count, activeOutboundForTenant]
          split
          · rw [Table.find?_erase]
            grind
          · rw [Table.find?_upsert]
            grind
  | _ => split <;> simp [count]

/-- Dropping a guard takes one from the counter that counts it. -/
theorem Sessions.count_drop
    (s : Sessions) {guard : Guard} (hguard : ∀ a, guard = .sessionLease a → a < s.activities.length)
    (now : Nat) (c : Counter) :
  (guard.drop now s).count c = s.count c - guard.unit c
  := by
  cases guard with
  | admission => cases c <;> rfl
  | tenantPin tenant =>
      cases c with
      | tenantPin tenant' =>
          simp only [Guard.drop, count, Guard.unit, Guard.counter, Finset.mem_erase]
          grind
      | _ => rfl
  | linkPin linkId =>
      cases c with
      | linkPin linkId' =>
          simp only [Guard.drop, count, Guard.unit, Guard.counter, Finset.mem_erase]
          grind
      | _ => rfl
  | outboundOperation tenant =>
      cases tenant with
      | none => simp [Guard.drop, Guard.unit, Guard.counter]
      | some tenant => apply s.count_endOutbound
  | ownedOutboundOperation tenant =>
      cases tenant with
      | none => simp [Guard.drop, Guard.unit, Guard.counter]
      | some tenant => apply s.count_endOutbound
  | sessionLease address =>
      have haddress := hguard address rfl
      rw [Guard.drop, count_updateActivity s haddress, Guard.unit, Guard.counter]
      by_cases h : c = .inFlight address
      · subst h
        simp [count, haddress]
      · simp [h, Ne.symm h]

/-! ### What one operation can do -/

/-- No session is admitted: the live sessions are among the earlier ones, and the HTTP
sessions are gone when the commands are closed. -/
structure Sessions.Quiet (s s' : Sessions) : Prop where
  map : s.inner.map.Shrinks s'.inner.map
  activities : s'.activities.length = s.activities.length
  admission : s.inner.admissionClosed = true → s'.inner.admissionClosed = true
  commands : s.inner.commandsClosed = true → s'.inner.commandsClosed = true
  http : s'.inner.commandsClosed = true →
    s.inner.commandsClosed = true ∨ ∀ row ∈ s'.inner.map.rows, row.2.kind ≠ .http

/-- A session is admitted that passed every check. -/
def Sessions.Enters
    (s s' : Sessions) (admission : SessionAdmission) (reserved : Bool) : Prop :=
  ∃ now sender received,
    s.inner.Admits admission received reserved ∧ s' = s.enter now admission sender

theorem Sessions.Quiet.of_inner
    {s s' : Sessions} (hmap : s'.inner.map = s.inner.map)
    (hactivities : s'.activities.length = s.activities.length)
    (hadmission : s'.inner.admissionClosed = s.inner.admissionClosed)
    (hcommands : s'.inner.commandsClosed = s.inner.commandsClosed) :
  s.Quiet s'
  where
    map := by rw [hmap]; apply SessionMap.Shrinks.refl
    activities := hactivities
    admission h := hadmission.trans h
    commands h := hcommands.trans h
    http h := Or.inl (hcommands.symm.trans h)

theorem Sessions.quiet_refl (s : Sessions) : s.Quiet s := .of_inner rfl rfl rfl rfl

theorem Sessions.quiet_withMap
    {s : Sessions} {map : SessionMap} (hmap : s.inner.map.Shrinks map) :
  s.Quiet (s.withMap map)
  where
    map := hmap
    activities := rfl
    admission h := h
    commands h := h
    http h := Or.inl h

theorem Sessions.quiet_updateActivity
    (s : Sessions) (address : Nat) (f : SessionActivity → SessionActivity) :
  s.Quiet (s.updateActivity address f)
  := by
  apply Quiet.of_inner
  · rfl
  · apply List.length_modify
  · rfl
  · rfl

theorem Sessions.quiet_updateActivityOf
    (s : Sessions) (id : String) (f : SessionActivity → SessionActivity) :
  s.Quiet (s.updateActivityOf id f)
  := by
  rw [updateActivityOf]
  split
  · apply quiet_refl
  · apply quiet_updateActivity

theorem Sessions.Quiet.trans
    {s s' s'' : Sessions} (h : s.Quiet s') (h' : s'.Quiet s'') :
  s.Quiet s''
  where
    map := h.map.trans h'.map
    activities := h'.activities.trans h.activities
    admission hs := h'.admission (h.admission hs)
    commands hs := h'.commands (h.commands hs)
    http hs := by
      rcases h'.http hs with hc | hno
      · rcases h.http hc with hc | hno
        · exact Or.inl hc
        · right
          intro row hrow hhttp
          obtain ⟨row₀, hrow₀, he⟩ := h'.map.mem hrow
          apply hno row₀ hrow₀
          rw [← SessionKind.fixed_eq_http] at hhttp ⊢
          rw [← hhttp]
          apply congrArg (fun row => row.2.kind) he
      · exact Or.inr hno

theorem Sessions.quiet_tryAdmit (s : Sessions) : s.Quiet s.tryAdmit.2 := by
  rw [tryAdmit]
  split
  · apply quiet_refl
  · exact .of_inner rfl rfl rfl rfl

theorem Sessions.quiet_closeAdmission (s : Sessions) : s.Quiet s.closeAdmission.2 where
  map := SessionMap.Shrinks.refl _
  activities := rfl
  admission _ := rfl
  commands h := h
  http h := Or.inl h

theorem Sessions.quiet_tryPinTenant (s : Sessions) (tenant : String) :
  s.Quiet (s.tryPinTenant tenant).2
  := by
  rw [tryPinTenant]
  split
  · apply quiet_refl
  · split <;> exact .of_inner rfl rfl rfl rfl

theorem Sessions.quiet_tryPinLink (s : Sessions) (linkId : String) :
  s.Quiet (s.tryPinLink linkId).2
  := by
  rw [tryPinLink]
  split <;> exact .of_inner rfl rfl rfl rfl

theorem Sessions.quiet_tryBeginOutbound (s : Sessions) (tenant : String) :
  s.Quiet (s.tryBeginOutbound tenant).2
  := by
  rw [tryBeginOutbound]
  split
  · apply quiet_refl
  · split <;> exact .of_inner rfl rfl rfl rfl

theorem Sessions.quiet_tryBeginOutboundOwned (s : Sessions) (tenant : String) :
  s.Quiet (s.tryBeginOutboundOwned tenant).2
  := by
  rw [tryBeginOutboundOwned]
  split
  · apply quiet_refl
  · split <;> exact .of_inner rfl rfl rfl rfl

theorem Sessions.quiet_pushLease (s : Sessions) (id : String) :
  s.Quiet (s.pushLease id).2
  := by
  rw [pushLease]
  split
  · apply quiet_refl
  · split
    · apply quiet_refl
    · apply quiet_updateActivity

theorem Sessions.quiet_touch (s : Sessions) (now : Nat) (id : String) :
  s.Quiet (s.touch now id).2
  := by
  rw [touch]
  split
  · apply quiet_refl
  · split
    · apply quiet_refl
    · apply quiet_updateActivity

theorem Sessions.quiet_endOutbound (s : Sessions) (tenant : String) :
  s.Quiet (s.endOutbound tenant)
  := by
  rw [endOutbound]
  split <;> exact .of_inner rfl rfl rfl rfl

theorem Sessions.quiet_drop (s : Sessions) (guard : Guard) (now : Nat) :
  s.Quiet (guard.drop now s)
  := by
  cases guard with
  | admission => exact .of_inner rfl rfl rfl rfl
  | tenantPin tenant => exact .of_inner rfl rfl rfl rfl
  | linkPin linkId => exact .of_inner rfl rfl rfl rfl
  | outboundOperation tenant =>
      cases tenant with
      | none => apply quiet_refl
      | some tenant => apply quiet_endOutbound
  | ownedOutboundOperation tenant =>
      cases tenant with
      | none => apply quiet_refl
      | some tenant => apply quiet_endOutbound
  | sessionLease address => apply quiet_updateActivity

theorem Sessions.quiet_takeHttp (s : Sessions) : s.Quiet s.takeHttp.2 where
  map := SessionMap.shrinks_filter _ _
  activities := rfl
  admission h := h
  commands _ := rfl
  http _ := by
    right
    intro row hrow
    apply (Table.mem_filter.mp hrow).2

theorem Sessions.quiet_remove (s : Sessions) (id : String) : s.Quiet (s.remove id).2 := by
  apply quiet_withMap
  apply SessionMap.shrinks_filter

theorem Sessions.quiet_updateControl
    (s : Sessions) (id : String) {f : PushControl → PushControl}
    (hf : ∀ control, (f control).fixed = control.fixed) :
  s.Quiet (s.updateControl id f)
  := by
  apply quiet_withMap
  apply s.shrinks_updateControl id hf

theorem Sessions.quiet_markActive (s : Sessions) (now : Nat) (id : String) :
  s.Quiet (s.markActive now id).2
  := by
  rw [markActive]
  split
  · apply quiet_refl
  · split
    · apply quiet_refl
    · apply quiet_updateActivity

theorem Sessions.quiet_seedResumed
    (s : Sessions) (id : String) (startedAt : Nat) (received : UInt64) :
  s.Quiet (s.seedResumed id startedAt received)
  := by
  rw [seedResumed]
  apply Quiet.trans _ (quiet_updateActivityOf _ _ _)
  apply quiet_withMap
  apply SessionMap.shrinks_modify
  intro _ _
  split <;> rfl

/-- An admission is refused and changes nothing, or a session enters. -/
theorem Sessions.insertAdmittedInner_enters
    (s : Sessions) (now : Nat) (admission : SessionAdmission) (sender : Nat)
    (usage : Except String (UInt64 × List RetainedReservation)) (reserved : Bool) :
  (∃ e, s.insertAdmittedInner now admission sender usage reserved = (.error e, s))
    ∨ ∃ s', s.insertAdmittedInner now admission sender usage reserved = (.ok (), s')
        ∧ s.Enters s' admission reserved
  := by
  rcases s.insertAdmittedInner_cases now admission sender usage reserved with h | h
  · exact Or.inl h
  · obtain ⟨received, hrefusal, _, he⟩ := h
    right
    use s.enter now admission sender, he, now, sender, received
    constructor
    · apply SessionsInner.admits_of_refusal hrefusal
    · rfl

/-- One operation admits no session, or one that passed every check. -/
theorem GuardedSessions.step_cases
    {w w' : GuardedSessions} {op : SessionsOp} (h : w.step op = some w') :
  w.sessions.Quiet w'.sessions
    ∨ w'.guards = w.guards ∧ ∃ admission reserved, op.admission? = some admission
        ∧ w.sessions.Enters w'.sessions admission reserved
        ∧ (reserved = true → Guard.admission ∈ w.guards)
  := by
  cases op with
  | tryAdmit => cases h; exact Or.inl w.sessions.quiet_tryAdmit
  | closeAdmission => cases h; exact Or.inl w.sessions.quiet_closeAdmission
  | tryPinTenant tenant => cases h; exact Or.inl (w.sessions.quiet_tryPinTenant tenant)
  | tryPinLink linkId => cases h; exact Or.inl (w.sessions.quiet_tryPinLink linkId)
  | tryBeginOutbound tenant =>
      cases h; exact Or.inl (w.sessions.quiet_tryBeginOutbound tenant)
  | tryBeginOutboundOwned tenant =>
      cases h; exact Or.inl (w.sessions.quiet_tryBeginOutboundOwned tenant)
  | takeHttp => cases h; exact Or.inl w.sessions.quiet_takeHttp
  | touch now id => cases h; exact Or.inl (w.sessions.quiet_touch now id)
  | pushLease id => cases h; exact Or.inl (w.sessions.quiet_pushLease id)
  | remove id => cases h; exact Or.inl (w.sessions.quiet_remove id)
  | sweep now idle =>
      cases h
      exact Or.inl (Sessions.quiet_withMap (w.sessions.shrinks_sweep now idle))
  | parkPush id =>
      cases h
      exact Or.inl (w.sessions.quiet_updateControl id PushControl.fixed_park)
  | connectPush id =>
      cases h
      exact Or.inl (w.sessions.quiet_updateControl id fun _ => rfl)
  | abortPush id =>
      cases h
      exact Or.inl (w.sessions.quiet_updateControl id fun _ => rfl)
  | cancelPushesForLink link =>
      cases h
      exact Or.inl (Sessions.quiet_withMap (w.sessions.shrinks_cancelPushesForLink link))
  | markActive now id => cases h; exact Or.inl (w.sessions.quiet_markActive now id)
  | setReceived id bytes => cases h; exact Or.inl (w.sessions.quiet_updateActivityOf id _)
  | seedResumed id startedAt received =>
      cases h
      exact Or.inl (w.sessions.quiet_seedResumed id startedAt received)
  | insertAdmitted now admission sender usage =>
      cases h
      rcases w.sessions.insertAdmittedInner_enters now admission sender usage false with h | h
      · obtain ⟨e, he⟩ := h
        left
        simp only [withSessions, Sessions.insertAdmitted, he]
        apply Sessions.quiet_refl
      · obtain ⟨s', he, henters⟩ := h
        right
        simp only [withSessions, Sessions.insertAdmitted, he]
        exact ⟨trivial, _, false, rfl, henters, fun h => by cases h⟩
  | insertResumed now id linkId tenant reservedBytes sender =>
      cases h
      rcases w.sessions.insertAdmittedInner_enters now
        (resumedAdmission id linkId tenant reservedBytes) sender (.ok (0, [])) false with h | h
      · obtain ⟨e, he⟩ := h
        left
        simp only [withSessions, Sessions.insertResumed, Sessions.insertAdmitted, he]
        apply Sessions.quiet_refl
      · obtain ⟨s', he, henters⟩ := h
        right
        simp only [withSessions, Sessions.insertResumed, Sessions.insertAdmitted, he]
        exact ⟨trivial, _, false, rfl, henters, fun h => by cases h⟩
  | insertAdmittedWithGuard now admission sender usage i =>
      rw [step] at h
      split at h
      · next hi =>
          cases h
          rcases w.sessions.insertAdmittedInner_enters now admission sender usage true
            with h | h
          · obtain ⟨e, he⟩ := h
            left
            simp only [admitWith, Sessions.insertAdmittedWithGuard, he]
            apply Sessions.quiet_drop
          · obtain ⟨s', he, henters⟩ := h
            right
            simp only [admitWith, Sessions.insertAdmittedWithGuard, he]
            exact ⟨trivial, _, true, rfl, henters, fun _ => List.mem_of_getElem? hi⟩
      · cases h
  | dropGuard now i =>
      obtain ⟨guard, _, rfl⟩ := Option.map_eq_some_iff.mp h
      exact Or.inl (w.sessions.quiet_drop guard now)

/-! ### The counters count the guards that are out -/

/-- No tenant is listed with zero outbound operations and the default tenant is not
pinned. -/
structure Sessions.Tidy (s : Sessions) : Prop where
  outbound : ∀ row ∈ s.inner.outbound.rows, 0 < row.2
  pinned : "" ∉ s.inner.pinned

/-- The registry and the guards that are out agree. -/
structure GuardedSessions.Sound (w : GuardedSessions) : Prop where
  counted : ∀ c, w.sessions.count c = w.held c
  addressed : w.sessions.Addressed
  tidy : w.sessions.Tidy
  noHttp : w.sessions.inner.commandsClosed = true →
    ∀ row ∈ w.sessions.inner.map.rows, row.2.kind ≠ .http

theorem GuardedSessions.sound_new : GuardedSessions.new.Sound where
  counted c := by cases c <;> rfl
  addressed _ hrow := by cases hrow
  tidy :=
    { outbound := by
        intro _ hrow
        cases hrow
      pinned := Finset.notMem_empty _ }
  noHttp _ _ hrow := by cases hrow

theorem Sessions.count_enter
    (s : Sessions) (now : Nat) (admission : SessionAdmission) (sender : Nat) (c : Counter) :
  (s.enter now admission sender).count c = s.count c
  := by
  cases c with
  | inFlight address =>
      simp only [count, enter, List.getElem?_append]
      split
      · rfl
      · next h =>
          rw [List.getElem?_eq_none (not_lt.mp h), List.getElem?_singleton]
          split <;> rfl
  | _ => rfl

theorem Sessions.count_updateActivity_same
    (s : Sessions) (address : Nat) {f : SessionActivity → SessionActivity}
    (hf : ∀ a, (f a).inFlight = a.inFlight) (c : Counter) :
  (s.updateActivity address f).count c = s.count c
  := by
  cases c with
  | inFlight address' =>
      simp only [count, updateActivity, List.getElem?_modify]
      cases s.activities[address']? with
      | none => simp
      | some a =>
          by_cases h : address = address'
          · simp [h, hf]
          · simp [h]
  | _ => rfl

theorem Sessions.count_updateActivityOf
    (s : Sessions) (id : String) {f : SessionActivity → SessionActivity}
    (hf : ∀ a, (f a).inFlight = a.inFlight) (c : Counter) :
  (s.updateActivityOf id f).count c = s.count c
  := by
  rw [updateActivityOf]
  split
  · rfl
  · apply s.count_updateActivity_same _ hf

theorem Sessions.count_markActive (s : Sessions) (now : Nat) (id : String) (c : Counter) :
  (s.markActive now id).2.count c = s.count c
  := by
  rw [markActive]
  split
  · rfl
  · split
    · rfl
    · apply s.count_updateActivity_same
      intro _
      rfl

theorem Sessions.count_seedResumed
    (s : Sessions) (id : String) (startedAt : Nat) (received : UInt64) (c : Counter) :
  (s.seedResumed id startedAt received).count c = s.count c
  := by
  rw [seedResumed, count_updateActivityOf]
  · cases c <;> rfl
  · intro _
    rfl

theorem Sessions.count_insertAdmittedInner
    (s : Sessions) (now : Nat) (admission : SessionAdmission) (sender : Nat)
    (usage : Except String (UInt64 × List RetainedReservation)) (reserved : Bool)
    (c : Counter) :
  (s.insertAdmittedInner now admission sender usage reserved).2.count c = s.count c
  := by
  rcases s.insertAdmittedInner_cases now admission sender usage reserved with h | h
  · obtain ⟨e, he⟩ := h
    rw [he]
  · obtain ⟨_, _, _, he⟩ := h
    rw [he]
    apply s.count_enter

theorem GuardedSessions.counted_take
    {w : GuardedSessions} (hw : ∀ c, w.sessions.count c = w.held c)
    {r : Option Guard × Sessions} (hr : w.sessions.Counts r) (c : Counter) :
  (w.take r).sessions.count c = (w.take r).held c
  := by
  rw [held, take, hr c, hw, List.countP_append, held]
  cases r.1 with
  | none => simp
  | some guard =>
      simp only [Option.map_some, Option.getD_some, Option.toList_some, List.countP_cons,
        List.countP_nil, Guard.unit]
      grind

/-- Taking a guard out of the list takes one from what its counter should have. -/
theorem GuardedSessions.held_eraseIdx
    (w : GuardedSessions) {i : Nat} {guard : Guard} (h : w.guards[i]? = some guard)
    (s : Sessions) (c : Counter) :
  GuardedSessions.held ⟨s, w.guards.eraseIdx i⟩ c + guard.unit c = w.held c
  := by
  obtain ⟨hi, rfl⟩ := List.getElem?_eq_some_iff.mp h
  rw [held, held, ← (List.getElem_cons_eraseIdx_perm hi).countP_eq, List.countP_cons,
    Guard.unit]
  grind

/-- The counter of a guard that is out is not zero. -/
theorem GuardedSessions.held_pos
    (w : GuardedSessions) {guard : Guard} (h : guard ∈ w.guards) {c : Counter}
    (hc : guard.counter = some c) :
  0 < w.held c
  := by
  rw [held, List.countP_pos_iff]
  use guard, h
  rw [decide_eq_true_iff]
  exact hc

theorem GuardedSessions.lease_lt
    {w : GuardedSessions} (hw : ∀ c, w.sessions.count c = w.held c) {a : Nat}
    (h : Guard.sessionLease a ∈ w.guards) :
  a < w.sessions.activities.length
  := by
  have hpos := w.held_pos h rfl
  rw [← hw, Sessions.count] at hpos
  by_contra hge
  rw [List.getElem?_eq_none (not_lt.mp hge)] at hpos
  apply Nat.lt_irrefl 0 hpos

theorem GuardedSessions.counted_drop
    {w : GuardedSessions} (hw : ∀ c, w.sessions.count c = w.held c)
    {i : Nat} {guard : Guard} (h : w.guards[i]? = some guard) (now : Nat) (c : Counter) :
  (guard.drop now w.sessions).count c
    = GuardedSessions.held ⟨guard.drop now w.sessions, w.guards.eraseIdx i⟩ c
  := by
  rw [Sessions.count_drop, hw]
  · have := w.held_eraseIdx h (guard.drop now w.sessions) c
    omega
  · rintro a rfl
    apply lease_lt hw (List.mem_of_getElem? h)

/-- Every operation keeps the counters equal to the number of guards that are out. -/
theorem GuardedSessions.counted_step
    {w w' : GuardedSessions} (hw : ∀ c, w.sessions.count c = w.held c)
    (haddressed : w.sessions.Addressed) {op : SessionsOp} (h : w.step op = some w')
    (c : Counter) :
  w'.sessions.count c = w'.held c
  := by
  cases op with
  | tryAdmit => cases h; exact counted_take hw w.sessions.counts_tryAdmit c
  | tryPinTenant tenant =>
      cases h; exact counted_take hw (w.sessions.counts_tryPinTenant tenant) c
  | tryPinLink linkId =>
      cases h; exact counted_take hw (w.sessions.counts_tryPinLink linkId) c
  | tryBeginOutbound tenant =>
      cases h; exact counted_take hw (w.sessions.counts_tryBeginOutbound tenant) c
  | tryBeginOutboundOwned tenant =>
      cases h; exact counted_take hw (w.sessions.counts_tryBeginOutboundOwned tenant) c
  | touch now id => cases h; exact counted_take hw (Sessions.counts_touch haddressed now id) c
  | pushLease id => cases h; exact counted_take hw (Sessions.counts_pushLease haddressed id) c
  | markActive now id =>
      cases h; exact (w.sessions.count_markActive now id c).trans (hw c)
  | setReceived id bytes =>
      cases h
      exact (w.sessions.count_updateActivityOf id
        (f := fun a => { a with received := max a.received bytes }) (fun _ => rfl) c).trans (hw c)
  | seedResumed id startedAt received =>
      cases h; exact (w.sessions.count_seedResumed id startedAt received c).trans (hw c)
  | insertAdmitted now admission sender usage =>
      cases h
      exact (w.sessions.count_insertAdmittedInner now admission sender usage false c).trans
        (hw c)
  | insertResumed now id linkId tenant reservedBytes sender =>
      cases h
      exact (w.sessions.count_insertAdmittedInner now
        (resumedAdmission id linkId tenant reservedBytes) sender (.ok (0, [])) false c).trans
        (hw c)
  | insertAdmittedWithGuard now admission sender usage i =>
      rw [step] at h
      split at h
      · next hi =>
          cases h
          rcases w.sessions.insertAdmittedInner_enters now admission sender usage true
            with h | h
          · obtain ⟨e, he⟩ := h
            simp only [admitWith, Sessions.insertAdmittedWithGuard, he]
            apply counted_drop hw hi
          · obtain ⟨s', he, now', sender', received, _, rfl⟩ := h
            simp only [admitWith, Sessions.insertAdmittedWithGuard, he]
            exact (w.sessions.count_enter now' admission sender' c).trans (hw c)
      · cases h
  | dropGuard now i =>
      obtain ⟨guard, hi, rfl⟩ := Option.map_eq_some_iff.mp h
      apply counted_drop hw hi
  | _ => cases h; exact Eq.trans (by cases c <;> rfl) (hw c)

theorem Sessions.Tidy.of_eq
    {s s' : Sessions} (hs : s.Tidy) (houtbound : s'.inner.outbound = s.inner.outbound)
    (hpinned : s'.inner.pinned = s.inner.pinned) :
  s'.Tidy
  where
    outbound := by rw [houtbound]; exact hs.outbound
    pinned := by rw [hpinned]; exact hs.pinned

theorem Sessions.tidy_upsert
    {s : Sessions} (hs : s.Tidy) (tenant : String) {n : Nat} (hn : 0 < n) :
  Sessions.Tidy
    { s with inner := { s.inner with outbound := s.inner.outbound.upsert (tenant, n) } }
  where
    outbound := by
      intro row hrow
      rcases Table.mem_upsert.mp hrow with rfl | ⟨hrow, _⟩
      · apply hn
      · apply hs.outbound row hrow
    pinned := hs.pinned

theorem Sessions.tidy_endOutbound {s : Sessions} (hs : s.Tidy) (tenant : String) :
  (s.endOutbound tenant).Tidy
  := by
  rw [endOutbound]
  split
  · apply hs
  · split
    · constructor
      · intro row hrow
        apply hs.outbound row (Table.mem_erase.mp hrow).1
      · apply hs.pinned
    · apply tidy_upsert hs
      omega

theorem Sessions.tidy_drop {s : Sessions} (hs : s.Tidy) (guard : Guard) (now : Nat) :
  (guard.drop now s).Tidy
  := by
  cases guard with
  | tenantPin tenant =>
      constructor
      · apply hs.outbound
      · exact fun h => hs.pinned (Finset.mem_of_mem_erase h)
  | outboundOperation tenant =>
      cases tenant with
      | none => apply hs
      | some tenant => apply tidy_endOutbound hs
  | ownedOutboundOperation tenant =>
      cases tenant with
      | none => apply hs
      | some tenant => apply tidy_endOutbound hs
  | _ => exact hs.of_eq rfl rfl

theorem Sessions.tidy_insertAdmittedInner
    {s : Sessions} (hs : s.Tidy) (now : Nat) (admission : SessionAdmission) (sender : Nat)
    (usage : Except String (UInt64 × List RetainedReservation)) (reserved : Bool) :
  (s.insertAdmittedInner now admission sender usage reserved).2.Tidy
  := by
  rcases s.insertAdmittedInner_cases now admission sender usage reserved with h | h
  · obtain ⟨e, he⟩ := h
    rw [he]
    exact hs
  · obtain ⟨_, _, _, he⟩ := h
    rw [he]
    exact hs.of_eq rfl rfl

theorem Sessions.tidy_tryPinTenant {s : Sessions} (hs : s.Tidy) (tenant : String) :
  (s.tryPinTenant tenant).2.Tidy
  := by
  rw [tryPinTenant]
  split
  · apply hs
  · next hne =>
      split
      · apply hs
      · constructor
        · apply hs.outbound
        · intro h
          rcases Finset.mem_insert.mp h with h | h
          · apply hne h.symm
          · apply hs.pinned h

theorem GuardedSessions.tidy_step
    {w w' : GuardedSessions} (hw : w.sessions.Tidy) {op : SessionsOp}
    (h : w.step op = some w') :
  w'.sessions.Tidy
  := by
  have hbegin : ∀ tenant, (w.sessions.beginOutbound tenant).Tidy := by
    intro tenant
    apply Sessions.tidy_upsert hw
    apply Nat.succ_pos
  cases op with
  | tryBeginOutbound tenant =>
      cases h
      simp only [take, Sessions.tryBeginOutbound]
      split
      · apply hw
      · split
        · apply hw
        · apply hbegin
  | tryBeginOutboundOwned tenant =>
      cases h
      simp only [take, Sessions.tryBeginOutboundOwned]
      split
      · apply hw
      · split
        · apply hw
        · apply hbegin
  | tryAdmit =>
      cases h
      simp only [take, Sessions.tryAdmit]
      split <;> exact hw.of_eq rfl rfl
  | tryPinTenant tenant => cases h; exact Sessions.tidy_tryPinTenant hw tenant
  | tryPinLink linkId =>
      cases h
      simp only [take, Sessions.tryPinLink]
      split <;> exact hw.of_eq rfl rfl
  | touch now id =>
      cases h
      simp only [take, Sessions.touch]
      split
      · apply hw
      · split <;> exact hw.of_eq rfl rfl
  | pushLease id =>
      cases h
      simp only [take, Sessions.pushLease]
      split
      · apply hw
      · split <;> exact hw.of_eq rfl rfl
  | markActive now id =>
      cases h
      apply hw.of_eq <;> rw [withSessions, Sessions.inner_markActive]
  | setReceived id bytes =>
      cases h
      apply hw.of_eq <;> rw [withSessions, Sessions.setReceived, Sessions.inner_updateActivityOf]
  | seedResumed id startedAt received =>
      cases h
      apply hw.of_eq
        <;> rw [withSessions, Sessions.seedResumed, Sessions.inner_updateActivityOf]
        <;> rfl
  | insertAdmitted now admission sender usage =>
      cases h
      exact Sessions.tidy_insertAdmittedInner hw now admission sender usage false
  | insertResumed now id linkId tenant reservedBytes sender =>
      cases h
      exact Sessions.tidy_insertAdmittedInner hw now
        (resumedAdmission id linkId tenant reservedBytes) sender (.ok (0, [])) false
  | insertAdmittedWithGuard now admission sender usage i =>
      rw [step] at h
      split at h
      · cases h
        rcases w.sessions.insertAdmittedInner_enters now admission sender usage true
          with h | h
        · obtain ⟨e, he⟩ := h
          simp only [admitWith, Sessions.insertAdmittedWithGuard, he]
          apply Sessions.tidy_drop hw
        · obtain ⟨s', he, _, _, _, _, rfl⟩ := h
          simp only [admitWith, Sessions.insertAdmittedWithGuard, he]
          exact hw.of_eq rfl rfl
      · cases h
  | dropGuard now i =>
      obtain ⟨guard, _, rfl⟩ := Option.map_eq_some_iff.mp h
      apply Sessions.tidy_drop hw
  | _ => cases h; exact hw.of_eq rfl rfl

theorem SessionMap.Shrinks.addressed
    {m m' : SessionMap} (h : m.Shrinks m') {n : Nat}
    (hm : ∀ row ∈ m.rows, row.2.activity < n) :
  ∀ row ∈ m'.rows, row.2.activity < n
  := by
  intro row hrow
  obtain ⟨row₀, hrow₀, he⟩ := h.mem hrow
  have : row₀.2.activity = row.2.activity := congrArg (fun row => row.2.activity) he
  rw [← this]
  apply hm row₀ hrow₀

theorem SessionMap.Shrinks.noHttp
    {m m' : SessionMap} (h : m.Shrinks m') (hm : ∀ row ∈ m.rows, row.2.kind ≠ .http) :
  ∀ row ∈ m'.rows, row.2.kind ≠ .http
  := by
  intro row hrow hhttp
  obtain ⟨row₀, hrow₀, he⟩ := h.mem hrow
  have hkind : row₀.2.kind.fixed = row.2.kind.fixed := congrArg (fun row => row.2.kind) he
  apply hm row₀ hrow₀
  rw [← SessionKind.fixed_eq_http, hkind, hhttp]
  rfl

/-- The sessions after an admission: the new one and some of the earlier ones. -/
theorem Sessions.mem_enter
    {s : Sessions} {now : Nat} {admission : SessionAdmission} {sender : Nat}
    {row : String × SessionHandle}
    (h : row ∈ (s.enter now admission sender).inner.map.rows) :
  row = (admission.id, admission.handle sender now s.activities.length)
    ∨ row ∈ s.inner.map.rows
  := by
  rw [map_enter, Table.mem_upsert] at h
  rcases h with h | ⟨h, _⟩
  · exact Or.inl h
  · right
    rw [SessionsInner.rest] at h
    split at h
    · exact h
    · exact (Table.mem_erase.mp h).1

/-- Every operation keeps the registry and the guards in agreement. -/
theorem GuardedSessions.sound_step
    (w : GuardedSessions) (op : SessionsOp) (w' : GuardedSessions) (hw : w.Sound)
    (h : w.step op = some w') :
  w'.Sound
  where
    counted := counted_step hw.counted hw.addressed h
    addressed := by
      rcases step_cases h with hquiet | ⟨_, admission, _, _, ⟨now, sender, _, _, he⟩, _⟩
      · intro row hrow
        rw [hquiet.activities]
        apply hquiet.map.addressed hw.addressed row hrow
      · rw [he]
        intro row hrow
        simp only [Sessions.enter, List.length_append, List.length_singleton]
        rcases Sessions.mem_enter hrow with rfl | hrow
        · apply Nat.lt_succ_self
        · apply Nat.lt_succ_of_lt (hw.addressed row hrow)
    tidy := tidy_step hw.tidy h
    noHttp := by
      intro hclosed
      rcases step_cases h with hquiet | ⟨_, admission, _, _, ⟨now, sender, _, hadmits, he⟩, _⟩
      · rcases hquiet.http hclosed with hc | hno
        · apply hquiet.map.noHttp (hw.noHttp hc)
        · apply hno
      · rw [he] at hclosed
        have : w.sessions.inner.commandsClosed = true := hclosed
        rw [hadmits.commands] at this
        cases this

theorem GuardedSessions.sound_run
    {ops : List SessionsOp} {w : GuardedSessions}
    (h : Runs.run GuardedSessions.step .new ops = some w) :
  w.Sound
  := Runs.run_invariant sound_step sound_new h

/-! ### What the guards exclude -/

theorem Sessions.insertAdmittedInner_refused
    {s : Sessions} {admission : SessionAdmission} {reserved : Bool}
    (h : ∀ received, ¬ s.inner.Admits admission received reserved) (now sender : Nat)
    (usage : Except String (UInt64 × List RetainedReservation)) :
  ∃ e, s.insertAdmittedInner now admission sender usage reserved = (.error e, s)
  := by
  rcases s.insertAdmittedInner_cases now admission sender usage reserved with hr | hr
  · exact hr
  · obtain ⟨received, hrefusal, _⟩ := hr
    exact absurd (SessionsInner.admits_of_refusal hrefusal) (h received)

/-- No session of a pinned tenant is admitted, with or without a guard. -/
theorem Sessions.insertAdmittedInner_of_pinned
    {s : Sessions} (hs : s.Tidy) {admission : SessionAdmission}
    (h : admission.tenant ∈ s.inner.pinned) (now sender : Nat)
    (usage : Except String (UInt64 × List RetainedReservation)) (reserved : Bool) :
  ∃ e, s.insertAdmittedInner now admission sender usage reserved = (.error e, s)
  := by
  apply insertAdmittedInner_refused
  intro received hadmits
  apply hadmits.tenant _ h
  intro he
  apply hs.pinned
  rw [← he]
  exact h

theorem Sessions.tryBeginOutbound_of_pinned
    {s : Sessions} (hs : s.Tidy) {tenant : String} (h : tenant ∈ s.inner.pinned) :
  s.tryBeginOutbound tenant = (none, s) ∧ s.tryBeginOutboundOwned tenant = (none, s)
  := by
  have hne : tenant ≠ "" := by
    rintro rfl
    apply hs.pinned h
  rw [tryBeginOutbound, tryBeginOutboundOwned, if_neg hne, if_neg hne, if_pos h, if_pos h]
  exact ⟨rfl, rfl⟩

/-- A tenant is pinned while a pin of it is out. -/
theorem GuardedSessions.mem_pinned_iff
    {w : GuardedSessions} (hw : ∀ c, w.sessions.count c = w.held c) (tenant : String) :
  tenant ∈ w.sessions.inner.pinned ↔ Guard.tenantPin tenant ∈ w.guards
  := by
  have hc := hw (.tenantPin tenant)
  constructor
  · intro h
    have hpos : 0 < w.held (.tenantPin tenant) := by
      rw [← hc, Sessions.count, if_pos h]
      apply Nat.one_pos
    obtain ⟨guard, hguard, hcounter⟩ := List.countP_pos_iff.mp hpos
    cases guard <;> simp_all [Guard.counter]
  · intro h
    have hpos := w.held_pos h rfl
    rw [← hc, Sessions.count] at hpos
    by_contra hno
    rw [if_neg hno] at hpos
    apply Nat.lt_irrefl 0 hpos

theorem Sessions.tryPinTenant_granted (s : Sessions) (tenant : String) :
  (s.tryPinTenant tenant).1 = some (.tenantPin tenant)
    ↔ tenant ≠ "" ∧ tenant ∉ s.inner.pinned
  := by
  rw [tryPinTenant]
  split
  · simp_all
  · split <;> simp_all

/-- What the registry has found when it gives a guard. -/
def Sessions.Gives (s : Sessions) : Guard → Prop
  | .admission => s.inner.admissionClosed = false
  | .tenantPin tenant => tenant ≠ "" ∧ tenant ∉ s.inner.pinned
  | .linkPin linkId => linkId ∉ s.inner.pinnedLinks
  | .outboundOperation tenant => ∀ t, tenant = some t → t ∉ s.inner.pinned
  | .ownedOutboundOperation tenant => ∀ t, tenant = some t → t ∉ s.inner.pinned
  | .sessionLease address => ∃ row ∈ s.inner.map.rows, row.2.activity = address

theorem Sessions.gives_tryAdmit {s : Sessions} {guard : Guard} (h : s.tryAdmit.1 = some guard) :
  s.Gives guard
  := by
  rw [tryAdmit] at h
  split at h
  · cases h
  · next hopen =>
      cases h
      simpa [Gives] using hopen

theorem Sessions.gives_tryPinTenant
    {s : Sessions} {tenant : String} {guard : Guard}
    (h : (s.tryPinTenant tenant).1 = some guard) :
  s.Gives guard
  := by
  rw [tryPinTenant] at h
  split at h
  · cases h
  · split at h
    · cases h
    · cases h
      constructor <;> assumption

theorem Sessions.gives_tryPinLink
    {s : Sessions} {linkId : String} {guard : Guard}
    (h : (s.tryPinLink linkId).1 = some guard) :
  s.Gives guard
  := by
  rw [tryPinLink] at h
  split at h
  · cases h
  · cases h
    assumption

theorem Sessions.gives_tryBeginOutbound
    {s : Sessions} {tenant : String} {guard : Guard}
    (h : (s.tryBeginOutbound tenant).1 = some guard) :
  s.Gives guard
  := by
  rw [tryBeginOutbound] at h
  split at h
  · cases h
    intro t ht
    cases ht
  · split at h
    · cases h
    · cases h
      intro t ht
      cases ht
      assumption

theorem Sessions.gives_tryBeginOutboundOwned
    {s : Sessions} {tenant : String} {guard : Guard}
    (h : (s.tryBeginOutboundOwned tenant).1 = some guard) :
  s.Gives guard
  := by
  rw [tryBeginOutboundOwned] at h
  split at h
  · cases h
    intro t ht
    cases ht
  · split at h
    · cases h
    · cases h
      intro t ht
      cases ht
      assumption

theorem Sessions.gives_pushLease
    {s : Sessions} {id : String} {guard : Guard} (h : (s.pushLease id).1 = some guard) :
  s.Gives guard
  := by
  rw [pushLease] at h
  split at h
  · cases h
  · next id' handle heq =>
      split at h
      · cases h
      · cases h
        use (id', handle), (Table.find?_eq_some.mp heq).1

theorem Sessions.gives_touch
    {s : Sessions} {now : Nat} {id : String} {guard : Guard}
    (h : (s.touch now id).1.toOption.map Prod.snd = some guard) :
  s.Gives guard
  := by
  rw [touch] at h
  split at h
  · cases h
  · next id' handle heq =>
      split at h
      · cases h
      · cases h
        use (id', handle), (Table.find?_eq_some.mp heq).1

theorem GuardedSessions.take_guards
    (w : GuardedSessions) {r : Option Guard × Sessions}
    (hr : ∀ guard, r.1 = some guard → w.sessions.Gives guard) :
  (w.take r).guards.Sublist w.guards
    ∨ ∃ guard, (w.take r).guards = guard :: w.guards ∧ w.sessions.Gives guard
  := by
  rw [take]
  cases h : r.1 with
  | none => exact Or.inl (List.Sublist.refl _)
  | some guard => exact Or.inr ⟨guard, rfl, hr guard h⟩

/-- An operation gives at most one guard, and only after the checks for it. -/
theorem GuardedSessions.step_guards
    {w w' : GuardedSessions} {op : SessionsOp} (h : w.step op = some w') :
  w'.guards.Sublist w.guards
    ∨ ∃ guard, w'.guards = guard :: w.guards ∧ w.sessions.Gives guard
  := by
  cases op with
  | tryAdmit => cases h; exact w.take_guards fun _ => Sessions.gives_tryAdmit
  | tryPinTenant tenant => cases h; exact w.take_guards fun _ => Sessions.gives_tryPinTenant
  | tryPinLink linkId => cases h; exact w.take_guards fun _ => Sessions.gives_tryPinLink
  | tryBeginOutbound tenant =>
      cases h; exact w.take_guards fun _ => Sessions.gives_tryBeginOutbound
  | tryBeginOutboundOwned tenant =>
      cases h; exact w.take_guards fun _ => Sessions.gives_tryBeginOutboundOwned
  | touch now id => cases h; exact w.take_guards fun _ => Sessions.gives_touch
  | pushLease id => cases h; exact w.take_guards fun _ => Sessions.gives_pushLease
  | insertAdmittedWithGuard now admission sender usage i =>
      rw [step] at h
      split at h
      · cases h
        left
        rw [admitWith]
        split
        · apply List.Sublist.refl
        · apply List.eraseIdx_sublist
      · cases h
  | dropGuard now i =>
      obtain ⟨guard, _, rfl⟩ := Option.map_eq_some_iff.mp h
      exact Or.inl (List.eraseIdx_sublist _ _)
  | _ => cases h; exact Or.inl (List.Sublist.refl _)

/-- A counter that no guard given now would be counted by does not go up. -/
theorem GuardedSessions.count_step_le
    {w w' : GuardedSessions} (hw : w.Sound) {op : SessionsOp} (h : w.step op = some w')
    {c : Counter} (hc : ∀ guard, w.sessions.Gives guard → guard.counter ≠ some c) :
  w'.sessions.count c ≤ w.sessions.count c
  := by
  rw [hw.counted, (sound_step w op w' hw h).counted, held, held]
  rcases step_guards h with hsub | ⟨guard, hguards, hgives⟩
  · apply hsub.countP_le
  · rw [hguards, List.countP_cons_of_neg (by simpa using hc guard hgives)]

/-- The sessions of a tenant do not become more by an admission of another tenant. -/
theorem Sessions.activeForTenant_enter
    (s : Sessions) (now : Nat) (admission : SessionAdmission) (sender : Nat) {tenant : String}
    (h : admission.tenant ≠ tenant) :
  (s.enter now admission sender).activeForTenant tenant ≤ s.activeForTenant tenant
  := by
  have hnew : (admission.handle sender now s.activities.length).tenant ≠ tenant := h
  rw [activeForTenant, map_enter, Table.rows_upsert,
    List.countP_cons_of_neg (by simpa using hnew)]
  apply le_trans (List.Sublist.countP_le List.filter_sublist)
  apply (s.inner.shrinks_rest admission.kind).countP_le (p := (·.tenant = tenant))
  intro _
  rfl

/-- A step taken while a tenant is pinned starts nothing for it. -/
theorem GuardedSessions.drains_step
    {tenant : String} (w : GuardedSessions) (op : SessionsOp) (w' : GuardedSessions)
    (hpinned : tenant ∈ w.sessions.inner.pinned) (hw : w.Sound) (h : w.step op = some w') :
  w'.sessions.activeForTenant tenant ≤ w.sessions.activeForTenant tenant
    ∧ w'.sessions.activeOutboundForTenant tenant ≤ w.sessions.activeOutboundForTenant tenant
  := by
  constructor
  · rcases step_cases h with hquiet | ⟨_, admission, _, _, ⟨now, sender, _, hadmits, he⟩, _⟩
    · apply hquiet.map.countP_le (p := (·.tenant = tenant))
      intro _
      rfl
    · rw [he]
      apply Sessions.activeForTenant_enter
      rintro rfl
      apply hadmits.tenant _ hpinned
      intro he
      apply hw.tidy.pinned
      rw [← he]
      exact hpinned
  · apply count_step_le hw h (c := .outbound tenant)
    intro guard hgives hcounter
    cases guard with
    | outboundOperation t =>
        obtain ⟨t, rfl, ht⟩ := Option.map_eq_some_iff.mp hcounter
        cases ht
        apply hgives tenant rfl hpinned
    | ownedOutboundOperation t =>
        obtain ⟨t, rfl, ht⟩ := Option.map_eq_some_iff.mp hcounter
        cases ht
        apply hgives tenant rfl hpinned
    | _ => simp [Guard.counter] at hcounter

/-- Closing admission lasts, and no admission is won after it. -/
theorem GuardedSessions.closed_step
    (w : GuardedSessions) (op : SessionsOp) (w' : GuardedSessions) (hw : w.Sound)
    (h : w.step op = some w') :
  (w.sessions.inner.commandsClosed = true → w'.sessions.inner.commandsClosed = true)
    ∧ (w.sessions.inner.admissionClosed = true →
        w'.sessions.inner.admissionClosed = true
          ∧ w'.sessions.count .admissions ≤ w.sessions.count .admissions)
  := by
  constructor
  · intro hclosed
    rcases step_cases h with hquiet | ⟨_, _, _, _, ⟨_, _, _, hadmits, he⟩, _⟩
    · apply hquiet.commands hclosed
    · rw [he]
      exact hclosed
  · intro hclosed
    constructor
    · rcases step_cases h with hquiet | ⟨_, _, _, _, ⟨_, _, _, hadmits, he⟩, _⟩
      · apply hquiet.admission hclosed
      · rw [he]
        exact hclosed
    · apply count_step_le hw h
      intro guard hgives hcounter
      cases guard with
      | admission =>
          rw [Sessions.Gives, hclosed] at hgives
          cases hgives
      | outboundOperation t => cases t <;> simp [Guard.counter] at hcounter
      | ownedOutboundOperation t => cases t <;> simp [Guard.counter] at hcounter
      | _ => simp [Guard.counter] at hcounter

theorem GuardedSessions.closed_run
    {w w' : GuardedSessions} (hw : w.Sound) {ops : List SessionsOp}
    (h : Runs.run GuardedSessions.step w ops = some w') :
  (w.sessions.inner.commandsClosed = true → w'.sessions.inner.commandsClosed = true)
    ∧ (w.sessions.inner.admissionClosed = true →
        w'.sessions.inner.admissionClosed = true
          ∧ w'.sessions.count .admissions ≤ w.sessions.count .admissions)
  := by
  apply Runs.run_le sound_step _ _ closed_step hw h
  · intro _
    exact ⟨id, fun hclosed => ⟨hclosed, le_rfl⟩⟩
  · intro _ _ _ h h'
    constructor
    · exact fun hclosed => h'.1 (h.1 hclosed)
    · intro hclosed
      obtain ⟨hclosed, hle⟩ := h.2 hclosed
      obtain ⟨hclosed, hle'⟩ := h'.2 hclosed
      exact ⟨hclosed, hle'.trans hle⟩

/-- With no HTTP session there is no session to send a command to. -/
theorem Sessions.touch_refused
    {s : Sessions} (hs : ∀ row ∈ s.inner.map.rows, row.2.kind ≠ .http) (now : Nat)
    (id : String) :
  ∃ e, s.touch now id = (.error e, s)
  := by
  rw [touch]
  split
  · exact ⟨_, rfl⟩
  · next heq =>
      split
      · exact ⟨_, rfl⟩
      · next hkind => exact absurd hkind (hs _ (Table.find?_eq_some.mp heq).1)

/-- What the guards promise in a state: the counters count them, pins exclude new work,
and what was closed stays closed. -/
structure GuardedSessions.Honoured (w : GuardedSessions) : Prop where
  counters : ∀ c, w.sessions.count c = w.held c
  noUnderflow : ∀ guard ∈ w.guards, ∀ c, guard.counter = some c → 0 < w.sessions.count c
  released : w.guards = [] →
    w.sessions.inner.activeAdmissions = 0 ∧ w.sessions.inner.outbound.rows = []
      ∧ w.sessions.inner.pinned = ∅ ∧ w.sessions.inner.pinnedLinks = ∅
      ∧ ∀ activity ∈ w.sessions.activities, activity.inFlight = 0
  pinned : ∀ tenant,
    tenant ∈ w.sessions.inner.pinned ↔ Guard.tenantPin tenant ∈ w.guards
  pinGranted : ∀ tenant,
    (w.sessions.tryPinTenant tenant).1 = some (.tenantPin tenant)
      ↔ tenant ≠ "" ∧ Guard.tenantPin tenant ∉ w.guards
  pinnedSession : ∀ now admission sender usage reserved,
    Guard.tenantPin admission.tenant ∈ w.guards →
      ∃ e, w.sessions.insertAdmittedInner now admission sender usage reserved
        = (.error e, w.sessions)
  pinnedOutbound : ∀ tenant, Guard.tenantPin tenant ∈ w.guards →
    w.sessions.tryBeginOutbound tenant = (none, w.sessions)
      ∧ w.sessions.tryBeginOutboundOwned tenant = (none, w.sessions)
  pinDrains : ∀ tenant ops w',
    Runs.Along GuardedSessions.step (fun u _ => Guard.tenantPin tenant ∈ u.guards) w ops →
    Runs.run GuardedSessions.step w ops = some w' →
      w'.sessions.activeForTenant tenant ≤ w.sessions.activeForTenant tenant
        ∧ w'.sessions.activeOutboundForTenant tenant
          ≤ w.sessions.activeOutboundForTenant tenant
  admissionClosed : w.sessions.inner.admissionClosed = true → ∀ ops w',
    Runs.run GuardedSessions.step w ops = some w' →
      w'.sessions.tryAdmit = (none, w'.sessions)
        ∧ w'.held .admissions ≤ w.held .admissions
        ∧ ∀ now admission sender usage, ∃ e,
          w'.sessions.insertAdmitted now admission sender usage = (.error e, w'.sessions)
  commandsClosed : w.sessions.inner.commandsClosed = true → ∀ ops w',
    Runs.run GuardedSessions.step w ops = some w' →
      (∀ now id, ∃ e, w'.sessions.touch now id = (.error e, w'.sessions))
        ∧ ∀ now admission sender usage reserved, ∃ e,
          w'.sessions.insertAdmittedInner now admission sender usage reserved
            = (.error e, w'.sessions)

theorem GuardedSessions.released_of_sound
    {w : GuardedSessions} (hw : w.Sound) (h : w.guards = []) :
  w.sessions.inner.activeAdmissions = 0 ∧ w.sessions.inner.outbound.rows = []
    ∧ w.sessions.inner.pinned = ∅ ∧ w.sessions.inner.pinnedLinks = ∅
    ∧ ∀ activity ∈ w.sessions.activities, activity.inFlight = 0
  := by
  have hzero : ∀ c, w.sessions.count c = 0 := by
    intro c
    rw [hw.counted, held, h]
    rfl
  constructor
  · exact hzero .admissions
  constructor
  · rw [List.eq_nil_iff_forall_not_mem]
    intro row hrow
    have hcount := hzero (.outbound row.1)
    rw [Sessions.count, Sessions.activeOutboundForTenant, Table.find?_key hrow] at hcount
    have hpos := hw.tidy.outbound row hrow
    simp only [Option.map_some, Option.getD_some] at hcount
    omega
  constructor
  · rw [Finset.eq_empty_iff_forall_notMem]
    intro tenant htenant
    have hcount := hzero (.tenantPin tenant)
    rw [Sessions.count, if_pos htenant] at hcount
    cases hcount
  constructor
  · rw [Finset.eq_empty_iff_forall_notMem]
    intro linkId hlinkId
    have hcount := hzero (.linkPin linkId)
    rw [Sessions.count, if_pos hlinkId] at hcount
    cases hcount
  · intro activity hactivity
    obtain ⟨address, haddress⟩ := List.getElem?_of_mem hactivity
    have hcount := hzero (.inFlight address)
    rw [Sessions.count, haddress] at hcount
    exact hcount

/-- In every state that any sequence of requests, drops and registry operations reaches,
the guards that are out are honoured. -/
theorem guards_honoured
    {ops : List SessionsOp} {w : GuardedSessions}
    (h : Runs.run GuardedSessions.step .new ops = some w) :
  w.Honoured
  := by
  have hw := GuardedSessions.sound_run h
  have hpinned := GuardedSessions.mem_pinned_iff hw.counted
  constructor
  · apply hw.counted
  · intro guard hguard c hc
    rw [hw.counted]
    apply w.held_pos hguard hc
  · apply GuardedSessions.released_of_sound hw
  · apply hpinned
  · intro tenant
    rw [Sessions.tryPinTenant_granted, hpinned]
  · intro now admission sender usage reserved hpin
    apply Sessions.insertAdmittedInner_of_pinned hw.tidy
    rw [hpinned]
    exact hpin
  · intro tenant hpin
    apply Sessions.tryBeginOutbound_of_pinned hw.tidy
    rw [hpinned]
    exact hpin
  · intro tenant ops w' halong hrun
    apply Runs.run_le_along (I := GuardedSessions.Sound) GuardedSessions.sound_step
      (fun _ => ⟨le_rfl, le_rfl⟩) (fun _ _ _ h h' => ⟨h'.1.trans h.1, h'.2.trans h.2⟩) _
      halong hw hrun
    intro u op u' hpin hu
    apply GuardedSessions.drains_step u op u' _ hu
    rw [GuardedSessions.mem_pinned_iff hu.counted]
    exact hpin
  · intro hclosed ops w' hrun
    have hw' := Runs.run_invariant GuardedSessions.sound_step hw hrun
    obtain ⟨hclosed', hle⟩ := (GuardedSessions.closed_run hw hrun).2 hclosed
    constructor
    · rw [Sessions.tryAdmit, if_pos hclosed']
    · constructor
      · rw [← hw.counted, ← hw'.counted]
        exact hle
      · intro now admission sender usage
        apply Sessions.insertAdmittedInner_refused
        intro received hadmits
        have := hadmits.won hclosed'
        cases this
  · intro hclosed ops w' hrun
    have hw' := Runs.run_invariant GuardedSessions.sound_step hw hrun
    have hclosed' := (GuardedSessions.closed_run hw hrun).1 hclosed
    constructor
    · intro now id
      apply Sessions.touch_refused (hw'.noHttp hclosed')
    · intro now admission sender usage reserved
      apply Sessions.insertAdmittedInner_refused
      intro received hadmits
      have := hadmits.commands
      rw [hclosed'] at this
      cases this

/-- A run with a session, an operation and a pin of one tenant, the guards then dropped. -/
theorem guards_honoured_drain :
  ∃ w, Runs.run GuardedSessions.step .new
      [.insertResumed 0 "s" "link" "acme" 5 0, .tryBeginOutbound "acme",
        .tryPinTenant "acme", .remove "s", .dropGuard 1 1, .dropGuard 1 0] = some w
    ∧ w.Honoured
  := by
  obtain ⟨w, h⟩ := Option.isSome_iff_exists.mp (rfl : (Runs.run GuardedSessions.step .new
    [.insertResumed 0 "s" "link" "acme" 5 0, .tryBeginOutbound "acme",
      .tryPinTenant "acme", .remove "s", .dropGuard 1 1, .dropGuard 1 0]).isSome = true)
  exact ⟨w, h, guards_honoured h⟩

/-- A pin is granted while a session and an outbound operation of the tenant are live. -/
theorem tryPinTenant_while_live :
  ∃ w, Runs.run GuardedSessions.step .new
      [.insertResumed 0 "s" "link" "acme" 5 0, .tryBeginOutbound "acme"] = some w
    ∧ 0 < w.sessions.activeForTenant "acme" ∧ 0 < w.sessions.activeOutboundForTenant "acme"
    ∧ (w.sessions.tryPinTenant "acme").1 = some (.tenantPin "acme")
  := ⟨_, rfl, by decide, by decide, by decide⟩

end Votport
