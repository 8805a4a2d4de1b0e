import Votport.Foundation.Saturating
import Votport.Foundation.Table
import Mathlib.Data.Finset.Basic

/-!
# The registry of live sessions

The registry keeps the live sessions with what they reserve, the pinned tenants and
links, the outbound operations in progress and the admissions under way.  Every
operation runs under one lock, so it is a function of the registry.  A session's
activity record is shared with the leases on it, which outlive the session; the records
are kept in a list and addressed by position.
-/

namespace Votport

/-- The control a native push shares with its connection. -/
structure PushControl where
  /-- The key under which the push is resumed, none for a push that is not resumable. -/
  resumeKey : Option String
  parked : Bool
  connected : Bool
  aborted : Bool
  cancelled : Bool
deriving DecidableEq, Repr

/-- The control of a push that is not resumable. -/
def PushControl.new : PushControl where
  resumeKey := none
  parked := false
  connected := false
  aborted := false
  cancelled := false

/-- The control of a resumable push, parked when it has no directory lock. -/
def PushControl.resumable (key : String) (lock : Bool) : PushControl :=
  { PushControl.new with resumeKey := some key, parked := !lock }

/-- A resumable push is parked and no longer connected, the others are left alone. -/
def PushControl.park (control : PushControl) : PushControl :=
  if control.resumeKey.isNone then control
  else { control with parked := true, connected := false }

/-- How a session's bytes arrive. -/
inductive SessionKind
  | http
  | push (control : PushControl)
deriving DecidableEq, Repr

/-- The control of a push session. -/
def SessionKind.control : SessionKind → Option PushControl
  | .http => none
  | .push control => some control

/-- The resume key of a session, none for an HTTP session. -/
def SessionKind.resumeKey : SessionKind → Option String
  | .http => none
  | .push control => control.resumeKey

/-- The session is a push with the resume key `key`. -/
def SessionKind.resumes (kind : SessionKind) (key : Option String) : Bool :=
  kind.resumeKey.isSome && kind.resumeKey == key

/-- What leases and requests record about a session. -/
structure SessionActivity where
  inFlight : Nat
  lastActive : Nat
  received : UInt64
deriving DecidableEq, Repr

/-- A live session. -/
structure SessionHandle where
  linkId : String
  tenant : String
  reservedBytes : UInt64
  /-- The channel to the session's worker. -/
  sender : Nat
  kind : SessionKind
  startedAt : Nat
  /-- The address of its activity record. -/
  activity : Nat
deriving DecidableEq, Repr

/-- The live sessions under their ids. -/
abbrev SessionMap := Table (Prod.fst : String × SessionHandle → String)

/-- What the registry's lock guards. -/
structure SessionsInner where
  map : SessionMap
  admissionClosed : Bool
  commandsClosed : Bool
  activeAdmissions : Nat
  /-- Tenants whose storage is being deleted. -/
  pinned : Finset String
  /-- Named tenants with outbound operations in progress, with their number. -/
  outbound : Table (Prod.fst : String × Nat → String)
  pinnedLinks : Finset String
deriving DecidableEq

/-- The registry with the activity records allocated so far. -/
structure Sessions where
  inner : SessionsInner
  activities : List SessionActivity
deriving DecidableEq

/-- The registry at the start of the process. -/
def Sessions.new : Sessions where
  inner :=
    { map := Table.empty
      admissionClosed := false
      commandsClosed := false
      activeAdmissions := 0
      pinned := ∅
      outbound := Table.empty
      pinnedLinks := ∅ }
  activities := []

/-- What a session asks for when it is admitted. -/
structure SessionAdmission where
  id : String
  linkId : String
  tenant : String
  reservedBytes : UInt64
  maxTotalBytes : Option UInt64
  maxTenantSessions : Option UInt64
  maxLinkSessions : Nat
  maxSessions : Nat
  kind : SessionKind
deriving DecidableEq, Repr

/-- A suspended upload as the store reports it to an admission. -/
structure RetainedReservation where
  id : String
  pushKey : Option String
  bytes : UInt64
deriving DecidableEq, Repr

/-- Why an admission is refused. -/
inductive InsertError
  | shuttingDown
  | tenantPinned
  | linkPinned
  | byteQuota
  | tenantSessionLimit
  | capacity
  | store (message : String)
deriving DecidableEq, Repr

/-- Why a command is refused. -/
inductive TouchError
  | notFound
  | wrongKind
deriving DecidableEq, Repr

/-! ### Admission -/

/-- The first live push with the resume key of `kind`, with its parked flag. -/
def SessionsInner.replacing (inner : SessionsInner) (kind : SessionKind) :
    Option (String × Bool) :=
  match kind.resumeKey with
  | none => none
  | some key =>
      inner.map.rows.findSome? fun (id, handle) =>
        match handle.kind with
        | .push old => if old.resumeKey = some key then some (id, old.parked) else none
        | .http => none

/-- The live sessions without the one that is replaced. -/
def SessionsInner.handles (inner : SessionsInner) (oldId : Option String) :
    List SessionHandle :=
  (inner.map.rows.filter fun row => some row.1 ≠ oldId).map Prod.snd

/-- The admission continues a suspended upload that already holds its bytes. -/
def SessionAdmission.resuming
    (admission : SessionAdmission) (retained : List RetainedReservation) : Bool :=
  retained.any fun reservation =>
    admission.kind.resumeKey.isSome && reservation.pushKey == admission.kind.resumeKey
      && decide (admission.reservedBytes ≤ reservation.bytes)

/-- The suspended uploads that no session other than the replaced one carries on. -/
def SessionsInner.retainedBytes
    (inner : SessionsInner) (oldId : Option String) (retained : List RetainedReservation) :
    List UInt64 :=
  (retained.filter fun reservation =>
    (inner.map.find? reservation.id).isNone
      && !(inner.handles oldId).any (·.kind.resumes reservation.pushKey)).map
    RetainedReservation.bytes

/-- What the tenant's sessions other than the replaced one reserve. -/
def SessionsInner.alreadyReserved
    (inner : SessionsInner) (oldId : Option String) (tenant : String) : List UInt64 :=
  ((inner.handles oldId).filter (·.tenant = tenant)).map SessionHandle.reservedBytes

/-- The byte quota refuses the admission. -/
def SessionsInner.overQuota
    (inner : SessionsInner) (oldId : Option String) (admission : SessionAdmission)
    (maxTotal received : UInt64) (retained : List RetainedReservation) : Bool :=
  !admission.resuming retained
    && decide (Saturating.sub
        (Saturating.sub (Saturating.sub maxTotal received)
          (Saturating.sum (inner.alreadyReserved oldId admission.tenant)))
        (Saturating.sum (inner.retainedBytes oldId retained)) < admission.reservedBytes)

/-- The number of sessions that satisfy `p`, without the one that is replaced. -/
def SessionsInner.countHandles
    (inner : SessionsInner) (oldId : Option String) (p : SessionHandle → Bool) : Nat :=
  (inner.handles oldId).countP p

/-- The first check of an admission that fails. -/
def SessionsInner.refusal
    (inner : SessionsInner) (admission : SessionAdmission)
    (received : Option (UInt64 × List RetainedReservation)) (reserved : Bool) :
    Option InsertError :=
  let replacing := inner.replacing admission.kind
  let oldId := replacing.map Prod.fst
  if inner.commandsClosed || (inner.admissionClosed && !reserved) then
    some .shuttingDown
  else if admission.tenant ≠ "" ∧ admission.tenant ∈ inner.pinned then
    some .tenantPinned
  else if admission.linkId ∈ inner.pinnedLinks then
    some .linkPinned
  else if replacing.any (fun old => !old.2) then
    some .capacity
  else if admission.maxSessions ≤ inner.countHandles oldId (fun _ => true)
      ∨ admission.maxLinkSessions ≤ inner.countHandles oldId (·.linkId = admission.linkId) then
    some .capacity
  else if admission.maxTenantSessions.any fun max =>
      decide (max.toNat ≤ inner.countHandles oldId (·.tenant = admission.tenant)) then
    some .tenantSessionLimit
  else
    match admission.maxTotalBytes with
    | none => none
    | some maxTotal =>
        let (received, retained) := received.getD (0, [])
        if inner.overQuota oldId admission maxTotal received retained then some .byteQuota
        else none

/-- The session an admission makes. -/
def SessionAdmission.handle
    (admission : SessionAdmission) (sender now activity : Nat) : SessionHandle where
  linkId := admission.linkId
  tenant := admission.tenant
  reservedBytes := admission.reservedBytes
  sender := sender
  kind := admission.kind
  startedAt := now
  activity := activity

/-- The registry once an admission has passed every check. -/
def Sessions.enter (s : Sessions) (now : Nat) (admission : SessionAdmission) (sender : Nat) :
    Sessions where
  inner :=
    { s.inner with
      map :=
        (match s.inner.replacing admission.kind with
          | none => s.inner.map
          | some (oldId, _) => s.inner.map.erase oldId).upsert
          (admission.id, admission.handle sender now s.activities.length) }
  activities := s.activities ++ [⟨0, now, 0⟩]

/-- Admits a session.  `receivedBytes` is the store's answer, read before the lock is
taken and only for an admission with a byte quota; `reserved` tells a request that won
its admission before shutdown. -/
def Sessions.insertAdmittedInner
    (s : Sessions) (now : Nat) (admission : SessionAdmission) (sender : Nat)
    (receivedBytes : Except String (UInt64 × List RetainedReservation)) (reserved : Bool) :
    Except InsertError Unit × Sessions :=
  let received : Except String (Option (UInt64 × List RetainedReservation)) :=
    match admission.maxTotalBytes with
    | some _ => receivedBytes.map some
    | none => .ok none
  match received with
  | .error message => (.error (.store message), s)
  | .ok received =>
      match s.inner.refusal admission received reserved with
      | some e => (.error e, s)
      | none => (.ok (), s.enter now admission sender)

/-- Admits a session of a request without a guard. -/
def Sessions.insertAdmitted
    (s : Sessions) (now : Nat) (admission : SessionAdmission) (sender : Nat)
    (receivedBytes : Except String (UInt64 × List RetainedReservation)) :
    Except InsertError Unit × Sessions :=
  s.insertAdmittedInner now admission sender receivedBytes false

/-- What a session re-attached at boot asks for: only its bytes. -/
def resumedAdmission (id linkId tenant : String) (reservedBytes : UInt64) :
    SessionAdmission where
  id := id
  linkId := linkId
  tenant := tenant
  reservedBytes := reservedBytes
  maxTotalBytes := none
  maxTenantSessions := none
  maxLinkSessions := 2 ^ 64 - 1
  maxSessions := 2 ^ 64 - 1
  kind := .http

/-- Registers a session re-attached at boot. -/
def Sessions.insertResumed
    (s : Sessions) (now : Nat) (id linkId tenant : String) (reservedBytes : UInt64)
    (sender : Nat) : Except InsertError Unit × Sessions :=
  s.insertAdmitted now (resumedAdmission id linkId tenant reservedBytes) sender (.ok (0, []))

/-! ### Sessions that leave -/

/-- The registry with another session map. -/
def Sessions.withMap (s : Sessions) (map : SessionMap) : Sessions :=
  { s with inner := { s.inner with map := map } }

/-- Takes a session out and returns it. -/
def Sessions.remove (s : Sessions) (id : String) : Option SessionHandle × Sessions :=
  ((s.inner.map.find? id).map Prod.snd, s.withMap (s.inner.map.erase id))

/-- Closes the commands, takes the HTTP sessions out and returns their channels. -/
def Sessions.takeHttp (s : Sessions) : List Nat × Sessions :=
  ((s.inner.map.rows.filter (·.2.kind = .http)).map (·.2.sender),
    { s with
      inner :=
        { s.inner with
          commandsClosed := true
          map := s.inner.map.filter (·.2.kind ≠ .http) } })

/-- The session has a lease on it or was active less than `idle` seconds ago. -/
def Sessions.active (s : Sessions) (now idle : Nat) (handle : SessionHandle) : Bool :=
  match s.activities[handle.activity]? with
  | none => false
  | some activity =>
      decide (0 < activity.inFlight) || decide (now - activity.lastActive < idle)

/-- An inactive session stays only as a connected push. -/
def Sessions.swept (s : Sessions) (now idle : Nat) (handle : SessionHandle) : Bool :=
  !s.active now idle handle &&
    match handle.kind with
    | .http => true
    | .push control => !control.connected

/-- Changes the control of a push session, other sessions are left alone. -/
def SessionHandle.withControl (handle : SessionHandle) (f : PushControl → PushControl) :
    SessionHandle :=
  match handle.kind with
  | .http => handle
  | .push control => { handle with kind := .push (f control) }

/-- Changes the live sessions. -/
def SessionMap.modify (m : SessionMap) (f : String → SessionHandle → SessionHandle) :
    SessionMap :=
  m.map (fun row => (row.1, f row.1 row.2)) (fun _ => rfl)

/-- Drops the idle HTTP and unconnected push sessions and cancels the connected ones. -/
def Sessions.sweep (s : Sessions) (now idle : Nat) : Sessions :=
  s.withMap (SessionMap.modify
    (s.inner.map.filter (fun row => s.swept now idle row.2 = false))
    (fun _ handle =>
      if s.active now idle handle then handle
      else handle.withControl ({ · with cancelled := true })))

/-! ### Push controls and activity -/

/-- Changes the control of a push session. -/
def Sessions.updateControl (s : Sessions) (id : String) (f : PushControl → PushControl) :
    Sessions :=
  s.withMap (s.inner.map.modify fun id' handle =>
    if id' = id then handle.withControl f else handle)

/-- Parks a push session. -/
def Sessions.parkPush (s : Sessions) (id : String) : Sessions :=
  s.updateControl id PushControl.park

/-- Claims the receive state of a push session for its first rail. -/
def Sessions.connectPush (s : Sessions) (id : String) : Sessions :=
  s.updateControl id ({ · with connected := true })

/-- Aborts a push session. -/
def Sessions.abortPush (s : Sessions) (id : String) : Sessions :=
  s.updateControl id ({ · with aborted := true, cancelled := true })

/-- Cancels the push sessions of a link. -/
def Sessions.cancelPushesForLink (s : Sessions) (link : String) : Sessions :=
  s.withMap (s.inner.map.modify fun _ handle =>
    if handle.linkId = link then handle.withControl ({ · with cancelled := true }) else handle)

/-- Changes the activity record at an address. -/
def Sessions.updateActivity
    (s : Sessions) (address : Nat) (f : SessionActivity → SessionActivity) : Sessions :=
  { s with activities := s.activities.modify address f }

/-- Changes the activity record of a session. -/
def Sessions.updateActivityOf
    (s : Sessions) (id : String) (f : SessionActivity → SessionActivity) : Sessions :=
  match s.inner.map.find? id with
  | none => s
  | some row => s.updateActivity row.2.activity f

/-- Refreshes a native push. -/
def Sessions.markActive (s : Sessions) (now : Nat) (id : String) : Bool × Sessions :=
  match s.inner.map.find? id with
  | none => (false, s)
  | some row =>
      match row.2.kind with
      | .http => (false, s)
      | .push _ => (true, s.updateActivity row.2.activity ({ · with lastActive := now }))

/-- Records the bytes a session has accepted, keeping the larger count. -/
def Sessions.setReceived (s : Sessions) (id : String) (bytes : UInt64) : Sessions :=
  s.updateActivityOf id fun activity => { activity with received := max activity.received bytes }

/-- Gives a re-attached session its original start and the bytes it had. -/
def Sessions.seedResumed (s : Sessions) (id : String) (startedAt : Nat) (received : UInt64) :
    Sessions :=
  Sessions.updateActivityOf
    (s.withMap (s.inner.map.modify fun id' handle =>
      if id' = id then { handle with startedAt := startedAt } else handle))
    id ({ · with received := received })

/-- The number of live sessions of a tenant. -/
def Sessions.activeForTenant (s : Sessions) (tenant : String) : Nat :=
  s.inner.map.rows.countP (·.2.tenant = tenant)

/-- The number of live sessions of a link. -/
def Sessions.activeForLink (s : Sessions) (linkId : String) : Nat :=
  s.inner.map.rows.countP (·.2.linkId = linkId)

/-- The number of outbound operations of a tenant in progress. -/
def Sessions.activeOutboundForTenant (s : Sessions) (tenant : String) : Nat :=
  ((s.inner.outbound.find? tenant).map Prod.snd).getD 0

/-! ### What an operation leaves of the sessions -/

/-- A control without what changes during a session. -/
def PushControl.fixed (control : PushControl) : PushControl :=
  { PushControl.new with resumeKey := control.resumeKey }

/-- A session kind without what changes during a session. -/
def SessionKind.fixed : SessionKind → SessionKind
  | .http => .http
  | .push control => .push control.fixed

/-- A session without what changes while it is live. -/
def SessionHandle.fixed (handle : SessionHandle) : SessionHandle :=
  { handle with kind := handle.kind.fixed, startedAt := 0 }

/-- A row of the session map without what changes while the session is live. -/
def fixedRow (row : String × SessionHandle) : String × SessionHandle :=
  (row.1, row.2.fixed)

@[simp]
theorem SessionKind.resumeKey_fixed (kind : SessionKind) :
  kind.fixed.resumeKey = kind.resumeKey
  := by
  cases kind with
  | http => rfl
  | push control => rfl

@[simp]
theorem SessionKind.fixed_eq_http {kind : SessionKind} :
  kind.fixed = .http ↔ kind = .http
  := by
  cases kind with
  | http => exact Iff.rfl
  | push control => simp [fixed]

@[simp]
theorem SessionKind.fixed_push (control : PushControl) :
  (SessionKind.push control).fixed = .push control.fixed
  := rfl

@[simp]
theorem PushControl.fixed_park (control : PushControl) :
  control.park.fixed = control.fixed
  := by
  rw [park]
  split_ifs <;> rfl

/-- The sessions of `m'` are sessions of `m`, in the order they have there. -/
def SessionMap.Shrinks (m m' : SessionMap) : Prop :=
  (m'.rows.map fixedRow).Sublist (m.rows.map fixedRow)

theorem SessionMap.Shrinks.refl (m : SessionMap) : m.Shrinks m := List.Sublist.refl _

theorem SessionMap.Shrinks.trans {m m' m'' : SessionMap}
    (h : m.Shrinks m') (h' : m'.Shrinks m'') :
  m.Shrinks m''
  := List.Sublist.trans h' h

theorem SessionMap.countP_fixedRow
    (m : SessionMap) {p : SessionHandle → Bool} (hp : ∀ handle, p handle.fixed = p handle) :
  (m.rows.map fixedRow).countP (p ·.2) = m.rows.countP (p ·.2)
  := by
  rw [List.countP_map]
  congr 1
  funext row
  apply hp

/-- A property of the sessions that no operation changes is not gained by more of them. -/
theorem SessionMap.Shrinks.countP_le
    {m m' : SessionMap} (h : m.Shrinks m') {p : SessionHandle → Bool}
    (hp : ∀ handle, p handle.fixed = p handle) :
  m'.rows.countP (p ·.2) ≤ m.rows.countP (p ·.2)
  := by
  rw [← m.countP_fixedRow hp, ← m'.countP_fixedRow hp]
  apply List.Sublist.countP_le
  exact h

theorem SessionMap.Shrinks.mem
    {m m' : SessionMap} (h : m.Shrinks m') {row : String × SessionHandle}
    (hrow : row ∈ m'.rows) :
  ∃ row₀ ∈ m.rows, fixedRow row₀ = fixedRow row
  := by
  have := h.subset (List.mem_map_of_mem hrow)
  simpa using this

theorem SessionMap.shrinks_filter
    (m : SessionMap) (p : String × SessionHandle → Prop) [DecidablePred p] :
  m.Shrinks (m.filter p)
  := List.filter_sublist.map _

theorem SessionMap.shrinks_modify
    (m : SessionMap) {f : String → SessionHandle → SessionHandle}
    (hf : ∀ id handle, (f id handle).fixed = handle.fixed) :
  m.Shrinks (m.modify f)
  := by
  have h : fixedRow ∘ (fun row => (row.1, f row.1 row.2)) = fixedRow := by
    funext row
    simp only [Function.comp_apply, fixedRow, hf]
  rw [Shrinks, modify, Table.map, List.map_map, h]

theorem SessionHandle.fixed_withControl
    (handle : SessionHandle) {f : PushControl → PushControl}
    (hf : ∀ control, (f control).fixed = control.fixed) :
  (handle.withControl f).fixed = handle.fixed
  := by
  rw [withControl]
  split
  · rfl
  · next heq => simp only [fixed, heq, SessionKind.fixed_push, hf]

theorem Sessions.shrinks_sweep (s : Sessions) (now idle : Nat) :
  s.inner.map.Shrinks (s.sweep now idle).inner.map
  := by
  apply SessionMap.Shrinks.trans
  · apply SessionMap.shrinks_filter _ fun row => s.swept now idle row.2 = false
  · apply SessionMap.shrinks_modify
    intro _ handle
    split_ifs
    · rfl
    · apply SessionHandle.fixed_withControl
      intro _
      rfl

theorem Sessions.shrinks_updateControl
    (s : Sessions) (id : String) {f : PushControl → PushControl}
    (hf : ∀ control, (f control).fixed = control.fixed) :
  s.inner.map.Shrinks (s.updateControl id f).inner.map
  := by
  apply SessionMap.shrinks_modify
  intro _ handle
  split_ifs
  · apply handle.fixed_withControl hf
  · rfl

theorem Sessions.shrinks_cancelPushesForLink (s : Sessions) (link : String) :
  s.inner.map.Shrinks (s.cancelPushesForLink link).inner.map
  := by
  apply SessionMap.shrinks_modify
  intro _ handle
  split_ifs
  · apply handle.fixed_withControl
    intro _
    rfl
  · rfl

@[simp]
theorem Sessions.inner_updateActivity
    (s : Sessions) (address : Nat) (f : SessionActivity → SessionActivity) :
  (s.updateActivity address f).inner = s.inner
  := rfl

@[simp]
theorem Sessions.inner_updateActivityOf
    (s : Sessions) (id : String) (f : SessionActivity → SessionActivity) :
  (s.updateActivityOf id f).inner = s.inner
  := by
  rw [updateActivityOf]
  split <;> rfl

@[simp]
theorem Sessions.inner_markActive (s : Sessions) (now : Nat) (id : String) :
  (s.markActive now id).2.inner = s.inner
  := by
  rw [markActive]
  split
  · rfl
  · split <;> rfl

/-! ### What an admission does -/

/-- The sessions other than the one a new session of this kind replaces. -/
def SessionsInner.rest (inner : SessionsInner) (kind : SessionKind) : SessionMap :=
  match inner.replacing kind with
  | none => inner.map
  | some (oldId, _) => inner.map.erase oldId

theorem Sessions.map_enter
    (s : Sessions) (now : Nat) (admission : SessionAdmission) (sender : Nat) :
  (s.enter now admission sender).inner.map
    = (s.inner.rest admission.kind).upsert
        (admission.id, admission.handle sender now s.activities.length)
  := rfl

theorem SessionsInner.handles_rest (inner : SessionsInner) (kind : SessionKind) :
  inner.handles ((inner.replacing kind).map Prod.fst) = (inner.rest kind).rows.map Prod.snd
  := by
  rw [handles, rest]
  cases inner.replacing kind with
  | none => simp
  | some old => simp [Table.erase, Table.rows_filter]

theorem SessionsInner.shrinks_rest (inner : SessionsInner) (kind : SessionKind) :
  inner.map.Shrinks (inner.rest kind)
  := by
  rw [rest]
  split
  · apply SessionMap.Shrinks.refl
  · apply SessionMap.shrinks_filter

/-- The replaced session is a live push with the new session's resume key. -/
theorem SessionsInner.replacing_eq_some
    {inner : SessionsInner} {kind : SessionKind} {oldId : String} {parked : Bool}
    (h : inner.replacing kind = some (oldId, parked)) :
  ∃ handle key, inner.map.find? oldId = some (oldId, handle) ∧ kind.resumeKey = some key
    ∧ handle.kind.resumeKey = some key
  := by
  rw [replacing] at h
  split at h
  · cases h
  · next key hkey =>
      obtain ⟨⟨id, handle⟩, hmem, hfound⟩ := List.exists_of_findSome?_eq_some h
      cases hkind : handle.kind with
      | http => simp [hkind] at hfound
      | push control =>
          simp only [hkind, Option.ite_none_right_eq_some, Option.some.injEq,
            Prod.mk.injEq] at hfound
          obtain ⟨hold, rfl, _⟩ := hfound
          use handle, key
          constructor
          · apply Table.find?_key hmem
          · exact ⟨hkey, by rw [hkind]; exact hold⟩

/-- Without a replaced session no live session has the new session's resume key. -/
theorem SessionsInner.replacing_eq_none
    {inner : SessionsInner} {kind : SessionKind} {key : String}
    (h : inner.replacing kind = none) (hkey : kind.resumeKey = some key) :
  ∀ row ∈ inner.map.rows, row.2.kind.resumeKey ≠ some key
  := by
  intro row hrow hres
  simp only [replacing, hkey, List.findSome?_eq_none_iff] at h
  have := h row hrow
  cases hkind : row.2.kind with
  | http => simp [hkind, SessionKind.resumeKey] at hres
  | push control =>
      rw [hkind] at hres
      simp [hkind, show control.resumeKey = some key from hres] at this

/-- An admission either is refused and changes nothing, or has passed every check. -/
theorem Sessions.insertAdmittedInner_cases
    (s : Sessions) (now : Nat) (admission : SessionAdmission) (sender : Nat)
    (usage : Except String (UInt64 × List RetainedReservation)) (reserved : Bool) :
  (∃ e, s.insertAdmittedInner now admission sender usage reserved = (.error e, s))
    ∨ (∃ received, s.inner.refusal admission received reserved = none
        ∧ (admission.maxTotalBytes.isSome → ∃ u, usage = .ok u ∧ received = some u)
        ∧ s.insertAdmittedInner now admission sender usage reserved
          = (.ok (), s.enter now admission sender))
  := by
  rw [insertAdmittedInner]
  cases hmax : admission.maxTotalBytes with
  | none =>
      cases hrefusal : s.inner.refusal admission none reserved with
      | some e =>
          left
          exact ⟨e, by simp [hrefusal]⟩
      | none =>
          right
          exact ⟨none, hrefusal, by simp, by simp [hrefusal]⟩
  | some maxTotal =>
      cases usage with
      | error message =>
          left
          exact ⟨.store message, rfl⟩
      | ok usage =>
          cases hrefusal : s.inner.refusal admission (some usage) reserved with
          | some e =>
              left
              exact ⟨e, by simp [Except.map, hrefusal]⟩
          | none =>
              right
              exact ⟨some usage, hrefusal, fun _ => ⟨usage, rfl, rfl⟩,
                by simp [Except.map, hrefusal]⟩

/-- What an admission that passed every check found. -/
structure SessionsInner.Admits
    (inner : SessionsInner) (admission : SessionAdmission)
    (received : Option (UInt64 × List RetainedReservation)) (reserved : Bool) : Prop where
  commands : inner.commandsClosed = false
  won : inner.admissionClosed = true → reserved = true
  tenant : admission.tenant ≠ "" → admission.tenant ∉ inner.pinned
  link : admission.linkId ∉ inner.pinnedLinks
  sessions : (inner.rest admission.kind).rows.length < admission.maxSessions
  linkSessions :
    (inner.rest admission.kind).rows.countP (·.2.linkId = admission.linkId)
      < admission.maxLinkSessions
  tenantSessions : ∀ max, admission.maxTenantSessions = some max →
    (inner.rest admission.kind).rows.countP (·.2.tenant = admission.tenant) < max.toNat
  bytes : ∀ maxTotal, admission.maxTotalBytes = some maxTotal →
    inner.overQuota ((inner.replacing admission.kind).map Prod.fst) admission maxTotal
      (received.getD (0, [])).1 (received.getD (0, [])).2 = false

theorem SessionsInner.countHandles_rest
    (inner : SessionsInner) (kind : SessionKind) (p : SessionHandle → Bool) :
  inner.countHandles ((inner.replacing kind).map Prod.fst) p
    = (inner.rest kind).rows.countP (p ·.2)
  := by
  rw [countHandles, handles_rest, List.countP_map]
  rfl

theorem SessionsInner.admits_of_refusal
    {inner : SessionsInner} {admission : SessionAdmission}
    {received : Option (UInt64 × List RetainedReservation)} {reserved : Bool}
    (h : inner.refusal admission received reserved = none) :
  inner.Admits admission received reserved
  := by
  simp only [refusal, countHandles_rest] at h
  split at h
  · cases h
  split at h
  · cases h
  split at h
  · cases h
  split at h
  · cases h
  split at h
  · cases h
  split at h
  · cases h
  next hclosed htenant hlink _ hsessions htenants =>
    simp only [Bool.or_eq_true, Bool.and_eq_true, Bool.not_eq_true', not_or, not_and] at hclosed
    rw [not_or, not_le, not_le, List.countP_true] at hsessions
    constructor
    · simpa using hclosed.1
    · simpa using hclosed.2
    · simpa using htenant
    · apply hlink
    · apply hsessions.1
    · apply hsessions.2
    · intro max hmax
      simpa [hmax] using htenants
    · intro maxTotal hmax
      simpa [hmax] using h

end Votport
