import Votport.Session.Guards
import Mathlib.Algebra.Order.BigOperators.Group.List
import Mathlib.Algebra.Order.Ring.Nat

/-!
# Admission and the tenant's bytes

An admission with a byte quota is given what the store counts for its tenant at that
moment: the committed bytes and the suspended uploads.  The state here joins the
registry with the store's rows.  After an admission that is not a resume, the committed
bytes, what the tenant's live sessions reserve and what its suspended uploads hold are
together within the quota, unless the admission reserves nothing.
-/

namespace Votport

/-- The columns of an `upload_sessions` row that an admission reads. -/
structure SuspendedRow where
  id : String
  tenant : String
  pushKey : Option String
  packageLength : Int
  committedUploadId : Option String
  /-- The row has file rows. -/
  hasFiles : Bool

/-- The registry, the committed bytes of the tenants and the rows of suspended uploads. -/
structure AdmissionState where
  registry : GuardedSessions
  committed : String → UInt64
  uploadSessions : Table SuspendedRow.id

/-- The registry and the store before the first session. -/
def AdmissionState.new (committed : String → UInt64) (rows : Table SuspendedRow.id) :
    AdmissionState where
  registry := .new
  committed := committed
  uploadSessions := rows

/-- A row is a suspended upload of the tenant. -/
def SuspendedRow.retainedBy (tenant : String) (row : SuspendedRow) : Prop :=
  row.tenant = tenant ∧ row.committedUploadId = none ∧ row.hasFiles = true

instance (tenant : String) : DecidablePred (SuspendedRow.retainedBy tenant) :=
  fun _ => inferInstanceAs (Decidable (_ ∧ _ ∧ _))

/-- A row as an admission sees it. -/
def SuspendedRow.reservation (row : SuspendedRow) : RetainedReservation where
  id := row.id
  pushKey := row.pushKey
  bytes := UInt64.ofNat row.packageLength.toNat

/-- What the store counts for a tenant. -/
def AdmissionState.tenantAdmissionUsage (w : AdmissionState) (tenant : String) :
    UInt64 × List RetainedReservation :=
  (w.committed tenant,
    (w.uploadSessions.filter (SuspendedRow.retainedBy tenant)).rows.map
      SuspendedRow.reservation)

/-- An operation on the registry or a write of the store. -/
inductive AdmissionOp
  | registry (op : SessionsOp)
  /-- The tenant's committed bytes change. -/
  | commit (tenant : String) (bytes : UInt64)
  /-- A worker writes its session's row, in place of those of its id and of its key. -/
  | insertUploadSession (row : SuspendedRow)
  | deleteUploadSession (id : String)

/-- One operation, none for one that the registry does not allow. -/
def AdmissionState.step (w : AdmissionState) : AdmissionOp → Option AdmissionState
  | .registry op => (w.registry.step op).map ({ w with registry := · })
  | .commit tenant bytes =>
      some { w with committed := fun t => if t = tenant then bytes else w.committed t }
  | .insertUploadSession row =>
      some { w with
        uploadSessions :=
          (w.uploadSessions.filter
            (fun r => row.pushKey = none ∨ r.pushKey ≠ row.pushKey)).upsert row }
  | .deleteUploadSession id => some { w with uploadSessions := w.uploadSessions.erase id }

/-- A session id names one session: what is admitted under it and the row written under
it carry the same resume key. -/
def AdmissionOp.Named (keyOf : String → Option String) : AdmissionOp → Prop
  | .registry op => ∀ admission, op.admission? = some admission →
      admission.kind.resumeKey = keyOf admission.id
  | .insertUploadSession row => row.pushKey = keyOf row.id
  | .commit _ _ => True
  | .deleteUploadSession _ => True

/-! ### The bytes of a tenant -/

/-- What the live sessions of a tenant reserve. -/
def SessionMap.reservedTotal (m : SessionMap) (tenant : String) : Nat :=
  ((m.rows.filter (·.2.tenant = tenant)).map (·.2.reservedBytes.toNat)).sum

/-- What the live sessions of a tenant reserve and have not received. -/
def Sessions.unreceivedTotal (s : Sessions) (tenant : String) : Nat :=
  ((s.inner.map.rows.filter (·.2.tenant = tenant)).map fun row =>
    row.2.reservedBytes.toNat
      - (((s.activities[row.2.activity]?).map (·.received.toNat)).getD 0)).sum

/-- A suspended upload is carried on by a live session. -/
def SessionMap.carries (m : SessionMap) (reservation : RetainedReservation) : Bool :=
  (m.find? reservation.id).isSome || m.rows.any (·.2.kind.resumes reservation.pushKey)

/-- What the suspended uploads hold that no live session carries on. -/
def SessionMap.suspendedTotal (m : SessionMap) (retained : List RetainedReservation) : Nat :=
  ((retained.filter fun reservation => !m.carries reservation).map (·.bytes.toNat)).sum

/-- The bytes that count against a tenant's quota. -/
def SessionMap.total
    (m : SessionMap) (tenant : String) (usage : UInt64 × List RetainedReservation) : Nat :=
  usage.1.toNat + m.reservedTotal tenant + m.suspendedTotal usage.2

theorem Sessions.unreceivedTotal_le (s : Sessions) (tenant : String) :
  s.unreceivedTotal tenant ≤ s.inner.map.reservedTotal tenant
  := by
  apply List.sum_le_sum
  intro row _
  apply Nat.sub_le

theorem SessionMap.reservedTotal_sublist
    {rows rows' : List (String × SessionHandle)} (h : rows'.Sublist rows) (tenant : String) :
  ((rows'.filter (·.2.tenant = tenant)).map (·.2.reservedBytes.toNat)).sum
    ≤ ((rows.filter (·.2.tenant = tenant)).map (·.2.reservedBytes.toNat)).sum
  := List.Sublist.sum_le_sum ((h.filter _).map _) (by simp)

/-- A filter that lets more of a list's members through keeps more of it. -/
theorem filter_sublist_filter
    {α : Type*} {l : List α} {p q : α → Bool} (h : ∀ a ∈ l, p a = true → q a = true) :
  (l.filter p).Sublist (l.filter q)
  := by
  have hpq : l.filter p = (l.filter q).filter p := by
    rw [List.filter_filter]
    apply List.filter_congr
    intro a ha
    have := h a ha
    cases hp : p a <;> simp_all
  rw [hpq]
  apply List.filter_sublist

theorem SessionMap.suspendedTotal_le
    (m m' : SessionMap) {retained : List RetainedReservation}
    (h : ∀ reservation ∈ retained, m.carries reservation = true →
      m'.carries reservation = true) :
  m'.suspendedTotal retained ≤ m.suspendedTotal retained
  := by
  apply List.Sublist.sum_le_sum _ (by simp)
  apply List.Sublist.map
  apply filter_sublist_filter
  intro reservation hreservation
  have := h reservation hreservation
  grind

/-! ### Sessions and rows carry their keys -/

/-- Every live session and every stored row carries the resume key of its id. -/
structure AdmissionState.Keyed (keyOf : String → Option String) (w : AdmissionState) : Prop where
  sessions : ∀ row ∈ w.registry.sessions.inner.map.rows, row.2.kind.resumeKey = keyOf row.1
  rows : ∀ row ∈ w.uploadSessions.rows, row.pushKey = keyOf row.id

/-- No two live sessions have one resume key. -/
def SessionMap.OneKey (m : SessionMap) : Prop :=
  ∀ key, m.rows.countP (·.2.kind.resumeKey = some key) ≤ 1

theorem SessionMap.Shrinks.keyed
    {m m' : SessionMap} (h : m.Shrinks m') {keyOf : String → Option String}
    (hm : ∀ row ∈ m.rows, row.2.kind.resumeKey = keyOf row.1) :
  ∀ row ∈ m'.rows, row.2.kind.resumeKey = keyOf row.1
  := by
  intro row hrow
  obtain ⟨row₀, hrow₀, he⟩ := h.mem hrow
  have hid : row₀.1 = row.1 := congrArg (fun row => row.1) he
  have hkind : row₀.2.kind.fixed = row.2.kind.fixed := congrArg (fun row => row.2.kind) he
  rw [← SessionKind.resumeKey_fixed, ← hkind, SessionKind.resumeKey_fixed, ← hid]
  apply hm row₀ hrow₀

theorem SessionMap.Shrinks.countP_resumeKey
    {m m' : SessionMap} (h : m.Shrinks m') (key : Option String) :
  m'.rows.countP (·.2.kind.resumeKey = key) ≤ m.rows.countP (·.2.kind.resumeKey = key)
  := by
  apply h.countP_le (p := (·.kind.resumeKey = key))
  intro handle
  simp [SessionHandle.fixed]

theorem SessionMap.Shrinks.oneKey
    {m m' : SessionMap} (h : m.Shrinks m') (hm : m.OneKey) :
  m'.OneKey
  := fun key => (h.countP_resumeKey (some key)).trans (hm key)

/-- Among the sessions a new one leaves, none has its resume key. -/
theorem SessionsInner.rest_resumeKey
    {inner : SessionsInner} (h : inner.map.OneKey) {kind : SessionKind} {key : String}
    (hkey : kind.resumeKey = some key) :
  ∀ row ∈ (inner.rest kind).rows, row.2.kind.resumeKey ≠ some key
  := by
  rw [rest]
  cases hold : inner.replacing kind with
  | none => exact replacing_eq_none hold hkey
  | some old =>
      obtain ⟨oldId, parked⟩ := old
      obtain ⟨handle, key', hfind, hkey', hhandle⟩ := replacing_eq_some hold
      obtain rfl : key' = key := by
        rw [hkey] at hkey'
        cases hkey'
        rfl
      have hcount := h key'
      rw [(Table.perm_cons_erase hfind).countP_eq,
        List.countP_cons_of_pos (by simpa using hhandle)] at hcount
      have hzero : (inner.map.erase oldId).rows.countP (·.2.kind.resumeKey = some key') = 0 := by
        omega
      intro row hrow he
      have := List.countP_eq_zero.mp hzero row hrow
      simp [he] at this

theorem Sessions.oneKey_enter
    {s : Sessions} (h : s.inner.map.OneKey) (now : Nat) (admission : SessionAdmission)
    (sender : Nat) :
  (s.enter now admission sender).inner.map.OneKey
  := by
  intro key
  rw [map_enter, Table.rows_upsert, List.countP_cons]
  have hsub : ((s.inner.rest admission.kind).erase admission.id).rows.countP
      (·.2.kind.resumeKey = some key)
      ≤ (s.inner.rest admission.kind).rows.countP (·.2.kind.resumeKey = some key) :=
    List.Sublist.countP_le List.filter_sublist
  have hrest := (s.inner.shrinks_rest admission.kind).countP_resumeKey (some key)
  have hone := h key
  by_cases hkey : admission.kind.resumeKey = some key
  · have hzero : (s.inner.rest admission.kind).rows.countP
        (·.2.kind.resumeKey = some key) = 0 := by
      rw [List.countP_eq_zero]
      intro row hrow
      simpa using SessionsInner.rest_resumeKey h hkey row hrow
    simp only [SessionAdmission.handle, hkey]
    simp only [decide_true, if_true]
    omega
  · simp only [SessionAdmission.handle, hkey, decide_false, Bool.false_eq_true, if_false]
    omega

/-- The sessions carry their keys, each key once. -/
structure AdmissionState.Sound (keyOf : String → Option String) (w : AdmissionState) : Prop
    extends w.Keyed keyOf where
  oneKey : w.registry.sessions.inner.map.OneKey

/-! ### What an admission leaves of the sessions that carry on an upload -/

/-- A session that an admission displaces has the resume key of the new one. -/
theorem Sessions.mem_enter_or
    {s : Sessions} {keyOf : String → Option String}
    (hkeyed : ∀ row ∈ s.inner.map.rows, row.2.kind.resumeKey = keyOf row.1)
    {admission : SessionAdmission} (hnew : admission.kind.resumeKey = keyOf admission.id)
    (now sender : Nat) {row : String × SessionHandle} (hrow : row ∈ s.inner.map.rows) :
  row ∈ (s.enter now admission sender).inner.map.rows
    ∨ admission.kind.resumeKey = row.2.kind.resumeKey
      ∧ (admission.kind.resumeKey.isSome = true ∨ row.1 = admission.id)
  := by
  rw [map_enter, Table.mem_upsert]
  by_cases hid : row.1 = admission.id
  · right
    rw [hnew, hkeyed row hrow, hid]
    exact ⟨rfl, Or.inr rfl⟩
  · rw [SessionsInner.rest]
    split
    · exact Or.inl (Or.inr ⟨hrow, hid⟩)
    · next oldId parked hold =>
        obtain ⟨handle, key, hfind, hkey, hhandle⟩ := SessionsInner.replacing_eq_some hold
        by_cases hrid : row.1 = oldId
        · right
          rw [← hrid, Table.find?_key hrow, Option.some.injEq] at hfind
          rw [hkey, hfind]
          exact ⟨hhandle.symm, Or.inl rfl⟩
        · exact Or.inl (Or.inr ⟨Table.mem_erase.mpr ⟨hrow, hrid⟩, hid⟩)

/-- A suspended upload that is carried on before an admission is carried on after it. -/
theorem Sessions.carries_enter
    {s : Sessions} {keyOf : String → Option String}
    (hkeyed : ∀ row ∈ s.inner.map.rows, row.2.kind.resumeKey = keyOf row.1)
    {admission : SessionAdmission} (hnew : admission.kind.resumeKey = keyOf admission.id)
    (now sender : Nat) {reservation : RetainedReservation}
    (hreservation : reservation.pushKey = keyOf reservation.id)
    (h : s.inner.map.carries reservation = true) :
  (s.enter now admission sender).inner.map.carries reservation = true
  := by
  have henter : (admission.id, admission.handle sender now s.activities.length)
      ∈ (s.enter now admission sender).inner.map.rows := by
    rw [map_enter, Table.mem_upsert]
    exact Or.inl rfl
  -- a new session with the reservation's key carries it on
  have hresumes : reservation.pushKey = admission.kind.resumeKey →
      admission.kind.resumeKey.isSome = true →
      (s.enter now admission sender).inner.map.carries reservation = true := by
    intro hkey hsome
    rw [SessionMap.carries, Bool.or_eq_true]
    right
    rw [List.any_eq_true]
    exact ⟨_, henter, by simp [SessionAdmission.handle, SessionKind.resumes, hkey, hsome]⟩
  rw [SessionMap.carries, Bool.or_eq_true] at h
  rcases h with hfind | hany
  · obtain ⟨row, hfind⟩ := Option.isSome_iff_exists.mp hfind
    obtain ⟨hrow, hid⟩ := Table.find?_eq_some.mp hfind
    rcases mem_enter_or hkeyed hnew now sender hrow with hrow' | ⟨hkey, hsome | hid'⟩
    · rw [SessionMap.carries, ← hid, Table.find?_key hrow']
      rfl
    · apply hresumes _ hsome
      rw [hreservation, hkey, hkeyed row hrow, hid]
    · have hkeyid : reservation.id = admission.id := hid.symm.trans hid'
      rw [SessionMap.carries, hkeyid, Table.find?_key henter]
      rfl
  · obtain ⟨row, hrow, hres⟩ := List.any_eq_true.mp hany
    rcases mem_enter_or hkeyed hnew now sender hrow with hrow' | ⟨hkey, _⟩
    · rw [SessionMap.carries, Bool.or_eq_true]
      right
      rw [List.any_eq_true]
      use row, hrow'
    · rw [SessionKind.resumes, Bool.and_eq_true, beq_iff_eq] at hres
      apply hresumes
      · rw [hkey, hres.2]
      · rw [hkey]
        apply hres.1

/-- What the suspended uploads hold after an admission is within what it counted. -/
theorem Sessions.suspendedTotal_enter
    {s : Sessions} {keyOf : String → Option String}
    (hkeyed : ∀ row ∈ s.inner.map.rows, row.2.kind.resumeKey = keyOf row.1)
    {admission : SessionAdmission} (hnew : admission.kind.resumeKey = keyOf admission.id)
    (now sender : Nat) {retained : List RetainedReservation}
    (hretained : ∀ reservation ∈ retained, reservation.pushKey = keyOf reservation.id) :
  (s.enter now admission sender).inner.map.suspendedTotal retained
    ≤ ((s.inner.retainedBytes ((s.inner.replacing admission.kind).map Prod.fst) retained).map
        UInt64.toNat).sum
  := by
  rw [SessionMap.suspendedTotal, SessionsInner.retainedBytes, List.map_map]
  apply List.Sublist.sum_le_sum _ (by simp)
  apply List.Sublist.map
  apply filter_sublist_filter
  intro reservation hreservation hfree
  have hcarries : s.inner.map.carries reservation = false := by
    by_contra h
    rw [carries_enter hkeyed hnew now sender (hretained reservation hreservation)
      (by simpa using h)] at hfree
    cases hfree
  rw [SessionMap.carries, Bool.or_eq_false_iff] at hcarries
  rw [Bool.and_eq_true]
  constructor
  · simpa using hcarries.1
  · rw [SessionsInner.handles_rest, Bool.not_eq_true', List.any_eq_false]
    intro handle hhandle
    obtain ⟨row, hrow, rfl⟩ := List.mem_map.mp hhandle
    apply List.any_eq_false.mp hcarries.2 row
    rw [SessionsInner.rest] at hrow
    split at hrow
    · exact hrow
    · exact (Table.mem_erase.mp hrow).1

/-- What the tenant's sessions reserve after an admission is within what it counted. -/
theorem Sessions.reservedTotal_enter
    (s : Sessions) (now : Nat) (admission : SessionAdmission) (sender : Nat) :
  (s.enter now admission sender).inner.map.reservedTotal admission.tenant
    ≤ admission.reservedBytes.toNat
      + ((s.inner.alreadyReserved ((s.inner.replacing admission.kind).map Prod.fst)
          admission.tenant).map UInt64.toNat).sum
  := by
  have halready :
      ((s.inner.alreadyReserved ((s.inner.replacing admission.kind).map Prod.fst)
        admission.tenant).map UInt64.toNat).sum
        = (s.inner.rest admission.kind).reservedTotal admission.tenant := by
    rw [SessionsInner.alreadyReserved, SessionsInner.handles_rest, SessionMap.reservedTotal,
      List.filter_map, List.map_map, List.map_map]
    rfl
  rw [halready, SessionMap.reservedTotal, map_enter, Table.rows_upsert,
    List.filter_cons_of_pos (by simp [SessionAdmission.handle]), List.map_cons, List.sum_cons]
  apply Nat.add_le_add_left
  apply SessionMap.reservedTotal_sublist
  apply List.filter_sublist

theorem SessionsInner.alreadyReserved_le
    (inner : SessionsInner) (kind : SessionKind) (tenant : String) :
  ((inner.alreadyReserved ((inner.replacing kind).map Prod.fst) tenant).map UInt64.toNat).sum
    ≤ inner.map.reservedTotal tenant
  := by
  rw [alreadyReserved, handles_rest, List.filter_map, List.map_map, List.map_map]
  have hsub : (inner.rest kind).rows.Sublist inner.map.rows := by
    rw [rest]
    split
    · apply List.Sublist.refl
    · apply List.filter_sublist
  exact SessionMap.reservedTotal_sublist hsub tenant

/-! ### Every admission is within the limits -/

/-- A session has just been admitted within every limit of its admission. -/
structure Sessions.Within
    (s s' : Sessions) (admission : SessionAdmission)
    (usage : UInt64 × List RetainedReservation) : Prop where
  sessions : s'.inner.map.rows.length ≤ admission.maxSessions
  linkSessions : s'.activeForLink admission.linkId ≤ admission.maxLinkSessions
  tenantSessions : ∀ max, admission.maxTenantSessions = some max →
    s'.activeForTenant admission.tenant ≤ max.toNat
  oneKey : ∀ key, s'.inner.map.rows.countP (·.2.kind.resumeKey = some key) ≤ 1
  unreceived :
    s'.unreceivedTotal admission.tenant ≤ s'.inner.map.reservedTotal admission.tenant
  bytes : ∀ maxTotal, admission.maxTotalBytes = some maxTotal →
    admission.resuming usage.2 = false →
      s'.inner.map.total admission.tenant usage ≤ maxTotal.toNat
        ∨ admission.reservedBytes = 0
          ∧ s'.inner.map.total admission.tenant usage
            ≤ s.inner.map.total admission.tenant usage

theorem Sessions.countP_enter
    (s : Sessions) (now : Nat) (admission : SessionAdmission) (sender : Nat)
    (p : String × SessionHandle → Bool) :
  (s.enter now admission sender).inner.map.rows.countP p
    ≤ (s.inner.rest admission.kind).rows.countP p + 1
  := by
  rw [map_enter, Table.rows_upsert, List.countP_cons]
  dsimp only
  have : ((s.inner.rest admission.kind).erase admission.id).rows.countP p
      ≤ (s.inner.rest admission.kind).rows.countP p :=
    List.Sublist.countP_le List.filter_sublist
  have hone : (if p (admission.id, admission.handle sender now s.activities.length) = true
      then 1 else 0) ≤ 1 := by
    split <;> omega
  omega

theorem Sessions.within_enter
    {s : Sessions} {keyOf : String → Option String}
    (hkeyed : ∀ row ∈ s.inner.map.rows, row.2.kind.resumeKey = keyOf row.1)
    (hone : s.inner.map.OneKey)
    {admission : SessionAdmission} (hnew : admission.kind.resumeKey = keyOf admission.id)
    {usage : UInt64 × List RetainedReservation}
    (husage : ∀ reservation ∈ usage.2, reservation.pushKey = keyOf reservation.id)
    {received : Option (UInt64 × List RetainedReservation)} {reserved : Bool}
    (hadmits : s.inner.Admits admission received reserved)
    (hreceived : admission.maxTotalBytes.isSome → received = some usage) (now sender : Nat) :
  s.Within (s.enter now admission sender) admission usage
  where
    sessions := by
      have hcount := s.countP_enter now admission sender (fun _ => true)
      rw [List.countP_true] at hcount
      have := hadmits.sessions
      omega
    linkSessions := by
      apply le_trans (s.countP_enter now admission sender _)
      exact hadmits.linkSessions
    tenantSessions := by
      intro max hmax
      apply le_trans (s.countP_enter now admission sender _)
      exact hadmits.tenantSessions max hmax
    oneKey := oneKey_enter hone now admission sender
    unreceived := Sessions.unreceivedTotal_le _ _
    bytes := by
      intro maxTotal hmax hresuming
      have hbytes := hadmits.bytes maxTotal hmax
      rw [hreceived (by rw [hmax]; rfl), Option.getD_some, SessionsInner.overQuota, hresuming,
        Bool.not_false, Bool.true_and, decide_eq_false_iff_not, UInt64.not_lt] at hbytes
      have hsuspended := suspendedTotal_enter hkeyed hnew now sender husage
      have hreserved := s.reservedTotal_enter now admission sender
      by_cases hzero : admission.reservedBytes = 0
      · right
        have hle := SessionMap.suspendedTotal_le s.inner.map
          (s.enter now admission sender).inner.map
          (fun reservation hr => carries_enter hkeyed hnew now sender (husage reservation hr))
        have halready := s.inner.alreadyReserved_le admission.kind admission.tenant
        have hz : (0 : UInt64).toNat = 0 := rfl
        rw [hzero, hz] at hreserved
        constructor
        · exact hzero
        · rw [SessionMap.total, SessionMap.total]
          omega
      · left
        have hpos : 0 < admission.reservedBytes.toNat := by
          rw [Nat.pos_iff_ne_zero]
          intro h
          apply hzero
          rw [← UInt64.toNat_inj]
          exact h
        have := Saturating.add_le_of_le_sub hpos hbytes
        rw [SessionMap.total]
        omega

theorem AdmissionState.keyed_usage
    {w : AdmissionState} {keyOf : String → Option String}
    (hrows : ∀ row ∈ w.uploadSessions.rows, row.pushKey = keyOf row.id) (tenant : String) :
  ∀ reservation ∈ (w.tenantAdmissionUsage tenant).2,
    reservation.pushKey = keyOf reservation.id
  := by
  intro reservation hreservation
  obtain ⟨row, hrow, rfl⟩ := List.mem_map.mp hreservation
  apply hrows row (Table.mem_filter.mp hrow).1

/-- Every operation keeps the keys of the sessions and the rows. -/
theorem AdmissionState.sound_step
    {keyOf : String → Option String} (w : AdmissionState) (op : AdmissionOp)
    (w' : AdmissionState) (hop : op.Named keyOf) (hw : w.Sound keyOf)
    (h : w.step op = some w') :
  w'.Sound keyOf
  := by
  cases op with
  | commit tenant bytes => cases h; exact ⟨⟨hw.sessions, hw.rows⟩, hw.oneKey⟩
  | deleteUploadSession id =>
      cases h
      exact ⟨⟨hw.sessions, fun row hrow => hw.rows row (Table.mem_erase.mp hrow).1⟩, hw.oneKey⟩
  | insertUploadSession row =>
      cases h
      constructor
      · constructor
        · exact hw.sessions
        · intro r hr
          rcases Table.mem_upsert.mp hr with rfl | ⟨hr, _⟩
          · exact hop
          · exact hw.rows r (Table.mem_filter.mp hr).1
      · exact hw.oneKey
  | registry op =>
      obtain ⟨g, hg, rfl⟩ := Option.map_eq_some_iff.mp h
      rcases GuardedSessions.step_cases hg with hquiet | hadmit
      · exact ⟨⟨hquiet.map.keyed hw.sessions, hw.rows⟩, hquiet.map.oneKey hw.oneKey⟩
      · obtain ⟨_, admission, _, hadmission, ⟨now, sender, _, _, he⟩, _⟩ := hadmit
        constructor
        · constructor
          · intro row hrow
            rw [he] at hrow
            rcases Sessions.mem_enter hrow with rfl | hrow
            · exact hop admission hadmission
            · exact hw.sessions row hrow
          · exact hw.rows
        · change g.sessions.inner.map.OneKey
          rw [he]
          exact Sessions.oneKey_enter hw.oneKey now admission sender

/-- In every run, with what the store counts at that moment handed to an admission: a
refused admission leaves the registry as it was, and an admitted session is within the
limits. -/
theorem insertAdmitted_within
    (keyOf : String → Option String) {committed : String → UInt64}
    {rows : Table SuspendedRow.id} (hrows : ∀ row ∈ rows.rows, row.pushKey = keyOf row.id)
    {ops : List AdmissionOp} (hops : ∀ op ∈ ops, op.Named keyOf) {w : AdmissionState}
    (h : Runs.run AdmissionState.step (.new committed rows) ops = some w)
    {admission : SessionAdmission} (hadmission : admission.kind.resumeKey = keyOf admission.id)
    {usage : Except String (UInt64 × List RetainedReservation)}
    (husage : ∀ u, usage = .ok u → u = w.tenantAdmissionUsage admission.tenant)
    (now sender : Nat) (reserved : Bool) :
  (∃ e, w.registry.sessions.insertAdmittedInner now admission sender usage reserved
      = (.error e, w.registry.sessions))
    ∨ ∃ s', w.registry.sessions.insertAdmittedInner now admission sender usage reserved
        = (.ok (), s')
      ∧ w.registry.sessions.Within s' admission (w.tenantAdmissionUsage admission.tenant)
  := by
  have hw : w.Sound keyOf := by
    apply Runs.run_invariant_along (P := fun _ op => op.Named keyOf) AdmissionState.sound_step
      _ _ h
    · apply Runs.along_of_forall
      intro op hop _
      exact hops op hop
    · constructor
      · constructor
        · intro row hrow
          cases hrow
        · exact hrows
      · intro key
        exact Nat.zero_le _
  rcases w.registry.sessions.insertAdmittedInner_cases now admission sender usage reserved
    with hr | hr
  · exact Or.inl hr
  · obtain ⟨received, hrefusal, hreceived, he⟩ := hr
    right
    use w.registry.sessions.enter now admission sender, he
    apply Sessions.within_enter hw.sessions hw.oneKey hadmission
      (AdmissionState.keyed_usage hw.rows _) (SessionsInner.admits_of_refusal hrefusal)
    intro hsome
    obtain ⟨u, hu, rfl⟩ := hreceived hsome
    rw [husage u hu]

/-- A run with a parked push that a session with the same resume key then replaces. -/
theorem insertAdmitted_within_replacing :
  ∃ w, Runs.run AdmissionState.step (.new (fun _ => 3) .empty)
      [.registry (.insertAdmitted 0
          ⟨"p", "link", "acme", 5, some 10, none, 4, 4,
            .push (.resumable "key" false)⟩ 0 (.ok (3, []))),
        .insertUploadSession ⟨"p", "acme", some "key", 5, none, true⟩] = some w
    ∧ ((∃ e, w.registry.sessions.insertAdmittedInner 1
        ⟨"q", "link", "acme", 7, some 10, none, 4, 4, .push (.resumable "key" true)⟩ 0
        (.ok (w.tenantAdmissionUsage "acme")) false = (.error e, w.registry.sessions))
      ∨ ∃ s', w.registry.sessions.insertAdmittedInner 1
        ⟨"q", "link", "acme", 7, some 10, none, 4, 4, .push (.resumable "key" true)⟩ 0
        (.ok (w.tenantAdmissionUsage "acme")) false = (.ok (), s')
        ∧ w.registry.sessions.Within s'
          ⟨"q", "link", "acme", 7, some 10, none, 4, 4, .push (.resumable "key" true)⟩
          (w.tenantAdmissionUsage "acme"))
  := by
  obtain ⟨w, h⟩ := Option.isSome_iff_exists.mp
    (rfl : (Runs.run AdmissionState.step (.new (fun _ => 3) .empty)
      [.registry (.insertAdmitted 0
          ⟨"p", "link", "acme", 5, some 10, none, 4, 4,
            .push (.resumable "key" false)⟩ 0 (.ok (3, []))),
        .insertUploadSession ⟨"p", "acme", some "key", 5, none, true⟩]).isSome = true)
  use w, h
  apply insertAdmitted_within (fun _ => some "key") _ _ h rfl _ 1 0 false
  · intro row hrow
    cases hrow
  · intro op hop
    simp only [List.mem_cons, List.not_mem_nil, or_false] at hop
    rcases hop with rfl | rfl
    · intro admission he
      cases he
      rfl
    · rfl
  · intro u hu
    cases hu
    rfl

/-- An admission that reserves nothing is let in although the tenant is over its quota. -/
theorem insertAdmitted_zero_bytes :
  ∃ w s', Runs.run AdmissionState.step (.new (fun _ => 0) .empty) [.commit "acme" 10] = some w
    ∧ w.registry.sessions.insertAdmittedInner 0
        ⟨"s", "link", "acme", 0, some 5, none, 4, 4, .http⟩ 0
        (.ok (w.tenantAdmissionUsage "acme")) false = (.ok (), s')
    ∧ 5 < s'.inner.map.total "acme" (w.tenantAdmissionUsage "acme")
  := ⟨_, _, rfl, rfl, by decide⟩

end Votport
