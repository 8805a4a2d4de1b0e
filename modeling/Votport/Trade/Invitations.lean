import Votport.Protocol.Statements
import Votport.Trade.Credential

/-!
# Invitations and the routes they yield

A receiving port invites a sending port to one of its endpoints.  The sender accepts the
invitation, which gives it an outgoing route that waits to be enrolled, and enrolls with the
secret of the invitation, which gives the receiver an incoming route.  An operator changes the
state of a route at a revision; what a port hears of its peer is noted without one.
-/

namespace Votport

variable {φ : Type}

/-! ### Notifications -/

/-- Which notifications are sent. -/
inductive NotificationMode
  | off
  | default
  | custom
deriving DecidableEq, Repr

/-- The events that a destination is told of. -/
structure NotificationRule where
  destinationId : String
  events : List String
deriving DecidableEq, Repr

/-- Who is told of what. -/
structure NotificationPolicy where
  mode : NotificationMode
  rules : List NotificationRule
deriving DecidableEq, Repr

/-- The events of trade routes. -/
def tradeEvents : List String :=
  ["route_approval_requested", "route_approved", "route_identity_changed", "route_failed",
    "route_recovered", "route_received"]

/-- The rule names some of the events, each once. -/
def NotificationRule.supported (rule : NotificationRule) (events : List String) : Bool :=
  !rule.events.isEmpty && decide (rule.events.length ≤ events.length)
    && rule.events.all events.contains
    && decide (rule.events.dedup.length = rule.events.length)

/-- The rules after destinations that are taken. -/
def validateRules (events : List String) : List String → List NotificationRule → Except String Unit
  | _, [] => .ok ()
  | ids, rule :: rules =>
      if ids.contains rule.destinationId then .error "Choose each destination once"
      else if !rule.supported events then
        .error ("Choose distinct supported events for each destination: "
          ++ String.intercalate ", " events)
      else validateRules events (rule.destinationId :: ids) rules

/-- The rules of a policy are those of its mode. -/
def NotificationPolicy.validate (policy : NotificationPolicy) (events : List String) :
    Except String Unit :=
  if policy.mode ≠ .custom then
    if policy.rules.isEmpty then .ok () else .error "Only custom notifications accept rules"
  else if policy.rules.isEmpty || decide (32 < policy.rules.length) then
    .error "Choose 1 to 32 notification destinations"
  else validateRules events [] policy.rules

/-! ### Tables -/

/-- A state as the documents spell it. -/
def TradeState.text : TradeState → String
  | .pendingApproval => "pending_approval"
  | .active => "active"
  | .paused => "paused"
  | .revoked => "revoked"

/-- The state that a text spells. -/
def TradeState.ofText? (text : String) : Option TradeState :=
  if text = "pending_approval" then some .pendingApproval
  else if text = "active" then some .active
  else if text = "paused" then some .paused
  else if text = "revoked" then some .revoked
  else none

/-- An endpoint that invitations are to. -/
structure TradeEndpoint where
  id : String
  tenant : String
  name : String
  category : String
  forwarding : Bool
  metadataKeys : List String
  notifications : NotificationPolicy
deriving DecidableEq, Repr

/-- An invitation, with the route that it yielded. -/
structure TradeInvitation where
  id : String
  tenant : String
  endpoint : String
  secretHash : String
  expectedKey : String
  expiresAt : Int64
  redeemed : Option String
deriving DecidableEq, Repr

/-- A row of `trade_routes` with the whole of its document, and the invitation of a route that is
not enrolled. -/
structure TradeRecord (φ : Type) extends TradeRow where
  name : String
  peerName : String
  address : String
  endpointName : String
  category : String
  notifications : NotificationPolicy
  lastContact : Option UInt64
  error : Option String
  remoteState : String
  enrollment : Option (SignedPortStatement φ)

/-- The id of a row. -/
def TradeRecord.key (r : TradeRecord φ) : String := r.route.id

/-- The tables of a port that its trade routes are in. -/
structure PortTables (φ : Type) where
  tenants : List String
  endpoints : Table TradeEndpoint.id
  invitations : Table TradeInvitation.id
  records : Table (TradeRecord.key (φ := φ))
  rotations : Table TradeRotation.routeId

/-- A port: its key, the keys that are points of the curve, and how it reads an address. -/
structure TradePort (φ : Type) where
  crates : Crates φ
  publicHex : String
  verifyingKey : List UInt8 → Bool
  address : String → Except String String

variable (port : TradePort φ)

/-- The hash of a secret. -/
def TradePort.secretHash (secret : String) : String := tradeSecretHash port.crates.env secret

/-- The text is the lowercase spelling of a key. -/
def TradePort.validPeerKey (key : String) : Bool :=
  (hexDecode key.toList).any (fun bytes => decide (bytes.length = 32) && port.verifyingKey bytes)
    && isDigest key

/-- The row counts towards the limit of the tenant. -/
def TradeRecord.live (tenant : String) (r : TradeRecord φ) : Bool :=
  decide (r.route.tenant = tenant) && decide (r.route.state ≠ .revoked)

/-- How many routes of a tenant are live. -/
def PortTables.liveRouteCount (db : PortTables φ) (tenant : String) : Nat :=
  db.records.rows.countP (TradeRecord.live tenant)

/-- How many routes of a tenant may be live. -/
def routeLimit : Nat := 100

/-! ### Inviting -/

/-- Invites a port to an endpoint, for at most a week. -/
def PortTables.createTradeInvitation
    (db : PortTables φ) (tenant endpoint expectedKey : String) (expiresAt now : UInt64)
    (id secret : String) : Except String (PortTables φ) :=
  if expiresAt ≤ now ∨ now + 7 * 86400 < expiresAt
      ∨ (expectedKey ≠ "" ∧ port.validPeerKey expectedKey = false) then
    .error "invitations need a valid peer key and expiry within seven days"
  else
    match db.endpoints.find? endpoint with
    | none => .error "endpoint not found"
    | some e =>
        if e.tenant ≠ tenant then .error "endpoint not found"
        else
          match db.invitations.insert?
              ⟨id, tenant, endpoint, port.secretHash secret, expectedKey, expiresAt.toInt64,
                none⟩ with
          | none => .error "UNIQUE constraint failed: trade_invitations.id"
          | some invitations => .ok { db with invitations }

/-- Deletes the invitations that expired unredeemed. -/
def PortTables.pruneTradeInvitations (db : PortTables φ) (now : UInt64) : PortTables φ :=
  { db with
    invitations := db.invitations.filter fun i => ¬ (i.redeemed = none ∧ i.expiresAt ≤ now.toInt64) }

/-! ### Enrolling -/

/-- What a sender enrolls with. -/
structure Enrollment where
  secret : String
  credential : String
  peerName : String
deriving DecidableEq, Repr

/-- What the text of an error says when the clocks of two ports differ too much. -/
def clockMisaligned : String :=
  "the peer port's clock is more than five minutes out of step; align the clocks and retry"

/-- The checks of a request to enroll that need no table. -/
def TradePort.enrollment (message : SignedPortStatement φ) (now : UInt64) :
    Except String Enrollment :=
  if message.windowFailed port.crates "enroll" port.publicHex now then .error clockMisaligned
  else if !message.verify port.crates "enroll" port.publicHex now then
    .error "invalid enrollment proof"
  else
    match message.document.body.text? "secret" with
    | none => .error "missing invitation secret"
    | some secret =>
        match (message.document.body.text? "credential").filter (validHex · 32) with
        | none => .error "invalid route credential"
        | some credential =>
            match (message.document.body.text? "name").filter
                (fun name => !trimIsEmpty name && decide (name.utf8ByteSize ≤ 200)) with
            | none => .error "invalid port name"
            | some peerName =>
                if message.document.issuer = port.publicHex then
                  .error "cannot pair a port with itself"
                else .ok ⟨secret, credential, peerName⟩

/-- The address that a sender gives, if any. -/
def TradePort.givenAddress (message : SignedPortStatement φ) : Except String String :=
  match (message.document.body.text? "address").filter (fun text => decide (text ≠ "")) with
  | none => .ok ""
  | some text => port.address text

/-- The route that an invitation yields. -/
def TradePort.incomingRoute (invitation : TradeInvitation) (endpoint : TradeEndpoint)
    (message : SignedPortStatement φ) (e : Enrollment) (address : String) (now : UInt64)
    (fresh : String) : TradeRecord φ where
  route :=
    { id := fresh
      revision := 1
      tenant := invitation.tenant
      direction := .incoming
      peerKey := message.document.issuer
      endpoint := endpoint.id
      forwarding := endpoint.forwarding
      metadataKeys := endpoint.metadataKeys
      state := if invitation.expectedKey = "" then .pendingApproval else .active
      remoteGrant := ""
      cancelActive := false }
  credential := port.secretHash e.credential
  name := endpoint.name
  peerName := e.peerName
  address := address
  endpointName := endpoint.name
  category := endpoint.category
  notifications := endpoint.notifications
  lastContact := some now
  error := none
  remoteState := ""
  enrollment := none

/-- The first redemption of an invitation. -/
def PortTables.yieldRoute
    (db : PortTables φ) (invitation : TradeInvitation) (message : SignedPortStatement φ)
    (e : Enrollment) (now : UInt64) (fresh : String) :
    Except String (PortTables φ × TradeRecord φ) :=
  if invitation.expiresAt ≤ now.toInt64 then .error "invitation expired"
  else if routeLimit ≤ db.liveRouteCount invitation.tenant then .error "route limit reached"
  else
    match db.endpoints.find? invitation.endpoint with
    | none => .error "endpoint unavailable"
    | some endpoint =>
        match port.givenAddress message with
        | .error text => .error text
        | .ok address =>
            let r := port.incomingRoute invitation endpoint message e address now fresh
            match db.records.insert? r with
            | none => .error "UNIQUE constraint failed: trade_routes.id"
            | some records =>
                .ok ({ db with
                  records
                  invitations := db.invitations.upsert { invitation with redeemed := some fresh } },
                  r)

/-- Redeems an invitation for the peer that signed the message, and says whether this made the
route. -/
def PortTables.redeemTradeInvitation
    (db : PortTables φ) (message : SignedPortStatement φ) (now : UInt64) (fresh : String) :
    Except String (PortTables φ × TradeRecord φ × Bool) :=
  match port.enrollment message now with
  | .error text => .error text
  | .ok e =>
      match db.invitations.find? message.document.nonce with
      | none => .error "invitation unavailable"
      | some invitation =>
          if invitation.secretHash ≠ port.secretHash e.secret
              ∨ (invitation.expectedKey ≠ "" ∧ invitation.expectedKey ≠ message.document.issuer) then
            .error "invitation does not authorize this peer"
          else
            match invitation.redeemed with
            | some id =>
                match db.records.find? id with
                | none => .error "route not found"
                | some r =>
                    if r.credential = port.secretHash e.credential
                        ∧ r.route.peerKey = message.document.issuer then .ok (db, r, false)
                    else .error "invitation has already been redeemed"
            | none =>
                match db.yieldRoute port invitation message e now fresh with
                | .error text => .error text
                | .ok (db, r) => .ok (db, r, true)

/-! ### Accepting -/

/-- What an operator accepts an invitation with. -/
structure Acceptance (φ : Type) where
  id : String
  tenant : String
  name : String
  peerName : String
  peerKey : String
  address : String
  endpoint : TradeEndpoint
  notifications : NotificationPolicy
  credential : String
  invitation : SignedPortStatement φ

/-- The route of an operator that accepts an invitation. -/
def Acceptance.outgoingRoute (a : Acceptance φ) : TradeRecord φ where
  route :=
    { id := a.id
      revision := 1
      tenant := a.tenant
      direction := .outgoing
      peerKey := a.peerKey
      endpoint := a.endpoint.id
      forwarding := a.endpoint.forwarding
      metadataKeys := a.endpoint.metadataKeys
      state := .pendingApproval
      remoteGrant := ""
      cancelActive := false }
  credential := a.credential
  name := a.name
  peerName := a.peerName
  address := a.address
  endpointName := a.endpoint.name
  category := a.endpoint.category
  notifications := a.notifications
  lastContact := none
  error := none
  remoteState := "enrolling"
  enrollment := some a.invitation

/-- Saves the route of an accepted invitation; the storage that is saved with it is left out. -/
def PortTables.saveOutgoingTrade (db : PortTables φ) (r : TradeRecord φ) :
    Except String (PortTables φ) :=
  if r.route.tenant ≠ "" ∧ r.route.tenant ∉ db.tenants then .error "tenant missing"
  else if db.records.rows.any (fun other =>
      decide (other.route.tenant = r.route.tenant) && decide (other.route.peerKey = r.route.peerKey)
        && decide (other.route.direction = .outgoing) && decide (other.address ≠ r.address)) then
    .error "this peer has a different saved address; verify and change its connection address first"
  else if routeLimit ≤ db.liveRouteCount r.route.tenant then .error "route limit reached"
  else
    match db.records.insert? r with
    | none => .error "UNIQUE constraint failed: trade_routes.id"
    | some records => .ok { db with records }

/-- The row after the receiver's reply: a state that an operator chose meanwhile stays. -/
def TradeRecord.enrolled (r : TradeRecord φ) (grant : String) (state : TradeState) :
    TradeRecord φ :=
  { r with
    route := { r.route with
      remoteGrant := grant
      state :=
        if r.route.state = .paused ∨ r.route.state = .revoked then r.route.state else state }
    remoteState := state.text
    enrollment := none }

/-- Records the grant of the receiver, where none is recorded. -/
def PortTables.finishTradeEnrollment (db : PortTables φ) (tenant id grant : String)
    (state : TradeState) : PortTables φ :=
  match db.records.find? id with
  | none => db
  | some r =>
      if r.route.tenant = tenant ∧ r.route.remoteGrant = "" then
        { db with records := db.records.upsert (r.enrolled grant state) }
      else db

/-! ### Changing a route -/

/-- An operator's change of a route, at the revision that the operator saw.  The deliveries that
it cancels are left out. -/
def PortTables.updateTradeRoute
    (db : PortTables φ) (tenant id : String) (revision : Nat) (state : String)
    (cancelActive : Bool) (policy : NotificationPolicy) :
    Except String (PortTables φ × TradeRecord φ) :=
  match TradeState.ofText? state with
  | none => .error "choose active, paused or revoked"
  | some state =>
      match policy.validate tradeEvents with
      | .error text => .error text
      | .ok () =>
          match db.records.find? id with
          | none => .error "route not found"
          | some r =>
              if r.route.tenant ≠ tenant ∨ r.route.revision ≠ revision then
                .error "route changed or unavailable; reload before saving"
              else if r.route.state = .revoked ∧ state ≠ .revoked then
                .error "revoked routes require a new invitation"
              else if r.route.direction = .outgoing ∧ r.route.remoteGrant = ""
                  ∧ state = .active then
                .error "finish enrollment first"
              else if state = .pendingApproval ∧ r.route.state ≠ .pendingApproval then
                .error "an existing approval cannot be changed back to pending"
              else
                let r : TradeRecord φ :=
                  { r with
                    route := { r.route with
                      revision := r.route.revision + 1
                      state := state
                      cancelActive := cancelActive }
                    notifications := policy }
                .ok ({ db with records := db.records.upsert r }, r)

/-- The row after a contact with the peer. -/
def TradeRecord.contacted (r : TradeRecord φ) (remoteState : String) (error : Option String)
    (now : UInt64) : TradeRecord φ :=
  { r with
    route := { r.route with
      state :=
        if r.route.direction = .outgoing ∧ r.route.state = .pendingApproval
            ∧ remoteState = "active" then .active
        else r.route.state }
    lastContact := if error = none then some now else r.lastContact
    error := error
    remoteState := remoteState }

/-- Notes a contact with the peer of a route, and says whether anything changed. -/
def PortTables.tradeContact (db : PortTables φ) (tenant id remoteState : String)
    (error : Option String) (now : UInt64) : Except String (PortTables φ × Bool) :=
  match db.records.find? id with
  | none => .error "route not found"
  | some r =>
      if r.route.tenant ≠ tenant then .error "route unavailable"
      else
        .ok ({ db with records := db.records.upsert (r.contacted remoteState error now) },
          decide (r.remoteState ≠ remoteState ∨ r.error ≠ error))

/-! ### Credentials -/

/-- The trade tables, of what a rotation needs of them. -/
def PortTables.trade (db : PortTables φ) : TradeTables where
  routes :=
    { rows := db.records.rows.map TradeRecord.toTradeRow
      nodup := by
        rw [List.map_map]
        exact db.records.nodup }
  rotations := db.rotations

/-- Replaces the credential of a route; done already when it holds the next one. -/
def PortTables.rotateTradeCredential (db : PortTables φ) (id previous next : String) :
    Except String (PortTables φ) :=
  if !validHex next 32 then .error "invalid credential"
  else
    match db.records.find? id with
    | none => .error "Query returned no rows"
    | some r =>
        if r.credential = r.stored port.crates.env next then .ok db
        else if r.credential ≠ r.stored port.crates.env previous then
          .error "credential changed; retry with current credentials"
        else
          .ok { db with
            records := db.records.upsert { r with credential := r.stored port.crates.env next } }

/-- The incoming route that a message proves its right to. -/
def PortTables.authenticateTrade (db : PortTables φ) (message : SignedPortStatement φ)
    (purpose : String) (now : UInt64) : Except String (TradeRecord φ) :=
  if !message.verify port.crates purpose port.publicHex now
      || decide (now + 600 < message.document.expiresAt) then .error "invalid peer proof"
  else
    match message.document.body.text? "grant", message.document.body.text? "credential" with
    | none, _ => .error "missing grant"
    | some _, none => .error "missing credential"
    | some id, some credential =>
        match db.records.find? id with
        | none => .error "route not found"
        | some r =>
            if r.accepts port.crates.env purpose credential
                  ((message.document.body.text? "next").getD "")
                && decide (r.route.peerKey = message.document.issuer) then .ok r
            else .error "route credential or peer identity is invalid"

/-! ### What the operations do -/

section Operations

variable {port} {db db' : PortTables φ}

/-- An invitation that was made. -/
theorem PortTables.create_eq_ok
    {tenant endpoint expectedKey id secret : String} {expiresAt now : UInt64}
    (h : db.createTradeInvitation port tenant endpoint expectedKey expiresAt now id secret
      = .ok db') :
  ∃ invitation invitations, invitation.redeemed = none
    ∧ db.invitations.insert? invitation = some invitations ∧ db' = { db with invitations }
  := by
  rw [createTradeInvitation] at h
  split at h
  · cases h
  · split at h
    · cases h
    · split at h
      · cases h
      · split at h
        · cases h
        · next invitations hinvitations =>
            cases h
            exact ⟨_, invitations, rfl, hinvitations, rfl⟩

/-- A route that an invitation yielded. -/
theorem PortTables.yield_eq_ok
    {invitation : TradeInvitation} {message : SignedPortStatement φ} {e : Enrollment}
    {now : UInt64} {fresh : String} {r : TradeRecord φ}
    (h : db.yieldRoute port invitation message e now fresh = .ok (db', r)) :
  db.liveRouteCount invitation.tenant < routeLimit
    ∧ (∃ endpoint address, r = port.incomingRoute invitation endpoint message e address now fresh)
    ∧ ∃ records, db.records.insert? r = some records
      ∧ db' = { db with
          records
          invitations := db.invitations.upsert { invitation with redeemed := some fresh } }
  := by
  rw [yieldRoute] at h
  split at h
  · cases h
  · split at h
    · cases h
    · next hlimit =>
        split at h
        · cases h
        · next endpoint _ =>
            split at h
            · cases h
            · next address _ =>
                dsimp only at h
                split at h
                · cases h
                · next records hrecords =>
                    cases h
                    exact ⟨not_le.mp hlimit, ⟨endpoint, address, rfl⟩, records, hrecords, rfl⟩

/-- The invitation that a message redeems. -/
def TradeInvitation.Admits (invitation : TradeInvitation) (port : TradePort φ) (e : Enrollment)
    (issuer : String) : Prop :=
  invitation.secretHash = port.secretHash e.secret
    ∧ (invitation.expectedKey = "" ∨ invitation.expectedKey = issuer)

/-- A redemption: a new route, or the one that the invitation yielded already. -/
theorem PortTables.redeem_eq_ok
    {message : SignedPortStatement φ} {now : UInt64} {fresh : String} {r : TradeRecord φ}
    {created : Bool}
    (h : db.redeemTradeInvitation port message now fresh = .ok (db', r, created)) :
  ∃ e invitation, port.enrollment message now = .ok e
    ∧ db.invitations.find? message.document.nonce = some invitation
    ∧ invitation.Admits port e message.document.issuer
    ∧ (created = true ∧ invitation.redeemed = none
        ∧ db.yieldRoute port invitation message e now fresh = .ok (db', r)
      ∨ created = false ∧ db' = db ∧ ∃ id, invitation.redeemed = some id
        ∧ db.records.find? id = some r ∧ r.credential = port.secretHash e.credential
        ∧ r.route.peerKey = message.document.issuer)
  := by
  rw [redeemTradeInvitation] at h
  split at h
  · cases h
  · next e he =>
      split at h
      · cases h
      · next invitation hinvitation =>
          split at h
          · cases h
          · next hadmits =>
              rw [not_or, not_and_or, not_not, not_not, not_not] at hadmits
              refine ⟨e, invitation, he, hinvitation, hadmits, ?_⟩
              split at h
              · next id hredeemed =>
                  split at h
                  · cases h
                  · next r' hr =>
                      split at h
                      · next hsame =>
                          cases h
                          exact .inr ⟨rfl, rfl, id, hredeemed, hr, hsame⟩
                      · cases h
              · next hredeemed =>
                  split at h
                  · cases h
                  · next db'' r' hyield =>
                      cases h
                      exact .inl ⟨rfl, hredeemed, hyield⟩

/-- A route that was saved. -/
theorem PortTables.save_eq_ok {r : TradeRecord φ} (h : db.saveOutgoingTrade r = .ok db') :
  db.liveRouteCount r.route.tenant < routeLimit
    ∧ ∃ records, db.records.insert? r = some records ∧ db' = { db with records }
  := by
  rw [saveOutgoingTrade] at h
  split at h
  · cases h
  · split at h
    · cases h
    · split at h
      · cases h
      · next hlimit =>
          split at h
          · cases h
          · next records hrecords =>
              cases h
              exact ⟨not_le.mp hlimit, records, hrecords, rfl⟩

/-- An enrollment that was finished, or that finds no route without a grant. -/
theorem PortTables.finish_cases (db : PortTables φ) (tenant id grant : String)
    (state : TradeState) :
  db.finishTradeEnrollment tenant id grant state = db
    ∨ ∃ r, db.records.find? id = some r ∧ r.route.remoteGrant = ""
      ∧ db.finishTradeEnrollment tenant id grant state
        = { db with records := db.records.upsert (r.enrolled grant state) }
  := by
  cases hr : db.records.find? id with
  | none =>
      left
      rw [finishTradeEnrollment, hr]
  | some r =>
      by_cases hopen : r.route.tenant = tenant ∧ r.route.remoteGrant = ""
      · right
        refine ⟨r, rfl, hopen.2, ?_⟩
        rw [finishTradeEnrollment, hr]
        exact if_pos hopen
      · left
        rw [finishTradeEnrollment, hr]
        exact if_neg hopen

/-- A row that an operator changed. -/
def TradeRecord.updated (r : TradeRecord φ) (state : TradeState) (cancelActive : Bool)
    (policy : NotificationPolicy) : TradeRecord φ :=
  { r with
    route := { r.route with
      revision := r.route.revision + 1
      state := state
      cancelActive := cancelActive }
    notifications := policy }

/-- A change that was made. -/
theorem PortTables.update_eq_ok
    {tenant id state : String} {revision : Nat} {cancelActive : Bool}
    {policy : NotificationPolicy} {r' : TradeRecord φ}
    (h : db.updateTradeRoute tenant id revision state cancelActive policy = .ok (db', r')) :
  ∃ r chosen, TradeState.ofText? state = some chosen ∧ db.records.find? id = some r
    ∧ r.route.tenant = tenant ∧ r.route.revision = revision
    ∧ (r.route.state = .revoked → chosen = .revoked)
    ∧ (r.route.direction = .outgoing → r.route.remoteGrant = "" → chosen ≠ .active)
    ∧ (chosen = .pendingApproval → r.route.state = .pendingApproval)
    ∧ r' = r.updated chosen cancelActive policy
    ∧ db' = { db with records := db.records.upsert r' }
  := by
  rw [updateTradeRoute] at h
  split at h
  · cases h
  · next chosen hchosen =>
      split at h
      · cases h
      · split at h
        · cases h
        · next r hr =>
            split at h
            · cases h
            · next hplace =>
                rw [not_or, not_not, not_not] at hplace
                split at h
                · cases h
                · next hrevoked =>
                    split at h
                    · cases h
                    · next hgrant =>
                        split at h
                        · cases h
                        · next hpending =>
                            cases h
                            refine ⟨r, chosen, hchosen, hr, hplace.1, hplace.2, ?_, ?_, ?_, rfl, rfl⟩
                            · intro hr
                              exact not_not.mp fun hne => hrevoked ⟨hr, hne⟩
                            · intro ho hg hactive
                              apply hgrant ⟨ho, hg, hactive⟩
                            · intro hp
                              exact not_not.mp fun hne => hpending ⟨hp, hne⟩

/-- A contact that was noted. -/
theorem PortTables.contact_eq_ok
    {tenant id remoteState : String} {error : Option String} {now : UInt64} {changed : Bool}
    (h : db.tradeContact tenant id remoteState error now = .ok (db', changed)) :
  ∃ r, db.records.find? id = some r ∧ r.route.tenant = tenant
    ∧ db' = { db with records := db.records.upsert (r.contacted remoteState error now) }
  := by
  rw [tradeContact] at h
  split at h
  · cases h
  · next r hr =>
      split at h
      · cases h
      · next htenant =>
          cases h
          exact ⟨r, hr, not_not.mp htenant, rfl⟩

/-- A credential that was replaced, or that the route holds already. -/
theorem PortTables.rotate_eq_ok
    {id previous next : String} (h : db.rotateTradeCredential port id previous next = .ok db') :
  db' = db ∨ ∃ r credential, db.records.find? id = some r
    ∧ db' = { db with records := db.records.upsert { r with credential := credential } }
  := by
  rw [rotateTradeCredential] at h
  split at h
  · cases h
  · split at h
    · cases h
    · next r hr =>
        split at h
        · cases h
          exact .inl rfl
        · split at h
          · cases h
          · cases h
            exact .inr ⟨r, _, hr, rfl⟩

/-- A route that a message proves its right to is an incoming one. -/
theorem PortTables.authenticate_eq_ok
    {message : SignedPortStatement φ} {purpose : String} {now : UInt64} {r : TradeRecord φ}
    (h : db.authenticateTrade port message purpose now = .ok r) :
  db.records.find? r.route.id = some r ∧ r.route.direction = .incoming
    ∧ r.route.peerKey = message.document.issuer
  := by
  rw [authenticateTrade] at h
  split at h
  · cases h
  · split at h
    · cases h
    · cases h
    · next id credential _ _ =>
        split at h
        · cases h
        · next r' hr =>
            split at h
            · next hcheck =>
                cases h
                obtain ⟨haccepts, hkey⟩ := Bool.and_eq_true_iff.mp hcheck
                have hid : r.route.id = id := (Table.find?_eq_some.mp hr).2
                refine ⟨hid ▸ hr, ?_, of_decide_eq_true hkey⟩
                rw [TradeRow.accepts, Bool.and_eq_true] at haccepts
                exact of_decide_eq_true haccepts.1
            · cases h

end Operations

/-! ### Rotations on the whole rows -/

theorem PortTables.find?_trade (db : PortTables φ) (id : String) :
  db.trade.routes.find? id = (db.records.find? id).map TradeRecord.toTradeRow
  := List.find?_map

theorem PortTables.trade_upsert (db : PortTables φ) (r : TradeRecord φ) :
  ({ db with records := db.records.upsert r }).trade
    = { db.trade with routes := db.trade.routes.upsert r.toTradeRow }
  := by
  rw [trade, TradeTables.mk.injEq]
  refine ⟨Table.ext ?_, rfl⟩
  have hrest : (db.records.erase r.key).rows.map TradeRecord.toTradeRow
      = (db.trade.routes.erase r.toTradeRow.id).rows := by
    rw [Table.erase, Table.rows_filter, Table.erase, Table.rows_filter]
    exact (List.filter_map (p := fun b : TradeRow => decide (b.id ≠ r.toTradeRow.id))
      (f := TradeRecord.toTradeRow) (l := db.records.rows)).symm
  exact congrArg (r.toTradeRow :: ·) hrest

/-- A rotation on the whole rows is one on what a rotation needs of them. -/
theorem PortTables.trade_rotateTradeCredential (db : PortTables φ) (id previous next : String) :
  (db.rotateTradeCredential port id previous next).map PortTables.trade
    = db.trade.rotateTradeCredential port.crates.env id previous next
  := by
  rw [rotateTradeCredential, TradeTables.rotateTradeCredential, find?_trade]
  by_cases hvalid : validHex next 32 = true
  · rw [if_neg (by simp [hvalid]), if_neg (by simp [hvalid])]
    cases hr : db.records.find? id with
    | none => rfl
    | some r =>
        by_cases hsame : r.credential = r.stored port.crates.env next
        · simp only [Option.map_some, if_pos hsame]
          rfl
        · by_cases hprevious : r.credential = r.stored port.crates.env previous
          · simp only [Option.map_some, if_neg hsame, if_neg (not_not.mpr hprevious)]
            exact congrArg Except.ok (trade_upsert db _)
          · simp only [Option.map_some, if_neg hsame, if_pos hprevious]
            rfl
  · rw [if_pos (by simp [hvalid]), if_pos (by simp [hvalid])]
    rfl

end Votport
