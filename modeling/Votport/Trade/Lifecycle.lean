import Votport.Foundation.Runs
import Votport.Trade.Invitations

/-!
# The life of trade routes

A port creates, prunes and redeems invitations, accepts those of others, changes its routes and
hears of their peers, in any order.  What it hears comes from exchanges that were begun earlier:
an enrollment, a check of a route's status, or a check of the peer.  Operators and rotations go
on meanwhile, so that what an exchange brings may be about a route that has changed since.
-/

namespace Votport

variable {φ : Type} (port : TradePort φ)

/-! ### Exchanges -/

/-- What an exchange was begun for: to enroll a route, whose invitation may be gone, to check the
status of an enrolled route, or to answer such a check of the peer. -/
inductive TradeExchangeKind
  | enroll (invited : Bool)
  | refresh
  | peer
deriving DecidableEq, Repr

/-- An exchange about a route. -/
structure TradeExchange where
  kind : TradeExchangeKind
  tenant : String
  id : String
deriving DecidableEq, Repr

/-- What comes of an exchange: it fails, with a peer of another identity or without, it brings the
state of the route at the peer, or the peer was heard of. -/
inductive TradeReport
  | failed (mismatch : Bool) (error : String)
  | answered (state : TradeState)
  | seen
deriving DecidableEq, Repr

/-- The state and the error that are noted of an exchange. -/
def TradeExchange.noted (e : TradeExchange) : TradeReport → Option (String × Option String)
  | .failed mismatch error =>
      if e.kind = .peer then none
      else some (if mismatch then "identity_mismatch" else "unreachable", some error)
  | .answered state => if e.kind = .refresh then some (state.text, none) else none
  | .seen => if e.kind = .peer then some ("active", none) else none

/-- The tables of a port, the exchanges it has begun, and the invitations that yielded a route
with the route. -/
structure TradeWorld (φ : Type) where
  db : PortTables φ
  exchanges : List TradeExchange
  yields : List (String × String)

/-- A step of the port. -/
inductive TradeOp (φ : Type)
  | invite (tenant endpoint expectedKey : String) (expiresAt now : UInt64) (id secret : String)
  | prune (now : UInt64)
  | redeem (message : SignedPortStatement φ) (now : UInt64) (fresh : String)
  | accept (a : Acceptance φ)
  /-- The enrollment of an outgoing route is begun. -/
  | enroll (tenant id : String)
  /-- A check of the status of an outgoing route is begun. -/
  | refresh (tenant id : String)
  /-- A check of the peer is authenticated. -/
  | status (message : SignedPortStatement φ) (now : UInt64)
  /-- The receiver's reply to an enrollment arrives. -/
  | finish (exchange : Nat) (grant : String) (state : TradeState)
  | contact (exchange : Nat) (report : TradeReport) (now : UInt64)
  | update (tenant id : String) (revision : Nat) (state : String) (cancelActive : Bool)
      (policy : NotificationPolicy)
  | rotate (id previous next : String)
  | pend (tenant id fresh : String)
  | clear (id next : String)

/-- The outgoing route of a tenant. -/
def PortTables.outgoing (db : PortTables φ) (tenant id : String) : Option (TradeRecord φ) :=
  (db.records.find? id).filter fun r =>
    decide (r.route.tenant = tenant) && decide (r.route.direction = .outgoing)

/-- One step, none when it is not possible or fails. -/
def TradeWorld.step (w : TradeWorld φ) : TradeOp φ → Option (TradeWorld φ)
  | .invite tenant endpoint expectedKey expiresAt now id secret =>
      match w.db.createTradeInvitation port tenant endpoint expectedKey expiresAt now id secret with
      | .error _ => none
      | .ok db => some { w with db }
  | .prune now => some { w with db := w.db.pruneTradeInvitations now }
  | .redeem message now fresh =>
      match w.db.redeemTradeInvitation port message now fresh with
      | .error _ => none
      | .ok (db, r, created) =>
          some { w with
            db
            yields :=
              if created then w.yields ++ [(message.document.nonce, r.route.id)] else w.yields }
  | .accept a =>
      match w.db.saveOutgoingTrade a.outgoingRoute with
      | .error _ => none
      | .ok db => some { w with db }
  | .enroll tenant id =>
      (w.db.outgoing tenant id).map fun r =>
        { w with exchanges := w.exchanges ++ [⟨.enroll r.enrollment.isSome, tenant, id⟩] }
  | .refresh tenant id =>
      (w.db.outgoing tenant id).bind fun r =>
        if r.route.remoteGrant = "" then none
        else some { w with exchanges := w.exchanges ++ [⟨.refresh, tenant, id⟩] }
  | .status message now =>
      match w.db.authenticateTrade port message "status" now with
      | .error _ => none
      | .ok r =>
          if r.route.state = .revoked then none
          else some { w with exchanges := w.exchanges ++ [⟨.peer, r.route.tenant, r.route.id⟩] }
  | .finish i grant state =>
      w.exchanges[i]?.bind fun e =>
        if e.kind = .enroll true ∧ isId grant = true then
          some { w with db := w.db.finishTradeEnrollment e.tenant e.id grant state }
        else none
  | .contact i report now =>
      w.exchanges[i]?.bind fun e => (e.noted report).bind fun noted =>
        match w.db.tradeContact e.tenant e.id noted.1 noted.2 now with
        | .error _ => none
        | .ok (db, _) => some { w with db }
  | .update tenant id revision state cancelActive policy =>
      match w.db.updateTradeRoute tenant id revision state cancelActive policy with
      | .error _ => none
      | .ok (db, _) => some { w with db }
  | .rotate id previous next =>
      match w.db.rotateTradeCredential port id previous next with
      | .error _ => none
      | .ok db => some { w with db }
  | .pend tenant id fresh =>
      match w.db.trade.pendingTradeRotation tenant id fresh with
      | .error _ => none
      | .ok (_, trade) => some { w with db := { w.db with rotations := trade.rotations } }
  | .clear id next =>
      some { w with db := { w.db with rotations := (w.db.trade.clearTradeRotation id next).rotations } }

/-- A port without routes and invitations. -/
structure TradeWorld.Fresh (w : TradeWorld φ) : Prop where
  invitations : w.db.invitations.rows = []
  records : w.db.records.rows = []
  exchanges : w.exchanges = []
  yields : w.yields = []

/-! ### What a step does to a route -/

/-- A step changes a row: an enrollment that is finished, an operator's change, a contact, which
makes an outgoing route active only where a grant is recorded, or a rotation. -/
inductive TradeRecord.Change : TradeOp φ → TradeRecord φ → TradeRecord φ → Prop
  | finish {i : Nat} {grant : String} {state : TradeState} {r : TradeRecord φ}
      (hopen : r.route.remoteGrant = "") (hgrant : grant ≠ "")
      (hdirection : r.route.direction = .outgoing) :
      Change (.finish i grant state) r (r.enrolled grant state)
  | update {tenant id text : String} {revision : Nat} {cancelActive : Bool}
      {policy : NotificationPolicy} {state : TradeState} {r : TradeRecord φ}
      (htext : TradeState.ofText? text = some state) (hid : r.route.id = id)
      (hrevision : r.route.revision = revision)
      (hrevoked : r.route.state = .revoked → state = .revoked)
      (hgrant : r.route.direction = .outgoing → r.route.remoteGrant = "" → state ≠ .active)
      (hpending : state = .pendingApproval → r.route.state = .pendingApproval) :
      Change (.update tenant id revision text cancelActive policy) r
        (r.updated state cancelActive policy)
  | contact {i : Nat} {report : TradeReport} {now : UInt64} {remoteState : String}
      {error : Option String} {r : TradeRecord φ}
      (hgrant : r.route.direction = .outgoing → remoteState = "active" →
        r.route.remoteGrant ≠ "") :
      Change (.contact i report now) r (r.contacted remoteState error now)
  | rotate {id previous next : String} {r : TradeRecord φ} (credential : String) :
      Change (.rotate id previous next) r { r with credential := credential }

/-- An active outgoing route has a grant. -/
def TradeRecord.Granted (r : TradeRecord φ) : Prop :=
  r.route.direction = .outgoing → r.route.state = .active → r.route.remoteGrant ≠ ""

/-- What stays of a row in every step: what it is a route of, that it was revoked, that it is not
pending, and its grant. -/
structure TradeRecord.Stays (r r' : TradeRecord φ) : Prop where
  id : r'.route.id = r.route.id
  tenant : r'.route.tenant = r.route.tenant
  direction : r'.route.direction = r.route.direction
  peerKey : r'.route.peerKey = r.route.peerKey
  revoked : r.route.state = .revoked → r'.route.state = .revoked
  approved : r.route.state ≠ .pendingApproval → r'.route.state ≠ .pendingApproval
  grant : r.route.remoteGrant ≠ "" → r'.route.remoteGrant = r.route.remoteGrant

theorem TradeRecord.Stays.refl (r : TradeRecord φ) : r.Stays r :=
  ⟨rfl, rfl, rfl, rfl, fun h => h, fun h => h, fun _ => rfl⟩

theorem TradeRecord.Stays.trans {r r' r'' : TradeRecord φ} (h : r.Stays r') (h' : r'.Stays r'') :
  r.Stays r''
  where
    id := h'.id.trans h.id
    tenant := h'.tenant.trans h.tenant
    direction := h'.direction.trans h.direction
    peerKey := h'.peerKey.trans h.peerKey
    revoked hr := h'.revoked (h.revoked hr)
    approved hr := h'.approved (h.approved hr)
    grant hr := by
      have hg := h.grant hr
      rw [h'.grant (hg ▸ hr), hg]

/-- The text of a state that an operator chooses. -/
theorem TradeState.ofText?_eq_active {text : String} (h : ofText? text = some .active) :
  text = "active"
  := by
  rw [ofText?] at h
  split_ifs at h with hpending hactive
  · cases h
  · exact hactive
  · cases h
  · cases h

namespace TradeRecord.Change

variable {op : TradeOp φ} {r r' : TradeRecord φ}

theorem stays (h : Change op r r') (hr : r.Granted) : r.Stays r' := by
  cases h with
  | finish hopen hgrant hdirection =>
      refine ⟨rfl, rfl, rfl, rfl, ?_, ?_, fun hg => absurd hopen hg⟩
      · intro hrevoked
        exact (if_pos (.inr hrevoked)).trans hrevoked
      · intro hstate
        -- without a grant the route is not active, so that an operator paused or revoked it
        have hchosen : r.route.state = .paused ∨ r.route.state = .revoked := by
          cases hs : r.route.state with
          | pendingApproval => exact absurd hs hstate
          | active => exact absurd hopen (hr hdirection hs)
          | paused => exact .inl rfl
          | revoked => exact .inr rfl
        exact (if_pos hchosen).trans_ne hstate
  | update htext hid hrevision hrevoked hgrant hpending =>
      exact ⟨rfl, rfl, rfl, rfl, hrevoked, fun hstate hp => hstate (hpending hp), fun _ => rfl⟩
  | contact hgrant =>
      refine ⟨rfl, rfl, rfl, rfl, ?_, ?_, fun _ => rfl⟩
      · intro hrevoked
        refine (if_neg ?_).trans hrevoked
        rintro ⟨-, hp, -⟩
        cases hrevoked.symm.trans hp
      · intro hstate
        refine (if_neg ?_).trans_ne hstate
        rintro ⟨-, hp, -⟩
        apply hstate hp
  | rotate credential => exact ⟨rfl, rfl, rfl, rfl, fun h => h, fun h => h, fun _ => rfl⟩

theorem granted (h : Change op r r') (hr : r.Granted) : r'.Granted := by
  cases h with
  | finish hopen hgrant hdirection =>
      intro _ _
      apply hgrant
  | update htext hid hrevision hrevoked hgrant hpending =>
      intro hdirection hactive hg
      apply hgrant hdirection hg hactive
  | @contact i report now remoteState error _ hgrant =>
      intro hdirection hactive
      by_cases hmade : r.route.direction = .outgoing ∧ r.route.state = .pendingApproval
          ∧ remoteState = "active"
      · exact hgrant hmade.1 hmade.2.2
      · apply hr hdirection
        rw [← hactive]
        exact (if_neg hmade).symm
  | rotate credential => exact hr

/-- An incoming route becomes active by an operator's change at its revision. -/
theorem active (h : Change op r r') (hincoming : r.route.direction = .incoming)
    (hactive : r'.route.state = .active) :
  r.route.state = .active
    ∨ ∃ tenant cancelActive policy,
      op = .update tenant r.route.id r.route.revision "active" cancelActive policy
  := by
  cases h with
  | finish hopen hgrant hdirection => cases hincoming.symm.trans hdirection
  | update htext hid hrevision hrevoked hgrant hpending =>
      right
      obtain rfl := TradeState.ofText?_eq_active (htext.trans (congrArg some hactive))
      exact ⟨_, _, _, by rw [hid, hrevision]⟩
  | @contact i report now remoteState error _ hgrant =>
      left
      rw [← hactive]
      refine (if_neg ?_).symm
      rintro ⟨hdirection, -⟩
      cases hincoming.symm.trans hdirection
  | rotate credential => exact .inl hactive

/-- A grant is recorded where an enrollment is finished. -/
theorem grant (h : Change op r r') (hopen : r.route.remoteGrant = "")
    (hgrant : r'.route.remoteGrant ≠ "") :
  ∃ i state, op = .finish i r'.route.remoteGrant state
  := by
  cases h with
  | @finish i grant state _ _ _ => exact ⟨i, state, rfl⟩
  | update => exact absurd hopen hgrant
  | contact => exact absurd hopen hgrant
  | rotate => exact absurd hopen hgrant

/-- A route that is live was so. -/
theorem live (h : Change op r r') (hr : r.Granted) {tenant : String}
    (hlive : r'.live tenant = true) :
  r.live tenant = true
  := by
  have hstays := h.stays hr
  rw [TradeRecord.live, Bool.and_eq_true, decide_eq_true_eq, decide_eq_true_eq] at hlive ⊢
  exact ⟨hstays.tenant ▸ hlive.1, fun hrevoked => hlive.2 (hstays.revoked hrevoked)⟩

end TradeRecord.Change

/-! ### The invariant -/

/-- The route of an exchange is one of its kind. -/
def TradeExchange.Kept (db : PortTables φ) (e : TradeExchange) : Prop :=
  ∃ r, db.records.find? e.id = some r ∧ r.route.tenant = e.tenant
    ∧ match e.kind with
      | .enroll _ => r.route.direction = .outgoing
      | .refresh => r.route.direction = .outgoing ∧ r.route.remoteGrant ≠ ""
      | .peer => r.route.direction = .incoming

/-- An invitation that yielded a route names it, and the route is of the key that the invitation
names. -/
def PortTables.Yielded (db : PortTables φ) (i id : String) : Prop :=
  ∃ invitation r, db.invitations.find? i = some invitation ∧ invitation.redeemed = some id
    ∧ db.records.find? id = some r ∧ r.route.direction = .incoming
    ∧ (invitation.expectedKey = "" ∨ r.route.peerKey = invitation.expectedKey)

/-- What holds in every run. -/
structure TradeWorld.Kept (w : TradeWorld φ) : Prop where
  granted : ∀ r ∈ w.db.records.rows, r.Granted
  limit : ∀ tenant, w.db.liveRouteCount tenant ≤ routeLimit
  exchanges : ∀ e ∈ w.exchanges, e.Kept w.db
  once : (w.yields.map Prod.fst).Nodup
  yielded : ∀ y ∈ w.yields, w.db.Yielded y.1 y.2
  redeemed : ∀ invitation ∈ w.db.invitations.rows, ∀ id, invitation.redeemed = some id →
    (invitation.id, id) ∈ w.yields

theorem TradeWorld.Fresh.kept {w : TradeWorld φ} (h : w.Fresh) : w.Kept := by
  refine ⟨?_, ?_, ?_, ?_, ?_, ?_⟩
  · rw [h.records]
    intro r hr
    cases hr
  · intro tenant
    rw [PortTables.liveRouteCount, h.records, List.countP_nil]
    apply Nat.zero_le
  · rw [h.exchanges]
    intro e he
    cases he
  · rw [h.yields]
    apply List.nodup_nil
  · rw [h.yields]
    intro y hy
    cases hy
  · rw [h.invitations]
    intro invitation hi
    cases hi

/-- The rows after a step: the same, with one that changed, or with a new one. -/
inductive RecordsMove (op : TradeOp φ) (records : Table (TradeRecord.key (φ := φ))) :
    Table (TradeRecord.key (φ := φ)) → Prop
  | same : RecordsMove op records records
  | change {r r' : TradeRecord φ} (hr : records.find? r.route.id = some r)
      (h : TradeRecord.Change op r r') : RecordsMove op records (records.upsert r')
  | new {r : TradeRecord φ} {records' : Table (TradeRecord.key (φ := φ))}
      (hr : records.insert? r = some records')
      (hlimit : records.rows.countP (TradeRecord.live r.route.tenant) < routeLimit)
      (hgranted : r.Granted) (hopen : r.route.remoteGrant = "") :
      RecordsMove op records records'

variable {port} {w w' : TradeWorld φ} {op : TradeOp φ}

theorem PortTables.outgoing_eq_some
    {db : PortTables φ} {tenant id : String} {r : TradeRecord φ}
    (h : db.outgoing tenant id = some r) :
  db.records.find? id = some r ∧ r.route.tenant = tenant ∧ r.route.direction = .outgoing
  := by
  obtain ⟨hr, hkind⟩ := Option.filter_eq_some_iff.mp h
  rw [Bool.and_eq_true, decide_eq_true_eq, decide_eq_true_eq] at hkind
  exact ⟨hr, hkind⟩

/-- What an exchange notes makes a route active only where a grant is recorded. -/
theorem TradeExchange.Kept.noted
    {db : PortTables φ} {e : TradeExchange} (h : e.Kept db) {report : TradeReport}
    {noted : String × Option String} (hnoted : e.noted report = some noted) {r : TradeRecord φ}
    (hr : db.records.find? e.id = some r) (hdirection : r.route.direction = .outgoing)
    (hactive : noted.1 = "active") :
  r.route.remoteGrant ≠ ""
  := by
  obtain ⟨r', hr', _, hkind⟩ := h
  obtain rfl : r = r' := Option.some.inj (hr.symm.trans hr')
  cases report with
  | failed mismatch error =>
      rw [TradeExchange.noted] at hnoted
      split at hnoted
      · cases hnoted
      · cases hnoted
        cases mismatch
        · cases (show "unreachable" ≠ "active" by decide) hactive
        · cases (show "identity_mismatch" ≠ "active" by decide) hactive
  | answered state =>
      rw [TradeExchange.noted] at hnoted
      split at hnoted
      · next hrefresh =>
          rw [hrefresh] at hkind
          exact hkind.2
      · cases hnoted
  | seen =>
      rw [TradeExchange.noted] at hnoted
      split at hnoted
      · next hpeer =>
          rw [hpeer] at hkind
          cases hkind.symm.trans hdirection
      · cases hnoted

/-- What a step does to the rows. -/
theorem TradeWorld.records_step (hw : w.Kept) (h : w.step port op = some w') :
  RecordsMove op w.db.records w'.db.records
  := by
  cases op with
  | invite tenant endpoint expectedKey expiresAt now id secret =>
      rw [step] at h
      split at h
      · cases h
      · next db hdb =>
          cases h
          obtain ⟨_, _, _, _, rfl⟩ := PortTables.create_eq_ok hdb
          exact .same
  | prune now =>
      cases h
      exact .same
  | redeem message now fresh =>
      rw [step] at h
      split at h
      · cases h
      · next db r created hdb =>
          cases h
          obtain ⟨e, invitation, _, _, _, ⟨_, _, hyield⟩ | ⟨_, rfl, _⟩⟩ :=
            PortTables.redeem_eq_ok hdb
          · obtain ⟨hlimit, ⟨endpoint, address, rfl⟩, records, hrecords, rfl⟩ :=
              PortTables.yield_eq_ok hyield
            exact .new hrecords hlimit nofun rfl
          · exact .same
  | accept a =>
      rw [step] at h
      split at h
      · cases h
      · next db hdb =>
          cases h
          obtain ⟨hlimit, records, hrecords, rfl⟩ := PortTables.save_eq_ok hdb
          exact .new hrecords hlimit nofun rfl
  | enroll tenant id =>
      obtain ⟨r, _, rfl⟩ := Option.map_eq_some_iff.mp h
      exact .same
  | refresh tenant id =>
      obtain ⟨r, _, hr⟩ := Option.bind_eq_some_iff.mp h
      split at hr
      · cases hr
      · cases hr
        exact .same
  | status message now =>
      rw [step] at h
      split at h
      · cases h
      · split at h
        · cases h
        · cases h
          exact .same
  | finish i grant state =>
      obtain ⟨e, he, hfinish⟩ := Option.bind_eq_some_iff.mp h
      split at hfinish
      · next hkind =>
          cases hfinish
          obtain ⟨r', hr', _, hdirection⟩ := hw.exchanges e (List.mem_of_getElem? he)
          rw [hkind.1] at hdirection
          rcases w.db.finish_cases e.tenant e.id grant state with hsame | ⟨r, hr, hopen, hdb⟩
          · rw [hsame]
            exact .same
          · obtain rfl : r = r' := Option.some.inj (hr.symm.trans hr')
            rw [hdb]
            have hid : r.route.id = e.id := (Table.find?_eq_some.mp hr).2
            refine .change (hid ▸ hr) (.finish hopen ?_ hdirection)
            rintro rfl
            exact absurd hkind.2 (by decide)
      · cases hfinish
  | contact i report now =>
      obtain ⟨e, he, hcontact⟩ := Option.bind_eq_some_iff.mp h
      obtain ⟨noted, hnoted, hcontact⟩ := Option.bind_eq_some_iff.mp hcontact
      split at hcontact
      · cases hcontact
      · next db changed hdb =>
          cases hcontact
          obtain ⟨r, hr, _, rfl⟩ := PortTables.contact_eq_ok hdb
          have hid : r.route.id = e.id := (Table.find?_eq_some.mp hr).2
          refine .change (hid ▸ hr) (.contact ?_)
          intro hdirection hactive
          exact (hw.exchanges e (List.mem_of_getElem? he)).noted hnoted hr hdirection hactive
  | update tenant id revision state cancelActive policy =>
      rw [step] at h
      split at h
      · cases h
      · next db r' hdb =>
          cases h
          obtain ⟨r, chosen, htext, hr, _, hrevision, hrevoked, hgrant, hpending, rfl, rfl⟩ :=
            PortTables.update_eq_ok hdb
          have hid : r.route.id = id := (Table.find?_eq_some.mp hr).2
          exact .change (hid ▸ hr) (.update htext hid hrevision hrevoked hgrant hpending)
  | rotate id previous next =>
      rw [step] at h
      split at h
      · cases h
      · next db hdb =>
          cases h
          rcases PortTables.rotate_eq_ok hdb with rfl | ⟨r, credential, hr, rfl⟩
          · exact .same
          · have hid : r.route.id = id := (Table.find?_eq_some.mp hr).2
            exact .change (hid ▸ hr) (.rotate credential)
  | pend tenant id fresh =>
      rw [step] at h
      split at h
      · cases h
      · cases h
        exact .same
  | clear id next =>
      cases h
      exact .same

namespace RecordsMove

variable {records records' : Table (TradeRecord.key (φ := φ))}

/-- Every row is still there, and what stays of it does. -/
theorem stays (h : RecordsMove op records records') (hgranted : ∀ r ∈ records.rows, r.Granted)
    {id : String} {r : TradeRecord φ} (hr : records.find? id = some r) :
  ∃ r', records'.find? id = some r' ∧ r.Stays r'
  := by
  cases h with
  | same => exact ⟨r, hr, .refl r⟩
  | @change s s' hs hchange =>
      have hstays := hchange.stays (hgranted s (Table.find?_eq_some.mp hs).1)
      by_cases hid : id = s'.key
      · refine ⟨s', by rw [Table.find?_upsert, if_pos hid], ?_⟩
        have hkey : id = s.route.id := hid.trans hstays.id
        obtain rfl : r = s := Option.some.inj (hr.symm.trans (hkey ▸ hs))
        exact hstays
      · exact ⟨r, by rw [Table.find?_upsert, if_neg hid, hr], .refl r⟩
  | @new s _ hs _ _ _ =>
      refine ⟨r, ?_, .refl r⟩
      rw [Table.find?_insert? hs, if_neg, hr]
      rintro rfl
      cases hr.symm.trans (Table.insert?_eq_some.mp hs).1

theorem granted (h : RecordsMove op records records')
    (hgranted : ∀ r ∈ records.rows, r.Granted) :
  ∀ r ∈ records'.rows, r.Granted
  := by
  intro r hr
  cases h with
  | same => exact hgranted r hr
  | @change s s' hs hchange =>
      rcases Table.mem_upsert.mp hr with rfl | ⟨hr, _⟩
      · exact hchange.granted (hgranted s (Table.find?_eq_some.mp hs).1)
      · exact hgranted r hr
  | @new s _ hs _ hnew _ =>
      rw [(Table.insert?_eq_some.mp hs).2] at hr
      rcases List.mem_cons.mp hr with rfl | hr
      · exact hnew
      · exact hgranted r hr

/-- A new row is one where there is room for it, and no other becomes live. -/
theorem limit (h : RecordsMove op records records')
    (hgranted : ∀ r ∈ records.rows, r.Granted) {tenant : String}
    (hlimit : records.rows.countP (TradeRecord.live tenant) ≤ routeLimit) :
  records'.rows.countP (TradeRecord.live tenant) ≤ routeLimit
  := by
  cases h with
  | same => exact hlimit
  | @change s s' hs hchange =>
      have hold := hgranted s (Table.find?_eq_some.mp hs).1
      have hid : s'.key = s.route.id := (hchange.stays hold).id
      have hcount := Table.countP_upsert (hid ▸ hs) (TradeRecord.live tenant)
      have hlive : (if s'.live tenant then 1 else 0) ≤ if s.live tenant then 1 else 0 := by
        by_cases hs' : s'.live tenant = true
        · rw [if_pos hs', if_pos (hchange.live hold hs')]
        · rw [if_neg hs']
          apply Nat.zero_le
      omega
  | @new s _ hs hroom _ _ =>
      rw [(Table.insert?_eq_some.mp hs).2, List.countP_cons]
      by_cases hs' : s.live tenant = true
      · rw [if_pos hs']
        have htenant : s.route.tenant = tenant :=
          of_decide_eq_true (Bool.and_eq_true_iff.mp hs').1
        rw [← htenant]
        exact hroom
      · rw [if_neg hs']
        exact hlimit

/-- An active incoming row is new, or was active, or an operator made it active. -/
theorem active (h : RecordsMove op records records')
    {r' : TradeRecord φ} (hr' : r' ∈ records'.rows) (hincoming : r'.route.direction = .incoming)
    (hactive : r'.route.state = .active) (hgranted : ∀ r ∈ records.rows, r.Granted) :
  records.find? r'.route.id = none
    ∨ ∃ r, records.find? r'.route.id = some r ∧ (r.route.state = .active
      ∨ ∃ tenant cancelActive policy,
        op = .update tenant r.route.id r.route.revision "active" cancelActive policy)
  := by
  cases h with
  | same => exact .inr ⟨r', Table.find?_key hr', .inl hactive⟩
  | @change s s' hs hchange =>
      right
      rcases Table.mem_upsert.mp hr' with rfl | ⟨hr', _⟩
      · have hstays := hchange.stays (hgranted s (Table.find?_eq_some.mp hs).1)
        refine ⟨s, hstays.id ▸ hs, ?_⟩
        exact hchange.active (hstays.direction ▸ hincoming) hactive
      · exact ⟨r', Table.find?_key hr', .inl hactive⟩
  | @new s _ hs _ _ _ =>
      rw [(Table.insert?_eq_some.mp hs).2] at hr'
      rcases List.mem_cons.mp hr' with rfl | hr'
      · exact .inl (Table.insert?_eq_some.mp hs).1
      · exact .inr ⟨r', Table.find?_key hr', .inl hactive⟩

/-- A grant was recorded before, or is where an enrollment is finished. -/
theorem grant (h : RecordsMove op records records')
    (hgranted : ∀ r ∈ records.rows, r.Granted) {r' : TradeRecord φ} (hr' : r' ∈ records'.rows)
    (hgrant : r'.route.remoteGrant ≠ "") :
  (∃ r, records.find? r'.route.id = some r ∧ r.route.remoteGrant = r'.route.remoteGrant)
    ∨ ∃ i state, op = .finish i r'.route.remoteGrant state
  := by
  cases h with
  | same => exact .inl ⟨r', Table.find?_key hr', rfl⟩
  | @change s s' hs hchange =>
      have hstays := hchange.stays (hgranted s (Table.find?_eq_some.mp hs).1)
      rcases Table.mem_upsert.mp hr' with rfl | ⟨hr', _⟩
      · by_cases hopen : s.route.remoteGrant = ""
        · exact .inr (hchange.grant hopen hgrant)
        · exact .inl ⟨s, hstays.id ▸ hs, (hstays.grant hopen).symm⟩
      · exact .inl ⟨r', Table.find?_key hr', rfl⟩
  | @new s _ hs _ _ hopen =>
      rw [(Table.insert?_eq_some.mp hs).2] at hr'
      rcases List.mem_cons.mp hr' with rfl | hr'
      · exact absurd hopen hgrant
      · exact .inl ⟨r', Table.find?_key hr', rfl⟩

end RecordsMove

/-! ### What a step does to the invitations -/

/-- The invitations after a step: those that were redeemed are still there and no others are, or
one that was not yields a new route. -/
inductive YieldsMove (w w' : TradeWorld φ) : Prop
  | same (hyields : w'.yields = w.yields)
      (hkeeps : ∀ i invitation, w.db.invitations.find? i = some invitation →
        invitation.redeemed ≠ none → w'.db.invitations.find? i = some invitation)
      (hold : ∀ invitation ∈ w'.db.invitations.rows, invitation.redeemed ≠ none →
        invitation ∈ w.db.invitations.rows)
  | yield {invitation : TradeInvitation} {r : TradeRecord φ}
      (hyields : w'.yields = w.yields ++ [(invitation.id, r.route.id)])
      (hi : w.db.invitations.find? invitation.id = some invitation)
      (hfree : invitation.redeemed = none)
      (hinvitations : w'.db.invitations
        = w.db.invitations.upsert { invitation with redeemed := some r.route.id })
      (hr : w.db.records.insert? r = some w'.db.records)
      (hdirection : r.route.direction = .incoming)
      (hkey : invitation.expectedKey = "" ∨ r.route.peerKey = invitation.expectedKey)
      (hstate : invitation.expectedKey = "" → r.route.state = .pendingApproval)

/-- A step that leaves the invitations. -/
theorem YieldsMove.unchanged (hyields : w'.yields = w.yields)
    (hinvitations : w'.db.invitations = w.db.invitations) :
  YieldsMove w w'
  := .same hyields (fun _ _ h _ => hinvitations ▸ h) (fun _ h _ => hinvitations ▸ h)

theorem TradeWorld.yields_step (h : w.step port op = some w') : YieldsMove w w' := by
  cases op with
  | invite tenant endpoint expectedKey expiresAt now id secret =>
      rw [step] at h
      split at h
      · cases h
      · next db hdb =>
          cases h
          obtain ⟨invitation, invitations, hfree, hinsert, rfl⟩ := PortTables.create_eq_ok hdb
          refine .same rfl ?_ ?_
          · intro i other hi _
            rw [Table.find?_insert? hinsert, if_neg, hi]
            rintro rfl
            cases hi.symm.trans (Table.insert?_eq_some.mp hinsert).1
          · intro other hother hredeemed
            rw [(Table.insert?_eq_some.mp hinsert).2] at hother
            rcases List.mem_cons.mp hother with rfl | hother
            · exact absurd hfree hredeemed
            · exact hother
  | prune now =>
      cases h
      refine .same rfl ?_ ?_
      · intro i invitation hi hredeemed
        rw [PortTables.pruneTradeInvitations, Table.find?_filter, hi]
        exact Option.filter_some_pos (by simp [hredeemed])
      · intro invitation hi _
        exact (Table.mem_filter.mp hi).1
  | redeem message now fresh =>
      rw [step] at h
      split at h
      · cases h
      · next db r created hdb =>
          cases h
          obtain ⟨e, invitation, _, hi, hadmits, hcase⟩ := PortTables.redeem_eq_ok hdb
          have hid : invitation.id = message.document.nonce := (Table.find?_eq_some.mp hi).2
          rcases hcase with ⟨rfl, hfree, hyield⟩ | ⟨rfl, rfl, _⟩
          · obtain ⟨_, ⟨endpoint, address, rfl⟩, records, hrecords, rfl⟩ :=
              PortTables.yield_eq_ok hyield
            refine .yield (by rw [hid]; rfl) (hid ▸ hi) hfree rfl hrecords rfl ?_ ?_
            · exact hadmits.2.imp_right Eq.symm
            · intro hnone
              exact if_pos hnone
          · exact .unchanged rfl rfl
  | accept a =>
      rw [step] at h
      split at h
      · cases h
      · next db hdb =>
          cases h
          obtain ⟨_, records, _, rfl⟩ := PortTables.save_eq_ok hdb
          exact .unchanged rfl rfl
  | enroll tenant id =>
      obtain ⟨r, _, rfl⟩ := Option.map_eq_some_iff.mp h
      exact .unchanged rfl rfl
  | refresh tenant id =>
      obtain ⟨r, _, hr⟩ := Option.bind_eq_some_iff.mp h
      split at hr
      · cases hr
      · cases hr
        exact .unchanged rfl rfl
  | status message now =>
      rw [step] at h
      split at h
      · cases h
      · split at h
        · cases h
        · cases h
          exact .unchanged rfl rfl
  | finish i grant state =>
      obtain ⟨e, _, hfinish⟩ := Option.bind_eq_some_iff.mp h
      split at hfinish
      · cases hfinish
        rcases w.db.finish_cases e.tenant e.id grant state with hsame | ⟨r, _, _, hdb⟩
        · exact .unchanged rfl (by simp only [hsame])
        · exact .unchanged rfl (by simp only [hdb])
      · cases hfinish
  | contact i report now =>
      obtain ⟨e, _, hcontact⟩ := Option.bind_eq_some_iff.mp h
      obtain ⟨noted, _, hcontact⟩ := Option.bind_eq_some_iff.mp hcontact
      split at hcontact
      · cases hcontact
      · next db changed hdb =>
          cases hcontact
          obtain ⟨r, _, _, rfl⟩ := PortTables.contact_eq_ok hdb
          exact .unchanged rfl rfl
  | update tenant id revision state cancelActive policy =>
      rw [step] at h
      split at h
      · cases h
      · next db r' hdb =>
          cases h
          obtain ⟨r, chosen, _, _, _, _, _, _, _, _, rfl⟩ := PortTables.update_eq_ok hdb
          exact .unchanged rfl rfl
  | rotate id previous next =>
      rw [step] at h
      split at h
      · cases h
      · next db hdb =>
          cases h
          rcases PortTables.rotate_eq_ok hdb with rfl | ⟨r, credential, _, rfl⟩
          · exact .unchanged rfl rfl
          · exact .unchanged rfl rfl
  | pend tenant id fresh =>
      rw [step] at h
      split at h
      · cases h
      · cases h
        exact .unchanged rfl rfl
  | clear id next =>
      cases h
      exact .unchanged rfl rfl

/-- The exchanges after a step were there, or one was begun about a route of its kind. -/
theorem TradeWorld.exchanges_step (hw : w.Kept) (h : w.step port op = some w') :
  ∀ e ∈ w'.exchanges, e.Kept w.db
  := by
  have hnew : ∀ {e : TradeExchange}, e.Kept w.db → w'.exchanges = w.exchanges ++ [e] →
      ∀ e ∈ w'.exchanges, e.Kept w.db := by
    intro e he hexchanges e' he'
    rw [hexchanges] at he'
    rcases List.mem_append.mp he' with he' | he'
    · exact hw.exchanges e' he'
    · obtain rfl := List.mem_singleton.mp he'
      exact he
  cases op with
  | enroll tenant id =>
      obtain ⟨r, hr, rfl⟩ := Option.map_eq_some_iff.mp h
      obtain ⟨hr, htenant, hdirection⟩ := PortTables.outgoing_eq_some hr
      exact hnew ⟨r, hr, htenant, hdirection⟩ rfl
  | refresh tenant id =>
      obtain ⟨r, hr, hbegun⟩ := Option.bind_eq_some_iff.mp h
      obtain ⟨hr, htenant, hdirection⟩ := PortTables.outgoing_eq_some hr
      split at hbegun
      · cases hbegun
      · next hgrant =>
          cases hbegun
          exact hnew (e := ⟨.refresh, tenant, id⟩) ⟨r, hr, htenant, hdirection, hgrant⟩ rfl
  | status message now =>
      rw [step] at h
      split at h
      · cases h
      · next r hr =>
          split at h
          · cases h
          · cases h
            obtain ⟨hr, hdirection, _⟩ := PortTables.authenticate_eq_ok hr
            exact hnew ⟨r, hr, rfl, hdirection⟩ rfl
  | invite =>
      rw [step] at h
      split at h
      · cases h
      · cases h
        exact hw.exchanges
  | prune =>
      cases h
      exact hw.exchanges
  | redeem =>
      rw [step] at h
      split at h
      · cases h
      · cases h
        exact hw.exchanges
  | accept =>
      rw [step] at h
      split at h
      · cases h
      · cases h
        exact hw.exchanges
  | finish =>
      obtain ⟨e, _, hfinish⟩ := Option.bind_eq_some_iff.mp h
      split at hfinish
      · cases hfinish
        exact hw.exchanges
      · cases hfinish
  | contact =>
      obtain ⟨e, _, hcontact⟩ := Option.bind_eq_some_iff.mp h
      obtain ⟨noted, _, hcontact⟩ := Option.bind_eq_some_iff.mp hcontact
      split at hcontact
      · cases hcontact
      · cases hcontact
        exact hw.exchanges
  | update =>
      rw [step] at h
      split at h
      · cases h
      · cases h
        exact hw.exchanges
  | rotate =>
      rw [step] at h
      split at h
      · cases h
      · cases h
        exact hw.exchanges
  | pend =>
      rw [step] at h
      split at h
      · cases h
      · cases h
        exact hw.exchanges
  | clear =>
      cases h
      exact hw.exchanges

/-! ### Runs -/

/-- Every row is still there later, and what stays of it does. -/
def PortTables.Later (db db' : PortTables φ) : Prop :=
  ∀ id r, db.records.find? id = some r → ∃ r', db'.records.find? id = some r' ∧ r.Stays r'

theorem TradeExchange.Kept.later
    {db db' : PortTables φ} {e : TradeExchange} (h : e.Kept db) (hlater : db.Later db') :
  e.Kept db'
  := by
  obtain ⟨r, hr, htenant, hkind⟩ := h
  obtain ⟨r', hr', hstay⟩ := hlater e.id r hr
  refine ⟨r', hr', hstay.tenant.trans htenant, ?_⟩
  obtain ⟨kind, _, _⟩ := e
  cases kind with
  | enroll invited => exact hstay.direction.trans hkind
  | refresh => exact ⟨hstay.direction.trans hkind.1, hstay.grant hkind.2 ▸ hkind.2⟩
  | peer => exact hstay.direction.trans hkind

theorem PortTables.Yielded.later
    {db db' : PortTables φ} {i id : String} (h : db.Yielded i id) (hlater : db.Later db')
    (hkeeps : ∀ i invitation, db.invitations.find? i = some invitation →
      invitation.redeemed ≠ none → db'.invitations.find? i = some invitation) :
  db'.Yielded i id
  := by
  obtain ⟨invitation, r, hi, hredeemed, hr, hdirection, hkey⟩ := h
  obtain ⟨r', hr', hstay⟩ := hlater id r hr
  refine ⟨invitation, r', hkeeps i invitation hi ?_, hredeemed, hr',
    hstay.direction.trans hdirection, hkey.imp_right hstay.peerKey.trans⟩
  rw [hredeemed]
  nofun

/-- An invitation that was not redeemed has yielded no route. -/
theorem TradeWorld.Kept.fresh
    (hw : w.Kept) {invitation : TradeInvitation}
    (hi : w.db.invitations.find? invitation.id = some invitation)
    (hfree : invitation.redeemed = none) :
  invitation.id ∉ w.yields.map Prod.fst
  := by
  intro hmem
  obtain ⟨⟨i, id⟩, hy, hid⟩ := List.mem_map.mp hmem
  obtain ⟨invitation', _, hi', hredeemed, _⟩ := hw.yielded _ hy
  rw [show i = invitation.id from hid, hi] at hi'
  obtain rfl := Option.some.inj hi'
  cases hfree.symm.trans hredeemed

/-- Redeemed invitations are kept in every step. -/
theorem YieldsMove.keeps (h : YieldsMove w w') (i : String) (invitation : TradeInvitation)
    (hi : w.db.invitations.find? i = some invitation) (hredeemed : invitation.redeemed ≠ none) :
  w'.db.invitations.find? i = some invitation
  := by
  cases h with
  | same _ hkeeps _ => exact hkeeps i invitation hi hredeemed
  | @yield other r _ hother hfree hinvitations _ _ _ _ =>
      rw [hinvitations, Table.find?_upsert, if_neg, hi]
      rintro rfl
      obtain rfl := Option.some.inj (hi.symm.trans hother)
      exact hredeemed hfree

/-- Every step keeps the invariant. -/
theorem TradeWorld.kept_step (hw : w.Kept) (h : w.step port op = some w') : w'.Kept := by
  have hmove := records_step hw h
  have hlater : w.db.Later w'.db := fun _ _ hr => hmove.stays hw.granted hr
  have hyields := yields_step h
  have hold : ∀ y ∈ w.yields, w'.db.Yielded y.1 y.2 := fun y hy =>
    (hw.yielded y hy).later hlater hyields.keeps
  have honce : (w'.yields.map Prod.fst).Nodup ∧ (∀ y ∈ w'.yields, w'.db.Yielded y.1 y.2)
      ∧ ∀ invitation ∈ w'.db.invitations.rows, ∀ id, invitation.redeemed = some id →
        (invitation.id, id) ∈ w'.yields := by
    cases hyields with
    | same hsame _ hback =>
        rw [hsame]
        refine ⟨hw.once, hold, ?_⟩
        intro invitation hi id hredeemed
        apply hw.redeemed invitation (hback invitation hi _) id hredeemed
        rw [hredeemed]
        nofun
    | @yield invitation r hnew hi hfree hinvitations hr hdirection hkey hstate =>
        rw [hnew, List.map_append, List.nodup_append]
        refine ⟨⟨hw.once, List.nodup_singleton _, ?_⟩, ?_, ?_⟩
        · intro i hmem j hj
          obtain rfl := List.mem_singleton.mp hj
          rintro rfl
          exact hw.fresh hi hfree hmem
        · intro y hy
          rcases List.mem_append.mp hy with hy | hy
          · exact hold y hy
          · obtain rfl := List.mem_singleton.mp hy
            refine ⟨{ invitation with redeemed := some r.route.id }, r, ?_, rfl, ?_, hdirection,
              hkey⟩
            · rw [hinvitations, Table.find?_upsert]
              exact if_pos rfl
            · rw [Table.find?_insert? hr]
              exact if_pos rfl
        · intro other hother id hredeemed
          rw [hinvitations] at hother
          rcases Table.mem_upsert.mp hother with rfl | ⟨hother, _⟩
          · cases hredeemed
            exact List.mem_append_right _ (List.mem_singleton_self _)
          · exact List.mem_append_left _ (hw.redeemed other hother id hredeemed)
  exact ⟨hmove.granted hw.granted, fun tenant => hmove.limit hw.granted (hw.limit tenant),
    fun e he => (exchanges_step hw h e he).later hlater, honce.1, honce.2.1, honce.2.2⟩

/-- Every row is still there after a run. -/
theorem TradeWorld.later_run
    {ops : List (TradeOp φ)} (hw : w.Kept) (h : Runs.run (step port) w ops = some w') :
  w.db.Later w'.db
  := by
  apply Runs.run_le (fun _ _ _ => kept_step) (R := fun w w' => w.db.Later w'.db) _ _ _ hw h
  · intro w id r hr
    exact ⟨r, hr, .refl r⟩
  · intro s t u hst htu id r hr
    obtain ⟨r', hr', hstay⟩ := hst id r hr
    obtain ⟨r'', hr'', hstay'⟩ := htu id r' hr'
    exact ⟨r'', hr'', hstay.trans hstay'⟩
  · intro s a t hs h id r hr
    exact (records_step hs h).stays hs.granted hr

/-! ### The life of a route -/

/-- The message proves the peer's right to the route that the invitation yielded: it redeems the
invitation, is of the route's peer and names the credential that the route has. -/
def TradePort.Replays (port : TradePort φ) (invitation : TradeInvitation) (r : TradeRecord φ)
    (message : SignedPortStatement φ) (now : UInt64) : Prop :=
  ∃ e, port.enrollment message now = .ok e ∧ invitation.Admits port e message.document.issuer
    ∧ r.credential = port.secretHash e.credential ∧ r.route.peerKey = message.document.issuer

/-- A redeemed invitation names a route, and gives it to who proves the right to it. -/
theorem TradeWorld.Kept.replay
    (hw : w.Kept) {message : SignedPortStatement φ} {now : UInt64} {fresh id : String}
    {invitation : TradeInvitation}
    (hi : w.db.invitations.find? message.document.nonce = some invitation)
    (hredeemed : invitation.redeemed = some id) :
  ∃ r, w.db.records.find? id = some r
    ∧ (port.Replays invitation r message now →
      w.db.redeemTradeInvitation port message now fresh = .ok (w.db, r, false))
    ∧ (¬ port.Replays invitation r message now →
      ∃ text, w.db.redeemTradeInvitation port message now fresh = .error text)
  := by
  have hmem := hw.redeemed invitation (Table.find?_eq_some.mp hi).1 id hredeemed
  obtain ⟨_, r, _, _, hr, _⟩ := hw.yielded _ hmem
  refine ⟨r, hr, ?_, ?_⟩
  · rintro ⟨e, he, hadmits, hcredential, hkey⟩
    have hopen : ¬ (invitation.secretHash ≠ port.secretHash e.secret
        ∨ (invitation.expectedKey ≠ "" ∧ invitation.expectedKey ≠ message.document.issuer)) := by
      rw [not_or, not_and_or, not_not, not_not, not_not]
      exact hadmits
    have hr' : w.db.records.find? id = some r := hr
    simp only [PortTables.redeemTradeInvitation, he, hi, if_neg hopen, hredeemed, hr']
    exact if_pos ⟨hcredential, hkey⟩
  · intro hno
    cases hresult : w.db.redeemTradeInvitation port message now fresh with
    | error text => exact ⟨text, rfl⟩
    | ok result =>
        obtain ⟨db, r', created⟩ := result
        obtain ⟨e, invitation', he, hi', hadmits, hcase⟩ := PortTables.redeem_eq_ok hresult
        obtain rfl := Option.some.inj (hi.symm.trans hi')
        rcases hcase with ⟨_, hfree, _⟩ | ⟨_, _, id', hid', hr', hcredential, hkey⟩
        · cases hredeemed.symm.trans hfree
        · obtain rfl := Option.some.inj (hredeemed.symm.trans hid')
          obtain rfl := Option.some.inj (hr.symm.trans hr')
          exact absurd ⟨e, he, hadmits, hcredential, hkey⟩ hno

/-- An active route of an invitation that names no key was active, or an operator has made it so
at its revision. -/
theorem TradeWorld.Kept.approved
    (hw : w.Kept) (h : w.step port op = some w') {r' : TradeRecord φ}
    (hr' : r' ∈ w'.db.records.rows) (hincoming : r'.route.direction = .incoming)
    (hactive : r'.route.state = .active) {invitation : TradeInvitation}
    (hi : w'.db.invitations.find? invitation.id = some invitation)
    (hredeemed : invitation.redeemed = some r'.route.id) (hkey : invitation.expectedKey = "") :
  ∃ r, w.db.records.find? r'.route.id = some r ∧ (r.route.state = .active
    ∨ ∃ tenant cancelActive policy,
      op = .update tenant r.route.id r.route.revision "active" cancelActive policy)
  := by
  rcases (records_step hw h).active hr' hincoming hactive hw.granted with hnew | hold
  · cases yields_step h with
    | same _ _ hback =>
        -- an invitation that was redeemed before names a row that was there before
        have hmem := hw.redeemed invitation (hback invitation (Table.find?_eq_some.mp hi).1
          (by rw [hredeemed]; nofun)) r'.route.id hredeemed
        obtain ⟨_, r, _, _, hr, _⟩ := hw.yielded _ hmem
        cases hnew.symm.trans hr
    | @yield other r _ hother hfree hinvitations hr hdirection _ hstate =>
        rw [hinvitations, Table.find?_upsert] at hi
        split at hi
        · cases hi
          have hsame : w'.db.records.find? r.key = some r := by
            rw [Table.find?_insert? hr]
            exact if_pos rfl
          have hid : r.key = r'.key := Option.some.inj hredeemed
          rw [hid, Table.find?_key hr'] at hsame
          obtain rfl := Option.some.inj hsame
          cases hactive.symm.trans (hstate hkey)
        · have hmem := hw.redeemed invitation (Table.find?_eq_some.mp hi).1 r'.route.id hredeemed
          obtain ⟨_, r, _, _, hr, _⟩ := hw.yielded _ hmem
          cases hnew.symm.trans hr
  · exact hold

/-- What holds of the routes of a port: an invitation yields at most one route, of the key that it
names, and gives it again only to who proves the right to it; a revoked route stays so and no
route is pending again; a route of an invitation that names no key is approved by an operator;
an outgoing route is active only with a grant, that an enrollment has recorded; and there are not
too many routes. -/
structure TradeWorld.Sound (port : TradePort φ) (w : TradeWorld φ) : Prop where
  once : (w.yields.map Prod.fst).Nodup
  named : ∀ y ∈ w.yields, w.db.Yielded y.1 y.2
  replay : ∀ (message : SignedPortStatement φ) (now : UInt64) (fresh id : String)
    (invitation : TradeInvitation),
    w.db.invitations.find? message.document.nonce = some invitation →
    invitation.redeemed = some id →
    ∃ r, w.db.records.find? id = some r
      ∧ (port.Replays invitation r message now →
        w.db.redeemTradeInvitation port message now fresh = .ok (w.db, r, false))
      ∧ (¬ port.Replays invitation r message now →
        ∃ text, w.db.redeemTradeInvitation port message now fresh = .error text)
  stays : ∀ (ops : List (TradeOp φ)) (w' : TradeWorld φ),
    Runs.run (TradeWorld.step port) w ops = some w' → w.db.Later w'.db
  approved : ∀ (op : TradeOp φ) (w' : TradeWorld φ), w.step port op = some w' →
    ∀ r' ∈ w'.db.records.rows, r'.route.direction = .incoming → r'.route.state = .active →
    ∀ invitation, w'.db.invitations.find? invitation.id = some invitation →
    invitation.redeemed = some r'.route.id → invitation.expectedKey = "" →
    ∃ r, w.db.records.find? r'.route.id = some r ∧ (r.route.state = .active
      ∨ ∃ tenant cancelActive policy,
        op = .update tenant r.route.id r.route.revision "active" cancelActive policy)
  granted : ∀ r ∈ w.db.records.rows, r.Granted
  enrolled : ∀ (op : TradeOp φ) (w' : TradeWorld φ), w.step port op = some w' →
    ∀ r' ∈ w'.db.records.rows, r'.route.remoteGrant ≠ "" →
    (∃ r, w.db.records.find? r'.route.id = some r
      ∧ r.route.remoteGrant = r'.route.remoteGrant)
    ∨ ∃ i state, op = .finish i r'.route.remoteGrant state
  limit : ∀ tenant, w.db.liveRouteCount tenant ≤ 100

/-- In every run of a port, of invitations, redemptions, acceptances, enrollments, changes of
operators, contacts and rotations in any order, its routes are as they should be. -/
theorem trade_route_lifecycle
    {w₀ : TradeWorld φ} {ops : List (TradeOp φ)} (h₀ : w₀.Fresh)
    (h : Runs.run (TradeWorld.step port) w₀ ops = some w) :
  w.Sound port
  := by
  have hw : w.Kept := Runs.run_invariant (fun _ _ _ => TradeWorld.kept_step) h₀.kept h
  exact
    { once := hw.once
      named := hw.yielded
      replay := fun _ _ _ _ _ hi hredeemed => hw.replay hi hredeemed
      stays := fun _ _ h => TradeWorld.later_run hw h
      approved := fun _ _ h _ hr' hincoming hactive _ hi hredeemed hkey =>
        hw.approved h hr' hincoming hactive hi hredeemed hkey
      granted := hw.granted
      enrolled := fun _ _ h _ hr' hgrant =>
        (TradeWorld.records_step hw h).grant hw.granted hr' hgrant
      limit := hw.limit }

/-! ### A run -/

/-- A port with one endpoint that any port may be invited to. -/
def plainPort : TradePort Empty where
  crates := plainCrates
  publicHex := hexEncode (List.replicate 32 1)
  verifyingKey _ := true
  address text := .ok text

def plainTrade : TradeWorld Empty where
  db :=
    { tenants := []
      endpoints := ⟨[⟨"endpoint", "", "Endpoint", "internal", false, [], ⟨.off, []⟩⟩], by decide⟩
      invitations := .empty
      records := .empty
      rotations := .empty }
  exchanges := []
  yields := []

/-- What a peer enrolls with. -/
def plainBody : Value Empty where
  json := .obj [("credential", .str "0123456789abcdef0123456789abcdef"), ("name", .str "Peer"),
    ("secret", .str "secret")]
  ordered := ⟨by decide, trivial, trivial, trivial, trivial⟩

def plainEnroll : SignedPortStatement Empty :=
  let key : List UInt8 := List.replicate 32 2
  let document : PortStatement Empty :=
    { issuer := hexEncode key
      audience := plainPort.publicHex
      purpose := "enroll"
      nonce := "invitation"
      expiresAt := 300
      body := plainBody }
  { document
    signature := hexEncode (((Signable.portMessage document).message plainCrates).take 32 ++ key) }

/-- An invitation that is redeemed. -/
def plainRedemption : List (TradeOp Empty) :=
  [.invite "" "endpoint" "" 1000 1 "invitation" "secret", .redeem plainEnroll 2 "route"]

/-- The operator of the port accepts an invitation of the peer. -/
def plainAcceptance : Acceptance Empty where
  id := "outgoing"
  tenant := ""
  name := "Peer"
  peerName := "Peer"
  peerKey := "peer"
  address := "https://peer"
  endpoint := ⟨"endpoint", "", "Endpoint", "internal", false, [], ⟨.off, []⟩⟩
  notifications := ⟨.off, []⟩
  credential := "credential"
  invitation := plainEnroll

/-- The redeemed route is approved, and a route is accepted, enrolled and checked. -/
def plainRoutes : List (TradeOp Empty) :=
  plainRedemption ++ [.update "" "route" 1 "active" false ⟨.off, []⟩, .accept plainAcceptance,
    .enroll "" "outgoing", .finish 0 "grant" .active, .refresh "" "outgoing",
    .contact 1 (.answered .paused) 3]

theorem trade_route_lifecycle_once :
  ∃ w, Runs.run (TradeWorld.step plainPort) plainTrade plainRoutes = some w
    ∧ w.yields = [("invitation", "route")]
    ∧ (w.db.records.find? "route").map (fun r => r.route.state) = some .active
    ∧ (w.db.records.find? "outgoing").map (fun r => (r.route.remoteGrant, r.remoteState))
      = some ("grant", "paused")
    ∧ w.Sound plainPort
  := by
  have hrun : (Runs.run (TradeWorld.step plainPort) plainTrade plainRoutes).map (fun w =>
      (w.yields, (w.db.records.find? "route").map (fun r => r.route.state),
        (w.db.records.find? "outgoing").map fun r => (r.route.remoteGrant, r.remoteState)))
        = some ([("invitation", "route")], some .active, some ("grant", "paused")) := by
    decide +kernel
  obtain ⟨w, hw, hleft⟩ := Option.map_eq_some_iff.mp hrun
  obtain ⟨hyields, hleft⟩ := Prod.mk.inj hleft
  obtain ⟨hstate, hgrant⟩ := Prod.mk.inj hleft
  exact ⟨w, hw, hyields, hstate, hgrant, trade_route_lifecycle ⟨rfl, rfl, rfl, rfl⟩ hw⟩

/-- The message that redeemed an invitation redeems it again, and not after a rotation of the
credential that it names. -/
theorem replay_after_rotation :
  ((Runs.run (TradeWorld.step plainPort) plainTrade plainRedemption).any fun w =>
      (w.db.redeemTradeInvitation plainPort plainEnroll 2 "again").toBool) = true
    ∧ ((Runs.run (TradeWorld.step plainPort) plainTrade (plainRedemption
        ++ [.rotate "route" "0123456789abcdef0123456789abcdef"
          "fedcba9876543210fedcba9876543210"])).any fun w =>
      !(w.db.redeemTradeInvitation plainPort plainEnroll 2 "again").toBool) = true
  := by
  decide +kernel

end Votport
