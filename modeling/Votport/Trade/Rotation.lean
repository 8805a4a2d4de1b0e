import Votport.Foundation.Runs
import Votport.Protocol.Custody
import Votport.Trade.Credential

/-!
# The rotation of a trade credential

Two ports rotate the credential of a route over a network that loses requests and replies.
Any number of exchanges may be under way at the sender: rotations, and checks of the
route's status that finish a rotation whose reply was lost.  The credentials are counted in
the order they were made; the sender holds one of the last two, and the receiver the same
one or the one after it.
-/

namespace Votport

/-! ### Exchanges -/

/-- The two ports of a trade route, with the ids they know it by. -/
structure TradePair where
  env : StatementEnv
  sender : String
  receiver : String
  tenant : String
  route : String
  grant : String

/-- What an exchange was begun for. -/
inductive ExchangeKind
  | rotate
  | status
deriving DecidableEq, Repr

/-- An exchange under way at the sender: the credentials it has read, whether the receiver
has refused the old one and accepted the next one, whether the sender has taken the next
one, and whether the rotation may be cleared. -/
structure RotationExchange where
  kind : ExchangeKind
  old : String
  next : Option String
  refused : Bool
  answered : Bool
  committed : Bool
  finished : Bool
deriving DecidableEq, Repr

/-- Both ports, the exchanges, and the credentials in the order they were made. -/
structure RotationWorld where
  sender : TradeTables
  receiver : TradeTables
  exchanges : List RotationExchange
  issued : List String

/-- A step of an exchange, or of the receiver. -/
inductive RotationOp
  | start (kind : ExchangeKind)
  /-- The receiver refuses the status of the old credential. -/
  | refuse (exchange : Nat) (signed : SignedPortMessage) (now : UInt64)
  /-- The sender reads the next credential, or makes one. -/
  | pend (exchange : Nat) (fresh : String)
  /-- The sender reads the next credential of a rotation that is not confirmed. -/
  | inFlight (exchange : Nat)
  /-- A request arrives and is accepted. -/
  | request (exchange : Nat) (signed : SignedPortMessage) (now : UInt64)
  /-- The reply arrives. -/
  | commit (exchange : Nat)
  | clear (exchange : Nat)

/-- The sender signed the message with this body. -/
def TradePair.sent (pair : TradePair) (signed : SignedPortMessage) (purpose credential : String)
    (next : Option String) : Prop :=
  signed.document.issuer = pair.sender ∧ signed.document.purpose = purpose
    ∧ signed.document.body = ⟨some pair.grant, some credential, next⟩

instance (pair : TradePair) (signed : SignedPortMessage) (purpose credential : String)
    (next : Option String) : Decidable (pair.sent signed purpose credential next) :=
  inferInstanceAs (Decidable (_ ∧ _ ∧ _))

/-- The receiver's answer to a request to rotate. -/
def TradePair.rotateRemote (pair : TradePair) (db : TradeTables) (signed : SignedPortMessage)
    (now : UInt64) : Except String TradeTables :=
  match db.authenticateTrade pair.env pair.receiver signed "rotate" now with
  | .error e => .error e
  | .ok route =>
      if route.state = .revoked then .error "route revoked"
      else
        db.rotateTradeCredential pair.env route.id
          (signed.document.body.credential.getD "") (signed.document.body.next.getD "")

/-- A request of an exchange at the receiver. -/
def RotationWorld.receive (pair : TradePair) (w : RotationWorld) (i : Nat)
    (e : RotationExchange) (next : String) (signed : SignedPortMessage) (now : UInt64) :
    Option RotationWorld :=
  match e.kind with
  | .rotate =>
      if pair.sent signed "rotate" e.old (some next) then
        match pair.rotateRemote w.receiver signed now with
        | .error _ => none
        | .ok receiver =>
            some { w with
              receiver := receiver, exchanges := w.exchanges.set i { e with answered := true } }
      else none
  | .status =>
      if pair.sent signed "status" next none then
        match w.receiver.authenticateTrade pair.env pair.receiver signed "status" now with
        | .error _ => none
        | .ok _ => some { w with exchanges := w.exchanges.set i { e with answered := true } }
      else none

/-- The sender takes the next credential of an exchange that was answered.  A check of the
status goes on when the credential has moved on meanwhile. -/
def RotationWorld.commit (pair : TradePair) (w : RotationWorld) (i : Nat)
    (e : RotationExchange) (next : String) : Option RotationWorld :=
  match w.sender.rotateTradeCredential pair.env pair.route e.old next with
  | .ok sender =>
      some { w with
        sender := sender
        exchanges := w.exchanges.set i { e with committed := true, finished := true } }
  | .error _ =>
      if e.kind = .status ∧ w.sender.tradeCredential pair.tenant pair.route ≠ .ok e.old then
        some { w with exchanges := w.exchanges.set i { e with finished := true } }
      else none

/-- One step, none when it is not possible or fails. -/
def RotationWorld.step (pair : TradePair) (w : RotationWorld) : RotationOp → Option RotationWorld
  | .start kind =>
      match w.sender.tradeCredential pair.tenant pair.route with
      | .error _ => none
      | .ok old =>
          some { w with exchanges := w.exchanges ++ [⟨kind, old, none, false, false, false, false⟩] }
  | .refuse i signed now =>
      w.exchanges[i]?.bind fun e =>
        if e.kind = .status ∧ pair.sent signed "status" e.old none then
          match w.receiver.authenticateTrade pair.env pair.receiver signed "status" now with
          | .ok _ => none
          | .error _ => some { w with exchanges := w.exchanges.set i { e with refused := true } }
        else none
  | .pend i fresh =>
      w.exchanges[i]?.bind fun e =>
        if e.kind = .rotate ∧ e.next = none ∧ fresh ∉ w.issued ∧ validHex fresh 32 = true then
          match w.sender.pendingTradeRotation pair.tenant pair.route fresh with
          | .error _ => none
          | .ok (next, sender) =>
              some { w with
                sender := sender
                exchanges := w.exchanges.set i { e with next := some next }
                issued := if next = fresh then w.issued ++ [fresh] else w.issued }
        else none
  | .inFlight i =>
      w.exchanges[i]?.bind fun e =>
        if e.kind = .status ∧ e.next = none ∧ e.refused = true then
          (w.sender.tradeRotationInFlight pair.route).map fun next =>
            { w with exchanges := w.exchanges.set i { e with next := some next } }
        else none
  | .request i signed now =>
      w.exchanges[i]?.bind fun e => e.next.bind fun next => w.receive pair i e next signed now
  | .commit i =>
      w.exchanges[i]?.bind fun e => e.next.bind fun next =>
        if e.answered then w.commit pair i e next else none
  | .clear i =>
      w.exchanges[i]?.bind fun e => e.next.bind fun next =>
        if e.finished then some { w with sender := w.sender.clearTradeRotation pair.route next }
        else none

/-! ### The invariant -/

/-- What is known of an exchange where the sender holds credential `g` and the receiver
credential `q`: its old credential was the sender's, its next one is not an earlier one,
the sides that have taken it hold it or a later one, and a rotation is cleared only after
the sender has. -/
structure RotationExchange.Kept (issued : List String) (g q : Nat) (e : RotationExchange) :
    Prop where
  next : ∃ o, issued[o]? = some e.old ∧ o ≤ g ∧ ∀ n, e.next = some n →
    ∃ j, issued[j]? = some n ∧ o ≤ j ∧ (e.answered = true → j ≤ q)
      ∧ (e.committed = true → j ≤ g)
  unread : e.next = none → e.answered = false ∧ e.committed = false
  taken : e.kind = .rotate → e.finished = true → e.committed = true

/-- The sender holds credential `g`, and stores the last one when it is not settled. -/
structure RotationWorld.SenderKept (pair : TradePair) (sender : TradeTables)
    (issued : List String) (g : Nat) : Prop where
  row : ∃ row, sender.routes.find? pair.route = some row ∧ row.route.tenant = pair.tenant
    ∧ row.route.direction = .outgoing ∧ issued[g]? = some row.credential
  length : issued.length ≤ g + 2
  settled : sender.tradeRotationInFlight pair.route = none → issued.length = g + 1
  pending : ∀ n, sender.tradeRotationInFlight pair.route = some n →
    issued[issued.length - 1]? = some n ∧ validHex n 32 = true

/-- The receiver holds the hash of credential `q`. -/
def RotationWorld.ReceiverKept (pair : TradePair) (receiver : TradeTables)
    (issued : List String) (q : Nat) : Prop :=
  ∃ row c, receiver.routes.find? pair.grant = some row ∧ row.route.direction = .incoming
    ∧ row.route.peerKey = pair.sender ∧ row.route.state ≠ .revoked
    ∧ issued[q]? = some c ∧ row.credential = tradeSecretHash pair.env c

/-- What holds in every run. -/
structure RotationWorld.Kept (pair : TradePair) (w : RotationWorld) (g q : Nat) : Prop where
  nodup : w.issued.Nodup
  le : g ≤ q
  sender : SenderKept pair w.sender w.issued g
  receiver : ReceiverKept pair w.receiver w.issued q
  exchanges : ∀ e ∈ w.exchanges, e.Kept w.issued g q

/-- The invariant without the places of the two credentials. -/
def RotationWorld.Good (pair : TradePair) (w : RotationWorld) : Prop :=
  ∃ g q, w.Kept pair g q

theorem getElem?_lt {l : List String} {i : Nat} {a : String} (h : l[i]? = some a) : i < l.length :=
  (List.getElem?_eq_some_iff.mp h).1

/-- The places of a credential are the same. -/
theorem place_unique {l : List String} (hl : l.Nodup) {i j : Nat} {a : String}
    (hi : l[i]? = some a) (hj : l[j]? = some a) :
  i = j
  := (List.getElem?_inj (getElem?_lt hi) hl).mp (hi.trans hj.symm)

theorem place_append {l l' : List String} (h : l <+: l') {i : Nat} {a : String}
    (hi : l[i]? = some a) :
  l'[i]? = some a
  := by
  obtain ⟨rest, rfl⟩ := h
  rw [List.getElem?_append_left (getElem?_lt hi), hi]

/-- The exchange of a later state. -/
theorem RotationExchange.Kept.mono
    {issued issued' : List String} {g g' q q' : Nat} {e : RotationExchange}
    (h : e.Kept issued g q) (hissued : issued <+: issued') (hg : g ≤ g') (hq : q ≤ q') :
  e.Kept issued' g' q'
  := by
  obtain ⟨o, ho, hog, hnext⟩ := h.next
  refine ⟨⟨o, place_append hissued ho, hog.trans hg, ?_⟩, h.unread, h.taken⟩
  intro n hn
  obtain ⟨j, hj, hoj, hanswered, hcommitted⟩ := hnext n hn
  exact ⟨j, place_append hissued hj, hoj, fun ha => (hanswered ha).trans hq,
    fun hc => (hcommitted hc).trans hg⟩

/-- An exchange that reads a next credential as late as the sender's. -/
theorem RotationExchange.Kept.read
    {issued issued' : List String} {g q j : Nat} {e : RotationExchange} {next : String}
    (h : e.Kept issued g q) (hunread : e.next = none) (hissued : issued <+: issued')
    (hj : issued'[j]? = some next) (hgj : g ≤ j) :
  RotationExchange.Kept issued' g q { e with next := some next }
  := by
  obtain ⟨o, ho, hog, _⟩ := h.next
  obtain ⟨hanswered, hcommitted⟩ := h.unread hunread
  refine ⟨⟨o, place_append hissued ho, hog, ?_⟩, ?_, h.taken⟩
  · intro n hn
    cases hn
    refine ⟨j, hj, hog.trans hgj, ?_, ?_⟩
    · intro h
      rw [hanswered] at h
      cases h
    · intro h
      rw [hcommitted] at h
      cases h
  · intro hn
    cases hn

theorem RotationWorld.ReceiverKept.append
    {pair : TradePair} {receiver : TradeTables} {issued issued' : List String} {q : Nat}
    (h : ReceiverKept pair receiver issued q) (hissued : issued <+: issued') :
  ReceiverKept pair receiver issued' q
  := by
  obtain ⟨row, c, hrow, hdirection, hkey, hstate, hc, hcredential⟩ := h
  exact ⟨row, c, hrow, hdirection, hkey, hstate, place_append hissued hc, hcredential⟩

/-- A step that changes one exchange. -/
theorem RotationWorld.Kept.update
    {pair : TradePair} {w : RotationWorld} {g q : Nat} (hw : w.Kept pair g q)
    {sender receiver : TradeTables} {issued : List String} {g' q' : Nat}
    {e : RotationExchange} (i : Nat) (hnodup : issued.Nodup) (hissued : w.issued <+: issued)
    (hg : g ≤ g') (hq : q ≤ q') (hle : g' ≤ q') (hsender : SenderKept pair sender issued g')
    (hreceiver : ReceiverKept pair receiver issued q') (he : e.Kept issued g' q') :
  Kept pair ⟨sender, receiver, w.exchanges.set i e, issued⟩ g' q'
  where
    nodup := hnodup
    le := hle
    sender := hsender
    receiver := hreceiver
    exchanges x hx := by
      rcases List.mem_or_eq_of_mem_set hx with hx | rfl
      · exact (hw.exchanges x hx).mono hissued hg hq
      · exact he

/-- A step that only changes one exchange. -/
theorem RotationWorld.Kept.note
    {pair : TradePair} {w : RotationWorld} {g q : Nat} (hw : w.Kept pair g q)
    {e : RotationExchange} (i : Nat) (he : e.Kept w.issued g q) :
  Kept pair { w with exchanges := w.exchanges.set i e } g q
  := hw.update i hw.nodup List.prefix_rfl (Nat.le_refl g) (Nat.le_refl q) hw.le hw.sender
    hw.receiver he

/-! ### The tables -/

/-- A message that was authenticated. -/
theorem TradeTables.authenticate_eq_ok
    {env : StatementEnv} {db : TradeTables} {publicHex purpose : String}
    {signed : SignedPortMessage} {now : UInt64} {route : TradeRoute}
    (h : db.authenticateTrade env publicHex signed purpose now = .ok route) :
  ∃ id credential row, signed.document.body.grant = some id
    ∧ signed.document.body.credential = some credential ∧ db.routes.find? id = some row
    ∧ row.accepts env purpose credential (signed.document.body.next.getD "") = true
    ∧ route = row.route
  := by
  rw [authenticateTrade] at h
  split at h
  · cases h
  · split at h
    · cases h
    · cases h
    · next id credential hgrant hcredential =>
        split at h
        · cases h
        · next row hrow =>
            split at h
            · next hcheck =>
                cases h
                exact ⟨id, credential, row, hgrant, hcredential, hrow,
                  (Bool.and_eq_true_iff.mp hcheck).1, rfl⟩
            · cases h

/-- A rotation that was made. -/
theorem TradeTables.rotate_eq_ok
    {env : StatementEnv} {db db' : TradeTables} {id previous next : String}
    (h : db.rotateTradeCredential env id previous next = .ok db') :
  ∃ row, db.routes.find? id = some row
    ∧ (row.credential = row.stored env next ∧ db' = db
      ∨ row.credential = row.stored env previous
        ∧ db' = { db with
            routes := db.routes.upsert { row with credential := row.stored env next } })
  := by
  rw [rotateTradeCredential] at h
  split at h
  · cases h
  · split at h
    · cases h
    · next row hrow =>
        refine ⟨row, hrow, ?_⟩
        split at h
        · next hsame =>
            cases h
            exact Or.inl ⟨hsame, rfl⟩
        · split at h
          · cases h
          · next hprevious =>
              cases h
              exact Or.inr ⟨not_not.mp hprevious, rfl⟩

theorem TradeTables.tradeCredential_eq
    {db : TradeTables} {tenant id : String} {row : TradeRow}
    (hrow : db.routes.find? id = some row) (htenant : row.route.tenant = tenant)
    (hdirection : row.route.direction = .outgoing) :
  db.tradeCredential tenant id = .ok row.credential
  := by
  rw [tradeCredential, hrow]
  dsimp only
  rw [if_pos ⟨htenant, hdirection⟩]

/-- A row whose credential was replaced. -/
theorem TradeTables.find?_rotated
    {db : TradeTables} {id : String} {row : TradeRow} (hrow : db.routes.find? id = some row)
    (credential : String) :
  (db.routes.upsert { row with credential := credential }).find? id
    = some { row with credential := credential }
  := by
  obtain rfl : row.id = id := (Table.find?_eq_some.mp hrow).2
  rw [Table.find?_upsert, if_pos]
  rfl

/-- The receiver after a rotation from place `o` to place `j`. -/
theorem RotationWorld.receiverKept_rotate
    {pair : TradePair}
    (hinjective : ∀ a b, tradeSecretHash pair.env a = tradeSecretHash pair.env b → a = b)
    {receiver receiver' : TradeTables} {issued : List String} (hnodup : issued.Nodup)
    {q o j : Nat} {old next : String} (hkept : ReceiverKept pair receiver issued q)
    (ho : issued[o]? = some old) (hj : issued[j]? = some next) (hoj : o ≤ j)
    (h : receiver.rotateTradeCredential pair.env pair.grant old next = .ok receiver') :
  ∃ q', q ≤ q' ∧ j ≤ q' ∧ ReceiverKept pair receiver' issued q'
  := by
  obtain ⟨row, c, hrow, hdirection, hkey, hstate, hc, hcredential⟩ := hkept
  obtain ⟨row', hrow', hcase⟩ := TradeTables.rotate_eq_ok h
  rw [hrow] at hrow'
  cases hrow'
  rw [TradeRow.stored, TradeRow.stored, if_pos hdirection, if_pos hdirection,
    hcredential] at hcase
  rcases hcase with ⟨hsame, rfl⟩ | ⟨hold, rfl⟩
  · obtain rfl := hinjective _ _ hsame
    exact ⟨q, Nat.le_refl q, (place_unique hnodup hj hc).le,
      row, c, hrow, hdirection, hkey, hstate, hc, hcredential⟩
  · obtain rfl := hinjective _ _ hold
    obtain rfl := place_unique hnodup ho hc
    refine ⟨j, hoj, Nat.le_refl j, { row with credential := tradeSecretHash pair.env next }, next,
      ?_, hdirection, hkey, hstate, hj, rfl⟩
    exact TradeTables.find?_rotated hrow _

/-- The sender after a rotation from place `o` to place `j`. -/
theorem RotationWorld.senderKept_rotate
    {pair : TradePair} {sender sender' : TradeTables} {issued : List String}
    (hnodup : issued.Nodup) {g o j : Nat} {old next : String}
    (hkept : SenderKept pair sender issued g) (ho : issued[o]? = some old)
    (hj : issued[j]? = some next) (hoj : o ≤ j)
    (h : sender.rotateTradeCredential pair.env pair.route old next = .ok sender') :
  ∃ g', g ≤ g' ∧ j ≤ g' ∧ (g' = g ∨ g' = j) ∧ SenderKept pair sender' issued g'
  := by
  obtain ⟨row, hrow, htenant, hdirection, hc⟩ := hkept.row
  obtain ⟨row', hrow', hcase⟩ := TradeTables.rotate_eq_ok h
  rw [hrow] at hrow'
  cases hrow'
  have hno : row.route.direction ≠ .incoming := by
    rw [hdirection]
    decide
  rw [TradeRow.stored, TradeRow.stored, if_neg hno, if_neg hno] at hcase
  rcases hcase with ⟨hsame, rfl⟩ | ⟨hold, rfl⟩
  · rw [hsame] at hc
    exact ⟨g, Nat.le_refl g, (place_unique hnodup hj hc).le, Or.inl rfl, hkept⟩
  · rw [hold] at hc
    obtain rfl := place_unique hnodup ho hc
    refine ⟨j, hoj, Nat.le_refl j, Or.inr rfl, ?_⟩
    constructor
    · refine ⟨{ row with credential := next }, ?_, htenant, hdirection, hj⟩
      exact TradeTables.find?_rotated hrow _
    · have := hkept.length
      omega
    · intro hnone
      have := hkept.settled hnone
      have := getElem?_lt hj
      omega
    · exact hkept.pending

/-- The sender after it has read the next credential, or made it. -/
theorem RotationWorld.senderKept_pend
    {pair : TradePair} {sender sender' : TradeTables} {issued : List String}
    (hnodup : issued.Nodup) {g : Nat} {fresh next : String}
    (hkept : SenderKept pair sender issued g) (hfresh : fresh ∉ issued)
    (hvalid : validHex fresh 32 = true)
    (h : sender.pendingTradeRotation pair.tenant pair.route fresh = .ok (next, sender')) :
  ∃ issued', issued' = (if next = fresh then issued ++ [fresh] else issued) ∧ issued'.Nodup
    ∧ issued <+: issued' ∧ SenderKept pair sender' issued' g
    ∧ ∃ j, issued'[j]? = some next ∧ g ≤ j
  := by
  rw [TradeTables.pendingTradeRotation] at h
  obtain ⟨row, hrow, htenant, hdirection, hc⟩ := hkept.row
  have hlt := getElem?_lt hc
  split at h
  · cases h
  · split at h
    · cases h
    · split at h
      · next rotation hrotation =>
          cases h
          have hpending := (hkept.pending rotation.credential (by
            rw [TradeTables.tradeRotationInFlight, hrotation]
            rfl)).1
          have hne : rotation.credential ≠ fresh := by
            intro he
            rw [he] at hpending
            exact hfresh (List.mem_of_getElem? hpending)
          refine ⟨issued, ?_, hnodup, List.prefix_rfl, hkept, issued.length - 1, hpending, ?_⟩
          · rw [if_neg hne]
          · omega
      · next hrotation =>
          cases h
          have hsettled := hkept.settled (by
            rw [TradeTables.tradeRotationInFlight, hrotation]
            rfl)
          have hflight : TradeTables.tradeRotationInFlight
              { sender with rotations := sender.rotations.upsert ⟨pair.route, fresh⟩ } pair.route
              = some fresh := by
            rw [TradeTables.tradeRotationInFlight]
            dsimp only
            rw [Table.find?_upsert, if_pos rfl]
            rfl
          refine ⟨issued ++ [fresh], (if_pos rfl).symm, ?_, List.prefix_append _ _, ?_,
            issued.length, ?_, ?_⟩
          · rw [List.nodup_append]
            refine ⟨hnodup, List.nodup_singleton _, ?_⟩
            intro a ha b hb he
            rw [he, List.mem_singleton.mp hb] at ha
            exact hfresh ha
          · constructor
            · exact ⟨row, hrow, htenant, hdirection, place_append (List.prefix_append _ _) hc⟩
            · rw [List.length_append, List.length_singleton]
              omega
            · intro hnone
              rw [hflight] at hnone
              cases hnone
            · intro n hn
              rw [hflight] at hn
              cases hn
              refine ⟨?_, hvalid⟩
              simp
          · simp
          · omega

/-- What is cleared is no longer pending, and nothing else changes. -/
theorem TradeTables.inFlight_clear (db : TradeTables) (id next : String) :
  (db.clearTradeRotation id next).tradeRotationInFlight id
    = if db.tradeRotationInFlight id = some next then none else db.tradeRotationInFlight id
  := by
  rw [tradeRotationInFlight, clearTradeRotation]
  dsimp only
  rw [Table.find?_filter, tradeRotationInFlight]
  cases h : db.rotations.find? id with
  | none => rfl
  | some rotation =>
      have hid : rotation.routeId = id := (Table.find?_eq_some.mp h).2
      by_cases hnext : rotation.credential = next
      · simp [Option.filter, hid, hnext]
      · simp [Option.filter, hnext]

/-- The sender after it has cleared a credential that it has taken, or does not store. -/
theorem RotationWorld.senderKept_clear
    {pair : TradePair} {sender : TradeTables} {issued : List String} (hnodup : issued.Nodup)
    {g : Nat} {next : String} (hkept : SenderKept pair sender issued g)
    (htaken : sender.tradeRotationInFlight pair.route = some next →
      ∃ j, issued[j]? = some next ∧ j ≤ g) :
  SenderKept pair (sender.clearTradeRotation pair.route next) issued g
  where
    row := hkept.row
    length := hkept.length
    settled hnone := by
      rw [TradeTables.inFlight_clear] at hnone
      split at hnone
      · next hpending =>
          obtain ⟨j, hj, hjg⟩ := htaken hpending
          have hlast := place_unique hnodup hj (hkept.pending next hpending).1
          obtain ⟨row, _, _, _, hc⟩ := hkept.row
          have := getElem?_lt hc
          omega
      · exact hkept.settled hnone
    pending n hn := by
      rw [TradeTables.inFlight_clear] at hn
      split at hn
      · cases hn
      · exact hkept.pending n hn

/-! ### Steps -/

/-- A check of the status clears a pending credential only when the sender has taken it. -/
def RotationWorld.Meets (pair : TradePair) (w : RotationWorld) : RotationOp → Prop
  | .clear i => ∀ e ∈ w.exchanges[i]?, ∀ next ∈ e.next, e.kind = .status →
      w.sender.tradeRotationInFlight pair.route = some next →
      w.sender.tradeCredential pair.tenant pair.route = .ok next
  | _ => True

instance RotationWorld.decidableMeets (pair : TradePair) (w : RotationWorld) :
    (op : RotationOp) → Decidable (w.Meets pair op)
  | .clear i => inferInstanceAs (Decidable (∀ e ∈ w.exchanges[i]?, ∀ next ∈ e.next,
      e.kind = .status → w.sender.tradeRotationInFlight pair.route = some next →
      w.sender.tradeCredential pair.tenant pair.route = .ok next))
  | .start _ | .refuse _ _ _ | .pend _ _ | .inFlight _ | .request _ _ _ | .commit _ =>
      .isTrue trivial

/-- A request that is accepted leaves the receiver with the next credential or a later
one. -/
theorem RotationWorld.kept_receive
    {pair : TradePair}
    (hinjective : ∀ a b, tradeSecretHash pair.env a = tradeSecretHash pair.env b → a = b)
    {w w' : RotationWorld} {g q : Nat} (hw : w.Kept pair g q) {i : Nat}
    {e : RotationExchange} (he : w.exchanges[i]? = some e) {next : String}
    (hnext : e.next = some next) {signed : SignedPortMessage} {now : UInt64}
    (h : w.receive pair i e next signed now = some w') :
  ∃ q', q ≤ q' ∧ w'.Kept pair g q'
  := by
  have hkept := hw.exchanges e (List.mem_of_getElem? he)
  obtain ⟨o, ho, hog, hplace⟩ := hkept.next
  obtain ⟨j, hj, hoj, hanswered, hcommitted⟩ := hplace next hnext
  have hnote : ∀ {q'}, q ≤ q' → j ≤ q' →
      RotationExchange.Kept w.issued g q' { e with answered := true } := by
    intro q' hq hjq
    constructor
    · refine ⟨o, ho, hog, ?_⟩
      intro n hn
      rw [hnext] at hn
      cases hn
      exact ⟨j, hj, hoj, fun _ => hjq, hcommitted⟩
    · intro hn
      rw [hnext] at hn
      cases hn
    · exact hkept.taken
  rw [receive] at h
  split at h
  · split at h
    · next hsent =>
        split at h
        · cases h
        · next receiver hremote =>
            cases h
            rw [TradePair.rotateRemote] at hremote
            split at hremote
            · cases hremote
            · next route hroute =>
                split at hremote
                · cases hremote
                · obtain ⟨id, credential, row, hid, _, hrow, _, rfl⟩ :=
                    TradeTables.authenticate_eq_ok hroute
                  rw [hsent.2.2] at hid hremote
                  cases hid
                  have hrowid : row.route.id = pair.grant := (Table.find?_eq_some.mp hrow).2
                  rw [hrowid] at hremote
                  obtain ⟨q', hq, hjq, hreceiver⟩ :=
                    receiverKept_rotate hinjective hw.nodup hw.receiver ho hj hoj hremote
                  exact ⟨q', hq, hw.update i hw.nodup List.prefix_rfl (Nat.le_refl g) hq
                    (hw.le.trans hq) hw.sender hreceiver (hnote hq hjq)⟩
    · cases h
  · split at h
    · next hsent =>
        split at h
        · cases h
        · next route hroute =>
            cases h
            obtain ⟨id, credential, row, hid, hcredential, hrow, haccepts, _⟩ :=
              TradeTables.authenticate_eq_ok hroute
            rw [hsent.2.2] at hid hcredential
            cases hid
            cases hcredential
            obtain ⟨row', c, hrow', _, _, _, hc, hstored⟩ := hw.receiver
            rw [hrow] at hrow'
            cases hrow'
            simp only [TradeRow.accepts, Bool.and_eq_true, Bool.or_eq_true,
              decide_eq_true_eq] at haccepts
            have hsame : c = next := by
              rcases haccepts.2 with hsame | ⟨hpurpose, _⟩
              · exact hinjective _ _ (hstored.symm.trans hsame)
              · exact absurd hpurpose (by decide)
            rw [hsame] at hc
            have hjq := (place_unique hw.nodup hj hc).le
            exact ⟨q, Nat.le_refl q, hw.note i (hnote (Nat.le_refl q) hjq)⟩
    · cases h

/-- The reply leaves the sender with the next credential, or finds it moved on. -/
theorem RotationWorld.kept_commit
    {pair : TradePair} {w w' : RotationWorld} {g q : Nat} (hw : w.Kept pair g q) {i : Nat}
    {e : RotationExchange} (he : w.exchanges[i]? = some e) {next : String}
    (hnext : e.next = some next) (hanswered : e.answered = true)
    (h : w.commit pair i e next = some w') :
  ∃ g', g ≤ g' ∧ w'.Kept pair g' q
  := by
  have hkept := hw.exchanges e (List.mem_of_getElem? he)
  obtain ⟨o, ho, hog, hplace⟩ := hkept.next
  obtain ⟨j, hj, hoj, hjq, hcommitted⟩ := hplace next hnext
  rw [commit] at h
  split at h
  · next sender hrotate =>
      cases h
      obtain ⟨g', hg, hjg, hcase, hsender⟩ := senderKept_rotate hw.nodup hw.sender ho hj hoj hrotate
      have hle : g' ≤ q := by
        rcases hcase with rfl | rfl
        · exact hw.le
        · exact hjq hanswered
      refine ⟨g', hg, hw.update i hw.nodup List.prefix_rfl hg (Nat.le_refl q) hle hsender
        hw.receiver ⟨⟨o, ho, hog.trans hg, ?_⟩, ?_, fun _ _ => rfl⟩⟩
      · intro n hn
        rw [hnext] at hn
        cases hn
        exact ⟨j, hj, hoj, hjq, fun _ => hjg⟩
      · intro hn
        rw [hnext] at hn
        cases hn
  · split at h
    · next hguard =>
        cases h
        refine ⟨g, Nat.le_refl g, hw.note i ⟨hkept.next, hkept.unread, ?_⟩⟩
        intro hrotate
        rw [hguard.1] at hrotate
        cases hrotate
    · cases h

theorem RotationWorld.kept_step
    {pair : TradePair}
    (hinjective : ∀ a b, tradeSecretHash pair.env a = tradeSecretHash pair.env b → a = b)
    {w w' : RotationWorld} {op : RotationOp} (hmeets : w.Meets pair op) (hw : w.Good pair)
    (h : w.step pair op = some w') :
  w'.Good pair
  := by
  obtain ⟨g, q, hw⟩ := hw
  cases op with
  | start kind =>
      rw [step] at h
      split at h
      · cases h
      · next old hold =>
          cases h
          refine ⟨g, q, hw.nodup, hw.le, hw.sender, hw.receiver, ?_⟩
          intro e he
          rcases List.mem_append.mp he with he | he
          · exact hw.exchanges e he
          · obtain ⟨row, hrow, htenant, hdirection, hc⟩ := hw.sender.row
            rw [TradeTables.tradeCredential, hrow] at hold
            dsimp only at hold
            rw [if_pos ⟨htenant, hdirection⟩] at hold
            cases hold
            rw [List.mem_singleton.mp he]
            refine ⟨⟨g, hc, Nat.le_refl g, ?_⟩, ?_, ?_⟩
            · intro n hn
              cases hn
            · intro _
              exact ⟨rfl, rfl⟩
            · intro _ hfinished
              cases hfinished
  | refuse i signed now =>
      obtain ⟨e, he, h⟩ := Option.bind_eq_some_iff.mp h
      have hkept := hw.exchanges e (List.mem_of_getElem? he)
      split at h
      · split at h
        · cases h
        · cases h
          exact ⟨g, q, hw.note i ⟨hkept.next, hkept.unread, hkept.taken⟩⟩
      · cases h
  | pend i fresh =>
      obtain ⟨e, he, h⟩ := Option.bind_eq_some_iff.mp h
      have hkept := hw.exchanges e (List.mem_of_getElem? he)
      split at h
      · next hguard =>
          split at h
          · cases h
          · next next sender hpend =>
              cases h
              obtain ⟨issued, rfl, hnodup, hprefix, hsender, j, hj, hgj⟩ :=
                senderKept_pend hw.nodup hw.sender hguard.2.2.1 hguard.2.2.2 hpend
              exact ⟨g, q, hw.update i hnodup hprefix (Nat.le_refl g) (Nat.le_refl q) hw.le
                hsender (hw.receiver.append hprefix) (hkept.read hguard.2.1 hprefix hj hgj)⟩
      · cases h
  | inFlight i =>
      obtain ⟨e, he, h⟩ := Option.bind_eq_some_iff.mp h
      have hkept := hw.exchanges e (List.mem_of_getElem? he)
      split at h
      · next hguard =>
          obtain ⟨next, hflight, rfl⟩ := Option.map_eq_some_iff.mp h
          have hlast := (hw.sender.pending next hflight).1
          obtain ⟨row, _, _, _, hc⟩ := hw.sender.row
          have := getElem?_lt hc
          exact ⟨g, q, hw.note i
            (hkept.read hguard.2.1 List.prefix_rfl hlast (Nat.le_sub_one_of_lt this))⟩
      · cases h
  | request i signed now =>
      obtain ⟨e, he, h⟩ := Option.bind_eq_some_iff.mp h
      obtain ⟨next, hnext, h⟩ := Option.bind_eq_some_iff.mp h
      obtain ⟨q', _, hkept⟩ := kept_receive hinjective hw he hnext h
      exact ⟨g, q', hkept⟩
  | commit i =>
      obtain ⟨e, he, h⟩ := Option.bind_eq_some_iff.mp h
      obtain ⟨next, hnext, h⟩ := Option.bind_eq_some_iff.mp h
      split at h
      · next hanswered =>
          obtain ⟨g', _, hkept⟩ := kept_commit hw he hnext hanswered h
          exact ⟨g', q, hkept⟩
      · cases h
  | clear i =>
      obtain ⟨e, he, h⟩ := Option.bind_eq_some_iff.mp h
      obtain ⟨next, hnext, h⟩ := Option.bind_eq_some_iff.mp h
      split at h
      · next hfinished =>
          cases h
          refine ⟨g, q, hw.nodup, hw.le, senderKept_clear hw.nodup hw.sender ?_, hw.receiver,
            hw.exchanges⟩
          intro hpending
          have hkept := hw.exchanges e (List.mem_of_getElem? he)
          cases hkind : e.kind with
          | rotate =>
              obtain ⟨o, _, _, hplace⟩ := hkept.next
              obtain ⟨j, hj, _, _, hcommitted⟩ := hplace next hnext
              exact ⟨j, hj, hcommitted (hkept.taken hkind hfinished)⟩
          | status =>
              have htaken := hmeets e he next hnext hkind hpending
              obtain ⟨row, hrow, htenant, hdirection, hc⟩ := hw.sender.row
              rw [TradeTables.tradeCredential_eq hrow htenant hdirection] at htaken
              cases htaken
              exact ⟨g, hc, Nat.le_refl g⟩
      · cases h

/-! ### What the rotation promises -/

/-- The receiver rotates for what the sender holds: its credential, together with the next
one that it stores or, when it stores none, with any other. -/
def RotationWorld.Rotatable (pair : TradePair) (w : RotationWorld) : Prop :=
  ∃ credential, w.sender.tradeCredential pair.tenant pair.route = .ok credential
    ∧ ∀ signed now next, signed.verify pair.env "rotate" pair.receiver now = true →
      signed.document.expiresAt ≤ now + 600 →
      pair.sent signed "rotate" credential (some next) →
      (w.sender.tradeRotationInFlight pair.route = some next
        ∨ w.sender.tradeRotationInFlight pair.route = none ∧ validHex next 32 = true) →
      ∃ receiver, pair.rotateRemote w.receiver signed now = .ok receiver

/-- Both sides hold one credential, and any other one is refused: a message with it proves
nothing, unless it asks to rotate to the credential they hold. -/
def RotationWorld.Settled (pair : TradePair) (w : RotationWorld) (credential : String) : Prop :=
  w.sender.tradeCredential pair.tenant pair.route = .ok credential
    ∧ (∃ row, w.receiver.routes.find? pair.grant = some row
      ∧ row.credential = tradeSecretHash pair.env credential)
    ∧ ∀ signed purpose now route old,
      w.receiver.authenticateTrade pair.env pair.receiver signed purpose now = .ok route →
      signed.document.body.grant = some pair.grant →
      signed.document.body.credential = some old →
      old = credential ∨ purpose = "rotate" ∧ signed.document.body.next.getD "" = credential

/-- The sender's message to rotate to a credential that is not an earlier one. -/
theorem RotationWorld.Good.rotatable {pair : TradePair} {w : RotationWorld} (hw : w.Good pair) :
  w.Rotatable pair
  := by
  obtain ⟨g, q, hw⟩ := hw
  obtain ⟨srow, hsrow, htenant, hout, hg⟩ := hw.sender.row
  obtain ⟨row, c, hrow, hdirection, hkey, hstate, hc, hcredential⟩ := hw.receiver
  refine ⟨srow.credential, TradeTables.tradeCredential_eq hsrow htenant hout, ?_⟩
  rintro signed now next hverify hexpires ⟨hissuer, _, hbody⟩ hpending
  have hvalid : validHex next 32 = true := by
    rcases hpending with hpending | ⟨_, hvalid⟩
    · exact (hw.sender.pending next hpending).2
    · exact hvalid
  -- the receiver's credential is the sender's, or the one that is pending
  have hheld : c = srow.credential ∨ c = next := by
    have hle := hw.le
    have hlt := getElem?_lt hc
    have hlength := hw.sender.length
    rcases hpending with hpending | ⟨hnone, _⟩
    · have hlast := (hw.sender.pending next hpending).1
      by_cases hq : q = g
      · rw [hq, hg] at hc
        exact Or.inl (Option.some.inj hc).symm
      · have hqlast : q = w.issued.length - 1 := by omega
        rw [hqlast, hlast] at hc
        exact Or.inr (Option.some.inj hc).symm
    · have := hw.sender.settled hnone
      have hq : q = g := by omega
      rw [hq, hg] at hc
      exact Or.inl (Option.some.inj hc).symm
  have hrowid : row.route.id = pair.grant := (Table.find?_eq_some.mp hrow).2
  have hauth : w.receiver.authenticateTrade pair.env pair.receiver signed "rotate" now
      = .ok row.route := by
    rw [TradeTables.authenticateTrade, hverify, hbody]
    dsimp only
    rw [if_neg (by simpa using hexpires), hrow]
    dsimp only
    rw [if_pos]
    rw [TradeRow.accepts, hcredential, Bool.and_eq_true]
    constructor
    · rcases hheld with rfl | rfl
      · simp [hdirection]
      · simp [hdirection]
    · simp [hkey, hissuer]
  rw [TradePair.rotateRemote, hauth]
  dsimp only
  rw [if_neg hstate, hrowid, hbody, Option.getD_some, Option.getD_some,
    TradeTables.rotateTradeCredential, hvalid, hrow]
  dsimp only
  rw [if_neg (by simp), TradeRow.stored, TradeRow.stored, if_pos hdirection, if_pos hdirection,
    hcredential]
  split
  · exact ⟨_, rfl⟩
  · next hne =>
      rw [if_neg]
      · exact ⟨_, rfl⟩
      · rw [not_not]
        rcases hheld with rfl | rfl
        · rfl
        · exact absurd rfl hne

/-- Where no rotation is pending, both sides hold the last credential. -/
theorem RotationWorld.Good.settled
    {pair : TradePair}
    (hinjective : ∀ a b, tradeSecretHash pair.env a = tradeSecretHash pair.env b → a = b)
    {w : RotationWorld} (hw : w.Good pair)
    (hnone : w.sender.tradeRotationInFlight pair.route = none) :
  ∃ credential, w.Settled pair credential ∧ w.issued.getLast? = some credential
  := by
  obtain ⟨g, q, hw⟩ := hw
  obtain ⟨srow, hsrow, htenant, hout, hg⟩ := hw.sender.row
  obtain ⟨row, c, hrow, hdirection, hkey, hstate, hc, hcredential⟩ := hw.receiver
  have hlength := hw.sender.settled hnone
  have hle := hw.le
  have hlt := getElem?_lt hc
  obtain rfl : q = g := by omega
  obtain rfl : srow.credential = c := Option.some.inj (hg.symm.trans hc)
  refine ⟨srow.credential, ⟨TradeTables.tradeCredential_eq hsrow htenant hout,
    ⟨row, hrow, hcredential⟩, ?_⟩, ?_⟩
  · intro signed purpose now route old hauth hgrant hold
    obtain ⟨id, credential, row', hid, hgiven, hrow', haccepts, _⟩ :=
      TradeTables.authenticate_eq_ok hauth
    rw [hgrant] at hid
    cases hid
    rw [hold] at hgiven
    cases hgiven
    rw [hrow] at hrow'
    cases hrow'
    simp only [TradeRow.accepts, Bool.and_eq_true, Bool.or_eq_true, decide_eq_true_eq,
      hcredential] at haccepts
    rcases haccepts.2 with hsame | ⟨hpurpose, hsame⟩
    · exact Or.inl (hinjective _ _ hsame).symm
    · exact Or.inr ⟨hpurpose, (hinjective _ _ hsame).symm⟩
  · rw [List.getLast?_eq_getElem?, hlength, Nat.add_sub_cancel]
    exact hg

/-- A sender and a receiver that are paired, with this credential. -/
structure TradePair.Paired (pair : TradePair) (sender receiver : TradeTables)
    (credential : String) : Prop where
  sends : ∃ row, sender.routes.find? pair.route = some row ∧ row.route.tenant = pair.tenant
    ∧ row.route.direction = .outgoing ∧ row.credential = credential
  receives : ∃ row, receiver.routes.find? pair.grant = some row
    ∧ row.route.direction = .incoming ∧ row.route.peerKey = pair.sender
    ∧ row.route.state ≠ .revoked ∧ row.credential = tradeSecretHash pair.env credential
  settled : sender.tradeRotationInFlight pair.route = none

/-- Both ports before the first exchange. -/
def RotationWorld.begin (sender receiver : TradeTables) (credential : String) : RotationWorld :=
  ⟨sender, receiver, [], [credential]⟩

theorem TradePair.Paired.good
    {pair : TradePair} {sender receiver : TradeTables} {credential : String}
    (h : pair.Paired sender receiver credential) :
  (RotationWorld.begin sender receiver credential).Good pair
  := by
  obtain ⟨srow, hsrow, htenant, hout, hcredential⟩ := h.sends
  obtain ⟨row, hrow, hdirection, hkey, hstate, hhash⟩ := h.receives
  refine ⟨0, 0, List.nodup_singleton _, Nat.le_refl 0, ?_, ?_, ?_⟩
  · constructor
    · exact ⟨srow, hsrow, htenant, hout, congrArg some hcredential.symm⟩
    · exact Nat.le_succ 1
    · intro _
      rfl
    · intro n hn
      dsimp only [RotationWorld.begin] at hn
      rw [h.settled] at hn
      cases hn
  · exact ⟨row, credential, hrow, hdirection, hkey, hstate, rfl, hhash⟩
  · intro e he
    cases he

/-- In every run the receiver rotates for what the sender holds; and when an exchange is
cleared and no rotation is pending any more, both sides hold the last credential and every
other one is refused. -/
theorem rotation_keeps_route
    (pair : TradePair)
    (hinjective : ∀ a b, tradeSecretHash pair.env a = tradeSecretHash pair.env b → a = b)
    {sender receiver : TradeTables} {credential : String}
    (hpaired : pair.Paired sender receiver credential) {ops : List RotationOp}
    (hmeets : Runs.Along (RotationWorld.step pair) (RotationWorld.Meets pair)
      (.begin sender receiver credential) ops)
    {w : RotationWorld}
    (hrun : Runs.run (RotationWorld.step pair) (.begin sender receiver credential) ops
      = some w) :
  w.Rotatable pair
    ∧ ∀ i w', w.Meets pair (.clear i) → w.step pair (.clear i) = some w' →
        w'.sender.tradeRotationInFlight pair.route = none →
        ∃ credential, w'.Settled pair credential ∧ w'.issued.getLast? = some credential
  := by
  have hgood : w.Good pair :=
    Runs.run_invariant_along (fun _ _ _ => RotationWorld.kept_step hinjective) hmeets
      hpaired.good hrun
  refine ⟨hgood.rotatable, ?_⟩
  intro i w' hclear hstep hnone
  exact (RotationWorld.kept_step hinjective hclear hgood hstep).settled hinjective hnone

/-! ### Exchanges of two ports -/

/-- A credential of one digit. -/
def sampleSecret (c : Char) : String := String.ofList (List.replicate 32 c)

/-- Texts are their own hashes. -/
def sampleTradeEnv : StatementEnv :=
  { sampleStatementEnv with sha256 := fun bytes => bytes }

/-- Port `a` delivers to port `b`. -/
def samplePair : TradePair where
  env := sampleTradeEnv
  sender := sampleKey 'a'
  receiver := sampleKey 'b'
  tenant := "acme"
  route := "route"
  grant := "grant"

/-- The trade route at either port. -/
def sampleTradeRoute (id : String) (direction : TradeDirection) (peerKey : String) :
    TradeRoute where
  id := id
  revision := 1
  tenant := "acme"
  direction := direction
  peerKey := peerKey
  endpoint := "endpoint"
  forwarding := false
  metadataKeys := []
  state := .active
  remoteGrant := if direction = .outgoing then "grant" else ""
  cancelActive := false

/-- The tables of the sender. -/
def sampleSender : TradeTables :=
  ⟨Table.empty.upsert ⟨sampleTradeRoute "route" .outgoing (sampleKey 'b'), sampleSecret '0'⟩,
    .empty⟩

/-- The tables of the receiver. -/
def sampleReceiver : TradeTables :=
  ⟨Table.empty.upsert ⟨sampleTradeRoute "grant" .incoming (sampleKey 'a'),
    tradeSecretHash sampleTradeEnv (sampleSecret '0')⟩, .empty⟩

/-- A message of the sender. -/
def sampleMessage (purpose : String) (credential : String) (next : Option String) :
    SignedPortMessage where
  document :=
    { issuer := sampleKey 'a'
      audience := sampleKey 'b'
      purpose := purpose
      nonce := "nonce"
      expiresAt := 400
      body := ⟨some "grant", some credential, next⟩ }
  signature := sampleKey 'a' ++ sampleKey 'a'

/-- The request to rotate from one credential to another. -/
def sampleRotate (old next : Char) : SignedPortMessage :=
  sampleMessage "rotate" (sampleSecret old) (some (sampleSecret next))

theorem sampleTradeEnv_injective (a b : String)
    (h : tradeSecretHash sampleTradeEnv a = tradeSecretHash sampleTradeEnv b) :
  a = b
  := utf8_injective (hexEncode_injective h)

theorem samplePair_paired : samplePair.Paired sampleSender sampleReceiver (sampleSecret '0') where
  sends := ⟨_, rfl, rfl, rfl, rfl⟩
  receives := ⟨_, rfl, rfl, rfl, by decide, rfl⟩
  settled := rfl

/-- An exchange up to its reply. -/
def rotateOnce : List RotationOp :=
  [.start .rotate, .pend 0 (sampleSecret '1'), .request 0 (sampleRotate '0' '1') 100, .commit 0]

/-- A check of the status that overlaps two rotations, up to its end.  The reply of the
second one is not there yet. -/
def statusOverlaps : List RotationOp :=
  [.start .status, .start .rotate, .pend 1 (sampleSecret '1'),
    .request 1 (sampleRotate '0' '1') 100, .commit 1, .clear 1,
    .start .rotate, .pend 2 (sampleSecret '2'), .request 2 (sampleRotate '1' '2') 100,
    .refuse 0 (sampleMessage "status" (sampleSecret '0') none) 100, .inFlight 0,
    .request 0 (sampleMessage "status" (sampleSecret '2') none) 100, .commit 0]

/-- The check clears the second one after its reply: both ports hold its credential. -/
theorem rotation_keeps_route_once :
  ∃ w w' credential, Runs.run (RotationWorld.step samplePair)
      (.begin sampleSender sampleReceiver (sampleSecret '0')) (statusOverlaps ++ [.commit 2])
        = some w
    ∧ w.Rotatable samplePair ∧ w.step samplePair (.clear 0) = some w'
    ∧ w'.Settled samplePair credential
  := by
  have hmeets : Runs.Along (RotationWorld.step samplePair) (RotationWorld.Meets samplePair)
      (.begin sampleSender sampleReceiver (sampleSecret '0')) (statusOverlaps ++ [.commit 2]) := by
    decide +kernel
  have hsome : ((Runs.run (RotationWorld.step samplePair)
      (.begin sampleSender sampleReceiver (sampleSecret '0')) (statusOverlaps ++ [.commit 2])).bind
        fun w => (w.step samplePair (.clear 0)).map fun w' =>
          (decide (w.Meets samplePair (.clear 0)), w'.sender.tradeRotationInFlight "route"))
      = some (true, none) := by
    decide +kernel
  obtain ⟨w, hrun, hsome⟩ := Option.bind_eq_some_iff.mp hsome
  obtain ⟨w', hclear, hend⟩ := Option.map_eq_some_iff.mp hsome
  simp only [Prod.mk.injEq, decide_eq_true_eq] at hend
  obtain ⟨hmeets', hnone⟩ := hend
  obtain ⟨hrotatable, hsettled⟩ :=
    rotation_keeps_route samplePair sampleTradeEnv_injective samplePair_paired hmeets hrun
  obtain ⟨credential, hsettled, _⟩ := hsettled 0 w' hmeets' hclear hnone
  exact ⟨w, w', credential, hrun, hrotatable, hclear, hsettled⟩

/-- After a rotation the old credential is accepted in a request to rotate to the new one;
and a check of the status that overlaps two rotations leaves a sender whose credential is
refused. -/
theorem rotate_after_rotation :
  (∃ w, Runs.run (RotationWorld.step samplePair)
      (.begin sampleSender sampleReceiver (sampleSecret '0')) (rotateOnce ++ [.clear 0]) = some w
    ∧ w.sender.tradeCredential "acme" "route" = .ok (sampleSecret '1')
    ∧ (w.receiver.authenticateTrade sampleTradeEnv (sampleKey 'b') (sampleRotate '0' '1')
        "rotate" 100).isOk = true)
  ∧ ∃ w, Runs.run (RotationWorld.step samplePair)
      (.begin sampleSender sampleReceiver (sampleSecret '0')) (statusOverlaps ++ [.clear 0]) = some w
    ∧ w.sender.tradeCredential "acme" "route" = .ok (sampleSecret '1')
    ∧ w.sender.tradeRotationInFlight "route" = none
    ∧ (samplePair.rotateRemote w.receiver (sampleRotate '1' '3') 100).isOk = false
  := by
  have h : (Runs.run (RotationWorld.step samplePair)
      (.begin sampleSender sampleReceiver (sampleSecret '0')) (rotateOnce ++ [.clear 0])).map
        (fun w => (w.sender.tradeCredential "acme" "route",
          (w.receiver.authenticateTrade sampleTradeEnv (sampleKey 'b') (sampleRotate '0' '1')
            "rotate" 100).isOk))
      = some (.ok (sampleSecret '1'), true) := by
    decide +kernel
  have h' : (Runs.run (RotationWorld.step samplePair)
      (.begin sampleSender sampleReceiver (sampleSecret '0')) (statusOverlaps ++ [.clear 0])).map
        (fun w => (w.sender.tradeCredential "acme" "route",
          w.sender.tradeRotationInFlight "route",
          (samplePair.rotateRemote w.receiver (sampleRotate '1' '3') 100).isOk))
      = some (.ok (sampleSecret '1'), none, false) := by
    decide +kernel
  obtain ⟨w, hrun, he⟩ := Option.map_eq_some_iff.mp h
  obtain ⟨w', hrun', he'⟩ := Option.map_eq_some_iff.mp h'
  simp only [Prod.mk.injEq] at he he'
  exact ⟨⟨w, hrun, he⟩, w', hrun', he'⟩

end Votport
