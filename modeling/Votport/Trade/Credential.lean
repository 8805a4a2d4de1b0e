import Votport.Foundation.Table
import Votport.Protocol.Routes

/-!
# The credentials of trade routes

A sending port proves itself on a trade route with a secret that the receiving port knows
by its hash.  A rotation replaces the secret: the sender stores the next one, asks the
receiver to take it, and takes it itself when the receiver has answered.
-/

namespace Votport

variable (env : StatementEnv)

/-! ### Routes -/

/-- The side of a trade route. -/
inductive TradeDirection
  | incoming
  | outgoing
deriving DecidableEq, Repr

/-- How a trade route stands. -/
inductive TradeState
  | pendingApproval
  | active
  | paused
  | revoked
deriving DecidableEq, Repr

/-- A trade route. -/
structure TradeRoute where
  id : String
  revision : Nat
  tenant : String
  direction : TradeDirection
  peerKey : String
  endpoint : String
  forwarding : Bool
  metadataKeys : List String
  state : TradeState
  remoteGrant : String
  cancelActive : Bool
deriving DecidableEq, Repr

/-- A row of `trade_routes`: the route and its credential, hashed at the receiver. -/
structure TradeRow where
  route : TradeRoute
  credential : String
deriving DecidableEq, Repr

/-- The id of a row. -/
def TradeRow.id (row : TradeRow) : String := row.route.id

/-- A row of `trade_rotations`: the next credential of a route. -/
structure TradeRotation where
  routeId : String
  credential : String
deriving DecidableEq, Repr

/-- The trade tables of a port. -/
structure TradeTables where
  routes : Table TradeRow.id
  rotations : Table TradeRotation.routeId

/-! ### Authentication -/

/-- The hash of a secret. -/
def tradeSecretHash (secret : String) : String :=
  hexEncode (env.sha256 secret.toUTF8.data.toList)

/-- The text has this many lowercase hexadecimal digits. -/
def validHex (value : String) (len : Nat) : Bool :=
  decide (value.utf8ByteSize = len) && lowerHex value

/-- The row holds the credential, or is asked to rotate to the one it holds. -/
def TradeRow.accepts (row : TradeRow) (purpose credential next : String) : Bool :=
  decide (row.route.direction = .incoming)
    && (decide (row.credential = tradeSecretHash env credential)
      || (decide (purpose = "rotate") && decide (row.credential = tradeSecretHash env next)))

/-- The incoming route that a message proves its right to. -/
def TradeTables.authenticateTrade
    (db : TradeTables) (publicHex : String) (signed : SignedPortMessage) (purpose : String)
    (now : UInt64) : Except String TradeRoute :=
  if !signed.verify env purpose publicHex now || decide (now + 600 < signed.document.expiresAt) then
    .error "invalid peer proof"
  else
    match signed.document.body.grant, signed.document.body.credential with
    | none, _ => .error "missing grant"
    | some _, none => .error "missing credential"
    | some id, some credential =>
        match db.routes.find? id with
        | none => .error "route not found"
        | some row =>
            if row.accepts env purpose credential (signed.document.body.next.getD "")
                && decide (row.route.peerKey = signed.document.issuer) then
              .ok row.route
            else .error "route credential or peer identity is invalid"

/-! ### Rotation -/

/-- The credential of an outgoing route. -/
def TradeTables.tradeCredential (db : TradeTables) (tenant id : String) : Except String String :=
  match db.routes.find? id with
  | none => .error "Query returned no rows"
  | some row =>
      if row.route.tenant = tenant ∧ row.route.direction = .outgoing then .ok row.credential
      else .error "Query returned no rows"

/-- A credential as the row stores it. -/
def TradeRow.stored (row : TradeRow) (credential : String) : String :=
  if row.route.direction = .incoming then tradeSecretHash env credential else credential

/-- Replaces the credential of a route; done already when it holds the next one. -/
def TradeTables.rotateTradeCredential (db : TradeTables) (id previous next : String) :
    Except String TradeTables :=
  if !validHex next 32 then .error "invalid credential"
  else
    match db.routes.find? id with
    | none => .error "Query returned no rows"
    | some row =>
        if row.credential = row.stored env next then .ok db
        else if row.credential ≠ row.stored env previous then
          .error "credential changed; retry with current credentials"
        else .ok { db with routes := db.routes.upsert { row with credential := row.stored env next } }

/-- The next credential of an outgoing route: the stored one, or a new one. -/
def TradeTables.pendingTradeRotation (db : TradeTables) (tenant id fresh : String) :
    Except String (String × TradeTables) :=
  match db.routes.find? id with
  | none => .error "route not found"
  | some row =>
      if row.route.tenant ≠ tenant ∨ row.route.direction ≠ .outgoing then
        .error "route unavailable"
      else
        match db.rotations.find? id with
        | some rotation => .ok (rotation.credential, db)
        | none => .ok (fresh, { db with rotations := db.rotations.upsert ⟨id, fresh⟩ })

/-- The next credential of a rotation that is not confirmed. -/
def TradeTables.tradeRotationInFlight (db : TradeTables) (id : String) : Option String :=
  (db.rotations.find? id).map TradeRotation.credential

/-- Forgets the next credential of a route. -/
def TradeTables.clearTradeRotation (db : TradeTables) (id next : String) : TradeTables :=
  { db with
    rotations := db.rotations.filter fun r => ¬ (r.routeId = id ∧ r.credential = next) }

end Votport
