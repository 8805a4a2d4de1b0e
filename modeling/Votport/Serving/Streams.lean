import Votport.Delivery.Projects

/-!
# Streams of downloads

A stream that delivers files of a grant claims a place among the running downloads, takes the
cancellation token of the grant, and asks again for access before it sends anything.  The
sessions of one fetch share a place.  A revocation, or another change that closes a grant to
its key, is followed by the cancelling of the token.  Each step holds a lock of the port, and
the steps of different streams and operators come in any order.
-/

namespace Votport

/-! ### Places -/

/-- The most running downloads. -/
def maxActive : Nat := 32

/-- The most running downloads of a grant. -/
def maxActivePerGrant : Nat := 16

/-- How a stream delivers files. -/
inductive DownloadPath
  | file (index : Nat)
  | leased (index : Nat) (random : String)
  | batch
  | bundle
  /-- A session of the fetch with the token. -/
  | fetch (token : String)
deriving DecidableEq, Repr

/-- The key of a stream's place. -/
def DownloadPath.key (path : DownloadPath) (tokenHash : String) : String :=
  match path with
  | .file index => tokenHash ++ ":" ++ toString index
  | .leased index random => tokenHash ++ ":" ++ (toString index ++ ":" ++ random)
  | .batch => tokenHash ++ ":" ++ "batch"
  | .bundle => tokenHash ++ ":" ++ "bundle"
  | .fetch token => tokenHash ++ ":" ++ ("quic:" ++ token)

/-- The path is one of a fetch. -/
def DownloadPath.isFetch : DownloadPath → Bool
  | .fetch _ => true
  | _ => false

/-- The grant that `ActiveDownload::claim` counts the place for. -/
def DownloadPath.countedGrant (path : DownloadPath) (tokenHash : String) : String :=
  match path with
  | .leased _ _ | .fetch _ => tokenHash
  | path =>
      match Fields.rsplitOnce [':'] (path.key tokenHash).toList with
      | none => path.key tokenHash
      | some parts => String.ofList parts.1

/-- The place is one of the grant. -/
def isOfGrant (grant key : String) : Bool := beginsWith key (grant ++ ":")

/-- The grant that `ActiveDownload::drop` reads from a key. -/
def keyGrant (key : String) : String := String.ofList (key.toList.takeWhile (· ≠ ':'))

/-- There is a place with this key. -/
def hasPlace (active : List String) (grant key : String) : Prop :=
  key ∉ active ∧ active.length < maxActive
    ∧ active.countP (isOfGrant grant) < maxActivePerGrant

instance (active : List String) (grant key : String) : Decidable (hasPlace active grant key) :=
  inferInstanceAs (Decidable (_ ∧ _ ∧ _))

/-! ### Worlds -/

/-- Where a stream stands. -/
inductive StreamStage
  | claimed
  | subscribed
  | admitted
  | refused
  | ended
deriving DecidableEq, Repr

/-- A stream. -/
structure StreamRow where
  id : String
  grantId : String
  tokenHash : String
  /-- The key of its place. -/
  key : String
  isFetch : Bool
  stage : StreamStage
  /-- Its cancellation token. -/
  cancel : Option Nat
  /-- The deadline that its gate knows. -/
  deadline : UInt64
deriving DecidableEq, Repr

/-- The place of a fetch.  The ticket of a fetch names one hash, so that the key of the place
stands for its token. -/
structure FetchSlot where
  key : String
  sessions : Nat
deriving DecidableEq, Repr

/-- The cancellation token that the streams of a grant take. -/
structure CancelRow where
  tokenHash : String
  token : Nat
deriving DecidableEq, Repr

/-- A call of `cancel_grant_streams` that has taken the token out and not yet cancelled it. -/
structure CancelCall where
  tokenHash : String
  token : Option Nat
deriving DecidableEq, Repr

/-- A drop that holds the lock of the places: it is about to remove the token of a grant
without running downloads. -/
structure Dropping where
  grant : String
  /-- The lock of the fetches' places is held too. -/
  slots : Bool
deriving DecidableEq, Repr

/-- The streams of a port. -/
structure StreamWorld where
  grants : Table DeliveryGrantRow.id
  /-- The hashes that tokens of grants were given. -/
  hashes : List String
  now : UInt64
  /-- `App::outbound_active`. -/
  active : List String
  /-- `ServeRegistry::slots`. -/
  slots : Table FetchSlot.key
  /-- `App::outbound_stream_cancels`. -/
  cancels : Table CancelRow.tokenHash
  /-- The number of tokens made so far. -/
  tokens : Nat
  cancelled : List Nat
  calls : List CancelCall
  /-- What the calls of `cancel_stale_grant_streams` have still to look at. -/
  sweeps : List (List String)
  dropping : Option Dropping
  streams : Table StreamRow.id

/-- An operation. -/
inductive StreamOp
  /-- The port has another grant. -/
  | share (grant : DeliveryGrantRow)
  | claim (id grantId tokenHash : String) (path : DownloadPath)
  | subscribe (id : String) (deadline : UInt64)
  /-- The stream asks for access again; `permitted` is what else that depends on. -/
  | recheck (id : String) (permitted : Bool)
  | frame (id : String)
  | drop (id : String)
  /-- The drop removes the token of the grant. -/
  | dropped
  | revoke (id : String)
  | rotate (id tokenHash : String)
  | extend (id : String) (expiresAt : Int)
  /-- `cancel_grant_streams` takes the token out. -/
  | lookUp (tokenHash : String)
  /-- `cancel_grant_streams` cancels the token. -/
  | cancel (call : Nat)
  /-- `cancel_stale_grant_streams` lists the grants with a token. -/
  | sweep
  /-- `cancel_stale_grant_streams` looks at the next grant, unless the store answers with an
  error. -/
  | check (sweep : Nat) (permitted : Option Bool)
  | tick (now : UInt64)

/-! ### Steps -/

/-- The row of a live stream with another stage. -/
def StreamRow.at (s : StreamRow) (stage : StreamStage) : StreamRow := { s with stage := stage }

/-- `outbound_grant_deadline`. -/
def StreamWorld.grantDeadline (w : StreamWorld) (tokenHash : String) : Option UInt64 :=
  (w.grants.rows.find? fun g => g.tokenHash = tokenHash ∧ g.revokedAt = none).map fun g =>
    UInt64.ofNat (max g.expiresAt 0).toNat

/-- The token is cancelled. -/
def StreamWorld.isCancelled (w : StreamWorld) (s : StreamRow) : Bool :=
  s.cancel.any w.cancelled.contains

/-- `StreamGate::stopped`. -/
def StreamWorld.stopped (w : StreamWorld) (s : StreamRow) : Bool :=
  w.isCancelled s
    || (decide (s.deadline ≤ w.now) && !(w.grantDeadline s.tokenHash).any fun d => w.now < d)

/-- The stream after its gate was asked. -/
def StreamWorld.refreshed (w : StreamWorld) (s : StreamRow) : StreamRow :=
  if w.isCancelled s ∨ w.now < s.deadline then s
  else
    match (w.grantDeadline s.tokenHash).filter fun d => w.now < d with
    | none => s
    | some d => { s with deadline := max s.deadline d }

/-- The world with the stream. -/
def StreamWorld.put (w : StreamWorld) (s : StreamRow) : StreamWorld :=
  { w with streams := w.streams.upsert s }

/-- A stream that has claimed its place. -/
def DownloadPath.stream (path : DownloadPath) (id grantId tokenHash : String) : StreamRow where
  id := id
  grantId := grantId
  tokenHash := tokenHash
  key := path.key tokenHash
  isFetch := path.isFetch
  stage := .claimed
  cancel := none
  deadline := 0

/-- `ActiveDownload::claim_with_grant`, and for a fetch `ServeRegistry::claim_slot`. -/
def StreamWorld.claim (w : StreamWorld) (s : StreamRow) (grant : String) : StreamWorld :=
  match if s.isFetch then w.slots.find? s.key else none with
  | some slot =>
      if w.dropping.any Dropping.slots then w
      else { w.put s with slots := w.slots.upsert { slot with sessions := slot.sessions + 1 } }
  | none =>
      if w.dropping.isNone ∧ hasPlace w.active grant s.key then
        { w.put s with
          active := s.key :: w.active
          slots := if s.isFetch then w.slots.upsert ⟨s.key, 1⟩ else w.slots }
      else w

/-- `ActiveDownload::drop` as far as it looks for other downloads of the grant. -/
def StreamWorld.dropPlace (w : StreamWorld) (key : String) (slots : Bool) : StreamWorld :=
  let active := w.active.filter (· ≠ key)
  { w with
    active := active
    dropping :=
      if active.any (isOfGrant (keyGrant key)) then none else some ⟨keyGrant key, slots⟩ }

/-- The drop of a stream, and for a fetch `ServeRegistry::release_slot`. -/
def StreamWorld.drop (w : StreamWorld) (s : StreamRow) : StreamWorld :=
  if s.isFetch then
    match w.slots.find? s.key with
    | none => w.put (s.at .ended)
    | some slot =>
        if 1 < slot.sessions then
          if w.dropping.any Dropping.slots then w
          else
            { w.put (s.at .ended) with
              slots := w.slots.upsert { slot with sessions := slot.sessions - 1 } }
        else if w.dropping.isSome then w
        else
          ({ w.put (s.at .ended) with slots := w.slots.erase s.key }).dropPlace s.key true
  else if w.dropping.isSome then w
  else (w.put (s.at .ended)).dropPlace s.key false

/-- The grants with another row for one that is not revoked. -/
def StreamWorld.changeGrant (w : StreamWorld) (id : String)
    (f : DeliveryGrantRow → DeliveryGrantRow) : StreamWorld :=
  match w.grants.find? id with
  | none => w
  | some g => if g.revokedAt = none then { w with grants := w.grants.upsert (f g) } else w

/-- `cancel_grant_streams` as far as it takes the token out. -/
def StreamWorld.lookUp (w : StreamWorld) (tokenHash : String) : StreamWorld :=
  { w with
    calls := w.calls ++ [⟨tokenHash, (w.cancels.find? tokenHash).map CancelRow.token⟩]
    cancels := w.cancels.erase tokenHash }

/-- The rest of a call of `cancel_grant_streams`. -/
def StreamWorld.finishCancel (w : StreamWorld) (i : Nat) : StreamWorld :=
  match w.calls[i]? with
  | none => w
  | some call =>
      { w with calls := w.calls.eraseIdx i, cancelled := call.token.toList ++ w.cancelled }

/-- `outbound_grant_admits`. -/
def StreamWorld.grantAdmits (w : StreamWorld) (tokenHash : String) (permitted : Bool) : Bool :=
  (w.grantDeadline tokenHash).any (fun d => w.now < d) && permitted

/-- The answer of `outbound_grant_admits` is not that the grant admits nothing. -/
def StreamWorld.keeps (w : StreamWorld) (tokenHash : String) (permitted : Option Bool) : Bool :=
  permitted.all (w.grantAdmits tokenHash)

/-- A turn of `cancel_stale_grant_streams`. -/
def StreamWorld.check (w : StreamWorld) (i : Nat) (permitted : Option Bool) : StreamWorld :=
  match w.sweeps[i]? with
  | some (tokenHash :: rest) =>
      let w' := { w with sweeps := w.sweeps.set i rest }
      if w.keeps tokenHash permitted then w' else w'.lookUp tokenHash
  | _ => w

/-- `StreamGate::for_grant`. -/
def StreamWorld.subscribe (w : StreamWorld) (s : StreamRow) (deadline : UInt64) : StreamWorld :=
  match w.cancels.find? s.tokenHash with
  | some row =>
      w.put { s with stage := .subscribed, cancel := some row.token, deadline := deadline }
  | none =>
      { w.put { s with stage := .subscribed, cancel := some w.tokens, deadline := deadline } with
        cancels := w.cancels.upsert ⟨s.tokenHash, w.tokens⟩
        tokens := w.tokens + 1 }

/-- The grant is open to the stream. -/
def StreamWorld.opens (w : StreamWorld) (s : StreamRow) : Bool :=
  (w.grants.find? s.grantId).any fun g => g.opens s.tokenHash w.now

/-- The world after one operation. -/
def StreamWorld.step (w : StreamWorld) : StreamOp → StreamWorld
  | .share grant =>
      -- A token is made at random, so its hash is a new one.
      if grant.tokenHash ∈ w.hashes then w
      else
        match w.grants.insert? grant with
        | none => w
        | some grants => { w with grants := grants, hashes := grant.tokenHash :: w.hashes }
  | .claim id grantId tokenHash path =>
      -- A hash is written in hexadecimal digits.
      if (w.streams.find? id).isSome ∨ ':' ∈ tokenHash.toList then w
      else w.claim (path.stream id grantId tokenHash) (path.countedGrant tokenHash)
  | .subscribe id deadline =>
      match w.streams.find? id with
      | none => w
      | some s => if s.stage = .claimed then w.subscribe s deadline else w
  | .recheck id permitted =>
      match w.streams.find? id with
      | none => w
      | some s =>
          if s.stage = .subscribed then
            w.put (s.at (if w.opens s ∧ permitted = true then .admitted else .refused))
          else w
  | .frame id =>
      match w.streams.find? id with
      | none => w
      | some s => if s.stage = .admitted then w.put (w.refreshed s) else w
  | .drop id =>
      match w.streams.find? id with
      | none => w
      | some s => if s.stage = .ended then w else w.drop s
  | .dropped =>
      match w.dropping with
      | none => w
      | some d => { w with dropping := none, cancels := w.cancels.erase d.grant }
  | .revoke id => w.changeGrant id fun g => { g with revokedAt := some (asI64 w.now.toNat) }
  | .rotate id tokenHash =>
      if tokenHash ∈ w.hashes then w
      else
        { w.changeGrant id fun g => { g with tokenHash := tokenHash } with
          hashes := tokenHash :: w.hashes }
  | .extend id expiresAt => w.changeGrant id fun g => { g with expiresAt := expiresAt }
  | .lookUp tokenHash => w.lookUp tokenHash
  | .cancel call => w.finishCancel call
  | .sweep => { w with sweeps := w.sweeps ++ [w.cancels.rows.map CancelRow.tokenHash] }
  | .check sweep permitted => w.check sweep permitted
  | .tick now => if w.now ≤ now then { w with now := now } else w

/-- The world after some operations. -/
def StreamWorld.run (w : StreamWorld) (ops : List StreamOp) : StreamWorld :=
  ops.foldl StreamWorld.step w

/-- A port that starts.  The grants that its database has come in like new ones. -/
def StreamWorld.begin (now : UInt64) : StreamWorld where
  grants := .empty
  hashes := []
  now := now
  active := []
  slots := .empty
  cancels := .empty
  tokens := 0
  cancelled := []
  calls := []
  sweeps := []
  dropping := none
  streams := .empty

/-- No grant is open with the hash any more. -/
def StreamWorld.Closed (w : StreamWorld) (tokenHash : String) : Prop :=
  tokenHash ∈ w.hashes ∧ ∀ g ∈ w.grants.rows, g.tokenHash = tokenHash → g.revokedAt.isSome = true

instance (w : StreamWorld) (tokenHash : String) : Decidable (w.Closed tokenHash) :=
  inferInstanceAs (Decidable (_ ∧ _))

end Votport
