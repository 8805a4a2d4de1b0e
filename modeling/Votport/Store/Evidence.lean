import Votport.Foundation.HashChain
import Votport.Foundation.Runs
import Votport.Foundation.Words
import Mathlib.Data.List.Pairwise
import Mathlib.Tactic.Common

/-!
# The log of delivery events

Every delivery event is a row that carries the hash of its tenant's previous event, a
signature and its own hash.  The export reads a tenant's events from a checkpoint on, one
page at a time, and checks every event it returns.  Rendering a payload, hashing, signing
and the sizes of documents are parameters.
-/

namespace Votport

variable {π : Type*}

/-! ### Rows and events -/

/-- A row of `delivery_events`. -/
structure EventRow where
  id : Int
  tenant : String
  grantId : String
  kind : String
  createdAt : UInt64
  payload : String
  previousHash : String
  hash : String
  issuer : String
  signature : String
deriving DecidableEq, Repr

/-- A delivery event. -/
structure DeliveryEvent (π : Type*) where
  id : Nat
  tenant : String
  grantId : String
  kind : String
  createdAt : UInt64
  payload : π
  previousHash : String
  hash : String
  issuer : String
  signature : String
deriving DecidableEq

/-- What an event's signature and hash are over. -/
structure EventDocument (π : Type*) where
  id : Nat
  tenant : String
  grantId : String
  kind : String
  createdAt : UInt64
  payload : π
  previousHash : String
  issuer : String
deriving DecidableEq

/-- The document of an event. -/
def DeliveryEvent.document (event : DeliveryEvent π) : EventDocument π where
  id := event.id
  tenant := event.tenant
  grantId := event.grantId
  kind := event.kind
  createdAt := event.createdAt
  payload := event.payload
  previousHash := event.previousHash
  issuer := event.issuer

/-- A place in a tenant's log: the id of an event and its hash. -/
structure EventCheckpoint where
  id : Nat
  hash : String
deriving DecidableEq, Repr

/-- The place before the first event. -/
def EventCheckpoint.default : EventCheckpoint where
  id := 0
  hash := ""

/-- The place of an event. -/
def EventCheckpoint.of (event : DeliveryEvent π) : EventCheckpoint where
  id := event.id
  hash := event.hash

/-- What the log takes from the crates it uses. -/
structure EventEnv (π : Type*) where
  /-- The text of a payload. -/
  render : π → String
  parse : String → Option π
  /-- The hash of a document with its signature. -/
  digest : EventDocument π → String → String
  /-- The signature of a document with the server's key. -/
  sign : EventDocument π → String
  signatureVerifies : String → EventDocument π → String → Bool
  /-- The server's public key. -/
  issuer : String
  /-- The length of a serialized event. -/
  eventBytes : DeliveryEvent π → Nat
  /-- The length of a serialized export without events, from its start and its end. -/
  envelopeBytes : String → EventCheckpoint → EventCheckpoint → Nat

/-- What is known of them: payloads can be read back, the server's signatures verify, and
no two documents with signatures have one hash. -/
structure EventEnv.Lawful (env : EventEnv π) : Prop where
  parse_render : ∀ payload, env.parse (env.render payload) = some payload
  verifies : ∀ document, env.signatureVerifies env.issuer document (env.sign document) = true
  digest_injective : ∀ document signature document' signature',
    env.digest document signature = env.digest document' signature' →
      document = document' ∧ signature = signature'
  digest_ne_empty : ∀ document signature, env.digest document signature ≠ ""

/-- The largest page. -/
def maxEventPageBytes : Nat := 16 * 1024 * 1024

/-- The event is signed by its issuer and carries the hash of its document. -/
def DeliveryEvent.verify (env : EventEnv π) (event : DeliveryEvent π) : Bool :=
  env.digest event.document event.signature = event.hash
    && env.signatureVerifies event.issuer event.document event.signature

/-- The event is a verified one of the server for the tenant. -/
def DeliveryEvent.verifyFor (env : EventEnv π) (tenant : String) (event : DeliveryEvent π) :
    Bool :=
  event.issuer = env.issuer && event.tenant = tenant && decide (0 < event.id)
    && event.verify env

/-- The event of a row, none when its payload cannot be read. -/
def EventRow.event? (env : EventEnv π) (row : EventRow) : Option (DeliveryEvent π) :=
  (env.parse row.payload).map fun payload =>
    { id := asU64 row.id
      tenant := row.tenant
      grantId := row.grantId
      kind := row.kind
      createdAt := row.createdAt
      payload := payload
      previousHash := row.previousHash
      hash := row.hash
      issuer := row.issuer
      signature := row.signature }

/-- The text columns of a row. -/
def EventRow.texts (row : EventRow) : List String :=
  [row.tenant, row.grantId, row.kind, row.payload, row.previousHash, row.hash, row.issuer,
    row.signature]

/-- Reads a row, which is refused when a text column is larger than a page. -/
def eventRow (env : EventEnv π) (row : EventRow) : Option (DeliveryEvent π) :=
  if row.texts.any (fun text => decide (maxEventPageBytes < text.utf8ByteSize)) then none
  else row.event? env

/-- The row of an event. -/
def DeliveryEvent.row (env : EventEnv π) (event : DeliveryEvent π) : EventRow where
  id := event.id
  tenant := event.tenant
  grantId := event.grantId
  kind := event.kind
  createdAt := event.createdAt
  payload := env.render event.payload
  previousHash := event.previousHash
  hash := event.hash
  issuer := event.issuer
  signature := event.signature

/-! ### The export -/

/-- The table `delivery_events` in the order of its ids. -/
structure EventTable where
  rows : List EventRow
  sorted : rows.Pairwise (·.id < ·.id)

/-- The rows of a tenant. -/
def EventTable.ofTenant (table : EventTable) (tenant : String) : List EventRow :=
  table.rows.filter (·.tenant = tenant)

/-- The place of the tenant's last event up to an id, none when it does not verify. -/
def predecessor (env : EventEnv π) (table : EventTable) (tenant : String) (through : Nat) :
    Option EventCheckpoint :=
  match ((table.ofTenant tenant).filter (·.id ≤ (through : Int))).getLast? with
  | none => some .default
  | some row =>
      (eventRow env row).bind fun event =>
        if event.verifyFor env tenant then some (.of event) else none

/-- The checkpoint is a place in the tenant's log. -/
def requireCheckpoint
    (env : EventEnv π) (table : EventTable) (tenant : String) (checkpoint : EventCheckpoint) :
    Bool :=
  decide (checkpoint.id ≤ i64Max)
    && decide (predecessor env table tenant checkpoint.id = some checkpoint)

/-- Reads the rows of a page, `isFirst` before the first event.  An event that does not
verify or is not linked to the previous one refuses the page, one that does not fit ends
it. -/
def pageRows (env : EventEnv π) (tenant : String) (budget : Nat) (isFirst : Bool)
    (previous : EventCheckpoint) (bytes : Nat) : List EventRow → Option (List (DeliveryEvent π))
  | [] => some []
  | row :: rows =>
      (eventRow env row).bind fun event =>
        if !event.verifyFor env tenant || decide (event.id ≤ previous.id)
            || !decide (event.previousHash = previous.hash) then none
        else if budget < bytes + (env.eventBytes event + 1) then
          if isFirst then none else some []
        else
          (pageRows env tenant budget false (.of event) (bytes + (env.eventBytes event + 1))
            rows).map (event :: ·)

/-- A page of the tenant's events after `start` and up to an id. -/
def eventPage
    (env : EventEnv π) (table : EventTable) (tenant : String) (start : EventCheckpoint)
    (through limit budget : Nat) : Option (List (DeliveryEvent π)) :=
  pageRows env tenant budget true start 0
    (((table.ofTenant tenant).filter
      (fun row => (start.id : Int) < row.id ∧ row.id ≤ (through : Int))).take (min limit 100))

/-- A page as the export returns it. -/
structure EventExport (π : Type*) where
  start : EventCheckpoint
  finish : EventCheckpoint
  terminal : EventCheckpoint
  complete : Bool
  events : List (DeliveryEvent π)

/-- The terminal place of an export: the one asked for, or the last event. -/
def exportTerminal
    (env : EventEnv π) (table : EventTable) (tenant : String) :
    Option EventCheckpoint → Option EventCheckpoint
  | some terminal =>
      if requireCheckpoint env table tenant terminal then some terminal else none
  | none => predecessor env table tenant i64Max

/-- The export once its start and its terminal place are known. -/
def exportBetween
    (env : EventEnv π) (table : EventTable) (tenant : String)
    (start terminal : EventCheckpoint) (limit : Nat) : Option (EventExport π) :=
  if terminal.id < start.id then none
  else if maxEventPageBytes < env.envelopeBytes tenant start terminal then none
  else
    (eventPage env table tenant start terminal.id limit
      (maxEventPageBytes - env.envelopeBytes tenant start terminal)).bind fun events =>
      let finish := (events.getLast?.map .of).getD start
      if finish ≠ terminal ∧ events = [] then none
      else some ⟨start, finish, terminal, finish = terminal, events⟩

/-- Exports a page of a tenant's events, none when the export is refused. -/
def deliveryEventExport
    (env : EventEnv π) (table : EventTable) (tenant : String) (start : EventCheckpoint)
    (terminal : Option EventCheckpoint) (limit : Nat) : Option (EventExport π) :=
  if limit < 1 ∨ 100 < limit then none
  else if requireCheckpoint env table tenant start then
    (exportTerminal env table tenant terminal).bind fun terminal =>
      exportBetween env table tenant start terminal limit
  else none

/-! ### Appending -/

/-- The table with the largest id it has given. -/
structure EventLog extends EventTable where
  sequence : Nat
  bounded : ∀ row ∈ rows, row.id ≤ (sequence : Int)

/-- The log before the first event. -/
def EventLog.empty : EventLog where
  rows := []
  sorted := List.Pairwise.nil
  sequence := 0
  bounded _ h := by cases h

/-- The hash of the tenant's last event, empty before the first. -/
def EventTable.lastHash (table : EventTable) (tenant : String) : String :=
  ((table.ofTenant tenant).getLast?.map EventRow.hash).getD ""

/-- The document of the next event. -/
def nextDocument
    (env : EventEnv π) (log : EventLog) (tenant grantId kind : String) (payload : π)
    (now : UInt64) : EventDocument π where
  id := log.sequence + 1
  tenant := tenant
  grantId := grantId
  kind := kind
  createdAt := now
  payload := payload
  previousHash := log.lastHash tenant
  issuer := env.issuer

/-- The event of a document, signed and hashed. -/
def EventDocument.event (env : EventEnv π) (document : EventDocument π) : DeliveryEvent π where
  id := document.id
  tenant := document.tenant
  grantId := document.grantId
  kind := document.kind
  createdAt := document.createdAt
  payload := document.payload
  previousHash := document.previousHash
  hash := env.digest document (env.sign document)
  issuer := document.issuer
  signature := env.sign document

/-- The log with one more row. -/
def EventLog.push (log : EventLog) (row : EventRow) (hid : row.id = (log.sequence : Int) + 1) :
    EventLog where
  rows := log.rows ++ [row]
  sorted := by
    rw [List.pairwise_append]
    refine ⟨log.sorted, List.pairwise_singleton _ _, ?_⟩
    intro a ha b hb
    rw [List.mem_singleton.mp hb, hid]
    have := log.bounded a ha
    omega
  sequence := log.sequence + 1
  bounded := by
    intro a ha
    rcases List.mem_append.mp ha with ha | ha
    · have := log.bounded a ha
      push_cast
      omega
    · rw [List.mem_singleton.mp ha, hid]
      push_cast
      omega

/-- Appends an event to its tenant's chain, refused when the ids are used up. -/
def deliveryEvent
    (env : EventEnv π) (log : EventLog) (tenant grantId kind : String) (payload : π)
    (now : UInt64) : Option EventLog :=
  if log.sequence < i64Max then
    some (log.push ((nextDocument env log tenant grantId kind payload now).event env |>.row env)
      (by simp [DeliveryEvent.row, EventDocument.event, nextDocument]))
  else none

end Votport
