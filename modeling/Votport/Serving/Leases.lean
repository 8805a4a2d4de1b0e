import Votport.Foundation.Runs
import Votport.Store.Downloads

/-!
# Leased downloads

A request for a file of a grant is redirected with a lease, and the requests with the lease
deliver the file, whole or by ranges.  A retrieval that hands the last byte over counts as a
download, once for its lease: it marks the lease as counted, and a record that is spawned there
counts the download later, or is refused.  A counted lease passes where the count of the file
is spent.  The steps of the requests and of the records come in any order.
-/

namespace Votport

/-- `COUNTED_LEASES_CAP`. -/
def countedLeasesCap : ℕ := 4096

/-- `DOWNLOAD_LEASE_SECS`. -/
def downloadLeaseSecs : ℕ := 24 * 60 * 60

/-- `BUNDLE_DOWNLOAD_LEASE_INDEX`. -/
def bundleDownloadLeaseIndex : ℕ := u64Max

/-! ### Leases -/

/-- What a minted lease spells out. -/
structure Lease where
  expires : ℕ
  nonce : String
  grantId : String
  tokenHash : String
  index : ℕ
  holder : String
deriving DecidableEq, Repr

/-- A verified lease on a request for a file. -/
inductive DownloadLease
  | file (lease : Lease)
  | bundle (holder : String)
deriving DecidableEq, Repr

/-- `DownloadLease::passes_spent`. -/
def DownloadLease.passesSpent (counted : List Lease) : DownloadLease → Bool
  | .bundle _ => true
  | .file lease => decide (lease ∈ counted)

/-- The counted leases when another one is to be counted.  What the table has under a lease is
the time at which it expires. -/
def retainLeases (counted : List Lease) (now : ℕ) : List Lease :=
  if countedLeasesCap ≤ counted.length then counted.filter (fun lease => now < lease.expires)
  else counted

/-- `claim_download_count`: whether the retrieval counts, and the counted leases after it. -/
def claimDownloadCount (counted : List Lease) (now : ℕ) : Option DownloadLease → Bool × List Lease
  | none => (true, counted)
  | some (.bundle _) => (false, counted)
  | some (.file lease) =>
      let counted := retainLeases counted now
      (decide (lease ∉ counted), counted.insert lease)

/-! ### Worlds -/

/-- Where a retrieval stands. -/
inductive RetrievalStage
  /-- The request was let in. -/
  | opened
  /-- The response is handed over. -/
  | streaming
  | dropped
deriving DecidableEq, Repr

/-- A request for a file, and its response. -/
structure Retrieval where
  id : String
  index : ℕ
  lease : Option DownloadLease
  /-- The first and the last byte of a response that is not the whole file. -/
  range : Option (ℕ × ℕ)
  stage : RetrievalStage
  /-- What is left to hand over until the retrieval counts. -/
  remaining : Option ℕ
  /-- The bytes handed over. -/
  sent : ℕ
deriving DecidableEq, Repr

/-- A record of a download that a retrieval has spawned. -/
structure CountRecord where
  retrieval : String
  index : ℕ
  lease : Option DownloadLease
deriving DecidableEq, Repr

/-- A port that delivers the files of a grant. -/
structure LeaseWorld where
  db : Outbound
  /-- The grant. -/
  id : String
  /-- The lengths of its files. -/
  sizes : ℕ → ℕ
  clock : ℕ
  /-- `App::counted_leases`. -/
  counted : List Lease
  /-- The leases whose message authentication code the port accepts. -/
  leases : List Lease
  retrievals : Table Retrieval.id
  /-- The records that were spawned and have not run. -/
  pending : List CountRecord
  /-- The records that counted a download. -/
  recorded : List CountRecord

/-- An operation. -/
inductive LeaseOp
  /-- A request for a file, with what its query and its cookie say. -/
  | request (id : String) (index : ℕ) (query cookie : Option Lease) (range : Option (ℕ × ℕ))
  /-- The request is redirected with a lease, or answered. -/
  | start (id : String) (holder nonce : String)
  /-- Some bytes of the response are handed over. -/
  | frame (id : String) (bytes : ℕ)
  | drop (id : String)
  /-- A spawned record runs. -/
  | record (i : ℕ)
  /-- A bundle with all files is delivered. -/
  | bundle (holder nonce : String)
  /-- Another delivery counts the files at the indexes. -/
  | other (indexes : List ℕ)
  /-- A retrieval of another grant's file counts. -/
  | foreign (lease : Lease)
  | tick (clock : ℕ)
deriving Repr

/-! ### Requests -/

/-- `outbound_grant_file_by_token_hash`: the file at the index, none for a grant without rows of
its one file. -/
def outboundGrantFile (db : Outbound) (grant : GrantRow) (index : ℕ) :
    Option (Option GrantFileRow) :=
  if grant.fileCount ≤ index then none
  else
    match db.files.find? (grant.id, clampI64 index) with
    | some file => some (some file)
    | none =>
        if grantFiles db.files grant.id ≠ [] ∨ grant.fileCount ≠ 1 then none
        else
          match grant.filesJson with
          | .ok 0 => some none
          | _ => none

/-- `grant_is_exhausted`. -/
def grantIsExhausted (grant : GrantRow) (file : Option GrantFileRow) : Bool :=
  match grant.maxDownloads with
  | none => false
  | some max =>
      match file with
      | some file => decide (max ≤ file.downloads)
      | none => decide (max ≤ grant.downloads)

/-- `verify_download_lease`. -/
def LeaseWorld.verifies (w : LeaseWorld) (grant : GrantRow) (index : ℕ) (lease : Lease) : Bool :=
  decide (lease ∈ w.leases ∧ lease.grantId = grant.id ∧ lease.tokenHash = grant.tokenHash
    ∧ lease.index = index ∧ w.clock < lease.expires)

/-- `download_lease_authorized`. -/
def LeaseWorld.downloadLeaseAuthorized
    (w : LeaseWorld) (grant : GrantRow) (index : ℕ) (query cookie : Option Lease) :
    Option DownloadLease :=
  match query.filter (w.verifies grant index) with
  | some lease => some (.file lease)
  | none =>
      (cookie.filter (w.verifies grant bundleDownloadLeaseIndex)).map fun lease =>
        .bundle lease.holder

/-- `active_download_grant`: the lease of a request that is let in. -/
def LeaseWorld.activeDownloadGrant
    (w : LeaseWorld) (index : ℕ) (query cookie : Option Lease) : Option (Option DownloadLease) := do
  let grant ← w.db.grants.find? w.id
  let file ← outboundGrantFile w.db grant index
  if grant.revokedAt.isSome ∨ grant.expiresAt ≤ w.clock then none
  let lease := w.downloadLeaseAuthorized grant index query cookie
  if ¬ lease.any (DownloadLease.passesSpent w.counted) ∧ grantIsExhausted grant file then none
  return lease

/-- The range lies in the file. -/
def validRange (size : ℕ) (range : Option (ℕ × ℕ)) : Bool :=
  range.all fun r => decide (r.1 ≤ r.2 ∧ r.2 < size)

/-- The length of the response. -/
def Retrieval.length (r : Retrieval) (size : ℕ) : ℕ :=
  match r.range with
  | none => size
  | some (first, last) => last - first + 1

/-- The response reaches the last byte of the file. -/
def Retrieval.reachesEnd (r : Retrieval) (size : ℕ) : Bool :=
  r.range.all fun range => decide (range.2 + 1 = size)

/-- The response has started, and has handed the last byte over. -/
def Retrieval.Completes (r : Retrieval) (size : ℕ) : Prop :=
  r.stage ≠ .opened ∧ size ≤ (r.range.map Prod.fst).getD 0 + r.sent

/-! ### Steps -/

/-- The world with the retrieval. -/
def LeaseWorld.put (w : LeaseWorld) (r : Retrieval) : LeaseWorld :=
  { w with retrievals := w.retrievals.upsert r }

/-- The retrieval claims its count, and spawns the record if it is granted. -/
def LeaseWorld.claim (w : LeaseWorld) (r : Retrieval) : LeaseWorld :=
  let claimed := claimDownloadCount w.counted w.clock r.lease
  { w with
    counted := claimed.2
    pending := if claimed.1 then w.pending ++ [⟨r.id, r.index, r.lease⟩] else w.pending }

/-- The response begins.  An empty one counts here. -/
def LeaseWorld.answer (w : LeaseWorld) (r : Retrieval) : LeaseWorld :=
  let length := r.length (w.sizes r.index)
  if length = 0 then (w.put { r with stage := .streaming }).claim r
  else
    w.put { r with
      stage := .streaming
      remaining := if r.reachesEnd (w.sizes r.index) then some length else none }

/-- `RecordingStream::poll_next` on a frame with some bytes. -/
def LeaseWorld.frame (w : LeaseWorld) (r : Retrieval) (bytes : ℕ) : LeaseWorld :=
  let r := { r with sent := r.sent + bytes }
  match r.remaining with
  | none => w.put r
  | some remaining =>
      if remaining - bytes = 0 then (w.put { r with remaining := none }).claim r
      else w.put { r with remaining := some (remaining - bytes) }

/-- The tables after a download is recorded, or refused. -/
def LeaseWorld.recordAt (w : LeaseWorld) (indexes : List ℕ) : Option Outbound :=
  match recordDownload w.db w.id indexes w.clock none with
  | .error _ => none
  | .ok (_, db) => some db

/-- The world after one operation, none where it is not possible. -/
def LeaseWorld.step (w : LeaseWorld) : LeaseOp → Option LeaseWorld
  | .request id index query cookie range => do
      let lease ← w.activeDownloadGrant index query cookie
      if (w.retrievals.find? id).isSome ∨ validRange (w.sizes index) range = false then none
      return w.put ⟨id, index, lease, range, .opened, none, 0⟩
  | .start id holder nonce => do
      let r ← w.retrievals.find? id
      let grant ← w.db.grants.find? w.id
      if r.stage ≠ .opened then none
      let lifetime := min (grant.expiresAt - w.clock) downloadLeaseSecs
      if r.lease = none ∧ 0 < lifetime then
        let lease : Lease := ⟨w.clock + lifetime, nonce, grant.id, grant.tokenHash, r.index, holder⟩
        return { w.put { r with stage := .dropped } with leases := lease :: w.leases }
      else return w.answer r
  | .frame id bytes => do
      let r ← w.retrievals.find? id
      -- The stream produces the bytes of the response.
      if r.stage ≠ .streaming ∨ r.length (w.sizes r.index) < r.sent + bytes then none
      return w.frame r bytes
  | .drop id => do
      let r ← w.retrievals.find? id
      if r.stage = .opened then return { w with retrievals := w.retrievals.erase id }
      else return w.put { r with stage := .dropped }
  | .record i => do
      let record ← w.pending[i]?
      let w := { w with pending := w.pending.eraseIdx i }
      match w.recordAt [record.index] with
      | none => return w
      | some db => return { w with db := db, recorded := record :: w.recorded }
  | .bundle holder nonce => do
      let grant ← w.db.grants.find? w.id
      match w.recordAt (List.range grant.fileCount) with
      | none => return w
      | some db =>
          let lifetime := min (grant.expiresAt - w.clock) downloadLeaseSecs
          let lease : Lease :=
            ⟨w.clock + lifetime, nonce, grant.id, grant.tokenHash, bundleDownloadLeaseIndex, holder⟩
          return { w with db := db, leases := lease :: w.leases }
  | .other indexes => some { w with db := (w.recordAt indexes).getD w.db }
  | .foreign lease =>
      if lease.grantId = w.id then none
      else some { w with counted := (claimDownloadCount w.counted w.clock (some (.file lease))).2 }
  | .tick clock => if w.clock ≤ clock then some { w with clock := clock } else none

end Votport
