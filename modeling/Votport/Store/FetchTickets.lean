import Votport.Foundation.Runs
import Votport.Store.Downloads

/-!
# Fetch tickets

A recipient fetches a grant's files with a ticket.  The ticket reserves one of the grant's
downloads from its mint until its delivery is recorded or it expires: a mint or an
admission goes through only while the downloads recorded and the reservations of the
other live tickets leave one.

A ticket that has delivered may be admitted again, and reserves nothing then: no mint and
no other admission counts the fetch that runs.  The reservations are honoured when the
mints and the admissions leave room for such fetches all the same, and so do deliveries
that are recorded late.
-/

namespace Votport

/-- A ticket as it is minted, and as `fetch_ticket` reads it. -/
structure FetchTicket where
  tokenId : String
  grantId : String
  manifestRoot : String
  expiresAt : ℕ
  holder : String
  grantTokenHash : String
  policyRevision : ℕ
deriving DecidableEq

/-- What `release_in` answers of a delivery.  A grant without a job has the revision zero
and no recipients. -/
structure Release where
  revision : ℕ
  recipients : List String

/-- The policy of the release admits the ticket. -/
def releaseAdmits (release : Release) (ticket : FetchTicket) : Prop :=
  release.revision = ticket.policyRevision
    ∧ ¬ (release.recipients ≠ [] ∧ ticket.holder ∉ release.recipients)

instance (release : Release) (ticket : FetchTicket) : Decidable (releaseAdmits release ticket) :=
  inferInstanceAs (Decidable (_ ∧ _))

/-- The row of a minted ticket. -/
def FetchTicket.row (ticket : FetchTicket) : FetchTicketRow where
  tokenId := ticket.tokenId
  grantId := ticket.grantId
  manifestRoot := ticket.manifestRoot
  expiresAt := ticket.expiresAt
  deliveredAt := none
  holder := ticket.holder
  grantTokenHash := ticket.grantTokenHash
  policyRevision := ticket.policyRevision
  admittedAt := none

/-- The ticket of a row. -/
def FetchTicketRow.ticket (row : FetchTicketRow) : FetchTicket where
  tokenId := row.tokenId
  grantId := row.grantId
  manifestRoot := row.manifestRoot
  expiresAt := row.expiresAt
  holder := row.holder
  grantTokenHash := row.grantTokenHash
  policyRevision := row.policyRevision

/-- The row holds a reservation the ticket has to leave room for. -/
def reservesAgainst (ticket : FetchTicket) (now : ℕ) (o : FetchTicketRow) : Prop :=
  o.grantId = ticket.grantId
    ∧ (o.admittedAt ≠ none ∨ (o.grantTokenHash = ticket.grantTokenHash
      ∧ o.policyRevision = ticket.policyRevision ∧ o.holder ≠ ticket.holder))
    ∧ o.expiresAt > now ∧ o.deliveredAt = none

instance (ticket : FetchTicket) (now : ℕ) : DecidablePred (reservesAgainst ticket now) :=
  fun _ => inferInstanceAs (Decidable (_ ∧ _ ∧ _ ∧ _))

/-- The ticket's grant is open under the token the ticket was minted with, and has room
beside `reserved` reservations. -/
def grantAdmits (db : Outbound) (ticket : FetchTicket) (now reserved : ℕ) : Prop :=
  ∃ g ∈ db.grants.find? ticket.grantId, g.tokenHash = ticket.grantTokenHash
    ∧ g.revokedAt = none ∧ g.expiresAt > now
    ∧ ∀ max ∈ g.maxDownloads, g.downloads + reserved < max

instance (db : Outbound) (ticket : FetchTicket) (now reserved : ℕ) :
    Decidable (grantAdmits db ticket now reserved) :=
  inferInstanceAs (Decidable (∃ g ∈ db.grants.find? ticket.grantId, _ ∧ _))

/-- The row is a live ticket of the same holder that has not been admitted, which the
ticket replaces. -/
def replacedBy (ticket : FetchTicket) (now : ℕ) (o : FetchTicketRow) : Prop :=
  o.grantId = ticket.grantId ∧ o.holder = ticket.holder ∧ o.tokenId ≠ ticket.tokenId
    ∧ o.expiresAt > now ∧ o.deliveredAt = none ∧ o.admittedAt = none

instance (ticket : FetchTicket) (now : ℕ) : DecidablePred (replacedBy ticket now) :=
  fun _ => inferInstanceAs (Decidable (_ ∧ _ ∧ _ ∧ _ ∧ _))

/-- `put_fetch_ticket`, false when there is no room. -/
def putFetchTicket
    (db : Outbound) (release : Except String Release) (ticket : FetchTicket) (now : ℕ) :
    Except String (Bool × Outbound) := do
  let release ← release
  if ¬ releaseAdmits release ticket then pure (false, db)
  else if grantAdmits db ticket now (db.tickets.rows.countP (reservesAgainst ticket now)) then
    match db.tickets.insert? ticket.row with
    | none => throw "UNIQUE constraint failed: outbound_fetch_tickets.token_id"
    | some tickets =>
        pure (true, { db with tickets := tickets.filter (fun o => ¬ replacedBy ticket now o) })
  else pure (false, db)

/-- `admit_fetch_ticket`, false when there is no room. -/
def admitFetchTicket
    (db : Outbound) (release : Except String Release) (ticket : FetchTicket) (now : ℕ) :
    Except String (Bool × Outbound) := do
  let release ← release
  if ¬ releaseAdmits release ticket then pure (false, db)
  else match db.tickets.find? ticket.tokenId with
    | none => pure (false, db)
    | some row =>
        if row.grantId = ticket.grantId ∧ row.grantTokenHash = ticket.grantTokenHash
            ∧ row.expiresAt > now
            ∧ grantAdmits db ticket now (db.tickets.rows.countP
              (fun o => reservesAgainst ticket now o ∧ o.tokenId ≠ ticket.tokenId)) then
          pure (true, {
            db with
            tickets := db.tickets.upsert
              { row with admittedAt := some (row.admittedAt.getD now) } })
        else pure (false, db)

/-! ### Steps -/

/-- A fetch that has been admitted and goes on.  It fetches again when its ticket had
delivered before. -/
structure RunningFetch where
  tokenId : String
  again : Bool
deriving DecidableEq

/-- A grant with its tickets and fetches, the time, and the state of its release:
`awaiting` is the error of a delivery that awaits its release. -/
structure FetchWorld where
  db : Outbound
  id : String
  clock : ℕ
  revision : ℕ
  recipients : List String
  awaiting : Option String
  running : List RunningFetch

/-- What `release_in` answers. -/
def FetchWorld.release (w : FetchWorld) : Except String Release :=
  match w.awaiting with
  | none => pure ⟨w.revision, w.recipients⟩
  | some e => throw e

/-- What happens to a grant and its tickets. -/
inductive FetchStep where
  | mint (tokenId manifestRoot holder : String) (expiresAt : ℕ)
  | admitTicket (tokenId : String)
  | record (tokenId : String)
  | abandon (tokenId : String)
  | tick (seconds : ℕ)
  | extend (expiresAt : ℕ)
  | rotate (tokenHash : String)
  | revoke
  | revise (revision : ℕ) (recipients : List String)
  | await (awaiting : Option String)
  | prune (before : ℕ)

/-- The grant with its row changed. -/
def updateGrant (db : Outbound) (id : String) (f : GrantRow → GrantRow) : Outbound :=
  match db.grants.find? id with
  | none => db
  | some grant => { db with grants := db.grants.upsert (f grant) }

/-- The ticket `mint_fetch` makes for a grant. -/
def FetchWorld.ticket
    (w : FetchWorld) (grant : GrantRow) (tokenId manifestRoot holder : String) (expiresAt : ℕ) :
    FetchTicket where
  tokenId
  grantId := w.id
  manifestRoot
  expiresAt
  holder
  grantTokenHash := grant.tokenHash
  policyRevision := w.revision

/-- The indexes a fetch records: all files of the grant. -/
def fetchIndexes (grant : GrantRow) : List ℕ := List.range (max grant.fileCount 1)

/-- The world after a step, none when the step cannot happen.  A call that answers false
or fails changes nothing.  The tokens of tickets and grants are new when they are made,
and a revision of the policy is higher than those before. -/
def FetchWorld.step (w : FetchWorld) : FetchStep → Option FetchWorld
  | .mint tokenId manifestRoot holder expiresAt =>
      if ∃ fetch ∈ w.running, fetch.tokenId = tokenId then none
      else match w.db.grants.find? w.id with
        | none => some w
        | some grant =>
            match putFetchTicket w.db w.release
                (w.ticket grant tokenId manifestRoot holder expiresAt) w.clock with
            | .error _ => some w
            | .ok (_, db) => some { w with db }
  | .admitTicket tokenId =>
      match w.db.tickets.find? tokenId with
      | none => some w
      | some row =>
          if row.grantId ≠ w.id then none
          else match admitFetchTicket w.db w.release row.ticket w.clock with
            | .ok (true, db) =>
                some { w with db, running := ⟨tokenId, row.deliveredAt.isSome⟩ :: w.running }
            | _ => some w
  | .record tokenId =>
      match w.running.find? (·.tokenId = tokenId) with
      | none => none
      | some fetch =>
          match w.db.grants.find? w.id with
          | none => none
          | some grant =>
              let running := w.running.erase fetch
              match recordDownload w.db w.id (fetchIndexes grant) w.clock (some tokenId) with
              | .error _ => some { w with running }
              | .ok (_, db) => some { w with db, running }
  | .abandon tokenId =>
      some { w with running := w.running.eraseP (·.tokenId = tokenId) }
  | .tick seconds => some { w with clock := w.clock + seconds }
  | .extend expiresAt => some { w with db := updateGrant w.db w.id ({ · with expiresAt }) }
  | .rotate tokenHash =>
      if ∃ row ∈ w.db.tickets.rows, row.grantTokenHash = tokenHash then none
      else some { w with db := updateGrant w.db w.id ({ · with tokenHash }) }
  | .revoke =>
      some { w with db := updateGrant w.db w.id (fun grant =>
        { grant with revokedAt := some (grant.revokedAt.getD w.clock) }) }
  | .revise revision recipients =>
      if ∀ row ∈ w.db.tickets.rows, row.policyRevision < revision then
        some { w with revision, recipients }
      else none
  | .await awaiting => some { w with awaiting }
  | .prune before =>
      if before ≤ w.clock then
        some { w with db := { w.db with
          tickets := w.db.tickets.filter (fun row => ¬ row.expiresAt < before) } }
      else none

/-! ### Reservations -/

/-- The row is a live ticket of the grant that has not delivered and can still be admitted
under the revision, or has been. -/
def holdsPlace (grant : GrantRow) (revision now : ℕ) (row : FetchTicketRow) : Prop :=
  row.grantId = grant.id ∧ now < row.expiresAt ∧ row.deliveredAt = none
    ∧ (row.admittedAt ≠ none
      ∨ row.grantTokenHash = grant.tokenHash ∧ row.policyRevision = revision)

instance (grant : GrantRow) (revision now : ℕ) : DecidablePred (holdsPlace grant revision now) :=
  fun _ => inferInstanceAs (Decidable (_ ∧ _ ∧ _ ∧ _))

/-- The number of live tickets that have not delivered and can still be admitted, or have
been. -/
def FetchWorld.reservations (w : FetchWorld) (grant : GrantRow) : ℕ :=
  w.db.tickets.rows.countP (holdsPlace grant w.revision w.clock)

/-- The number of fetches that go on with a ticket that had delivered before. -/
def FetchWorld.refetches (w : FetchWorld) : ℕ := w.running.countP (·.again)

/-- The limit leaves room beside the downloads, the given reservations and the fetches that
go on with a ticket that had delivered before. -/
def FetchWorld.LeavesRoom (w : FetchWorld) (grant : GrantRow) (reserved : ℕ) : Prop :=
  ∀ max ∈ grant.maxDownloads, grant.downloads + reserved + w.refetches < max

instance FetchWorld.decidableLeavesRoom (w : FetchWorld) (grant : GrantRow) (reserved : ℕ) :
    Decidable (w.LeavesRoom grant reserved) :=
  inferInstanceAs (Decidable (∀ max ∈ grant.maxDownloads, _ < max))

/-- The release and the grant let the ticket through beside the reservations. -/
def FetchWorld.LetsThrough (w : FetchWorld) (ticket : FetchTicket) (reserved : ℕ) : Prop :=
  (∃ r, w.release = .ok r ∧ releaseAdmits r ticket) ∧ grantAdmits w.db ticket w.clock reserved

/-- A mint, and an admission of a ticket that has delivered, leaves room for the fetches
that go on again when it is let through, and so does the record of a first fetch whose
ticket has delivered meanwhile or has expired. -/
def FetchWorld.Regular (w : FetchWorld) : FetchStep → Prop
  | .mint tokenId manifestRoot holder expiresAt => ∀ grant ∈ w.db.grants.find? w.id,
      let ticket := w.ticket grant tokenId manifestRoot holder expiresAt
      let reserved := w.db.tickets.rows.countP (reservesAgainst ticket w.clock)
      w.LetsThrough ticket reserved → w.LeavesRoom grant reserved
  | .admitTicket tokenId => ∀ grant ∈ w.db.grants.find? w.id,
      ∀ row ∈ w.db.tickets.find? tokenId, row.deliveredAt ≠ none →
        w.LetsThrough row.ticket (w.db.tickets.rows.countP
          (fun o => reservesAgainst row.ticket w.clock o ∧ o.tokenId ≠ tokenId)) →
        w.LeavesRoom grant (w.reservations grant)
  | .record tokenId => ∀ grant ∈ w.db.grants.find? w.id,
      ∀ fetch ∈ w.running.find? (·.tokenId = tokenId), fetch.again = false →
        ∀ row ∈ w.db.tickets.find? tokenId,
          row.deliveredAt ≠ none ∨ row.expiresAt ≤ w.clock →
          belowLimit grant.maxDownloads grant.downloads →
          w.LeavesRoom grant (w.reservations grant)
  | _ => True

/-- A grant nothing has been downloaded of, and that has no tickets. -/
structure FetchWorld.Fresh (w : FetchWorld) (grant : GrantRow) : Prop where
  accounted : Accounted w.db w.id grant
  downloads : ∀ f ∈ w.db.files.rows, f.grantId = w.id → f.downloads = 0
  tickets : ∀ row ∈ w.db.tickets.rows, row.grantId ≠ w.id
  running : w.running = []

/-- The downloads recorded, the reservations and the fetches that go on again keep within
the limit. -/
structure FetchWorld.Honoured (w : FetchWorld) (id : String) (max : Option ℕ) (grant : GrantRow) :
    Prop where
  /-- The world is about the grant. -/
  id_eq : w.id = id
  /-- The grant's row and its files tell the same. -/
  accounted : Accounted w.db id grant
  /-- The limit stays. -/
  max_eq : grant.maxDownloads = max
  /-- A fetch is of all files. -/
  uniform : ∀ f ∈ w.db.files.rows, f.grantId = id → f.downloads = grant.downloads
  /-- The ticket of a fetch that goes on has been admitted. -/
  admitted : ∀ fetch ∈ w.running, ∀ row ∈ w.db.tickets.find? fetch.tokenId,
    row.admittedAt ≠ none
  /-- There is room for the reservations and for the fetches that go on again. -/
  room : ∀ m ∈ max, grant.downloads + w.reservations grant + w.refetches ≤ m

/-! ### What the operations do -/

theorem putFetchTicket_cases
    {db db' : Outbound} {release : Except String Release} {ticket : FetchTicket} {now : ℕ}
    {put : Bool} (hok : putFetchTicket db release ticket now = .ok (put, db')) :
  put = false ∧ db' = db
    ∨ put = true ∧ (∃ r, release = .ok r ∧ releaseAdmits r ticket)
      ∧ grantAdmits db ticket now (db.tickets.rows.countP (reservesAgainst ticket now))
      ∧ db.tickets.find? ticket.tokenId = none
      ∧ ∃ tickets : Table FetchTicketRow.tokenId, tickets.rows = ticket.row :: db.tickets.rows
        ∧ db' = { db with tickets := tickets.filter (fun o => ¬ replacedBy ticket now o) }
  := by
  cases release with
  | error e => cases hok
  | ok r =>
      simp only [putFetchTicket, bind, Except.bind] at hok
      split_ifs at hok with hadmits hgrant
      · split at hok
        · cases hok
        · rename_i tickets hinsert
          cases hok
          obtain ⟨habsent, hrows⟩ := Table.insert?_eq_some.mp hinsert
          right
          refine ⟨rfl, ⟨r, rfl, hadmits⟩, hgrant, habsent, tickets, hrows, rfl⟩
      · cases hok
        left
        exact ⟨rfl, rfl⟩
      · cases hok
        left
        exact ⟨rfl, rfl⟩

theorem admitFetchTicket_eq_true
    {db db' : Outbound} {release : Except String Release} {ticket : FetchTicket} {now : ℕ}
    (hok : admitFetchTicket db release ticket now = .ok (true, db')) :
  (∃ r, release = .ok r ∧ releaseAdmits r ticket)
    ∧ ∃ row, db.tickets.find? ticket.tokenId = some row
      ∧ row.grantId = ticket.grantId ∧ row.grantTokenHash = ticket.grantTokenHash
      ∧ row.expiresAt > now
      ∧ grantAdmits db ticket now (db.tickets.rows.countP
        (fun o => reservesAgainst ticket now o ∧ o.tokenId ≠ ticket.tokenId))
      ∧ db' = { db with
        tickets := db.tickets.upsert { row with admittedAt := some (row.admittedAt.getD now) } }
  := by
  cases release with
  | error e => cases hok
  | ok r =>
      simp only [admitFetchTicket, bind, Except.bind] at hok
      split_ifs at hok with hadmits
      · cases hrow : db.tickets.find? ticket.tokenId with
        | none =>
            rw [hrow] at hok
            cases hok
        | some row =>
            rw [hrow] at hok
            dsimp only at hok
            split_ifs at hok with hopen
            · cases hok
              obtain ⟨hid, hhash, hlive, hgrant⟩ := hopen
              exact ⟨⟨r, rfl, hadmits⟩, row, rfl, hid, hhash, hlive, hgrant, rfl⟩
            · cases hok
      · cases hok

theorem FetchWorld.release_eq_ok
    {w : FetchWorld} {r : Release} (h : w.release = .ok r) :
  r.revision = w.revision
  := by
  rw [FetchWorld.release] at h
  split at h <;> cases h
  rfl

/-- A grant whose counts and limit are kept stays accounted. -/
theorem Accounted.of_counts
    {db db' : Outbound} {id : String} {grant grant' : GrantRow} (h : Accounted db id grant)
    (hrow : db'.grants.find? id = some grant') (hfiles : db'.files = db.files)
    (hcount : grant'.fileCount = grant.fileCount)
    (hmax : grant'.maxDownloads = grant.maxDownloads)
    (hdownloads : grant'.downloads = grant.downloads) :
  Accounted db' id grant'
  := by
  obtain ⟨_, hindex, hfileCount, hlimit, hleast⟩ := h
  constructor
  · apply hrow
  · rw [hfiles, hcount]
    apply hindex
  · rw [hcount]
    apply hfileCount
  · rw [hfiles, hmax]
    apply hlimit
  · rw [hfiles, hdownloads]
    apply hleast

/-! ### What a step does to the reservations -/

namespace FetchWorld.Honoured

variable {w t : FetchWorld} {id : String} {max : Option ℕ} {grant grant' : GrantRow}

/-- The row of the grant. -/
theorem row
    (h : w.Honoured id max grant) :
  w.db.grants.find? w.id = some grant
  := by
  rw [h.id_eq]
  apply h.accounted.row

/-- Reservations are honoured when none is added and the counts are kept. -/
theorem of_reserves
    (h : w.Honoured id max grant) (hid : t.id = w.id) (hrow : t.db.grants.find? id = some grant')
    (hfiles : t.db.files = w.db.files) (hcount : grant'.fileCount = grant.fileCount)
    (hmax : grant'.maxDownloads = grant.maxDownloads)
    (hdownloads : grant'.downloads = grant.downloads)
    (htickets : t.db.tickets.rows.Sublist w.db.tickets.rows)
    (hrunning : t.running.Sublist w.running)
    (hreserves : ∀ row ∈ w.db.tickets.rows,
      holdsPlace grant' t.revision t.clock row → holdsPlace grant w.revision w.clock row) :
  t.Honoured id max grant'
  := by
  constructor
  · rw [hid, h.id_eq]
  · apply h.accounted.of_counts hrow hfiles hcount hmax hdownloads
  · rw [hmax, h.max_eq]
  · rw [hfiles, hdownloads]
    apply h.uniform
  · intro fetch hfetch row hrow
    apply h.admitted fetch (hrunning.subset hfetch)
    obtain ⟨hmem, hkey⟩ := Table.find?_eq_some.mp hrow
    exact Table.find?_eq_some.mpr ⟨htickets.subset hmem, hkey⟩
  · intro m hm
    have hle : t.reservations grant' ≤ w.reservations grant := by
      calc t.reservations grant'
          ≤ w.db.tickets.rows.countP (holdsPlace grant' t.revision t.clock) := htickets.countP_le
        _ ≤ w.reservations grant := by
            apply List.countP_mono_left
            intro row hrow
            simpa using hreserves row hrow
    have hrefetches : t.refetches ≤ w.refetches := hrunning.countP_le
    have := h.room m hm
    omega

/-- A mint takes a place beside the reservations it has counted and the fetches that go on
again. -/
theorem mint
    (h : w.Honoured id max grant) {tokenId manifestRoot holder : String} {expiresAt : ℕ}
    {put : Bool} {db : Outbound}
    (hnew : ¬ ∃ fetch ∈ w.running, fetch.tokenId = tokenId)
    (hregular : w.Regular (.mint tokenId manifestRoot holder expiresAt))
    (hok : putFetchTicket w.db w.release (w.ticket grant tokenId manifestRoot holder expiresAt)
      w.clock = .ok (put, db)) :
  FetchWorld.Honoured { w with db } id max grant
  := by
  rcases putFetchTicket_cases hok with
    ⟨_, rfl⟩ | ⟨_, hrelease, hadmits, habsent, tickets, hrows, rfl⟩
  · apply h
  have hroom := hregular grant h.row ⟨hrelease, hadmits⟩
  constructor
  · apply h.id_eq
  · exact h.accounted.of_counts h.accounted.row rfl rfl rfl rfl
  · apply h.max_eq
  · apply h.uniform
  · intro fetch hfetch row hrow
    obtain ⟨hmem, hkey⟩ := Table.find?_eq_some.mp hrow
    rw [Table.mem_filter, hrows, List.mem_cons] at hmem
    rcases hmem.1 with rfl | hmem
    · exact absurd ⟨fetch, hfetch, hkey.symm⟩ hnew
    · apply h.admitted fetch hfetch row (Table.find?_eq_some.mpr ⟨hmem, hkey⟩)
  · intro m hm
    -- A row that reserves and is not replaced is one the mint has counted.
    have hcounted : ∀ row ∈ w.db.tickets.rows,
        holdsPlace grant w.revision w.clock row
          ∧ ¬ replacedBy (w.ticket grant tokenId manifestRoot holder expiresAt) w.clock row →
        reservesAgainst (w.ticket grant tokenId manifestRoot holder expiresAt) w.clock row := by
      intro row hrow ⟨⟨hid, hlive, hdelivered, hadmitted⟩, hkept⟩
      rw [h.accounted.id_eq, ← h.id_eq] at hid
      have hother : row.tokenId ≠ tokenId := Table.find?_eq_none.mp habsent row hrow
      refine ⟨hid, ?_, hlive, hdelivered⟩
      by_cases hadm : row.admittedAt = none
      · right
        obtain ⟨hhash, hrevision⟩ := hadmitted.resolve_left (not_not.mpr hadm)
        refine ⟨hhash, hrevision, ?_⟩
        intro hholder
        exact hkept ⟨hid, hholder, hother, hlive, hdelivered, hadm⟩
      · left
        apply hadm
    have hle : FetchWorld.reservations { w with db := { w.db with
        tickets := tickets.filter (fun o => ¬ replacedBy
          (w.ticket grant tokenId manifestRoot holder expiresAt) w.clock o) } } grant
        ≤ w.db.tickets.rows.countP
            (reservesAgainst (w.ticket grant tokenId manifestRoot holder expiresAt) w.clock)
          + 1 := by
      rw [FetchWorld.reservations, Table.rows_filter, List.countP_filter, hrows, List.countP_cons]
      apply Nat.add_le_add
      · apply List.countP_mono_left
        intro row hrow hreserves
        rw [decide_eq_true_iff]
        apply hcounted row hrow
        simpa using hreserves
      · split_ifs <;> omega
    have hkept := hroom m (by rw [h.max_eq]; exact hm)
    have hrefetches : FetchWorld.refetches { w with db := { w.db with
        tickets := tickets.filter (fun o => ¬ replacedBy
          (w.ticket grant tokenId manifestRoot holder expiresAt) w.clock o) } }
        = w.refetches := rfl
    rw [hrefetches]
    dsimp only at hle ⊢
    omega

/-- An admission takes the place the ticket has had since its mint, or one that is left
when the ticket has delivered. -/
theorem admitTicket
    (h : w.Honoured id max grant) {tokenId : String} {row : FetchTicketRow} {db : Outbound}
    (hrow : w.db.tickets.find? tokenId = some row) (hgrant : row.grantId = w.id)
    (hregular : w.Regular (.admitTicket tokenId))
    (hok : admitFetchTicket w.db w.release row.ticket w.clock = .ok (true, db)) :
  FetchWorld.Honoured
    { w with db, running := ⟨tokenId, row.deliveredAt.isSome⟩ :: w.running } id max grant
  := by
  have hkey : row.tokenId = tokenId := (Table.find?_eq_some.mp hrow).2
  obtain ⟨⟨r, hr, hrelease⟩, row', hrow', _, _, hlive, hadmits, rfl⟩ :=
    admitFetchTicket_eq_true hok
  obtain rfl : row = row' := by
    apply Option.some.inj
    rw [← hrow, ← hrow', ← hkey]
    rfl
  have hfind := h.row
  have hthrough : w.LetsThrough row.ticket (w.db.tickets.rows.countP
      (fun o => reservesAgainst row.ticket w.clock o ∧ o.tokenId ≠ tokenId)) := by
    rw [← hkey]
    exact ⟨⟨r, hr, hrelease⟩, hadmits⟩
  obtain ⟨g, hg, hhash, _⟩ := hadmits
  obtain rfl : grant = g := by
    have hfind' := hfind
    rw [← hgrant] at hfind'
    rw [Option.mem_def] at hg
    exact Option.some.inj (hfind'.symm.trans hg)
  have hheld : row.deliveredAt = none → holdsPlace grant w.revision w.clock row := by
    intro hdelivered
    refine ⟨?_, hlive, hdelivered, Or.inr ⟨hhash.symm, ?_⟩⟩
    · rw [hgrant, h.id_eq, h.accounted.id_eq]
    · rw [← FetchWorld.release_eq_ok hr]
      apply hrelease.1.symm
  constructor
  · apply h.id_eq
  · exact h.accounted.of_counts h.accounted.row rfl rfl rfl rfl
  · apply h.max_eq
  · apply h.uniform
  · intro fetch hfetch other hother
    rw [Option.mem_def, Table.find?_upsert] at hother
    split_ifs at hother with hsame
    · cases hother
      simp
    · rcases List.mem_cons.mp hfetch with rfl | hfetch
      · exact absurd hkey.symm hsame
      · apply h.admitted fetch hfetch other hother
  · intro m hm
    have hcount := Table.countP_upsert
      (s := { row with admittedAt := some (row.admittedAt.getD w.clock) }) hrow'
      (holdsPlace grant w.revision w.clock)
    rw [FetchWorld.reservations, FetchWorld.refetches, List.countP_cons]
    dsimp only
    by_cases hdelivered : row.deliveredAt = none
    · have hroom := h.room m hm
      rw [FetchWorld.reservations, FetchWorld.refetches] at hroom
      rw [if_pos (decide_eq_true (hheld hdelivered))] at hcount
      have hfirst : ¬ row.deliveredAt.isSome = true := by simp [hdelivered]
      rw [if_neg hfirst]
      split_ifs at hcount <;> omega
    · -- The place is one more, and the ticket has none before and after.
      have hroom := hregular grant hfind row hrow hdelivered hthrough m
        (by rw [h.max_eq]; exact hm)
      rw [FetchWorld.reservations, FetchWorld.refetches] at hroom
      rw [if_neg (by simp [holdsPlace, hdelivered]),
        if_neg (by simp [holdsPlace, hdelivered])] at hcount
      split_ifs <;> omega

theorem mem_fetchIndexes
    (h : w.Honoured id max grant) (i : ℕ) :
  i ∈ fetchIndexes grant ↔ i < grant.fileCount
  := by
  have := h.accounted.fileCount
  rw [fetchIndexes, List.mem_range]
  omega

/-- A delivery uses up the place of its ticket or of its fetch, or one that is left. -/
theorem record
    (h : w.Honoured id max grant) {tokenId : String} {row : FetchTicketRow} {db : Outbound}
    {result : OutboundDownloadResult} {fetch : RunningFetch}
    (hrow : w.db.tickets.find? tokenId = some row) (hfetch : fetch ∈ w.running)
    (hplace : fetch.again = true ∨ holdsPlace grant w.revision w.clock row
      ∨ w.LeavesRoom grant (w.reservations grant))
    (hok : recordDownload w.db w.id (fetchIndexes grant) w.clock (some tokenId)
      = .ok (result, db)) :
  ∃ grant', FetchWorld.Honoured { w with db, running := w.running.erase fetch } id max grant'
  := by
  have haccounted := h.accounted
  obtain ⟨hmem, rfl⟩ := Table.find?_eq_some.mp hrow
  rw [h.id_eq] at hok
  obtain ⟨grant', hrecorded, _, row', hrow', _, htickets⟩ := haccounted.recordDownload_spec hok
  obtain rfl : row = row' := Option.some.inj (hrow.symm.trans hrow')
  obtain ⟨downloads, hcounters⟩ := hrecorded.counters
  -- All files had the count of the grant, and have one more, unless it is the last.
  have hfile : ∀ f ∈ db.files.rows, f.grantId = id → f.downloads
      = if grant.downloads = i64Max then grant.downloads else grant.downloads + 1 := by
    intro f hf hid
    rw [hrecorded.files] at hf
    obtain ⟨f', hf', rfl⟩ := mem_updateFiles.mp hf
    have hid' : f'.grantId = id := by
      split_ifs at hid
      · apply hid
      · apply hid
    have hindex : f'.fileIndex ∈ fetchIndexes grant := by
      rw [h.mem_fetchIndexes, ← haccounted.index]
      exact ⟨f', hf', hid', rfl⟩
    rw [if_pos ⟨hid', hindex⟩, GrantFileRow.record]
    dsimp only
    rw [h.uniform f' hf' hid']
  have hdownloads : grant'.downloads
      = if grant.downloads = i64Max then grant.downloads else grant.downloads + 1 := by
    obtain ⟨f, hf, hid, he⟩ := hrecorded.accounted.least.1
    rw [← he]
    apply hfile f hf hid
  use grant'
  constructor
  · apply h.id_eq
  · apply hrecorded.accounted
  · rw [hcounters, ← h.max_eq]
    rfl
  · intro f hf hid
    rw [hdownloads]
    apply hfile f hf hid
  · intro fetch' hfetch' other hother
    replace hfetch' : fetch' ∈ w.running := List.mem_of_mem_erase hfetch'
    dsimp only at hother
    rw [htickets, Option.mem_def, Table.find?_upsert] at hother
    split_ifs at hother with hsame
    · cases hother
      apply h.admitted fetch' hfetch' row
      rw [hsame]
      apply Table.find?_key hmem
    · apply h.admitted fetch' hfetch' other hother
  · intro m hm
    have hplaces : w.db.tickets.rows.countP (holdsPlace grant' w.revision w.clock)
        = w.db.tickets.rows.countP (holdsPlace grant w.revision w.clock) := by
      rw [hcounters]
      rfl
    have hcount := Table.countP_upsert
      (s := { row with deliveredAt := some (row.deliveredAt.getD (clampI64 w.clock)) })
      hrow (holdsPlace grant' w.revision w.clock)
    have hspent : ¬ decide (holdsPlace grant' w.revision w.clock
        { row with deliveredAt := some (row.deliveredAt.getD (clampI64 w.clock)) }) = true := by
      simp [holdsPlace]
    rw [if_neg hspent, hplaces] at hcount
    have hrefetches : w.refetches
        = (w.running.erase fetch).countP (·.again) + if fetch.again then 1 else 0 := by
      rw [FetchWorld.refetches, (List.perm_cons_erase hfetch).countP_eq, List.countP_cons]
    have hroom := h.room m hm
    have hle : grant'.downloads ≤ grant.downloads + 1 := by
      rw [hdownloads]
      split_ifs <;> omega
    rw [FetchWorld.reservations] at hroom
    rw [FetchWorld.reservations, FetchWorld.refetches]
    dsimp only
    rw [htickets]
    rcases hplace with hagain | hheld | hleft
    · rw [if_pos hagain] at hrefetches
      omega
    · rw [if_pos (by rw [hcounters]; apply decide_eq_true hheld)] at hcount
      omega
    · have hkept := hleft m (by rw [h.max_eq]; exact hm)
      rw [FetchWorld.reservations] at hkept
      omega

/-- The reservations are honoured when the counters of the grant's row are kept, and no
ticket is for its new token. -/
theorem updateGrant
    (h : w.Honoured id max grant) (f : GrantRow → GrantRow) (hid : (f grant).id = grant.id)
    (hcount : (f grant).fileCount = grant.fileCount)
    (hmax : (f grant).maxDownloads = grant.maxDownloads)
    (hdownloads : (f grant).downloads = grant.downloads)
    (hhash : ∀ row ∈ w.db.tickets.rows, row.grantTokenHash = (f grant).tokenHash →
      row.grantTokenHash = grant.tokenHash) :
  FetchWorld.Honoured { w with db := Votport.updateGrant w.db w.id f } id max (f grant)
  := by
  have hfind := h.row
  rw [Votport.updateGrant, hfind]
  dsimp only
  refine h.of_reserves rfl ?_ rfl hcount hmax hdownloads (List.Sublist.refl _)
    (List.Sublist.refl _) ?_
  · rw [Table.find?_upsert]
    apply if_pos
    rw [hid, h.accounted.id_eq]
  · rintro row hrow ⟨hgrant, hlive, hdelivered, hadmitted⟩
    refine ⟨hgrant.trans hid, hlive, hdelivered, ?_⟩
    apply hadmitted.imp_right
    apply And.imp_left (hhash row hrow)

/-- A regular step keeps the reservations honoured. -/
theorem step
    (h : w.Honoured id max grant) {s : FetchStep} (hregular : w.Regular s)
    (hstep : w.step s = some t) :
  ∃ grant', t.Honoured id max grant'
  := by
  have hfind := h.row
  cases s with
  | mint tokenId manifestRoot holder expiresAt =>
      rw [FetchWorld.step, hfind] at hstep
      dsimp only at hstep
      split_ifs at hstep with hnew
      split at hstep
      · cases hstep
        exact ⟨grant, h⟩
      · rename_i put db hok
        cases hstep
        exact ⟨grant, h.mint hnew hregular hok⟩
  | admitTicket tokenId =>
      rw [FetchWorld.step] at hstep
      cases hrow : w.db.tickets.find? tokenId with
      | none =>
          rw [hrow] at hstep
          cases hstep
          exact ⟨grant, h⟩
      | some row =>
          rw [hrow] at hstep
          dsimp only at hstep
          split_ifs at hstep with hgrant
          split at hstep
          · rename_i db hok
            cases hstep
            exact ⟨grant, h.admitTicket hrow (not_not.mp hgrant) hregular hok⟩
          · cases hstep
            exact ⟨grant, h⟩
  | record tokenId =>
      rw [FetchWorld.step, hfind] at hstep
      cases hfetch : w.running.find? (·.tokenId = tokenId) with
      | none =>
          rw [hfetch] at hstep
          cases hstep
      | some fetch =>
          rw [hfetch] at hstep
          dsimp only at hstep
          have hmem := List.mem_of_find?_eq_some hfetch
          have htoken : fetch.tokenId = tokenId := by simpa using List.find?_some hfetch
          have hrunning : (w.running.erase fetch).Sublist w.running := List.erase_sublist
          split at hstep
          · cases hstep
            use grant
            exact h.of_reserves rfl h.accounted.row rfl rfl rfl rfl (List.Sublist.refl _) hrunning
              (fun _ _ hp => hp)
          · rename_i result db hok
            cases hstep
            have haccounted := h.accounted
            rw [← h.id_eq] at haccounted
            obtain ⟨_, _, hbelow, row, hrow, hgrant, _⟩ := haccounted.recordDownload_spec hok
            apply h.record hrow hmem _ hok
            by_cases hagain : fetch.again = true
            · exact Or.inl hagain
            right
            by_cases hlate : row.deliveredAt ≠ none ∨ row.expiresAt ≤ w.clock
            · right
              exact hregular grant hfind fetch hfetch (Bool.eq_false_iff.mpr hagain) row hrow
                hlate hbelow
            · left
              push Not at hlate
              refine ⟨hgrant.trans haccounted.id_eq.symm, hlate.2, hlate.1, Or.inl ?_⟩
              apply h.admitted fetch hmem row
              rw [htoken]
              apply hrow
  | abandon tokenId =>
      cases hstep
      use grant
      exact h.of_reserves rfl h.accounted.row rfl rfl rfl rfl (List.Sublist.refl _)
        List.eraseP_sublist (fun _ _ hp => hp)
  | tick seconds =>
      cases hstep
      use grant
      refine h.of_reserves rfl h.accounted.row rfl rfl rfl rfl (List.Sublist.refl _)
        (List.Sublist.refl _) ?_
      rintro row _ ⟨hgrant, hlive, hrest⟩
      exact ⟨hgrant, lt_of_le_of_lt (Nat.le_add_right _ _) hlive, hrest⟩
  | extend expiresAt =>
      cases hstep
      exact ⟨_, h.updateGrant _ rfl rfl rfl rfl (fun _ _ hp => hp)⟩
  | rotate tokenHash =>
      rw [FetchWorld.step] at hstep
      split_ifs at hstep with hfresh
      cases hstep
      refine ⟨_, h.updateGrant _ rfl rfl rfl rfl ?_⟩
      intro row hrow hhash
      exact absurd ⟨row, hrow, hhash⟩ hfresh
  | revoke =>
      cases hstep
      exact ⟨_, h.updateGrant _ rfl rfl rfl rfl (fun _ _ hp => hp)⟩
  | revise revision recipients =>
      rw [FetchWorld.step] at hstep
      split_ifs at hstep with hhigher
      cases hstep
      use grant
      refine h.of_reserves rfl h.accounted.row rfl rfl rfl rfl (List.Sublist.refl _)
        (List.Sublist.refl _) ?_
      rintro row hrow ⟨hgrant, hlive, hdelivered, hadmitted | ⟨_, hrevision⟩⟩
      · exact ⟨hgrant, hlive, hdelivered, Or.inl hadmitted⟩
      · exact absurd hrevision (hhigher row hrow).ne
  | await awaiting =>
      cases hstep
      use grant
      exact h.of_reserves rfl h.accounted.row rfl rfl rfl rfl (List.Sublist.refl _)
        (List.Sublist.refl _) (fun _ _ hp => hp)
  | prune before =>
      rw [FetchWorld.step] at hstep
      split_ifs at hstep
      cases hstep
      use grant
      exact h.of_reserves rfl h.accounted.row rfl rfl rfl rfl List.filter_sublist
        (List.Sublist.refl _) (fun _ _ hp => hp)

/-- A ticket that holds a place, or whose fetch goes on again, can record its delivery. -/
theorem recordDownload
    (h : w.Honoured id max grant) {row : FetchTicketRow} (hrow : row ∈ w.db.tickets.rows)
    (hgrant : row.grantId = grant.id)
    (hplace : holdsPlace grant w.revision w.clock row ∨ ∃ fetch ∈ w.running, fetch.again = true) :
  ∃ answer, recordDownload w.db w.id (fetchIndexes grant) w.clock (some row.tokenId) = .ok answer
  := by
  have hpos : 0 < w.reservations grant + w.refetches := by
    rcases hplace with hheld | ⟨fetch, hfetch, hagain⟩
    · apply Nat.add_pos_left
      rw [FetchWorld.reservations, List.countP_pos_iff]
      exact ⟨row, hrow, decide_eq_true hheld⟩
    · apply Nat.add_pos_right
      rw [FetchWorld.refetches, List.countP_pos_iff]
      exact ⟨fetch, hfetch, hagain⟩
  have hbelow : belowLimit grant.maxDownloads grant.downloads := by
    intro m hm
    have := h.room m (by rw [← h.max_eq]; exact hm)
    omega
  have haccounted := h.accounted
  rw [h.id_eq]
  apply haccounted.recordDownload_of_recordable _ hbelow _ (Table.find?_key hrow)
  · rw [hgrant, haccounted.id_eq]
  · intro i hi
    obtain ⟨f, hf, hid, hindex⟩ := (haccounted.index i).mpr ((h.mem_fetchIndexes i).mp hi)
    refine ⟨f, hf, hid, hindex, ?_⟩
    rw [h.uniform f hf hid]
    apply hbelow

end FetchWorld.Honoured

/-! ### Runs -/

theorem FetchWorld.Fresh.honoured
    {w : FetchWorld} {grant : GrantRow} (h : w.Fresh grant) :
  w.Honoured w.id grant.maxDownloads grant
  := by
  have hzero : grant.downloads = 0 := by
    obtain ⟨f, hf, hid, he⟩ := h.accounted.least.1
    rw [← he]
    apply h.downloads f hf hid
  constructor
  · rfl
  · apply h.accounted
  · rfl
  · intro f hf hid
    rw [hzero]
    apply h.downloads f hf hid
  · simp [h.running]
  · intro m _
    have hnone : w.reservations grant = 0 := by
      rw [FetchWorld.reservations, List.countP_eq_zero]
      intro row hrow
      rw [decide_eq_true_iff]
      rintro ⟨hid, _⟩
      apply h.tickets row hrow
      rw [hid, h.accounted.id_eq]
    rw [hzero, hnone, FetchWorld.refetches, h.running]
    apply Nat.zero_le

/-- The grant of one file, which may be downloaded twice. -/
def twoDownloads : GrantRow where
  id := "g"
  tokenHash := "h"
  expiresAt := 100
  revokedAt := none
  downloads := 0
  maxDownloads := some 2
  firstDownloadAt := none
  lastDownloadAt := none
  filesJson := .ok 0
  fileCount := 1

/-- A world with the grant, at time one. -/
def twoDownloadsWorld : FetchWorld where
  db := { sampleGrant 0 with grants := ⟨[twoDownloads], by simp⟩ }
  id := "g"
  clock := 1
  revision := 0
  recipients := []
  awaiting := none
  running := []

theorem twoDownloadsWorld_fresh :
  twoDownloadsWorld.Fresh twoDownloads
  := by
  constructor
  · constructor
    · rfl
    · intro i
      simp [twoDownloadsWorld, twoDownloads, sampleGrant, eq_comm]
    · simp [twoDownloads, i64Max]
    · simp [twoDownloadsWorld, twoDownloads, sampleGrant]
    · constructor
      · simp [twoDownloadsWorld, twoDownloads, sampleGrant]
      · simp [lowerBounds, twoDownloads]
  · simp [twoDownloadsWorld, sampleGrant]
  · simp [twoDownloadsWorld, sampleGrant]
  · rfl

/-- A ticket delivers and is admitted again, while no other is minted. -/
def fetchesAgain : List FetchStep :=
  [.mint "a" "m" "k" 50, .admitTicket "a", .record "a", .admitTicket "a"]

theorem fetchesAgain_regular :
  Runs.Along FetchWorld.step FetchWorld.Regular twoDownloadsWorld fetchesAgain
  := by
  refine ⟨?_, fun t ht => ?_⟩
  · rintro grant hgrant ticket reserved _
    cases hgrant
    decide
  cases ht
  refine ⟨?_, fun t ht => ?_⟩
  · rintro grant _ row hrow hdelivered
    cases hrow
    exact absurd rfl hdelivered
  cases ht
  refine ⟨?_, fun t ht => ?_⟩
  · rintro grant _ fetch _ _ row hrow hlate
    cases hrow
    exact absurd hlate (by decide)
  cases ht
  refine ⟨?_, fun _ _ => trivial⟩
  rintro grant hgrant row _ _ _
  cases hgrant
  decide

end Votport
