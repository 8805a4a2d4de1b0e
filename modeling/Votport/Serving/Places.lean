import Votport.Serving.Streams

/-!
# Places of running downloads

Every live stream has its place.  A place is of one stream, or of the sessions of one fetch, and
goes when the last of them drops; so a drop finds no place of a grant only where no stream of
the grant is live, and never removes the token of a live stream.
-/

namespace Votport

/-! ### Keys -/

theorem beginsWith_iff {value head : String} :
  beginsWith value head = true ↔ head.toList <+: value.toList
  := by
  rw [beginsWith, List.isPrefixOf_iff_prefix]

theorem isOfGrant_append (grant rest : String) :
  isOfGrant grant (grant ++ ":" ++ rest) = true
  := by
  apply beginsWith_iff.mpr
  use rest.toList
  simp

/-- The key of a stream is one of its grant. -/
theorem isOfGrant_key (path : DownloadPath) (tokenHash : String) :
  isOfGrant tokenHash (path.key tokenHash) = true
  := by
  cases path <;> apply isOfGrant_append

/-! ### Places -/

/-- The stream has not ended. -/
def StreamRow.Live (s : StreamRow) : Prop := s.stage ≠ .ended

instance (s : StreamRow) : Decidable s.Live := inferInstanceAs (Decidable (_ ≠ _))

/-- The stream is a live session of the fetch with the key. -/
def StreamRow.shares (key : String) (s : StreamRow) : Bool :=
  decide s.Live && s.isFetch && decide (s.key = key)

theorem StreamRow.shares_iff {key : String} {s : StreamRow} :
  s.shares key = true ↔ s.Live ∧ s.isFetch = true ∧ s.key = key
  := by
  simp [StreamRow.shares, and_assoc]

/-- Every live stream has its place. -/
structure StreamWorld.Placed (w : StreamWorld) : Prop where
  keyed : ∀ s ∈ w.streams.rows, ':' ∉ s.tokenHash.toList ∧ isOfGrant s.tokenHash s.key = true
  active : ∀ s ∈ w.streams.rows, s.Live → s.key ∈ w.active
  /-- Only the sessions of a fetch share a place. -/
  alone : ∀ s ∈ w.streams.rows, ∀ t ∈ w.streams.rows, s.Live → t.Live → s.key = t.key →
    s.id = t.id ∨ s.isFetch = true ∧ t.isFetch = true
  slotted : ∀ s ∈ w.streams.rows, s.Live → s.isFetch = true → (w.slots.find? s.key).isSome
  counted : ∀ slot ∈ w.slots.rows, w.streams.rows.countP (StreamRow.shares slot.key) ≤ slot.sessions
  fetched : ∀ slot ∈ w.slots.rows, slot.key ∈ w.active ∧
    ∀ s ∈ w.streams.rows, s.Live → s.key = slot.key → s.isFetch = true
  /-- A drop removes the token of a grant without places. -/
  last : ∀ d, w.dropping = some d → ∀ key ∈ w.active, isOfGrant d.grant key = false

/-- A drop never removes the token of a live stream. -/
theorem StreamWorld.Placed.ne_dropping
    {w : StreamWorld} (hw : w.Placed) {d : Dropping} (hd : w.dropping = some d) {s : StreamRow}
    (hs : s ∈ w.streams.rows) (hlive : s.Live) :
  s.tokenHash ≠ d.grant
  := by
  intro he
  have hfalse := hw.last d hd s.key (hw.active s hs hlive)
  rw [← he, (hw.keyed s hs).2] at hfalse
  cases hfalse

/-- The rows are of one stream, and both live or both ended. -/
structure StreamRow.Matches (s t : StreamRow) : Prop where
  id : t.id = s.id
  grantId : t.grantId = s.grantId
  tokenHash : t.tokenHash = s.tokenHash
  key : t.key = s.key
  isFetch : t.isFetch = s.isFetch
  live : t.Live ↔ s.Live

theorem StreamRow.Matches.shares {s t : StreamRow} (h : s.Matches t) (key : String) :
  t.shares key = s.shares key
  := by
  rw [Bool.eq_iff_iff, shares_iff, shares_iff, h.live, h.isFetch, h.key]

theorem StreamWorld.mem_put {w : StreamWorld} {s t : StreamRow} :
  t ∈ (w.put s).streams.rows ↔ t = s ∨ t ∈ w.streams.rows ∧ t.id ≠ s.id
  := Table.mem_upsert

/-- The rows of a table match the rows of another one that has a row replaced by a match. -/
theorem StreamWorld.matches_put
    {w : StreamWorld} {s t : StreamRow} (hs : s ∈ w.streams.rows) (h : s.Matches t) {r : StreamRow}
    (hr : r ∈ (w.put t).streams.rows) :
  ∃ r' ∈ w.streams.rows, r'.Matches r
  := by
  rcases mem_put.mp hr with rfl | ⟨hr, _⟩
  · exact ⟨s, hs, h⟩
  · exact ⟨r, hr, rfl, rfl, rfl, rfl, rfl, Iff.rfl⟩

/-- A stream keeps its place. -/
theorem StreamWorld.Placed.put
    {w : StreamWorld} (hw : w.Placed) {s t : StreamRow} (hs : s ∈ w.streams.rows)
    (h : s.Matches t) :
  (w.put t).Placed
  where
  keyed r hr := by
    obtain ⟨r', hr', hm⟩ := matches_put hs h hr
    rw [hm.tokenHash, hm.key]
    apply hw.keyed r' hr'
  active r hr hlive := by
    obtain ⟨r', hr', hm⟩ := matches_put hs h hr
    rw [hm.key]
    apply hw.active r' hr' (hm.live.mp hlive)
  alone r hr q hq hlive hlive' hkey := by
    obtain ⟨r', hr', hm⟩ := matches_put hs h hr
    obtain ⟨q', hq', hm'⟩ := matches_put hs h hq
    rw [hm.id, hm'.id, hm.isFetch, hm'.isFetch]
    apply hw.alone r' hr' q' hq' (hm.live.mp hlive) (hm'.live.mp hlive')
    rw [← hm.key, ← hm'.key]
    apply hkey
  slotted r hr hlive hfetch := by
    obtain ⟨r', hr', hm⟩ := matches_put hs h hr
    rw [hm.key]
    apply hw.slotted r' hr' (hm.live.mp hlive)
    rw [← hm.isFetch]
    apply hfetch
  counted slot hslot := by
    have hfind : w.streams.find? t.id = some s := Table.find?_eq_some.mpr ⟨hs, h.id.symm⟩
    have hcount := Table.countP_upsert hfind (StreamRow.shares slot.key)
    rw [h.shares] at hcount
    have hle := hw.counted slot hslot
    change (w.streams.upsert t).rows.countP _ ≤ _
    omega
  fetched slot hslot := by
    constructor
    · apply (hw.fetched slot hslot).1
    · intro r hr hlive hkey
      obtain ⟨r', hr', hm⟩ := matches_put hs h hr
      rw [hm.isFetch]
      apply (hw.fetched slot hslot).2 r' hr' (hm.live.mp hlive)
      rw [← hm.key]
      apply hkey
  last := hw.last

/-- The row of a stream whose step changes neither its place nor whether it lives. -/
theorem StreamRow.matches_at {s : StreamRow} {stage : StreamStage} (hlive : s.Live)
    (hstage : stage ≠ .ended) :
  s.Matches (s.at stage)
  where
  id := rfl
  grantId := rfl
  tokenHash := rfl
  key := rfl
  isFetch := rfl
  live := iff_of_true hstage hlive

/-! ### Drops -/

theorem StreamRow.not_live_ended (s : StreamRow) : ¬ (s.at .ended).Live := fun h => h rfl

/-- The live streams of a world where a stream has ended are the others. -/
theorem StreamWorld.mem_put_ended
    {w : StreamWorld} {s r : StreamRow} (hr : r ∈ (w.put (s.at .ended)).streams.rows)
    (hlive : r.Live) :
  r ∈ w.streams.rows ∧ r.id ≠ s.id
  := by
  rcases mem_put.mp hr with rfl | hr
  · cases s.not_live_ended hlive
  · apply hr

/-- The others that share a place when a session of the fetch has ended. -/
theorem StreamWorld.countP_put_ended
    {w : StreamWorld} {s : StreamRow} (hs : s ∈ w.streams.rows) (key : String) :
  (w.put (s.at .ended)).streams.rows.countP (StreamRow.shares key)
      + (if s.shares key then 1 else 0)
    = w.streams.rows.countP (StreamRow.shares key)
  := by
  have hfind : w.streams.find? (s.at .ended).id = some s := Table.find?_eq_some.mpr ⟨hs, rfl⟩
  have hcount := Table.countP_upsert hfind (StreamRow.shares key)
  have hended : (s.at .ended).shares key = false := by
    simp [StreamRow.shares, s.not_live_ended]
  rw [hended] at hcount
  change (w.streams.upsert (s.at .ended)).rows.countP _ + _ = _
  simpa using hcount

/-- A stream ends, and still has its place. -/
theorem StreamWorld.Placed.ended
    {w : StreamWorld} (hw : w.Placed) {s : StreamRow} (hs : s ∈ w.streams.rows) :
  (w.put (s.at .ended)).Placed
  where
  keyed r hr := by
    rcases mem_put.mp hr with rfl | ⟨hr, _⟩
    · apply hw.keyed s hs
    · apply hw.keyed r hr
  active r hr hlive := hw.active r (mem_put_ended hr hlive).1 hlive
  alone r hr q hq hlive hlive' hkey :=
    hw.alone r (mem_put_ended hr hlive).1 q (mem_put_ended hq hlive').1 hlive hlive' hkey
  slotted r hr hlive hfetch := hw.slotted r (mem_put_ended hr hlive).1 hlive hfetch
  counted slot hslot := by
    have hcount := countP_put_ended hs slot.key
    have hle := hw.counted slot hslot
    change (w.put (s.at .ended)).streams.rows.countP _ ≤ _
    omega
  fetched slot hslot := by
    constructor
    · apply (hw.fetched slot hslot).1
    · intro r hr hlive
      apply (hw.fetched slot hslot).2 r (mem_put_ended hr hlive).1 hlive
  last := hw.last

/-- The places of a world where one is given up. -/
theorem StreamWorld.dropPlace_last {w : StreamWorld} {key : String} {slots : Bool} {d : Dropping}
    (hd : (w.dropPlace key slots).dropping = some d) :
  ∀ k ∈ (w.dropPlace key slots).active, isOfGrant d.grant k = false
  := by
  intro k hk
  rw [StreamWorld.dropPlace] at hd hk
  dsimp only at hd hk
  split_ifs at hd with hany
  cases hd
  simp only [List.any_eq_true, not_exists, not_and, Bool.not_eq_true] at hany
  apply hany k hk

/-- A place is given up that no live stream and no fetch has. -/
theorem StreamWorld.Placed.dropPlace
    {w : StreamWorld} (hw : w.Placed) {key : String} {slots : Bool}
    (hfree : ∀ s ∈ w.streams.rows, s.Live → s.key ≠ key)
    (hslots : ∀ slot ∈ w.slots.rows, slot.key ≠ key) :
  (w.dropPlace key slots).Placed
  where
  keyed := hw.keyed
  active s hs hlive := by
    apply List.mem_filter.mpr
    constructor
    · apply hw.active s hs hlive
    · apply decide_eq_true (hfree s hs hlive)
  alone := hw.alone
  slotted := hw.slotted
  counted := hw.counted
  fetched slot hslot := by
    constructor
    · apply List.mem_filter.mpr
      constructor
      · apply (hw.fetched slot hslot).1
      · apply decide_eq_true (hslots slot hslot)
    · apply (hw.fetched slot hslot).2
  last _ hd := dropPlace_last hd

/-- A session of a fetch with another one ends. -/
theorem StreamWorld.Placed.release
    {w : StreamWorld} (hw : w.Placed) {s : StreamRow} (hs : s ∈ w.streams.rows) (hlive : s.Live)
    (hfetch : s.isFetch = true) {slot : FetchSlot} (hslot : w.slots.find? s.key = some slot) :
  ({ w.put (s.at .ended) with
    slots := w.slots.upsert { slot with sessions := slot.sessions - 1 } }).Placed
  := by
  obtain ⟨hmem, hkey⟩ := Table.find?_eq_some.mp hslot
  have hend := hw.ended hs
  constructor
  case keyed => apply hend.keyed
  case active => apply hend.active
  case alone => apply hend.alone
  case last => apply hend.last
  case slotted =>
    intro r hr hr' hrf
    rw [Table.find?_upsert]
    split_ifs
    · rfl
    · apply hend.slotted r hr hr' hrf
  case counted =>
    intro slot' hslot'
    rcases Table.mem_upsert.mp hslot' with rfl | ⟨hslot', _⟩
    · have hcount := countP_put_ended hs slot.key
      rw [if_pos (StreamRow.shares_iff.mpr ⟨hlive, hfetch, hkey.symm⟩)] at hcount
      have hle := hw.counted slot hmem
      dsimp only
      omega
    · apply hend.counted slot' hslot'
  case fetched =>
    intro slot' hslot'
    rcases Table.mem_upsert.mp hslot' with rfl | ⟨hslot', _⟩
    · apply hend.fetched slot hmem
    · apply hend.fetched slot' hslot'

/-- No live stream shares the place of a fetch whose last session has ended. -/
theorem StreamWorld.Placed.last_session
    {w : StreamWorld} (hw : w.Placed) {s : StreamRow} (hs : s ∈ w.streams.rows) (hlive : s.Live)
    (hfetch : s.isFetch = true) {slot : FetchSlot} (hslot : w.slots.find? s.key = some slot)
    (hone : ¬ 1 < slot.sessions) :
  ∀ r ∈ (w.put (s.at .ended)).streams.rows, r.Live → r.key ≠ s.key
  := by
  obtain ⟨hmem, hkey⟩ := Table.find?_eq_some.mp hslot
  intro r hr hr' he
  have hcount := countP_put_ended hs slot.key
  rw [if_pos (StreamRow.shares_iff.mpr ⟨hlive, hfetch, hkey.symm⟩)] at hcount
  have hle := hw.counted slot hmem
  have hpos : 0 < (w.put (s.at .ended)).streams.rows.countP (StreamRow.shares slot.key) := by
    rw [List.countP_pos_iff]
    use r, hr
    rw [StreamRow.shares_iff]
    have hrf := (hw.fetched slot hmem).2 r (mem_put_ended hr hr').1 hr' (he.trans hkey.symm)
    exact ⟨hr', hrf, he.trans hkey.symm⟩
  omega

/-- The last session of a fetch ends. -/
theorem StreamWorld.Placed.retire
    {w : StreamWorld} (hw : w.Placed) {s : StreamRow} (hs : s ∈ w.streams.rows) (hlive : s.Live)
    (hfetch : s.isFetch = true) {slot : FetchSlot} (hslot : w.slots.find? s.key = some slot)
    (hone : ¬ 1 < slot.sessions) :
  (({ w.put (s.at .ended) with slots := w.slots.erase s.key }).dropPlace s.key true).Placed
  := by
  have hfree := hw.last_session hs hlive hfetch hslot hone
  have hend := hw.ended hs
  apply Placed.dropPlace
  · constructor
    case keyed => apply hend.keyed
    case active => apply hend.active
    case alone => apply hend.alone
    case last => apply hend.last
    case slotted =>
      intro r hr hr' hrf
      dsimp only
      rw [Table.find?_erase, if_neg (hfree r hr hr')]
      apply hend.slotted r hr hr' hrf
    case counted =>
      intro slot' hslot'
      apply hend.counted slot' (Table.mem_erase.mp hslot').1
    case fetched =>
      intro slot' hslot'
      apply hend.fetched slot' (Table.mem_erase.mp hslot').1
  · apply hfree
  · intro slot' hslot'
    apply (Table.mem_erase.mp hslot').2

/-- The drop of a live stream keeps the places. -/
theorem StreamWorld.Placed.drop
    {w : StreamWorld} (hw : w.Placed) {s : StreamRow} (hs : s ∈ w.streams.rows) (hlive : s.Live) :
  (w.drop s).Placed
  := by
  rw [StreamWorld.drop]
  by_cases hfetch : s.isFetch = true
  · rw [if_pos hfetch]
    cases hslot : w.slots.find? s.key with
    | none =>
        have hsome := hw.slotted s hs hlive hfetch
        rw [hslot] at hsome
        cases hsome
    | some slot =>
        dsimp only
        split_ifs with hmore
        · apply hw
        · apply hw.release hs hlive hfetch hslot
        · apply hw
        · apply hw.retire hs hlive hfetch hslot hmore
  · rw [if_neg hfetch]
    split_ifs
    · apply hw
    · apply (hw.ended hs).dropPlace
      · intro r hr hr' he
        obtain ⟨hr, hid⟩ := mem_put_ended hr hr'
        rcases hw.alone r hr s hs hr' hlive he with hid' | ⟨_, hsf⟩
        · apply hid hid'
        · apply hfetch hsf
      · intro slot hslot he
        apply hfetch ((hw.fetched slot hslot).2 s hs hlive he.symm)

/-! ### Claims -/

/-- A new stream among the rows. -/
theorem StreamWorld.countP_put_new
    {w : StreamWorld} {s : StreamRow} (hnew : w.streams.find? s.id = none) (key : String) :
  (w.put s).streams.rows.countP (StreamRow.shares key)
    = w.streams.rows.countP (StreamRow.shares key) + (if s.shares key then 1 else 0)
  := by
  change (w.streams.upsert s).rows.countP _ = _
  rw [Table.rows_upsert, Table.erase_of_absent hnew, List.countP_cons]

/-- Another session of a fetch takes its place. -/
theorem StreamWorld.Placed.join
    {w : StreamWorld} (hw : w.Placed) {s : StreamRow} (hnew : w.streams.find? s.id = none)
    (hkeyed : ':' ∉ s.tokenHash.toList ∧ isOfGrant s.tokenHash s.key = true)
    (hfetch : s.isFetch = true) {slot : FetchSlot} (hslot : w.slots.find? s.key = some slot) :
  ({ w.put s with slots := w.slots.upsert { slot with sessions := slot.sessions + 1 } }).Placed
  := by
  obtain ⟨hmem, hkey⟩ := Table.find?_eq_some.mp hslot
  constructor
  case keyed =>
    intro r hr
    rcases mem_put.mp hr with rfl | ⟨hr, _⟩
    · apply hkeyed
    · apply hw.keyed r hr
  case active =>
    intro r hr hlive
    rcases mem_put.mp hr with rfl | ⟨hr, _⟩
    · rw [← hkey]
      apply (hw.fetched slot hmem).1
    · apply hw.active r hr hlive
  case alone =>
    intro r hr q hq hlive hlive' he
    rcases mem_put.mp hr with hrs | ⟨hr', _⟩ <;> rcases mem_put.mp hq with hqs | ⟨hq', _⟩
    · left
      rw [hrs, hqs]
    · right
      rw [hrs] at he ⊢
      exact ⟨hfetch, (hw.fetched slot hmem).2 q hq' hlive' (he.symm.trans hkey.symm)⟩
    · right
      rw [hqs] at he ⊢
      exact ⟨(hw.fetched slot hmem).2 r hr' hlive (he.trans hkey.symm), hfetch⟩
    · apply hw.alone r hr' q hq' hlive hlive' he
  case slotted =>
    intro r hr hlive hrf
    rw [Table.find?_upsert]
    split_ifs with hne
    · rfl
    · rcases mem_put.mp hr with rfl | ⟨hr, _⟩
      · cases hne hkey.symm
      · apply hw.slotted r hr hlive hrf
  case counted =>
    intro slot' hslot'
    have hcount := countP_put_new hnew slot'.key
    rcases Table.mem_upsert.mp hslot' with rfl | ⟨hslot', hne⟩
    · have hle := hw.counted slot hmem
      dsimp only at hcount ⊢
      split_ifs at hcount <;> omega
    · have hle := hw.counted slot' hslot'
      have hother : s.shares slot'.key = false := by
        rw [Bool.eq_false_iff]
        intro hs
        apply hne
        rw [← (StreamRow.shares_iff.mp hs).2.2]
        apply hkey.symm
      rw [hother] at hcount
      simp only [Bool.false_eq_true, if_false, Nat.add_zero] at hcount
      dsimp only
      omega
  case fetched =>
    intro slot' hslot'
    have hold : ∃ slot'' ∈ w.slots.rows, slot''.key = slot'.key := by
      rcases Table.mem_upsert.mp hslot' with rfl | ⟨hslot', _⟩
      · exact ⟨slot, hmem, rfl⟩
      · exact ⟨slot', hslot', rfl⟩
    obtain ⟨slot'', hslot'', he⟩ := hold
    rw [← he]
    constructor
    · apply (hw.fetched slot'' hslot'').1
    · intro r hr hlive hrk
      rcases mem_put.mp hr with rfl | ⟨hr, _⟩
      · apply hfetch
      · apply (hw.fetched slot'' hslot'').2 r hr hlive hrk
  case last => apply hw.last

/-- A stream takes a place of its own. -/
theorem StreamWorld.Placed.enter
    {w : StreamWorld} (hw : w.Placed) {s : StreamRow} (hnew : w.streams.find? s.id = none)
    (hkeyed : ':' ∉ s.tokenHash.toList ∧ isOfGrant s.tokenHash s.key = true)
    (hheld : w.dropping = none) (hfree : s.key ∉ w.active) :
  ({ w.put s with
    active := s.key :: w.active
    slots := if s.isFetch then w.slots.upsert ⟨s.key, 1⟩ else w.slots }).Placed
  := by
  have hnone : ∀ r ∈ w.streams.rows, r.Live → r.key ≠ s.key := by
    intro r hr hlive he
    apply hfree
    rw [← he]
    apply hw.active r hr hlive
  have hslots : ∀ slot ∈ (if s.isFetch then w.slots.upsert ⟨s.key, 1⟩ else w.slots).rows,
      s.isFetch = true ∧ slot = ⟨s.key, 1⟩ ∨ slot ∈ w.slots.rows ∧ slot.key ≠ s.key := by
    intro slot hslot
    split_ifs at hslot with hfetch
    · rcases Table.mem_upsert.mp hslot with rfl | ⟨hslot, hne⟩
      · exact Or.inl ⟨hfetch, rfl⟩
      · exact Or.inr ⟨hslot, hne⟩
    · right
      use hslot
      intro he
      apply hfree
      rw [← he]
      apply (hw.fetched slot hslot).1
  constructor
  case keyed =>
    intro r hr
    rcases mem_put.mp hr with rfl | ⟨hr, _⟩
    · apply hkeyed
    · apply hw.keyed r hr
  case active =>
    intro r hr hlive
    rcases mem_put.mp hr with rfl | ⟨hr, _⟩
    · apply List.mem_cons_self
    · apply List.mem_cons_of_mem _ (hw.active r hr hlive)
  case alone =>
    intro r hr q hq hlive hlive' he
    rcases mem_put.mp hr with hrs | ⟨hr', _⟩ <;> rcases mem_put.mp hq with hqs | ⟨hq', _⟩
    · left
      rw [hrs, hqs]
    · rw [hrs] at he
      cases hnone q hq' hlive' he.symm
    · rw [hqs] at he
      cases hnone r hr' hlive he
    · apply hw.alone r hr' q hq' hlive hlive' he
  case slotted =>
    intro r hr hlive hrf
    dsimp only
    rcases mem_put.mp hr with rfl | ⟨hr, _⟩
    · rw [if_pos hrf, Table.find?_upsert, if_pos rfl]
      rfl
    · split_ifs
      · rw [Table.find?_upsert, if_neg (hnone r hr hlive)]
        apply hw.slotted r hr hlive hrf
      · apply hw.slotted r hr hlive hrf
  case counted =>
    intro slot hslot
    have hcount := countP_put_new hnew slot.key
    change (w.put s).streams.rows.countP _ ≤ _
    rcases hslots slot hslot with ⟨hfetch, rfl⟩ | ⟨hslot, hne⟩
    · have hzero : w.streams.rows.countP (StreamRow.shares s.key) = 0 := by
        rw [List.countP_eq_zero]
        intro r hr hrs
        obtain ⟨hlive, _, he⟩ := StreamRow.shares_iff.mp hrs
        apply hnone r hr hlive he
      dsimp only at hcount ⊢
      split_ifs at hcount <;> omega
    · have hle := hw.counted slot hslot
      have hother : s.shares slot.key = false := by
        rw [Bool.eq_false_iff]
        intro hs
        apply hne (StreamRow.shares_iff.mp hs).2.2.symm
      rw [hother] at hcount
      simp only [Bool.false_eq_true, if_false, Nat.add_zero] at hcount
      omega
  case fetched =>
    intro slot hslot
    rcases hslots slot hslot with ⟨hfetch, rfl⟩ | ⟨hslot, hne⟩
    · constructor
      · apply List.mem_cons_self
      · intro r hr hlive he
        rcases mem_put.mp hr with rfl | ⟨hr, _⟩
        · apply hfetch
        · cases hnone r hr hlive he
    · constructor
      · apply List.mem_cons_of_mem _ (hw.fetched slot hslot).1
      · intro r hr hlive he
        rcases mem_put.mp hr with rfl | ⟨hr, _⟩
        · cases hne he.symm
        · apply (hw.fetched slot hslot).2 r hr hlive he
  case last =>
    intro d hd
    have hd' : w.dropping = some d := hd
    rw [hheld] at hd'
    cases hd'

/-- The claim of a new stream keeps the places. -/
theorem StreamWorld.Placed.claim
    {w : StreamWorld} (hw : w.Placed) {s : StreamRow} (hnew : w.streams.find? s.id = none)
    (hkeyed : ':' ∉ s.tokenHash.toList ∧ isOfGrant s.tokenHash s.key = true) (grant : String) :
  (w.claim s grant).Placed
  := by
  rw [StreamWorld.claim]
  split
  case h_1 slot hslot =>
    split_ifs at hslot with hfetch
    split_ifs
    · apply hw
    · apply hw.join hnew hkeyed hfetch hslot
  case h_2 =>
    by_cases hplace : w.dropping.isNone ∧ hasPlace w.active grant s.key
    · rw [if_pos hplace]
      have hheld : w.dropping = none := Option.isNone_iff_eq_none.mp hplace.1
      apply hw.enter hnew hkeyed hheld hplace.2.1
    · rw [if_neg hplace]
      apply hw

/-- Worlds with the same streams and places. -/
theorem StreamWorld.Placed.congr
    {w w' : StreamWorld} (hw : w.Placed) (hstreams : w'.streams = w.streams)
    (hactive : w'.active = w.active) (hslots : w'.slots = w.slots)
    (hdropping : w'.dropping = w.dropping) :
  w'.Placed
  where
  keyed := by
    rw [hstreams]
    apply hw.keyed
  active := by
    rw [hstreams, hactive]
    apply hw.active
  alone := by
    rw [hstreams]
    apply hw.alone
  slotted := by
    rw [hstreams, hslots]
    apply hw.slotted
  counted := by
    rw [hstreams, hslots]
    apply hw.counted
  fetched := by
    rw [hstreams, hslots, hactive]
    apply hw.fetched
  last := by
    rw [hactive, hdropping]
    apply hw.last

/-! ### What a step leaves -/

/-- A change of a grant changes nothing but the row of one that is not revoked. -/
theorem StreamWorld.changeGrant_cases
    (w : StreamWorld) (id : String) (f : DeliveryGrantRow → DeliveryGrantRow) :
  w.changeGrant id f = w
  ∨ ∃ g, w.grants.find? id = some g ∧ g.revokedAt = none
      ∧ w.changeGrant id f = { w with grants := w.grants.upsert (f g) }
  := by
  rw [changeGrant]
  cases hg : w.grants.find? id with
  | none => exact Or.inl rfl
  | some g =>
      dsimp only
      split_ifs with hrevoked
      · right
        exact ⟨g, rfl, hrevoked, rfl⟩
      · exact Or.inl rfl

/-- The worlds differ in streams and places only. -/
structure StreamWorld.SameTokens (w w' : StreamWorld) : Prop where
  grants : w'.grants = w.grants
  hashes : w'.hashes = w.hashes
  cancels : w'.cancels = w.cancels
  cancelled : w'.cancelled = w.cancelled
  calls : w'.calls = w.calls
  sweeps : w'.sweeps = w.sweeps

theorem StreamWorld.sameTokens_claim (w : StreamWorld) (s : StreamRow) (grant : String) :
  w.SameTokens (w.claim s grant)
  := by
  rw [claim]
  split <;> split_ifs <;> constructor <;> rfl

theorem StreamWorld.sameTokens_drop (w : StreamWorld) (s : StreamRow) :
  w.SameTokens (w.drop s)
  := by
  rw [drop]
  by_cases hfetch : s.isFetch = true
  · rw [if_pos hfetch]
    cases w.slots.find? s.key with
    | none => constructor <;> rfl
    | some slot =>
        dsimp only
        split_ifs <;> constructor <;> rfl
  · rw [if_neg hfetch]
    split_ifs <;> constructor <;> rfl

/-- A claim leaves the streams, or puts the new one among them. -/
theorem StreamWorld.claim_streams (w : StreamWorld) (s : StreamRow) (grant : String) :
  (w.claim s grant).streams = w.streams ∨ (w.claim s grant).streams = (w.put s).streams
  := by
  rw [claim]
  split <;> split_ifs <;> first | exact Or.inl rfl | exact Or.inr rfl

/-- A drop leaves the streams, or ends the stream. -/
theorem StreamWorld.drop_streams (w : StreamWorld) (s : StreamRow) :
  (w.drop s).streams = w.streams ∨ (w.drop s).streams = (w.put (s.at .ended)).streams
  := by
  rw [drop]
  by_cases hfetch : s.isFetch = true
  · rw [if_pos hfetch]
    cases w.slots.find? s.key with
    | none => exact Or.inr rfl
    | some slot =>
        dsimp only
        split_ifs <;> first | exact Or.inl rfl | exact Or.inr rfl
  · rw [if_neg hfetch]
    split_ifs <;> first | exact Or.inl rfl | exact Or.inr rfl

/-- The gate of a stream changes nothing but its deadline. -/
theorem StreamWorld.refreshed_eq (w : StreamWorld) (s : StreamRow) :
  ∃ deadline, w.refreshed s = { s with deadline := deadline }
  := by
  rw [refreshed]
  split_ifs
  · use s.deadline
  · split
    · use s.deadline
    · next d _ => use max s.deadline d

/-- One turn of a sweep passes over a grant, or takes its token out. -/
theorem StreamWorld.check_cases (w : StreamWorld) (i : Nat) (permitted : Option Bool) :
  w.check i permitted = w
  ∨ ∃ tokenHash rest, w.sweeps[i]? = some (tokenHash :: rest)
      ∧ (w.keeps tokenHash permitted = true
            ∧ w.check i permitted = { w with sweeps := w.sweeps.set i rest }
        ∨ w.keeps tokenHash permitted = false
            ∧ w.check i permitted = { w with sweeps := w.sweeps.set i rest }.lookUp tokenHash)
  := by
  rw [check]
  split
  case h_1 tokenHash rest hsweep =>
    right
    refine ⟨tokenHash, rest, hsweep, ?_⟩
    cases hkeeps : w.keeps tokenHash permitted with
    | true => exact Or.inl ⟨rfl, if_pos rfl⟩
    | false => exact Or.inr ⟨rfl, if_neg Bool.false_ne_true⟩
  case h_2 => exact Or.inl rfl

/-- The rest of a call changes nothing but the calls and the cancelled tokens. -/
theorem StreamWorld.finishCancel_cases (w : StreamWorld) (i : Nat) :
  w.finishCancel i = w
  ∨ ∃ call, w.calls[i]? = some call
      ∧ w.finishCancel i
        = { w with calls := w.calls.eraseIdx i, cancelled := call.token.toList ++ w.cancelled }
  := by
  rw [finishCancel]
  cases hcall : w.calls[i]? with
  | none => exact Or.inl rfl
  | some call => exact Or.inr ⟨call, rfl, rfl⟩

theorem StreamWorld.Placed.changeGrant
    {w : StreamWorld} (hw : w.Placed) (id : String) (f : DeliveryGrantRow → DeliveryGrantRow) :
  (w.changeGrant id f).Placed
  := by
  rcases w.changeGrant_cases id f with he | ⟨g, _, _, he⟩
  · rw [he]
    apply hw
  · rw [he]
    exact hw.congr rfl rfl rfl rfl

/-- Every step keeps the places. -/
theorem StreamWorld.Placed.step {w : StreamWorld} (hw : w.Placed) (op : StreamOp) :
  (w.step op).Placed
  := by
  cases op with
  | share grant =>
      rw [StreamWorld.step]
      split_ifs
      · apply hw
      · cases w.grants.insert? grant with
        | none => apply hw
        | some grants => exact hw.congr rfl rfl rfl rfl
  | claim id grantId tokenHash path =>
      rw [StreamWorld.step]
      split_ifs with hnew
      · apply hw
      · rw [not_or, Option.not_isSome_iff_eq_none] at hnew
        apply hw.claim hnew.1
        exact ⟨hnew.2, isOfGrant_key path tokenHash⟩
  | subscribe id deadline =>
      rw [StreamWorld.step]
      cases hs : w.streams.find? id with
      | none => apply hw
      | some s =>
          have hmem := (Table.find?_eq_some.mp hs).1
          dsimp only
          split_ifs with hstage
          · have hlive : s.Live := by
              intro he
              rw [he] at hstage
              cases hstage
            rw [subscribe]
            split
            · apply hw.put hmem
              exact ⟨rfl, rfl, rfl, rfl, rfl, iff_of_true (fun he => by cases he) hlive⟩
            · next row _ =>
                have hput : (w.put { s with
                    stage := .subscribed, cancel := some w.tokens, deadline := deadline }).Placed := by
                  apply hw.put hmem
                  exact ⟨rfl, rfl, rfl, rfl, rfl, iff_of_true (fun he => by cases he) hlive⟩
                exact hput.congr rfl rfl rfl rfl
          · apply hw
  | recheck id permitted =>
      rw [StreamWorld.step]
      cases hs : w.streams.find? id with
      | none => apply hw
      | some s =>
          dsimp only
          split_ifs with hstage
          · apply hw.put (Table.find?_eq_some.mp hs).1
            apply StreamRow.matches_at
            · intro he
              rw [he] at hstage
              cases hstage
            · intro he
              cases he
          · apply hw.put (Table.find?_eq_some.mp hs).1
            apply StreamRow.matches_at
            · intro he
              rw [he] at hstage
              cases hstage
            · intro he
              cases he
          · apply hw
  | frame id =>
      rw [StreamWorld.step]
      cases hs : w.streams.find? id with
      | none => apply hw
      | some s =>
          dsimp only
          split_ifs
          · apply hw.put (Table.find?_eq_some.mp hs).1
            obtain ⟨deadline, hd⟩ := w.refreshed_eq s
            rw [hd]
            exact ⟨rfl, rfl, rfl, rfl, rfl, Iff.rfl⟩
          · apply hw
  | drop id =>
      rw [StreamWorld.step]
      cases hs : w.streams.find? id with
      | none => apply hw
      | some s =>
          dsimp only
          split_ifs with hended
          · apply hw
          · apply hw.drop (Table.find?_eq_some.mp hs).1 hended
  | dropped =>
      rw [StreamWorld.step]
      cases w.dropping with
      | none => apply hw
      | some d =>
          exact ⟨hw.keyed, hw.active, hw.alone, hw.slotted, hw.counted, hw.fetched,
            fun _ he => by cases he⟩
  | revoke id => apply hw.changeGrant
  | rotate id tokenHash =>
      rw [StreamWorld.step]
      split_ifs
      · apply hw
      · have hchanged := hw.changeGrant id fun g => { g with tokenHash := tokenHash }
        exact hchanged.congr rfl rfl rfl rfl
  | extend id expiresAt => apply hw.changeGrant
  | lookUp tokenHash => exact hw.congr rfl rfl rfl rfl
  | cancel call =>
      rcases w.finishCancel_cases call with he | ⟨c, _, he⟩
      · rw [StreamWorld.step, he]
        apply hw
      · rw [StreamWorld.step, he]
        exact hw.congr rfl rfl rfl rfl
  | sweep => exact hw.congr rfl rfl rfl rfl
  | check sweep permitted =>
      rw [StreamWorld.step]
      rcases w.check_cases sweep permitted with he | ⟨tokenHash, rest, _, ⟨_, he⟩ | ⟨_, he⟩⟩
      · rw [he]
        apply hw
      · rw [he]
        exact hw.congr rfl rfl rfl rfl
      · rw [he]
        exact hw.congr rfl rfl rfl rfl
  | tick now =>
      rw [StreamWorld.step]
      split_ifs
      · exact hw.congr rfl rfl rfl rfl
      · apply hw

end Votport
