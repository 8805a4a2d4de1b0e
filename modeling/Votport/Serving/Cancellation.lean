import Votport.Serving.Places

/-!
# Cancelled streams

When a grant is closed to a hash, no stream with the hash passes its second question for access
any more, and the streams that passed it before have a token that is cancelled as soon as the
calls for the hash have returned.  The token of a live stream is the one that the port gives for
its hash, unless a call has taken it out; and no drop removes it.
-/

namespace Votport

/-! ### Tokens -/

/-- How a step changes the tokens. -/
inductive StreamWorld.TokenMove (w w' : StreamWorld) : Prop
  | kept (cancels : w'.cancels = w.cancels) (cancelled : w'.cancelled = w.cancelled)
      (calls : w'.calls = w.calls)
  /-- A stream is the first one to take the token of its grant. -/
  | made (tokenHash : String) (absent : w.cancels.find? tokenHash = none)
      (cancels : w'.cancels = w.cancels.upsert ⟨tokenHash, w.tokens⟩)
      (cancelled : w'.cancelled = w.cancelled) (calls : w'.calls = w.calls)
  /-- The last drop of a grant removes its token. -/
  | removed (d : Dropping) (dropping : w.dropping = some d)
      (cancels : w'.cancels = w.cancels.erase d.grant) (cancelled : w'.cancelled = w.cancelled)
      (calls : w'.calls = w.calls)
  /-- A call takes a token out. -/
  | taken (tokenHash : String) (cancels : w'.cancels = w.cancels.erase tokenHash)
      (cancelled : w'.cancelled = w.cancelled)
      (calls : w'.calls
        = w.calls ++ [⟨tokenHash, (w.cancels.find? tokenHash).map CancelRow.token⟩])
  /-- A call cancels a token. -/
  | cancelled (i : Nat) (call : CancelCall) (found : w.calls[i]? = some call)
      (cancels : w'.cancels = w.cancels) (cancelled : w'.cancelled = call.token.toList ++ w.cancelled)
      (calls : w'.calls = w.calls.eraseIdx i)

theorem StreamWorld.tokenMove_refl (w : StreamWorld) : w.TokenMove w := .kept rfl rfl rfl

theorem StreamWorld.tokenMove_changeGrant
    (w : StreamWorld) (id : String) (f : DeliveryGrantRow → DeliveryGrantRow) :
  w.TokenMove (w.changeGrant id f)
  := by
  rcases w.changeGrant_cases id f with he | ⟨g, _, _, he⟩
  · rw [he]
    apply tokenMove_refl
  · rw [he]
    exact .kept rfl rfl rfl

theorem StreamWorld.tokenMove_subscribe (w : StreamWorld) (s : StreamRow) (deadline : UInt64) :
  w.TokenMove (w.subscribe s deadline)
  := by
  rw [subscribe]
  cases hrow : w.cancels.find? s.tokenHash with
  | none => exact .made s.tokenHash hrow rfl rfl rfl
  | some row => exact .kept rfl rfl rfl

/-- Every step moves the tokens in one of these ways. -/
theorem StreamWorld.tokenMove_step (w : StreamWorld) (op : StreamOp) :
  w.TokenMove (w.step op)
  := by
  cases op with
  | share grant =>
      rw [step]
      split_ifs
      · apply tokenMove_refl
      · cases w.grants.insert? grant with
        | none => apply tokenMove_refl
        | some grants => exact .kept rfl rfl rfl
  | claim id grantId tokenHash path =>
      rw [step]
      split_ifs
      · apply tokenMove_refl
      · have hsame := w.sameTokens_claim (path.stream id grantId tokenHash)
          (path.countedGrant tokenHash)
        apply TokenMove.kept hsame.cancels hsame.cancelled hsame.calls
  | subscribe id deadline =>
      rw [step]
      cases w.streams.find? id with
      | none => apply tokenMove_refl
      | some s =>
          dsimp only
          split_ifs
          · apply tokenMove_subscribe
          · apply tokenMove_refl
  | recheck id permitted =>
      rw [step]
      cases w.streams.find? id with
      | none => apply tokenMove_refl
      | some s =>
          dsimp only
          split_ifs <;> exact .kept rfl rfl rfl
  | frame id =>
      rw [step]
      cases w.streams.find? id with
      | none => apply tokenMove_refl
      | some s =>
          dsimp only
          split_ifs <;> exact .kept rfl rfl rfl
  | drop id =>
      rw [step]
      cases w.streams.find? id with
      | none => apply tokenMove_refl
      | some s =>
          have hsame := w.sameTokens_drop s
          dsimp only
          split_ifs
          · apply tokenMove_refl
          · apply TokenMove.kept hsame.cancels hsame.cancelled hsame.calls
  | dropped =>
      rw [step]
      cases hd : w.dropping with
      | none => apply tokenMove_refl
      | some d => exact .removed d hd rfl rfl rfl
  | revoke id => apply tokenMove_changeGrant
  | rotate id tokenHash =>
      rw [step]
      split_ifs
      · apply tokenMove_refl
      · rcases w.changeGrant_cases id fun g => { g with tokenHash := tokenHash } with
          he | ⟨g, _, _, he⟩
        · rw [he]
          exact .kept rfl rfl rfl
        · rw [he]
          exact .kept rfl rfl rfl
  | extend id expiresAt => apply tokenMove_changeGrant
  | lookUp tokenHash => exact .taken tokenHash rfl rfl rfl
  | cancel call =>
      rw [step]
      rcases w.finishCancel_cases call with he | ⟨c, hc, he⟩
      · rw [he]
        apply tokenMove_refl
      · rw [he]
        exact .cancelled call c hc rfl rfl rfl
  | sweep => exact .kept rfl rfl rfl
  | check sweep permitted =>
      rw [step]
      rcases w.check_cases sweep permitted with he | ⟨tokenHash, rest, _, ⟨_, he⟩ | ⟨_, he⟩⟩
      · rw [he]
        apply tokenMove_refl
      · rw [he]
        exact .kept rfl rfl rfl
      · rw [he]
        exact .taken tokenHash rfl rfl rfl
  | tick now =>
      rw [step]
      split_ifs
      · exact .kept rfl rfl rfl
      · apply tokenMove_refl

/-- The token is cancelled, or a call for the hash is about to cancel it. -/
def StreamWorld.Caught (w : StreamWorld) (tokenHash : String) (token : Nat) : Prop :=
  token ∈ w.cancelled ∨ ⟨tokenHash, some token⟩ ∈ w.calls

/-- The port gives the token to the streams with the hash. -/
def StreamWorld.Gives (w : StreamWorld) (tokenHash : String) (token : Nat) : Prop :=
  w.cancels.find? tokenHash = some ⟨tokenHash, token⟩

/-- What is taken out of a list by its index is the only member that goes. -/
theorem mem_eraseIdx_or {α : Type*} {l : List α} {i : Nat} {a b : α} (ha : l[i]? = some a)
    (hb : b ∈ l) :
  b = a ∨ b ∈ l.eraseIdx i
  := by
  obtain ⟨n, hn⟩ := List.mem_iff_getElem?.mp hb
  by_cases hni : n = i
  · left
    rw [hni, ha] at hn
    exact (Option.some.inj hn).symm
  · right
    apply List.mem_eraseIdx_iff_getElem?.mpr
    exact ⟨n, hni, hn⟩

/-- A token that is caught stays so. -/
theorem StreamWorld.Caught.step {w : StreamWorld} {tokenHash : String} {token : Nat}
    (h : w.Caught tokenHash token) (op : StreamOp) :
  (w.step op).Caught tokenHash token
  := by
  rw [Caught] at h ⊢
  cases w.tokenMove_step op with
  | kept _ hcancelled hcalls =>
      rw [hcancelled, hcalls]
      apply h
  | made _ _ _ hcancelled hcalls =>
      rw [hcancelled, hcalls]
      apply h
  | removed _ _ _ hcancelled hcalls =>
      rw [hcancelled, hcalls]
      apply h
  | taken _ _ hcancelled hcalls =>
      rw [hcancelled, hcalls]
      apply h.imp_right
      apply List.mem_append_left
  | cancelled i call hcall _ hcancelled hcalls =>
      rw [hcancelled, hcalls]
      rcases h with h | h
      · exact Or.inl (List.mem_append_right _ h)
      · rcases mem_eraseIdx_or hcall h with rfl | h
        · exact Or.inl (List.mem_append_left _ (by simp))
        · exact Or.inr h

/-- The port gives the token of a live stream until a call catches it. -/
theorem StreamWorld.Gives.step
    {w : StreamWorld} (hw : w.Placed) {s : StreamRow} (hs : s ∈ w.streams.rows) (hlive : s.Live)
    {token : Nat} (h : w.Gives s.tokenHash token) (op : StreamOp) :
  (w.step op).Gives s.tokenHash token ∨ (w.step op).Caught s.tokenHash token
  := by
  rw [Gives] at h ⊢
  cases w.tokenMove_step op with
  | kept hcancels =>
      left
      rw [hcancels]
      apply h
  | made tokenHash habsent hcancels =>
      left
      rw [hcancels, Table.find?_upsert, if_neg _]
      · apply h
      · rintro rfl
        rw [h] at habsent
        cases habsent
  | removed d hd hcancels =>
      left
      rw [hcancels, Table.find?_erase, if_neg (hw.ne_dropping hd hs hlive)]
      apply h
  | taken tokenHash hcancels _ hcalls =>
      rw [hcancels, Table.find?_erase]
      split_ifs with he
      · right
        right
        rw [hcalls, ← he, h]
        apply List.mem_append_right _ List.mem_cons_self
      · exact Or.inl h
  | cancelled _ _ _ hcancels =>
      left
      rw [hcancels]
      apply h

/-- Each live stream that has subscribed has the token that the port gives for its hash, or one
that is caught. -/
def StreamWorld.Tokened (w : StreamWorld) : Prop :=
  ∀ s ∈ w.streams.rows, s.Live → s.stage ≠ .claimed →
    ∃ token, s.cancel = some token ∧ (w.Gives s.tokenHash token ∨ w.Caught s.tokenHash token)

/-! ### Rows -/

/-- The row `r` is of a stream that had subscribed with the row `s`, and has its token. -/
structure StreamWorld.Continues (w : StreamWorld) (s r : StreamRow) : Prop where
  id : r.id = s.id
  mem : s ∈ w.streams.rows
  live : s.Live
  stage : s.stage ≠ .claimed
  tokenHash : r.tokenHash = s.tokenHash
  cancel : r.cancel = s.cancel
  /-- A stream passes its second question only where the grant is open to it. -/
  admitted : r.stage = .admitted → s.stage = .admitted ∨ w.opens s = true

theorem StreamWorld.continues_refl {w : StreamWorld} {r : StreamRow} (hr : r ∈ w.streams.rows)
    (hlive : r.Live) (hstage : r.stage ≠ .claimed) :
  w.Continues r r
  := ⟨rfl, hr, hlive, hstage, rfl, rfl, Or.inl⟩

/-- The row of a stream that has just subscribed has the token that the port gives. -/
theorem StreamWorld.subscribe_row
    {w : StreamWorld} {s r : StreamRow} {deadline : UInt64}
    (hr : r ∈ (w.subscribe s deadline).streams.rows) :
  (r ∈ w.streams.rows)
  ∨ r.stage = .subscribed
    ∧ ∃ token, r.cancel = some token ∧ (w.subscribe s deadline).Gives r.tokenHash token
  := by
  rw [subscribe] at hr ⊢
  cases hrow : w.cancels.find? s.tokenHash with
  | none =>
      rw [hrow] at hr
      rcases mem_put.mp hr with rfl | ⟨hr, _⟩
      · right
        refine ⟨rfl, w.tokens, rfl, ?_⟩
        rw [Gives]
        dsimp only
        rw [Table.find?_upsert, if_pos rfl]
      · exact Or.inl hr
  | some row =>
      rw [hrow] at hr
      rcases mem_put.mp hr with rfl | ⟨hr, _⟩
      · right
        refine ⟨rfl, row.token, rfl, ?_⟩
        rw [Gives]
        have hkey := (Table.find?_eq_some.mp hrow).2
        change w.cancels.find? s.tokenHash = some ⟨s.tokenHash, row.token⟩
        rw [hrow, ← hkey]
      · exact Or.inl hr

/-- A live stream that has subscribed did so before the step, or in it. -/
theorem StreamWorld.step_row
    {w : StreamWorld} {op : StreamOp} {r : StreamRow} (hr : r ∈ (w.step op).streams.rows)
    (hlive : r.Live) (hstage : r.stage ≠ .claimed) :
  (∃ s, w.Continues s r)
  ∨ r.stage = .subscribed
    ∧ ∃ token, r.cancel = some token ∧ (w.step op).Gives r.tokenHash token
  := by
  have hold : r ∈ w.streams.rows → ∃ s, w.Continues s r :=
    fun hmem => ⟨r, continues_refl hmem hlive hstage⟩
  cases op with
  | share grant =>
      left
      apply hold
      rw [step] at hr
      split_ifs at hr
      · apply hr
      · cases hgrants : w.grants.insert? grant with
        | none =>
            rw [hgrants] at hr
            apply hr
        | some grants =>
            rw [hgrants] at hr
            apply hr
  | claim id grantId tokenHash path =>
      left
      apply hold
      rw [step] at hr
      split_ifs at hr
      · apply hr
      · rcases w.claim_streams (path.stream id grantId tokenHash) (path.countedGrant tokenHash) with
          he | he
        · rw [he] at hr
          apply hr
        · rw [he] at hr
          rcases mem_put.mp hr with rfl | ⟨hr, _⟩
          · cases hstage rfl
          · apply hr
  | subscribe id deadline =>
      rw [step] at hr ⊢
      cases hs : w.streams.find? id with
      | none =>
          rw [hs] at hr
          exact Or.inl (hold hr)
      | some s =>
          rw [hs] at hr
          dsimp only at hr ⊢
          split_ifs at hr ⊢
          · apply (subscribe_row hr).imp_left hold
          · exact Or.inl (hold hr)
  | recheck id permitted =>
      left
      rw [step] at hr
      cases hs : w.streams.find? id with
      | none =>
          rw [hs] at hr
          apply hold hr
      | some s =>
          have hmem := (Table.find?_eq_some.mp hs).1
          rw [hs] at hr
          dsimp only at hr
          by_cases hsub : s.stage = .subscribed
          · rw [if_pos hsub] at hr
            rcases mem_put.mp hr with rfl | ⟨hr, _⟩
            · use s
              refine ⟨rfl, hmem, ?_, ?_, rfl, rfl, ?_⟩
              · rw [StreamRow.Live, hsub]
                intro he
                cases he
              · rw [hsub]
                intro he
                cases he
              · intro hadmitted
                right
                by_contra hclosed
                rw [if_neg fun h => hclosed h.1] at hadmitted
                cases hadmitted
            · apply hold hr
          · rw [if_neg hsub] at hr
            apply hold hr
  | frame id =>
      left
      rw [step] at hr
      cases hs : w.streams.find? id with
      | none =>
          rw [hs] at hr
          apply hold hr
      | some s =>
          have hmem := (Table.find?_eq_some.mp hs).1
          rw [hs] at hr
          dsimp only at hr
          split_ifs at hr with hadmitted
          · rcases mem_put.mp hr with rfl | ⟨hr, _⟩
            · obtain ⟨deadline, hd⟩ := w.refreshed_eq s
              use s
              rw [hd]
              refine ⟨rfl, hmem, ?_, ?_, rfl, rfl, fun _ => Or.inl hadmitted⟩
              · rw [StreamRow.Live, hadmitted]
                intro he
                cases he
              · rw [hadmitted]
                intro he
                cases he
            · apply hold hr
          · apply hold hr
  | drop id =>
      left
      apply hold
      rw [step] at hr
      cases hs : w.streams.find? id with
      | none =>
          rw [hs] at hr
          apply hr
      | some s =>
          rw [hs] at hr
          dsimp only at hr
          split_ifs at hr
          · apply hr
          · rcases w.drop_streams s with he | he
            · rw [he] at hr
              apply hr
            · rw [he] at hr
              apply (mem_put_ended hr hlive).1
  | dropped =>
      left
      apply hold
      rw [step] at hr
      cases hd : w.dropping with
      | none =>
          rw [hd] at hr
          apply hr
      | some d =>
          rw [hd] at hr
          apply hr
  | revoke id =>
      left
      apply hold
      rw [step] at hr
      rcases w.changeGrant_cases id fun g => { g with revokedAt := some (asI64 w.now.toNat) } with
        he | ⟨g, _, _, he⟩ <;>
      · rw [he] at hr
        apply hr
  | rotate id tokenHash =>
      left
      apply hold
      rw [step] at hr
      split_ifs at hr
      · apply hr
      · rcases w.changeGrant_cases id fun g => { g with tokenHash := tokenHash } with
          he | ⟨g, _, _, he⟩ <;>
        · rw [he] at hr
          apply hr
  | extend id expiresAt =>
      left
      apply hold
      rw [step] at hr
      rcases w.changeGrant_cases id fun g => { g with expiresAt := expiresAt } with
        he | ⟨g, _, _, he⟩ <;>
      · rw [he] at hr
        apply hr
  | lookUp tokenHash => exact Or.inl (hold hr)
  | cancel call =>
      left
      apply hold
      rw [step] at hr
      rcases w.finishCancel_cases call with he | ⟨c, _, he⟩ <;>
      · rw [he] at hr
        apply hr
  | sweep => exact Or.inl (hold hr)
  | check sweep permitted =>
      left
      apply hold
      rw [step] at hr
      rcases w.check_cases sweep permitted with he | ⟨tokenHash, rest, _, ⟨_, he⟩ | ⟨_, he⟩⟩ <;>
      · rw [he] at hr
        apply hr
  | tick now =>
      left
      apply hold
      rw [step] at hr
      split_ifs at hr <;> apply hr

/-- Every step keeps the tokens of the live streams. -/
theorem StreamWorld.Tokened.step
    {w : StreamWorld} (hplaced : w.Placed) (hw : w.Tokened) (op : StreamOp) :
  (w.step op).Tokened
  := by
  intro r hr hlive hstage
  rcases step_row hr hlive hstage with ⟨s, hs⟩ | ⟨_, token, hcancel, hgives⟩
  · obtain ⟨token, hcancel, htoken⟩ := hw s hs.mem hs.live hs.stage
    use token, hs.cancel.trans hcancel
    rw [hs.tokenHash]
    rcases htoken with hgives | hcaught
    · apply hgives.step hplaced hs.mem hs.live
    · exact Or.inr (hcaught.step op)
  · exact ⟨token, hcancel, Or.inl hgives⟩

/-! ### Closed grants -/

/-- The hashes of the grants differ, and were given. -/
structure StreamWorld.Distinct (w : StreamWorld) : Prop where
  hashed : ∀ g ∈ w.grants.rows, g.tokenHash ∈ w.hashes
  unique : ∀ g ∈ w.grants.rows, ∀ g' ∈ w.grants.rows, g.tokenHash = g'.tokenHash → g = g'

/-- How a step changes the grants. -/
inductive StreamWorld.GrantMove (w w' : StreamWorld) : Prop
  | kept (grants : w'.grants = w.grants) (hashes : w'.hashes = w.hashes)
  | shared (g : DeliveryGrantRow) (fresh : g.tokenHash ∉ w.hashes)
      (rows : w'.grants.rows = g :: w.grants.rows) (hashes : w'.hashes = g.tokenHash :: w.hashes)
  /-- A grant that is not revoked has another row with its hash. -/
  | changed (g g' : DeliveryGrantRow) (mem : g ∈ w.grants.rows) (live : g.revokedAt = none)
      (id : g'.id = g.id) (tokenHash : g'.tokenHash = g.tokenHash)
      (grants : w'.grants = w.grants.upsert g') (hashes : w'.hashes = w.hashes)
  /-- A grant that is not revoked has a new hash. -/
  | rotated (g g' : DeliveryGrantRow) (mem : g ∈ w.grants.rows) (live : g.revokedAt = none)
      (id : g'.id = g.id) (fresh : g'.tokenHash ∉ w.hashes)
      (grants : w'.grants = w.grants.upsert g') (hashes : w'.hashes = g'.tokenHash :: w.hashes)
  /-- A hash is given that no grant gets. -/
  | unused (tokenHash : String) (grants : w'.grants = w.grants)
      (hashes : w'.hashes = tokenHash :: w.hashes)

theorem StreamWorld.grantMove_refl (w : StreamWorld) : w.GrantMove w := .kept rfl rfl

/-- A change that leaves the id and the hash of the grant. -/
theorem StreamWorld.grantMove_changeGrant
    (w : StreamWorld) (id : String) (f : DeliveryGrantRow → DeliveryGrantRow)
    (hid : ∀ g, (f g).id = g.id) (hhash : ∀ g, (f g).tokenHash = g.tokenHash) :
  w.GrantMove (w.changeGrant id f)
  := by
  rcases w.changeGrant_cases id f with he | ⟨g, hg, hlive, he⟩
  · rw [he]
    apply grantMove_refl
  · rw [he]
    exact .changed g (f g) (Table.find?_eq_some.mp hg).1 hlive (hid g) (hhash g) rfl rfl

/-- Every step moves the grants in one of these ways. -/
theorem StreamWorld.grantMove_step (w : StreamWorld) (op : StreamOp) :
  w.GrantMove (w.step op)
  := by
  cases op with
  | share grant =>
      rw [step]
      split_ifs with hknown
      · apply grantMove_refl
      · cases hgrants : w.grants.insert? grant with
        | none => apply grantMove_refl
        | some grants => exact .shared grant hknown (Table.insert?_eq_some.mp hgrants).2 rfl
  | claim id grantId tokenHash path =>
      rw [step]
      split_ifs
      · apply grantMove_refl
      · have hsame := w.sameTokens_claim (path.stream id grantId tokenHash)
          (path.countedGrant tokenHash)
        apply GrantMove.kept hsame.grants hsame.hashes
  | subscribe id deadline =>
      rw [step]
      cases w.streams.find? id with
      | none => apply grantMove_refl
      | some s =>
          dsimp only
          split_ifs
          · rw [subscribe]
            split <;> exact .kept rfl rfl
          · apply grantMove_refl
  | recheck id permitted =>
      rw [step]
      cases w.streams.find? id with
      | none => apply grantMove_refl
      | some s =>
          dsimp only
          split_ifs <;> exact .kept rfl rfl
  | frame id =>
      rw [step]
      cases w.streams.find? id with
      | none => apply grantMove_refl
      | some s =>
          dsimp only
          split_ifs <;> exact .kept rfl rfl
  | drop id =>
      rw [step]
      cases w.streams.find? id with
      | none => apply grantMove_refl
      | some s =>
          have hsame := w.sameTokens_drop s
          dsimp only
          split_ifs
          · apply grantMove_refl
          · apply GrantMove.kept hsame.grants hsame.hashes
  | dropped =>
      rw [step]
      cases w.dropping with
      | none => apply grantMove_refl
      | some d => exact .kept rfl rfl
  | revoke id => exact grantMove_changeGrant _ _ _ (fun _ => rfl) (fun _ => rfl)
  | rotate id tokenHash =>
      rw [step]
      split_ifs with hknown
      · apply grantMove_refl
      · rcases w.changeGrant_cases id fun g => { g with tokenHash := tokenHash } with
          he | ⟨g, hg, hlive, he⟩
        · rw [he]
          exact .unused tokenHash rfl rfl
        · rw [he]
          exact .rotated g { g with tokenHash := tokenHash } (Table.find?_eq_some.mp hg).1 hlive
            rfl hknown rfl rfl
  | extend id expiresAt => exact grantMove_changeGrant _ _ _ (fun _ => rfl) (fun _ => rfl)
  | lookUp tokenHash => exact .kept rfl rfl
  | cancel call =>
      rw [step]
      rcases w.finishCancel_cases call with he | ⟨c, _, he⟩
      · rw [he]
        apply grantMove_refl
      · rw [he]
        exact .kept rfl rfl
  | sweep => exact .kept rfl rfl
  | check sweep permitted =>
      rw [step]
      rcases w.check_cases sweep permitted with he | ⟨tokenHash, rest, _, ⟨_, he⟩ | ⟨_, he⟩⟩
      · rw [he]
        apply grantMove_refl
      · rw [he]
        exact .kept rfl rfl
      · rw [he]
        exact .kept rfl rfl
  | tick now =>
      rw [step]
      split_ifs
      · exact .kept rfl rfl
      · apply grantMove_refl

/-- Every step keeps the hashes of the grants apart. -/
theorem StreamWorld.Distinct.step {w : StreamWorld} (hw : w.Distinct) (op : StreamOp) :
  (w.step op).Distinct
  := by
  cases w.grantMove_step op with
  | kept hgrants hhashes =>
      constructor
      · rw [hgrants, hhashes]
        apply hw.hashed
      · rw [hgrants]
        apply hw.unique
  | unused tokenHash hgrants hhashes =>
      constructor
      · rw [hgrants, hhashes]
        intro g hg
        apply List.mem_cons_of_mem _ (hw.hashed g hg)
      · rw [hgrants]
        apply hw.unique
  | shared g hfresh hrows hhashes =>
      constructor
      · rw [hrows, hhashes]
        intro r hr
        rcases List.mem_cons.mp hr with rfl | hr
        · apply List.mem_cons_self
        · apply List.mem_cons_of_mem _ (hw.hashed r hr)
      · rw [hrows]
        intro r hr r' hr' he
        rcases List.mem_cons.mp hr with hg | hmem <;> rcases List.mem_cons.mp hr' with hg' | hmem'
        · rw [hg, hg']
        · rw [← hg, he] at hfresh
          cases hfresh (hw.hashed r' hmem')
        · rw [← hg', ← he] at hfresh
          cases hfresh (hw.hashed r hmem)
        · apply hw.unique r hmem r' hmem' he
  | changed g g' hmem _ hid hhash hgrants hhashes =>
      constructor
      · rw [hgrants, hhashes]
        intro r hr
        rcases Table.mem_upsert.mp hr with rfl | ⟨hr, _⟩
        · rw [hhash]
          apply hw.hashed g hmem
        · apply hw.hashed r hr
      · rw [hgrants]
        intro r hr r' hr' he
        rcases Table.mem_upsert.mp hr with hg | ⟨hold, hne⟩ <;>
          rcases Table.mem_upsert.mp hr' with hg' | ⟨hold', hne'⟩
        · rw [hg, hg']
        · rw [hg, hhash] at he
          rw [← hw.unique g hmem r' hold' he] at hne'
          cases hne' hid.symm
        · rw [hg', hhash] at he
          rw [hw.unique r hold g hmem he] at hne
          cases hne hid.symm
        · apply hw.unique r hold r' hold' he
  | rotated g g' hmem _ hid hfresh hgrants hhashes =>
      constructor
      · rw [hgrants, hhashes]
        intro r hr
        rcases Table.mem_upsert.mp hr with rfl | ⟨hr, _⟩
        · apply List.mem_cons_self
        · apply List.mem_cons_of_mem _ (hw.hashed r hr)
      · rw [hgrants]
        intro r hr r' hr' he
        rcases Table.mem_upsert.mp hr with hg | ⟨hold, hne⟩ <;>
          rcases Table.mem_upsert.mp hr' with hg' | ⟨hold', hne'⟩
        · rw [hg, hg']
        · rw [← hg, he] at hfresh
          cases hfresh (hw.hashed r' hold')
        · rw [← hg', ← he] at hfresh
          cases hfresh (hw.hashed r hold)
        · apply hw.unique r hold r' hold' he

/-- A closed grant stays closed to the hash. -/
theorem StreamWorld.Closed.step {w : StreamWorld} {tokenHash : String} (hw : w.Closed tokenHash)
    (op : StreamOp) :
  (w.step op).Closed tokenHash
  := by
  obtain ⟨hknown, hclosed⟩ := hw
  cases w.grantMove_step op with
  | kept hgrants hhashes =>
      rw [Closed, hgrants, hhashes]
      exact ⟨hknown, hclosed⟩
  | unused hash hgrants hhashes =>
      rw [Closed, hgrants, hhashes]
      exact ⟨List.mem_cons_of_mem _ hknown, hclosed⟩
  | shared g hfresh hrows hhashes =>
      rw [Closed, hrows, hhashes]
      use List.mem_cons_of_mem _ hknown
      intro r hr he
      rcases List.mem_cons.mp hr with rfl | hr
      · rw [he] at hfresh
        cases hfresh hknown
      · apply hclosed r hr he
  | changed g g' hmem hlive hid hhash hgrants hhashes =>
      rw [Closed, hgrants, hhashes]
      use hknown
      intro r hr he
      rcases Table.mem_upsert.mp hr with rfl | ⟨hr, _⟩
      · have hrevoked := hclosed g hmem (hhash.symm.trans he)
        rw [hlive] at hrevoked
        cases hrevoked
      · apply hclosed r hr he
  | rotated g g' hmem _ hid hfresh hgrants hhashes =>
      rw [Closed, hgrants, hhashes]
      use List.mem_cons_of_mem _ hknown
      intro r hr he
      rcases Table.mem_upsert.mp hr with rfl | ⟨hr, _⟩
      · rw [he] at hfresh
        cases hfresh hknown
      · apply hclosed r hr he

/-- A revocation closes the grant to its hash. -/
theorem StreamWorld.closed_revoke
    {w : StreamWorld} (hw : w.Distinct) {id : String} {g : DeliveryGrantRow}
    (hg : w.grants.find? id = some g) :
  (w.step (.revoke id)).Closed g.tokenHash
  := by
  obtain ⟨hmem, hid⟩ := Table.find?_eq_some.mp hg
  rw [step, changeGrant, hg]
  dsimp only
  split_ifs with hlive
  · use hw.hashed g hmem
    intro r hr he
    rcases Table.mem_upsert.mp hr with rfl | ⟨hr, hne⟩
    · rfl
    · have hsame : r.id = g.id := congrArg DeliveryGrantRow.id (hw.unique r hr g hmem he)
      cases hne hsame
  · use hw.hashed g hmem
    intro r hr he
    rw [hw.unique r hr g hmem he]
    apply Option.isSome_iff_ne_none.mpr hlive

/-- A rotation closes the grant to its former hash. -/
theorem StreamWorld.closed_rotate
    {w : StreamWorld} (hw : w.Distinct) {id tokenHash : String} {g : DeliveryGrantRow}
    (hg : w.grants.find? id = some g) (hlive : g.revokedAt = none)
    (hfresh : tokenHash ∉ w.hashes) :
  (w.step (.rotate id tokenHash)).Closed g.tokenHash
  := by
  obtain ⟨hmem, hid⟩ := Table.find?_eq_some.mp hg
  rw [step, if_neg hfresh, changeGrant, hg]
  dsimp only
  rw [if_pos hlive]
  use List.mem_cons_of_mem _ (hw.hashed g hmem)
  intro r hr he
  rcases Table.mem_upsert.mp hr with rfl | ⟨hr, hne⟩
  · have he' : tokenHash = g.tokenHash := he
    rw [he'] at hfresh
    cases hfresh (hw.hashed g hmem)
  · have hsame : r.id = g.id := congrArg DeliveryGrantRow.id (hw.unique r hr g hmem he)
    cases hne hsame

/-- A closed grant is not open to a stream. -/
theorem StreamWorld.Closed.opens_eq_false {w : StreamWorld} {s : StreamRow}
    (hw : w.Closed s.tokenHash) :
  w.opens s = false
  := by
  rw [opens]
  cases hg : w.grants.find? s.grantId with
  | none => rfl
  | some g =>
      rw [Option.any_some, decide_eq_false_iff_not]
      rintro ⟨hhash, hlive, _⟩
      have hrevoked := hw.2 g (Table.find?_eq_some.mp hg).1 hhash
      rw [hlive] at hrevoked
      cases hrevoked

/-- A closed grant admits nothing. -/
theorem StreamWorld.Closed.grantAdmits_eq_false {w : StreamWorld} {tokenHash : String}
    (hw : w.Closed tokenHash) (permitted : Bool) :
  w.grantAdmits tokenHash permitted = false
  := by
  have hnone : w.grantDeadline tokenHash = none := by
    rw [grantDeadline, Option.map_eq_none_iff, List.find?_eq_none]
    intro g hg
    rw [decide_eq_true_eq, not_and]
    intro hhash hlive
    have hrevoked := hw.2 g hg hhash
    rw [hlive] at hrevoked
    cases hrevoked
  rw [grantAdmits, hnone]
  rfl

/-- A recipient that has access to a grant is one that the grant is open to. -/
theorem StreamWorld.opens_of_access
    {δ : Type} {env : DeliveryEnv δ} {db : PortDb δ} {w : StreamWorld} {s : StreamRow}
    {job : Option Job} (hgrants : db.rest.grants = w.grants)
    (haccess : (deliveryAccessIn env db s.grantId s.tokenHash w.now).1 = .ok job) :
  w.opens s = true
  := by
  rw [deliveryAccessIn, hgrants] at haccess
  by_contra hclosed
  rw [opens] at hclosed
  rw [if_neg hclosed] at haccess
  cases haccess

/-! ### Runs -/

/-- What holds of a port in every run. -/
structure StreamWorld.Orderly (w : StreamWorld) : Prop where
  placed : w.Placed
  tokened : w.Tokened
  distinct : w.Distinct

theorem StreamWorld.orderly_begin (now : UInt64) : (begin now).Orderly where
  placed := ⟨nofun, nofun, nofun, nofun, nofun, nofun, nofun⟩
  tokened := nofun
  distinct := ⟨nofun, nofun⟩

theorem StreamWorld.Orderly.step {w : StreamWorld} (hw : w.Orderly) (op : StreamOp) :
  (w.step op).Orderly
  where
  placed := hw.placed.step op
  tokened := hw.tokened.step hw.placed op
  distinct := hw.distinct.step op

theorem StreamWorld.run_cons (w : StreamWorld) (op : StreamOp) (ops : List StreamOp) :
  w.run (op :: ops) = (w.step op).run ops
  := rfl

theorem StreamWorld.Orderly.run {w : StreamWorld} (hw : w.Orderly) (ops : List StreamOp) :
  (w.run ops).Orderly
  := by
  induction ops generalizing w with
  | nil => apply hw
  | cons op ops ih => apply ih (hw.step op)

theorem StreamWorld.Closed.run {w : StreamWorld} {tokenHash : String} (hw : w.Closed tokenHash)
    (ops : List StreamOp) :
  (w.run ops).Closed tokenHash
  := by
  induction ops generalizing w with
  | nil => apply hw
  | cons op ops ih => apply ih (hw.step op)

/-- A stream passes no question about a closed grant. -/
theorem StreamWorld.Closed.admitted_before
    {w : StreamWorld} {op : StreamOp} {r : StreamRow} (hr : r ∈ (w.step op).streams.rows)
    (hw : w.Closed r.tokenHash) (hadmitted : r.stage = .admitted) :
  ∃ s, w.Continues s r ∧ s.stage = .admitted
  := by
  have hlive : r.Live := by
    rw [StreamRow.Live, hadmitted]
    nofun
  have hstage : r.stage ≠ .claimed := by
    rw [hadmitted]
    nofun
  rcases step_row hr hlive hstage with ⟨s, hs⟩ | ⟨hsub, _⟩
  · use s, hs
    rcases hs.admitted hadmitted with hold | hopens
    · apply hold
    · rw [hs.tokenHash] at hw
      rw [hw.opens_eq_false] at hopens
      cases hopens
  · rw [hadmitted] at hsub
    cases hsub

/-- Whoever has passed the question about a closed grant passed it before the grant was closed. -/
theorem StreamWorld.Closed.admitted_run
    {w : StreamWorld} {tokenHash : String} (hw : w.Closed tokenHash) (ops : List StreamOp)
    {r : StreamRow} (hr : r ∈ (w.run ops).streams.rows) (hhash : r.tokenHash = tokenHash)
    (hadmitted : r.stage = .admitted) :
  ∃ s ∈ w.streams.rows, s.id = r.id ∧ s.tokenHash = tokenHash ∧ s.stage = .admitted
  := by
  induction ops generalizing w with
  | nil => exact ⟨r, hr, rfl, hhash, hadmitted⟩
  | cons op ops ih =>
      obtain ⟨q, hq, hid, hhash', hadmitted'⟩ := ih (hw.step op) hr
      rw [← hhash'] at hw
      obtain ⟨s, hs, hold⟩ := hw.admitted_before hq hadmitted'
      exact ⟨s, hs.mem, hs.id.symm.trans hid, hs.tokenHash.symm.trans hhash', hold⟩

/-! ### Sweeps -/

theorem StreamWorld.changeGrant_sweeps
    (w : StreamWorld) (id : String) (f : DeliveryGrantRow → DeliveryGrantRow) :
  (w.changeGrant id f).sweeps = w.sweeps
  := by
  rcases w.changeGrant_cases id f with he | ⟨g, _, _, he⟩ <;> rw [he]

/-- Only a turn of a sweep changes what the sweeps have to look at. -/
theorem StreamWorld.sweeps_step (w : StreamWorld) (op : StreamOp) :
  (∃ more, (w.step op).sweeps = w.sweeps ++ more)
  ∨ ∃ i permitted, op = .check i permitted
  := by
  have hsame : (w.step op).sweeps = w.sweeps → ∃ more, (w.step op).sweeps = w.sweeps ++ more :=
    fun h => ⟨[], by rw [h, List.append_nil]⟩
  cases op with
  | check i permitted => exact Or.inr ⟨i, permitted, rfl⟩
  | sweep =>
      left
      use [w.cancels.rows.map CancelRow.tokenHash]
      rfl
  | share grant =>
      left
      apply hsame
      rw [step]
      split_ifs
      · rfl
      · cases w.grants.insert? grant <;> rfl
  | claim id grantId tokenHash path =>
      left
      apply hsame
      rw [step]
      split_ifs
      · rfl
      · apply (w.sameTokens_claim _ _).sweeps
  | subscribe id deadline =>
      left
      apply hsame
      rw [step]
      cases w.streams.find? id with
      | none => rfl
      | some s =>
          dsimp only
          split_ifs
          · rw [subscribe]
            split <;> rfl
          · rfl
  | recheck id permitted =>
      left
      apply hsame
      rw [step]
      cases w.streams.find? id with
      | none => rfl
      | some s =>
          dsimp only
          split_ifs <;> rfl
  | frame id =>
      left
      apply hsame
      rw [step]
      cases w.streams.find? id with
      | none => rfl
      | some s =>
          dsimp only
          split_ifs <;> rfl
  | drop id =>
      left
      apply hsame
      rw [step]
      cases w.streams.find? id with
      | none => rfl
      | some s =>
          dsimp only
          split_ifs
          · rfl
          · apply (w.sameTokens_drop s).sweeps
  | dropped =>
      left
      apply hsame
      rw [step]
      cases w.dropping <;> rfl
  | revoke id =>
      left
      apply hsame
      apply changeGrant_sweeps
  | rotate id tokenHash =>
      left
      apply hsame
      rw [step]
      split_ifs
      · rfl
      · apply changeGrant_sweeps
  | extend id expiresAt =>
      left
      apply hsame
      apply changeGrant_sweeps
  | lookUp tokenHash =>
      left
      apply hsame
      rfl
  | cancel call =>
      left
      apply hsame
      rw [step]
      rcases w.finishCancel_cases call with he | ⟨c, _, he⟩ <;> rw [he]
  | tick now =>
      left
      apply hsame
      rw [step]
      split_ifs <;> rfl

/-- The sweep has still to look at the hash. -/
def StreamWorld.Awaits (w : StreamWorld) (sweep : Option Nat) (tokenHash : String) : Prop :=
  ∃ i hashes, sweep = some i ∧ w.sweeps[i]? = some hashes ∧ tokenHash ∈ hashes

/-- A sweep that looks at the hash of a closed grant takes its token out. -/
theorem StreamWorld.Awaits.step
    {w : StreamWorld} {sweep : Option Nat} {tokenHash : String} (h : w.Awaits sweep tokenHash)
    (hclosed : w.Closed tokenHash) {token : Nat} (hgives : w.Gives tokenHash token)
    {op : StreamOp} (hop : ∀ i, sweep = some i → op ≠ .check i none) :
  (w.step op).Awaits sweep tokenHash ∨ (w.step op).Caught tokenHash token
  := by
  obtain ⟨i, hashes, rfl, hi, hmem⟩ := h
  rcases w.sweeps_step op with ⟨more, hmore⟩ | ⟨j, permitted, rfl⟩
  · left
    use i, hashes, rfl
    rw [hmore, List.getElem?_append_left (List.getElem?_eq_some_iff.mp hi).1]
    exact ⟨hi, hmem⟩
  · rw [StreamWorld.step]
    rcases w.check_cases j permitted with he | ⟨hash, rest, hj, hturn⟩
    · left
      rw [he]
      exact ⟨i, hashes, rfl, hi, hmem⟩
    by_cases hij : j = i
    · rw [hij, hi] at hj
      obtain rfl := Option.some.inj hj
      have hi' : (w.sweeps.set j rest)[i]? = some rest := by
        rw [hij, List.getElem?_set_self (List.getElem?_eq_some_iff.mp hi).1]
      rcases List.mem_cons.mp hmem with rfl | hrest
      · right
        rcases hturn with ⟨hkeeps, _⟩ | ⟨_, he⟩
        · cases permitted with
          | none => exact absurd (hij ▸ rfl) (hop i rfl)
          | some permitted =>
              rw [StreamWorld.keeps, Option.all_some, hclosed.grantAdmits_eq_false] at hkeeps
              cases hkeeps
        · right
          rw [he]
          apply List.mem_append_right
          have hfind : w.cancels.find? tokenHash = some ⟨tokenHash, token⟩ := hgives
          dsimp only
          rw [hfind]
          apply List.mem_cons_self
      · left
        use i, rest, rfl
        rcases hturn with ⟨_, he⟩ | ⟨_, he⟩ <;>
        · rw [he]
          exact ⟨hi', hrest⟩
    · left
      use i, hashes, rfl
      have hi' : (w.sweeps.set j rest)[i]? = some hashes := by
        rw [List.getElem?_set_ne hij, hi]
      rcases hturn with ⟨_, he⟩ | ⟨_, he⟩ <;>
      · rw [he]
        exact ⟨hi', hmem⟩

/-! ### Stopped streams -/

/-- The token of the stream is cancelled, or a call is about to cancel it. -/
def StreamWorld.Stopping (w : StreamWorld) (s : StreamRow) : Prop :=
  ∃ token, s.cancel = some token ∧ w.Caught s.tokenHash token

/-- Every stream with the hash that passed its second question is stopping, or the sweep has
still to look at its token. -/
def StreamWorld.Covered (w : StreamWorld) (sweep : Option Nat) (tokenHash : String) : Prop :=
  ∀ s ∈ w.streams.rows, s.tokenHash = tokenHash → s.stage = .admitted →
    ∃ token, s.cancel = some token
      ∧ (w.Caught tokenHash token ∨ w.Gives tokenHash token ∧ w.Awaits sweep tokenHash)

theorem StreamWorld.Covered.step
    {w : StreamWorld} {sweep : Option Nat} {tokenHash : String} (hcovered : w.Covered sweep tokenHash)
    (hw : w.Orderly) (hclosed : w.Closed tokenHash) {op : StreamOp}
    (hop : ∀ i, sweep = some i → op ≠ .check i none) :
  (w.step op).Covered sweep tokenHash
  := by
  rintro r hr rfl hadmitted
  obtain ⟨s, hs, hold⟩ := hclosed.admitted_before hr hadmitted
  obtain ⟨token, hcancel, htoken⟩ := hcovered s hs.mem hs.tokenHash.symm hold
  use token, hs.cancel.trans hcancel
  rcases htoken with hcaught | ⟨hgives, hawaits⟩
  · exact Or.inl (hcaught.step op)
  · have hkept := hawaits.step hclosed hgives hop
    rw [hs.tokenHash] at hgives hkept ⊢
    rcases hgives.step hw.placed hs.mem hs.live op with hgives' | hcaught
    · rcases hkept with hawaits' | hcaught
      · exact Or.inr ⟨hgives', hawaits'⟩
      · exact Or.inl hcaught
    · exact Or.inl hcaught

theorem StreamWorld.Covered.run
    {w : StreamWorld} {sweep : Option Nat} {tokenHash : String} (hcovered : w.Covered sweep tokenHash)
    (hw : w.Orderly) (hclosed : w.Closed tokenHash) {ops : List StreamOp}
    (hops : ∀ op ∈ ops, ∀ i, sweep = some i → op ≠ .check i none) :
  (w.run ops).Covered sweep tokenHash
  := by
  induction ops generalizing w with
  | nil => apply hcovered
  | cons op ops ih =>
      rw [List.forall_mem_cons] at hops
      apply ih (hcovered.step hw hclosed hops.1) (hw.step op) (hclosed.step op) hops.2

/-- The token of a stream that passed its second question. -/
theorem StreamWorld.Orderly.admitted_token
    {w : StreamWorld} (hw : w.Orderly) {s : StreamRow} (hs : s ∈ w.streams.rows)
    (hadmitted : s.stage = .admitted) :
  ∃ token, s.cancel = some token ∧ (w.Gives s.tokenHash token ∨ w.Caught s.tokenHash token)
  := by
  apply hw.tokened s hs
  · rw [StreamRow.Live, hadmitted]
    nofun
  · rw [hadmitted]
    nofun

/-- A call catches the tokens of the streams with its hash. -/
theorem StreamWorld.Orderly.covered_lookUp {w : StreamWorld} (hw : w.Orderly) (tokenHash : String) :
  (w.lookUp tokenHash).Covered none tokenHash
  := by
  rintro s hs rfl hadmitted
  obtain ⟨token, hcancel, htoken⟩ := hw.admitted_token hs hadmitted
  use token, hcancel
  left
  rcases htoken with hgives | hcaught
  · right
    apply List.mem_append_right
    have hfind : w.cancels.find? s.tokenHash = some ⟨s.tokenHash, token⟩ := hgives
    rw [hfind]
    apply List.mem_cons_self
  · apply hcaught.imp_right
    apply List.mem_append_left

/-- A sweep is going to look at the tokens that the port gives. -/
theorem StreamWorld.Orderly.covered_sweep {w : StreamWorld} (hw : w.Orderly) (tokenHash : String) :
  (w.step .sweep).Covered (some w.sweeps.length) tokenHash
  := by
  rintro s hs rfl hadmitted
  obtain ⟨token, hcancel, htoken⟩ := hw.admitted_token hs hadmitted
  use token, hcancel
  rcases htoken with hgives | hcaught
  · right
    use hgives
    refine ⟨w.sweeps.length, w.cancels.rows.map CancelRow.tokenHash, rfl, ?_, ?_⟩
    · apply List.getElem?_concat_length
    · have hrow := (Table.find?_eq_some.mp hgives).1
      apply List.mem_map_of_mem hrow
  · exact Or.inl hcaught

/-- A stream with a cancelled token has stopped. -/
theorem StreamWorld.stopped_of_cancelled
    {w : StreamWorld} {s : StreamRow} {token : Nat} (hcancel : s.cancel = some token)
    (h : token ∈ w.cancelled) :
  w.stopped s = true
  := by
  have hcancelled : w.isCancelled s = true := by
    rw [isCancelled, hcancel, Option.any_some, List.contains_iff_mem]
    apply h
  rw [stopped, hcancelled, Bool.true_or]

/-- The step is one of a drop. -/
def StreamOp.drops : StreamOp → Prop
  | .drop _ | .dropped => True
  | _ => False

/-- A drop leaves the token of every live stream. -/
theorem StreamWorld.Placed.drop_keeps
    {w : StreamWorld} (hw : w.Placed) {s : StreamRow} (hs : s ∈ w.streams.rows) (hlive : s.Live)
    {op : StreamOp} (hop : op.drops) :
  (w.step op).cancels.find? s.tokenHash = w.cancels.find? s.tokenHash
  := by
  cases op with
  | drop id =>
      rw [StreamWorld.step]
      cases w.streams.find? id with
      | none => rfl
      | some r =>
          dsimp only
          split_ifs
          · rfl
          · rw [(w.sameTokens_drop r).cancels]
  | dropped =>
      rw [StreamWorld.step]
      cases hd : w.dropping with
      | none => rfl
      | some d =>
          dsimp only
          rw [Table.find?_erase, if_neg (hw.ne_dropping hd hs hlive)]
  | _ => cases hop

/-- What a revocation does to the streams of a port. -/
structure StreamWorld.RevocationStops (w : StreamWorld) : Prop where
  revoked : ∀ id g, w.grants.find? id = some g → (w.step (.revoke id)).Closed g.tokenHash
  rotated : ∀ id g tokenHash, w.grants.find? id = some g → g.revokedAt = none →
    tokenHash ∉ w.hashes → (w.step (.rotate id tokenHash)).Closed g.tokenHash
  /-- Whatever happens after a call for a closed grant, the streams that passed their second
  question are stopping. -/
  called : ∀ tokenHash, w.Closed tokenHash → ∀ ops,
    ∀ s ∈ (w.run (.lookUp tokenHash :: ops)).streams.rows, s.tokenHash = tokenHash →
      s.stage = .admitted → (w.run (.lookUp tokenHash :: ops)).Stopping s
  /-- So they are after a sweep that has looked at every grant, and was answered. -/
  swept : ∀ tokenHash, w.Closed tokenHash → ∀ ops,
    (∀ op ∈ ops, op ≠ .check w.sweeps.length none) →
    (w.run (.sweep :: ops)).sweeps[w.sweeps.length]? = some [] →
      ∀ s ∈ (w.run (.sweep :: ops)).streams.rows, s.tokenHash = tokenHash →
        s.stage = .admitted → (w.run (.sweep :: ops)).Stopping s
  /-- A stream that is stopping has stopped where no call for its hash is under way. -/
  stopped : ∀ s, w.Stopping s → (∀ call ∈ w.calls, call.tokenHash ≠ s.tokenHash) →
    w.stopped s = true
  /-- A call that returns stops the streams whose token it has. -/
  returned : ∀ i call, w.calls[i]? = some call → ∀ s, s.cancel.isSome = true →
    s.cancel = call.token → (w.step (.cancel i)).stopped s = true
  /-- Nothing passes the second question about a closed grant. -/
  refused : ∀ tokenHash, w.Closed tokenHash → ∀ ops, ∀ r ∈ (w.run ops).streams.rows,
    r.tokenHash = tokenHash → r.stage = .admitted →
      ∃ s ∈ w.streams.rows, s.id = r.id ∧ s.tokenHash = tokenHash ∧ s.stage = .admitted
  /-- No drop removes the token of a live stream. -/
  kept : ∀ s ∈ w.streams.rows, s.Live → ∀ op : StreamOp, op.drops →
    (w.step op).cancels.find? s.tokenHash = w.cancels.find? s.tokenHash

/-- In every run, a revocation and a rotation stop the streams that were admitted before. -/
theorem revocation_stops (now : UInt64) (ops : List StreamOp) :
  ((StreamWorld.begin now).run ops).RevocationStops
  := by
  have hw := (StreamWorld.orderly_begin now).run ops
  generalize (StreamWorld.begin now).run ops = w at hw
  constructor
  case revoked => exact fun id g hg => StreamWorld.closed_revoke hw.distinct hg
  case rotated =>
    exact fun id g tokenHash hg hlive hfresh =>
      StreamWorld.closed_rotate hw.distinct hg hlive hfresh
  case called =>
    rintro tokenHash hclosed ops s hs rfl hadmitted
    have hcovered := (hw.covered_lookUp s.tokenHash).run (hw.step (.lookUp s.tokenHash))
      (hclosed.step (.lookUp s.tokenHash))
      fun (op : StreamOp) (_ : op ∈ ops) i hnone => nomatch hnone
    obtain ⟨token, hcancel, hcaught | ⟨_, i, _, hnone, _⟩⟩ := hcovered s hs rfl hadmitted
    · exact ⟨token, hcancel, hcaught⟩
    · cases hnone
  case swept =>
    rintro tokenHash hclosed ops hanswered hdone s hs rfl hadmitted
    have hcovered := (hw.covered_sweep s.tokenHash).run (hw.step .sweep) (hclosed.step .sweep)
      fun op hop i hi => Option.some.inj hi ▸ hanswered op hop
    obtain ⟨token, hcancel, hcaught | ⟨_, i, hashes, hi, hsweep, hmem⟩⟩ :=
      hcovered s hs rfl hadmitted
    · exact ⟨token, hcancel, hcaught⟩
    · obtain rfl := Option.some.inj hi
      rw [StreamWorld.run_cons] at hdone
      rw [hdone] at hsweep
      obtain rfl := Option.some.inj hsweep
      cases hmem
  case stopped =>
    rintro s ⟨token, hcancel, hcancelled | hcall⟩ hnone
    · apply StreamWorld.stopped_of_cancelled hcancel hcancelled
    · cases hnone _ hcall rfl
  case returned =>
    intro i call hcall s hsome hcancel
    obtain ⟨token, htoken⟩ := Option.isSome_iff_exists.mp hsome
    apply StreamWorld.stopped_of_cancelled htoken
    rw [StreamWorld.step, StreamWorld.finishCancel, hcall]
    rw [htoken] at hcancel
    dsimp only
    rw [← hcancel]
    apply List.mem_append_left
    simp
  case refused =>
    exact fun tokenHash hclosed ops r hr hhash hadmitted =>
      hclosed.admitted_run ops hr hhash hadmitted
  case kept => exact fun s hs hlive op hop => hw.placed.drop_keeps hs hlive hop

/-- Two operators revoke a grant while a stream sends: the call of the second one has taken the
token out, and not yet cancelled it. -/
def overtakenOps : List StreamOp :=
  [.share ⟨"grant", "", "hash", "", "", 100, none, []⟩, .claim "stream" "grant" "hash" (.file 0),
    .subscribe "stream" 100, .recheck "stream" true, .revoke "grant", .revoke "grant",
    .lookUp "hash"]

/-- The call of the first operator then returns before the stream has a cancelled token. -/
theorem call_overtaken :
  ¬ ∀ (now : UInt64) (ops : List StreamOp) (tokenHash : String),
    ((StreamWorld.begin now).run ops).Closed tokenHash →
      ∀ s ∈ (((StreamWorld.begin now).run ops).run
          [.lookUp tokenHash, .cancel ((StreamWorld.begin now).run ops).calls.length]).streams.rows,
        s.tokenHash = tokenHash → s.stage = .admitted →
          (((StreamWorld.begin now).run ops).run [.lookUp tokenHash,
            .cancel ((StreamWorld.begin now).run ops).calls.length]).isCancelled s = true
  := by
  intro h
  have hstopped := h 0 overtakenOps "hash" (by decide)
    ⟨"stream", "grant", "hash", "hash:0", false, .admitted, some 0, 100⟩ (by decide) rfl rfl
  revert hstopped
  decide

end Votport
