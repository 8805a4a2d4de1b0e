import Votport.Client.PortSafety

/-!
# The stored session as a register

Where no operation is in the way of one that has read what is stored, a session that somebody
signs out of is not stored afterwards, signing in is refused only when somebody else signed in or
out, and nobody who began before everything was forgotten stores a session after it.  A check that
fills in the role at the wrong moment, or removes a session that has ended, makes the difference.
-/

namespace Votport

variable {w w' : PortWorld} {t t' s : PortRun} {answer : PortAnswer}

/-! ### What a step changes -/

namespace PortRun.Goes

variable (h : t.Goes w answer w' t')
include h

/-- Who changes what is stored signs in or out, or checks or calls the server. -/
theorem changes (hne : w'.file ≠ w.file) :
  t.call.account = true
  ∨ answer ≠ .failed ∧ (t.call = .check ∨ t.call = .run)
    ∧ (w.Refines t ∨ w.file = t.read ∧ t.phase = .remove)
  := by
  cases h with
  | stores session _ hcall =>
      obtain ⟨base, hcall⟩ := hcall
      exact .inl (hcall ▸ rfl)
  | completes session l _ hcall => exact .inl (hcall ▸ rfl)
  | fills session hphase hcall hanswer _ hfile =>
      rcases hcall with hcall | ⟨base, hcall⟩
      · exact .inr ⟨hanswer, .inl hcall, .inl ⟨hfile, session, hphase, Ne.symm hne⟩⟩
      · exact .inl (hcall ▸ rfl)
  | removes _ hphase _ hleases hanswer _ hfile =>
      cases hcall : t.call with
      | check => exact .inr ⟨hanswer, .inl rfl, .inr ⟨hfile, hphase⟩⟩
      | run => exact .inr ⟨hanswer, .inr rfl, .inr ⟨hfile, hphase⟩⟩
      | signOut => exact .inl rfl
      | signIn _ | beginSso _ _ | complete _ =>
          rw [hcall] at hleases
          cases hleases
  | ends | leased | reads | resumes | refused | learns | issued | begins | misses =>
      exact absurd rfl hne

/-- A sign-in in the browser changes what is stored while it is active and has not expired. -/
theorem completes_active {login : Nat} (hcall : t.call = .complete login) (hne : w'.file ≠ w.file) :
  ∃ l, w.logins.find? login = some l ∧ l.active = true ∧ l.expired = false
  := by
  cases h with
  | completes session l _ hcall' hlogin hactive hexpired =>
      cases hcall'.symm.trans hcall
      exact ⟨l, hlogin, hactive, hexpired⟩
  | stores _ _ hcall' =>
      obtain ⟨base, hcall'⟩ := hcall'
      cases hcall'.symm.trans hcall
  | fills _ _ hcall' =>
      rcases hcall' with hcall' | ⟨base, hcall'⟩ <;> cases hcall'.symm.trans hcall
  | removes _ _ _ hleases =>
      rw [hcall] at hleases
      cases hleases
  | ends | leased | reads | resumes | refused | learns | issued | begins | misses =>
      exact absurd rfl hne

/-- An operation that is over does nothing more. -/
theorem done {result : PortResult} (hphase : t.phase = .done result) :
  ∃ result', t'.phase = .done result'
  := by
  cases h with
  | ends result' | removes result' | misses result' => exact ⟨result', rfl⟩
  | begins | completes | fills => exact ⟨.finished, rfl⟩
  | leased hphase' | reads _ hphase' | resumes _ hphase' | refused hphase' | issued _ hphase'
    | stores _ hphase' => exact nomatch hphase'.symm.trans hphase
  | learns _ _ hphase' => rcases hphase' with h | h <;> exact nomatch h.symm.trans hphase

/-- Who signs in with a password, and has read what is stored, had read it before or reads it now,
or has stored its session now. -/
theorem signing (hsigning : t'.signing = true) :
  w'.file = t'.read
  ∨ t.signing = true ∧ w'.file = w.file ∧ t'.read = t.read ∧ t'.intervened = t.intervened
  := by
  have hcall : ∃ base, t.call = .signIn base := by
    rw [PortRun.signing, h.call_eq] at hsigning
    cases hcall : t.call <;> simp [hcall] at hsigning ⊢
  obtain ⟨base, hcall⟩ := hcall
  cases h with
  | reads => exact .inl rfl
  | stores => exact .inl rfl
  | learns session stored hphase =>
      refine .inr ⟨?_, rfl, rfl, rfl⟩
      rcases hphase with hphase | hphase <;> simp [PortRun.signing, hcall, hphase]
  | issued session hphase =>
      exact .inr ⟨by simp [PortRun.signing, hcall, hphase], rfl, rfl, rfl⟩
  | resumes _ _ _ hcall' => exact nomatch hcall'.symm.trans hcall
  | refused _ hleases =>
      rw [hcall] at hleases
      cases hleases
  | ends | leased | begins | completes | fills | removes | misses =>
      simp [PortRun.signing, PortRun.goes, hcall] at hsigning

/-- Who is refused because the account changed had read something else than what is stored. -/
theorem refusal {base : String} (hcall : t.call = .signIn base) (hphase : t'.phase = .done .changed) :
  t.signing = true ∧ w.file ≠ t.read ∧ t'.intervened = t.intervened
  := by
  cases h with
  | misses result hfile hphase' _ hresult =>
      cases hphase
      refine ⟨?_, hfile, rfl⟩
      rcases hphase' with ⟨session, hphase'⟩ | ⟨session, hphase'⟩ | hphase'
      · simp [PortRun.signing, hcall, hphase']
      · simp [PortRun.signing, hcall, hphase']
      · exact absurd hphase' (hresult rfl)
  | ends result hresult =>
      cases hphase
      exact absurd rfl hresult
  | removes result _ hresult =>
      cases hphase
      exact absurd rfl hresult
  | reads phase _ hnext =>
      cases hphase
      rcases hnext with ⟨hnext, _⟩ | ⟨hnext, _⟩ | ⟨_, hin, _⟩
      · cases hnext
      · cases hnext
      · exact absurd hcall (hin base)
  | leased | resumes | refused | learns | issued | begins | stores | completes | fills =>
      cases hphase

end PortRun.Goes

/-! ### Who reads and then replaces -/

/-- What holds of an operation that nobody is in the way of. -/
structure PortRun.Unhindered (w : PortWorld) (t : PortRun) : Prop where
  signing : t.signing = true → w.file = t.read ∨ t.intervened = true
  refused : ∀ base, t.call = .signIn base → t.phase = .done .changed → t.intervened = true
  forgotten : t.forgotten = true → t.call.leases = true → ∃ result, t.phase = .done result

/-- What nobody is in the way of stays so by its own step. -/
theorem PortRun.Unhindered.own (ht : t.Unhindered w) (h : t.Goes w answer w' t') :
  t'.Unhindered (w.after t (w', t'))
  := by
  constructor
  · intro hsigning
    rcases h.signing hsigning with hfile | ⟨hbefore, hfile, hread, hintervened⟩
    · exact .inl hfile
    · rw [hread, hintervened]
      rcases ht.signing hbefore with h' | h'
      · exact .inl (hfile.trans h')
      · exact .inr h'
  · intro base hcall hphase
    obtain ⟨hbefore, hfile, hintervened⟩ := h.refusal (h.call_eq ▸ hcall) hphase
    rw [hintervened]
    exact (ht.signing hbefore).resolve_left hfile
  · intro hforgotten hleases
    rw [h.forgotten_eq] at hforgotten
    rw [h.call_eq] at hleases
    obtain ⟨result, hphase⟩ := ht.forgotten hforgotten hleases
    exact h.done hphase

theorem PortRun.sees_intervened {changed : Bool} (h : s.intervened = true) :
  (s.sees changed).intervened = true
  := by
  rw [PortRun.sees]
  dsimp only
  rw [h, Bool.true_or]

/-- What nobody is in the way of stays so by the step of another operation. -/
theorem PortRun.Unhindered.other
    {id : Nat} (hs : s.Unhindered w) (hmem : s ∈ w.runs.rows) (hfind : w.runs.find? id = some t)
    (hcalm : w.Calm (.advance id answer)) (h : t.Goes w answer w' t') :
  (s.sees (t.call.account && decide (w'.file ≠ w.file))).Unhindered (w.after t (w', t'))
  := by
  refine ⟨?_, ?_, hs.forgotten⟩
  · intro hsigning
    rcases hs.signing hsigning with hread | hintervened
    · by_cases hfile : w'.file = w.file
      · exact .inl (hfile.trans hread)
      · rcases h.changes hfile with haccount | ⟨hanswer, hcall, hchange⟩
        · right
          rw [PortRun.sees, haccount, decide_eq_true hfile]
          exact Bool.or_true _
        · have hne := (hcalm t hfind).2.1 ⟨hanswer, hcall, hchange⟩ s hmem hsigning
          exact absurd hread.symm hne
    · exact .inr (sees_intervened hintervened)
  · intro base hcall hphase
    exact sees_intervened (hs.refused base hcall hphase)

/-- Every step that is in nobody's way leaves it so. -/
theorem PortWorld.unhindered_step
    {op : PortOp} (hw : w.Kept) (hcalm : w.Calm op) (hall : ∀ t ∈ w.runs.rows, t.Unhindered w)
    (h : w.step op = some w') :
  ∀ t ∈ w'.runs.rows, t.Unhindered w'
  := by
  have hsame : ∀ v : PortWorld, v.file = w.file → ∀ t ∈ w.runs.rows, t.Unhindered v := by
    intro v hfile t ht
    obtain ⟨hsigning, hrefused, hforgotten⟩ := hall t ht
    exact ⟨hfile.symm ▸ hsigning, hrefused, hforgotten⟩
  intro s' hs'
  cases op with
  | call id call =>
      obtain ⟨runs, hruns, rfl⟩ := Option.map_eq_some_iff.mp h
      replace hs' : s' ∈ runs.rows := hs'
      rw [(Table.insert?_eq_some.mp hruns).2] at hs'
      rcases List.mem_cons.mp hs' with rfl | hs'
      · refine ⟨?_, ?_, (fun he => by cases he)⟩
        · intro hsigning
          cases call <;> cases hsigning
        · intro base hcall hphase
          cases hcall
          cases hphase
      · refine hsame _ ?_ s' hs'
        rfl
  | advance id answer =>
      obtain ⟨t, v, t', hfind, hgo, rfl⟩ := step_advance.mp h
      obtain ⟨ht, _⟩ := Table.find?_eq_some.mp hfind
      rcases mem_after hs' with rfl | ⟨s, hs, _, rfl⟩
      · exact (hall t ht).own (go_goes hgo)
      · exact (hall s hs).other hs hfind hcalm (go_goes hgo)
  | cancel login | timeout login =>
      obtain ⟨l, _, rfl⟩ := Option.map_eq_some_iff.mp h
      refine hsame _ ?_ s' hs'
      rfl
  | forgetBegin | forgetEnd =>
      rw [step] at h
      split_ifs at h
      cases h
      refine hsame _ ?_ s' hs'
      rfl
  | forgetRemove =>
      rw [step] at h
      split_ifs at h with hforgetting
      cases h
      obtain ⟨s, hs, rfl⟩ := w.mem_forgotten.mp hs'
      have hfree : s.leased = false := (hw.forgetting hforgetting).1 s hs
      refine ⟨?_, (hall s hs).refused, ?_⟩
      · intro hsigning
        exfalso
        revert hsigning hfree
        rw [PortRun.signing, PortRun.leased]
        cases s.call <;> cases s.phase <;> intro hfree hsigning <;>
          first | exact Bool.noConfusion hfree | exact Bool.noConfusion hsigning
      · intro _ hleases
        have hphase : s.phase ≠ .lease := hcalm s hs
        replace hleases : s.call.leases = true := hleases
        rw [PortRun.leased, hleases, Bool.true_and] at hfree
        change ∃ result, s.phase = .done result
        cases hnow : s.phase with
        | done result => exact ⟨result, rfl⟩
        | lease => exact absurd hnow hphase
        | read | network | store _ | session | fill _ | remove =>
            rw [hnow] at hfree
            cases hfree

/-! ### Signing out -/

/-- Somebody signs out, and the session of a cookie is stored no more or is what is removed next. -/
def PortWorld.Leaves (w : PortWorld) (id : Nat) (cookie : String) : Prop :=
  ∃ t, w.runs.find? id = some t ∧ t.call = .signOut
    ∧ (cookie ∈ w.gone ∨ ∃ f, w.file = some f ∧ f.cookie = cookie
      ∧ (t.phase = .read ∨ t.phase = .remove ∧ t.read = w.file))

/-- Another session of the same cookie is one that somebody has filled in. -/
theorem PortRun.Goes.same_cookie
    (h : t.Goes w answer w' t') (hw : w.Kept) (ht : t ∈ w.runs.rows) {f f' : Stored}
    (hf : w.file = some f) (hf' : w'.file = some f') (hcookie : f'.cookie = f.cookie) :
  w'.file = w.file ∨ answer ≠ .failed ∧ w.Refines t
  := by
  by_cases hne : w'.file = w.file
  · exact .inl hne
  · right
    rcases h.file with hfile | ⟨_, _, _, hfile⟩ | ⟨hread, session, hfile, hstore | ⟨hanswer, hfill⟩⟩
    · exact absurd hfile hne
    · exact nomatch hfile.symm.trans hf'
    · cases hfile.symm.trans hf'
      exact absurd (.inr ⟨f, hf, hcookie.symm⟩) ((hw.runs t ht).new f' hstore).2
    · refine ⟨hanswer, hread, session, hfill, ?_⟩
      rw [← hfile]
      exact Ne.symm hne

/-- Signing out goes on to remove the session, or has removed it. -/
theorem PortWorld.leaves_own
    {id : Nat} {cookie : String} (hfind : w.runs.find? id = some t) (hcall : t.call = .signOut)
    (hcalm : w.Calm (.advance id answer)) (h : t.Goes w answer w' t') {f : Stored}
    (hf : w.file = some f) (hcookie : f.cookie = cookie)
    (hphase : t.phase = .read ∨ t.phase = .remove ∧ t.read = w.file) :
  cookie ∈ w.goneWith w'.file ∨ ∃ f, w'.file = some f ∧ f.cookie = cookie
    ∧ (t'.phase = .read ∨ t'.phase = .remove ∧ t'.read = w'.file)
  := by
  have hleases : t.call.leases = false := by rw [hcall]; rfl
  have hsame : t.phase = .remove → t.read = w.file := by
    rcases hphase with hread | ⟨_, hread⟩
    · intro hremove
      exact nomatch hread.symm.trans hremove
    · exact fun _ => hread
  cases h with
  | reads phase _ hnext =>
      rcases hnext with ⟨_, hne⟩ | ⟨rfl, _⟩ | ⟨hnone, _⟩
      · exact absurd hcall hne
      · exact .inr ⟨f, hf, hcookie, .inr ⟨rfl, rfl⟩⟩
      · exact nomatch hnone.symm.trans hf
  | ends _ _ hends =>
      obtain ⟨hremove, hanswer⟩ := hends hcall
      exact absurd (hsame hremove).symm ((hcalm t hfind).1 hcall hremove hanswer)
  | removes =>
      left
      subst hcookie
      rcases w.goneWith_file none hf with hgone | ⟨_, hnone, _⟩
      · exact hgone
      · cases hnone
  | misses _ hfile _ hremove => exact absurd (hsame (hremove hcall)).symm hfile
  | leased _ hleases' | issued _ _ hleases' => exact nomatch hleases.symm.trans hleases'
  | refused _ _ hne => exact absurd hcall hne
  | resumes _ _ _ hcall' | begins _ _ _ hcall' | completes _ _ _ hcall' =>
      exact nomatch hcall.symm.trans hcall'
  | learns _ _ _ hcall' | fills _ _ hcall' =>
      rcases hcall' with hcall' | ⟨base, hcall'⟩ <;> exact nomatch hcall.symm.trans hcall'
  | stores _ _ hcall' =>
      obtain ⟨base, hcall'⟩ := hcall'
      exact nomatch hcall.symm.trans hcall'

/-- A step of another operation leaves the session for signing out to remove. -/
theorem PortWorld.leaves_other
    {id : Nat} {cookie : String} (hw : w.Kept) (hfind : w.runs.find? id = some t)
    (hs : s ∈ w.runs.rows) (hcall : s.call = .signOut) (hcalm : w.Calm (.advance id answer))
    (h : t.Goes w answer w' t') {f : Stored} (hf : w.file = some f) (hcookie : f.cookie = cookie)
    (hphase : s.phase = .read ∨ s.phase = .remove ∧ s.read = w.file) :
  cookie ∈ w.goneWith w'.file ∨ ∃ f, w'.file = some f ∧ f.cookie = cookie
    ∧ (s.phase = .read ∨ s.phase = .remove ∧ s.read = w'.file)
  := by
  have ht : t ∈ w.runs.rows := (Table.find?_eq_some.mp hfind).1
  rcases w.goneWith_file w'.file hf with hgone | ⟨f', hf', hsame⟩
  · exact .inl (hcookie ▸ hgone)
  · refine .inr ⟨f', hf', hsame.trans hcookie, ?_⟩
    rcases hphase with hphase | ⟨hphase, hread⟩
    · exact .inl hphase
    · rcases h.same_cookie hw ht hf hf' hsame with hfile | ⟨hanswer, hrefines⟩
      · exact .inr ⟨hphase, hread.trans hfile.symm⟩
      · exact absurd hread ((hcalm t hfind).2.2 ⟨hanswer, hrefines⟩ s hs hcall hphase)

theorem PortWorld.find?_after
    (hid : s.id ≠ t'.id) (hs : s ∈ w.runs.rows) :
  (w.after t (w', t')).runs.find? s.id
    = some (s.sees (t.call.account && decide (w'.file ≠ w.file)))
  := by
  apply Table.find?_eq_some.mpr
  refine ⟨Table.mem_upsert.mpr (.inr ⟨?_, hid⟩), rfl⟩
  exact Table.mem_map.mpr ⟨s, hs, rfl⟩

/-- Every step that is in nobody's way leaves the session for signing out to remove. -/
theorem PortWorld.leaves_step
    {op : PortOp} {id : Nat} {cookie : String} (hw : w.Kept) (hcalm : w.Calm op)
    (hleaves : w.Leaves id cookie) (h : w.step op = some w') :
  w'.Leaves id cookie
  := by
  obtain ⟨s, hfind, hcall, hcookie⟩ := hleaves
  obtain ⟨hs, rfl⟩ := Table.find?_eq_some.mp hfind
  cases op with
  | call id call =>
      obtain ⟨runs, hruns, rfl⟩ := Option.map_eq_some_iff.mp h
      refine ⟨s, Table.find?_eq_some.mpr ⟨?_, rfl⟩, hcall, hcookie⟩
      change s ∈ runs.rows
      rw [(Table.insert?_eq_some.mp hruns).2]
      exact List.mem_cons_of_mem _ hs
  | advance id answer =>
      obtain ⟨t, v, t', hfindt, hgo, rfl⟩ := step_advance.mp h
      have hgoes := go_goes hgo
      by_cases hid : t'.id = s.id
      · have hsame : t = s := by
          obtain ⟨ht, _⟩ := Table.find?_eq_some.mp hfindt
          exact w.runs.eq_of_key_eq ht hs (hgoes.id_eq.symm.trans hid)
        subst hsame
        refine ⟨t', ?_, hgoes.call_eq.trans hcall, ?_⟩
        · rw [← hid]
          exact (Table.find?_upsert _ _ _).trans (if_pos rfl)
        · rcases hcookie with hgone | ⟨f, hf, hcookie, hphase⟩
          · exact .inl (w.gone_subset v.file cookie hgone)
          · exact leaves_own hfindt hcall hcalm hgoes hf hcookie hphase
      · refine ⟨s.sees _, find?_after (Ne.symm hid) hs, hcall, ?_⟩
        rcases hcookie with hgone | ⟨f, hf, hcookie, hphase⟩
        · exact .inl (w.gone_subset v.file cookie hgone)
        · exact leaves_other (s := s) hw hfindt hs hcall hcalm hgoes hf hcookie hphase
  | cancel login | timeout login =>
      obtain ⟨l, _, rfl⟩ := Option.map_eq_some_iff.mp h
      exact ⟨s, hfind, hcall, hcookie⟩
  | forgetBegin | forgetEnd =>
      rw [step] at h
      split_ifs at h
      cases h
      exact ⟨s, hfind, hcall, hcookie⟩
  | forgetRemove =>
      rw [step] at h
      split_ifs at h
      cases h
      refine ⟨{ s with forgotten := true }, ?_, hcall, .inl ?_⟩
      · exact Table.find?_eq_some.mpr ⟨w.mem_forgotten.mpr ⟨s, hs, rfl⟩, rfl⟩
      · rcases hcookie with hgone | ⟨f, hf, rfl, _⟩
        · exact w.gone_subset none cookie hgone
        · rcases w.goneWith_file none hf with hgone | ⟨_, hnone, _⟩
          · exact hgone
          · cases hnone

/-! ### Every run -/

/-- Nobody has done anything yet. -/
structure PortWorld.Begins (w : PortWorld) : Prop where
  runs : w.runs.rows = []
  logins : w.logins.rows = []
  gone : w.gone = []
  file : ∀ f, w.file = some f → f.cookie ∈ w.issued
  forgetting : w.forgetting = false

theorem PortWorld.Begins.kept (h₀ : w.Begins) : w.Kept where
  runs t ht := nomatch (h₀.runs ▸ ht : t ∈ [])
  file f hf := ⟨h₀.file f hf, fun hgone => nomatch (h₀.gone ▸ hgone : f.cookie ∈ [])⟩
  gone cookie hgone := nomatch (h₀.gone ▸ hgone : cookie ∈ [])
  apart t ht := nomatch (h₀.runs ▸ ht : t ∈ [])
  logins l hl := nomatch (h₀.logins ▸ hl : l ∈ [])
  forgetting hforgetting := nomatch h₀.forgetting.symm.trans hforgetting

/-- What holds in every run whose steps are in nobody's way. -/
theorem PortWorld.unhindered_run
    {w₀ : PortWorld} {ops : List PortOp} (h₀ : w₀.Begins)
    (hcalm : Runs.Along PortWorld.step PortWorld.Calm w₀ ops)
    (h : Runs.run PortWorld.step w₀ ops = some w) :
  w.Kept ∧ ∀ t ∈ w.runs.rows, t.Unhindered w
  := by
  refine Runs.run_invariant_along (I := fun w => w.Kept ∧ ∀ t ∈ w.runs.rows, t.Unhindered w)
    ?_ hcalm ⟨h₀.kept, fun t ht => nomatch (h₀.runs ▸ ht : t ∈ [])⟩ h
  intro w op w' hcalm hw hstep
  exact ⟨kept_step hw.1 hstep, unhindered_step hw.1 hcalm hw.2 hstep⟩

/-- Whoever signs out, the session that was stored when it was called is stored no more. -/
theorem PortWorld.leaves_run
    {w₀ : PortWorld} {ops : List PortOp} {id : Nat} {cookie : String} (hw : w₀.Kept)
    (hcalm : Runs.Along PortWorld.step PortWorld.Calm w₀ ops) (hleaves : w₀.Leaves id cookie)
    (h : Runs.run PortWorld.step w₀ ops = some w) :
  w.Kept ∧ w.Leaves id cookie
  := by
  refine Runs.run_invariant_along (I := fun w => w.Kept ∧ w.Leaves id cookie)
    ?_ hcalm ⟨hw, hleaves⟩ h
  intro w op w' hcalm hw hstep
  exact ⟨kept_step hw.1 hstep, leaves_step hw.1 hcalm hw.2 hstep⟩

/-- The session that was stored when signing out was called is not stored when it is over. -/
theorem PortWorld.signed_out
    {w₁ : PortWorld} {ops : List PortOp} {id : Nat} (hw : w₁.Kept) {f : Stored}
    (hf : w₁.file = some f)
    (hcalm : Runs.Along PortWorld.step PortWorld.Calm w₁ (.call id .signOut :: ops))
    (h : Runs.run PortWorld.step w₁ (.call id .signOut :: ops) = some w) {result : PortResult}
    (hfind : w.runs.find? id = some t) (hphase : t.phase = .done result) {g : Stored}
    (hg : w.file = some g) :
  g.cookie ≠ f.cookie
  := by
  obtain ⟨w₂, hcall, hrun⟩ := (Runs.run_cons PortWorld.step).mp h
  have hw₂ : w₂.Kept := kept_step hw hcall
  have hleaves : w₂.Leaves id f.cookie := by
    obtain ⟨runs, hruns, rfl⟩ := Option.map_eq_some_iff.mp hcall
    refine ⟨⟨id, .signOut, .read, none, false, false⟩, Table.find?_eq_some.mpr ⟨?_, rfl⟩, rfl,
      .inr ⟨f, hf, rfl, .inl rfl⟩⟩
    change _ ∈ runs.rows
    rw [(Table.insert?_eq_some.mp hruns).2]
    exact List.mem_cons_self
  obtain ⟨hw', t', hfind', _, hgone⟩ := leaves_run hw₂ (hcalm.2 w₂ hcall) hleaves hrun
  cases hfind'.symm.trans hfind
  intro hcookie
  rcases hgone with hgone | ⟨_, _, _, hnow | ⟨hnow, _⟩⟩
  · exact (hw'.file g hg).2 (hcookie ▸ hgone)
  · exact nomatch hnow.symm.trans hphase
  · exact nomatch hnow.symm.trans hphase

/-- Who stores a session where none is began after everything was forgotten, and so did the
sign-in in the browser. -/
theorem PortRun.Goes.creates
    (h : t.Goes w answer w' t') (hw : w.Kept) (ht : t ∈ w.runs.rows) (hall : t.Unhindered w)
    (hnone : w.file = none) (hsome : w'.file ≠ none) :
  t.forgotten = false
    ∧ ∀ login l, t.call = .complete login → w.logins.find? login = some l → l.forgotten = false
  := by
  have hne : w'.file ≠ w.file := hnone.symm ▸ hsome
  constructor
  · rw [Bool.eq_false_iff]
    intro hforgotten
    rcases h.file with hfile | ⟨_, _, _, hfile⟩ | ⟨hread, session, hfile, hstore | ⟨_, hfill⟩⟩
    · exact hne hfile
    · exact hsome hfile
    · have hleases : t.call.leases = true := by
        cases h with
        | stores _ _ hcall =>
            obtain ⟨base, hcall⟩ := hcall
            rw [hcall]
            rfl
        | completes _ _ _ hcall =>
            rw [hcall]
            rfl
        | fills _ hphase => exact nomatch hphase.symm.trans hstore
        | removes => exact absurd rfl hsome
        | ends | leased | reads | resumes | refused | learns | issued | begins | misses =>
            exact absurd rfl hne
      obtain ⟨result, hdone⟩ := hall.forgotten hforgotten hleases
      exact nomatch hdone.symm.trans hstore
    · obtain ⟨stored, hstored, _⟩ := (hw.runs t ht).fill session hfill
      exact nomatch hnone.symm.trans (hread.trans hstored)
  · intro login l hcall hlogin
    obtain ⟨l', hlogin', hactive, _⟩ := h.completes_active hcall hne
    cases hlogin'.symm.trans hlogin
    rw [Bool.eq_false_iff]
    intro hforgotten
    have hover := (hw.logins l (Table.find?_eq_some.mp hlogin).1).2 hforgotten
    exact nomatch hactive.symm.trans hover

/-- Nobody has signed in yet. -/
def signedOutPort : PortWorld where
  file := none
  forgetting := false
  runs := .empty
  logins := .empty
  issued := []
  gone := []

theorem signedOutPort_begins : signedOutPort.Begins where
  runs := rfl
  logins := rfl
  gone := rfl
  file _ h := nomatch h
  forgetting := rfl

/-- Somebody signs in, and the answer about the session is lost. -/
def signedIn : List PortOp :=
  .call 1 (.signIn "https://port") :: [.done, .done, .cookie "first", .done, .failed].map (.advance 1)

/-- Somebody signs in, a check fills in the role, and then the session is signed out. -/
def checkedBefore : List PortOp :=
  signedIn ++ .call 2 .check :: [.done, .session "acme" "admin", .done].map (.advance 2)
    ++ .call 3 .signOut :: [.done, .done].map (.advance 3)

/-- A check fills in the role after a sign-out has read the session and before it removes it. -/
def checkedBetween : List PortOp :=
  .call 2 .check :: [.done, .session "acme" "admin", .done].map (.advance 2) ++ [.advance 3 .done]

/-- A check fills in the role after a second sign-in has read the session. -/
def refusedSignIn : List PortOp :=
  signedIn ++ .call 2 .check :: [.done, .session "acme" "admin"].map (.advance 2)
    ++ .call 3 (.signIn "https://port") :: [.done, .done].map (.advance 3)
    ++ .advance 2 .done :: [.cookie "second", .done].map (.advance 3)

/-- Everything is forgotten after a sign-in was called and before it got its lease. -/
def forgottenSignIn : List PortOp :=
  [.call 1 (.signIn "https://port"), .forgetBegin, .forgetRemove, .forgetEnd]
    ++ [.done, .done, .cookie "first"].map (.advance 1)

end Votport
