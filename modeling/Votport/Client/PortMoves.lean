import Votport.Client.Port

/-!
# What an operation on the stored session does

All that one step of an operation can do, and when the operations of a run do not get into each
other's way.
-/

namespace Votport

variable {w w' : PortWorld} {t t' : PortRun} {answer : PortAnswer}

/-! ### One step -/

/-- All that a step of an operation does. -/
inductive PortRun.Goes (w : PortWorld) (t : PortRun) (answer : PortAnswer) :
    PortWorld → PortRun → Prop
  /-- It ends, without having replaced anything. -/
  | ends (result : PortResult) (hresult : result ≠ .changed)
      (hcall : t.call = .signOut → t.phase = .remove ∧ answer = .failed) :
      Goes w t answer w (t.goes (.done result))
  /-- It has a lease. -/
  | leased (hphase : t.phase = .lease) (hleases : t.call.leases = true)
      (hfree : w.forgetting = false) : Goes w t answer w (t.goes .read)
  /-- It reads what is stored. -/
  | reads (phase : PortPhase) (hphase : t.phase = .read)
      (hnext : phase = .network ∧ t.call ≠ .signOut
        ∨ phase = .remove ∧ t.call = .signOut ∧ w.file ≠ none
        ∨ w.file = none ∧ (∀ base, t.call ≠ .signIn base) ∧ ∃ result, phase = .done result) :
      Goes w t answer w { t with phase := phase, read := w.file, intervened := false }
  /-- It goes on with a sign-in in the browser. -/
  | resumes (l : SsoLogin) (hphase : t.phase = .lease) (hlogin : w.logins.find? l.id = some l)
      (hcall : t.call = .complete l.id) (hfree : w.forgetting = false) (hactive : l.active = true) :
      Goes w t answer w { t with phase := .network, read := l.previous, intervened := false }
  /-- The session has ended. -/
  | refused (hphase : t.phase = .network) (hleases : t.call.leases = false)
      (hcall : t.call ≠ .signOut) : Goes w t answer w (t.goes .remove)
  /-- It learns the tenant and the role of the session. -/
  | learns (session stored : Stored) (hphase : t.phase = .session ∨ t.phase = .network)
      (hcall : t.call = .check ∨ ∃ base, t.call = .signIn base)
      (hread : t.read = some stored) (hcookie : stored.cookie = session.cookie) :
      Goes w t answer w (t.goes (.fill session))
  /-- The server gives out a cookie. -/
  | issued (session : Stored) (hphase : t.phase = .network) (hleases : t.call.leases = true)
      (hnew : session.cookie ∉ w.issued) :
      Goes w t answer { w with issued := session.cookie :: w.issued } (t.goes (.store session))
  /-- A sign-in in the browser has begun. -/
  | begins (l : SsoLogin) (logins : Table SsoLogin.id) (hphase : t.phase = .network)
      (hcall : t.call = .beginSso l.base l.id) (hprevious : l.previous = t.read)
      (hforgotten : l.forgotten = false)
      (hlogins : w.logins.insert? l = some logins) :
      Goes w t answer { w with logins } (t.goes (.done .finished))
  /-- It stores a session in the place of what it read. -/
  | stores (session : Stored) (hphase : t.phase = .store session)
      (hcall : ∃ base, t.call = .signIn base) (hfree : w.forgetting = false)
      (hfile : w.file = t.read) :
      Goes w t answer { w with file := some session }
        { t with phase := .session, read := some session, intervened := false }
  /-- It stores a session, and the sign-in in the browser is over. -/
  | completes (session : Stored) (l : SsoLogin) (hphase : t.phase = .store session)
      (hcall : t.call = .complete l.id) (hlogin : w.logins.find? l.id = some l)
      (hactive : l.active = true) (hexpired : l.expired = false) (hfree : w.forgetting = false)
      (hfile : w.file = t.read) :
      Goes w t answer
        { w with file := some session, logins := w.logins.upsert { l with active := false } }
        (t.goes (.done .finished))
  /-- It stores the tenant and the role of the session that it read. -/
  | fills (session : Stored) (hphase : t.phase = .fill session)
      (hcall : t.call = .check ∨ ∃ base, t.call = .signIn base) (hanswer : answer ≠ .failed)
      (hfree : w.forgetting = false) (hfile : w.file = t.read) :
      Goes w t answer { w with file := some session } (t.goes (.done .finished))
  /-- It removes what it read. -/
  | removes (result : PortResult) (hphase : t.phase = .remove) (hresult : result ≠ .changed)
      (hleases : t.call.leases = false) (hanswer : answer ≠ .failed)
      (hfree : w.forgetting = false) (hfile : w.file = t.read) :
      Goes w t answer { w with file := none } (t.goes (.done result))
  /-- Something else is stored than what it read. -/
  | misses (result : PortResult) (hfile : w.file ≠ t.read)
      (hphase : (∃ session, t.phase = .store session) ∨ (∃ session, t.phase = .fill session)
        ∨ t.phase = .remove)
      (hcall : t.call = .signOut → t.phase = .remove)
      (hresult : result = .changed → t.phase ≠ .remove) :
      Goes w t answer w (t.goes (.done result))

theorem replaceStored_of_eq {file expected replacement : Option Stored} (h : file = expected) :
  replaceStored file expected replacement = (true, replacement)
  := by
  rw [replaceStored, if_pos h]

theorem replaceStored_of_ne {file expected replacement : Option Stored} (h : file ≠ expected) :
  replaceStored file expected replacement = (false, file)
  := by
  rw [replaceStored, if_neg h]

namespace PortWorld

theorem signIn_goes
    {base : String} (hcall : t.call = .signIn base) (h : w.signIn t base answer = some (w', t')) :
  t.Goes w answer w' t'
  := by
  have hleases : t.call.leases = true := by rw [hcall]; rfl
  have hout : t.call ≠ .signOut := by rw [hcall]; nofun
  unfold signIn at h
  cases hphase : t.phase with
  | lease =>
      rw [hphase] at h
      dsimp only at h
      split_ifs at h with hfree
      · cases h
        exact .ends .failed nofun (absurd · hout)
      · cases h
        exact .leased hphase hleases (Bool.not_eq_true _ ▸ hfree)
  | read =>
      rw [hphase] at h
      cases h
      exact .reads .network hphase (.inl ⟨rfl, hout⟩)
  | network =>
      rw [hphase] at h
      cases answer with
      | cookie cookie =>
          dsimp only at h
          split_ifs at h with hnew
          · cases h
            exact .issued ⟨base, cookie, "", ""⟩ hphase hleases hnew
      | done | failed | unauthorized | session _ _ | exchange _ _ _ =>
          cases h
          exact .ends .failed nofun (absurd · hout)
  | store stored =>
      rw [hphase] at h
      dsimp only at h
      by_cases hfile : w.file = t.read
      · rw [replaceStored_of_eq hfile] at h
        simp only [↓reduceIte] at h
        split_ifs at h with hfree
        · cases h
          exact .ends .failed nofun (absurd · hout)
        · cases h
          exact .stores stored hphase ⟨base, hcall⟩ (Bool.not_eq_true _ ▸ hfree) hfile
      · rw [replaceStored_of_ne hfile] at h
        simp only [Bool.false_eq_true, ↓reduceIte] at h
        split_ifs at h
        · cases h
          exact .ends .failed nofun (absurd · hout)
        · cases h
          refine .misses .changed hfile (.inl ⟨stored, hphase⟩) (absurd · hout) (fun _ => ?_)
          rw [hphase]
          nofun
  | session =>
      rw [hphase] at h
      cases answer with
      | session tenant role =>
          dsimp only at h
          split at h
          · next stored hread =>
              cases h
              exact .learns { stored with tenant, role } stored (.inl hphase) (.inr ⟨base, hcall⟩)
                hread rfl
          · cases h
      | done | failed | unauthorized | cookie _ | exchange _ _ _ =>
          cases h
          exact .ends .failed nofun (absurd · hout)
  | fill stored =>
      rw [hphase] at h
      dsimp only at h
      by_cases hfile : w.file = t.read
      · rw [replaceStored_of_eq hfile] at h
        simp only [↓reduceIte] at h
        split_ifs at h with hfree hanswer
        · cases h
          exact .ends .failed nofun (absurd · hout)
        · cases h
          exact .fills stored hphase (.inr ⟨base, hcall⟩) hanswer (Bool.not_eq_true _ ▸ hfree) hfile
      · rw [replaceStored_of_ne hfile] at h
        simp only [Bool.false_eq_true, ↓reduceIte] at h
        split_ifs at h
        · cases h
          exact .ends .failed nofun (absurd · hout)
        · cases h
          refine .misses .changed hfile (.inr (.inl ⟨stored, hphase⟩)) (absurd · hout) (fun _ => ?_)
          rw [hphase]
          nofun
  | remove =>
      rw [hphase] at h
      cases h
  | done result =>
      rw [hphase] at h
      cases h

theorem beginSso_goes
    {base : String} {login : Nat} (hcall : t.call = .beginSso base login)
    (h : w.beginSso t base login answer = some (w', t')) :
  t.Goes w answer w' t'
  := by
  have hleases : t.call.leases = true := by rw [hcall]; rfl
  have hout : t.call ≠ .signOut := by rw [hcall]; nofun
  unfold beginSso at h
  cases hphase : t.phase with
  | lease =>
      rw [hphase] at h
      dsimp only at h
      split_ifs at h with hfree
      · cases h
        exact .ends .failed nofun (absurd · hout)
      · cases h
        exact .leased hphase hleases (Bool.not_eq_true _ ▸ hfree)
  | read =>
      rw [hphase] at h
      cases h
      exact .reads .network hphase (.inl ⟨rfl, hout⟩)
  | network =>
      rw [hphase] at h
      dsimp only at h
      split_ifs at h
      · obtain ⟨logins, hlogins, hresult⟩ := Option.map_eq_some_iff.mp h
        cases hresult
        exact .begins ⟨login, base, t.read, true, false, false⟩ logins hphase hcall rfl rfl hlogins
      · cases h
        exact .ends .failed nofun (absurd · hout)
  | store _ | session | fill _ | remove | done _ =>
      rw [hphase] at h
      cases h

theorem complete_goes
    {login : Nat} (hcall : t.call = .complete login)
    (h : w.complete t login answer = some (w', t')) :
  t.Goes w answer w' t'
  := by
  have hleases : t.call.leases = true := by rw [hcall]; rfl
  have hout : t.call ≠ .signOut := by rw [hcall]; nofun
  unfold complete at h
  cases hlogin : w.logins.find? login with
  | none =>
      rw [hlogin] at h
      cases h
  | some l =>
      rw [hlogin] at h
      dsimp only at h
      obtain ⟨_, rfl⟩ := Table.find?_eq_some.mp hlogin
      cases hphase : t.phase with
      | lease =>
          rw [hphase] at h
          dsimp only at h
          split_ifs at h with hfree hactive
          · cases h
            exact .ends .failed nofun (absurd · hout)
          · cases h
            rw [Bool.or_eq_true, Bool.or_eq_true, not_or, not_or, Bool.not_eq_true', Bool.not_eq_false]
              at hactive
            exact .resumes l hphase hlogin hcall (Bool.not_eq_true _ ▸ hfree) hactive.2
      | network =>
          rw [hphase] at h
          cases answer with
          | exchange cookie tenant role =>
              dsimp only at h
              split_ifs at h with hnew
              · cases h
                exact .issued ⟨l.base, cookie, tenant, role⟩ hphase hleases hnew
          | done | failed | unauthorized | session _ _ | cookie _ =>
              cases h
              exact .ends .failed nofun (absurd · hout)
      | store stored =>
          rw [hphase] at h
          dsimp only at h
          by_cases hfile : w.file = t.read
          · rw [replaceStored_of_eq hfile] at h
            simp only [↓reduceIte] at h
            split_ifs at h with hfree hactive
            · cases h
              exact .ends .failed nofun (absurd · hout)
            · cases h
              rw [Bool.or_eq_true, Bool.or_eq_true, not_or, not_or, Bool.not_eq_true', Bool.not_eq_false,
                Bool.not_eq_true] at hactive
              exact .completes stored l hphase hcall hlogin hactive.2 (Bool.not_eq_true _ ▸ hactive.1.2)
                (Bool.not_eq_true _ ▸ hfree) hfile
          · rw [replaceStored_of_ne hfile] at h
            simp only [Bool.false_eq_true, ↓reduceIte] at h
            split_ifs at h
            · cases h
              exact .ends .failed nofun (absurd · hout)
            · cases h
              refine .misses .changed hfile (.inl ⟨stored, hphase⟩) (absurd · hout) (fun _ => ?_)
              rw [hphase]
              nofun
      | read | session | fill _ | remove | done _ =>
          rw [hphase] at h
          cases h

/-- An operation that reads, and has nothing to do when nothing is stored. -/
theorem read_goes
    {next : PortPhase} {result : PortResult} (hphase : t.phase = .read)
    (hcall : ∀ base, t.call ≠ .signIn base)
    (hnext : next = .network ∧ t.call ≠ .signOut ∨ next = .remove ∧ t.call = .signOut)
    (h : (match w.file with
      | none => some (w, { t with phase := .done result, read := none, intervened := false })
      | some stored => some (w, { t with phase := next, read := some stored, intervened := false }))
      = some (w', t')) :
  t.Goes w answer w' t'
  := by
  cases hfile : w.file with
  | none =>
      rw [hfile] at h
      cases h
      rw [← hfile]
      exact .reads (.done result) hphase (.inr (.inr ⟨hfile, hcall, result, rfl⟩))
  | some stored =>
      rw [hfile] at h
      cases h
      rw [← hfile]
      rcases hnext with hnext | hnext
      · exact .reads next hphase (.inl hnext)
      · refine .reads next hphase (.inr (.inl ⟨hnext.1, hnext.2, ?_⟩))
        rw [hfile]
        nofun

/-- An operation that removes what it has read. -/
theorem remove_goes
    (result : PortResult) (hphase : t.phase = .remove) (hresult : result ≠ .changed)
    (hleases : t.call.leases = false) (hfree : ¬ w.forgetting = true) (hanswer : answer ≠ .failed)
    (h : some ({ w with file := (replaceStored w.file t.read none).2 }, t.goes (.done result))
      = some (w', t')) :
  t.Goes w answer w' t'
  := by
  by_cases hfile : w.file = t.read
  · rw [replaceStored_of_eq hfile] at h
    cases h
    exact .removes result hphase hresult hleases hanswer (Bool.not_eq_true _ ▸ hfree) hfile
  · rw [replaceStored_of_ne hfile] at h
    cases h
    exact .misses result hfile (.inr (.inr hphase)) (fun _ => hphase) (fun he => absurd he hresult)

theorem check_goes (hcall : t.call = .check) (h : w.check t answer = some (w', t')) :
  t.Goes w answer w' t'
  := by
  have hleases : t.call.leases = false := by rw [hcall]; rfl
  have hout : t.call ≠ .signOut := by rw [hcall]; nofun
  have hin : ∀ base, t.call ≠ .signIn base := by rw [hcall]; exact fun _ => nofun
  unfold check at h
  cases hphase : t.phase with
  | read =>
      rw [hphase] at h
      exact read_goes hphase hin (.inl ⟨rfl, hout⟩) h
  | network =>
      rw [hphase] at h
      cases answer with
      | session tenant role =>
          dsimp only at h
          split at h
          · next stored hread =>
              cases h
              exact .learns { stored with tenant, role } stored (.inr hphase) (.inl hcall) hread rfl
          · cases h
      | unauthorized =>
          cases h
          exact .refused hphase hleases hout
      | done | failed | cookie _ | exchange _ _ _ =>
          cases h
          exact .ends .failed nofun (absurd · hout)
  | fill stored =>
      rw [hphase] at h
      dsimp only at h
      split_ifs at h with hfree hanswer
      · cases h
        exact .ends .failed nofun (absurd · hout)
      · by_cases hfile : w.file = t.read
        · rw [replaceStored_of_eq hfile] at h
          cases h
          exact .fills stored hphase (.inl hcall) hanswer (Bool.not_eq_true _ ▸ hfree) hfile
        · rw [replaceStored_of_ne hfile] at h
          cases h
          exact .misses .finished hfile (.inr (.inl ⟨stored, hphase⟩)) (absurd · hout) nofun
  | remove =>
      rw [hphase] at h
      dsimp only at h
      split_ifs at h with hfree hanswer
      · cases h
        exact .ends .failed nofun (absurd · hout)
      · exact remove_goes .finished hphase nofun hleases hfree hanswer h
  | lease | store _ | session | done _ =>
      rw [hphase] at h
      cases h

theorem signOut_goes (hcall : t.call = .signOut) (h : w.signOut t answer = some (w', t')) :
  t.Goes w answer w' t'
  := by
  have hleases : t.call.leases = false := by rw [hcall]; rfl
  have hin : ∀ base, t.call ≠ .signIn base := by rw [hcall]; exact fun _ => nofun
  unfold signOut at h
  cases hphase : t.phase with
  | read =>
      rw [hphase] at h
      exact read_goes hphase hin (.inr ⟨rfl, hcall⟩) h
  | remove =>
      rw [hphase] at h
      dsimp only at h
      split_ifs at h with hfree hanswer
      · cases h
        exact .ends .finished nofun (fun _ => ⟨hphase, hanswer⟩)
      · exact remove_goes .finished hphase nofun hleases hfree hanswer h
  | lease | network | store _ | session | fill _ | done _ =>
      rw [hphase] at h
      cases h

theorem runCall_goes (hcall : t.call = .run) (h : w.runCall t answer = some (w', t')) :
  t.Goes w answer w' t'
  := by
  have hleases : t.call.leases = false := by rw [hcall]; rfl
  have hout : t.call ≠ .signOut := by rw [hcall]; nofun
  have hin : ∀ base, t.call ≠ .signIn base := by rw [hcall]; exact fun _ => nofun
  unfold runCall at h
  cases hphase : t.phase with
  | read =>
      rw [hphase] at h
      exact read_goes hphase hin (.inl ⟨rfl, hout⟩) h
  | network =>
      rw [hphase] at h
      dsimp only at h
      split_ifs at h
      · cases h
        exact .refused hphase hleases hout
      · cases h
        exact .ends .finished nofun (absurd · hout)
  | remove =>
      rw [hphase] at h
      dsimp only at h
      split_ifs at h with hfree hanswer
      · cases h
        exact .ends .failed nofun (absurd · hout)
      · exact remove_goes .failed hphase nofun hleases hfree hanswer h
  | lease | store _ | session | fill _ | done _ =>
      rw [hphase] at h
      cases h

/-- What a step of an operation does. -/
theorem go_goes (h : w.go t answer = some (w', t')) : t.Goes w answer w' t' := by
  rw [go] at h
  cases hcall : t.call with
  | signIn base =>
      rw [hcall] at h
      exact signIn_goes hcall h
  | beginSso base login =>
      rw [hcall] at h
      exact beginSso_goes hcall h
  | complete login =>
      rw [hcall] at h
      exact complete_goes hcall h
  | check =>
      rw [hcall] at h
      exact check_goes hcall h
  | signOut =>
      rw [hcall] at h
      exact signOut_goes hcall h
  | run =>
      rw [hcall] at h
      exact runCall_goes hcall h

end PortWorld

end Votport
