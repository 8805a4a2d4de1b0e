import Votport.Client.PortMoves

/-!
# The stored session is replaced by those who have read it

What holds of the stored session in every run of operations of any number of processes, and what
holds where no operation fills in or removes a session that a sign-out or a sign-in has read and
not replaced yet.
-/

namespace Votport

variable {w w' : PortWorld} {t t' s s' : PortRun} {answer : PortAnswer}

/-! ### When operations keep out of each other's way -/

/-- The operation signs in with a password, and has read what is stored. -/
def PortRun.signing (t : PortRun) : Bool :=
  match t.call, t.phase with
  | .signIn _, .network | .signIn _, .store _ | .signIn _, .session | .signIn _, .fill _ => true
  | _, _ => false

/-- The next step of the operation stores another tenant or role of the stored session. -/
def PortWorld.Refines (w : PortWorld) (t : PortRun) : Prop :=
  w.file = t.read ∧ ∃ session, t.phase = .fill session ∧ w.file ≠ some session

/-- The next step of an operation is not in the way of one that has read what is stored.  A
sign-out does not fail to remove what it has read while that is stored; a check or another call does
not change it while a sign-in has read it; nobody stores another tenant or role of the session while
a sign-out has read it. -/
def PortWorld.Spares (w : PortWorld) (answer : PortAnswer) (t : PortRun) : Prop :=
  (t.call = .signOut → t.phase = .remove → answer = .failed → w.file ≠ t.read)
  ∧ (answer ≠ .failed ∧ (t.call = .check ∨ t.call = .run)
      ∧ (w.Refines t ∨ w.file = t.read ∧ t.phase = .remove) →
    ∀ s ∈ w.runs.rows, s.signing = true → s.read ≠ w.file)
  ∧ (answer ≠ .failed ∧ w.Refines t →
    ∀ s ∈ w.runs.rows, s.call = .signOut → s.phase = .remove → s.read ≠ w.file)

/-- No operation is in the way of one that has read what is stored, and nothing is forgotten while
an operation that was called has yet to get its lease. -/
def PortWorld.Calm (w : PortWorld) : PortOp → Prop
  | .advance id answer => ∀ t, w.runs.find? id = some t → w.Spares answer t
  | .forgetRemove => ∀ t ∈ w.runs.rows, t.phase ≠ .lease
  | _ => True

instance : Decidable (w.Refines t) :=
  match hphase : t.phase with
  | .fill session =>
      decidable_of_iff (w.file = t.read ∧ w.file ≠ some session) (by
        simp [PortWorld.Refines, hphase])
  | .lease | .read | .network | .store _ | .session | .remove | .done _ =>
      .isFalse (by simp [PortWorld.Refines, hphase])

instance : Decidable (w.Spares answer t) :=
  inferInstanceAs (Decidable (_ ∧ _ ∧ _))

instance (op : PortOp) : Decidable (w.Calm op) :=
  match op with
  | .advance id answer => inferInstanceAs (Decidable (∀ t ∈ w.runs.find? id, w.Spares answer t))
  | .forgetRemove => inferInstanceAs (Decidable (∀ t ∈ w.runs.rows, t.phase ≠ .lease))
  | .call _ _ | .cancel _ | .timeout _ | .forgetBegin | .forgetEnd => .isTrue trivial

/-! ### What holds in every run -/

/-- The session of a cookie is stored, or is stored no more. -/
def PortWorld.Known (w : PortWorld) (cookie : String) : Prop :=
  cookie ∈ w.gone ∨ ∃ f, w.file = some f ∧ f.cookie = cookie

/-- What holds of an operation: what it has read is or was stored, a session that it is about to
store is new, and one that it is about to fill in is the one that it has read. -/
structure PortRun.Kept (w : PortWorld) (t : PortRun) : Prop where
  read : ∀ stored, t.read = some stored → w.Known stored.cookie
  new : ∀ session, t.phase = .store session →
    session.cookie ∈ w.issued ∧ ¬ w.Known session.cookie
  fill : ∀ session, t.phase = .fill session →
    ∃ stored, t.read = some stored ∧ stored.cookie = session.cookie

/-- What holds of the file, the cookies and all operations. -/
structure PortWorld.Kept (w : PortWorld) : Prop where
  runs : ∀ t ∈ w.runs.rows, t.Kept w
  file : ∀ f, w.file = some f → f.cookie ∈ w.issued ∧ f.cookie ∉ w.gone
  gone : ∀ cookie ∈ w.gone, cookie ∈ w.issued
  apart : ∀ t ∈ w.runs.rows, ∀ s ∈ w.runs.rows, t.id ≠ s.id → ∀ a b, t.phase = .store a →
    s.phase = .store b → a.cookie ≠ b.cookie
  logins : ∀ l ∈ w.logins.rows, (∀ stored, l.previous = some stored → w.Known stored.cookie)
    ∧ (l.forgotten = true → l.active = false)
  forgetting : w.forgetting = true →
    (∀ t ∈ w.runs.rows, t.leased = false) ∧ ∀ l ∈ w.logins.rows, l.active = false

/-- Cookies that are stored no more stay so. -/
theorem PortWorld.gone_subset (w : PortWorld) (file : Option Stored) :
  ∀ cookie ∈ w.gone, cookie ∈ w.goneWith file
  := by
  intro cookie hgone
  rw [goneWith]
  split
  · exact hgone
  · split_ifs
    · exact hgone
    · exact List.mem_cons_of_mem _ hgone

/-- The cookie of what is stored is that of what is stored then, or is stored no more. -/
theorem PortWorld.goneWith_file
    (w : PortWorld) (file : Option Stored) {f : Stored} (hf : w.file = some f) :
  f.cookie ∈ w.goneWith file ∨ ∃ f', file = some f' ∧ f'.cookie = f.cookie
  := by
  rw [goneWith, hf]
  dsimp only
  split_ifs with h
  · right
    obtain ⟨f', hf', hcookie⟩ := Option.map_eq_some_iff.mp h
    exact ⟨f', hf', hcookie⟩
  · left
    exact List.mem_cons_self

/-- Only the cookie of what was stored is stored no more. -/
theorem PortWorld.mem_goneWith
    {file : Option Stored} {cookie : String} (h : cookie ∈ w.goneWith file) :
  cookie ∈ w.gone ∨ ∃ f, w.file = some f ∧ f.cookie = cookie ∧ file.map Stored.cookie ≠ some cookie
  := by
  rw [goneWith] at h
  split at h
  · exact .inl h
  · next f hf =>
      split_ifs at h with hsame
      · exact .inl h
      · rcases List.mem_cons.mp h with rfl | h
        · exact .inr ⟨f, hf, rfl, hsame⟩
        · exact .inl h

/-- What was stored once is stored or is stored no more, whatever is stored then. -/
theorem PortWorld.Known.change
    {cookie : String} (h : w.Known cookie) (hgone : w'.gone = w.goneWith w'.file) :
  w'.Known cookie
  := by
  rcases h with h | ⟨f, hf, rfl⟩
  · left
    rw [hgone]
    exact w.gone_subset w'.file cookie h
  · rcases w.goneWith_file w'.file hf with h | ⟨f', hf', hcookie⟩
    · left
      rw [hgone]
      exact h
    · exact .inr ⟨f', hf', hcookie⟩

/-- What is stored or stored no more then was so before, unless it is what is stored then. -/
theorem PortWorld.Known.of_change
    {cookie : String} (h : w'.Known cookie) (hgone : w'.gone = w.goneWith w'.file) :
  w.Known cookie ∨ ∃ f, w'.file = some f ∧ f.cookie = cookie
  := by
  rcases h with h | h
  · rw [hgone] at h
    rcases w.mem_goneWith h with h | ⟨f, hf, hcookie, _⟩
    · exact .inl (.inl h)
    · exact .inl (.inr ⟨f, hf, hcookie⟩)
  · exact .inr h

/-! ### What a step leaves -/

namespace PortRun.Goes

variable (h : t.Goes w answer w' t')
include h

theorem id_eq : t'.id = t.id := by
  cases h <;> rfl

theorem call_eq : t'.call = t.call := by
  cases h <;> rfl

theorem forgotten_eq : t'.forgotten = t.forgotten := by
  cases h <;> rfl

theorem forgetting_eq : w'.forgetting = w.forgetting := by
  cases h <;> rfl

/-- What is stored is changed by an operation that has read it: it stores a session, or another
tenant or role of the one that is stored, or removes it. -/
theorem file :
  w'.file = w.file
  ∨ w.file = t.read ∧ answer ≠ .failed ∧ t.phase = .remove ∧ w'.file = none
  ∨ w.file = t.read ∧ ∃ session, w'.file = some session
    ∧ (t.phase = .store session ∨ answer ≠ .failed ∧ t.phase = .fill session)
  := by
  cases h with
  | stores session hphase _ _ hfile => exact .inr (.inr ⟨hfile, session, rfl, .inl hphase⟩)
  | completes session l hphase _ _ _ _ _ hfile =>
      exact .inr (.inr ⟨hfile, session, rfl, .inl hphase⟩)
  | fills session hphase _ hanswer _ hfile =>
      exact .inr (.inr ⟨hfile, session, rfl, .inr ⟨hanswer, hphase⟩⟩)
  | removes _ hphase _ _ hanswer _ hfile => exact .inr (.inl ⟨hfile, hanswer, hphase, rfl⟩)
  | ends | leased | reads | resumes | refused | learns | issued | begins | misses => exact .inl rfl

/-- The cookies that the server has given out. -/
theorem issued_eq :
  w'.issued = w.issued
  ∨ ∃ session, t'.phase = .store session ∧ session.cookie ∉ w.issued
    ∧ w'.issued = session.cookie :: w.issued
  := by
  cases h with
  | issued session _ _ hnew => exact .inr ⟨session, rfl, hnew, rfl⟩
  | ends | leased | reads | resumes | refused | learns | begins | stores | completes | fills
    | removes | misses => exact .inl rfl

/-- An operation that is about to store a session has just got it. -/
theorem phase_store {session : Stored} (hphase : t'.phase = .store session) :
  session.cookie ∉ w.issued ∧ w'.issued = session.cookie :: w.issued ∧ w'.file = w.file
  := by
  cases h with
  | issued session' _ _ hnew =>
      cases hphase
      exact ⟨hnew, rfl, rfl⟩
  | reads phase _ hnext =>
      cases hphase
      rcases hnext with ⟨hnext, _⟩ | ⟨hnext, _⟩ | ⟨_, _, _, hnext⟩ <;> cases hnext
  | ends | leased | resumes | refused | learns | begins | stores | completes | fills | removes
    | misses => cases hphase

/-- An operation that is about to fill in a session has read it. -/
theorem phase_fill {session : Stored} (hphase : t'.phase = .fill session) :
  ∃ stored, t'.read = some stored ∧ stored.cookie = session.cookie
  := by
  cases h with
  | learns session' stored _ _ hread hcookie =>
      cases hphase
      exact ⟨stored, hread, hcookie⟩
  | reads phase _ hnext =>
      cases hphase
      rcases hnext with ⟨hnext, _⟩ | ⟨hnext, _⟩ | ⟨_, _, _, hnext⟩ <;> cases hnext
  | ends | leased | resumes | refused | issued | begins | stores | completes | fills | removes
    | misses => cases hphase

/-- What an operation has read. -/
theorem read :
  t'.read = t.read ∨ t'.read = w.file ∨ t'.read = w'.file
  ∨ ∃ l ∈ w.logins.rows, t'.read = l.previous
  := by
  cases h with
  | reads => exact .inr (.inl rfl)
  | stores => exact .inr (.inr (.inl rfl))
  | resumes l _ hlogin => exact .inr (.inr (.inr ⟨l, (Table.find?_eq_some.mp hlogin).1, rfl⟩))
  | ends | leased | refused | learns | issued | begins | completes | fills | removes | misses =>
      exact .inl rfl

/-- The sign-ins in the browser: there is a new one, or one is over. -/
theorem logins :
  ∀ l' ∈ w'.logins.rows, l' ∈ w.logins.rows
    ∨ (l'.previous = t.read ∧ l'.forgotten = false ∧ t.leased = true)
    ∨ ∃ l ∈ w.logins.rows, l' = { l with active := false }
  := by
  intro l' hl'
  cases h with
  | begins l logins hphase hcall hprevious hforgotten hlogins =>
      rw [(Table.insert?_eq_some.mp hlogins).2] at hl'
      rcases List.mem_cons.mp hl' with rfl | hl'
      · refine .inr (.inl ⟨hprevious, hforgotten, ?_⟩)
        rw [PortRun.leased, hcall, hphase]
        rfl
      · exact .inl hl'
  | completes session l _ _ hlogin =>
      rcases Table.mem_upsert.mp hl' with rfl | ⟨hl', _⟩
      · exact .inr (.inr ⟨l, (Table.find?_eq_some.mp hlogin).1, rfl⟩)
      · exact .inl hl'
  | ends | leased | reads | resumes | refused | learns | issued | stores | fills | removes
    | misses => exact .inl hl'

/-- An operation that has a lease had it, or got it while nothing was being forgotten. -/
theorem leased_of (hleased : t'.leased = true) :
  t.leased = true ∨ w.forgetting = false
  := by
  cases h with
  | leased _ _ hfree => exact .inr hfree
  | resumes _ _ _ _ hfree => exact .inr hfree
  | stores _ _ _ hfree => exact .inr hfree
  | learns session stored hphase hcall =>
      left
      rcases hphase with hphase | hphase <;>
        simpa [PortRun.leased, PortRun.goes, hphase] using hleased
  | issued session hphase hleases => exact .inl (by simp [PortRun.leased, hphase, hleases])
  | reads phase hphase =>
      left
      rw [PortRun.leased, Bool.and_eq_true] at hleased
      rw [PortRun.leased, hphase, hleased.1]
      rfl
  | refused _ hleases =>
      rw [PortRun.leased, Bool.and_eq_true] at hleased
      exact absurd hleased.1 (Bool.not_eq_true _ ▸ hleases)
  | ends | begins | completes | fills | removes | misses =>
      simp [PortRun.leased, PortRun.goes] at hleased

end PortRun.Goes

/-- The operations after a step are the one that did it and the others, as they see it. -/
theorem PortWorld.mem_after {s' : PortRun} (hs' : s' ∈ (w.after t (w', t')).runs.rows) :
  s' = t' ∨ ∃ s ∈ w.runs.rows, s.id ≠ t'.id
    ∧ s' = s.sees (t.call.account && decide (w'.file ≠ w.file))
  := by
  rcases Table.mem_upsert.mp hs' with rfl | ⟨hs', hid⟩
  · exact .inl rfl
  · obtain ⟨s, hs, rfl⟩ := Table.mem_map.mp hs'
    exact .inr ⟨s, hs, hid, rfl⟩

/-! ### Every step -/

/-- A session that is stored from now on is known to nobody that is about to store another. -/
theorem PortWorld.Kept.new_of_goes
    (hw : w.Kept) (ht : t ∈ w.runs.rows) (hs : s ∈ w.runs.rows) (hid : s.id ≠ t.id)
    (h : t.Goes w answer w' t') {session : Stored} (hphase : s.phase = .store session)
    {f : Stored} (hf : w'.file = some f) :
  f.cookie ≠ session.cookie
  := by
  have hnew : ¬ w.Known session.cookie := ((hw.runs s hs).new session hphase).2
  intro hcookie
  rcases h.file with hfile | ⟨_, _, _, hfile⟩ | ⟨hread, session', hfile, hstore | ⟨_, hfill⟩⟩
  · exact hnew (.inr ⟨f, hfile ▸ hf, hcookie⟩)
  · rw [hfile] at hf
    cases hf
  · rw [hfile] at hf
    cases hf
    exact hw.apart t ht s hs (Ne.symm hid) f session hstore hphase hcookie
  · rw [hfile] at hf
    cases hf
    obtain ⟨stored, hstored, heq⟩ := (hw.runs t ht).fill f hfill
    exact hnew (.inr ⟨stored, hread.trans hstored, heq.trans hcookie⟩)

/-- What holds of another operation is kept. -/
theorem PortRun.Kept.other
    (hw : w.Kept) (ht : t ∈ w.runs.rows) (hs : s ∈ w.runs.rows) (hid : s.id ≠ t.id)
    (h : t.Goes w answer w' t') (changed : Bool) :
  (s.sees changed).Kept (w.after t (w', t'))
  := by
  have hkept := hw.runs s hs
  constructor
  · intro stored hread
    exact (hkept.read stored hread).change rfl
  · intro session hphase
    obtain ⟨hissued, hnew⟩ := hkept.new session hphase
    constructor
    · rcases h.issued_eq with he | ⟨session', _, _, he⟩
      · exact he ▸ hissued
      · exact he ▸ List.mem_cons_of_mem _ hissued
    · intro hknown
      rcases hknown.of_change (w := w) rfl with hknown | ⟨f, hf, hcookie⟩
      · exact hnew hknown
      · exact hw.new_of_goes ht hs hid h hphase hf hcookie
  · exact hkept.fill

/-- What is known has been given out. -/
theorem PortWorld.Kept.issued_of_known (hw : w.Kept) {cookie : String} (h : w.Known cookie) :
  cookie ∈ w.issued
  := by
  rcases h with h | ⟨f, hf, rfl⟩
  · exact hw.gone cookie h
  · exact (hw.file f hf).1

/-- What holds of an operation is kept by its own step. -/
theorem PortRun.Kept.own
    (hw : w.Kept) (ht : t ∈ w.runs.rows) (h : t.Goes w answer w' t') :
  t'.Kept (w.after t (w', t'))
  := by
  constructor
  · intro stored hread
    rcases h.read with he | he | he | ⟨l, hl, he⟩
    · exact ((hw.runs t ht).read stored (he ▸ hread)).change rfl
    · have hknown : w.Known stored.cookie := .inr ⟨stored, he ▸ hread, rfl⟩
      exact hknown.change rfl
    · exact .inr ⟨stored, he ▸ hread, rfl⟩
    · exact (((hw.logins l hl).1) stored (he ▸ hread)).change rfl
  · intro session hphase
    obtain ⟨hnew, hissued, hfile⟩ := h.phase_store hphase
    constructor
    · exact hissued ▸ List.mem_cons_self
    · intro hknown
      rcases hknown.of_change (w := w) rfl with hknown | ⟨f, hf, hcookie⟩
      · exact hnew (hw.issued_of_known hknown)
      · exact hnew (hw.issued_of_known (.inr ⟨f, hfile ▸ hf, hcookie⟩))
  · intro session hphase
    exact h.phase_fill hphase

/-- A step of an operation keeps everything. -/
theorem PortWorld.Kept.after (hw : w.Kept) (ht : t ∈ w.runs.rows) (h : t.Goes w answer w' t') :
  (w.after t (w', t')).Kept
  := by
  have hissued : ∀ cookie ∈ w.issued, cookie ∈ w'.issued := by
    intro cookie hcookie
    rcases h.issued_eq with he | ⟨session, _, _, he⟩
    · exact he ▸ hcookie
    · exact he ▸ List.mem_cons_of_mem _ hcookie
  constructor
  · intro s' hs'
    rcases mem_after hs' with rfl | ⟨s, hs, hid, rfl⟩
    · exact PortRun.Kept.own hw ht h
    · exact PortRun.Kept.other hw ht hs (h.id_eq ▸ hid) h _
  · intro f hf
    rcases h.file with hfile | ⟨_, _, _, hfile⟩ | ⟨hread, session, hfile, hstore | ⟨_, hfill⟩⟩
    · obtain ⟨hf', hgone⟩ := hw.file f (hfile ▸ hf)
      refine ⟨hissued _ hf', ?_⟩
      intro hmem
      rcases w.mem_goneWith hmem with hmem | ⟨f', hf', _, hne⟩
      · exact hgone hmem
      · exact hne (congrArg (Option.map Stored.cookie) hf)
    · exact nomatch hfile.symm.trans hf
    · cases hfile.symm.trans hf
      obtain ⟨hf', hnew⟩ := (hw.runs t ht).new f hstore
      refine ⟨hissued _ hf', ?_⟩
      intro hmem
      rcases w.mem_goneWith hmem with hmem | ⟨_, _, _, hne⟩
      · exact hnew (.inl hmem)
      · exact hne (congrArg (Option.map Stored.cookie) hf)
    · cases hfile.symm.trans hf
      obtain ⟨stored, hstored, heq⟩ := (hw.runs t ht).fill f hfill
      obtain ⟨hf', hgone⟩ := hw.file stored (hread.trans hstored)
      refine ⟨hissued _ (heq ▸ hf'), ?_⟩
      intro hmem
      rcases w.mem_goneWith hmem with hmem | ⟨_, _, _, hne⟩
      · exact hgone (heq ▸ hmem)
      · exact hne (congrArg (Option.map Stored.cookie) hf)
  · intro cookie hcookie
    rcases w.mem_goneWith hcookie with hcookie | ⟨f, hf, rfl, _⟩
    · exact hissued _ (hw.gone cookie hcookie)
    · exact hissued _ (hw.file f hf).1
  · intro a' ha' b' hb' hne a b hphase hphase'
    rcases mem_after ha' with rfl | ⟨a₀, ha₀, hida, rfl⟩ <;>
      rcases mem_after hb' with rfl | ⟨b₀, hb₀, hidb, rfl⟩
    · exact absurd rfl hne
    · intro hcookie
      apply (h.phase_store hphase).1
      rw [hcookie]
      exact ((hw.runs b₀ hb₀).new b hphase').1
    · intro hcookie
      apply (h.phase_store hphase').1
      rw [← hcookie]
      exact ((hw.runs a₀ ha₀).new a hphase).1
    · exact hw.apart a₀ ha₀ b₀ hb₀ hne a b hphase hphase'
  · intro l' hl'
    rcases h.logins l' hl' with hl | ⟨hprevious, hforgotten, _⟩ | ⟨l, hl, rfl⟩
    · exact ⟨fun stored hstored => ((hw.logins l' hl).1 stored hstored).change rfl,
        (hw.logins l' hl).2⟩
    · constructor
      · intro stored hstored
        exact ((hw.runs t ht).read stored (hprevious ▸ hstored)).change rfl
      · intro hf
        rw [hforgotten] at hf
        cases hf
    · exact ⟨fun stored hstored => ((hw.logins l hl).1 stored hstored).change rfl, fun _ => rfl⟩
  · intro hforgetting
    have hnow : w.forgetting = true := h.forgetting_eq ▸ hforgetting
    obtain ⟨hruns, hlogins⟩ := hw.forgetting hnow
    constructor
    · intro s' hs'
      rcases mem_after hs' with rfl | ⟨s, hs, _, rfl⟩
      · rw [Bool.eq_false_iff]
        intro hleased
        rcases h.leased_of hleased with hleased | hfree
        · rw [hruns t ht] at hleased
          cases hleased
        · rw [hnow] at hfree
          cases hfree
      · exact hruns s hs
    · intro l' hl'
      rcases h.logins l' hl' with hl | ⟨_, _, hleased⟩ | ⟨l, hl, rfl⟩
      · exact hlogins l' hl
      · rw [hruns t ht] at hleased
        cases hleased
      · rfl

/-- A sign-in in the browser that is cancelled or expires keeps everything. -/
theorem PortWorld.Kept.login
    (hw : w.Kept) {l l' : SsoLogin} (hl : l ∈ w.logins.rows) (hprevious : l'.previous = l.previous)
    (hforgotten : l'.forgotten = l.forgotten) (hactive : l.active = false → l'.active = false) :
  PortWorld.Kept { w with logins := w.logins.upsert l' }
  where
    runs s hs := ⟨(hw.runs s hs).read, (hw.runs s hs).new, (hw.runs s hs).fill⟩
    file := hw.file
    gone := hw.gone
    apart := hw.apart
    logins k hk := by
      rcases Table.mem_upsert.mp hk with rfl | ⟨hk, _⟩
      · refine ⟨fun stored hstored => (hw.logins l hl).1 stored (hprevious ▸ hstored), ?_⟩
        intro hf
        exact hactive ((hw.logins l hl).2 (hforgotten ▸ hf))
      · exact hw.logins k hk
    forgetting hforgetting := by
      refine ⟨(hw.forgetting hforgetting).1, ?_⟩
      intro k hk
      rcases Table.mem_upsert.mp hk with rfl | ⟨hk, _⟩
      · exact hactive ((hw.forgetting hforgetting).2 l hl)
      · exact (hw.forgetting hforgetting).2 k hk

/-- An operation that is called keeps everything. -/
theorem PortWorld.Kept.call
    (hw : w.Kept) {id : Nat} {call : PortCall} {runs : Table PortRun.id}
    (hruns : runs.rows = ⟨id, call, call.first, none, false, false⟩ :: w.runs.rows) :
  PortWorld.Kept { w with runs }
  := by
  have hfirst : call.first = .lease ∨ call.first = .read := by
    rw [PortCall.first]
    split_ifs
    · exact .inl rfl
    · exact .inr rfl
  have hstore : ∀ session, call.first ≠ .store session := by
    rcases hfirst with h | h <;> rw [h] <;> nofun
  refine ⟨?_, hw.file, hw.gone, ?_, hw.logins, ?_⟩
  · intro s hs
    rw [hruns] at hs
    rcases List.mem_cons.mp hs with rfl | hs
    · refine ⟨nofun, fun session hphase => absurd hphase (hstore session), ?_⟩
      intro session hphase
      rcases hfirst with h | h <;> exact nomatch h.symm.trans hphase
    · exact ⟨(hw.runs s hs).read, (hw.runs s hs).new, (hw.runs s hs).fill⟩
  · intro s hs u hu hne a b ha hb
    rw [hruns] at hs hu
    rcases List.mem_cons.mp hs with rfl | hs
    · exact absurd ha (hstore a)
    · rcases List.mem_cons.mp hu with rfl | hu
      · exact absurd hb (hstore b)
      · exact hw.apart s hs u hu hne a b ha hb
  · intro hforgetting
    refine ⟨?_, (hw.forgetting hforgetting).2⟩
    intro s hs
    rw [hruns] at hs
    rcases List.mem_cons.mp hs with rfl | hs
    · rw [PortRun.leased, PortCall.first]
      split_ifs with h
      · exact Bool.and_false _
      · rw [Bool.not_eq_true] at h
        rw [h]
        rfl
    · exact (hw.forgetting hforgetting).1 s hs

/-- The operations that began before everything was forgotten. -/
theorem PortWorld.mem_forgotten (w : PortWorld) :
  s' ∈ (w.runs.map (fun t => { t with forgotten := true }) fun _ => rfl).rows
    ↔ ∃ s ∈ w.runs.rows, { s with forgotten := true } = s'
  := Table.mem_map

/-- Everything is forgotten, and what holds is kept. -/
theorem PortWorld.Kept.remove (hw : w.Kept) (hforgetting : w.forgetting = true) :
  PortWorld.Kept { w with
    file := none
    gone := w.goneWith none
    runs := w.runs.map (fun t => { t with forgotten := true }) fun _ => rfl
    logins := w.logins.map (fun l => { l with forgotten := true }) fun _ => rfl }
  := by
  have hlogins : ∀ l' ∈ (w.logins.map (fun l => { l with forgotten := true }) fun _ => rfl).rows,
      ∃ l ∈ w.logins.rows, { l with forgotten := true } = l' := fun l' => Table.mem_map.mp
  constructor
  · intro s' hs'
    obtain ⟨s, hs, rfl⟩ := w.mem_forgotten.mp hs'
    refine ⟨fun stored hread => ((hw.runs s hs).read stored hread).change rfl, ?_,
      (hw.runs s hs).fill⟩
    intro session hphase
    obtain ⟨hissued, hnew⟩ := (hw.runs s hs).new session hphase
    refine ⟨hissued, ?_⟩
    intro hknown
    rcases hknown.of_change (w := w) rfl with hknown | ⟨f, hf, _⟩
    · exact hnew hknown
    · cases hf
  · exact fun f hf => nomatch hf
  · intro cookie hcookie
    rcases w.mem_goneWith hcookie with hcookie | ⟨f, hf, rfl, _⟩
    · exact hw.gone cookie hcookie
    · exact (hw.file f hf).1
  · intro a' ha' b' hb' hne
    obtain ⟨a, ha, rfl⟩ := w.mem_forgotten.mp ha'
    obtain ⟨b, hb, rfl⟩ := w.mem_forgotten.mp hb'
    exact hw.apart a ha b hb hne
  · intro l' hl'
    obtain ⟨l, hl, rfl⟩ := hlogins l' hl'
    exact ⟨fun stored hstored => ((hw.logins l hl).1 stored hstored).change rfl,
      fun _ => (hw.forgetting hforgetting).2 l hl⟩
  · intro _
    constructor
    · intro s' hs'
      obtain ⟨s, hs, rfl⟩ := w.mem_forgotten.mp hs'
      exact (hw.forgetting hforgetting).1 s hs
    · intro l' hl'
      obtain ⟨l, hl, rfl⟩ := hlogins l' hl'
      exact (hw.forgetting hforgetting).2 l hl

theorem PortWorld.step_advance {id : Nat} :
  w.step (.advance id answer) = some w' ↔ ∃ t v t', w.runs.find? id = some t
    ∧ w.go t answer = some (v, t') ∧ w.after t (v, t') = w'
  := by
  rw [step, Option.bind_eq_some_iff]
  constructor
  · rintro ⟨t, hfind, h⟩
    obtain ⟨⟨v, t'⟩, hgo, h⟩ := Option.map_eq_some_iff.mp h
    exact ⟨t, v, t', hfind, hgo, h⟩
  · rintro ⟨t, v, t', hfind, hgo, h⟩
    exact ⟨t, hfind, Option.map_eq_some_iff.mpr ⟨(v, t'), hgo, h⟩⟩

/-- Every step keeps everything. -/
theorem PortWorld.kept_step {op : PortOp} (hw : w.Kept) (h : w.step op = some w') :
  w'.Kept
  := by
  cases op with
  | call id call =>
      obtain ⟨runs, hruns, rfl⟩ := Option.map_eq_some_iff.mp h
      exact hw.call (Table.insert?_eq_some.mp hruns).2
  | advance id answer =>
      obtain ⟨t, v, t', hfind, hgo, rfl⟩ := step_advance.mp h
      exact hw.after (Table.find?_eq_some.mp hfind).1 (go_goes hgo)
  | cancel login =>
      obtain ⟨l, hfind, rfl⟩ := Option.map_eq_some_iff.mp h
      exact hw.login (Table.find?_eq_some.mp hfind).1 rfl rfl (fun _ => rfl)
  | timeout login =>
      obtain ⟨l, hfind, rfl⟩ := Option.map_eq_some_iff.mp h
      exact hw.login (Table.find?_eq_some.mp hfind).1 rfl rfl (fun hactive => hactive)
  | forgetBegin =>
      rw [step] at h
      split_ifs at h with hbusy
      cases h
      simp only [Bool.or_eq_true, not_or, List.any_eq_true, not_exists, not_and,
        Bool.not_eq_true] at hbusy
      exact ⟨fun t ht => ⟨(hw.runs t ht).read, (hw.runs t ht).new, (hw.runs t ht).fill⟩, hw.file,
        hw.gone, hw.apart, hw.logins, fun _ => ⟨hbusy.1.2, hbusy.2⟩⟩
  | forgetRemove =>
      rw [step] at h
      split_ifs at h with hforgetting
      cases h
      exact hw.remove hforgetting
  | forgetEnd =>
      rw [step] at h
      split_ifs at h with hforgetting
      cases h
      exact ⟨fun t ht => ⟨(hw.runs t ht).read, (hw.runs t ht).new, (hw.runs t ht).fill⟩, hw.file,
        hw.gone, hw.apart, hw.logins, nofun⟩

end Votport
