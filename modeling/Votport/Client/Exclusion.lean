import Votport.Client.Claims

/-!
# The claims exclude each other

In every run of the client's programs at most one thread holds a claim or a flight of a name, no
lock file is removed that another thread has open, and no entry is forgotten by age while its
transfer is live.  A name that nobody has open is granted to the next who asks: those whom it
would wait for go on by themselves.
-/

namespace Votport

/-- The thread is about to do an instruction. -/
def LockRun.At (r : LockRun) (i : Instr) : Prop := ∃ next, r.prog = .act i next

/-- The thread has the file of a name open, and the file is not one that it has removed. -/
def LockRun.Opened (r : LockRun) (name : LockName) : Prop :=
  ∃ st, r.held.file = some (name, st) ∧ st ≠ .unlinked

/-- The lock file of what a caller has. -/
def Live.file (digest : String → String) : Live → LockName
  | .claim id => .journal id
  | .flight path => .flight (digest path)

variable {digest : String → String} {w : LockWorld} {r s : LockRun}

/-! ### Exclusion -/

/-- What threads have and do at a time. -/
structure LockWorld.Exclusive (digest : String → String) (w : LockWorld) : Prop where
  /-- Two threads do not hold claims or flights of one name. -/
  live : ∀ r ∈ w.runs.rows, ∀ s ∈ w.runs.rows, ∀ a b, r.At (.hold a) → s.At (.hold b) →
    a.file digest = b.file digest → r = s
  /-- Two threads that have one name open have the same file open. -/
  inode : ∀ r ∈ w.runs.rows, ∀ s ∈ w.runs.rows, ∀ name, r.Opened name → s.Opened name →
    r.inode = s.inode
  /-- A file that a thread removes is not open elsewhere. -/
  unlink : ∀ r ∈ w.runs.rows, ∀ s ∈ w.runs.rows, ∀ name, r.At (.unlink name) → s.Opened name →
    r = s
  /-- An entry that a thread forgets by age is not the one of a live transfer. -/
  expire : ∀ r ∈ w.runs.rows, ∀ s ∈ w.runs.rows, ∀ id, r.At (.expire id) →
    ¬ s.At (.hold (.claim id))

/-- A thread does what the rules allow. -/
theorem LockRun.Kept.allowed {i : Instr} (h : r.Kept digest w) (hi : r.At i) :
  i.Allowed digest r.held
  := by
  obtain ⟨next, hprog⟩ := hi
  have hok := h.ok
  rw [hprog] at hok
  exact hok.1

/-- A thread that holds something has locked the file of its name. -/
theorem LockRun.Kept.live_file {live : Live} (h : r.Kept digest w) (hr : r.At (.hold live)) :
  r.held.file = some (live.file digest, .locked)
  := by
  have hallowed := h.allowed hr
  cases live with
  | claim id => exact hallowed.1
  | flight path => exact hallowed.1

/-- Two threads that have locked the file of one name are the same. -/
theorem LockWorld.Kept.eq_of_locked
    (hw : w.Kept digest) (hr : r ∈ w.runs.rows) (hs : s ∈ w.runs.rows) {name : LockName}
    (hrfile : r.held.file = some (name, .locked)) (hsfile : s.held.file = some (name, .locked)) :
  r = s
  := by
  by_contra hne
  have hid : s.id ≠ r.id := fun he => hne (w.runs.eq_of_key_eq hr hs he.symm)
  apply (hw.apart r hr s hs hid).locked ⟨name, .locked, hrfile, nofun⟩ ⟨name, .locked, hsfile, nofun⟩
  have hrdir := (hw.runs r hr).present name .locked hrfile nofun
  have hsdir := (hw.runs s hs).present name .locked hsfile nofun
  exact Option.some.inj (hrdir.symm.trans hsdir)

theorem LockWorld.Kept.exclusive (hw : w.Kept digest) :
  w.Exclusive digest
  where
    live r hr s hs a b ha hb hab := by
      have hrfile := (hw.runs r hr).live_file ha
      have hsfile := (hw.runs s hs).live_file hb
      rw [← hab] at hsfile
      exact hw.eq_of_locked hr hs hrfile hsfile
    inode r hr s hs name hrname hsname := by
      obtain ⟨st, hrfile, hrst⟩ := hrname
      obtain ⟨st', hsfile, hsst⟩ := hsname
      have hrdir := (hw.runs r hr).present name st hrfile hrst
      have hsdir := (hw.runs s hs).present name st' hsfile hsst
      exact Option.some.inj (hrdir.symm.trans hsdir)
    unlink r hr s hs name hunlink hsname := by
      obtain ⟨st, hsfile, hst⟩ := hsname
      by_contra hne
      have hid : s.id ≠ r.id := fun he => hne (w.runs.eq_of_key_eq hr hs he.symm)
      exact hw.unused hr ((hw.runs r hr).allowed hunlink) hs hid hst hsfile
    expire r hr s hs id hexpire hlive := by
      have hrfile : r.held.file = some (.journal id, .locked) := (hw.runs r hr).allowed hexpire
      have hsfile := (hw.runs s hs).live_file hlive
      have heq := hw.eq_of_locked hr hs hrfile hsfile
      obtain ⟨next, hexpire⟩ := hexpire
      obtain ⟨next', hlive⟩ := hlive
      rw [heq, hlive] at hexpire
      cases hexpire

/-! ### Waiting ends -/

/-- An instruction of a thread that others wait for does not wait. -/
theorem LockWorld.exec_critical
    {i : Instr} (hallowed : i.Allowed digest r.held) (hcritical : r.held.Critical)
    (given : Answer) :
  ∃ result, w.exec r given i = some result
  := by
  cases i with
  | lease => exact absurd hcritical hallowed.2
  | register => exact absurd hcritical hallowed.2
  | guard => exact absurd hcritical hallowed
  | insert path =>
      rw [exec]
      split <;> exact ⟨_, rfl⟩
  | create name =>
      rw [exec]
      split
      · split <;> exact ⟨_, rfl⟩
      · exact ⟨_, rfl⟩
  | openFile name =>
      rw [exec]
      split
      · split <;> exact ⟨_, rfl⟩
      · exact ⟨_, rfl⟩
  | unlink name =>
      rw [exec]
      split <;> exact ⟨_, rfl⟩
  | writeEntry id entry =>
      rw [exec]
      split <;> exact ⟨_, rfl⟩
  | forget id =>
      rw [exec]
      split <;> exact ⟨_, rfl⟩
  | expire id =>
      rw [exec]
      split <;> exact ⟨_, rfl⟩
  | _ => exact ⟨_, rfl⟩

/-- A thread that others wait for goes on, whatever it is answered, until they do not wait for it
any more.  The induction is on what is left of its program. -/
theorem LockWorld.critical_ends
    {κ : Type} {prog : κ → Prog} (given : Nat → Answer) (p : Prog) :
  ∀ (w : LockWorld) (r : LockRun) (k : Nat), w.runs.find? r.id = some r → r.prog = p →
    p.Ok digest r.held →
    ∃ n w', Runs.run (LockWorld.step prog) w
        ((List.range' k n).map fun j => .advance r.id (given j)) = some w'
      ∧ ∀ s, w'.runs.find? r.id = some s → ¬ s.held.Critical
  := by
  induction p with
  | done =>
      intro w r k hr hprog _
      refine ⟨1, { w with runs := w.runs.erase r.id }, ?_, ?_⟩
      · rw [List.range'_one, List.map_singleton, Runs.run_cons]
        refine ⟨_, ?_, rfl⟩
        rw [step, hr, Option.bind_some, advance, hprog]
      · intro s hs
        obtain ⟨hs, hid⟩ := Table.find?_eq_some.mp hs
        exact absurd hid (Table.mem_erase.mp hs).2
  | act i next ih =>
      intro w r k hr hprog hok
      by_cases hcritical : r.held.Critical
      · obtain ⟨⟨w₁, n, a⟩, hexec⟩ := exec_critical (w := w) hok.1 hcritical (given k)
        have hstep : w.step prog (.advance r.id (given k))
            = some { w₁ with runs := w.runs.upsert (r.next i next n a) } := by
          rw [step, hr, Option.bind_some, advance, hprog]
          dsimp only
          rw [hexec]
          rfl
        obtain ⟨m, w', hrun, hend⟩ := ih a
          { w₁ with runs := w.runs.upsert (r.next i next n a) } (r.next i next n a) (k + 1)
          (Table.find?_key (Table.mem_upsert.mpr (.inl rfl))) rfl (hok.2 a)
        refine ⟨m + 1, w', ?_, hend⟩
        rw [List.range'_succ, List.map_cons, Runs.run_cons]
        exact ⟨_, hstep, hrun⟩
      · refine ⟨0, w, rfl, ?_⟩
        intro s hs
        rw [hr] at hs
        cases hs
        exact hcritical

/-! ### A free name is granted -/

/-- The threads with one of them as given. -/
def LockWorld.put (w : LockWorld) (r : LockRun) : LockWorld :=
  { w with runs := w.runs.upsert r }

/-- Putting the thread itself does not change what the others have. -/
theorem LockWorld.other_put (w : LockWorld) (r : LockRun) (p : LockRun → Bool) :
  (w.put r).other r p = w.other r p
  := by
  rw [Bool.eq_iff_iff, other, other, List.any_eq_true, List.any_eq_true]
  constructor
  · rintro ⟨s, hs, hp⟩
    rw [put] at hs
    rcases Table.mem_upsert.mp hs with rfl | ⟨hs, _⟩
    · rw [Bool.and_eq_true, decide_eq_true_eq] at hp
      exact absurd rfl hp.1
    · exact ⟨s, hs, hp⟩
  · rintro ⟨s, hs, hp⟩
    have hne := hp
    rw [Bool.and_eq_true, decide_eq_true_eq] at hne
    exact ⟨s, Table.mem_upsert.mpr (.inr ⟨hs, hne.1⟩), hp⟩

/-- A run in which no call to the system fails, of one thread, up to where it holds something. -/
def LockWorld.Grants (digest : String → String) (w : LockWorld) (r : LockRun) (live : Live) :
    Prop :=
  ∃ n w', Runs.run (LockWorld.step (ClaimCall.prog digest)) (w.put r)
      (List.replicate n (.advance r.id {})) = some w'
    ∧ ∃ s, w'.runs.find? r.id = some s ∧ s.At (.hold live)

/-- A thread that is there holds what it is about to hold. -/
theorem LockWorld.Grants.holds {live : Live} (h : r.At (.hold live)) :
  w.Grants digest r live
  := ⟨0, w.put r, rfl, r, Table.find?_key (Table.mem_upsert.mpr (.inl rfl)), h⟩

/-- A thread does one instruction. -/
theorem LockWorld.Grants.act
    {live : Live} {i : Instr} {next : Answer → Prog} {n : Nat} {a : Answer} {v : LockWorld}
    (hprog : r.prog = .act i next) (hexec : (w.put r).exec r {} i = some (v.put r, n, a))
    (hruns : v.runs = w.runs) (h : v.Grants digest (r.next i next n a) live) :
  w.Grants digest r live
  := by
  obtain ⟨m, w₁, hrun, hhold⟩ := h
  refine ⟨m + 1, w₁, ?_, hhold⟩
  rw [List.replicate_succ, Runs.run_cons]
  refine ⟨v.put (r.next i next n a), ?_, hrun⟩
  have hr : (w.put r).runs.find? r.id = some r :=
    Table.find?_key (Table.mem_upsert.mpr (.inl rfl))
  have hput : (w.runs.upsert r).upsert (r.next i next n a)
      = w.runs.upsert (r.next i next n a) := Table.upsert_upsert w.runs rfl
  rw [step, hr, Option.bind_some, advance, hprog]
  dsimp only
  rw [hexec, Option.map_some, put, put, put]
  dsimp only
  rw [hput, hruns]

/-- An instruction that only answers. -/
theorem LockWorld.Grants.quiet
    {live : Live} {i : Instr} {next : Answer → Prog} {a : Answer}
    (hprog : r.prog = .act i next) (hexec : (w.put r).exec r {} i = some (w.put r, r.inode, a))
    (h : w.Grants digest (r.next i next r.inode a) live) :
  w.Grants digest r live
  := Grants.act hprog hexec rfl h

/-- Nobody else has the name open. -/
def LockWorld.Free (w : LockWorld) (name : LockName) : Prop :=
  ∀ r ∈ w.runs.rows, ¬ r.Opened name

theorem LockWorld.other_of_forall {p : LockRun → Bool} (h : ∀ s ∈ w.runs.rows, p s = false) :
  w.other r p = false
  := by
  rw [other, List.any_eq_false]
  intro s hs
  rw [h s hs, Bool.and_false]
  exact Bool.false_ne_true

section Grants

variable {live : Live} {next : Answer → Prog}

/-- Nobody has locked the file that a name is opened as, when nobody has the name open. -/
theorem LockWorld.Kept.unlocked
    (hw : w.Kept digest) {name : LockName} (hfree : w.Free name) {n : Nat}
    (hn : w.dir name = some n ∨ n = w.fresh) (hs : s ∈ w.runs.rows) :
  ¬ (s.held.Locked ∧ s.inode = n)
  := by
  rintro ⟨⟨other, st, hfile, hst⟩, rfl⟩
  rcases hn with hdir | hnew
  · by_cases hunlinked : st = .unlinked
    · rw [hunlinked] at hfile
      exact (hw.runs s hs).gone other hfile name hdir
    · have hother := (hw.runs s hs).present other st hfile hunlinked
      rw [hw.inj other name s.inode hother hdir] at hfile
      exact hfree s hs ⟨st, hfile, hunlinked⟩
  · have hlt := (hw.runs s hs).bound other st hfile
    omega

/-- A file is opened, or made, and locked. -/
theorem LockWorld.Grants.create
    {name : LockName}
    (hfree : ∀ n, w.dir name = some n ∨ n = w.fresh →
      ∀ s ∈ w.runs.rows, ¬ (s.held.Locked ∧ s.inode = n))
    (hprog : r.prog = .act (.create name) next)
    (h : ∀ (w' : LockWorld) n, w'.runs = w.runs →
      (∀ s ∈ w'.runs.rows, ¬ (s.held.Locked ∧ s.inode = n)) →
      w'.Grants digest (r.next (.create name) next n {}) live) :
  w.Grants digest r live
  := by
  cases hdir : w.dir name with
  | some n =>
      refine act (v := w) hprog ?_ rfl (h w n rfl (hfree n (.inl hdir)))
      have hput : (w.put r).dir name = some n := hdir
      rw [exec, if_pos rfl, hput]
  | none =>
      let w' : LockWorld := { w with
        dir := Function.update w.dir name (some w.fresh), fresh := w.fresh + 1 }
      refine act (v := w') hprog ?_ rfl (h w' w.fresh rfl (hfree w.fresh (.inr rfl)))
      have hput : (w.put r).dir name = none := hdir
      rw [exec, if_pos rfl, hput]
      rfl

/-- A file is locked that no other has locked. -/
theorem LockWorld.Grants.tryLock
    (hprog : r.prog = .act .tryLock next)
    (hfree : ∀ s ∈ w.runs.rows, ¬ (s.held.Locked ∧ s.inode = r.inode))
    (h : w.Grants digest (r.next .tryLock next r.inode {}) live) :
  w.Grants digest r live
  := by
  apply quiet hprog _ h
  rw [exec, other_put, other_of_forall (fun s hs => decide_eq_false (hfree s hs))]
  rfl

/-- A share of the state is given when nobody has it alone. -/
theorem LockWorld.Grants.lease
    (hprog : r.prog = .act .lease next)
    (hfree : ∀ s ∈ w.runs.rows, s.held.lease ≠ .exclusive)
    (h : w.Grants digest (r.next .lease next r.inode {}) live) :
  w.Grants digest r live
  := by
  apply quiet hprog _ h
  rw [exec, other_put, other_of_forall (fun s hs => decide_eq_false (hfree s hs))]
  rfl

/-- The lock file of an entry is claimed when nobody has it open. -/
theorem LockWorld.Grants.claimIn
    (hw : w.Kept digest) {id : String} {next : Bool → Prog} (hid : validJournalId id = true)
    (hfree : w.Free (.journal id)) (hregistered : ∀ s ∈ w.runs.rows, s.held.registered = false)
    (hprog : r.prog = Votport.claimIn id next)
    (h : ∀ (w' : LockWorld) r', r'.id = r.id → r'.prog = next true → w'.Grants digest r' live) :
  w.Grants digest r live
  := by
  rw [Votport.claimIn, if_pos hid] at hprog
  refine quiet (a := {}) hprog ?_ ?_
  · rw [exec, other_put, other_of_forall hregistered]
    rfl
  · refine create (fun n hn s hs => hw.unlocked hfree hn hs) rfl ?_
    intro w' n _ hlocked
    refine tryLock rfl hlocked ?_
    refine quiet (a := {}) rfl rfl ?_
    exact h w' _ rfl rfl

/-- A journal entry is claimed. -/
theorem LockWorld.Kept.grants_claim
    (hw : w.Kept digest) {id : String} (hid : validJournalId id = true)
    (hentry : (w.entries id).isSome = true) (hfree : w.Free (.journal id))
    (hlease : ∀ s ∈ w.runs.rows, s.held.lease ≠ .exclusive)
    (hregistered : ∀ s ∈ w.runs.rows, s.held.registered = false)
    (hprog : r.prog = (ClaimCall.claim id).prog digest) :
  w.Grants digest r (.claim id)
  := by
  rw [ClaimCall.prog, claimEntry] at hprog
  refine Grants.lease hprog hlease ?_
  refine Grants.quiet (i := .hasEntry id) (a := {}) rfl ?_ ?_
  · have hput : ∀ r, ((w.put r).entries id).isSome = true := fun _ => hentry
    rw [LockWorld.exec, hput]
    rfl
  · let next : Bool → Prog := fun claimed =>
      if claimed then .act (.hold (.claim id)) fun _ => dropClaim .done else .done
    let claimed : Bool → Prog := fun claimed =>
      if claimed then next true else .act .release fun _ => next false
    have hclaim : ∀ r', r'.prog = Votport.claimIn id claimed →
        w.Grants digest r' (.claim id) := by
      intro r' hr'
      apply Grants.claimIn hw hid hfree hregistered hr'
      intro w₁ r₁ _ hr₁
      exact Grants.holds ⟨_, hr₁⟩
    exact hclaim _ rfl

/-- A journal entry is claimed and written. -/
theorem LockWorld.Kept.grants_record
    (hw : w.Kept digest) {id : String} (entry : JournalEntry) (hid : validJournalId id = true)
    (hfree : w.Free (.journal id)) (hlease : ∀ s ∈ w.runs.rows, s.held.lease ≠ .exclusive)
    (hregistered : ∀ s ∈ w.runs.rows, s.held.registered = false)
    (hprog : r.prog = (ClaimCall.recordClaimed id entry).prog digest) :
  w.Grants digest r (.claim id)
  := by
  rw [ClaimCall.prog, recordClaimed] at hprog
  refine Grants.lease hprog hlease ?_
  let claimed : Bool → Prog := fun claimed =>
    if claimed then
      .act (.writeEntry id entry) fun _ => .act (.hold (.claim id)) fun _ => dropClaim .done
    else .act .release fun _ => .done
  have hclaim : ∀ r', r'.prog = Votport.claimIn id claimed → w.Grants digest r' (.claim id) := by
    intro r' hr'
    apply Grants.claimIn hw hid hfree hregistered hr'
    intro w₁ r₁ _ hr₁
    refine Grants.act (i := .writeEntry id entry) (n := r₁.inode) (a := {})
      (v := { w₁ with entries := Function.update w₁.entries id (some entry) }) hr₁ rfl rfl ?_
    exact Grants.holds ⟨_, rfl⟩
  exact hclaim _ rfl

/-- A path is claimed for a send. -/
theorem LockWorld.Kept.grants_flight
    (hw : w.Kept digest) {path : String} (hfree : w.Free (.flight (digest path)))
    (hlease : ∀ s ∈ w.runs.rows, s.held.lease ≠ .exclusive)
    (hguarded : ∀ s ∈ w.runs.rows, s.process = r.process → s.held.guarded = false)
    (hpath : ∀ s ∈ w.runs.rows, s.process = r.process → s.held.path ≠ some path)
    (hprog : r.prog = (ClaimCall.singleFlight path).prog digest) :
  w.Grants digest r (.flight path)
  := by
  have habsent : path ∉ w.flights r.process := by
    intro hin
    obtain ⟨s, hs, hprocess, hname⟩ := hw.named r.process path hin
    exact hpath s hs hprocess hname
  rw [ClaimCall.prog, singleFlight] at hprog
  refine Grants.lease hprog hlease ?_
  refine Grants.quiet (i := .guard) (a := {}) rfl ?_ ?_
  · rw [LockWorld.exec, LockWorld.other_put, LockWorld.other_of_forall]
    · rfl
    · intro s hs
      rw [Bool.and_eq_false_iff, decide_eq_false_iff_not, or_iff_not_imp_left, not_not]
      exact hguarded s hs
  · let w' : LockWorld := { w with
      flights := Function.update w.flights r.process (path :: w.flights r.process) }
    refine Grants.act (i := .insert path) (n := r.inode) (a := {}) (v := w') rfl ?_ rfl ?_
    · exact if_neg habsent
    · refine Grants.create (w := w') (fun n hn s hs => hw.unlocked hfree hn hs) rfl ?_
      intro w₁ n _ hlocked
      refine Grants.tryLock rfl hlocked ?_
      refine Grants.quiet (i := .unguard) (a := {}) rfl rfl ?_
      exact Grants.holds ⟨_, rfl⟩

end Grants

/-! ### Claims in every run -/

/-- A thread that begins now, and goes on without a failure, gets what it asks for. -/
def LockWorld.NextGets (digest : String → String) (w : LockWorld) (process : Nat)
    (call : ClaimCall) (live : Live) : Prop :=
  ∀ id, w.runs.find? id = none →
    ∃ n w', Runs.run (LockWorld.step (ClaimCall.prog digest)) w
        (.call id process call :: List.replicate n (.advance id {})) = some w'
      ∧ ∃ s, w'.runs.find? id = some s ∧ s.At (.hold live)

/-- A thread that gets what it asks for where it is put gets it when it begins. -/
theorem LockWorld.NextGets.of_grants
    {process : Nat} {call : ClaimCall} {live : Live}
    (h : ∀ id, w.Grants digest ⟨id, process, call.prog digest, {}, 0⟩ live) :
  w.NextGets digest process call live
  := by
  intro id hid
  obtain ⟨n, w', hrun, hhold⟩ := h id
  refine ⟨n, w', ?_, hhold⟩
  rw [Runs.run_cons]
  refine ⟨w.put ⟨id, process, call.prog digest, {}, 0⟩, ?_, hrun⟩
  rw [step, Table.insert?_of_absent hid]
  rfl

/-- Claims and flights exclude each other although their lock files are removed: of each name
there is at most one, a file that is removed is open nowhere else, and no live transfer is
forgotten by age.  A thread that others wait for goes on until they do not, and a name that nobody
has open goes to the next who asks when nobody is waited for. -/
theorem client_claims_exclusive
    {w₀ : LockWorld} {ops : List (LockOp ClaimCall)} (h₀ : w₀.Idle)
    (h : Runs.run (LockWorld.step (ClaimCall.prog digest)) w₀ ops = some w) :
  w.Exclusive digest
  ∧ (∀ r ∈ w.runs.rows, ∀ given : Nat → Answer, ∃ n w',
      Runs.run (LockWorld.step (ClaimCall.prog digest)) w
        ((List.range' 0 n).map fun j => .advance r.id (given j)) = some w'
      ∧ ∀ s, w'.runs.find? r.id = some s → ¬ s.held.Critical)
  ∧ ((∀ s ∈ w.runs.rows, ¬ s.held.Critical) → ∀ process,
      (∀ id, validJournalId id = true → w.Free (.journal id) →
        (∀ entry, w.NextGets digest process (.recordClaimed id entry) (.claim id))
        ∧ ((w.entries id).isSome = true → w.NextGets digest process (.claim id) (.claim id)))
      ∧ ∀ path, w.Free (.flight (digest path)) →
        (∀ s ∈ w.runs.rows, s.process = process → s.held.path ≠ some path) →
        w.NextGets digest process (.singleFlight path) (.flight path))
  := by
  have hw : w.Kept digest := LockWorld.kept_run ClaimCall.ok h₀ h
  refine ⟨hw.exclusive, ?_, ?_⟩
  · intro r hr given
    exact LockWorld.critical_ends given r.prog w r 0 (Table.find?_key hr) rfl (hw.runs r hr).ok
  · intro hcalm process
    have hlease : ∀ s ∈ w.runs.rows, s.held.lease ≠ .exclusive :=
      fun s hs => (Held.not_critical (hcalm s hs)).1
    have hregistered : ∀ s ∈ w.runs.rows, s.held.registered = false :=
      fun s hs => (Held.not_critical (hcalm s hs)).2.1
    have hguarded : ∀ s ∈ w.runs.rows, s.held.guarded = false :=
      fun s hs => (Held.not_critical (hcalm s hs)).2.2
    refine ⟨fun id hid hfree => ⟨fun entry => ?_, fun hentry => ?_⟩, fun path hfree hpath => ?_⟩
    · apply LockWorld.NextGets.of_grants
      intro rid
      exact hw.grants_record entry hid hfree hlease hregistered rfl
    · apply LockWorld.NextGets.of_grants
      intro rid
      exact hw.grants_claim hid hentry hfree hlease hregistered rfl
    · apply LockWorld.NextGets.of_grants
      intro rid
      exact hw.grants_flight hfree hlease (fun s hs _ => hguarded s hs) hpath rfl

/-- A state without lock files and threads. -/
def emptyLocks : LockWorld where
  dir := fun _ => none
  fresh := 0
  entries := fun id => if id = "a" then some ⟨.send, [], 0⟩ else none
  flights := fun _ => []
  watched := fun _ => 0
  runs := .empty

theorem emptyLocks_idle : emptyLocks.Idle where
  runs := rfl
  flights _ := rfl
  bound _ _ h := nomatch h
  inj _ _ _ h := nomatch h

/-- One process claims an entry while another lists the journal. -/
theorem client_claims_exclusive_once :
  ∃ w, Runs.run (LockWorld.step (ClaimCall.prog id)) emptyLocks
      [.call 0 0 (.claim "a"), .call 1 1 .pending, .advance 0 {}, .advance 1 {}, .advance 0 {},
        .advance 0 {}, .advance 0 {}, .advance 0 {}, .advance 1 { names := ["a"] },
        .advance 0 {}] = some w
    ∧ w.Exclusive id
  := by
  obtain ⟨w, hw⟩ := Option.isSome_iff_exists.mp (show (Runs.run
    (LockWorld.step (ClaimCall.prog id)) emptyLocks
      [.call 0 0 (.claim "a"), .call 1 1 .pending, .advance 0 {}, .advance 1 {}, .advance 0 {},
        .advance 0 {}, .advance 0 {}, .advance 0 {}, .advance 1 { names := ["a"] },
        .advance 0 {}]).isSome = true by decide +kernel)
  exact ⟨w, hw, (client_claims_exclusive emptyLocks_idle hw).1⟩

end Votport
