import Votport.Client.Locks

/-!
# The claims of transfers

The programs of the client that use lock files: a journal entry is claimed for as long as its
transfer runs, the listing of the journal forgets what was kept for too long and removes the lock
files of entries that are gone, a path is claimed for one send, and the lock files of paths are
removed when nobody has a lease on the state.
-/

namespace Votport

/-! ### The journal -/

/-- How long an entry is kept for its retry. -/
def retentionSecs : Nat := 30 * 24 * 60 * 60

/-- The id of a journal entry. -/
def validJournalId (id : String) : Bool :=
  decide (id ≠ "") && id.toList.all fun c => c.isAlphanum || c = '-' || c = '_'

/-- Opens and locks the lock file of an entry while it has the registry. -/
def claimIn (id : String) (next : Bool → Prog) : Prog :=
  if validJournalId id then
    .act .register fun a =>
      if a.ok then
        .act (.create (.journal id)) fun a =>
          if a.ok then
            .act .tryLock fun a =>
              if a.ok then .act .unregister fun _ => next true
              else .act .close fun _ => .act .unregister fun _ => next false
          else .act .unregister fun _ => next false
      else next false
  else next false

/-- Drops a claim: first the lock, then the lease. -/
def dropClaim (next : Prog) : Prog := .act .close fun _ => .act .release fun _ => next

/-- Claims an entry of the journal. -/
def claimEntry (id : String) (next : Bool → Prog) : Prog :=
  .act .lease fun a =>
    if a.ok then
      .act (.hasEntry id) fun a =>
        if a.ok then
          claimIn id fun claimed => if claimed then next true else .act .release fun _ => next false
        else .act .release fun _ => next false
    else next false

/-- Claims an entry and writes it, which may fail. -/
def recordClaimed (id : String) (entry : JournalEntry) : Prog :=
  .act .lease fun a =>
    if a.ok then
      claimIn id fun claimed =>
        if claimed then
          .act (.writeEntry id entry) fun _ => .act (.hold (.claim id)) fun _ => dropClaim .done
        else .act .release fun _ => .done
    else .done

/-- Reads the entries that nobody has claimed. -/
def readUnclaimed (next : List (String × JournalEntry) → Prog) :
    List String → List (String × JournalEntry) → Prog
  | [], found => next found
  | id :: ids, found =>
      .act (.readEntry id) fun a =>
        match a.entry with
        | none => readUnclaimed next ids found
        | some entry =>
            claimIn id fun claimed =>
              if claimed then .act .close fun _ => readUnclaimed next ids (found ++ [(id, entry)])
              else readUnclaimed next ids found

/-- Forgets the entries that were kept for too long. -/
def expireAll (next : Prog) : List String → Prog
  | [] => next
  | id :: ids =>
      claimIn id fun claimed =>
        if claimed then .act (.expire id) fun _ => .act .close fun _ => expireAll next ids
        else expireAll next ids

/-- Removes the lock files of entries that are gone, those that nobody has locked. -/
def pruneLockFiles (next : Prog) : List String → Prog
  | [] => next
  | id :: ids =>
      .act (.hasEntry id) fun a =>
        if a.ok then pruneLockFiles next ids
        else
          .act (.create (.journal id)) fun a =>
            if a.ok then
              .act .tryLock fun a =>
                if a.ok then
                  .act (.unlink (.journal id)) fun _ =>
                    .act .close fun _ => pruneLockFiles next ids
                else .act .close fun _ => pruneLockFiles next ids
            else pruneLockFiles next ids

/-- Removes lock files while it has the registry. -/
def pruneLocks (next : Prog) : Prog :=
  .act .register fun a =>
    if a.ok then
      .act .listLocks fun a => pruneLockFiles (.act .unregister fun _ => next) a.names
    else next

/-- Lists the entries that nobody has claimed, oldest first. -/
def pendingEntries (next : List (String × JournalEntry) → Prog) : Prog :=
  .act .lease fun a =>
    if a.ok then
      .act .listEntries fun a =>
        readUnclaimed (fun found =>
          .act .now fun a =>
            let current := found.filter fun e => decide (a.number - e.2.started ≤ retentionSecs)
            let abandoned := found.filter fun e => !decide (a.number - e.2.started ≤ retentionSecs)
            expireAll
              (pruneLocks (.act .release fun _ =>
                next (current.mergeSort fun a b => decide (a.2.started < b.2.started)
                  || decide (a.2.started = b.2.started ∧ a.1 ≤ b.1))))
              (abandoned.map Prod.fst))
          a.names []
    else next []

/-- Forgets the sends of a path that nobody has claimed. -/
def forgetSends (path : String) : List (String × JournalEntry) → Prog
  | [] => .done
  | e :: entries =>
      if e.2.kind = .send ∧ e.2.paths = [path] then
        claimEntry e.1 fun claimed =>
          if claimed then
            .act (.readEntry e.1) fun a =>
              if a.entry.isSome then
                .act (.forget e.1) fun _ => dropClaim (forgetSends path entries)
              else dropClaim (forgetSends path entries)
          else forgetSends path entries
      else forgetSends path entries

/-! ### Flights -/

section Flights

variable (digest : String → String)

/-- How many watched drops are sent at a time. -/
def watchCapacity : Nat := 1

/-- Locks the file of a path, in a few attempts. -/
def tryThrice (next : Bool → Prog) : Nat → Prog
  | 0 => .act .close fun _ => next false
  | attempts + 1 => .act .tryLock fun a => if a.ok then next true else tryThrice next attempts

/-- Opens and locks the file of a path. -/
def claimAcrossProcesses (path : String) (next : Bool → Prog) : Prog :=
  .act (.create (.flight (digest path))) fun a => if a.ok then tryThrice next 3 else next false

/-- Removes the lock file of a flight, when nobody has it locked. -/
def removeFlight (name : String) (next : Prog) : Prog :=
  .act (.openFile (.flight name)) fun a =>
    if a.ok then
      .act .tryLock fun a =>
        if a.ok then .act .close fun _ => .act (.unlink (.flight name)) fun _ => next
        else .act .close fun _ => next
    else next

/-- Removes the lock files of flights. -/
def removeFlights (next : Prog) : List String → Prog
  | [] => next
  | name :: names => removeFlight name (removeFlights next names)

/-- The name of the lock file of a flight. -/
def validFlightName (name : String) : Bool :=
  decide (name.utf8ByteSize = 64)
    && name.toList.all fun c => c.isDigit || ('a' ≤ c && c ≤ 'f') || ('A' ≤ c && c ≤ 'F')

/-- Removes the lock files of flights, or of one path, when nobody has a lease on the state. -/
def pruneFlightFiles (path : Option String) (next : Prog) : Prog :=
  .act .exclusive fun a =>
    if a.ok then
      .act .look fun a =>
        if a.ok then
          match path with
          | some path => removeFlight (digest path) (.act .release fun _ => next)
          | none =>
              .act .listFlights fun a =>
                removeFlights (.act .release fun _ => next)
                  ((a.names.take 1024).filter validFlightName)
        else .act .release fun _ => next
    else next

/-- Drops a flight, and removes its lock file. -/
def dropFlight (path : String) (watched : Bool) : Prog :=
  .act .guard fun _ => .act .close fun _ => .act (.remove path) fun _ =>
    if watched then
      .act .subWatched fun _ => .act .release fun _ => .act .unguard fun _ =>
        pruneFlightFiles digest (some path) .done
    else
      .act .release fun _ => .act .unguard fun _ => pruneFlightFiles digest (some path) .done

/-- Claims a path for one send. -/
def singleFlight (path : String) : Prog :=
  .act .lease fun a =>
    if a.ok then
      .act .guard fun _ => .act (.insert path) fun a =>
        if a.ok then
          claimAcrossProcesses digest path fun claimed =>
            if claimed then
              .act .unguard fun _ => .act (.hold (.flight path)) fun _ =>
                dropFlight digest path false
            else
              .act (.remove path) fun _ => .act .unguard fun _ => .act .release fun _ => .done
        else .act .unguard fun _ => .act .release fun _ => .done
    else .done

/-- Claims a path for a watched drop, unless too many are sent or the watch is gone. -/
def tryAdmit (path : String) : Prog :=
  .act .lease fun a =>
    if a.ok then
      .act .guard fun _ => .act .watched fun a =>
        if watchCapacity ≤ a.number then .act .unguard fun _ => .act .release fun _ => .done
        else
          .act (.insert path) fun a =>
            if a.ok then
              claimAcrossProcesses digest path fun claimed =>
                if claimed then
                  .act .addWatched fun _ => .act .unguard fun _ => .act .look fun a =>
                    if a.ok then
                      .act (.hold (.flight path)) fun _ => dropFlight digest path true
                    else dropFlight digest path true
                else
                  .act (.remove path) fun _ => .act .unguard fun _ => .act .release fun _ => .done
            else .act .unguard fun _ => .act .release fun _ => .done
    else .done

/-- Looks whether another process sends a path. -/
def shippingElsewhere (path : String) : Prog :=
  .act .lease fun a =>
    if a.ok then
      .act .look fun a =>
        if a.ok then
          .act .guard fun _ => .act (.contains path) fun a =>
            if a.ok then .act .unguard fun _ => .act .release fun _ => .done
            else
              .act (.openFile (.flight (digest path))) fun a =>
                if a.ok then
                  .act .tryLock fun _ => .act .close fun _ =>
                    .act .unguard fun _ => .act .release fun _ => .done
                else .act .unguard fun _ => .act .release fun _ => .done
        else .act .release fun _ => .done
    else .done

/-- The operations of the client on its claims. -/
inductive ClaimCall
  | claim (id : String)
  | recordClaimed (id : String) (entry : JournalEntry)
  | forget (id : String)
  | forgetSendOf (path : String)
  | pending
  | singleFlight (path : String)
  | tryAdmit (path : String)
  | shippingElsewhere (path : String)
  | pruneFlights
deriving DecidableEq

/-- The program of an operation. -/
def ClaimCall.prog : ClaimCall → Prog
  | .claim id =>
      claimEntry id fun claimed =>
        if claimed then .act (.hold (.claim id)) fun _ => dropClaim .done else .done
  | .recordClaimed id entry => Votport.recordClaimed id entry
  | .forget id => .act (.forget id) fun _ => .done
  | .forgetSendOf path => pendingEntries (forgetSends path)
  | .pending => pendingEntries fun _ => .done
  | .singleFlight path => Votport.singleFlight digest path
  | .tryAdmit path => Votport.tryAdmit digest path
  | .shippingElsewhere path => Votport.shippingElsewhere digest path
  | .pruneFlights => pruneFlightFiles digest none .done

end Flights

/-! ### The programs keep the rules -/

section Rules

variable {digest : String → String}

theorem StateLease.shared_ne : StateLease.shared ≠ .none := nofun

/-- A program that branches on an answer. -/
theorem Prog.ok_ite {c : Prop} [Decidable c] {p q : Prog} {h : Held}
    (hp : c → p.Ok digest h) (hq : ¬ c → q.Ok digest h) :
  (if c then p else q).Ok digest h
  := by
  by_cases hc : c
  · rw [if_pos hc]
    exact hp hc
  · rw [if_neg hc]
    exact hq hc

/-- A program that begins with an instruction that may fail. -/
theorem Prog.ok_try {i : Instr} {p q : Answer → Prog} {h : Held}
    (hi : i.Allowed digest h) (hp : ∀ a, (p a).Ok digest (i.after h true))
    (hq : ∀ a, (q a).Ok digest (i.after h false)) :
  (Prog.act i fun a => if a.ok then p a else q a).Ok digest h
  := by
  refine ⟨hi, fun a => Prog.ok_ite ?_ ?_⟩
  · intro ha
    rw [ha]
    exact hp a
  · intro ha
    rw [Bool.not_eq_true] at ha
    rw [ha]
    exact hq a

variable {h : Held}

/-- Claiming an entry, for a thread without the registry and without a file. -/
theorem claimIn_ok
    {id : String} {next : Bool → Prog} (hcalm : ¬ h.Critical) (hfile : h.file = none)
    (hclaimed : (next true).Ok digest { h with file := some (.journal id, .locked) })
    (hrefused : (next false).Ok digest h) :
  (claimIn id next).Ok digest h
  := by
  obtain ⟨hlease, hregistered, hguarded⟩ := Held.not_critical hcalm
  obtain ⟨lease, _, _, _, path⟩ := h
  cases hregistered
  cases hguarded
  cases hfile
  apply Prog.ok_ite
  · intro _
    refine Prog.ok_try ⟨rfl, hcalm⟩ (fun _ => ?_) (fun _ => hrefused)
    refine Prog.ok_try ⟨rfl, rfl⟩ (fun _ => ?_) (fun _ => ?_)
    · refine Prog.ok_try ⟨_, rfl⟩ (fun _ => ?_) (fun _ => ?_)
      · exact ⟨⟨rfl, nofun⟩, fun _ => hclaimed⟩
      · exact ⟨trivial, fun _ => ⟨⟨rfl, nofun⟩, fun _ => hrefused⟩⟩
    · exact ⟨⟨rfl, nofun⟩, fun _ => hrefused⟩
  · intro _
    exact hrefused

/-- Dropping a claim. -/
theorem dropClaim_ok {next : Prog} (hnext : next.Ok digest { h with file := none, lease := .none }) :
  (dropClaim next).Ok digest h
  := ⟨trivial, fun _ => ⟨nofun, fun _ => hnext⟩⟩

/-- Claiming an entry with a lease, for a thread that holds nothing. -/
theorem claimEntry_ok
    {id : String} {next : Bool → Prog}
    (hclaimed : (next true).Ok digest
      { lease := .shared, file := some (.journal id, .locked) })
    (hrefused : (next false).Ok digest {}) :
  (claimEntry id next).Ok digest {}
  := by
  refine Prog.ok_try ⟨rfl, Held.calm nofun⟩ (fun _ => ?_) (fun _ => hrefused)
  refine Prog.ok_try trivial (fun _ => ?_) (fun _ => ⟨nofun, fun _ => hrefused⟩)
  exact claimIn_ok (Held.calm nofun) rfl hclaimed ⟨nofun, fun _ => hrefused⟩

theorem recordClaimed_ok (id : String) (entry : JournalEntry) :
  (recordClaimed id entry).Ok digest {}
  := by
  refine Prog.ok_try ⟨rfl, Held.calm nofun⟩ (fun _ => ?_) (fun _ => rfl)
  apply claimIn_ok Held.calm_shared rfl
  · exact ⟨trivial, fun _ => ⟨⟨rfl, Held.calm_shared⟩, fun _ => dropClaim_ok rfl⟩⟩
  · exact ⟨nofun, fun _ => rfl⟩

theorem readUnclaimed_ok
    {next : List (String × JournalEntry) → Prog} (hcalm : ¬ h.Critical)
    (hfile : h.file = none) (hnext : ∀ found, (next found).Ok digest h) (ids : List String) :
  ∀ found, (readUnclaimed next ids found).Ok digest h
  := by
  obtain ⟨lease, registered, guarded, _, path⟩ := h
  cases hfile
  induction ids with
  | nil => exact hnext
  | cons id ids ih =>
      intro found
      refine ⟨trivial, fun a => ?_⟩
      dsimp only [Instr.after]
      cases a.entry with
      | none => exact ih found
      | some entry =>
          apply claimIn_ok hcalm rfl
          · exact ⟨trivial, fun _ => ih _⟩
          · exact ih found

theorem expireAll_ok
    {next : Prog} (hcalm : ¬ h.Critical) (hfile : h.file = none)
    (hnext : next.Ok digest h) (ids : List String) :
  (expireAll next ids).Ok digest h
  := by
  obtain ⟨lease, registered, guarded, _, path⟩ := h
  cases hfile
  induction ids with
  | nil => exact hnext
  | cons id ids ih =>
      apply claimIn_ok hcalm rfl
      · exact ⟨rfl, fun a => ⟨trivial, fun _ => ih⟩⟩
      · exact ih

theorem pruneLockFiles_ok
    {next : Prog} (hregistered : h.registered = true) (hfile : h.file = none)
    (hnext : next.Ok digest h) (ids : List String) :
  (pruneLockFiles next ids).Ok digest h
  := by
  obtain ⟨lease, _, guarded, _, path⟩ := h
  cases hregistered
  cases hfile
  induction ids with
  | nil => exact hnext
  | cons id ids ih =>
      refine Prog.ok_try trivial (fun _ => ih) (fun _ => ?_)
      refine Prog.ok_try ⟨rfl, rfl⟩ (fun _ => ?_) (fun _ => ih)
      refine Prog.ok_try ⟨_, rfl⟩ (fun _ => ?_) (fun _ => ⟨trivial, fun _ => ih⟩)
      refine ⟨⟨rfl, rfl⟩, fun a => ⟨trivial, fun _ => ?_⟩⟩
      cases a.ok <;> exact ih

theorem pruneLocks_ok
    {next : Prog} (hcalm : ¬ h.Critical) (hfile : h.file = none)
    (hnext : next.Ok digest h) :
  (pruneLocks next).Ok digest h
  := by
  obtain ⟨hlease, hregistered, hguarded⟩ := Held.not_critical hcalm
  obtain ⟨lease, _, _, _, path⟩ := h
  cases hregistered
  cases hguarded
  cases hfile
  refine Prog.ok_try ⟨rfl, hcalm⟩ (fun _ => ⟨trivial, fun a => ?_⟩) (fun _ => hnext)
  apply pruneLockFiles_ok rfl rfl
  exact ⟨⟨rfl, nofun⟩, fun _ => hnext⟩

theorem pendingEntries_ok
    {next : List (String × JournalEntry) → Prog} (hnext : ∀ found, (next found).Ok digest {}) :
  (pendingEntries next).Ok digest {}
  := by
  refine Prog.ok_try ⟨rfl, Held.calm nofun⟩ (fun _ => ⟨trivial, fun a => ?_⟩) (fun _ => hnext [])
  apply readUnclaimed_ok Held.calm_shared rfl
  intro found
  refine ⟨trivial, fun a => ?_⟩
  apply expireAll_ok Held.calm_shared rfl
  apply pruneLocks_ok Held.calm_shared rfl
  exact ⟨nofun, fun _ => hnext _⟩

theorem forgetSends_ok (path : String) (entries : List (String × JournalEntry)) :
  (forgetSends path entries).Ok digest {}
  := by
  induction entries with
  | nil => rfl
  | cons e entries ih =>
      apply Prog.ok_ite
      · intro _
        apply claimEntry_ok
        · refine ⟨trivial, fun a => Prog.ok_ite ?_ ?_⟩
          · intro _
            exact ⟨trivial, fun _ => dropClaim_ok ih⟩
          · intro _
            exact dropClaim_ok ih
        · exact ih
      · intro _
        exact ih

theorem tryThrice_ok
    {next : Bool → Prog} {name : LockName} (hfile : h.file = some (name, .opened))
    (hclaimed : (next true).Ok digest { h with file := some (name, .locked) })
    (hrefused : (next false).Ok digest { h with file := none }) (attempts : Nat) :
  (tryThrice next attempts).Ok digest h
  := by
  induction attempts with
  | zero => exact ⟨trivial, fun _ => hrefused⟩
  | succ attempts ih =>
      refine Prog.ok_try ⟨name, hfile⟩ (fun _ => ?_) (fun _ => ih)
      rw [Instr.after, if_pos rfl, hfile]
      exact hclaimed

/-- Claiming a path, for a thread with a lease and without a file. -/
theorem claimAcrossProcesses_ok
    {path : String} {next : Bool → Prog} (hlease : h.lease ≠ .none) (hfile : h.file = none)
    (hclaimed : (next true).Ok digest
      { h with file := some (.flight (digest path), .locked) })
    (hrefused : (next false).Ok digest h) :
  (claimAcrossProcesses digest path next).Ok digest h
  := by
  refine Prog.ok_try ⟨hfile, hlease⟩ (fun _ => ?_) (fun _ => hrefused)
  have hclosed : { h with file := none } = h := by
    rw [← hfile]
  apply tryThrice_ok (h := { h with file := some (.flight (digest path), .opened) }) rfl hclaimed
  exact hclosed.symm ▸ hrefused

theorem removeFlight_ok
    {name : String} {next : Prog} (hlease : h.lease = .exclusive) (hfile : h.file = none)
    (hnext : next.Ok digest h) :
  (removeFlight name next).Ok digest h
  := by
  obtain ⟨_, registered, guarded, _, path⟩ := h
  cases hlease
  cases hfile
  refine Prog.ok_try ⟨rfl, nofun⟩ (fun _ => ?_) (fun _ => hnext)
  refine Prog.ok_try ⟨_, rfl⟩ (fun _ => ?_) (fun _ => ⟨trivial, fun _ => hnext⟩)
  refine ⟨trivial, fun _ => ⟨⟨rfl, rfl⟩, fun a => ?_⟩⟩
  cases a.ok <;> exact hnext

theorem removeFlights_ok
    {next : Prog} (hlease : h.lease = .exclusive) (hfile : h.file = none)
    (hnext : next.Ok digest h) (names : List String) :
  (removeFlights next names).Ok digest h
  := by
  induction names with
  | nil => exact hnext
  | cons name names ih => exact removeFlight_ok hlease hfile ih

theorem pruneFlightFiles_ok (path : Option String) {next : Prog} (hnext : next.Ok digest {}) :
  (pruneFlightFiles digest path next).Ok digest {}
  := by
  refine Prog.ok_try ⟨rfl, rfl⟩ (fun _ => ?_) (fun _ => hnext)
  refine Prog.ok_try trivial (fun _ => ?_) (fun _ => ⟨nofun, fun _ => hnext⟩)
  cases path with
  | some path => exact removeFlight_ok rfl rfl ⟨nofun, fun _ => hnext⟩
  | none =>
      refine ⟨trivial, fun a => ?_⟩
      apply removeFlights_ok rfl rfl
      exact ⟨nofun, fun _ => hnext⟩

/-- Dropping a flight. -/
theorem dropFlight_ok (path : String) (watched : Bool) :
  (dropFlight digest path watched).Ok digest
    { lease := .shared, file := some (.flight (digest path), .locked), path := some path }
  := by
  refine ⟨Held.calm nofun, fun _ => ⟨trivial, fun _ => ⟨⟨rfl, rfl⟩, fun _ => Prog.ok_ite ?_ ?_⟩⟩⟩
  · intro _
    exact ⟨trivial, fun _ => ⟨nofun, fun _ => ⟨rfl, fun _ => pruneFlightFiles_ok _ rfl⟩⟩⟩
  · intro _
    exact ⟨nofun, fun _ => ⟨rfl, fun _ => pruneFlightFiles_ok _ rfl⟩⟩

theorem singleFlight_ok (path : String) :
  (singleFlight digest path).Ok digest {}
  := by
  refine Prog.ok_try ⟨rfl, Held.calm nofun⟩ (fun _ => ⟨Held.calm nofun, fun _ => ?_⟩) (fun _ => rfl)
  refine Prog.ok_try ⟨rfl, rfl⟩ (fun _ => ?_) (fun _ => ⟨rfl, fun _ => ⟨nofun, fun _ => rfl⟩⟩)
  apply claimAcrossProcesses_ok StateLease.shared_ne rfl
  · exact ⟨rfl, fun _ => ⟨⟨rfl, rfl, Held.calm nofun⟩, fun _ => dropFlight_ok path false⟩⟩
  · exact ⟨⟨rfl, rfl⟩, fun _ => ⟨rfl, fun _ => ⟨nofun, fun _ => rfl⟩⟩⟩

theorem tryAdmit_ok (path : String) :
  (tryAdmit digest path).Ok digest {}
  := by
  refine Prog.ok_try ⟨rfl, Held.calm nofun⟩
    (fun _ => ⟨Held.calm nofun, fun _ => ⟨trivial, fun a => ?_⟩⟩) (fun _ => rfl)
  refine Prog.ok_ite (fun _ => ⟨rfl, fun _ => ⟨nofun, fun _ => rfl⟩⟩) (fun _ => ?_)
  refine Prog.ok_try ⟨rfl, rfl⟩ (fun _ => ?_) (fun _ => ⟨rfl, fun _ => ⟨nofun, fun _ => rfl⟩⟩)
  apply claimAcrossProcesses_ok StateLease.shared_ne rfl
  · refine ⟨trivial, fun _ => ⟨rfl, fun _ => Prog.ok_try trivial (fun _ => ?_) (fun _ => ?_)⟩⟩
    · exact ⟨⟨rfl, rfl, Held.calm nofun⟩, fun _ => dropFlight_ok path true⟩
    · exact dropFlight_ok path true
  · exact ⟨⟨rfl, rfl⟩, fun _ => ⟨rfl, fun _ => ⟨nofun, fun _ => rfl⟩⟩⟩

theorem shippingElsewhere_ok (path : String) :
  (shippingElsewhere digest path).Ok digest {}
  := by
  refine Prog.ok_try ⟨rfl, Held.calm nofun⟩ (fun _ => ?_) (fun _ => rfl)
  refine Prog.ok_try trivial (fun _ => ⟨Held.calm nofun, fun _ => ?_⟩) (fun _ => ⟨nofun, fun _ => rfl⟩)
  refine Prog.ok_try trivial (fun _ => ⟨rfl, fun _ => ⟨nofun, fun _ => rfl⟩⟩) (fun _ => ?_)
  refine Prog.ok_try ⟨rfl, StateLease.shared_ne⟩ (fun _ => ?_) (fun _ => ⟨rfl, fun _ => ⟨nofun, fun _ => rfl⟩⟩)
  refine ⟨⟨_, rfl⟩, fun a => ⟨trivial, fun _ => ?_⟩⟩
  cases a.ok <;> exact ⟨rfl, fun _ => ⟨nofun, fun _ => rfl⟩⟩

/-- Every operation keeps the rules. -/
theorem ClaimCall.ok (call : ClaimCall) : (call.prog digest).Ok digest {} := by
  cases call with
  | claim id =>
      rw [prog]
      apply claimEntry_ok
      · exact ⟨⟨rfl, Held.calm nofun⟩, fun _ => dropClaim_ok rfl⟩
      · rfl
  | recordClaimed id entry => exact recordClaimed_ok id entry
  | forget id => exact ⟨trivial, fun _ => rfl⟩
  | forgetSendOf path => exact pendingEntries_ok (forgetSends_ok path)
  | pending =>
      rw [prog]
      apply pendingEntries_ok
      intro _
      rfl
  | singleFlight path => exact singleFlight_ok path
  | tryAdmit path => exact tryAdmit_ok path
  | shippingElsewhere path => exact shippingElsewhere_ok path
  | pruneFlights => exact pruneFlightFiles_ok none rfl

end Rules

end Votport
