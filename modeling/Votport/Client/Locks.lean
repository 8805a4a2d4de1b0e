import Votport.Foundation.Runs
import Votport.Foundation.Table
import Mathlib.Logic.Function.Basic

/-!
# Lock files that are pruned

The threads of any number of processes share a directory.  They open lock files by name, lock
what they have opened, and remove lock files that nobody uses.  A lock is on what was opened, so
that it excludes only those who opened the same file: a file that is removed while somebody has
it open and made again would be locked twice.  There are two schemes against this.  In the
journal a file is opened, locked and removed by who holds the registry, and stays open without
the registry only when it is locked.  A file of a flight is opened by who has a lease on the
state, and removed by who has the state alone.

A thread runs a program of small instructions.  What it holds at each of them is known from the
program alone, and so are the rules of the two schemes; the invariant is that every thread keeps
them and that no two threads hold what excludes each other.
-/

namespace Votport

/-! ### Programs -/

/-- The name of a lock file: of a journal entry, or of the path of a flight. -/
inductive LockName
  | journal (id : String)
  | flight (digest : String)
deriving DecidableEq, Repr

/-- What a thread has of the state: nothing, a share with others, or all of it. -/
inductive StateLease
  | none
  | shared
  | exclusive
deriving DecidableEq, Repr

/-- How a thread has a lock file: open, locked, or locked after it was removed. -/
inductive FileState
  | opened
  | locked
  | unlinked
deriving DecidableEq, Repr

/-- What a thread holds: of the state, the registry, the set of its process of paths in flight,
a lock file, and a path that it has put into the set. -/
structure Held where
  lease : StateLease := .none
  registered : Bool := false
  guarded : Bool := false
  file : Option (LockName × FileState) := none
  path : Option String := none
deriving DecidableEq, Repr

/-- What a journal entry is about. -/
inductive JournalKind
  | send
  | receive
deriving DecidableEq, Repr

/-- A journalled transfer, of what its claims depend on. -/
structure JournalEntry where
  kind : JournalKind
  paths : List String
  started : Nat
deriving DecidableEq, Repr

/-- What a caller has until it drops it. -/
inductive Live
  | claim (id : String)
  | flight (path : String)
deriving DecidableEq, Repr

/-- An instruction. -/
inductive Instr
  /-- Opens the state and waits for a share of it. -/
  | lease
  /-- Tries to have the state alone. -/
  | exclusive
  | release
  /-- Waits for the registry of the journal. -/
  | register
  | unregister
  /-- Waits for the set of paths in flight. -/
  | guard
  | unguard
  | insert (path : String)
  | contains (path : String)
  | remove (path : String)
  | watched
  | addWatched
  | subWatched
  /-- Opens a lock file, and makes it when there is none. -/
  | create (name : LockName)
  /-- Opens a lock file that is there. -/
  | openFile (name : LockName)
  | tryLock
  | close
  | unlink (name : LockName)
  | hasEntry (id : String)
  | readEntry (id : String)
  | writeEntry (id : String) (entry : JournalEntry)
  | forget (id : String)
  /-- Forgets an entry that was kept for too long. -/
  | expire (id : String)
  | listEntries
  | listLocks
  | listFlights
  | now
  /-- Reads something else of the state. -/
  | look
  /-- Waits for the caller to drop what it has. -/
  | hold (live : Live)
deriving DecidableEq

/-- What an instruction answers. -/
structure Answer where
  ok : Bool := true
  names : List String := []
  entry : Option JournalEntry := none
  number : Nat := 0
deriving DecidableEq, Repr

/-- A program: what it does next depends on the answers. -/
inductive Prog
  | done
  | act (i : Instr) (next : Answer → Prog)

/-! ### What is known of a program -/

/-- The file is not one of a flight. -/
def Held.closedFlight (h : Held) : Prop := ∀ d st, h.file ≠ some (.flight d, st)

/-- What a thread holds after an instruction. -/
def Instr.after (h : Held) (ok : Bool) : Instr → Held
  | .lease => if ok then { h with lease := .shared } else h
  | .exclusive => if ok then { h with lease := .exclusive } else h
  | .release => { h with lease := .none }
  | .register => if ok then { h with registered := true } else h
  | .unregister => { h with registered := false }
  | .guard => { h with guarded := true }
  | .unguard => { h with guarded := false }
  | .insert path => if ok then { h with path := some path } else h
  | .remove _ => { h with path := none }
  | .create name => if ok then { h with file := some (name, .opened) } else h
  | .openFile name => if ok then { h with file := some (name, .opened) } else h
  | .tryLock => if ok then { h with file := h.file.map fun f => (f.1, .locked) } else h
  | .close => { h with file := none }
  | .unlink _ => if ok then { h with file := h.file.map fun f => (f.1, .unlinked) } else h
  | _ => h

/-- The thread may open a file of this name: of the journal with the registry, of a flight with
a part of the state. -/
def Held.mayOpen (h : Held) : LockName → Prop
  | .journal _ => h.registered = true
  | .flight _ => h.lease ≠ .none

variable (digest : String → String)

/-- The thread has what others wait for. -/
def Held.Critical (h : Held) : Prop :=
  h.lease = .exclusive ∨ h.registered = true ∨ h.guarded = true

/-- Nobody waits for a thread that has no more than a share of the state. -/
theorem Held.calm {lease : StateLease} {file : Option (LockName × FileState)} {path : Option String}
    (hlease : lease ≠ .exclusive) :
  ¬ Held.Critical { lease, file, path }
  := by
  rintro (h | h | h)
  · exact hlease h
  · cases h
  · cases h

theorem Held.calm_shared {file : Option (LockName × FileState)} {path : Option String} :
  ¬ Held.Critical { lease := .shared, file, path }
  := Held.calm nofun

theorem Held.not_critical {h : Held} (hcalm : ¬ h.Critical) :
  h.lease ≠ .exclusive ∧ h.registered = false ∧ h.guarded = false
  := by
  rw [Held.Critical, not_or, not_or, Bool.not_eq_true, Bool.not_eq_true] at hcalm
  exact hcalm

/-- The rules of both schemes, and that no thread waits while others wait for it. -/
def Instr.Allowed (h : Held) : Instr → Prop
  | .lease => h.lease = .none ∧ ¬ h.Critical
  | .exclusive => h.lease = .none ∧ h.file = none
  | .release => h.closedFlight
  | .register => h.file = none ∧ ¬ h.Critical
  | .unregister => h.registered = true ∧ ∀ id, h.file ≠ some (.journal id, .opened)
  | .guard => ¬ h.Critical
  | .unguard => h.guarded = true
  | .insert _ => h.guarded = true ∧ h.path = none
  | .remove path => h.guarded = true ∧ h.path = some path
  | .create name => h.file = none ∧ h.mayOpen name
  | .openFile name => h.file = none ∧ h.mayOpen name
  | .tryLock => ∃ name, h.file = some (name, .opened)
  | .unlink (.journal id) => h.registered = true ∧ h.file = some (.journal id, .locked)
  | .unlink (.flight _) => h.lease = .exclusive ∧ h.file = none
  | .expire id => h.file = some (.journal id, .locked)
  | .hold (.claim id) => h.file = some (.journal id, .locked) ∧ ¬ h.Critical
  | .hold (.flight path) =>
      h.file = some (.flight (digest path), .locked) ∧ h.path = some path ∧ ¬ h.Critical
  | _ => True

/-- A program keeps the rules, whatever the answers are, and leaves no path in the set. -/
def Prog.Ok : Prog → Held → Prop
  | .done, h => h.path = none
  | .act i next, h => i.Allowed digest h ∧ ∀ a, (next a).Ok (i.after h a.ok)

/-! ### Threads -/

/-- A thread in the middle of a program, with the number of the file that it has open. -/
structure LockRun where
  id : Nat
  process : Nat
  prog : Prog
  held : Held
  inode : Nat

/-- The thread has locked its file. -/
def Held.Locked (h : Held) : Prop := ∃ name st, h.file = some (name, st) ∧ st ≠ .opened

instance (h : Held) : Decidable h.Locked :=
  match hf : h.file with
  | none => isFalse (by rintro ⟨_, _, hfile, _⟩; rw [hf] at hfile; cases hfile)
  | some (name, st) =>
      if hst : st = .opened then
        isFalse (by rintro ⟨_, _, hfile, hne⟩; rw [hf] at hfile; cases hfile; exact hne hst)
      else isTrue ⟨name, st, hf, hst⟩

/-- The directory: the file of each name, the number of the next file, the entries of the
journal, what the processes keep in memory, and the threads. -/
structure LockWorld where
  dir : LockName → Option Nat
  fresh : Nat
  entries : String → Option JournalEntry
  flights : Nat → List String
  watched : Nat → Nat
  runs : Table LockRun.id

/-- Another thread satisfies `p`. -/
def LockWorld.other (w : LockWorld) (r : LockRun) (p : LockRun → Bool) : Bool :=
  w.runs.rows.any fun s => decide (s.id ≠ r.id) && p s

/-- Does an instruction of a thread, with what the environment gives: whether a system call fails,
the order of a listing, the time.  None when the thread has to wait. -/
def LockWorld.exec (w : LockWorld) (r : LockRun) (given : Answer) :
    Instr → Option (LockWorld × Nat × Answer)
  | .lease =>
      if given.ok && w.other r (fun s => decide (s.held.lease = .exclusive)) then none
      else some (w, r.inode, { ok := given.ok })
  | .exclusive =>
      some (w, r.inode,
        { ok := given.ok && !w.other r fun s => decide (s.held.lease ≠ .none) })
  | .register =>
      if given.ok && w.other r (fun s => s.held.registered) then none
      else some (w, r.inode, { ok := given.ok })
  | .guard =>
      if w.other r fun s => decide (s.process = r.process) && s.held.guarded then none
      else some (w, r.inode, {})
  | .insert path =>
      if path ∈ w.flights r.process then some (w, r.inode, { ok := false })
      else
        some ({ w with
          flights := Function.update w.flights r.process (path :: w.flights r.process) },
          r.inode, {})
  | .contains path => some (w, r.inode, { ok := decide (path ∈ w.flights r.process) })
  | .remove path =>
      some ({ w with
        flights := Function.update w.flights r.process
          ((w.flights r.process).filter fun p => decide (p ≠ path)) }, r.inode, {})
  | .watched => some (w, r.inode, { number := w.watched r.process })
  | .addWatched =>
      some ({ w with watched := Function.update w.watched r.process (w.watched r.process + 1) },
        r.inode, {})
  | .subWatched =>
      some ({ w with watched := Function.update w.watched r.process (w.watched r.process - 1) },
        r.inode, {})
  | .create name =>
      if given.ok then
        match w.dir name with
        | some n => some (w, n, {})
        | none =>
            some ({ w with dir := Function.update w.dir name (some w.fresh), fresh := w.fresh + 1 },
              w.fresh, {})
      else some (w, r.inode, { ok := false })
  | .openFile name =>
      match w.dir name with
      | some n => if given.ok then some (w, n, {}) else some (w, r.inode, { ok := false })
      | none => some (w, r.inode, { ok := false })
  | .tryLock =>
      some (w, r.inode,
        { ok := given.ok && !w.other r fun s => decide (s.held.Locked ∧ s.inode = r.inode) })
  | .unlink name =>
      if given.ok then some ({ w with dir := Function.update w.dir name none }, r.inode, {})
      else some (w, r.inode, { ok := false })
  | .hasEntry id => some (w, r.inode, { ok := given.ok && (w.entries id).isSome })
  | .readEntry id => some (w, r.inode, { entry := if given.ok then w.entries id else none })
  | .writeEntry id entry =>
      if given.ok then
        some ({ w with entries := Function.update w.entries id (some entry) }, r.inode, {})
      else some (w, r.inode, { ok := false })
  | .forget id =>
      if given.ok then
        some ({ w with entries := Function.update w.entries id none }, r.inode, {})
      else some (w, r.inode, { ok := false })
  | .expire id =>
      if given.ok then
        some ({ w with entries := Function.update w.entries id none }, r.inode, {})
      else some (w, r.inode, { ok := false })
  | .listEntries =>
      some (w, r.inode, { names := given.names.filter fun id => (w.entries id).isSome })
  | .listLocks =>
      some (w, r.inode, { names := given.names.filter fun id => (w.dir (.journal id)).isSome })
  | .listFlights =>
      some (w, r.inode, { names := given.names.filter fun d => (w.dir (.flight d)).isSome })
  | .now => some (w, r.inode, { number := given.number })
  | .look => some (w, r.inode, { ok := given.ok })
  | _ => some (w, r.inode, {})

/-- The thread after an instruction. -/
def LockRun.next (r : LockRun) (i : Instr) (next : Answer → Prog) (inode : Nat) (a : Answer) :
    LockRun :=
  { r with prog := next a, held := i.after r.held a.ok, inode := inode }

/-- A thread goes on. -/
def LockWorld.advance (w : LockWorld) (r : LockRun) (given : Answer) : Option LockWorld :=
  match r.prog with
  | .done => some { w with runs := w.runs.erase r.id }
  | .act i next =>
      (w.exec r given i).map fun result =>
        { result.1 with runs := w.runs.upsert (r.next i next result.2.1 result.2.2) }

/-- A step of the threads: one begins a program of a given kind, one goes on, or a process ends
with all of its threads. -/
inductive LockOp (κ : Type)
  | call (id process : Nat) (kind : κ)
  | advance (id : Nat) (given : Answer)
  | crash (process : Nat)

/-- One step, where each kind of program is known. -/
def LockWorld.step {κ : Type} (prog : κ → Prog) (w : LockWorld) : LockOp κ → Option LockWorld
  | .call id process kind =>
      (w.runs.insert? ⟨id, process, prog kind, {}, 0⟩).map fun runs => { w with runs }
  | .advance id given => (w.runs.find? id).bind fun r => w.advance r given
  | .crash process =>
      some { w with
        flights := Function.update w.flights process []
        watched := Function.update w.watched process 0
        runs := w.runs.filter fun r => r.process ≠ process }

/-! ### The invariant -/

/-- Two threads do not hold what excludes each other. -/
structure LockRun.Apart (r s : LockRun) : Prop where
  alone : r.held.lease = .exclusive → s.held.lease = .none
  alone' : s.held.lease = .exclusive → r.held.lease = .none
  registered : r.held.registered = true → s.held.registered = false
  guarded : r.process = s.process → r.held.guarded = true → s.held.guarded = false
  path : r.process = s.process → ∀ p, r.held.path = some p → s.held.path ≠ some p
  locked : r.held.Locked → s.held.Locked → r.inode ≠ s.inode

theorem LockRun.Apart.symm {r s : LockRun} (h : r.Apart s) : s.Apart r where
  alone := h.alone'
  alone' := h.alone
  registered hs := by
    cases hr : r.held.registered with
    | false => rfl
    | true => exact hs.symm.trans (h.registered hr)
  guarded hp hs := by
    cases hr : r.held.guarded with
    | false => rfl
    | true => exact hs.symm.trans (h.guarded hp.symm hr)
  path hp p hs hr := h.path hp.symm p hr hs
  locked hs hr he := h.locked hr hs he.symm

/-- What holds of a thread: its program keeps the rules, a file of the journal is open without the
registry only when it is locked, a file of a flight only with a part of the state, the file that
it has open is the one of its name unless it removed it, and the path it put into the set is
there. -/
structure LockRun.Kept (w : LockWorld) (r : LockRun) : Prop where
  ok : r.prog.Ok digest r.held
  journal : ∀ id, r.held.file = some (.journal id, .opened) → r.held.registered = true
  flight : ∀ d st, r.held.file = some (.flight d, st) → r.held.lease ≠ .none
  present : ∀ name st, r.held.file = some (name, st) → st ≠ .unlinked →
    w.dir name = some r.inode
  gone : ∀ name, r.held.file = some (name, .unlinked) → ∀ other, w.dir other ≠ some r.inode
  bound : ∀ name st, r.held.file = some (name, st) → r.inode < w.fresh
  listed : ∀ p, r.held.path = some p → p ∈ w.flights r.process

/-- What holds in every run. -/
structure LockWorld.Kept (w : LockWorld) : Prop where
  runs : ∀ r ∈ w.runs.rows, r.Kept digest w
  apart : ∀ r ∈ w.runs.rows, ∀ s ∈ w.runs.rows, s.id ≠ r.id → r.Apart s
  bound : ∀ name n, w.dir name = some n → n < w.fresh
  inj : ∀ name other n, w.dir name = some n → w.dir other = some n → name = other
  named : ∀ process p, p ∈ w.flights process →
    ∃ r ∈ w.runs.rows, r.process = process ∧ r.held.path = some p

variable {digest} {w w' : LockWorld} {r r' : LockRun}

/-- What is known of a thread depends on the directory and the set of its process only. -/
theorem LockRun.Kept.congr
    (h : r.Kept digest w) (hdir : w'.dir = w.dir) (hfresh : w'.fresh = w.fresh)
    (hflights : w'.flights r.process = w.flights r.process) :
  r.Kept digest w'
  where
    ok := h.ok
    journal := h.journal
    flight := h.flight
    present := by
      rw [hdir]
      exact h.present
    gone := by
      rw [hdir]
      exact h.gone
    bound := by
      rw [hfresh]
      exact h.bound
    listed := by
      rw [hflights]
      exact h.listed

/-- A step that changes one thread. -/
theorem LockWorld.Kept.replace
    (hw : w.Kept digest) (hid : r'.id = r.id) (hruns : w'.runs = w.runs.upsert r')
    (hkept : r'.Kept digest w') (hapart : ∀ s ∈ w.runs.rows, s.id ≠ r.id → r'.Apart s)
    (hothers : ∀ s ∈ w.runs.rows, s.id ≠ r.id → s.Kept digest w')
    (hbound : ∀ name n, w'.dir name = some n → n < w'.fresh)
    (hinj : ∀ name other n, w'.dir name = some n → w'.dir other = some n → name = other)
    (hnamed : ∀ process p, p ∈ w'.flights process →
      (r'.process = process ∧ r'.held.path = some p)
      ∨ ∃ s ∈ w.runs.rows, s.id ≠ r.id ∧ s.process = process ∧ s.held.path = some p) :
  w'.Kept digest
  where
    runs s hs := by
      rw [hruns] at hs
      rcases Table.mem_upsert.mp hs with rfl | ⟨hs, hne⟩
      · exact hkept
      · exact hothers s hs (hid ▸ hne)
    apart s hs t ht hne := by
      rw [hruns] at hs ht
      rcases Table.mem_upsert.mp hs with hs | ⟨hs, hsne⟩
      · rcases Table.mem_upsert.mp ht with ht | ⟨ht, htne⟩
        · exact absurd (congrArg LockRun.id (ht.trans hs.symm)) hne
        · exact hs ▸ hapart t ht (hid ▸ htne)
      · rcases Table.mem_upsert.mp ht with ht | ⟨ht, htne⟩
        · exact ht ▸ (hapart s hs (hid ▸ hsne)).symm
        · exact hw.apart s hs t ht hne
    bound := hbound
    inj := hinj
    named process p hp := by
      rcases hnamed process p hp with hr | ⟨s, hs, hne, hsp⟩
      · exact ⟨r', hruns ▸ Table.mem_upsert.mpr (.inl rfl), hr⟩
      · exact ⟨s, hruns ▸ Table.mem_upsert.mpr (.inr ⟨hs, hid.symm ▸ hne⟩), hsp⟩

/-- A thread holds no more than before. -/
structure Held.Le (h' h : Held) : Prop where
  lease : h'.lease = h.lease ∨ h'.lease = .none
  registered : h'.registered = true → h.registered = true
  guarded : h'.guarded = true → h.guarded = true
  path : ∀ p, h'.path = some p → h.path = some p

theorem Held.Le.refl (h : Held) : h.Le h :=
  ⟨.inl rfl, fun hr => hr, fun hg => hg, fun _ hp => hp⟩

/-- A thread that holds no more stays apart from the others. -/
theorem LockRun.Apart.of_le
    {s : LockRun} (h : r.Apart s) (hprocess : r'.process = r.process)
    (hle : r'.held.Le r.held)
    (hlocked : r'.held.Locked → r.held.Locked ∧ r'.inode = r.inode) :
  r'.Apart s
  where
    alone hr := by
      rcases hle.lease with hl | hl
      · exact h.alone (hl ▸ hr)
      · cases hl.symm.trans hr
    alone' hs := by
      rcases hle.lease with hl | hl
      · exact hl.trans (h.alone' hs)
      · exact hl
    registered hr := h.registered (hle.registered hr)
    guarded hp hr := h.guarded (hprocess ▸ hp) (hle.guarded hr)
    path hp p hr := h.path (hprocess ▸ hp) p (hle.path p hr)
    locked hr hs := by
      obtain ⟨hr, hinode⟩ := hlocked hr
      rw [hinode]
      exact h.locked hr hs

theorem LockWorld.other_eq_false {p : LockRun → Bool} (h : w.other r p = false) :
  ∀ s ∈ w.runs.rows, s.id ≠ r.id → p s = false
  := by
  intro s hs hne
  have hno := List.any_eq_false.mp h s hs
  rw [Bool.and_eq_true, decide_eq_true_eq, not_and] at hno
  exact Bool.eq_false_iff.mpr (hno hne)

/-! ### What an instruction does -/

section Instructions

variable {i : Instr} {next : Answer → Prog} {given a : Answer} {n : Nat}

/-- An instruction that leaves the directory and the set, and the thread with its file and path
or without the file. -/
theorem LockWorld.Kept.same
    (hw : w.Kept digest) (hr : r ∈ w.runs.rows) (hprog : r.prog = .act i next)
    (hdir : w'.dir = w.dir) (hfresh : w'.fresh = w.fresh) (hflights : w'.flights = w.flights)
    (hruns : w'.runs = w.runs.upsert (r.next i next r.inode a))
    (hfile : (i.after r.held a.ok).file = r.held.file ∨ (i.after r.held a.ok).file = none)
    (hpath : (i.after r.held a.ok).path = r.held.path)
    (hjournal : ∀ id, (i.after r.held a.ok).file = some (.journal id, .opened) →
      (i.after r.held a.ok).registered = true)
    (hflight : ∀ d st, (i.after r.held a.ok).file = some (.flight d, st) →
      (i.after r.held a.ok).lease ≠ .none)
    (hapart : ∀ s ∈ w.runs.rows, s.id ≠ r.id → (r.next i next r.inode a).Apart s) :
  w'.Kept digest
  := by
  have hkept := hw.runs r hr
  have hsame : ∀ f, (i.after r.held a.ok).file = some f → r.held.file = some f := by
    intro f hf
    rcases hfile with h | h
    · exact h ▸ hf
    · cases h.symm.trans hf
  refine hw.replace rfl hruns ?_ hapart ?_ ?_ ?_ ?_
  · have hok := hkept.ok
    rw [hprog] at hok
    refine ⟨hok.2 a, hjournal, hflight, ?_, ?_, ?_, ?_⟩
    · rw [hdir]
      exact fun name st hf => hkept.present name st (hsame _ hf)
    · rw [hdir]
      exact fun name hf => hkept.gone name (hsame _ hf)
    · rw [hfresh]
      exact fun name st hf => hkept.bound name st (hsame _ hf)
    · rw [hflights]
      exact fun p hp => hkept.listed p (hpath ▸ hp)
  · intro s hs _
    exact (hw.runs s hs).congr hdir hfresh (congrFun hflights _)
  · rw [hdir, hfresh]
    exact hw.bound
  · rw [hdir]
    exact hw.inj
  · intro process p hp
    rw [hflights] at hp
    obtain ⟨s, hs, hprocess, hsp⟩ := hw.named process p hp
    by_cases hid : s.id = r.id
    · left
      obtain rfl : s = r := w.runs.eq_of_key_eq hs hr hid
      exact ⟨hprocess, hpath.trans hsp⟩
    · exact .inr ⟨s, hs, hid, hprocess, hsp⟩

/-- An instruction that only answers. -/
theorem LockWorld.Kept.quiet
    (hw : w.Kept digest) (hr : r ∈ w.runs.rows) (hprog : r.prog = .act i next)
    (hdir : w'.dir = w.dir) (hfresh : w'.fresh = w.fresh) (hflights : w'.flights = w.flights)
    (hruns : w'.runs = w.runs.upsert (r.next i next r.inode a))
    (hheld : i.after r.held a.ok = r.held) :
  w'.Kept digest
  := by
  have hkept := hw.runs r hr
  refine hw.same hr hprog hdir hfresh hflights hruns (.inl (by rw [hheld])) (by rw [hheld]) ?_ ?_ ?_
  · rw [hheld]
    exact hkept.journal
  · rw [hheld]
    exact hkept.flight
  · intro s hs hne
    have hle : (r.next i next r.inode a).held.Le r.held := by
      rw [LockRun.next, hheld]
      exact .refl _
    refine (hw.apart r hr s hs hne).of_le rfl hle ?_
    intro hlocked
    rw [LockRun.next, hheld] at hlocked
    exact ⟨hlocked, rfl⟩

/-- An instruction after which the thread has opened a file that no other has locked. -/
theorem LockWorld.Kept.opens
    (hw : w.Kept digest) (hr : r ∈ w.runs.rows) (hprog : r.prog = .act i next)
    (hflights : w'.flights = w.flights)
    (hruns : w'.runs = w.runs.upsert (r.next i next n a)) {name : LockName}
    (hheld : i.after r.held a.ok = { r.held with file := some (name, .opened) })
    (hopen : r.held.mayOpen name) (hname : w'.dir name = some n) (hn : n < w'.fresh)
    (hfresh : w.fresh ≤ w'.fresh)
    (hdir : ∀ other m, w.dir other = some m → w'.dir other = some m)
    (hback : ∀ other m, w'.dir other = some m → m < w.fresh → w.dir other = some m)
    (hbound : ∀ other m, w'.dir other = some m → m < w'.fresh)
    (hinj : ∀ name other n, w'.dir name = some n → w'.dir other = some n → name = other) :
  w'.Kept digest
  := by
  have hkept := hw.runs r hr
  have hfile : (i.after r.held a.ok).file = some (name, .opened) := by rw [hheld]
  refine hw.replace rfl hruns ?_ ?_ ?_ hbound hinj ?_
  · have hok := hkept.ok
    rw [hprog] at hok
    refine ⟨hok.2 a, ?_, ?_, ?_, ?_, ?_, ?_⟩
    · intro id hf
      cases hfile.symm.trans hf
      have hregistered : r.held.registered = true := hopen
      rw [LockRun.next, hheld]
      exact hregistered
    · intro d st hf
      cases hfile.symm.trans hf
      have hlease : r.held.lease ≠ .none := hopen
      rw [LockRun.next, hheld]
      exact hlease
    · intro name' st hf _
      cases hfile.symm.trans hf
      exact hname
    · intro name' hf
      cases hfile.symm.trans hf
    · intro name' st hf
      exact hn
    · rw [hflights]
      intro p hp
      rw [LockRun.next, hheld] at hp
      exact hkept.listed p hp
  · intro s hs hne
    have hapart := hw.apart r hr s hs hne
    refine hapart.of_le rfl ?_ ?_
    · rw [LockRun.next, hheld]
      exact ⟨.inl rfl, fun h => h, fun h => h, fun _ h => h⟩
    · rintro ⟨name', st, hf, hst⟩
      cases hfile.symm.trans hf
      exact absurd rfl hst
  · intro s hs _
    have hskept := hw.runs s hs
    refine ⟨hskept.ok, hskept.journal, hskept.flight, ?_, ?_, ?_, ?_⟩
    · exact fun name' st hf hst => hdir name' _ (hskept.present name' st hf hst)
    · intro name' hf other hother
      exact hskept.gone name' hf other (hback other _ hother (hskept.bound name' _ hf))
    · exact fun name' st hf => Nat.lt_of_lt_of_le (hskept.bound name' st hf) hfresh
    · rw [hflights]
      exact hskept.listed
  · intro process p hp
    rw [hflights] at hp
    obtain ⟨s, hs, hprocess, hsp⟩ := hw.named process p hp
    by_cases hid : s.id = r.id
    · left
      obtain rfl : s = r := w.runs.eq_of_key_eq hs hr hid
      refine ⟨hprocess, ?_⟩
      rw [LockRun.next, hheld]
      exact hsp
    · exact .inr ⟨s, hs, hid, hprocess, hsp⟩

/-- The thread locks the file that it has open, where no other has it locked. -/
theorem LockWorld.Kept.locks
    (hw : w.Kept digest) (hr : r ∈ w.runs.rows) (hprog : r.prog = .act .tryLock next)
    (hok : a.ok = true)
    (hfree : ∀ s ∈ w.runs.rows, s.id ≠ r.id → ¬ (s.held.Locked ∧ s.inode = r.inode)) :
  LockWorld.Kept digest { w with runs := w.runs.upsert (r.next .tryLock next r.inode a) }
  := by
  have hkept := hw.runs r hr
  have hprogram := hkept.ok
  rw [hprog] at hprogram
  obtain ⟨name, hopened⟩ := hprogram.1
  have hheld : Instr.after r.held a.ok .tryLock
      = { r.held with file := some (name, .locked) } := by
    rw [hok, Instr.after, if_pos rfl, hopened]
    rfl
  have hfile : (Instr.after r.held a.ok .tryLock).file = some (name, .locked) := by rw [hheld]
  refine hw.replace rfl rfl ?_ ?_ ?_ hw.bound hw.inj ?_
  · refine ⟨hprogram.2 a, ?_, ?_, ?_, ?_, ?_, ?_⟩
    · intro id hf
      cases hfile.symm.trans hf
    · intro d st hf
      cases hfile.symm.trans hf
      rw [LockRun.next, hheld]
      exact hkept.flight d _ hopened
    · intro name' st hf _
      cases hfile.symm.trans hf
      exact hkept.present name _ hopened (by decide)
    · intro name' hf
      cases hfile.symm.trans hf
    · intro name' st hf
      exact hkept.bound name _ hopened
    · intro p hp
      rw [LockRun.next, hheld] at hp
      exact hkept.listed p hp
  · intro s hs hne
    have hapart := hw.apart r hr s hs hne
    rw [LockRun.next, hheld]
    exact
      { alone := hapart.alone
        alone' := hapart.alone'
        registered := hapart.registered
        guarded := hapart.guarded
        path := hapart.path
        locked := fun _ hlocked he => hfree s hs hne ⟨hlocked, he.symm⟩ }
  · intro s hs _
    exact (hw.runs s hs).congr rfl rfl rfl
  · intro process p hp
    obtain ⟨s, hs, hprocess, hsp⟩ := hw.named process p hp
    by_cases hid : s.id = r.id
    · left
      obtain rfl : s = r := w.runs.eq_of_key_eq hs hr hid
      refine ⟨hprocess, ?_⟩
      rw [LockRun.next, hheld]
      exact hsp
    · exact .inr ⟨s, hs, hid, hprocess, hsp⟩

/-- The file that a thread removes is one that no other thread has open. -/
theorem LockWorld.Kept.unused
    (hw : w.Kept digest) (hr : r ∈ w.runs.rows) {name : LockName}
    (hallowed : (Instr.unlink name).Allowed digest r.held) {s : LockRun} (hs : s ∈ w.runs.rows)
    (hne : s.id ≠ r.id) {st : FileState} (hst : st ≠ .unlinked) :
  s.held.file ≠ some (name, st)
  := by
  intro hf
  have hapart := hw.apart r hr s hs hne
  cases name with
  | journal id =>
      obtain ⟨hregistered, hfile⟩ := hallowed
      by_cases hopened : st = .opened
      · subst hopened
        cases (hapart.registered hregistered).symm.trans ((hw.runs s hs).journal id hf)
      · have hinode := (hw.runs s hs).present _ _ hf hst
        rw [(hw.runs r hr).present _ _ hfile (by decide)] at hinode
        exact hapart.locked ⟨_, _, hfile, by decide⟩ ⟨_, _, hf, hopened⟩ (Option.some.inj hinode)
  | flight d =>
      exact (hw.runs s hs).flight d st hf (hapart.alone hallowed.1)

/-- The thread removes a file: one that it has locked, or one that nobody has open. -/
theorem LockWorld.Kept.unlinks
    (hw : w.Kept digest) (hr : r ∈ w.runs.rows) {name : LockName}
    (hprog : r.prog = .act (.unlink name) next) (hok : a.ok = true) :
  LockWorld.Kept digest { w with
    dir := Function.update w.dir name none
    runs := w.runs.upsert (r.next (.unlink name) next r.inode a) }
  := by
  have hkept := hw.runs r hr
  have hprogram := hkept.ok
  rw [hprog] at hprogram
  have hheld : Instr.after r.held a.ok (.unlink name)
      = { r.held with file := r.held.file.map fun f => (f.1, .unlinked) } := by
    rw [hok, Instr.after, if_pos rfl]
  have hfile : ∀ f, (Instr.after r.held a.ok (.unlink name)).file = some f →
      f = (name, .unlinked) ∧ r.held.file = some (name, .locked) := by
    intro f hf
    rw [hheld] at hf
    obtain ⟨f', hf', rfl⟩ := Option.map_eq_some_iff.mp hf
    cases name with
    | journal id =>
        cases hprogram.1.2.symm.trans hf'
        exact ⟨rfl, hprogram.1.2⟩
    | flight d => cases hprogram.1.2.symm.trans hf'
  have hdir : ∀ other m, Function.update w.dir name none other = some m →
      w.dir other = some m ∧ other ≠ name := by
    intro other m hother
    by_cases hname : other = name
    · rw [hname, Function.update_self] at hother
      cases hother
    · rw [Function.update_of_ne hname] at hother
      exact ⟨hother, hname⟩
  refine hw.replace rfl rfl ?_ ?_ ?_ ?_ ?_ ?_
  · refine ⟨hprogram.2 a, ?_, ?_, ?_, ?_, ?_, ?_⟩
    · intro id hf
      cases (hfile _ hf).1
    · intro d st hf
      cases (hfile _ hf).1
      cases hprogram.1.2.symm.trans (hfile _ hf).2
    · intro name' st hf hst
      cases (hfile _ hf).1
      exact absurd rfl hst
    · intro name' hf other hother
      obtain ⟨hother, hne⟩ := hdir other _ hother
      exact hne (hw.inj _ _ _ hother (hkept.present _ _ (hfile _ hf).2 (by decide)))
    · intro name' st hf
      exact hkept.bound _ _ (hfile _ hf).2
    · intro p hp
      rw [LockRun.next, hheld] at hp
      exact hkept.listed p hp
  · intro s hs hne
    refine (hw.apart r hr s hs hne).of_le rfl ?_ ?_
    · rw [LockRun.next, hheld]
      exact ⟨.inl rfl, fun h => h, fun h => h, fun _ h => h⟩
    · rintro ⟨name', st, hf, hst⟩
      exact ⟨⟨name, .locked, (hfile _ hf).2, by decide⟩, rfl⟩
  · intro s hs hne
    have hskept := hw.runs s hs
    refine ⟨hskept.ok, hskept.journal, hskept.flight, ?_, ?_, hskept.bound, hskept.listed⟩
    · intro name' st hf hst
      have hname : name' ≠ name := by
        rintro rfl
        exact hw.unused hr hprogram.1 hs hne hst hf
      exact (Function.update_of_ne hname _ _).trans (hskept.present name' st hf hst)
    · intro name' hf other hother
      exact hskept.gone name' hf other (hdir other _ hother).1
  · intro name' m hname
    exact hw.bound name' m (hdir name' m hname).1
  · intro name' other m hname hother
    exact hw.inj name' other m (hdir name' m hname).1 (hdir other m hother).1
  · intro process p hp
    obtain ⟨s, hs, hprocess, hsp⟩ := hw.named process p hp
    by_cases hid : s.id = r.id
    · left
      obtain rfl : s = r := w.runs.eq_of_key_eq hs hr hid
      refine ⟨hprocess, ?_⟩
      rw [LockRun.next, hheld]
      exact hsp
    · exact .inr ⟨s, hs, hid, hprocess, hsp⟩

/-- An instruction that changes the set of the thread's process, by the thread's path. -/
theorem LockWorld.Kept.puts
    (hw : w.Kept digest) (hr : r ∈ w.runs.rows) (hprog : r.prog = .act i next)
    {q : Option String} {set : List String}
    (hheld : i.after r.held a.ok = { r.held with path := q })
    (hmine : ∀ p, q = some p → p ∈ set ∧ p ∉ w.flights r.process)
    (hset : ∀ p, p ∈ set → q = some p ∨ p ∈ w.flights r.process ∧ r.held.path ≠ some p)
    (hothers : ∀ p ∈ w.flights r.process, r.held.path ≠ some p → p ∈ set) :
  LockWorld.Kept digest { w with
    flights := Function.update w.flights r.process set
    runs := w.runs.upsert (r.next i next r.inode a) }
  := by
  have hkept := hw.runs r hr
  have hprogram := hkept.ok
  rw [hprog] at hprogram
  refine hw.replace rfl rfl ?_ ?_ ?_ hw.bound hw.inj ?_
  · refine ⟨hprogram.2 a, ?_, ?_, ?_, ?_, ?_, ?_⟩
    · rw [LockRun.next, hheld]
      exact hkept.journal
    · rw [LockRun.next, hheld]
      exact hkept.flight
    · rw [LockRun.next, hheld]
      exact hkept.present
    · rw [LockRun.next, hheld]
      exact hkept.gone
    · rw [LockRun.next, hheld]
      exact hkept.bound
    · intro p hp
      rw [LockRun.next, hheld] at hp
      refine (congrArg (p ∈ ·) (Function.update_self r.process set w.flights)).mpr ?_
      exact (hmine p hp).1
  · intro s hs hne
    have hapart := hw.apart r hr s hs hne
    rw [LockRun.next, hheld]
    exact
      { alone := hapart.alone
        alone' := hapart.alone'
        registered := hapart.registered
        guarded := hapart.guarded
        path := by
          intro hprocess p hp hsp
          have hlisted := (hw.runs s hs).listed p hsp
          rw [← show r.process = s.process from hprocess] at hlisted
          exact (hmine p hp).2 hlisted
        locked := hapart.locked }
  · intro s hs hne
    have hskept := hw.runs s hs
    refine ⟨hskept.ok, hskept.journal, hskept.flight, hskept.present, hskept.gone, hskept.bound, ?_⟩
    intro p hp
    have hlisted := hskept.listed p hp
    by_cases hprocess : s.process = r.process
    · rw [hprocess] at hlisted ⊢
      refine (congrArg (p ∈ ·) (Function.update_self r.process set w.flights)).mpr ?_
      exact hothers p hlisted fun hpath =>
        (hw.apart r hr s hs hne).path hprocess.symm p hpath hp
    · refine (congrArg (p ∈ ·) (Function.update_of_ne hprocess set w.flights)).mpr ?_
      exact hlisted
  · intro process p hp
    by_cases hprocess : process = r.process
    · subst hprocess
      have hp' : p ∈ set :=
        (congrArg (p ∈ ·) (Function.update_self r.process set w.flights)).mp hp
      rcases hset p hp' with hpath | ⟨hlisted, hpath⟩
      · left
        rw [LockRun.next, hheld]
        exact ⟨rfl, hpath⟩
      · obtain ⟨s, hs, hsprocess, hsp⟩ := hw.named _ p hlisted
        refine .inr ⟨s, hs, ?_, hsprocess, hsp⟩
        intro hid
        obtain rfl : s = r := w.runs.eq_of_key_eq hs hr hid
        exact hpath hsp
    · have hp' : p ∈ w.flights process :=
        (congrArg (p ∈ ·) (Function.update_of_ne hprocess set w.flights)).mp hp
      obtain ⟨s, hs, hsprocess, hsp⟩ := hw.named _ p hp'
      refine .inr ⟨s, hs, ?_, hsprocess, hsp⟩
      intro hid
      obtain rfl : s = r := w.runs.eq_of_key_eq hs hr hid
      exact hprocess hsprocess.symm

/-- Every instruction keeps the invariant. -/
theorem LockWorld.kept_exec
    (hw : w.Kept digest) (hr : r ∈ w.runs.rows) (hprog : r.prog = .act i next)
    (h : w.exec r given i = some (w', n, a)) :
  LockWorld.Kept digest { w' with runs := w.runs.upsert (r.next i next n a) }
  := by
  have hkept := hw.runs r hr
  have hprogram := hkept.ok
  rw [hprog] at hprogram
  have hallowed := hprogram.1
  cases i with
  | lease =>
      rw [exec] at h
      split at h
      · cases h
      · next hfree =>
          cases h
          cases hok : given.ok with
          | false => exact hw.quiet hr hprog rfl rfl rfl rfl (by simp [Instr.after])
          | true =>
              rw [hok, Bool.true_and, Bool.not_eq_true] at hfree
              refine hw.same hr hprog rfl rfl rfl rfl (.inl rfl) rfl hkept.journal
                (fun _ _ _ => by simp [Instr.after]) ?_
              intro s hs hne
              have hapart := hw.apart r hr s hs hne
              have hs' := of_decide_eq_false (other_eq_false hfree s hs hne)
              exact
                { alone := nofun
                  alone' := fun hs => absurd hs hs'
                  registered := hapart.registered
                  guarded := hapart.guarded
                  path := hapart.path
                  locked := hapart.locked }
  | exclusive =>
      cases h
      cases hok : (given.ok && !w.other r fun s => decide (s.held.lease ≠ .none)) with
      | false => exact hw.quiet hr hprog rfl rfl rfl rfl (by simp [Instr.after])
      | true =>
          rw [Bool.and_eq_true, Bool.not_eq_true'] at hok
          refine hw.same hr hprog rfl rfl rfl rfl (.inl rfl) rfl hkept.journal
            (fun _ _ _ => by simp [Instr.after]) ?_
          intro s hs hne
          have hapart := hw.apart r hr s hs hne
          have hs' := not_not.mp (of_decide_eq_false (other_eq_false hok.2 s hs hne))
          exact
            { alone := fun _ => hs'
              alone' := fun hs => by cases hs.symm.trans hs'
              registered := hapart.registered
              guarded := hapart.guarded
              path := hapart.path
              locked := hapart.locked }
  | release =>
      cases h
      refine hw.same hr hprog rfl rfl rfl rfl (.inl rfl) rfl hkept.journal ?_ ?_
      · intro d st hf
        exact absurd hf (hallowed d st)
      · intro s hs hne
        exact (hw.apart r hr s hs hne).of_le rfl
          ⟨.inr rfl, fun h => h, fun h => h, fun _ h => h⟩ fun h => ⟨h, rfl⟩
  | register =>
      rw [exec] at h
      split at h
      · cases h
      · next hfree =>
          cases h
          cases hok : given.ok with
          | false => exact hw.quiet hr hprog rfl rfl rfl rfl (by simp [Instr.after])
          | true =>
              rw [hok, Bool.true_and, Bool.not_eq_true] at hfree
              refine hw.same hr hprog rfl rfl rfl rfl (.inl rfl) rfl (fun _ _ => rfl)
                hkept.flight ?_
              intro s hs hne
              have hapart := hw.apart r hr s hs hne
              exact
                { alone := hapart.alone
                  alone' := hapart.alone'
                  registered := fun _ => other_eq_false hfree s hs hne
                  guarded := hapart.guarded
                  path := hapart.path
                  locked := hapart.locked }
  | unregister =>
      cases h
      refine hw.same hr hprog rfl rfl rfl rfl (.inl rfl) rfl ?_ hkept.flight ?_
      · intro id hf
        exact absurd hf (hallowed.2 id)
      · intro s hs hne
        exact (hw.apart r hr s hs hne).of_le rfl
          ⟨.inl rfl, nofun, fun h => h, fun _ h => h⟩ fun h => ⟨h, rfl⟩
  | guard =>
      rw [exec] at h
      split at h
      · cases h
      · next hfree =>
          cases h
          rw [Bool.not_eq_true] at hfree
          refine hw.same hr hprog rfl rfl rfl rfl (.inl rfl) rfl hkept.journal hkept.flight ?_
          intro s hs hne
          have hapart := hw.apart r hr s hs hne
          refine
            { alone := hapart.alone
              alone' := hapart.alone'
              registered := hapart.registered
              guarded := ?_
              path := hapart.path
              locked := hapart.locked }
          intro hprocess _
          have hs' := other_eq_false hfree s hs hne
          rw [decide_eq_true (show s.process = r.process from hprocess.symm), Bool.true_and] at hs'
          exact hs'
  | unguard =>
      cases h
      refine hw.same hr hprog rfl rfl rfl rfl (.inl rfl) rfl hkept.journal hkept.flight ?_
      intro s hs hne
      exact (hw.apart r hr s hs hne).of_le rfl
        ⟨.inl rfl, fun h => h, nofun, fun _ h => h⟩ fun h => ⟨h, rfl⟩
  | insert path =>
      rw [exec] at h
      split at h
      · cases h
        exact hw.quiet hr hprog rfl rfl rfl rfl rfl
      · next hnew =>
          cases h
          refine hw.puts hr hprog (q := some path) rfl ?_ ?_ ?_
          · intro p hp
            cases hp
            exact ⟨List.mem_cons_self, hnew⟩
          · intro p hp
            rcases List.mem_cons.mp hp with rfl | hp
            · exact .inl rfl
            · refine .inr ⟨hp, ?_⟩
              rw [hallowed.2]
              nofun
          · intro p hp _
            exact List.mem_cons_of_mem _ hp
  | remove path =>
      cases h
      refine hw.puts hr hprog (q := none) rfl nofun ?_ ?_
      · intro p hp
        obtain ⟨hp, hne⟩ := List.mem_filter.mp hp
        refine .inr ⟨hp, ?_⟩
        rw [hallowed.2]
        rintro he
        exact of_decide_eq_true hne (Option.some.inj he).symm
      · intro p hp hne
        refine List.mem_filter.mpr ⟨hp, decide_eq_true ?_⟩
        rintro rfl
        exact hne hallowed.2
  | create name =>
      rw [exec] at h
      split at h
      · split at h
        · next m hm =>
            cases h
            exact hw.opens hr hprog rfl rfl rfl hallowed.2 hm (hw.bound name _ hm) (Nat.le_refl _)
              (fun _ _ h => h) (fun _ _ h _ => h) hw.bound hw.inj
        · next hnone =>
            cases h
            have hold : ∀ other m, Function.update w.dir name (some w.fresh) other = some m →
                (other = name ∧ m = w.fresh) ∨ (other ≠ name ∧ w.dir other = some m) := by
              intro other m hother
              by_cases hname : other = name
              · rw [hname, Function.update_self] at hother
                exact .inl ⟨hname, (Option.some.inj hother).symm⟩
              · rw [Function.update_of_ne hname] at hother
                exact .inr ⟨hname, hother⟩
            refine hw.opens hr hprog rfl rfl rfl hallowed.2 (Function.update_self _ _ _)
              (Nat.lt_succ_self _) (Nat.le_succ _) ?_ ?_ ?_ ?_
            · intro other m hother
              refine (Function.update_of_ne ?_ _ _).trans hother
              rintro rfl
              cases hnone.symm.trans hother
            · intro other m hother hlt
              rcases hold other m hother with ⟨_, rfl⟩ | ⟨_, hother⟩
              · exact absurd hlt (Nat.lt_irrefl _)
              · exact hother
            · intro other m hother
              rcases hold other m hother with ⟨_, rfl⟩ | ⟨_, hother⟩
              · exact Nat.lt_succ_self _
              · exact Nat.lt_succ_of_lt (hw.bound other m hother)
            · intro x y m hx hy
              rcases hold x m hx with ⟨rfl, rfl⟩ | ⟨_, hx'⟩
              · rcases hold y _ hy with ⟨rfl, _⟩ | ⟨_, hy'⟩
                · rfl
                · exact absurd (hw.bound y _ hy') (Nat.lt_irrefl _)
              · rcases hold y m hy with ⟨rfl, rfl⟩ | ⟨_, hy'⟩
                · exact absurd (hw.bound x _ hx') (Nat.lt_irrefl _)
                · exact hw.inj x y m hx' hy'
      · cases h
        exact hw.quiet hr hprog rfl rfl rfl rfl rfl
  | openFile name =>
      rw [exec] at h
      split at h
      · next m hm =>
          split at h
          · cases h
            exact hw.opens hr hprog rfl rfl rfl hallowed.2 hm (hw.bound name _ hm) (Nat.le_refl _)
              (fun _ _ h => h) (fun _ _ h _ => h) hw.bound hw.inj
          · cases h
            exact hw.quiet hr hprog rfl rfl rfl rfl rfl
      · cases h
        exact hw.quiet hr hprog rfl rfl rfl rfl rfl
  | tryLock =>
      cases h
      cases hok : (given.ok
          && !w.other r fun s => decide (s.held.Locked ∧ s.inode = r.inode)) with
      | false => exact hw.quiet hr hprog rfl rfl rfl rfl (by simp [Instr.after])
      | true =>
          rw [Bool.and_eq_true, Bool.not_eq_true'] at hok
          refine hw.locks hr hprog rfl ?_
          intro s hs hne
          exact of_decide_eq_false (other_eq_false hok.2 s hs hne)
  | close =>
      cases h
      refine hw.same hr hprog rfl rfl rfl rfl (.inr rfl) rfl nofun nofun ?_
      intro s hs hne
      refine (hw.apart r hr s hs hne).of_le rfl
        ⟨.inl rfl, fun h => h, fun h => h, fun _ h => h⟩ ?_
      rintro ⟨_, _, hf, _⟩
      cases hf
  | unlink name =>
      rw [exec] at h
      split at h
      · cases h
        exact hw.unlinks hr hprog rfl
      · cases h
        exact hw.quiet hr hprog rfl rfl rfl rfl rfl
  | writeEntry id entry =>
      rw [exec] at h
      split at h
      · cases h
        exact hw.quiet hr hprog rfl rfl rfl rfl rfl
      · cases h
        exact hw.quiet hr hprog rfl rfl rfl rfl rfl
  | forget id =>
      rw [exec] at h
      split at h
      · cases h
        exact hw.quiet hr hprog rfl rfl rfl rfl rfl
      · cases h
        exact hw.quiet hr hprog rfl rfl rfl rfl rfl
  | expire id =>
      rw [exec] at h
      split at h
      · cases h
        exact hw.quiet hr hprog rfl rfl rfl rfl rfl
      · cases h
        exact hw.quiet hr hprog rfl rfl rfl rfl rfl
  | contains => cases h; exact hw.quiet hr hprog rfl rfl rfl rfl rfl
  | watched => cases h; exact hw.quiet hr hprog rfl rfl rfl rfl rfl
  | addWatched => cases h; exact hw.quiet hr hprog rfl rfl rfl rfl rfl
  | subWatched => cases h; exact hw.quiet hr hprog rfl rfl rfl rfl rfl
  | hasEntry => cases h; exact hw.quiet hr hprog rfl rfl rfl rfl rfl
  | readEntry => cases h; exact hw.quiet hr hprog rfl rfl rfl rfl rfl
  | listEntries => cases h; exact hw.quiet hr hprog rfl rfl rfl rfl rfl
  | listLocks => cases h; exact hw.quiet hr hprog rfl rfl rfl rfl rfl
  | listFlights => cases h; exact hw.quiet hr hprog rfl rfl rfl rfl rfl
  | now => cases h; exact hw.quiet hr hprog rfl rfl rfl rfl rfl
  | look => cases h; exact hw.quiet hr hprog rfl rfl rfl rfl rfl
  | hold => cases h; exact hw.quiet hr hprog rfl rfl rfl rfl rfl

end Instructions

/-! ### Runs -/

/-- The state before anything was begun. -/
structure LockWorld.Idle (w : LockWorld) : Prop where
  runs : w.runs.rows = []
  flights : ∀ process, w.flights process = []
  bound : ∀ name n, w.dir name = some n → n < w.fresh
  inj : ∀ name other n, w.dir name = some n → w.dir other = some n → name = other

theorem LockWorld.Idle.kept (h : w.Idle) : w.Kept digest := by
  refine ⟨?_, ?_, h.bound, h.inj, ?_⟩
  · rw [h.runs]
    intro r hr
    cases hr
  · rw [h.runs]
    intro r hr
    cases hr
  · intro process p hp
    rw [h.flights] at hp
    cases hp

/-- A thread goes away, and with it the threads that shared its path or all of its process. -/
theorem LockWorld.Kept.subset
    (hw : w.Kept digest) (hdir : w'.dir = w.dir) (hfresh : w'.fresh = w.fresh)
    (hruns : ∀ s ∈ w'.runs.rows, s ∈ w.runs.rows)
    (hflights : ∀ s ∈ w'.runs.rows, w'.flights s.process = w.flights s.process)
    (hnamed : ∀ process p, p ∈ w'.flights process → p ∈ w.flights process
      ∧ ∀ s ∈ w.runs.rows, s.process = process → s.held.path = some p → s ∈ w'.runs.rows) :
  w'.Kept digest
  where
    runs s hs := (hw.runs s (hruns s hs)).congr hdir hfresh (hflights s hs)
    apart s hs t ht := hw.apart s (hruns s hs) t (hruns t ht)
    bound := by
      rw [hdir, hfresh]
      exact hw.bound
    inj := by
      rw [hdir]
      exact hw.inj
    named process p hp := by
      obtain ⟨hp, hback⟩ := hnamed process p hp
      obtain ⟨s, hs, hprocess, hsp⟩ := hw.named process p hp
      exact ⟨s, hback s hs hprocess hsp, hprocess, hsp⟩

/-- Every step keeps the invariant, where every kind of program keeps the rules. -/
theorem LockWorld.kept_step
    {κ : Type} {prog : κ → Prog} (hprog : ∀ kind, (prog kind).Ok digest {}) {op : LockOp κ}
    (hw : w.Kept digest) (h : w.step prog op = some w') :
  w'.Kept digest
  := by
  cases op with
  | call id process kind =>
      obtain ⟨runs, hruns, rfl⟩ := Option.map_eq_some_iff.mp h
      obtain ⟨hnew, hrows⟩ := Table.insert?_eq_some.mp hruns
      have hmem : ∀ {s}, s ∈ runs.rows →
          s = ⟨id, process, prog kind, {}, 0⟩ ∨ s ∈ w.runs.rows := by
        intro s hs
        rw [hrows] at hs
        exact List.mem_cons.mp hs
      have hfirst : ∀ s : LockRun, LockRun.Apart ⟨id, process, prog kind, {}, 0⟩ s := fun s =>
        { alone := nofun
          alone' := fun _ => rfl
          registered := nofun
          guarded := nofun
          path := nofun
          locked := by
            rintro ⟨_, _, hf, _⟩
            cases hf }
      refine ⟨?_, ?_, hw.bound, hw.inj, ?_⟩
      · intro s hs
        rcases hmem hs with rfl | hs
        · exact ⟨hprog kind, nofun, nofun, nofun, nofun, nofun, nofun⟩
        · exact (hw.runs s hs).congr rfl rfl rfl
      · intro s hs t ht hne
        rcases hmem hs with rfl | hs
        · exact hfirst t
        · rcases hmem ht with rfl | ht
          · exact (hfirst s).symm
          · exact hw.apart s hs t ht hne
      · intro p path hpath
        obtain ⟨s, hs, hsp⟩ := hw.named p path hpath
        exact ⟨s, hrows ▸ List.mem_cons_of_mem _ hs, hsp⟩
  | advance id given =>
      obtain ⟨r, hr, hadvance⟩ := Option.bind_eq_some_iff.mp h
      have hmem := (Table.find?_eq_some.mp hr).1
      rw [advance] at hadvance
      split at hadvance
      · next hdone =>
          cases hadvance
          refine hw.subset rfl rfl (fun s hs => (Table.mem_erase.mp hs).1) (fun _ _ => rfl) ?_
          intro process p hp
          refine ⟨hp, fun s hs _ hsp => Table.mem_erase.mpr ⟨hs, ?_⟩⟩
          intro hid
          obtain rfl : s = r := w.runs.eq_of_key_eq hs hmem hid
          have hok := (hw.runs s hs).ok
          rw [hdone] at hok
          cases hsp.symm.trans hok
      · next i next hprogram =>
          obtain ⟨⟨w₁, n, a⟩, hexec, rfl⟩ := Option.map_eq_some_iff.mp hadvance
          exact kept_exec hw hmem hprogram hexec
  | crash process =>
      cases h
      refine hw.subset rfl rfl (fun s hs => (Table.mem_filter.mp hs).1) ?_ ?_
      · intro s hs
        exact Function.update_of_ne (Table.mem_filter.mp hs).2 _ _
      · intro p path hpath
        by_cases hp : p = process
        · subst hp
          have hnil := (congrArg (path ∈ ·) (Function.update_self p [] w.flights)).mp hpath
          cases hnil
        · have hold := (congrArg (path ∈ ·) (Function.update_of_ne hp [] w.flights)).mp hpath
          refine ⟨hold, fun s hs hsprocess _ => Table.mem_filter.mpr ⟨hs, ?_⟩⟩
          rw [hsprocess]
          exact hp

/-- In every run of programs that keep the rules the invariant holds. -/
theorem LockWorld.kept_run
    {κ : Type} {prog : κ → Prog} (hprog : ∀ kind, (prog kind).Ok digest {})
    {w₀ : LockWorld} {ops : List (LockOp κ)} (h₀ : w₀.Idle)
    (h : Runs.run (LockWorld.step prog) w₀ ops = some w) :
  w.Kept digest
  := Runs.run_invariant (fun _ _ _ => kept_step hprog) h₀.kept h

end Votport
