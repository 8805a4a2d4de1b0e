import Votport.Foundation.Runs
import Votport.Foundation.Table
import Mathlib.Logic.Function.Basic

/-!
# The lease of a storage root

A process that writes below a storage root holds a lock on a file of its control directory and has
its name in a record beside it.  Anybody may move these away or put others in their place: a
directory, a lock file and a record are what their names refer to at the moment.  A guard keeps
the directory and the lock file that it opened, and checks before it renews its record that these
are still the ones that the names refer to.

Acquiring, renewing and dropping a guard take several steps, each of which may fail, and the steps
of several guards are interleaved with each other and with what happens to the names.
-/

namespace Votport.Storage

/-! ### Files and guards -/

/-- The record of a lease. -/
structure Lease where
  holder : String
  acquiredAt : Nat
  renewedAt : Nat
deriving DecidableEq, Repr

/-- What a guard writes its record for. -/
inductive LeaseJob
  | acquire
  | renew (now : Nat)
deriving DecidableEq, Repr

/-- The step that a guard is about to do.  The steps from `checkDirectory` to `syncParent` are the
ones of acquiring and of renewing, with `readRecord` of renewing only; the ones from `openRecord`
to `unlock` are the ones of dropping. -/
inductive GuardPhase
  | openDirectory
  | openLock
  | flock
  | checkDirectory (job : LeaseJob)
  | checkLock (job : LeaseJob)
  | writeLock (job : LeaseJob)
  | syncLock (job : LeaseJob)
  | readRecord (now : Nat)
  | writeRecord (job : LeaseJob)
  | replaceRecord (job : LeaseJob) (temporary : Nat)
  | syncParent (job : LeaseJob)
  | live
  | openRecord
  | readOwned (file : Nat)
  | removeOwned (file : Nat)
  | unlock
  | closed
deriving DecidableEq, Repr

/-- A guard: its own open file of the lock, which children may have inherited, the directory and
the file that it opened, and its record in memory.  The code does not keep the last two: how often
the names had been replaced when it checked its directory, and whether the job that it does, or
did last, has put its record in place. -/
structure Guard where
  id : Nat
  process : Nat
  directory : Nat
  lock : Nat
  locked : Bool
  record : Lease
  children : Nat
  phase : GuardPhase
  seen : Nat
  placed : Bool
deriving DecidableEq, Repr

/-- What the names of the control directory, of the lock file and of the record of a directory
refer to, the content of the files that are records, the number of the next file, and how often
the directory or a lock file was replaced. -/
structure LeaseFiles where
  visible : Option Nat
  lockName : Nat → Option Nat
  recordName : Nat → Option Nat
  content : Nat → Option Lease
  fresh : Nat
  replaced : Nat

/-- The files, and the guards of all processes. -/
structure LeaseWorld where
  files : LeaseFiles
  guards : Table Guard.id

/-! ### The steps of a guard -/

/-- The record that a job writes. -/
def Guard.next (g : Guard) : LeaseJob → Lease
  | .acquire => g.record
  | .renew now => { g.record with renewedAt := now }

/-- A job fails: a guard that is being acquired is dropped. -/
def Guard.fail (g : Guard) : LeaseJob → Guard
  | .acquire => { g with phase := .openRecord }
  | .renew _ => { g with phase := .live }

/-- The record of a directory names the holder. -/
def LeaseFiles.names (files : LeaseFiles) (file : Option Nat) (holder : String) : Bool :=
  match file.bind files.content with
  | some lease => decide (lease.holder = holder)
  | none => false

/-- Does one step of a guard.  The call of the step succeeds or not; `free` tells whether no other
open file has the lock of the guard's file. -/
def Guard.go (files : LeaseFiles) (free : Bool) (g : Guard) (ok : Bool) :
    Option (LeaseFiles × Guard) :=
  match g.phase with
  | .openDirectory =>
      if ok then
        match files.visible with
        | some d => some (files, { g with directory := d, phase := .openLock })
        | none =>
            some ({ files with visible := some files.fresh, fresh := files.fresh + 1 },
              { g with directory := files.fresh, phase := .openLock })
      else some (files, { g with phase := .closed })
  | .openLock =>
      if ok then
        match files.lockName g.directory with
        | some n => some (files, { g with lock := n, phase := .flock })
        | none =>
            some ({ files with
                lockName := Function.update files.lockName g.directory (some files.fresh)
                fresh := files.fresh + 1 },
              { g with lock := files.fresh, phase := .flock })
      else some (files, { g with phase := .closed })
  | .flock =>
      if ok && free then some (files, { g with locked := true, phase := .checkDirectory .acquire })
      else some (files, { g with phase := .closed })
  | .checkDirectory job =>
      if ok && decide (files.visible = some g.directory) then
        some (files, { g with phase := .checkLock job, seen := files.replaced })
      else some (files, g.fail job)
  | .checkLock job =>
      if ok && decide (files.lockName g.directory = some g.lock) then
        some (files, { g with phase := .writeLock job })
      else some (files, g.fail job)
  | .writeLock job =>
      if ok then
        some ({ files with content := Function.update files.content g.lock none },
          { g with phase := .syncLock job })
      else some (files, g.fail job)
  | .syncLock job =>
      if ok then
        match job with
        | .acquire => some (files, { g with phase := .writeRecord .acquire })
        | .renew now => some (files, { g with phase := .readRecord now })
      else some (files, g.fail job)
  | .readRecord now =>
      if ok && files.names (files.recordName g.directory) g.record.holder then
        some (files, { g with phase := .writeRecord (.renew now) })
      else some (files, { g with phase := .live })
  | .writeRecord job =>
      if ok then
        some ({ files with
            content := Function.update files.content files.fresh (some (g.next job))
            fresh := files.fresh + 1 },
          { g with phase := .replaceRecord job files.fresh })
      else some (files, g.fail job)
  | .replaceRecord job temporary =>
      if ok then
        some ({ files with
            recordName := Function.update files.recordName g.directory (some temporary) },
          { g with phase := .syncParent job, placed := true })
      else some (files, g.fail job)
  | .syncParent job =>
      if ok then some (files, { g with record := g.next job, phase := .live })
      else some (files, g.fail job)
  | .live => none
  | .openRecord =>
      match files.recordName g.directory with
      | some file =>
          if ok then some (files, { g with phase := .readOwned file })
          else some (files, { g with phase := .unlock })
      | none => some (files, { g with phase := .unlock })
  | .readOwned file =>
      if ok && files.names (some file) g.record.holder then
        some (files, { g with phase := .removeOwned file })
      else some (files, { g with phase := .unlock })
  | .removeOwned file =>
      if ok && decide (files.recordName g.directory = some file) then
        some ({ files with recordName := Function.update files.recordName g.directory none },
          { g with phase := .unlock })
      else some (files, { g with phase := .unlock })
  | .unlock =>
      -- The error of the call is discarded.  The file is closed all the same, but a child that has
      -- it open then keeps the lock.
      some (files, { g with
        locked := g.locked && !ok && decide (g.children ≠ 0), phase := .closed })
  | .closed => none

/-! ### All guards -/

/-- What happens: a guard is acquired, renewed or dropped, and goes on step by step; a process
ends, a child inherits the open file of a lock or ends; names are replaced, and files made. -/
inductive LeaseOp
  | acquire (id process : Nat) (holder : String) (now : Nat)
  | renew (id now : Nat)
  | drop (id : Nat)
  | advance (id : Nat) (ok : Bool)
  | crash (process : Nat)
  | inherit (id : Nat)
  | childExit (id : Nat)
  | create (content : Option Lease)
  | setVisible (directory : Option Nat)
  | setLock (directory : Nat) (file : Option Nat)
  | setRecord (directory : Nat) (file : Option Nat)
deriving DecidableEq, Repr

/-- A guard whose acquiring begins. -/
def Guard.begin (id process : Nat) (holder : String) (now : Nat) : Guard where
  id := id
  process := process
  directory := 0
  lock := 0
  locked := false
  record := { holder, acquiredAt := now, renewedAt := now }
  children := 0
  phase := .openDirectory
  seen := 0
  placed := false

/-- The process of a guard ends: the kernel gives up the lock unless a child has the file open. -/
def Guard.crash (g : Guard) : Guard :=
  { g with phase := .closed, locked := g.locked && decide (g.children ≠ 0) }

/-- A child that has the file open ends: the kernel gives up the lock when it was the last. -/
def Guard.childExit (g : Guard) : Guard :=
  { g with
    children := g.children - 1
    locked := g.locked && !(decide (g.phase = .closed) && decide (g.children ≤ 1)) }

/-- No other open file has the lock of the guard's file. -/
def LeaseWorld.free (w : LeaseWorld) (g : Guard) : Bool :=
  w.guards.rows.all fun h => decide (h.id = g.id) || !(h.locked && decide (h.lock = g.lock))

/-- Changes one guard. -/
def LeaseWorld.put (w : LeaseWorld) (g : Guard) : LeaseWorld :=
  { w with guards := w.guards.upsert g }

/-- One step. -/
def LeaseWorld.step (w : LeaseWorld) : LeaseOp → Option LeaseWorld
  | .acquire id process holder now =>
      (w.guards.insert? (.begin id process holder now)).map fun guards => { w with guards }
  | .renew id now =>
      (w.guards.find? id).bind fun g =>
        if g.phase = .live then
          some (w.put { g with phase := .checkDirectory (.renew now), placed := false })
        else none
  | .drop id =>
      (w.guards.find? id).bind fun g =>
        if g.phase = .live then some (w.put { g with phase := .openRecord }) else none
  | .advance id ok =>
      (w.guards.find? id).bind fun g =>
        (g.go w.files (w.free g) ok).map fun result =>
          { files := result.1, guards := w.guards.upsert result.2 }
  | .crash process =>
      some { w with
        guards := w.guards.map (fun g => if g.process = process then g.crash else g)
          (fun g => by split <;> rfl) }
  | .inherit id =>
      (w.guards.find? id).bind fun g =>
        if g.phase = .closed then none else some (w.put { g with children := g.children + 1 })
  | .childExit id =>
      (w.guards.find? id).bind fun g =>
        if g.children = 0 then none else some (w.put g.childExit)
  | .create content =>
      some { w with files := { w.files with
        content := Function.update w.files.content w.files.fresh content
        fresh := w.files.fresh + 1 } }
  | .setVisible directory =>
      if directory.all fun d => decide (d < w.files.fresh) then
        some { w with files := { w.files with
          visible := directory, replaced := w.files.replaced + 1 } }
      else none
  | .setLock directory file =>
      if directory < w.files.fresh ∧ file.all fun n => decide (n < w.files.fresh) then
        some { w with files := { w.files with
          lockName := Function.update w.files.lockName directory file
          replaced := w.files.replaced + 1 } }
      else none
  | .setRecord directory file =>
      if file.all fun n => decide (n < w.files.fresh) then
        some { w with files := { w.files with
          recordName := Function.update w.files.recordName directory file } }
      else none

end Votport.Storage
