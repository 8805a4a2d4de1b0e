import Votport.Foundation.Runs
import Votport.Foundation.Table

/-!
# The stored session of the home port

The client keeps one session in a file, for all of its processes.  Whoever signs in or out, or
asks the server about the session, reads the file, talks to the server, and then replaces what is
stored if it is still what was read.  Signing in has a lease on the state meanwhile, which keeps
everything from being forgotten; a sign-in in the browser has one from its start to its end.

The model runs any number of such operations step by step.  Beside the state of the code it keeps
which cookies the server has given out and which of them are stored no more, and for every
operation whether another sign-in or sign-out has changed what is stored, and whether everything
was forgotten, since it began.
-/

namespace Votport

/-- The stored session. -/
structure Stored where
  base : String
  cookie : String
  tenant : String
  role : String
deriving DecidableEq, Repr

/-- Replaces what is stored if it is as expected. -/
def replaceStored (file expected replacement : Option Stored) : Bool × Option Stored :=
  if file = expected then (true, replacement) else (false, file)

/-- An operation on the session. -/
inductive PortCall
  | signIn (base : String)
  | beginSso (base : String) (login : Nat)
  | complete (login : Nat)
  | check
  | signOut
  | run
deriving DecidableEq, Repr

/-- How an operation ended; `changed` is the refusal because the account changed. -/
inductive PortResult
  | finished
  | changed
  | failed
deriving DecidableEq, Repr

/-- The step that an operation is about to do. -/
inductive PortPhase
  | lease
  | read
  | network
  | store (session : Stored)
  | session
  | fill (session : Stored)
  | remove
  | done (result : PortResult)
deriving DecidableEq, Repr

/-- What the server answers, or how a call to the system ends. -/
inductive PortAnswer
  | done
  | failed
  | unauthorized
  | cookie (cookie : String)
  | session (tenant role : String)
  | exchange (cookie tenant role : String)
deriving DecidableEq, Repr

/-- An operation with what it read.  The last two are not in the code. -/
structure PortRun where
  id : Nat
  call : PortCall
  phase : PortPhase
  read : Option Stored
  intervened : Bool
  forgotten : Bool
deriving DecidableEq, Repr

/-- A sign-in in the browser: the session that was stored when it began.  It has a lease on the
state while it is active.  The last is not in the code. -/
structure SsoLogin where
  id : Nat
  base : String
  previous : Option Stored
  active : Bool
  expired : Bool
  forgotten : Bool
deriving DecidableEq, Repr

/-- The file, whether everything is being forgotten, the operations and the sign-ins in the
browser; and the cookies that the server gave out and the ones that are stored no more. -/
structure PortWorld where
  file : Option Stored
  forgetting : Bool
  runs : Table PortRun.id
  logins : Table SsoLogin.id
  issued : List String
  gone : List String

/-! ### The steps of an operation -/

/-- The operation changes the account when it changes what is stored. -/
def PortCall.account : PortCall → Bool
  | .signIn _ | .complete _ | .signOut => true
  | _ => false

/-- The operation has a lease on the state from its first step to its last. -/
def PortCall.leases : PortCall → Bool
  | .signIn _ | .beginSso _ _ | .complete _ => true
  | _ => false

/-- The operation goes to a phase. -/
def PortRun.goes (t : PortRun) (phase : PortPhase) : PortRun := { t with phase := phase }

namespace PortWorld

/-- The steps of signing in with a password. -/
def signIn (w : PortWorld) (t : PortRun) (base : String) (answer : PortAnswer) :
    Option (PortWorld × PortRun) :=
  match t.phase with
  | .lease =>
      if w.forgetting then none
      else if answer = .failed then some (w, t.goes (.done .failed))
      else some (w, t.goes .read)
  | .read => some (w, { t with phase := .network, read := w.file, intervened := false })
  | .network =>
      match answer with
      | .cookie cookie =>
          if cookie ∈ w.issued then none
          else
            some ({ w with issued := cookie :: w.issued },
              t.goes (.store { base, cookie, tenant := "", role := "" }))
      | _ => some (w, t.goes (.done .failed))
  | .store stored =>
      if w.forgetting then none
      else if answer = .failed then some (w, t.goes (.done .failed))
      else if (replaceStored w.file t.read (some stored)).1 then
        some ({ w with file := (replaceStored w.file t.read (some stored)).2 },
          { t with phase := .session, read := some stored, intervened := false })
      else some (w, t.goes (.done .changed))
  | .session =>
      match answer with
      | .session tenant role =>
          match t.read with
          | some stored => some (w, t.goes (.fill { stored with tenant, role }))
          | none => none
      | _ => some (w, t.goes (.done .failed))
  | .fill stored =>
      if w.forgetting then none
      else if answer = .failed then some (w, t.goes (.done .failed))
      else if (replaceStored w.file t.read (some stored)).1 then
        some ({ w with file := (replaceStored w.file t.read (some stored)).2 },
          t.goes (.done .finished))
      else some (w, t.goes (.done .changed))
  | .remove | .done _ => none

/-- The steps of beginning to sign in in the browser. -/
def beginSso (w : PortWorld) (t : PortRun) (base : String) (login : Nat) (answer : PortAnswer) :
    Option (PortWorld × PortRun) :=
  match t.phase with
  | .lease =>
      if w.forgetting then none
      else if answer = .failed then some (w, t.goes (.done .failed))
      else some (w, t.goes .read)
  | .read => some (w, { t with phase := .network, read := w.file, intervened := false })
  | .network =>
      if answer = .done then
        (w.logins.insert? ⟨login, base, t.read, true, false, false⟩).map fun logins =>
          ({ w with logins }, t.goes (.done .finished))
      else some (w, t.goes (.done .failed))
  | _ => none

/-- The steps of completing a sign-in in the browser. -/
def complete (w : PortWorld) (t : PortRun) (login : Nat) (answer : PortAnswer) :
    Option (PortWorld × PortRun) :=
  match w.logins.find? login with
  | none => none
  | some l =>
      match t.phase with
      | .lease =>
          if w.forgetting then none
          else if answer = .failed || l.expired || !l.active then
            some (w, t.goes (.done .failed))
          else some (w, { t with phase := .network, read := l.previous, intervened := false })
      | .network =>
          match answer with
          | .exchange cookie tenant role =>
              if cookie ∈ w.issued then none
              else
                some ({ w with issued := cookie :: w.issued },
                  t.goes (.store { base := l.base, cookie, tenant, role }))
          | _ => some (w, t.goes (.done .failed))
      | .store stored =>
          if w.forgetting then none
          else if answer = .failed || l.expired || !l.active then
            some (w, t.goes (.done .failed))
          else if (replaceStored w.file t.read (some stored)).1 then
            some ({ w with
                file := (replaceStored w.file t.read (some stored)).2
                logins := w.logins.upsert { l with active := false } },
              t.goes (.done .finished))
          else some (w, t.goes (.done .changed))
      | _ => none

/-- The steps of checking the session. -/
def check (w : PortWorld) (t : PortRun) (answer : PortAnswer) : Option (PortWorld × PortRun) :=
  match t.phase with
  | .read =>
      match w.file with
      | none => some (w, { t with phase := .done .finished, read := none, intervened := false })
      | some stored =>
          some (w, { t with phase := .network, read := some stored, intervened := false })
  | .network =>
      match answer with
      | .session tenant role =>
          match t.read with
          | some stored => some (w, t.goes (.fill { stored with tenant, role }))
          | none => none
      | .unauthorized => some (w, t.goes .remove)
      | _ => some (w, t.goes (.done .failed))
  | .fill stored =>
      if w.forgetting then none
      else if answer = .failed then some (w, t.goes (.done .failed))
      else
        some ({ w with file := (replaceStored w.file t.read (some stored)).2 },
          t.goes (.done .finished))
  | .remove =>
      if w.forgetting then none
      else if answer = .failed then some (w, t.goes (.done .failed))
      else
        some ({ w with file := (replaceStored w.file t.read none).2 }, t.goes (.done .finished))
  | _ => none

/-- The steps of signing out. -/
def signOut (w : PortWorld) (t : PortRun) (answer : PortAnswer) : Option (PortWorld × PortRun) :=
  match t.phase with
  | .read =>
      match w.file with
      | none => some (w, { t with phase := .done .finished, read := none, intervened := false })
      | some stored =>
          some (w, { t with phase := .remove, read := some stored, intervened := false })
  | .remove =>
      if w.forgetting then none
      -- a failure to replace what is stored is ignored
      else if answer = .failed then some (w, t.goes (.done .finished))
      else
        some ({ w with file := (replaceStored w.file t.read none).2 }, t.goes (.done .finished))
  | _ => none

/-- The steps of another call to the server. -/
def runCall (w : PortWorld) (t : PortRun) (answer : PortAnswer) : Option (PortWorld × PortRun) :=
  match t.phase with
  | .read =>
      match w.file with
      | none => some (w, { t with phase := .done .failed, read := none, intervened := false })
      | some stored =>
          some (w, { t with phase := .network, read := some stored, intervened := false })
  | .network =>
      if answer = .unauthorized then some (w, t.goes .remove)
      else some (w, t.goes (.done .finished))
  | .remove =>
      if w.forgetting then none
      else if answer = .failed then some (w, t.goes (.done .failed))
      else
        some ({ w with file := (replaceStored w.file t.read none).2 }, t.goes (.done .failed))
  | _ => none

/-- One step of an operation. -/
def go (w : PortWorld) (t : PortRun) (answer : PortAnswer) : Option (PortWorld × PortRun) :=
  match t.call with
  | .signIn base => w.signIn t base answer
  | .beginSso base login => w.beginSso t base login answer
  | .complete login => w.complete t login answer
  | .check => w.check t answer
  | .signOut => w.signOut t answer
  | .run => w.runCall t answer

end PortWorld

/-! ### All operations -/

/-- The phase in which an operation begins. -/
def PortCall.first (call : PortCall) : PortPhase := if call.leases then .lease else .read

/-- What happens: an operation is called or goes on, a sign-in in the browser is cancelled or
expires, and everything is forgotten, in three steps. -/
inductive PortOp
  | call (id : Nat) (call : PortCall)
  | advance (id : Nat) (answer : PortAnswer)
  | cancel (login : Nat)
  | timeout (login : Nat)
  | forgetBegin
  | forgetRemove
  | forgetEnd
deriving DecidableEq, Repr

/-- The operation has a lease on the state. -/
def PortRun.leased (t : PortRun) : Bool :=
  t.call.leases && match t.phase with
    | .lease | .done _ => false
    | _ => true

/-- The cookies that are stored no more, when something else is stored. -/
def PortWorld.goneWith (w : PortWorld) (file : Option Stored) : List String :=
  match w.file with
  | none => w.gone
  | some stored =>
      if file.map Stored.cookie = some stored.cookie then w.gone else stored.cookie :: w.gone

/-- What the other operations see of a change. -/
def PortRun.sees (changed : Bool) (t : PortRun) : PortRun :=
  { t with intervened := t.intervened || changed }

/-- The state after a step of an operation, with the history. -/
def PortWorld.after (w : PortWorld) (t : PortRun) (result : PortWorld × PortRun) : PortWorld :=
  { result.1 with
    gone := w.goneWith result.1.file
    runs := (w.runs.map
      (PortRun.sees (t.call.account && decide (result.1.file ≠ w.file))) fun _ => rfl).upsert
        result.2 }

/-- One step. -/
def PortWorld.step (w : PortWorld) : PortOp → Option PortWorld
  | .call id call =>
      (w.runs.insert? ⟨id, call, call.first, none, false, false⟩).map fun runs => { w with runs }
  | .advance id answer =>
      (w.runs.find? id).bind fun t => (w.go t answer).map (w.after t)
  | .cancel login =>
      (w.logins.find? login).map fun l =>
        { w with logins := w.logins.upsert { l with active := false } }
  | .timeout login =>
      (w.logins.find? login).map fun l =>
        { w with logins := w.logins.upsert { l with expired := true } }
  | .forgetBegin =>
      if w.forgetting || w.runs.rows.any PortRun.leased || w.logins.rows.any SsoLogin.active then
        none
      else some { w with forgetting := true }
  | .forgetRemove =>
      if w.forgetting then
        some { w with
          file := none
          gone := w.goneWith none
          runs := w.runs.map (fun t => { t with forgotten := true }) fun _ => rfl
          logins := w.logins.map (fun l => { l with forgotten := true }) fun _ => rfl }
      else none
  | .forgetEnd => if w.forgetting then some { w with forgetting := false } else none

end Votport
