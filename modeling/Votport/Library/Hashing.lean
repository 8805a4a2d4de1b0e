import Mathlib.Logic.Function.Basic
import Votport.Foundation.Runs
import Votport.Library.RootCache
import Votport.Protocol.Routes

/-!
# Hashing files of a library

A call looks at a file, then for its root in the cache, and otherwise reads the file and looks at it
again before the root is put in.  Calls, the writing of the cache and the end of the process come in
any order.  What the files are is given for every moment; what is read of a file that changes is
anything.

Beside the state of the process the model keeps a history, which the code does not have: what was
put in, what was written, and how much was put in since.
-/

namespace Votport.Library

/-- A path, by its bytes. -/
abbrev LibraryPath := List UInt8

/-- A file as it is found at a path. -/
structure FileView where
  regular : Bool
  mtimeNanos : ℕ
  change : Option (ℕ × ℕ × ℤ × ℤ)
  content : List UInt8
deriving DecidableEq

/-- The stamp of a file. -/
def FileView.stamp (view : FileView) : FileStamp :=
  ⟨view.content.length, view.mtimeNanos, view.change⟩

/-- The files at every moment. -/
abbrev FileHistory := ℕ → LibraryPath → Option FileView

/-- The suites of hashes. -/
inductive Suite
  | blake3
  | sha256
deriving DecidableEq, Repr

/-- `ObjectId`. -/
structure ObjectId where
  suite : Suite
  root : {root : List UInt8 // root.length = 32}
  length : ℕ
deriving DecidableEq

/-- How a path is displayed, how bytes are hashed, and the length of the longest object. -/
structure HashEnv where
  display : LibraryPath → PathText
  hash : Suite → List UInt8 → {root : List UInt8 // root.length = 32}
  maxObjectLength : ℕ

/-- The object of some bytes. -/
def HashEnv.objectOf (env : HashEnv) (suite : Suite) (content : List UInt8) : ObjectId :=
  ⟨suite, env.hash suite content, content.length⟩

/-- A call of `hash_library_file`. -/
structure HashCall where
  tenant : List Char
  path : LibraryPath
  max : ℕ
  expected : Option ObjectId
deriving DecidableEq

/-- The suite that a call hashes with. -/
def HashCall.suite (call : HashCall) : Suite :=
  if call.expected.isNone = true then .blake3 else .sha256

/-- `valid_preparation_length`. -/
def HashCall.validLength (call : HashCall) (env : HashEnv) (length : ℕ) : Bool :=
  decide (call.max ≤ env.maxObjectLength ∧ length ≤ call.max)
    && call.expected.all fun expected => decide (expected.length = length)

/-- How far a call has come.  The times are when it began, when it first looked at the file, and
when it began and ended to read. -/
inductive HashPhase
  | idle
  | called (call : HashCall) (began : ℕ)
  | looked (call : HashCall) (began seen : ℕ) (stamp : FileStamp)
  | missed (call : HashCall) (began seen : ℕ) (stamp : FileStamp)
  | reading (call : HashCall) (began seen : ℕ) (stamp : FileStamp) (opened : ℕ)
  | hashed (call : HashCall) (began seen : ℕ) (stamp : FileStamp) (opened closed : ℕ)
      (object : ObjectId)
  | checked (call : HashCall) (began seen : ℕ) (stamp : FileStamp) (object : ObjectId)
  | returned (call : HashCall) (began seen : ℕ) (object : ObjectId)
  | failed (call : HashCall)
deriving DecidableEq

/-- A writing of the cache: the entries and the generation that were taken, how many entries were
put in since, and whether the file is in place. -/
structure Persisting where
  snapshot : List RootCacheEntry
  generation : UInt64
  since : ℕ
  written : Bool

/-- A root that was put in. -/
structure PutIn where
  tenant : List Char
  path : LibraryPath
  stamp : FileStamp
  object : ObjectId
  seen : ℕ

/-- The process, with its history. -/
structure LibraryState where
  time : ℕ
  clock : ℕ
  cache : RootCacheState
  sidecar : Sidecar
  persisting : Option Persisting
  calls : ℕ → HashPhase
  /-- The roots that were put in. -/
  putIn : List PutIn
  /-- The documents that were written. -/
  documents : List (List RootCacheEntry)
  /-- How much was put in since the entries of the file were taken, when this process wrote it. -/
  saved : Option ℕ

/-- A process that starts beside a file. -/
def LibraryState.start (sidecar : Sidecar) : LibraryState where
  time := 0
  clock := 0
  cache := .new
  sidecar := sidecar
  persisting := none
  calls := fun _ => .idle
  putIn := []
  documents := []
  saved := none

/-- What happens. -/
inductive LibraryEvent
  | call (id : ℕ) (call : HashCall)
  | look (id : ℕ)
  | lookup (id : ℕ) (usable : Bool)
  | openFile (id : ℕ)
  | read (id : ℕ) (object : Option ObjectId)
  | lookAgain (id : ℕ)
  | publish (id : ℕ) (catalog : Bool)
  | take
  | write (done : Bool)
  | settle
  | tick (clock : ℕ)
  | restart (sidecar : Sidecar)

/-- The bytes of the regular file at a path. -/
def contentAt (files : FileHistory) (time : ℕ) (path : LibraryPath) : Option (List UInt8) :=
  ((files time path).filter FileView.regular).map FileView.content

/-- The file is the same from one time to another. -/
def steadyContent (files : FileHistory) (path : LibraryPath) (opened closed : ℕ)
    (content : List UInt8) : Prop :=
  ∀ t ∈ List.range' opened (closed + 1 - opened), contentAt files t path = some content

instance (files : FileHistory) (path : LibraryPath) (opened closed : ℕ) (content : List UInt8) :
    Decidable (steadyContent files path opened closed content) :=
  inferInstanceAs (Decidable (∀ t ∈ List.range' _ _, _))

/-- What is read of a file that does not change is its hash. -/
def readAs (env : HashEnv) (files : FileHistory) (call : HashCall) (opened closed : ℕ)
    (object : ObjectId) : Prop :=
  ∀ content ∈ contentAt files opened call.path,
    steadyContent files call.path opened closed content → object = env.objectOf call.suite content

instance (env : HashEnv) (files : FileHistory) (call : HashCall) (opened closed : ℕ)
    (object : ObjectId) : Decidable (readAs env files call opened closed object) :=
  inferInstanceAs (Decidable (∀ content ∈ contentAt files opened call.path, _))

/-- The object with a root that was found in the cache. -/
def cachedObject (root : String) (size : ℕ) : Option ObjectId := do
  let bytes ← hexDecode root.toList
  if h : bytes.length = 32 then some ⟨.blake3, ⟨bytes, h⟩, size⟩ else none

/-- The entries that a damaged or earlier file can have are ones that were written. -/
def Sidecar.From (sidecar : Sidecar) (documents : List (List RootCacheEntry)) : Prop :=
  match sidecar with
  | .unreadable => True
  | .document entries =>
      ∀ entry ∈ entries.filterMap id, ∃ document ∈ documents, entry ∈ document

instance (sidecar : Sidecar) (documents : List (List RootCacheEntry)) :
    Decidable (sidecar.From documents) :=
  match sidecar with
  | .unreadable => .isTrue trivial
  | .document entries =>
      inferInstanceAs (Decidable (∀ entry ∈ entries.filterMap id, ∃ document ∈ documents, _))

namespace LibraryState

/-- A call goes on, and time with it. -/
def goOn (s : LibraryState) (id : ℕ) (phase : HashPhase) : LibraryState :=
  { s with time := s.time + 1, calls := Function.update s.calls id phase }

/-- The entries are loaded when they are not. -/
def loadedCache (s : LibraryState) : RootCacheState := s.cache.ensureLoaded s.sidecar s.clock

/-- An entry is put in. -/
def putRoot (s : LibraryState) (env : HashEnv) (call : HashCall) (seen : ℕ) (stamp : FileStamp)
    (object : ObjectId) : LibraryState :=
  { s with
    cache := s.loadedCache.insert
      ⟨call.tenant, env.display call.path, stamp, hexEncode object.root.1, s.clock⟩
    putIn := ⟨call.tenant, call.path, stamp, object, seen⟩ :: s.putIn
    saved := s.saved.map (· + 1)
    persisting := s.persisting.map fun persisting =>
      { persisting with since := persisting.since + 1 } }

/-- What happens next, where it can. -/
def step (env : HashEnv) (files : FileHistory) (s : LibraryState) :
    LibraryEvent → Option LibraryState
  | .call id call =>
      match s.calls id with
      | .idle | .returned .. | .failed .. => some (s.goOn id (.called call s.time))
      | _ => none
  | .look id =>
      match s.calls id with
      | .called call began =>
          match files s.time call.path with
          | none => some (s.goOn id (.failed call))
          | some view =>
              if view.regular = true ∧ call.validLength env view.content.length = true then
                some (s.goOn id (.looked call began s.time view.stamp))
              else some (s.goOn id (.failed call))
      | _ => none
  | .lookup id usable =>
      match s.calls id with
      | .looked call began seen stamp =>
          if call.expected.isNone = true then
            let s := { s with cache := s.loadedCache }
            match (s.cache.lookup call.tenant (env.display call.path) stamp).bind fun root =>
                cachedObject root stamp.size with
            | some object =>
                if usable = true then some (s.goOn id (.returned call began seen object))
                else some (s.goOn id (.missed call began seen stamp))
            | none => some (s.goOn id (.missed call began seen stamp))
          else some (s.goOn id (.missed call began seen stamp))
      | _ => none
  | .openFile id =>
      match s.calls id with
      | .missed call began seen stamp =>
          match contentAt files s.time call.path with
          | none => some (s.goOn id (.failed call))
          | some content =>
              if call.validLength env content.length = true then
                some (s.goOn id (.reading call began seen stamp s.time))
              else some (s.goOn id (.failed call))
      | _ => none
  | .read id object =>
      match s.calls id with
      | .reading call began seen stamp opened =>
          match object with
          | none => some (s.goOn id (.failed call))
          | some object =>
              if readAs env files call opened s.time object ∧ object.suite = call.suite then
                if call.expected.any (fun expected => decide (expected ≠ object)) = true then
                  some (s.goOn id (.failed call))
                else some (s.goOn id (.hashed call began seen stamp opened s.time object))
              else none
      | _ => none
  | .lookAgain id =>
      match s.calls id with
      | .hashed call began seen stamp _ _ object =>
          match files s.time call.path with
          | none => some (s.goOn id (.failed call))
          | some view =>
              if view.regular = true ∧ view.stamp = stamp then
                some (s.goOn id (.checked call began seen stamp object))
              else some (s.goOn id (.failed call))
      | _ => none
  | .publish id catalog =>
      match s.calls id with
      | .checked call began seen stamp object =>
          if catalog = false then some (s.goOn id (.failed call))
          else if object.length = stamp.size ∧ call.expected.isNone = true then
            some ((s.putRoot env call seen stamp object).goOn id (.returned call began seen object))
          else some (s.goOn id (.returned call began seen object))
      | _ => none
  | .take =>
      match s.persisting with
      | some _ => none
      | none =>
          if s.cache.dirty = true then
            some { s with
              time := s.time + 1
              persisting := some ⟨s.cache.entries.rows, s.cache.generation, 0, false⟩ }
          else some { s with time := s.time + 1 }
  | .write done =>
      match s.persisting with
      | none => none
      | some persisting =>
          if persisting.written = true then none
          else if done = true then
            some { s with
              time := s.time + 1
              sidecar := .document (persisting.snapshot.map some)
              documents := persisting.snapshot :: s.documents
              saved := some persisting.since
              persisting := some { persisting with written := true } }
          else some { s with time := s.time + 1, persisting := none }
  | .settle =>
      match s.persisting with
      | none => none
      | some persisting =>
          if persisting.written = true then
            some { s with
              time := s.time + 1
              persisting := none
              cache :=
                if s.cache.generation = persisting.generation then { s.cache with dirty := false }
                else s.cache }
          else none
  | .tick clock => if s.clock ≤ clock then some { s with time := s.time + 1, clock } else none
  | .restart sidecar =>
      if sidecar = s.sidecar ∨ sidecar.From s.documents then
        some { s with
          time := s.time + 1
          cache := .new
          sidecar
          persisting := none
          calls := fun _ => .idle
          saved := none }
      else none

end LibraryState

end Votport.Library
