import Mathlib.Data.Int.Notation
import Mathlib.Logic.Function.Basic
import Votport.Foundation.Runs

/-!
# The cache of settings

The settings that were read last are kept with a generation.  A writer adds to the generation
after it commits and before it lets go of the connection, and a reader that does not find its
generation in the cache reads the table and the generation under the lock of the connection.  So
what a reader is given is never older than the writes that had returned when it asked, and what is
stored is what the calls have written, one after another.
-/

namespace Votport

open Runs

/-- A row of `settings`. -/
structure SettingsRow where
  value : String
  updatedAt : ℤ
  updatedBy : String

/-- The table `settings`, by key. -/
abbrev SettingsTable := String → Option SettingsRow

/-- `SettingWrite`. -/
inductive SettingWrite
  | set (value : String)
  | reset

/-- A statement of `put_settings`. -/
def SettingsTable.write (actor : String) (now : ℤ) (rows : SettingsTable)
    (write : String × SettingWrite) : SettingsTable :=
  match write.2 with
  | .set value => Function.update rows write.1 (some ⟨value, now, actor⟩)
  | .reset => Function.update rows write.1 none

/-- `read_settings_map`. -/
def readSettingsMap (rows : SettingsTable) (key : String) : Option String :=
  (rows key).map SettingsRow.value

variable {ν : Type}

/-- Where a thread is, in `put_settings` or in `validated_settings`.  A reader carries the calls
that had returned when it started. -/
inductive SettingsPhase (ν : Type)
  | idle
  /-- The transaction of a call, under the lock of the connection. -/
  | writing (call : ℕ) (actor : String) (now : ℤ) (rows : SettingsTable)
      (rest : List (String × SettingWrite))
  /-- It has committed and still has the lock. -/
  | committed (call : ℕ)
  | called (before : List ℕ)
  /-- It has the lock of the cache. -/
  | looking (before : List ℕ)
  /-- It waits for the connection. -/
  | waiting (before : List ℕ)
  /-- It has both locks. -/
  | tagging (before : List ℕ)
  | reading (before : List ℕ) (generation : ℕ)
  | caching (before : List ℕ) (generation : ℕ) (settings : ν)

/-- A call of `put_settings`, with its number. -/
structure SettingsPut where
  call : ℕ
  actor : String
  now : ℤ
  writes : List (String × SettingWrite)

/-- The store, the cache and the threads.  Each table that was committed is kept with the call
that did so, and the last one is stored. -/
structure SettingsStore (ν : Type) where
  versions : List (ℕ × SettingsTable)
  generation : ℕ
  cache : Option (ℕ × ν)
  connection : Option ℕ
  cacheLock : Option ℕ
  phases : ℕ → SettingsPhase ν
  calls : ℕ
  /-- The calls, the last one first. -/
  puts : List SettingsPut
  returned : List ℕ
  failed : List ℕ
  /-- What readers were given. -/
  reads : List (List ℕ × ν)

/-- What a thread does: it calls one of the functions, or goes on where the database may fail. -/
inductive SettingsAction
  | put (actor : String) (now : ℤ) (writes : List (String × SettingWrite))
  | read
  | next (ok : Bool)

/-- The table that is stored. -/
def SettingsStore.stored (s : SettingsStore ν) : SettingsTable :=
  match s.versions.getLast? with
  | some version => version.2
  | none => fun _ => none

/-- One step of a thread. -/
def SettingsStore.step (validate : (String → Option String) → ν) (s : SettingsStore ν)
    (action : ℕ × SettingsAction) : Option (SettingsStore ν) :=
  let go (s : SettingsStore ν) (phase : SettingsPhase ν) :=
    some { s with phases := Function.update s.phases action.1 phase }
  match s.phases action.1, action.2 with
  | .idle, .put actor now writes =>
      if s.connection = none then
        go { s with
            connection := some action.1, calls := s.calls + 1
            puts := ⟨s.calls + 1, actor, now, writes⟩ :: s.puts }
          (.writing (s.calls + 1) actor now s.stored writes)
      else none
  | .idle, .read => go s (.called s.returned)
  | .writing call actor now rows (write :: rest), .next true =>
      go s (.writing call actor now (rows.write actor now write) rest)
  | .writing call _ _ rows [], .next true =>
      go { s with versions := s.versions ++ [(call, rows)] } (.committed call)
  | .writing call _ _ _ _, .next false =>
      go { s with connection := none, failed := call :: s.failed } .idle
  | .committed call, .next _ =>
      go { s with
        connection := none, generation := s.generation + 1, returned := call :: s.returned } .idle
  | .called before, .next _ =>
      if s.cacheLock = none then go { s with cacheLock := some action.1 } (.looking before)
      else none
  | .looking before, .next _ =>
      match s.cache with
      | some (generation, settings) =>
          if generation = s.generation then
            go { s with cacheLock := none, reads := (before, settings) :: s.reads } .idle
          else go s (.waiting before)
      | none => go s (.waiting before)
  | .waiting before, .next _ =>
      if s.connection = none then go { s with connection := some action.1 } (.tagging before)
      else none
  | .tagging before, .next _ => go s (.reading before s.generation)
  | .reading before generation, .next true =>
      go s (.caching before generation (validate (readSettingsMap s.stored)))
  | .reading _ _, .next false => go { s with connection := none, cacheLock := none } .idle
  | .caching before generation settings, .next _ =>
      go { s with
        cache := some (generation, settings), connection := none, cacheLock := none,
        reads := (before, settings) :: s.reads } .idle
  | _, _ => none

/-- The store with a table, before any call. -/
def SettingsStore.start (rows : SettingsTable) : SettingsStore ν where
  versions := [(0, rows)]
  generation := 0
  cache := none
  connection := none
  cacheLock := none
  phases := fun _ => .idle
  calls := 0
  puts := []
  returned := []
  failed := []
  reads := []

/-! ### What a call writes -/

/-- The row of a key after the writes of a call: that of the last one for the key. -/
def writtenRow (actor : String) (now : ℤ) (writes : List (String × SettingWrite)) (key : String)
    (before : Option SettingsRow) : Option SettingsRow :=
  match (writes.filter (·.1 = key)).getLast? with
  | none => before
  | some (_, .set value) => some ⟨value, now, actor⟩
  | some (_, .reset) => none

theorem foldl_write (actor : String) (now : ℤ) (writes : List (String × SettingWrite))
    (rows : SettingsTable) (key : String) :
  writes.foldl (SettingsTable.write actor now) rows key
    = writtenRow actor now writes key (rows key)
  := by
  induction writes using List.reverseRecOn with
  | nil => rfl
  | append_singleton writes write ih =>
      obtain ⟨name, write⟩ := write
      rw [List.foldl_append, List.foldl_cons, List.foldl_nil, writtenRow, List.filter_append]
      by_cases hkey : name = key
      · subst hkey
        rw [List.filter_cons_of_pos (by simp), List.filter_nil, List.getLast?_concat]
        cases write <;> simp [SettingsTable.write]
      · rw [List.filter_cons_of_neg (by simpa using hkey), List.filter_nil, List.append_nil,
          ← writtenRow, ← ih]
        cases write <;> simp [SettingsTable.write, Function.update_of_ne (Ne.symm hkey)]

/-! ### What holds between steps -/

/-- A thread has the lock of the connection. -/
def SettingsPhase.connected : SettingsPhase ν → Bool
  | .writing .. | .committed _ | .tagging _ | .reading .. | .caching .. => true
  | _ => false

variable {validate : (String → Option String) → ν} {s s' : SettingsStore ν}

/-- The call that committed a version. -/
def SettingsStore.callAt (s : SettingsStore ν) (i : ℕ) : Option ℕ := s.versions[i]?.map Prod.fst

/-- The settings of a version. -/
def SettingsStore.seenAt (validate : (String → Option String) → ν) (s : SettingsStore ν) (i : ℕ) :
    Option ν :=
  s.versions[i]?.map fun version => validate (readSettingsMap version.2)

/-- The versions of the calls are within the generation. -/
def SettingsStore.Known (s : SettingsStore ν) (calls : List ℕ) : Prop :=
  ∀ call ∈ calls, ∃ i ≤ s.generation, s.callAt i = some call

/-- What is known of a thread. -/
def SettingsStore.PhaseOk (validate : (String → Option String) → ν) (s : SettingsStore ν) :
    SettingsPhase ν → Prop
  | .idle => True
  | .writing call actor now rows rest => s.versions.length = s.generation + 1 ∧ call ≤ s.calls
      ∧ (∀ version ∈ s.versions, version.1 ≠ call) ∧ call ∉ s.failed
      ∧ ∃ done, ⟨call, actor, now, done ++ rest⟩ ∈ s.puts
        ∧ rows = done.foldl (SettingsTable.write actor now) s.stored
  | .committed call => s.versions.length = s.generation + 2
      ∧ s.callAt (s.generation + 1) = some call
  | .called before | .looking before | .waiting before => s.Known before
  | .tagging before => s.Known before ∧ s.versions.length = s.generation + 1
  | .reading before generation => s.Known before ∧ s.versions.length = s.generation + 1
      ∧ generation = s.generation
  | .caching before generation settings => s.Known before ∧ s.versions.length = s.generation + 1
      ∧ generation = s.generation ∧ s.seenAt validate generation = some settings

/-- A reader was given the settings of a version, and none older than what had returned. -/
def SettingsStore.ReadOk (validate : (String → Option String) → ν) (s : SettingsStore ν)
    (read : List ℕ × ν) : Prop :=
  ∃ j, s.seenAt validate j = some read.2 ∧ ∀ call ∈ read.1, ∃ i ≤ j, s.callAt i = some call

/-- A version is the one before with the writes of its call. -/
def SettingsStore.Written (s : SettingsStore ν) : Prop :=
  ∀ i call rows, s.versions[i + 1]? = some (call, rows) →
    ∃ put ∈ s.puts, put.call = call ∧ ∃ before, s.versions[i]? = some before
      ∧ ∀ key, rows key = writtenRow put.actor put.now put.writes key (before.2 key)

/-- What is known of what the threads share. -/
structure SettingsStore.SharedOk (validate : (String → Option String) → ν) (s : SettingsStore ν) :
    Prop where
  cache : ∀ generation settings, s.cache = some (generation, settings) →
    s.seenAt validate generation = some settings
  returned : s.Known s.returned
  tags : ∀ version ∈ s.versions, version.1 ≤ s.calls
  failed : ∀ call ∈ s.failed, call ≤ s.calls ∧ ∀ version ∈ s.versions, version.1 ≠ call
  reads : ∀ read ∈ s.reads, s.ReadOk validate read
  written : s.Written

/-- What is known of the store and the threads. -/
structure SettingsStore.Ok (validate : (String → Option String) → ν) (s : SettingsStore ν) : Prop
    where
  shared : s.SharedOk validate
  free : s.connection = none → s.versions.length = s.generation + 1
  connected : ∀ thread, (s.phases thread).connected = true ↔ s.connection = some thread
  phases : ∀ thread, s.PhaseOk validate (s.phases thread)

/-- Versions are only added. -/
structure SettingsStore.Grows (s s' : SettingsStore ν) : Prop where
  versions : s.versions <+: s'.versions
  generation : s.generation ≤ s'.generation

theorem SettingsStore.Grows.version {i : ℕ} {version : ℕ × SettingsTable} (h : s.Grows s')
    (hi : s.versions[i]? = some version) :
  s'.versions[i]? = some version
  := by
  obtain ⟨rest, hrest⟩ := h.versions
  rw [← hrest, List.getElem?_append_left (List.getElem?_eq_some_iff.mp hi).1]
  exact hi

theorem SettingsStore.Grows.callAt {i call : ℕ} (h : s.Grows s') (hi : s.callAt i = some call) :
  s'.callAt i = some call
  := by
  obtain ⟨version, hversion, rfl⟩ := Option.map_eq_some_iff.mp hi
  exact Option.map_eq_some_iff.mpr ⟨version, h.version hversion, rfl⟩

theorem SettingsStore.Grows.seenAt {i : ℕ} {settings : ν} (h : s.Grows s')
    (hi : s.seenAt validate i = some settings) :
  s'.seenAt validate i = some settings
  := by
  obtain ⟨version, hversion, rfl⟩ := Option.map_eq_some_iff.mp hi
  exact Option.map_eq_some_iff.mpr ⟨version, h.version hversion, rfl⟩

theorem SettingsStore.Grows.known {calls : List ℕ} (h : s.Grows s') (hcalls : s.Known calls) :
  s'.Known calls
  := by
  intro call hcall
  obtain ⟨i, hi, heq⟩ := hcalls call hcall
  exact ⟨i, Nat.le_trans hi h.generation, h.callAt heq⟩

theorem SettingsStore.Grows.readOk {read : List ℕ × ν} (h : s.Grows s')
    (hread : s.ReadOk validate read) :
  s'.ReadOk validate read
  := by
  obtain ⟨j, hj, hcalls⟩ := hread
  refine ⟨j, h.seenAt hj, ?_⟩
  intro call hcall
  obtain ⟨i, hi, heq⟩ := hcalls call hcall
  exact ⟨i, hi, h.callAt heq⟩

/-- Threads without the connection only know versions. -/
theorem SettingsStore.Grows.phaseOk {phase : SettingsPhase ν} (h : s.Grows s')
    (hphase : phase.connected = false) (hok : s.PhaseOk validate phase) :
  s'.PhaseOk validate phase
  := by
  cases phase with
  | idle => trivial
  | called before => exact h.known hok
  | looking before => exact h.known hok
  | waiting before => exact h.known hok
  | writing => cases hphase
  | committed => cases hphase
  | tagging => cases hphase
  | reading => cases hphase
  | caching => cases hphase

/-- A step of one thread, as the others see it. -/
theorem SettingsStore.Ok.update (h : s.Ok validate) (thread : ℕ) (phase : SettingsPhase ν)
    (hphases : s'.phases = Function.update s.phases thread phase) (hgrows : s.Grows s')
    (hlock : phase.connected = true → s.connection = none ∨ s.connection = some thread)
    (hconnection : s'.connection = if phase.connected then some thread
      else if (s.phases thread).connected then none else s.connection)
    (hsame : ∀ other, s.connection = some other → other ≠ thread →
      s'.versions = s.versions ∧ s'.generation = s.generation ∧ s'.calls = s.calls
        ∧ s'.failed = s.failed ∧ s'.puts = s.puts)
    (hshared : s'.SharedOk validate) (hown : s'.PhaseOk validate phase)
    (hfree : s'.connection = none → s'.versions.length = s'.generation + 1) :
  s'.Ok validate
  := by
  refine ⟨hshared, hfree, ?_, ?_⟩
  · intro other
    rw [hphases, hconnection]
    by_cases hother : other = thread
    · subst hother
      rw [Function.update_self]
      cases hconnected : phase.connected with
      | true => simp
      | false =>
          have hbefore := h.connected other
          cases hwas : (s.phases other).connected with
          | true => simp
          | false =>
              rw [hwas] at hbefore
              simpa using hbefore
    · rw [Function.update_of_ne hother, h.connected other]
      cases hconnected : phase.connected with
      | true =>
          have hne : ¬some thread = some other := fun heq => hother (Option.some.inj heq).symm
          have hnot : ¬s.connection = some other := by
            intro heq
            obtain hnone | hsome := hlock hconnected
            · rw [hnone] at heq
              cases heq
            · exact hne (hsome.symm.trans heq)
          simp [hne, hnot]
      | false =>
          cases hwas : (s.phases thread).connected with
          | true =>
              have hsome := (h.connected thread).mp hwas
              have hne : ¬some thread = some other := fun heq => hother (Option.some.inj heq).symm
              rw [hsome]
              simp [hne]
          | false => simp
  · intro other
    rw [hphases]
    by_cases hother : other = thread
    · subst hother
      rw [Function.update_self]
      exact hown
    · rw [Function.update_of_ne hother]
      cases hconnected : (s.phases other).connected with
      | false => exact hgrows.phaseOk hconnected (h.phases other)
      | true =>
          obtain ⟨hversions, hgeneration, hcalls, hfailed, hputs⟩ :=
            hsame other ((h.connected other).mp hconnected) hother
          have hok := h.phases other
          revert hok
          cases s.phases other <;> simp only [PhaseOk, Known, callAt, seenAt, stored, hversions,
            hgeneration, hcalls, hfailed, hputs, imp_self]

theorem SettingsStore.Grows.refl (s : SettingsStore ν) :
  s.Grows s
  := ⟨List.prefix_rfl, Nat.le_refl _⟩

/-- A step of a thread that leaves what is shared. -/
theorem SettingsStore.Ok.go {thread : ℕ} {phase : SettingsPhase ν} (h : s.Ok validate)
    (hconnected : phase.connected = (s.phases thread).connected) (hown : s.PhaseOk validate phase)
    (cacheLock : Option ℕ) :
  SettingsStore.Ok validate
    { s with phases := Function.update s.phases thread phase, cacheLock := cacheLock }
  := by
  have hthread := h.connected thread
  refine h.update thread phase rfl ⟨List.prefix_rfl, Nat.le_refl _⟩ ?_ ?_ ?_ ?_ ?_ ?_
  · intro hphase
    exact Or.inr (hthread.mp (hconnected ▸ hphase))
  · cases hphase : phase.connected with
    | true => exact hthread.mp (hconnected ▸ hphase)
    | false => rw [← hconnected, hphase]; rfl
  · exact fun _ _ _ => ⟨rfl, rfl, rfl, rfl, rfl⟩
  · exact ⟨h.shared.cache, h.shared.returned, h.shared.tags, h.shared.failed, h.shared.reads,
      h.shared.written⟩
  · cases phase <;> exact hown
  · exact h.free

/-- The call of a put begins. -/
theorem SettingsStore.Ok.put {thread : ℕ} (h : s.Ok validate) (hfree : s.connection = none)
    (actor : String) (now : ℤ)
    (writes : List (String × SettingWrite)) :
  SettingsStore.Ok validate
    { s with
      connection := some thread, calls := s.calls + 1,
      puts := ⟨s.calls + 1, actor, now, writes⟩ :: s.puts,
      phases := Function.update s.phases thread
        (.writing (s.calls + 1) actor now s.stored writes) }
  := by
  refine h.update thread _ rfl ⟨List.prefix_rfl, Nat.le_refl _⟩ ?_ ?_ ?_ ?_ ?_ ?_
  · exact fun _ => Or.inl hfree
  · rfl
  · intro other hother
    rw [hfree] at hother
    cases hother
  · refine ⟨h.shared.cache, h.shared.returned, ?_, ?_, h.shared.reads, ?_⟩
    · exact fun version hversion => Nat.le_succ_of_le (h.shared.tags version hversion)
    · intro call hcall
      obtain ⟨hle, hnot⟩ := h.shared.failed call hcall
      exact ⟨Nat.le_succ_of_le hle, hnot⟩
    · intro i call rows hversion
      obtain ⟨put, hput, hwritten⟩ := h.shared.written i call rows hversion
      exact ⟨put, List.mem_cons_of_mem _ hput, hwritten⟩
  · refine ⟨h.free hfree, Nat.le_refl _, ?_, ?_, [], List.mem_cons_self, rfl⟩
    · intro version hversion
      have hle := h.shared.tags version hversion
      omega
    · intro hcall
      have hle := (h.shared.failed _ hcall).1
      omega
  · intro hnone
    cases hnone

/-- A put fails before it commits. -/
theorem SettingsStore.Ok.fail {thread call : ℕ} {actor : String} {now : ℤ} {rows : SettingsTable}
    {rest : List (String × SettingWrite)} (h : s.Ok validate)
    (hwriting : s.phases thread = .writing call actor now rows rest) :
  SettingsStore.Ok validate
    { s with
      connection := none, failed := call :: s.failed,
      phases := Function.update s.phases thread .idle }
  := by
  have hown := h.phases thread
  rw [hwriting] at hown
  obtain ⟨hlength, hle, hnot, _⟩ := hown
  have hsome : s.connection = some thread := by
    rw [← h.connected, hwriting]
    rfl
  refine h.update thread .idle rfl ⟨List.prefix_rfl, Nat.le_refl _⟩ ?_ ?_ ?_ ?_ ?_ ?_
  · intro hphase
    cases hphase
  · rw [hwriting]
    rfl
  · intro other hother hne
    exact absurd (Option.some.inj (hother.symm.trans hsome)) hne
  · refine ⟨h.shared.cache, h.shared.returned, h.shared.tags, ?_, h.shared.reads,
      h.shared.written⟩
    intro other hother
    obtain rfl | hother := List.mem_cons.mp hother
    · exact ⟨hle, hnot⟩
    · exact h.shared.failed other hother
  · trivial
  · exact fun _ => hlength

/-- A put commits. -/
theorem SettingsStore.Ok.commit {thread call : ℕ} {actor : String} {now : ℤ} {rows : SettingsTable}
    (h : s.Ok validate) (hwriting : s.phases thread = .writing call actor now rows []) :
  SettingsStore.Ok validate
    { s with
      versions := s.versions ++ [(call, rows)],
      phases := Function.update s.phases thread (.committed call) }
  := by
  have hown := h.phases thread
  rw [hwriting] at hown
  obtain ⟨hlength, hle, hnot, hfailed, done, hput, hrows⟩ := hown
  rw [List.append_nil] at hput
  have hsome : s.connection = some thread := by
    rw [← h.connected, hwriting]
    rfl
  have hgrows : s.Grows
      { s with
        versions := s.versions ++ [(call, rows)],
        phases := Function.update s.phases thread (.committed call) } :=
    ⟨List.prefix_append .., Nat.le_refl _⟩
  refine h.update thread (.committed call) rfl hgrows ?_ ?_ ?_ ?_ ?_ ?_
  · exact fun _ => Or.inr hsome
  · exact hsome
  · intro other hother hne
    exact absurd (Option.some.inj (hother.symm.trans hsome)) hne
  · refine ⟨?_, hgrows.known h.shared.returned, ?_, ?_, ?_, ?_⟩
    · exact fun generation settings hcache =>
        hgrows.seenAt (h.shared.cache generation settings hcache)
    · intro version hversion
      obtain hversion | hversion := List.mem_append.mp hversion
      · exact h.shared.tags version hversion
      · rw [List.mem_singleton.mp hversion]
        exact hle
    · intro other hother
      obtain ⟨hle', hnot'⟩ := h.shared.failed other hother
      refine ⟨hle', ?_⟩
      intro version hversion
      obtain hversion | hversion := List.mem_append.mp hversion
      · exact hnot' version hversion
      · rw [List.mem_singleton.mp hversion]
        rintro rfl
        exact hfailed hother
    · exact fun read hread => hgrows.readOk (h.shared.reads read hread)
    · intro i call' rows' hversion
      replace hversion : (s.versions ++ [(call, rows)])[i + 1]? = some (call', rows') := hversion
      by_cases hi : i + 1 < s.versions.length
      · rw [List.getElem?_append_left hi] at hversion
        obtain ⟨put, hmem, hcall, before, hbefore, hwritten⟩ := h.shared.written i _ _ hversion
        exact ⟨put, hmem, hcall, before, hgrows.version hbefore, hwritten⟩
      · -- It is the version of this call, after the last one.
        have hlast : i + 1 = s.versions.length := by
          have hlt := (List.getElem?_eq_some_iff.mp hversion).1
          rw [List.length_append, List.length_singleton] at hlt
          omega
        rw [hlast, List.getElem?_concat_length] at hversion
        obtain ⟨rfl, rfl⟩ := Prod.mk.inj (Option.some.inj hversion)
        have hindex : s.versions.length - 1 = i := by omega
        obtain ⟨before, hbefore⟩ : ∃ before, s.versions[i]? = some before :=
          ⟨_, List.getElem?_eq_getElem (by omega)⟩
        have hstored : s.stored = before.2 := by
          rw [SettingsStore.stored, List.getLast?_eq_getElem?, hindex, hbefore]
        refine ⟨_, hput, rfl, _, hgrows.version hbefore, ?_⟩
        intro key
        rw [hrows, hstored]
        exact foldl_write ..
  · constructor
    · change (s.versions ++ [(call, rows)]).length = s.generation + 2
      rw [List.length_append, hlength]
      rfl
    · change (s.versions ++ [(call, rows)])[s.generation + 1]?.map Prod.fst = some call
      rw [← hlength, List.getElem?_concat_length]
      rfl
  · intro hnone
    rw [show s.connection = none from hnone] at hsome
    cases hsome

/-- A put that has committed returns. -/
theorem SettingsStore.Ok.finish {thread call : ℕ} (h : s.Ok validate)
    (hcommitted : s.phases thread = .committed call) :
  SettingsStore.Ok validate
    { s with
      connection := none, generation := s.generation + 1, returned := call :: s.returned,
      phases := Function.update s.phases thread .idle }
  := by
  have hown := h.phases thread
  rw [hcommitted] at hown
  obtain ⟨hlength, hcall⟩ := hown
  have hsome : s.connection = some thread := by
    rw [← h.connected, hcommitted]
    rfl
  have hgrows : s.Grows
      { s with
        connection := none, generation := s.generation + 1, returned := call :: s.returned,
        phases := Function.update s.phases thread .idle } :=
    ⟨List.prefix_rfl, Nat.le_succ _⟩
  refine h.update thread .idle rfl hgrows ?_ ?_ ?_ ?_ ?_ ?_
  · intro hphase
    cases hphase
  · rw [hcommitted]
    rfl
  · intro other hother hne
    exact absurd (Option.some.inj (hother.symm.trans hsome)) hne
  · refine ⟨h.shared.cache, ?_, h.shared.tags, h.shared.failed, ?_, h.shared.written⟩
    · intro other hother
      obtain rfl | hother := List.mem_cons.mp hother
      · exact ⟨s.generation + 1, Nat.le_refl _, hcall⟩
      · exact hgrows.known h.shared.returned other hother
    · exact fun read hread => hgrows.readOk (h.shared.reads read hread)
  · trivial
  · exact fun _ => hlength

/-- A reader is given what is cached of the present generation. -/
theorem SettingsStore.Ok.hit {thread : ℕ} {before : List ℕ} {settings : ν} (h : s.Ok validate)
    (hlooking : s.phases thread = .looking before)
    (hcache : s.cache = some (s.generation, settings)) :
  SettingsStore.Ok validate
    { s with
      cacheLock := none, reads := (before, settings) :: s.reads,
      phases := Function.update s.phases thread .idle }
  := by
  have hown := h.phases thread
  rw [hlooking] at hown
  refine h.update thread .idle rfl ⟨List.prefix_rfl, Nat.le_refl _⟩ ?_ ?_ ?_ ?_ ?_ ?_
  · intro hphase
    cases hphase
  · rw [hlooking]
    rfl
  · exact fun _ _ _ => ⟨rfl, rfl, rfl, rfl, rfl⟩
  · refine ⟨h.shared.cache, h.shared.returned, h.shared.tags, h.shared.failed, ?_,
      h.shared.written⟩
    intro read hread
    obtain rfl | hread := List.mem_cons.mp hread
    · exact ⟨s.generation, h.shared.cache _ _ hcache, hown⟩
    · exact h.shared.reads read hread
  · trivial
  · exact h.free

/-- A reader has the connection. -/
theorem SettingsStore.Ok.connect {thread : ℕ} {before : List ℕ} (h : s.Ok validate)
    (hwaiting : s.phases thread = .waiting before) (hfree : s.connection = none) :
  SettingsStore.Ok validate
    { s with
      connection := some thread,
      phases := Function.update s.phases thread (.tagging before) }
  := by
  have hown := h.phases thread
  rw [hwaiting] at hown
  refine h.update thread (.tagging before) rfl ⟨List.prefix_rfl, Nat.le_refl _⟩ ?_ ?_ ?_ ?_ ?_ ?_
  · exact fun _ => Or.inl hfree
  · rfl
  · intro other hother
    rw [hfree] at hother
    cases hother
  · exact ⟨h.shared.cache, h.shared.returned, h.shared.tags, h.shared.failed, h.shared.reads,
      h.shared.written⟩
  · exact ⟨hown, h.free hfree⟩
  · intro hnone
    cases hnone

/-- A reader fails to read the table. -/
theorem SettingsStore.Ok.giveUp {thread generation : ℕ} {before : List ℕ} (h : s.Ok validate)
    (hreading : s.phases thread = .reading before generation) :
  SettingsStore.Ok validate
    { s with
      connection := none, cacheLock := none,
      phases := Function.update s.phases thread .idle }
  := by
  have hown := h.phases thread
  rw [hreading] at hown
  have hsome : s.connection = some thread := by
    rw [← h.connected, hreading]
    rfl
  refine h.update thread .idle rfl ⟨List.prefix_rfl, Nat.le_refl _⟩ ?_ ?_ ?_ ?_ ?_ ?_
  · intro hphase
    cases hphase
  · rw [hreading]
    rfl
  · exact fun _ _ _ => ⟨rfl, rfl, rfl, rfl, rfl⟩
  · exact ⟨h.shared.cache, h.shared.returned, h.shared.tags, h.shared.failed, h.shared.reads,
      h.shared.written⟩
  · trivial
  · exact fun _ => hown.2.1

/-- A reader keeps what it has read in the cache. -/
theorem SettingsStore.Ok.keep {thread generation : ℕ} {before : List ℕ} {settings : ν}
    (h : s.Ok validate) (hcaching : s.phases thread = .caching before generation settings) :
  SettingsStore.Ok validate
    { s with
      cache := some (generation, settings), connection := none, cacheLock := none,
      reads := (before, settings) :: s.reads,
      phases := Function.update s.phases thread .idle }
  := by
  have hown := h.phases thread
  rw [hcaching] at hown
  obtain ⟨hknown, hlength, rfl, hseen⟩ := hown
  refine h.update thread .idle rfl ⟨List.prefix_rfl, Nat.le_refl _⟩ ?_ ?_ ?_ ?_ ?_ ?_
  · intro hphase
    cases hphase
  · rw [hcaching]
    rfl
  · exact fun _ _ _ => ⟨rfl, rfl, rfl, rfl, rfl⟩
  · refine ⟨?_, h.shared.returned, h.shared.tags, h.shared.failed, ?_, h.shared.written⟩
    · intro generation' settings' hcache
      obtain ⟨rfl, rfl⟩ := Prod.mk.inj (Option.some.inj hcache)
      exact hseen
    · intro read hread
      obtain rfl | hread := List.mem_cons.mp hread
      · exact ⟨s.generation, hseen, hknown⟩
      · exact h.shared.reads read hread
  · trivial
  · exact fun _ => hlength

/-- What is stored is the last version. -/
theorem seenAt_stored {generation : ℕ} (h : s.versions.length = generation + 1) :
  s.seenAt validate generation = some (validate (readSettingsMap s.stored))
  := by
  have hlt : generation < s.versions.length := by omega
  have hlast : s.versions.getLast? = s.versions[generation]? := by
    rw [List.getLast?_eq_getElem?, h, Nat.add_sub_cancel]
  rw [SettingsStore.seenAt, SettingsStore.stored, hlast, List.getElem?_eq_getElem hlt]
  rfl

/-- A step of any thread. -/
theorem SettingsStore.Ok.step {action : ℕ × SettingsAction} (h : s.Ok validate)
    (hstep : s.step validate action = some s') :
  s'.Ok validate
  := by
  obtain ⟨thread, action⟩ := action
  have hown := h.phases thread
  unfold SettingsStore.step at hstep
  dsimp only at hstep
  split at hstep
  · split at hstep
    · obtain rfl := Option.some.inj hstep
      exact h.put (by assumption) _ _ _
    · cases hstep
  · rename_i hidle
    obtain rfl := Option.some.inj hstep
    refine h.go ?_ ?_ _
    · rw [hidle]
      rfl
    · exact h.shared.returned
  · rename_i write rest hwriting
    rw [hwriting] at hown
    obtain ⟨hlength, hle, hnot, hfailed, done, hput, hrows⟩ := hown
    obtain rfl := Option.some.inj hstep
    refine h.go ?_ ?_ _
    · rw [hwriting]
      rfl
    · refine ⟨hlength, hle, hnot, hfailed, done ++ [write], ?_, ?_⟩
      · rw [List.append_assoc]
        exact hput
      · rw [List.foldl_append, ← hrows]
        rfl
  · rename_i hwriting
    obtain rfl := Option.some.inj hstep
    exact h.commit hwriting
  · rename_i hwriting
    obtain rfl := Option.some.inj hstep
    exact h.fail hwriting
  · rename_i hcommitted
    obtain rfl := Option.some.inj hstep
    exact h.finish hcommitted
  · rename_i hcalled
    rw [hcalled] at hown
    split at hstep
    · obtain rfl := Option.some.inj hstep
      refine h.go ?_ ?_ _
      · rw [hcalled]
        rfl
      · exact hown
    · cases hstep
  · rename_i hlooking
    rw [hlooking] at hown
    split at hstep
    · split at hstep
      · rename_i hcache heq
        subst heq
        obtain rfl := Option.some.inj hstep
        exact h.hit hlooking hcache
      · obtain rfl := Option.some.inj hstep
        refine h.go ?_ ?_ _
        · rw [hlooking]
          rfl
        · exact hown
    · obtain rfl := Option.some.inj hstep
      refine h.go ?_ ?_ _
      · rw [hlooking]
        rfl
      · exact hown
  · rename_i hwaiting
    split at hstep
    · obtain rfl := Option.some.inj hstep
      exact h.connect hwaiting (by assumption)
    · cases hstep
  · rename_i htagging
    rw [htagging] at hown
    obtain rfl := Option.some.inj hstep
    refine h.go ?_ ?_ _
    · rw [htagging]
      rfl
    · exact ⟨hown.1, hown.2, rfl⟩
  · rename_i hreading
    rw [hreading] at hown
    obtain ⟨hknown, hlength, rfl⟩ := hown
    obtain rfl := Option.some.inj hstep
    refine h.go ?_ ?_ _
    · rw [hreading]
      rfl
    · exact ⟨hknown, hlength, rfl, seenAt_stored hlength⟩
  · rename_i hreading
    obtain rfl := Option.some.inj hstep
    exact h.giveUp hreading
  · rename_i hcaching
    obtain rfl := Option.some.inj hstep
    exact h.keep hcaching
  · cases hstep

theorem ok_start (validate : (String → Option String) → ν) (rows : SettingsTable) :
  SettingsStore.Ok validate (.start rows)
  := by
  refine ⟨⟨?_, ?_, ?_, ?_, ?_, ?_⟩, fun _ => rfl, ?_, fun _ => trivial⟩
  · intro _ _ hcache
    cases hcache
  · intro _ hcall
    cases hcall
  · intro version hversion
    rw [List.mem_singleton.mp hversion]
    exact Nat.le_refl 0
  · intro _ hcall
    cases hcall
  · intro _ hread
    cases hread
  · intro i call rows hversion
    cases hversion
  · intro thread
    constructor
    · intro hconnected
      cases hconnected
    · intro hsome
      cases hsome

/-- The calls are those that threads have made. -/
theorem SettingsStore.puts_step {action : ℕ × SettingsAction}
    (hstep : s.step validate action = some s') :
  s'.puts = s.puts ∨ ∃ thread actor now writes, action = (thread, .put actor now writes)
    ∧ s'.puts = ⟨s.calls + 1, actor, now, writes⟩ :: s.puts
  := by
  obtain ⟨thread, action⟩ := action
  unfold SettingsStore.step at hstep
  dsimp only at hstep
  split at hstep
  · rename_i actor now writes _
    split at hstep
    · obtain rfl := Option.some.inj hstep
      exact .inr ⟨thread, actor, now, writes, rfl, rfl⟩
    · cases hstep
  · obtain rfl := Option.some.inj hstep
    exact .inl rfl
  · obtain rfl := Option.some.inj hstep
    exact .inl rfl
  · obtain rfl := Option.some.inj hstep
    exact .inl rfl
  · obtain rfl := Option.some.inj hstep
    exact .inl rfl
  · obtain rfl := Option.some.inj hstep
    exact .inl rfl
  · split at hstep
    · obtain rfl := Option.some.inj hstep
      exact .inl rfl
    · cases hstep
  · split at hstep
    · split at hstep <;> obtain rfl := Option.some.inj hstep <;> exact .inl rfl
    · obtain rfl := Option.some.inj hstep
      exact .inl rfl
  · split at hstep
    · obtain rfl := Option.some.inj hstep
      exact .inl rfl
    · cases hstep
  · obtain rfl := Option.some.inj hstep
    exact .inl rfl
  · obtain rfl := Option.some.inj hstep
    exact .inl rfl
  · obtain rfl := Option.some.inj hstep
    exact .inl rfl
  · obtain rfl := Option.some.inj hstep
    exact .inl rfl
  · cases hstep

/-- The calls of a run are among its actions. -/
theorem SettingsStore.puts_run {rows : SettingsTable} {actions : List (ℕ × SettingsAction)}
    (h : run (SettingsStore.step validate) (.start rows) actions = some s) :
  ∀ put ∈ s.puts, ∃ thread, (thread, .put put.actor put.now put.writes) ∈ actions
  := by
  refine run_invariant_along (P := fun _ action => action ∈ actions)
    (I := fun s => ∀ put ∈ s.puts, ∃ thread, (thread, .put put.actor put.now put.writes) ∈ actions)
    ?_ (along_of_forall _ fun _ haction _ => haction) ?_ h
  · intro s action s' haction hs hstep put hput
    rcases SettingsStore.puts_step hstep with hsame | ⟨thread, actor, now, writes, rfl, hputs⟩
    · exact hs put (hsame ▸ hput)
    · rw [hputs] at hput
      rcases List.mem_cons.mp hput with rfl | hput
      · exact ⟨thread, haction⟩
      · exact hs put hput
  · intro put hput
    cases hput

/-- However puts and readers are interleaved, a reader is given the settings of a version, and of
none older than the puts that had returned when it asked.  A version is the one before it with the
writes of its put.  A put that fails stores no version and leaves what is stored and cached. -/
theorem settings_fresh (validate : (String → Option String) → ν) (rows : SettingsTable)
    (actions : List (ℕ × SettingsAction)) (s : SettingsStore ν)
    (h : run (SettingsStore.step validate) (.start rows) actions = some s) :
  (∀ read ∈ s.reads, ∃ j, s.seenAt validate j = some read.2
      ∧ ∀ call ∈ read.1, ∃ i ≤ j, s.callAt i = some call)
  ∧ (∀ i call rows, s.versions[i + 1]? = some (call, rows) →
      ∃ put ∈ s.puts, put.call = call
        ∧ (∃ thread, (thread, .put put.actor put.now put.writes) ∈ actions)
        ∧ ∃ before, s.versions[i]? = some before
        ∧ ∀ key, rows key = writtenRow put.actor put.now put.writes key (before.2 key))
  ∧ (∀ call ∈ s.failed, ∀ version ∈ s.versions, version.1 ≠ call)
  ∧ ∀ thread call actor now rows rest s', s.phases thread = .writing call actor now rows rest →
      s.step validate (thread, .next false) = some s' →
      call ∈ s'.failed ∧ s'.versions = s.versions ∧ s'.generation = s.generation
        ∧ s'.cache = s.cache ∧ s'.reads = s.reads
  := by
  have hok : s.Ok validate :=
    run_invariant (fun _ _ _ hs hstep => hs.step hstep) (ok_start validate rows) h
  refine ⟨hok.shared.reads, ?_, fun call hcall => (hok.shared.failed call hcall).2, ?_⟩
  · intro i call rows hversion
    obtain ⟨put, hput, hcall, hbefore⟩ := hok.shared.written i call rows hversion
    exact ⟨put, hput, hcall, SettingsStore.puts_run h put hput, hbefore⟩
  intro thread call actor now rows rest s' hwriting hstep
  unfold SettingsStore.step at hstep
  dsimp only at hstep
  rw [hwriting] at hstep
  cases rest <;> obtain rfl := Option.some.inj hstep
  · exact ⟨List.mem_cons_self .., rfl, rfl, rfl, rfl⟩
  · exact ⟨List.mem_cons_self .., rfl, rfl, rfl, rfl⟩

/-- A reader that comes after a put has returned, and one that started before. -/
def settingsRun : List (ℕ × SettingsAction) :=
  [(0, .put "admin" 10 [("color", .set "red")]), (0, .next true), (0, .next true), (1, .read),
    (0, .next true), (2, .read), (2, .next true), (2, .next true), (2, .next true), (2, .next true),
    (2, .next true), (2, .next true), (1, .next true), (1, .next true)]

/-- The settings of the sample: a color. -/
def readColor (rows : String → Option String) : Option String := rows "color"

theorem settings_fresh_run :
  ∃ s : SettingsStore (Option String),
    run (SettingsStore.step readColor) (.start fun _ => none) settingsRun = some s
    ∧ s.reads = [([], some "red"), ([1], some "red")]
    ∧ (∀ read ∈ s.reads, ∃ j, s.seenAt readColor j = some read.2
        ∧ ∀ call ∈ read.1, ∃ i ≤ j, s.callAt i = some call)
    ∧ ∃ put ∈ s.puts, put.call = 1 ∧ ∃ rows, s.versions[1]? = some (1, rows)
      ∧ rows "color" = writtenRow put.actor put.now put.writes "color" none
  := by
  obtain ⟨s, hs, hfacts⟩ := (Option.any_eq_true _ _).mp
    (show (run (SettingsStore.step readColor) (.start fun _ => none) settingsRun).any (fun s =>
        decide (s.reads = [([], some "red"), ([1], some "red")])
        && decide (s.versions[1]?.map Prod.fst = some 1)
        && decide ((s.versions[0]?.map fun version => (version.2 "color").isNone) = some true))
        = true
      by decide)
  simp only [Bool.and_eq_true, decide_eq_true_eq] at hfacts
  obtain ⟨⟨hreads, hcall⟩, hnone⟩ := hfacts
  obtain ⟨hfresh, hwritten, _⟩ := settings_fresh readColor _ settingsRun s hs
  obtain ⟨⟨call, rows⟩, hversion, rfl⟩ := Option.map_eq_some_iff.mp hcall
  obtain ⟨put, hput, hsame, _, before, hbefore, hrows⟩ := hwritten 0 _ rows hversion
  obtain ⟨version, hversion', hempty⟩ := Option.map_eq_some_iff.mp hnone
  obtain rfl : version = before := Option.some.inj (hversion'.symm.trans hbefore)
  refine ⟨s, hs, hreads, hfresh, put, hput, hsame, rows, hversion, ?_⟩
  rw [hrows "color", Option.isNone_iff_eq_none.mp hempty]

end Votport
