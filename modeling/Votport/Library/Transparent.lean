import Votport.Library.Hashing

/-!
# The cache of roots is transparent

When a file cannot change and keep its stamp, a call returns the object of the file it first looked
at, whether the root was found or the file was read.  What is found was put in for the same tenant
and path.  The entries are bounded, and where they are marked clean after they were written, the
file beside has the same.
-/

namespace Votport.Library

variable {env : HashEnv} {files : FileHistory} {s s' : LibraryState} {time : ℕ}

/-- Files of one stamp at one path, or at paths that are displayed the same, have one content. -/
def StampedApart (env : HashEnv) (files : FileHistory) : Prop :=
  ∀ t t' path path' view view', files t path = some view → files t' path' = some view' →
    view.regular = true → view'.regular = true → env.display path = env.display path' →
    view.stamp = view'.stamp → view.content = view'.content

/-- Files of one stamp have one content, and a file that has its stamp again has not changed
meanwhile. -/
structure Stamped (env : HashEnv) (files : FileHistory) : Prop where
  same : StampedApart env files
  steady : ∀ t t' path view view', files t path = some view → files t' path = some view' →
    view.regular = true → view'.regular = true → view.stamp = view'.stamp →
    ∀ u, t ≤ u → u ≤ t' → contentAt files u path = some view.content

/-! ### What is known -/

/-- A regular file with the stamp was at the path. -/
def Seen (files : FileHistory) (path : LibraryPath) (seen : ℕ) (stamp : FileStamp) : Prop :=
  ∃ view, files seen path = some view ∧ view.regular = true ∧ view.stamp = stamp

/-- The object is that of the regular file that was at the path. -/
def Right (env : HashEnv) (files : FileHistory) (path : LibraryPath) (suite : Suite) (seen : ℕ)
    (object : ObjectId) : Prop :=
  ∃ view, files seen path = some view ∧ view.regular = true
    ∧ object = env.objectOf suite view.content

/-- What is known of a call. -/
def HashPhase.Good (env : HashEnv) (files : FileHistory) (time : ℕ) : HashPhase → Prop
  | .idle => True
  | .called _ began => began ≤ time
  | .looked call began seen stamp => began ≤ seen ∧ seen ≤ time ∧ Seen files call.path seen stamp
  | .missed call began seen stamp => began ≤ seen ∧ seen ≤ time ∧ Seen files call.path seen stamp
  | .reading call began seen stamp opened =>
      began ≤ seen ∧ seen ≤ opened ∧ opened ≤ time ∧ Seen files call.path seen stamp
  | .hashed call began seen stamp opened closed object =>
      began ≤ seen ∧ seen ≤ opened ∧ opened ≤ closed ∧ closed ≤ time
        ∧ Seen files call.path seen stamp ∧ readAs env files call opened closed object
  | .checked call began seen stamp object =>
      began ≤ seen ∧ seen ≤ time ∧ Seen files call.path seen stamp
        ∧ Right env files call.path call.suite seen object
  | .returned call began seen object =>
      began ≤ seen ∧ seen ≤ time ∧ Right env files call.path call.suite seen object
  | .failed _ => True

theorem HashPhase.Good.mono {phase : HashPhase} (h : phase.Good env files time) {time' : ℕ}
    (hle : time ≤ time') :
  phase.Good env files time'
  := by
  cases phase with
  | idle => trivial
  | called call began => exact h.trans hle
  | looked call began seen stamp => exact ⟨h.1, h.2.1.trans hle, h.2.2⟩
  | missed call began seen stamp => exact ⟨h.1, h.2.1.trans hle, h.2.2⟩
  | reading call began seen stamp opened => exact ⟨h.1, h.2.1, h.2.2.1.trans hle, h.2.2.2⟩
  | hashed call began seen stamp opened closed object =>
      exact ⟨h.1, h.2.1, h.2.2.1, h.2.2.2.1.trans hle, h.2.2.2.2⟩
  | checked call began seen stamp object => exact ⟨h.1, h.2.1.trans hle, h.2.2⟩
  | returned call began seen object => exact ⟨h.1, h.2.1.trans hle, h.2.2⟩
  | failed call => trivial

/-- The entry is one that was put in. -/
def Known (env : HashEnv) (putIn : List PutIn) (entry : RootCacheEntry) : Prop :=
  ∃ put ∈ putIn, put.tenant = entry.tenant ∧ env.display put.path = entry.path
    ∧ put.stamp = entry.stamp ∧ hexEncode put.object.root.1 = entry.root

theorem Known.mono {putIn putIn' : List PutIn} {entry : RootCacheEntry}
    (h : Known env putIn entry) (hsub : putIn ⊆ putIn') :
  Known env putIn' entry
  := by
  obtain ⟨put, hput, hentry⟩ := h
  exact ⟨put, hsub hput, hentry⟩

theorem Known.of_none
    {putIn : List PutIn} {persisting : Option Persisting} (h : persisting = none) :
  ∀ p, persisting = some p → ∀ entry ∈ p.snapshot, Known env putIn entry
  := by
  intro p hp
  rw [h] at hp
  cases hp

/-- What was put in is right, everything that is kept was put in, and every call is good. -/
structure LibraryState.Good (env : HashEnv) (files : FileHistory) (s : LibraryState) : Prop where
  putIn : ∀ put ∈ s.putIn, put.seen ≤ s.time ∧ Seen files put.path put.seen put.stamp
    ∧ Right env files put.path .blake3 put.seen put.object
  cache : ∀ entry ∈ s.cache.entries.rows, Known env s.putIn entry
  documents : ∀ document ∈ s.documents, ∀ entry ∈ document, Known env s.putIn entry
  sidecar : ∀ entries, s.sidecar = .document entries →
    ∀ entry, some entry ∈ entries → Known env s.putIn entry
  snapshot : ∀ persisting, s.persisting = some persisting →
    ∀ entry ∈ persisting.snapshot, Known env s.putIn entry
  calls : ∀ id, (s.calls id).Good env files s.time

namespace LibraryState

variable {id : ℕ} {phase : HashPhase} {call : HashCall} {began seen : ℕ} {stamp : FileStamp}
  {object : ObjectId}

theorem Good.goOn (hs : s.Good env files) (hphase : phase.Good env files (s.time + 1)) :
  (s.goOn id phase).Good env files
  := by
  refine ⟨fun put hput => ⟨Nat.le_succ_of_le (hs.putIn put hput).1, (hs.putIn put hput).2⟩,
    hs.cache, hs.documents, hs.sidecar, hs.snapshot, ?_⟩
  intro other
  rw [LibraryState.goOn]
  dsimp only
  by_cases h : other = id
  · subst h
    rw [Function.update_self]
    exact hphase
  · rw [Function.update_of_ne h]
    exact (hs.calls other).mono (Nat.le_succ _)

/-- What is kept otherwise, while time goes on and calls end. -/
theorem Good.later
    (hs : s.Good env files) (hputIn : s'.putIn = s.putIn) (htime : s.time ≤ s'.time)
    (hcalls : ∀ id, s'.calls id = s.calls id ∨ s'.calls id = .idle)
    (hcache : ∀ entry ∈ s'.cache.entries.rows, Known env s.putIn entry)
    (hdocuments : ∀ document ∈ s'.documents, ∀ entry ∈ document, Known env s.putIn entry)
    (hsidecar : ∀ entries, s'.sidecar = .document entries →
      ∀ entry, some entry ∈ entries → Known env s.putIn entry)
    (hsnapshot : ∀ persisting, s'.persisting = some persisting →
      ∀ entry ∈ persisting.snapshot, Known env s.putIn entry) :
  s'.Good env files
  := by
  rw [← hputIn] at hcache hdocuments hsidecar hsnapshot
  refine ⟨?_, hcache, hdocuments, hsidecar, hsnapshot, ?_⟩
  · intro put hput
    rw [hputIn] at hput
    exact ⟨(hs.putIn put hput).1.trans htime, (hs.putIn put hput).2⟩
  · intro id
    rcases hcalls id with heq | heq
    · rw [heq]
      exact (hs.calls id).mono htime
    · rw [heq]
      trivial

theorem Good.loadedCache (hs : s.Good env files) :
  ∀ entry ∈ s.loadedCache.entries.rows, Known env s.putIn entry
  := by
  intro entry hentry
  unfold LibraryState.loadedCache RootCacheState.ensureLoaded at hentry
  split at hentry
  · exact hs.cache entry hentry
  · split at hentry
    · exact hs.cache entry hentry
    · rename_i entries hsidecar
      exact hs.sidecar entries hsidecar entry (mem_loadEntries hentry)

theorem Good.load (hs : s.Good env files) :
  ({ s with cache := s.loadedCache } : LibraryState).Good env files
  := by
  exact ⟨hs.putIn, hs.loadedCache, hs.documents, hs.sidecar, hs.snapshot, hs.calls⟩

theorem Good.putRoot
    (hs : s.Good env files) (hseen : seen ≤ s.time) (hstamp : Seen files call.path seen stamp)
    (hright : Right env files call.path .blake3 seen object) :
  (s.putRoot env call seen stamp object).Good env files
  := by
  have hsub : s.putIn ⊆ (s.putRoot env call seen stamp object).putIn := by
    rw [LibraryState.putRoot]
    exact List.subset_cons_self ..
  refine ⟨?_, ?_, ?_, ?_, ?_, hs.calls⟩
  · intro put hput
    rcases List.mem_cons.mp hput with rfl | hput
    · exact ⟨hseen, hstamp, hright⟩
    · exact hs.putIn put hput
  · intro entry hentry
    have hmem := mem_evict hentry
    rcases Table.mem_upsert.mp hmem with rfl | ⟨hmem, _⟩
    · exact ⟨_, List.mem_cons_self .., rfl, rfl, rfl, rfl⟩
    · exact (hs.loadedCache entry hmem).mono hsub
  · exact fun document hdocument entry hentry =>
      (hs.documents document hdocument entry hentry).mono hsub
  · exact fun entries hentries entry hentry => (hs.sidecar entries hentries entry hentry).mono hsub
  · intro persisting hpersisting entry hentry
    obtain ⟨before, hbefore, rfl⟩ := Option.map_eq_some_iff.mp hpersisting
    exact (hs.snapshot before hbefore entry hentry).mono hsub

/-- The object of a root that was found is that of the file. -/
theorem Good.lookup
    (hs : s.Good env files) (hstamped : Stamped env files)
    (hseen : Seen files call.path seen stamp) {root : String}
    (hroot : s.loadedCache.lookup call.tenant (env.display call.path) stamp = some root)
    (hobject : cachedObject root stamp.size = some object) :
  Right env files call.path .blake3 seen object
  := by
  obtain ⟨entry, hentry, -, hpath, hstamp, rfl⟩ := RootCacheState.lookup_eq_some hroot
  obtain ⟨put, hput, -, hdisplay, hputstamp, hhex⟩ := hs.loadedCache entry hentry
  obtain ⟨-, ⟨view, hview, hregular, hviewstamp⟩, ⟨view', hview', hregular', hputobject⟩⟩ :=
    hs.putIn put hput
  obtain ⟨found, hfound, hfoundregular, hfoundstamp⟩ := hseen
  rw [hview] at hview'
  cases hview'
  have hcontent : view.content = found.content :=
    hstamped.same _ _ _ _ _ _ hview hfound hregular hfoundregular (hdisplay.trans hpath)
      (by rw [hviewstamp, hputstamp, hstamp, hfoundstamp])
  refine ⟨found, hfound, hfoundregular, ?_⟩
  have hlength : found.content.length = stamp.size := by
    rw [← hfoundstamp]
    rfl
  rw [cachedObject, ← hhex, hexDecode_hexEncode, hputobject] at hobject
  simp only [Option.bind_eq_bind, Option.bind_some] at hobject
  rw [dif_pos (env.objectOf .blake3 view.content).root.2] at hobject
  cases hobject
  rw [HashEnv.objectOf, ← hlength, hcontent]
  rfl

/-- A file that is found with the stamp it had was read as it was. -/
theorem right_of_lookAgain
    (hstamped : Stamped env files) {opened closed : ℕ} {view : FileView}
    (hseen : Seen files call.path seen stamp) (hopened : seen ≤ opened) (hclosed : opened ≤ closed)
    (htime : closed ≤ time) (hread : readAs env files call opened closed object)
    (hview : files time call.path = some view) (hregular : view.regular = true)
    (hstamp : view.stamp = stamp) :
  Right env files call.path call.suite seen object
  := by
  obtain ⟨found, hfound, hfoundregular, hfoundstamp⟩ := hseen
  have hsteady := hstamped.steady _ _ _ _ _ hfound hview hfoundregular hregular
    (hfoundstamp.trans hstamp.symm)
  refine ⟨found, hfound, hfoundregular, ?_⟩
  apply hread found.content
  · exact hsteady opened hopened (hclosed.trans htime)
  · intro t ht
    rw [List.mem_range'_1] at ht
    exact hsteady t (hopened.trans ht.1) (by omega)

/-! ### Steps -/

theorem good_start (sidecar : Sidecar) (h : sidecar.From []) :
  (LibraryState.start sidecar).Good env files
  := by
  have hsidecar : ∀ entries, sidecar = .document entries → ∀ entry, some entry ∈ entries →
      Known env [] entry := by
    rintro entries rfl entry hentry
    obtain ⟨document, hdocument, _⟩ := h entry (List.mem_filterMap.mpr ⟨_, hentry, rfl⟩)
    cases hdocument
  exact
    { putIn := fun put hput => (List.not_mem_nil hput).elim
      cache := fun entry hentry => (List.not_mem_nil hentry).elim
      documents := fun document hdocument => (List.not_mem_nil hdocument).elim
      sidecar := hsidecar
      snapshot := Known.of_none rfl
      calls := fun id => trivial }

/-- A call that looks for the root in the cache. -/
theorem Good.step_lookup
    {usable : Bool} (hstamped : Stamped env files) (hs : s.Good env files)
    (h : s.step env files (.lookup id usable) = some s') :
  s'.Good env files
  := by
  have hcall := hs.calls id
  rw [LibraryState.step] at h
  split at h
  · rename_i call began seen stamp hphase
    rw [hphase] at hcall
    obtain ⟨hbegan, hseen, hfile⟩ := hcall
    have hmissed : (HashPhase.missed call began seen stamp).Good env files (s.time + 1) :=
      ⟨hbegan, Nat.le_succ_of_le hseen, hfile⟩
    split at h
    · rename_i hexpected
      dsimp only at h
      split at h
      · rename_i object hfound
        split at h
        · cases h
          apply hs.load.goOn
          obtain ⟨root, hroot, hobject⟩ := Option.bind_eq_some_iff.mp hfound
          have hsuite : call.suite = .blake3 := if_pos hexpected
          refine ⟨hbegan, Nat.le_succ_of_le hseen, ?_⟩
          rw [hsuite]
          exact hs.lookup hstamped hfile hroot hobject
        · cases h
          exact hs.load.goOn hmissed
      · cases h
        exact hs.load.goOn hmissed
    · cases h
      exact hs.goOn hmissed
  · cases h

/-- A call that returns what it read. -/
theorem Good.step_publish
    {catalog : Bool} (hs : s.Good env files)
    (h : s.step env files (.publish id catalog) = some s') :
  s'.Good env files
  := by
  have hcall := hs.calls id
  rw [LibraryState.step] at h
  split at h
  · rename_i call began seen stamp object hphase
    rw [hphase] at hcall
    obtain ⟨hbegan, hseen, hfile, hright⟩ := hcall
    have hreturned : (HashPhase.returned call began seen object).Good env files (s.time + 1) :=
      ⟨hbegan, Nat.le_succ_of_le hseen, hright⟩
    split at h
    · cases h
      exact hs.goOn trivial
    · split at h
      · rename_i hcached
        cases h
        have hsuite : call.suite = .blake3 := if_pos hcached.2
        rw [hsuite] at hright
        exact (hs.putRoot hseen hfile hright).goOn hreturned
      · cases h
        exact hs.goOn hreturned
  · cases h

theorem Good.step
    (hstamped : Stamped env files) (hs : s.Good env files) {event : LibraryEvent}
    (h : s.step env files event = some s') :
  s'.Good env files
  := by
  cases event with
  | call id call =>
      rw [LibraryState.step] at h
      split at h
      · cases h
        exact hs.goOn (Nat.le_succ _)
      · cases h
        exact hs.goOn (Nat.le_succ _)
      · cases h
        exact hs.goOn (Nat.le_succ _)
      · cases h
  | look id =>
      have hcall := hs.calls id
      rw [LibraryState.step] at h
      split at h
      · rename_i call began hphase
        rw [hphase] at hcall
        split at h
        · cases h
          exact hs.goOn trivial
        · rename_i view hview
          split at h
          · rename_i hregular
            cases h
            exact hs.goOn ⟨hcall, Nat.le_succ _, view, hview, hregular.1, rfl⟩
          · cases h
            exact hs.goOn trivial
      · cases h
  | lookup id usable => exact hs.step_lookup hstamped h
  | openFile id =>
      have hcall := hs.calls id
      rw [LibraryState.step] at h
      split at h
      · rename_i call began seen stamp hphase
        rw [hphase] at hcall
        obtain ⟨hbegan, hseen, hfile⟩ := hcall
        split at h
        · cases h
          exact hs.goOn trivial
        · split at h
          · cases h
            exact hs.goOn ⟨hbegan, hseen, Nat.le_succ _, hfile⟩
          · cases h
            exact hs.goOn trivial
      · cases h
  | read id object =>
      have hcall := hs.calls id
      rw [LibraryState.step] at h
      split at h
      · rename_i call began seen stamp opened hphase
        rw [hphase] at hcall
        obtain ⟨hbegan, hseen, hopened, hfile⟩ := hcall
        split at h
        · cases h
          exact hs.goOn trivial
        · split at h
          · rename_i hread
            split at h
            · cases h
              exact hs.goOn trivial
            · cases h
              exact hs.goOn ⟨hbegan, hseen, hopened, Nat.le_succ _, hfile, hread.1⟩
          · cases h
      · cases h
  | lookAgain id =>
      have hcall := hs.calls id
      rw [LibraryState.step] at h
      split at h
      · rename_i call began seen stamp opened closed object hphase
        rw [hphase] at hcall
        obtain ⟨hbegan, hopened, hclosed, htime, hfile, hread⟩ := hcall
        split at h
        · cases h
          exact hs.goOn trivial
        · rename_i view hview
          split at h
          · rename_i hsame
            cases h
            refine hs.goOn ⟨hbegan, ?_, hfile, ?_⟩
            · exact Nat.le_succ_of_le (hopened.trans (hclosed.trans htime))
            · exact right_of_lookAgain hstamped hfile hopened hclosed htime hread hview hsame.1
                hsame.2
          · cases h
            exact hs.goOn trivial
      · cases h
  | publish id catalog => exact hs.step_publish h
  | take =>
      rw [LibraryState.step] at h
      split at h
      · cases h
      · split at h
        · cases h
          refine hs.later rfl (Nat.le_succ _) (fun id => .inl rfl) hs.cache hs.documents
            hs.sidecar ?_
          intro persisting hpersisting
          cases hpersisting
          exact hs.cache
        · cases h
          exact hs.later rfl (Nat.le_succ _) (fun id => .inl rfl) hs.cache hs.documents hs.sidecar
            hs.snapshot
  | write done =>
      rw [LibraryState.step] at h
      split at h
      · cases h
      · rename_i persisting hpersisting
        split at h
        · cases h
        · split at h
          · cases h
            have hsnapshot := hs.snapshot persisting hpersisting
            refine hs.later rfl (Nat.le_succ _) (fun id => .inl rfl) hs.cache ?_ ?_ ?_
            · intro document hdocument entry hentry
              rcases List.mem_cons.mp hdocument with rfl | hdocument
              · exact hsnapshot entry hentry
              · exact hs.documents document hdocument entry hentry
            · intro entries hentries entry hentry
              cases hentries
              obtain ⟨written, hwritten, heq⟩ := List.mem_map.mp hentry
              cases heq
              exact hsnapshot entry hwritten
            · intro after hafter
              cases hafter
              exact hsnapshot
          · cases h
            exact hs.later rfl (Nat.le_succ _) (fun id => .inl rfl) hs.cache hs.documents
              hs.sidecar (Known.of_none rfl)
  | settle =>
      rw [LibraryState.step] at h
      split at h
      · cases h
      · split at h
        · cases h
          refine hs.later rfl (Nat.le_succ _) (fun id => .inl rfl) ?_ hs.documents hs.sidecar
            (Known.of_none rfl)
          intro entry hentry
          dsimp only at hentry
          split at hentry
          · exact hs.cache entry hentry
          · exact hs.cache entry hentry
        · cases h
  | tick clock =>
      obtain ⟨_, h⟩ := Option.ite_none_right_eq_some.mp h
      cases h
      exact hs.later rfl (Nat.le_succ _) (fun id => .inl rfl) hs.cache hs.documents hs.sidecar
        hs.snapshot
  | restart sidecar =>
      obtain ⟨hfrom, h⟩ := Option.ite_none_right_eq_some.mp h
      cases h
      refine hs.later rfl (Nat.le_succ _) (fun id => .inr rfl)
        (fun entry hentry => (List.not_mem_nil hentry).elim) hs.documents ?_ (Known.of_none rfl)
      rintro entries rfl entry hentry
      rcases hfrom with heq | hfrom
      · exact hs.sidecar entries heq.symm entry hentry
      · obtain ⟨document, hdocument, hmem⟩ :=
          hfrom entry (List.mem_filterMap.mpr ⟨_, hentry, rfl⟩)
        exact hs.documents document hdocument entry hmem

/-! ### Bounds -/

theorem length_loadedCache_le (h : s.cache.entries.rows.length ≤ rootCacheMaxEntries) :
  s.loadedCache.entries.rows.length ≤ rootCacheMaxEntries
  := by
  unfold LibraryState.loadedCache RootCacheState.ensureLoaded
  split
  · exact h
  · split
    · exact h
    · exact length_loadEntries_le _ _

theorem length_insert_le {state : RootCacheState} {entry : RootCacheEntry}
    (h : state.entries.rows.length ≤ rootCacheMaxEntries) :
  (state.insert entry).entries.rows.length ≤ rootCacheMaxEntries
  := by
  exact length_evict_le ((length_upsert_le _ _).trans (Nat.succ_le_succ h))

/-- What a step makes of the cache: it stays, or is loaded, or an entry is put in, or it is settled,
or the process starts again. -/
inductive CacheStep (env : HashEnv) (s : LibraryState) : LibraryState → Prop
  | same {time clock : ℕ} {calls : ℕ → HashPhase} :
      CacheStep env s { s with time, clock, calls }
  | load {time : ℕ} {calls : ℕ → HashPhase} :
      CacheStep env s { s with cache := s.loadedCache, time, calls }
  | put {call : HashCall} {seen : ℕ} {stamp : FileStamp} {object : ObjectId} {time : ℕ}
      {calls : ℕ → HashPhase} :
      CacheStep env s { s.putRoot env call seen stamp object with time, calls }
  | take {time : ℕ} (idle : s.persisting = none) (dirty : s.cache.dirty = true) :
      CacheStep env s { s with
        time
        persisting := some ⟨s.cache.entries.rows, s.cache.generation, 0, false⟩ }
  | write {persisting : Persisting} {time : ℕ} (taken : s.persisting = some persisting) :
      CacheStep env s { s with
        time
        sidecar := .document (persisting.snapshot.map some)
        documents := persisting.snapshot :: s.documents
        saved := some persisting.since
        persisting := some { persisting with written := true } }
  | drop {persisting : Persisting} {time : ℕ} (taken : s.persisting = some persisting) :
      CacheStep env s { s with time, persisting := none }
  | settle {persisting : Persisting} {time : ℕ} (taken : s.persisting = some persisting)
      (written : persisting.written = true)
      (generation : s.cache.generation = persisting.generation) :
      CacheStep env s { s with
        time, persisting := none, cache := { s.cache with dirty := false } }
  | restart {sidecar : Sidecar} {time : ℕ} :
      CacheStep env s { s with
        time, cache := .new, sidecar, persisting := none, calls := fun _ => .idle, saved := none }

theorem cacheStep {event : LibraryEvent} (h : s.step env files event = some s') :
  CacheStep env s s'
  := by
  cases event with
  | call id call =>
      rw [LibraryState.step] at h
      split at h <;> cases h <;> exact .same
  | look id =>
      rw [LibraryState.step] at h
      split at h
      · split at h
        · cases h
          exact .same
        · split at h <;> cases h <;> exact .same
      · cases h
  | lookup id usable =>
      rw [LibraryState.step] at h
      split at h
      · split at h
        · dsimp only at h
          split at h
          · split at h <;> cases h <;> exact .load
          · cases h
            exact .load
        · cases h
          exact .same
      · cases h
  | openFile id =>
      rw [LibraryState.step] at h
      split at h
      · split at h
        · cases h
          exact .same
        · split at h <;> cases h <;> exact .same
      · cases h
  | read id object =>
      rw [LibraryState.step] at h
      split at h
      · split at h
        · cases h
          exact .same
        · split at h
          · split at h <;> cases h <;> exact .same
          · cases h
      · cases h
  | lookAgain id =>
      rw [LibraryState.step] at h
      split at h
      · split at h
        · cases h
          exact .same
        · split at h <;> cases h <;> exact .same
      · cases h
  | publish id catalog =>
      rw [LibraryState.step] at h
      split at h
      · split at h
        · cases h
          exact .same
        · split at h
          · cases h
            exact .put
          · cases h
            exact .same
      · cases h
  | take =>
      rw [LibraryState.step] at h
      split at h
      · cases h
      · rename_i hidle
        split at h
        · rename_i hdirty
          cases h
          exact .take hidle hdirty
        · cases h
          exact .same
  | write done =>
      rw [LibraryState.step] at h
      split at h
      · cases h
      · rename_i persisting htaken
        split at h
        · cases h
        · split at h
          · cases h
            exact .write htaken
          · cases h
            exact .drop htaken
  | settle =>
      rw [LibraryState.step] at h
      split at h
      · cases h
      · rename_i persisting htaken
        split at h
        · rename_i hwritten
          cases h
          split
          · rename_i hgeneration
            exact .settle htaken hwritten hgeneration
          · exact .drop htaken
        · cases h
  | tick clock =>
      obtain ⟨_, h⟩ := Option.ite_none_right_eq_some.mp h
      cases h
      exact .same
  | restart sidecar =>
      obtain ⟨_, h⟩ := Option.ite_none_right_eq_some.mp h
      cases h
      exact .restart

/-- There are not too many entries. -/
theorem CacheStep.bounded (h : CacheStep env s s')
    (hs : s.cache.entries.rows.length ≤ rootCacheMaxEntries) :
  s'.cache.entries.rows.length ≤ rootCacheMaxEntries
  := by
  cases h with
  | same => exact hs
  | load => exact length_loadedCache_le hs
  | put => exact length_insert_le (length_loadedCache_le hs)
  | take _ _ => exact hs
  | write _ => exact hs
  | drop _ => exact hs
  | settle _ _ _ => exact hs
  | restart => exact Nat.zero_le _

/-! ### The dirty mark -/

/-- Since the file was written with the entries, none was put in, or so many that the generation is
the same again. -/
def Saved (s : LibraryState) (since : ℕ) : Prop :=
  (since = 0 ∧ s.sidecar = .document (s.cache.entries.rows.map some)) ∨ 2 ^ 64 ≤ since

/-- What the dirty mark says. -/
structure Marked (s : LibraryState) : Prop where
  loaded : s.cache.dirty = true ∨ s.saved.isSome = true → s.cache.loaded = true
  taken : ∀ persisting, s.persisting = some persisting → s.cache.dirty = true
    ∧ s.cache.generation = persisting.generation + UInt64.ofNat persisting.since
    ∧ (persisting.since = 0 → persisting.snapshot = s.cache.entries.rows)
    ∧ (persisting.written = true → s.saved = some persisting.since
      ∧ s.sidecar = .document (persisting.snapshot.map some))
  clean : s.cache.dirty = false → ∀ since, s.saved = some since → Saved s since

theorem loadedCache_of_loaded (h : s.cache.loaded = true) :
  s.loadedCache = s.cache
  := by
  unfold LibraryState.loadedCache RootCacheState.ensureLoaded
  rw [if_pos h]

theorem loaded_loadedCache :
  s.loadedCache.loaded = true
  := by
  unfold LibraryState.loadedCache RootCacheState.ensureLoaded
  split
  · assumption
  · split <;> rfl

/-- A generation that is the same again was not changed, or changed very often. -/
theorem since_of_generation {generation : UInt64} {since : ℕ}
    (h : generation = generation + UInt64.ofNat since) :
  since = 0 ∨ 2 ^ 64 ≤ since
  := by
  by_cases hlt : since < 2 ^ 64
  · left
    have hzero : UInt64.ofNat since = 0 := by
      apply (UInt64.add_right_inj generation).mp
      rw [← h, UInt64.add_zero]
    have hnat := congrArg UInt64.toNat hzero
    rwa [UInt64.toNat_ofNat_of_lt' hlt] at hnat
  · exact .inr (Nat.not_lt.mp hlt)

theorem CacheStep.marked (h : CacheStep env s s') (hs : Marked s) :
  Marked s'
  := by
  cases h with
  | same => exact ⟨hs.loaded, hs.taken, hs.clean⟩
  | load =>
      by_cases hloaded : s.cache.loaded = true
      · rw [loadedCache_of_loaded hloaded]
        exact ⟨hs.loaded, hs.taken, hs.clean⟩
      · have hnone : s.saved = none :=
          Option.not_isSome_iff_eq_none.mp fun h => hloaded (hs.loaded (.inr h))
        refine ⟨fun _ => loaded_loadedCache, ?_, ?_⟩
        · intro persisting htaken
          exact absurd (hs.loaded (.inl (hs.taken persisting htaken).1)) hloaded
        · intro _ since hsaved
          rw [show s.saved = some since from hsaved] at hnone
          cases hnone
  | put =>
      refine ⟨fun _ => loaded_loadedCache, ?_, ?_⟩
      · intro after hafter
        obtain ⟨before, hbefore, rfl⟩ := Option.map_eq_some_iff.mp hafter
        obtain ⟨hdirty, hgeneration, -, hwritten⟩ := hs.taken before hbefore
        have hcache := loadedCache_of_loaded (hs.loaded (.inl hdirty))
        refine ⟨rfl, ?_, fun h => absurd h (Nat.succ_ne_zero _), ?_⟩
        · change s.loadedCache.generation + 1
            = before.generation + UInt64.ofNat (before.since + 1)
          rw [hcache, hgeneration, UInt64.ofNat_add, UInt64.add_assoc]
          rfl
        · intro h
          obtain ⟨hsaved, hsidecar⟩ := hwritten h
          refine ⟨?_, hsidecar⟩
          change s.saved.map (· + 1) = _
          rw [hsaved]
          rfl
      · intro hclean
        cases hclean
  | take _ dirty =>
      refine ⟨hs.loaded, ?_, hs.clean⟩
      intro persisting htaken
      cases htaken
      refine ⟨dirty, ?_, fun _ => rfl, fun h => by cases h⟩
      exact (UInt64.add_zero _).symm
  | write taken =>
      obtain ⟨hdirty, hgeneration, hsnapshot, -⟩ := hs.taken _ taken
      refine ⟨fun _ => hs.loaded (.inl hdirty), ?_, ?_⟩
      · intro after hafter
        cases hafter
        exact ⟨hdirty, hgeneration, hsnapshot, fun _ => ⟨rfl, rfl⟩⟩
      · intro hclean
        exact absurd hdirty (by rw [show s.cache.dirty = false from hclean]; decide)
  | drop _ => exact ⟨hs.loaded, fun persisting h => (nomatch h), hs.clean⟩
  | settle taken written generation =>
      obtain ⟨hdirty, hgeneration, hsnapshot, hwritten⟩ := hs.taken _ taken
      obtain ⟨hsaved, hsidecar⟩ := hwritten written
      refine ⟨fun _ => hs.loaded (.inl hdirty), fun persisting h => (nomatch h), ?_⟩
      intro _ since hsince
      rw [show s.saved = some since from hsince, Option.some.injEq] at hsaved
      subst hsaved
      rcases since_of_generation (generation.symm.trans hgeneration) with hzero | hmany
      · refine .inl ⟨hzero, ?_⟩
        change s.sidecar = .document (s.cache.entries.rows.map some)
        rw [hsidecar, hsnapshot hzero]
      · exact .inr hmany
  | restart =>
      refine ⟨?_, fun persisting h => (nomatch h), fun _ since h => (nomatch h)⟩
      rintro (h | h)
      · cases h
      · cases h

/-! ### Runs -/

/-- What holds whenever the cache is used. -/
structure Transparent (env : HashEnv) (files : FileHistory) (s : LibraryState) : Prop where
  returned : ∀ id call began seen object, s.calls id = .returned call began seen object →
    began ≤ seen ∧ seen ≤ s.time ∧ Right env files call.path call.suite seen object
  found : ∀ tenant path stamp root,
    s.loadedCache.lookup tenant (env.display path) stamp = some root →
    ∃ put ∈ s.putIn, put.tenant = tenant ∧ env.display put.path = env.display path
      ∧ put.stamp = stamp ∧ hexEncode put.object.root.1 = root
  bounded : s.cache.entries.rows.length ≤ rootCacheMaxEntries
  fresh : ∀ entry, entry ∈ (s.loadedCache.insert entry).entries.rows
    ↔ (s.loadedCache.entries.upsert entry).rows.length ≤ rootCacheMaxEntries
      ∨ (s.loadedCache.entries.upsert entry).rows.length / 8
        ≤ (s.loadedCache.entries.upsert entry).rows.countP fun other =>
            decide (other.order < entry.order)
  clean : s.cache.dirty = false → ∀ since, s.saved = some since → Saved s since

theorem marked_start (sidecar : Sidecar) :
  Marked (LibraryState.start sidecar)
  := by
  refine ⟨?_, fun persisting h => (nomatch h), fun _ since h => (nomatch h)⟩
  rintro (h | h)
  · cases h
  · cases h

/-- A call returns the object of the file that it looked at, and what is found was put in for the
same tenant and path. -/
theorem root_cache_transparent
    {sidecar : Sidecar} {events : List LibraryEvent} (hstamped : Stamped env files)
    (hsidecar : sidecar.From [])
    (h : Runs.run (LibraryState.step env files) (.start sidecar) events = some s) :
  s.Transparent env files
  := by
  have hgood : s.Good env files :=
    Runs.run_invariant (fun _ _ _ hs hstep => hs.step hstamped hstep)
      (good_start sidecar hsidecar) h
  have hbounded : s.cache.entries.rows.length ≤ rootCacheMaxEntries :=
    Runs.run_invariant (I := fun s => s.cache.entries.rows.length ≤ rootCacheMaxEntries)
      (fun _ _ _ hs hstep => (cacheStep hstep).bounded hs) (Nat.zero_le _) h
  have hmarked : Marked s :=
    Runs.run_invariant (fun _ _ _ hs hstep => (cacheStep hstep).marked hs)
      (marked_start sidecar) h
  refine ⟨?_, ?_, hbounded, ?_, hmarked.clean⟩
  · intro id call began seen object hcall
    have hphase := hgood.calls id
    rw [hcall] at hphase
    exact hphase
  · intro tenant path stamp root hroot
    obtain ⟨entry, hentry, rfl, hpath, rfl, rfl⟩ := RootCacheState.lookup_eq_some hroot
    obtain ⟨put, hput, htenant, hdisplay, hstamp, hhex⟩ := hgood.loadedCache entry hentry
    exact ⟨put, hput, htenant, hdisplay.trans hpath, hstamp, hhex⟩
  · intro entry
    exact mem_evict_iff (Table.mem_upsert.mpr (.inl rfl))

/-! ### Some calls -/

/-- Bytes of ASCII are displayed as they are, and others as the replacement character. -/
def displayAscii (path : LibraryPath) : PathText :=
  ⟨(path.map fun b => if b < 128 then Char.ofNat b.toNat else '\uFFFD').filter (· ≠ '\x00'), by
    intro hmem
    exact of_decide_eq_true (List.mem_filter.mp hmem).2 rfl⟩

/-- The hash of no bytes. -/
def hashOfNone : Suite → {root : List UInt8 // root.length = 32}
  | .blake3 => ⟨[0xaf, 0x13, 0x49, 0xb9, 0xf5, 0xf9, 0xa1, 0xa6, 0xa0, 0x40, 0x4d, 0xea, 0x36, 0xdc,
      0xc9, 0x49, 0x9b, 0xcb, 0x25, 0xc9, 0xad, 0xc1, 0x12, 0xb7, 0xcc, 0x9a, 0x93, 0xca, 0xe4,
      0x1f, 0x32, 0x62], rfl⟩
  | .sha256 => ⟨[0xe3, 0xb0, 0xc4, 0x42, 0x98, 0xfc, 0x1c, 0x14, 0x9a, 0xfb, 0xf4, 0xc8, 0x99, 0x6f,
      0xb9, 0x24, 0x27, 0xae, 0x41, 0xe4, 0x64, 0x9b, 0x93, 0x4c, 0xa4, 0x95, 0x99, 0x1b, 0x78,
      0x52, 0xb8, 0x55], rfl⟩

def emptyEnv : HashEnv := ⟨displayAscii, fun suite _ => hashOfNone suite, 2 ^ 40⟩

/-- Every path leads to the same file, which is empty. -/
def emptyFiles : FileHistory := fun _ _ => some ⟨true, 0, some (1, 2, 3, 4), []⟩

def emptyStamp : FileStamp := ⟨0, 0, some (1, 2, 3, 4)⟩

def emptyObject : ObjectId := emptyEnv.objectOf .blake3 []

/-- The call for a path. -/
def callOf (path : LibraryPath) : HashCall := ⟨"acme".toList, path, 1, none⟩

/-- A call that looks for the root of a path. -/
def asked (id : ℕ) (path : LibraryPath) : List LibraryEvent :=
  [.call id (callOf path), .look id, .lookup id true]

/-- A call that reads the file at a path. -/
def asRead (id : ℕ) (path : LibraryPath) : List LibraryEvent :=
  asked id path
    ++ [.openFile id, .read id (some emptyObject), .lookAgain id, .publish id true]

theorem stamped_emptyFiles :
  Stamped emptyEnv emptyFiles
  := by
  constructor
  · intro t t' path path' view view' h h' _ _ _ _
    cases h
    cases h'
    rfl
  · intro t t' path view view' h _ _ _ _ u _ _
    cases h
    rfl

/-- A file is read once, and found the second time. -/
theorem root_cache_transparent_twice :
  ∃ s, Runs.run (LibraryState.step emptyEnv emptyFiles) (.start .unreadable)
      (asRead 0 [97] ++ asked 1 [97]) = some s
    ∧ s.calls 1 = .returned (callOf [97]) 7 8 emptyObject
    ∧ s.Transparent emptyEnv emptyFiles
  := by
  obtain ⟨s, hs⟩ := Option.isSome_iff_exists.mp
    (show ((Runs.run (LibraryState.step emptyEnv emptyFiles) (.start .unreadable)
      (asRead 0 [97] ++ asked 1 [97])).filter fun s =>
        decide (s.calls 1 = .returned (callOf [97]) 7 8 emptyObject)).isSome = true
      by decide +kernel)
  obtain ⟨hrun, hcall⟩ := Option.filter_eq_some_iff.mp hs
  refine ⟨s, hrun, of_decide_eq_true hcall, ?_⟩
  have hsidecar : Sidecar.unreadable.From [] := trivial
  exact root_cache_transparent stamped_emptyFiles hsidecar hrun

theorem readAs_emptyFiles {call : HashCall} {opened closed : ℕ} (h : call.suite = .blake3) :
  readAs emptyEnv emptyFiles call opened closed emptyObject
  := by
  intro content hcontent _
  cases hcontent
  rw [h]
  rfl

/-- The root that is put in for a path. -/
def emptyEntry (path : LibraryPath) (clock : ℕ) : RootCacheEntry :=
  ⟨"acme".toList, displayAscii path, emptyStamp, hexEncode (hashOfNone .blake3).1, clock⟩

/-- A call that finds nothing reads the file and puts its root in. -/
theorem run_asRead
    {s : LibraryState} {path : LibraryPath}
    (hidle : s.calls 0 = .idle
      ∨ ∃ call began seen object, s.calls 0 = .returned call began seen object)
    (hmiss : s.loadedCache.lookup (callOf path).tenant (emptyEnv.display (callOf path).path)
      emptyStamp = none) :
  ∃ s', Runs.run (LibraryState.step emptyEnv emptyFiles) s (asRead 0 path) = some s'
    ∧ s'.cache = s.loadedCache.insert (emptyEntry path s.clock)
    ∧ s'.clock = s.clock
    ∧ ∃ began seen, s'.calls 0
      = .returned (callOf path) began seen emptyObject
  := by
  have hcall : s.step emptyEnv emptyFiles (.call 0 (callOf path))
      = some (s.goOn 0 (.called (callOf path) s.time)) := by
    rcases hidle with h | ⟨call, began, seen, object, h⟩
    · simp only [step, h]
    · simp only [step, h]
  have hlook : ∀ t : LibraryState, t.calls 0 = .called (callOf path) s.time →
      t.step emptyEnv emptyFiles (.look 0)
        = some (t.goOn 0 (.looked (callOf path) s.time t.time emptyStamp)) := by
    intro t h
    simp only [step, h]
    rfl
  have hlookup : ∀ t : LibraryState,
      t.calls 0 = .looked (callOf path) s.time (s.time + 1) emptyStamp →
      t.loadedCache = s.loadedCache →
      t.step emptyEnv emptyFiles (.lookup 0 true)
        = some ({ t with cache := s.loadedCache }.goOn 0
            (.missed (callOf path) s.time (s.time + 1) emptyStamp)) := by
    intro t h hcache
    simp only [step, h, hcache, hmiss]
    rfl
  have hopen : ∀ t : LibraryState,
      t.calls 0 = .missed (callOf path) s.time (s.time + 1) emptyStamp →
      t.step emptyEnv emptyFiles (.openFile 0)
        = some (t.goOn 0 (.reading (callOf path) s.time (s.time + 1) emptyStamp t.time)) := by
    intro t h
    simp only [step, h]
    rfl
  have hread : ∀ (t : LibraryState) (opened : ℕ),
      t.calls 0 = .reading (callOf path) s.time (s.time + 1) emptyStamp opened →
      t.step emptyEnv emptyFiles (.read 0 (some emptyObject))
        = some (t.goOn 0 (.hashed (callOf path) s.time (s.time + 1) emptyStamp opened t.time
            emptyObject)) := by
    intro t opened h
    simp only [step, h]
    rw [if_pos ⟨readAs_emptyFiles rfl, rfl⟩]
    rfl
  have hlookAgain : ∀ (t : LibraryState) (opened closed : ℕ),
      t.calls 0
        = .hashed (callOf path) s.time (s.time + 1) emptyStamp opened closed emptyObject →
      t.step emptyEnv emptyFiles (.lookAgain 0)
        = some (t.goOn 0 (.checked (callOf path) s.time (s.time + 1) emptyStamp
            emptyObject)) := by
    intro t opened closed h
    simp only [step, h]
    rfl
  have hpublish : ∀ t : LibraryState,
      t.calls 0 = .checked (callOf path) s.time (s.time + 1) emptyStamp emptyObject →
      t.step emptyEnv emptyFiles (.publish 0 true)
        = some ((t.putRoot emptyEnv (callOf path) (s.time + 1) emptyStamp emptyObject).goOn 0
            (.returned (callOf path) s.time (s.time + 1) emptyObject)) := by
    intro t h
    simp only [step, h]
    rfl
  unfold asRead asked
  simp only [List.cons_append, List.nil_append, Runs.run_cons, Runs.run_nil]
  refine ⟨_, ⟨_, hcall, _, hlook _ rfl, _, hlookup _ rfl rfl, _, hopen _ rfl, _, hread _ _ rfl,
    _, hlookAgain _ _ _ rfl, _, hpublish _ rfl, rfl⟩, ?_, rfl, s.time, s.time + 1, rfl⟩
  change (loadedCache { s with cache := s.loadedCache }).insert _ = _
  rw [loadedCache_of_loaded loaded_loadedCache]
  rfl

/-- The path of as many letters. -/
def letters (n : ℕ) : LibraryPath := List.replicate (n + 1) 97

/-- Calls that read as many files. -/
def filled (n : ℕ) : List LibraryEvent := (List.range n).flatMap fun i => asRead 0 (letters i)

theorem displayAscii_letters (n : ℕ) :
  (displayAscii (letters n)).1 = List.replicate (n + 1) 'a'
  := by
  unfold displayAscii letters
  dsimp only
  rw [List.map_replicate]
  have hletter : (if (97 : UInt8) < 128 then Char.ofNat (97 : UInt8).toNat else '\uFFFD') = 'a' :=
    rfl
  rw [hletter, List.filter_eq_self]
  intro c hc
  rw [List.eq_of_mem_replicate hc]
  rfl

theorem displayAscii_letters_inj
    {n n' : ℕ} (h : displayAscii (letters n) = displayAscii (letters n')) :
  n = n'
  := by
  have hlength := congrArg (fun path : PathText => path.1.length) h
  simp only [displayAscii_letters, List.length_replicate] at hlength
  omega

/-- Every file that was read is in the cache. -/
theorem run_filled {n : ℕ} (h : n ≤ rootCacheMaxEntries) :
  ∃ s, Runs.run (LibraryState.step emptyEnv emptyFiles) (.start .unreadable) (filled n) = some s
    ∧ s.loadedCache.entries.rows = ((List.range n).map fun i => emptyEntry (letters i) 0).reverse
    ∧ s.clock = 0
    ∧ (s.calls 0 = .idle ∨ ∃ call began seen object, s.calls 0 = .returned call began seen object)
  := by
  induction n with
  | zero => exact ⟨_, rfl, rfl, rfl, .inl rfl⟩
  | succ n ih =>
      obtain ⟨s, hrun, hrows, hclock, hidle⟩ := ih (Nat.le_of_succ_le h)
      have hfresh : ∀ entry ∈ s.loadedCache.entries.rows,
          entry.key ≠ (emptyEntry (letters n) 0).key := by
        intro entry hentry heq
        rw [hrows, List.mem_reverse] at hentry
        obtain ⟨i, hi, rfl⟩ := List.mem_map.mp hentry
        have hpath := (cacheKey_inj heq).2
        rw [displayAscii_letters_inj hpath] at hi
        exact List.not_mem_range_self hi
      have hmiss : s.loadedCache.lookup (callOf (letters n)).tenant
          (emptyEnv.display (callOf (letters n)).path) emptyStamp = none := by
        exact RootCacheState.lookup_of_fresh hfresh
      obtain ⟨s', hrun', hcache, hclock', began, seen, hcall⟩ := run_asRead hidle hmiss
      refine ⟨s', ?_, ?_, hclock'.trans hclock, .inr ⟨_, _, _, _, hcall⟩⟩
      · rw [filled, List.range_succ, List.flatMap_append, Runs.run_append]
        exact ⟨s, hrun, by simpa using hrun'⟩
      · have hloaded : s'.cache.loaded = true := by
          rw [hcache]
          exact loaded_loadedCache
        have hupsert : (s.loadedCache.entries.upsert (emptyEntry (letters n) 0)).rows
            = emptyEntry (letters n) 0 :: s.loadedCache.entries.rows := by
          exact rows_upsert_of_fresh hfresh
        have hlength : (s.loadedCache.entries.upsert (emptyEntry (letters n) 0)).rows.length
            ≤ rootCacheMaxEntries := by
          rw [hupsert, hrows, List.length_cons, List.length_reverse, List.length_map,
            List.length_range]
          exact h
        rw [loadedCache_of_loaded hloaded, hcache, hclock, RootCacheState.insert]
        dsimp only
        rw [evict, if_neg (Nat.not_lt.mpr hlength), hupsert, hrows, List.range_succ,
          List.map_append, List.reverse_append]
        rfl

/-- The root of a file that was read is dropped at once, although no second has passed. -/
theorem fresh_evicted :
  ∃ s, Runs.run (LibraryState.step emptyEnv emptyFiles) (.start .unreadable)
      (filled rootCacheMaxEntries ++ asRead 0 [65]) = some s
    ∧ (∃ began seen, s.calls 0 = .returned (callOf [65]) began seen emptyObject)
    ∧ emptyEntry [65] 0 ∉ s.cache.entries.rows
  := by
  obtain ⟨s, hrun, hrows, hclock, hidle⟩ := run_filled le_rfl
  have hfirst : ∀ entry ∈ s.loadedCache.entries.rows,
      (emptyEntry [65] 0).order < entry.order := by
    intro entry hentry
    rw [hrows, List.mem_reverse] at hentry
    obtain ⟨i, hi, rfl⟩ := List.mem_map.mp hentry
    refine Prod.Lex.toLex_lt_toLex.mpr (.inr ⟨rfl, ?_⟩)
    change "acme".toList ++ '\x00' :: (displayAscii [65]).1
      < "acme".toList ++ '\x00' :: (displayAscii (letters i)).1
    rw [displayAscii_letters]
    apply List.append_left_lt
    exact .cons (.rel (by decide))
  have hfresh : ∀ entry ∈ s.loadedCache.entries.rows, entry.key ≠ (emptyEntry [65] 0).key := by
    intro entry hentry heq
    have hlt := hfirst entry hentry
    rw [hrows, List.mem_reverse] at hentry
    obtain ⟨i, hi, rfl⟩ := List.mem_map.mp hentry
    rw [RootCacheEntry.order, RootCacheEntry.order, heq] at hlt
    exact lt_irrefl _ hlt
  have hmiss : s.loadedCache.lookup (callOf [65]).tenant
      (emptyEnv.display (callOf [65]).path) emptyStamp = none := by
    exact RootCacheState.lookup_of_fresh hfresh
  obtain ⟨s', hrun', hcache, hclock', hcall⟩ := run_asRead hidle hmiss
  refine ⟨s', (Runs.run_append _).mpr ⟨s, hrun, hrun'⟩, hcall, ?_⟩
  rw [hcache, hclock, RootCacheState.insert, mem_evict_iff (Table.mem_upsert.mpr (.inl rfl))]
  have hupsert : (s.loadedCache.entries.upsert (emptyEntry [65] 0)).rows
      = emptyEntry [65] 0 :: s.loadedCache.entries.rows := by
    exact rows_upsert_of_fresh hfresh
  have hnone : (emptyEntry [65] 0 :: s.loadedCache.entries.rows).countP
      (fun other => decide (other.order < (emptyEntry [65] 0).order)) = 0 := by
    rw [List.countP_eq_zero]
    intro entry hentry hlt
    rcases List.mem_cons.mp hentry with rfl | hentry
    · exact lt_irrefl _ (of_decide_eq_true hlt)
    · exact lt_asymm (hfirst entry hentry) (of_decide_eq_true hlt)
  rw [hupsert, hnone, hrows, List.length_cons, List.length_reverse, List.length_map,
    List.length_range]
  decide

/-- The root of a file that was read long ago. -/
def agedEvents : List LibraryEvent :=
  asRead 0 [97] ++ [.take, .write true, .settle, .tick (rootCacheMaxAgeSecs + 1),
    .restart (.document [some (emptyEntry [97] 0)])] ++ asked 0 [97]

/-- The roots of the bytes zero and one. -/
def rootOfZero : {root : List UInt8 // root.length = 32} :=
  ⟨[0x2d, 0x3a, 0xde, 0xdf, 0xf1, 0x1b, 0x61, 0xf1, 0x4c, 0x88, 0x6e, 0x35, 0xaf, 0xa0, 0x36, 0x73,
    0x6d, 0xcd, 0x87, 0xa7, 0x4d, 0x27, 0xb5, 0xc1, 0x51, 0x02, 0x25, 0xd0, 0xf5, 0x92, 0xe2, 0x13],
    rfl⟩

def rootOfOne : {root : List UInt8 // root.length = 32} :=
  ⟨[0x48, 0xfc, 0x72, 0x1f, 0xbb, 0xc1, 0x72, 0xe0, 0x92, 0x5f, 0xa2, 0x7a, 0xf1, 0x67, 0x1d, 0xe2,
    0x25, 0xba, 0x92, 0x71, 0x34, 0x80, 0x29, 0x98, 0xb1, 0x0a, 0x15, 0x68, 0xa1, 0x88, 0x65, 0x2b],
    rfl⟩

def byteEnv : HashEnv where
  display := displayAscii
  hash suite content :=
    if content = [0] then rootOfZero else if content = [1] then rootOfOne else hashOfNone suite
  maxObjectLength := 2 ^ 40

/-- A file of the byte zero, which is the byte one while it is read, with another stamp, and then
is what it was. -/
def flickeringFiles : FileHistory := fun time _ =>
  if time = 3 ∨ time = 4 then some ⟨true, 8, some (1, 2, 4, 4), [1]⟩
  else some ⟨true, 7, some (1, 2, 3, 4), [0]⟩

/-- A call that reads the flickering file, and one that asks for its root. -/
def flickeringEvents : List LibraryEvent :=
  asked 0 [97] ++ [.openFile 0, .read 0 (some (byteEnv.objectOf .blake3 [1])), .lookAgain 0,
    .publish 0 true] ++ asked 1 [97]

theorem stampedApart_flickeringFiles :
  StampedApart byteEnv flickeringFiles
  := by
  intro t t' path path' view view' h h' _ _ _ hstamp
  rw [flickeringFiles] at h h'
  split_ifs at h h'
  · cases h
    cases h'
    rfl
  · cases h
    cases h'
    cases hstamp
  · cases h
    cases h'
    cases hstamp
  · cases h
    cases h'
    rfl

/-- A clean cache is without the old entries of the file, a root that was just put in is dropped,
a root is found for a path that it was not put in for, and the root of bytes is found that the file
does not have when the call begins, looks at it and returns. -/
theorem root_cache_not_exact :
  (∃ s, Runs.run (LibraryState.step emptyEnv emptyFiles) (.start .unreadable) agedEvents = some s
      ∧ s.cache.loaded = true ∧ s.cache.dirty = false ∧ s.cache.entries.rows = []
      ∧ s.sidecar = .document [some (emptyEntry [97] 0)])
    ∧ (∃ s, Runs.run (LibraryState.step emptyEnv emptyFiles) (.start .unreadable)
          (filled rootCacheMaxEntries ++ asRead 0 [65]) = some s
        ∧ (∃ began seen,
            s.calls 0 = .returned (callOf [65]) began seen emptyObject)
        ∧ emptyEntry [65] 0 ∉ s.cache.entries.rows)
    ∧ (∃ s, Runs.run (LibraryState.step emptyEnv emptyFiles) (.start .unreadable)
          (asRead 0 [255] ++ asked 1 [254]) = some s
        ∧ s.calls 1 = .returned (callOf [254]) 7 8 emptyObject
        ∧ s.putIn.map PutIn.path = [[255]])
    ∧ StampedApart byteEnv flickeringFiles
    ∧ ∃ s, Runs.run (LibraryState.step byteEnv flickeringFiles) (.start .unreadable)
          flickeringEvents = some s
        ∧ s.calls 1 = .returned (callOf [97]) 7 8 (byteEnv.objectOf .blake3 [1])
        ∧ ∀ time ∈ [7, 8, 9], contentAt flickeringFiles time [97] = some [0]
  := by
  refine ⟨?_, fresh_evicted, ?_, stampedApart_flickeringFiles, ?_⟩
  · obtain ⟨s, hs⟩ := Option.isSome_iff_exists.mp
      (show ((Runs.run (LibraryState.step emptyEnv emptyFiles) (.start .unreadable)
        agedEvents).filter fun s =>
          decide (s.cache.loaded = true ∧ s.cache.dirty = false ∧ s.cache.entries.rows = []
            ∧ s.sidecar = .document [some (emptyEntry [97] 0)])).isSome = true
        by decide +kernel)
    obtain ⟨hrun, hcall⟩ := Option.filter_eq_some_iff.mp hs
    exact ⟨s, hrun, of_decide_eq_true hcall⟩
  · obtain ⟨s, hs⟩ := Option.isSome_iff_exists.mp
      (show ((Runs.run (LibraryState.step emptyEnv emptyFiles) (.start .unreadable)
        (asRead 0 [255] ++ asked 1 [254])).filter fun s =>
          decide (s.calls 1 = .returned (callOf [254]) 7 8 emptyObject
            ∧ s.putIn.map PutIn.path = [[255]])).isSome = true by decide +kernel)
    obtain ⟨hrun, hcall⟩ := Option.filter_eq_some_iff.mp hs
    exact ⟨s, hrun, of_decide_eq_true hcall⟩
  · obtain ⟨s, hs⟩ := Option.isSome_iff_exists.mp
      (show ((Runs.run (LibraryState.step byteEnv flickeringFiles) (.start .unreadable)
        flickeringEvents).filter fun s =>
          decide (s.calls 1 = .returned (callOf [97]) 7 8 (byteEnv.objectOf .blake3 [1]))).isSome
            = true by decide +kernel)
    obtain ⟨hrun, hcall⟩ := Option.filter_eq_some_iff.mp hs
    exact ⟨s, hrun, of_decide_eq_true hcall, by decide⟩

end LibraryState

end Votport.Library
