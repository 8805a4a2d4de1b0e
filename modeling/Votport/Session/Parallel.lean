import Mathlib.Data.List.Sort
import Mathlib.Data.PNat.Defs
import Votport.Foundation.Fallible
import Votport.Foundation.Runs

/-!
# Files that are prepared together

The files of a session are prepared by some workers, each with a chunk of the entries.  A worker
that fails stops the others.  Whatever the order of their steps, the files come out in the order
of the entries, or some entry's error does.
-/

namespace Votport

open Runs

variable {α β ε : Type}

/-- What a worker of `prepare_parallel` does next. -/
inductive ParallelStep (α β ε : Type)
  /-- It looks whether the others have stopped. -/
  | checking (files : List β) (rest : List α)
  /-- It prepares an entry. -/
  | preparing (files : List β) (entry : α) (rest : List α)
  /-- It stops the others. -/
  | failing (error : ε)
  | returned (result : Except ε (List β))

/-- The workers, and the flag that they share. -/
structure Parallel (α β ε : Type) where
  stopped : Bool
  workers : List (ParallelStep α β ε)

/-- One step of a worker, and the flag after it. -/
def stepWorker (prepare : α → Except ε β) (stopped : Bool) :
    ParallelStep α β ε → Option (Bool × ParallelStep α β ε)
  | .checking files [] => some (stopped, .returned (.ok files))
  | .checking files (entry :: rest) =>
      if stopped then some (stopped, .returned (.ok files))
      else some (stopped, .preparing files entry rest)
  | .preparing files entry rest =>
      match prepare entry with
      | .ok file => some (stopped, .checking (files ++ [file]) rest)
      | .error error => some (stopped, .failing error)
  | .failing error => some (true, .returned (.error error))
  | .returned _ => none

/-- The next step of the worker with a number. -/
def Parallel.step (prepare : α → Except ε β) (state : Parallel α β ε) (worker : ℕ) :
    Option (Parallel α β ε) := do
  let next ← state.workers[worker]?
  let (stopped, next) ← stepWorker prepare state.stopped next
  return { stopped, workers := state.workers.set worker next }

/-- The workers before their first steps. -/
def Parallel.start (works : List (List α)) : Parallel α β ε where
  stopped := false
  workers := works.map (.checking [])

/-- What a worker that is joined gives. -/
def ParallelStep.result : ParallelStep α β ε → Option (Except ε (List β))
  | .returned result => some result
  | _ => none

/-- What is collected when all workers are joined. -/
def Parallel.outcome (state : Parallel α β ε) : Option (Except ε (List β)) :=
  (state.workers.mapM ParallelStep.result).map fun results => (results.mapM id).map List.flatten

/-- The chunk of entries with a number, each with its place in the manifest. -/
def chunkAt (size : ℕ) (entries : List α) (chunkIndex : ℕ) : List (α × ℕ) :=
  ((entries.drop (chunkIndex * size)).take size).zipIdx (chunkIndex * size)

/-- `div_ceil`. -/
def divCeil (n size : ℕ) : ℕ := (n + size - 1) / size

/-- The chunks of the entries. -/
def indexedChunks (size : ℕ) (entries : List α) : List (List (α × ℕ)) :=
  (List.range (divCeil entries.length size)).map (chunkAt size entries)

/-- The entries one after the other. -/
def prepareSequential (prepare : ℕ → α → Except ε β) (entries : List α) : Except ε (List β) :=
  entries.zipIdx.mapM fun entry => prepare entry.2 entry.1

/-- What `prepare_parallel` can return with so many workers, eight in the source, in some order of
their steps. -/
inductive PrepareParallel (batch : ℕ+) (prepare : ℕ → α → Except ε β) (entries : List α) :
    Except ε (List β) → Prop
  | few : entries.length < batch * 2 →
      PrepareParallel batch prepare entries (prepareSequential prepare entries)
  | many {schedule state result} : ¬entries.length < batch * 2 →
      run (Parallel.step fun entry : α × ℕ => prepare entry.2 entry.1)
        (.start (indexedChunks (divCeil entries.length batch) entries)) schedule = some state →
      state.outcome = some result →
      PrepareParallel batch prepare entries result

/-! ### Chunks -/

theorem le_divCeil_mul {n size : ℕ} (hsize : 0 < size) :
  n ≤ divCeil n size * size
  := by
  have hdiv := Nat.div_add_mod (n + size - 1) size
  have hmod := Nat.mod_lt (n + size - 1) hsize
  rw [Nat.mul_comm] at hdiv
  unfold divCeil
  omega

/-- The first chunks are the first entries. -/
theorem flatten_chunks (size : ℕ) (entries : List α) (count : ℕ) :
  ((List.range count).map (chunkAt size entries)).flatten = (entries.take (count * size)).zipIdx
  := by
  induction count with
  | zero => simp
  | succ count ih =>
      rw [List.range_succ, List.map_append, List.flatten_append, ih, List.map_singleton,
        List.flatten_singleton, chunkAt, Nat.succ_mul, List.take_add, List.zipIdx_append,
        Nat.zero_add]
      by_cases hle : count * size ≤ entries.length
      · rw [List.length_take_of_le hle]
      · have hdrop : entries.drop (count * size) = [] := List.drop_eq_nil_of_le (by omega)
        rw [hdrop, List.take_nil]
        rfl

theorem flatten_indexedChunks {size : ℕ} (hsize : 0 < size) (entries : List α) :
  (indexedChunks size entries).flatten = entries.zipIdx
  := by
  rw [indexedChunks, flatten_chunks, List.take_of_length_le (le_divCeil_mul hsize)]

/-! ### Workers -/

variable {prepare : α → Except ε β}

/-- What is known of a worker with its chunk. -/
def WorkerOk (prepare : α → Except ε β) (stopped : Bool) (work : List α) :
    ParallelStep α β ε → Prop
  | .checking files rest => ∃ taken, work = taken ++ rest ∧ taken.map prepare = files.map .ok
  | .preparing files entry rest =>
      ∃ taken, work = taken ++ entry :: rest ∧ taken.map prepare = files.map .ok
  | .failing error => ∃ entry ∈ work, prepare entry = .error error
  | .returned (.ok files) => work.map prepare = files.map .ok ∨ stopped = true
  | .returned (.error error) => ∃ entry ∈ work, prepare entry = .error error

/-- What is known of the workers. -/
structure ParallelOk (prepare : α → Except ε β) (works : List (List α))
    (state : Parallel α β ε) : Prop where
  length : state.workers.length = works.length
  workers : ∀ (i : ℕ) work worker, works[i]? = some work → state.workers[i]? = some worker →
    WorkerOk prepare state.stopped work worker
  stopped : state.stopped = true →
    ∃ (i : ℕ) (error : ε), state.workers[i]? = some (.returned (.error error))

theorem WorkerOk.mono {stopped stopped' : Bool} {work : List α} {worker : ParallelStep α β ε}
    (hle : stopped = true → stopped' = true) (h : WorkerOk prepare stopped work worker) :
  WorkerOk prepare stopped' work worker
  := by
  match worker, h with
  | .checking _ _, h => exact h
  | .preparing _ _ _, h => exact h
  | .failing _, h => exact h
  | .returned (.ok _), h => exact h.imp_right hle
  | .returned (.error _), h => exact h

/-- What one step of a worker does. -/
theorem WorkerOk.step {stopped stopped' : Bool} {work : List α}
    {worker worker' : ParallelStep α β ε}
    (h : WorkerOk prepare stopped work worker)
    (hstep : stepWorker prepare stopped worker = some (stopped', worker')) :
  WorkerOk prepare stopped' work worker' ∧ (stopped = true → stopped' = true)
    ∧ (stopped' = true → stopped = true ∨ ∃ error, worker' = .returned (.error error))
  := by
  match worker with
  | .checking files [] =>
      obtain ⟨rfl, rfl⟩ := Prod.mk.inj (Option.some.inj hstep)
      obtain ⟨taken, rfl, htaken⟩ := h
      rw [List.append_nil]
      exact ⟨Or.inl htaken, id, Or.inl⟩
  | .checking files (entry :: rest) =>
      rw [stepWorker] at hstep
      split at hstep
      · obtain ⟨rfl, rfl⟩ := Prod.mk.inj (Option.some.inj hstep)
        rename_i hstopped
        exact ⟨Or.inr hstopped, id, Or.inl⟩
      · obtain ⟨rfl, rfl⟩ := Prod.mk.inj (Option.some.inj hstep)
        exact ⟨h, id, Or.inl⟩
  | .preparing files entry rest =>
      obtain ⟨taken, rfl, htaken⟩ := h
      rw [stepWorker] at hstep
      cases hprepare : prepare entry with
      | ok file =>
          rw [hprepare] at hstep
          obtain ⟨rfl, rfl⟩ := Prod.mk.inj (Option.some.inj hstep)
          refine ⟨⟨taken ++ [entry], by simp, ?_⟩, id, Or.inl⟩
          rw [List.map_append, List.map_append, htaken, List.map_singleton, hprepare,
            List.map_singleton]
      | error error =>
          rw [hprepare] at hstep
          obtain ⟨rfl, rfl⟩ := Prod.mk.inj (Option.some.inj hstep)
          exact ⟨⟨entry, by simp, hprepare⟩, id, Or.inl⟩
  | .failing error =>
      obtain ⟨rfl, rfl⟩ := Prod.mk.inj (Option.some.inj hstep)
      exact ⟨h, fun _ => rfl, fun _ => Or.inr ⟨error, rfl⟩⟩
  | .returned _ => cases hstep

theorem preparationOk_start (works : List (List α)) :
  ParallelOk prepare works (.start works)
  := by
  refine ⟨by simp [Parallel.start], ?_, by simp [Parallel.start]⟩
  intro i work worker hwork hworker
  rw [Parallel.start, List.getElem?_map, hwork] at hworker
  obtain rfl := Option.some.inj hworker
  exact ⟨[], rfl, rfl⟩

theorem step_eq_some {state state' : Parallel α β ε} {worker : ℕ}
    (h : state.step prepare worker = some state') :
  ∃ next stopped' next', state.workers[worker]? = some next
    ∧ stepWorker prepare state.stopped next = some (stopped', next')
    ∧ state' = { stopped := stopped', workers := state.workers.set worker next' }
  := by
  obtain ⟨next, hnext, h⟩ := Option.bind_eq_some_iff.mp h
  obtain ⟨⟨stopped', next'⟩, hstep, h⟩ := Option.bind_eq_some_iff.mp h
  exact ⟨next, stopped', next', hnext, hstep, (Option.some.inj h).symm⟩

variable {works : List (List α)}

/-- A step of any worker. -/
theorem ParallelOk.step {state state' : Parallel α β ε} {worker : ℕ}
    (h : ParallelOk prepare works state) (hstep : state.step prepare worker = some state') :
  ParallelOk prepare works state'
  := by
  obtain ⟨next, stopped', next', hnext, hworker, rfl⟩ := step_eq_some hstep
  have hlt : worker < state.workers.length := (List.getElem?_eq_some_iff.mp hnext).1
  have hwork := List.getElem?_eq_getElem (h.length ▸ hlt)
  obtain ⟨hok, hle, hstopped⟩ := (h.workers worker _ next hwork hnext).step hworker
  refine ⟨by rw [List.length_set, h.length], ?_, ?_⟩
  · intro i work other hi hother
    by_cases heq : worker = i
    · subst heq
      rw [List.getElem?_set_self hlt] at hother
      obtain rfl := Option.some.inj hother
      rw [hwork] at hi
      obtain rfl := Option.some.inj hi
      exact hok
    · rw [List.getElem?_set_ne heq] at hother
      exact (h.workers i work other hi hother).mono hle
  · intro htrue
    obtain hbefore | ⟨error, rfl⟩ := hstopped htrue
    · obtain ⟨i, error, hi⟩ := h.stopped hbefore
      have hne : worker ≠ i := by
        rintro rfl
        rw [hnext] at hi
        obtain rfl := Option.some.inj hi
        cases hworker
      exact ⟨i, error, (List.getElem?_set_ne hne).trans hi⟩
    · exact ⟨worker, error, List.getElem?_set_self hlt⟩

theorem parallelOk_run {schedule : List ℕ} {state : Parallel α β ε}
    (h : run (Parallel.step prepare) (.start works) schedule = some state) :
  ParallelOk prepare works state
  := run_invariant (fun _ _ _ hs hstep => hs.step hstep) (preparationOk_start works) h

/-! ### What is collected -/

theorem eq_map_of_results {workers : List (ParallelStep α β ε)} {results : List (Except ε (List β))}
    (h : workers.mapM ParallelStep.result = some results) :
  workers = results.map .returned
  := by
  induction workers generalizing results with
  | nil =>
      obtain rfl := Option.some.inj h
      rfl
  | cons worker workers ih =>
      rw [List.mapM_cons] at h
      obtain ⟨result, hresult, h⟩ := Option.bind_eq_some_iff.mp h
      obtain ⟨rest, hrest, h⟩ := Option.bind_eq_some_iff.mp h
      obtain rfl := Option.some.inj h
      match worker, hresult with
      | .returned _, hresult =>
          obtain rfl := Option.some.inj hresult
          rw [List.map_cons, ← ih hrest]

theorem mem_of_mapM_id {results : List (Except ε β)} {error : ε}
    (h : results.mapM id = .error error) :
  .error error ∈ results
  := by
  induction results with
  | nil => cases h
  | cons result results ih =>
      rw [List.mapM_cons] at h
      cases result with
      | error error' =>
          obtain rfl := Except.error.inj h
          exact List.mem_cons_self ..
      | ok value =>
          cases hrest : results.mapM id with
          | error error' =>
              rw [hrest] at h
              obtain rfl := Except.error.inj h
              exact List.mem_cons_of_mem _ (ih hrest)
          | ok values =>
              rw [hrest] at h
              cases h

/-- When all workers are joined, all files have come out or some entry's error has. -/
theorem ParallelOk.outcome {state : Parallel α β ε} {result : Except ε (List β)}
    (h : ParallelOk prepare works state) (hresult : state.outcome = some result) :
  (∃ files, result = .ok files ∧ works.flatten.map prepare = files.map .ok)
    ∨ ∃ error, result = .error error ∧ ∃ entry ∈ works.flatten, prepare entry = .error error
  := by
  obtain ⟨results, hresults, rfl⟩ := Option.map_eq_some_iff.mp hresult
  have hworkers := eq_map_of_results hresults
  have hlength : results.length = works.length := by
    rw [← h.length, hworkers, List.length_map]
  cases hcollect : results.mapM id with
  | ok chunks =>
      left
      refine ⟨chunks.flatten, rfl, ?_⟩
      have hchunks : results = chunks.map .ok := by
        have hmap := Fallible.map_of_mapM_eq_ok hcollect
        rwa [List.map_id] at hmap
      rw [hchunks, List.length_map] at hlength
      have hnot : ¬state.stopped = true := by
        intro hstopped
        obtain ⟨i, error, hi⟩ := h.stopped hstopped
        rw [hworkers, hchunks, List.map_map] at hi
        obtain ⟨chunk, _, heq⟩ := List.mem_map.mp (List.mem_of_getElem? hi)
        cases heq
      have heach : works.map (List.map prepare) = chunks.map (List.map .ok) := by
        apply List.ext_getElem (by rw [List.length_map, List.length_map, hlength])
        intro i hi hi'
        rw [List.length_map] at hi hi'
        have hworker : state.workers[i]? = some (.returned (.ok chunks[i])) := by
          rw [hworkers, hchunks, List.map_map, List.getElem?_map, List.getElem?_eq_getElem hi']
          rfl
        have hok := h.workers i _ _ (List.getElem?_eq_getElem hi) hworker
        rw [List.getElem_map, List.getElem_map]
        exact hok.resolve_right hnot
      rw [List.map_flatten, List.map_flatten, heach]
  | error error =>
      right
      refine ⟨error, rfl, ?_⟩
      obtain ⟨i, hi, heq⟩ := List.getElem_of_mem (mem_of_mapM_id hcollect)
      have hworker : state.workers[i]? = some (.returned (.error error)) := by
        rw [hworkers, List.getElem?_map, List.getElem?_eq_getElem hi, heq]
        rfl
      have hwork := List.getElem?_eq_getElem (hlength ▸ hi)
      obtain ⟨entry, hentry, hfails⟩ := h.workers i _ _ hwork hworker
      exact ⟨entry, List.mem_flatten.mpr ⟨_, List.getElem_mem _, hentry⟩, hfails⟩

/-! ### The end of a preparation -/

/-- The steps that a worker can still take, at most. -/
def ParallelStep.left : ParallelStep α β ε → ℕ
  | .checking _ rest => 2 * rest.length + 1
  | .preparing _ _ rest => 2 * rest.length + 2
  | .failing _ => 1
  | .returned _ => 0

/-- The steps that are left, at most. -/
def Parallel.left (state : Parallel α β ε) : ℕ := (state.workers.map ParallelStep.left).sum

theorem left_of_stepWorker {stopped stopped' : Bool} {worker worker' : ParallelStep α β ε}
    (h : stepWorker prepare stopped worker = some (stopped', worker')) :
  worker'.left < worker.left
  := by
  match worker with
  | .checking files [] =>
      obtain ⟨rfl, rfl⟩ := Prod.mk.inj (Option.some.inj h)
      exact Nat.one_pos
  | .checking files (entry :: rest) =>
      rw [stepWorker] at h
      split at h <;> obtain ⟨rfl, rfl⟩ := Prod.mk.inj (Option.some.inj h)
      · simp [ParallelStep.left]
      · simp only [ParallelStep.left, List.length_cons]
        omega
  | .preparing files entry rest =>
      rw [stepWorker] at h
      split at h <;> obtain ⟨rfl, rfl⟩ := Prod.mk.inj (Option.some.inj h)
      · simp [ParallelStep.left]
      · simp [ParallelStep.left]
  | .failing error =>
      obtain ⟨rfl, rfl⟩ := Prod.mk.inj (Option.some.inj h)
      exact Nat.one_pos
  | .returned _ => cases h

theorem sum_set_lt {γ : Type} {weight : γ → ℕ} {items : List γ} {i : ℕ} {a b : γ}
    (hi : items[i]? = some a) (hlt : weight b < weight a) :
  ((items.set i b).map weight).sum < (items.map weight).sum
  := by
  induction items generalizing i with
  | nil => cases hi
  | cons item items ih =>
      cases i with
      | zero =>
          obtain rfl := Option.some.inj hi
          simpa using hlt
      | succ i =>
          have hrest := ih hi
          simpa using hrest

theorem left_step {state state' : Parallel α β ε} {worker : ℕ}
    (h : state.step prepare worker = some state') :
  state'.left < state.left
  := by
  obtain ⟨next, stopped', next', hnext, hstep, rfl⟩ := step_eq_some h
  exact sum_set_lt hnext (left_of_stepWorker hstep)

/-- The workers take no more steps than they have. -/
theorem length_schedule {state state' : Parallel α β ε} {schedule : List ℕ}
    (h : run (Parallel.step prepare) state schedule = some state') :
  schedule.length + state'.left ≤ state.left
  := by
  induction schedule generalizing state with
  | nil =>
      obtain rfl := Option.some.inj h
      simp
  | cons worker schedule ih =>
      obtain ⟨next, hnext, hrest⟩ := (run_cons _).mp h
      have hstep := left_step hnext
      have hle := ih hrest
      rw [List.length_cons]
      omega

theorem exists_not_returned {workers : List (ParallelStep α β ε)}
    (h : workers.mapM ParallelStep.result = none) :
  ∃ (i : ℕ) (worker : ParallelStep α β ε), workers[i]? = some worker ∧ worker.result = none
  := by
  induction workers with
  | nil => cases h
  | cons worker workers ih =>
      cases hresult : worker.result with
      | none => exact ⟨0, worker, rfl, hresult⟩
      | some result =>
          cases hrest : workers.mapM ParallelStep.result with
          | none =>
              obtain ⟨i, other, hi, hother⟩ := ih hrest
              exact ⟨i + 1, other, hi, hother⟩
          | some results =>
              rw [List.mapM_cons, hresult, hrest] at h
              cases h

theorem exists_stepWorker {worker : ParallelStep α β ε} (h : worker.result = none)
    (prepare : α → Except ε β) (stopped : Bool) :
  ∃ next, stepWorker prepare stopped worker = some next
  := by
  match worker, h with
  | .checking files [], _ => exact ⟨_, rfl⟩
  | .checking files (entry :: rest), _ => cases stopped <;> exact ⟨_, rfl⟩
  | .preparing files entry rest, _ =>
      rw [stepWorker]
      cases prepare entry with
      | ok file => exact ⟨_, rfl⟩
      | error error => exact ⟨_, rfl⟩
  | .failing error, _ => exact ⟨_, rfl⟩

/-- As long as a worker has not returned, it can take a step. -/
theorem exists_step {state : Parallel α β ε} (h : state.outcome = none)
    (prepare : α → Except ε β) :
  ∃ worker state', state.step prepare worker = some state'
  := by
  obtain ⟨i, worker, hi, hworker⟩ := exists_not_returned (Option.map_eq_none_iff.mp h)
  obtain ⟨⟨stopped', next⟩, hnext⟩ := exists_stepWorker hworker prepare state.stopped
  refine ⟨i, { stopped := stopped', workers := state.workers.set i next }, ?_⟩
  rw [Parallel.step, hi, Option.bind_eq_bind, Option.bind_some, hnext]
  rfl

/-! ### Files of a batch -/

/-- `Vec::dedup`. -/
def dedupSorted : List ℕ → List ℕ
  | entry :: next :: entries =>
      if entry = next then dedupSorted (next :: entries) else entry :: dedupSorted (next :: entries)
  | entries => entries

/-- The files that the workers of `map_batch_files` are given, each with its entry and with its
place in the list.  A subtraction or a split that is not possible gives none. -/
def splitFiles : List (α × ℕ) → ℕ → List ℕ → Option (List (ℕ × α × ℕ))
  | _, _, [] => some []
  | remaining, offset, entry :: entries =>
      if entry < offset ∨ remaining.length < entry - offset then none
      else match remaining.drop (entry - offset) with
        | [] => none
        | file :: tail => (splitFiles tail (entry + 1) entries).map ((entry, file) :: ·)

/-- The entries of a batch that have files, once each and in order. -/
def batchEntries (files : List α) (entries : List ℕ) : List ℕ :=
  dedupSorted ((entries.filter fun entry => entry < files.length).insertionSort (· ≤ ·))

/-- A worker acts on the file it was given. -/
def actOn (action : α → β × α) (files : List α) (worker : ℕ × α × ℕ) : List α :=
  files.set worker.2.2 (action worker.2.1).2

/-- What `map_batch_files` can give for each entry, and the files after it, when its workers act
in some order. -/
inductive MapBatchFiles (action : α → β × α) (files : List α) (entries : List ℕ) :
    Option (List (ℕ × β) × List α) → Prop
  | one {entry} : batchEntries files entries = [entry] →
      MapBatchFiles action files entries
        (files[entry]?.map fun file =>
          ([(entry, (action file).1)], files.set entry (action file).2))
  | panicked : (batchEntries files entries).length ≠ 1 →
      splitFiles files.zipIdx 0 (batchEntries files entries) = none →
      MapBatchFiles action files entries none
  | many {workers order : List (ℕ × α × ℕ)} : (batchEntries files entries).length ≠ 1 →
      splitFiles files.zipIdx 0 (batchEntries files entries) = some workers →
      order.Perm workers →
      MapBatchFiles action files entries
        (some (workers.map fun worker => (worker.1, (action worker.2.1).1),
          order.foldl (actOn action) files))

theorem mem_dedupSorted {entry : ℕ} {entries : List ℕ} :
  entry ∈ dedupSorted entries ↔ entry ∈ entries
  := by
  fun_induction dedupSorted entries with
  | case1 first entries ih => simp [ih]
  | case2 first next entries hne ih => simp [ih]
  | case3 entries => rfl

theorem pairwise_dedupSorted {entries : List ℕ} (h : entries.Pairwise (· ≤ ·)) :
  (dedupSorted entries).Pairwise (· < ·)
  := by
  fun_induction dedupSorted entries with
  | case1 first entries ih => exact ih (List.pairwise_cons.mp h).2
  | case2 first next entries hne ih =>
      obtain ⟨hfirst, hrest⟩ := List.pairwise_cons.mp h
      refine List.pairwise_cons.mpr ⟨?_, ih hrest⟩
      intro other hother
      have hle := hfirst next (List.mem_cons_self ..)
      have hnext : next ≤ other := by
        obtain rfl | hother := List.mem_cons.mp (mem_dedupSorted.mp hother)
        · exact le_rfl
        · exact (List.pairwise_cons.mp hrest).1 other hother
      omega
  | case3 entries hnot =>
      match entries, hnot with
      | [], _ => exact .nil
      | [entry], _ => exact List.pairwise_singleton _ _
      | first :: next :: entries, hnot => exact (hnot first next entries rfl).elim

theorem pairwise_batchEntries (files : List α) (entries : List ℕ) :
  (batchEntries files entries).Pairwise (· < ·)
  := pairwise_dedupSorted (List.pairwise_insertionSort (· ≤ ·) _)

theorem mem_batchEntries {files : List α} {entries : List ℕ} {entry : ℕ} :
  entry ∈ batchEntries files entries ↔ entry ∈ entries ∧ entry < files.length
  := by
  rw [batchEntries, mem_dedupSorted, List.mem_insertionSort, List.mem_filter, decide_eq_true_eq]

/-- The walk through the files finds each entry at its place. -/
theorem splitFiles_eq {files : List α} {entries : List ℕ} (offset : ℕ)
    (hsorted : entries.Pairwise (· < ·)) (hoffset : ∀ entry ∈ entries, offset ≤ entry)
    (hlt : ∀ entry ∈ entries, entry < files.length) :
  ∃ workers, splitFiles (files.zipIdx.drop offset) offset entries = some workers
    ∧ workers.map Prod.fst = entries
    ∧ ∀ worker ∈ workers, worker.2.2 = worker.1 ∧ files[worker.1]? = some worker.2.1
  := by
  induction entries generalizing offset with
  | nil => exact ⟨[], rfl, rfl, by simp⟩
  | cons entry entries ih =>
      obtain ⟨hfirst, hrest⟩ := List.pairwise_cons.mp hsorted
      have hle := hoffset entry (List.mem_cons_self ..)
      have hentry := hlt entry (List.mem_cons_self ..)
      obtain ⟨workers, hworkers, hmap, heach⟩ := ih (entry + 1) hrest hfirst
        fun other hother => hlt other (List.mem_cons_of_mem _ hother)
      have hdrop : (files.zipIdx.drop offset).drop (entry - offset)
          = (files[entry], entry) :: files.zipIdx.drop (entry + 1) := by
        rw [List.drop_drop, Nat.add_sub_cancel' hle,
          List.drop_eq_getElem_cons (by simpa using hentry)]
        simp
      refine ⟨(entry, files[entry], entry) :: workers, ?_, ?_, ?_⟩
      · have hlength : ¬(entry < offset ∨ (files.zipIdx.drop offset).length < entry - offset) := by
          simp only [List.length_drop, List.length_zipIdx]
          omega
        rw [splitFiles, if_neg hlength, hdrop]
        simp only [hworkers, Option.map_some]
      · rw [List.map_cons, hmap]
      · intro worker hworker
        obtain rfl | hworker := List.mem_cons.mp hworker
        · exact ⟨rfl, List.getElem?_eq_getElem hentry⟩
        · exact heach worker hworker

/-- Workers at different places do not meet. -/
theorem getElem?_foldl_actOn (action : α → β × α) {files : List α} {order : List (ℕ × α × ℕ)}
    (i : ℕ)
    (hplaces : (order.map fun worker => worker.2.2).Nodup) :
  (order.foldl (actOn action) files)[i]?
    = match order.find? (fun worker => worker.2.2 = i) with
      | some worker => files[i]?.map fun _ => (action worker.2.1).2
      | none => files[i]?
  := by
  induction order generalizing files with
  | nil => rfl
  | cons worker order ih =>
      obtain ⟨hfresh, hrest⟩ := List.nodup_cons.mp hplaces
      rw [List.foldl_cons, ih hrest]
      by_cases hplace : worker.2.2 = i
      · have hnone : order.find? (fun worker => worker.2.2 = i) = none := by
          rw [List.find?_eq_none]
          intro other hother hi
          rw [decide_eq_true_eq] at hi
          exact hfresh (List.mem_map.mpr ⟨other, hother, hi.trans hplace.symm⟩)
        rw [hnone, List.find?_cons_of_pos (by simpa using hplace), actOn, hplace,
          List.getElem?_set_self']
        rfl
      · rw [List.find?_cons_of_neg (by simpa using hplace), actOn, List.getElem?_set_ne hplace]

/-- Every file with an entry is acted on once, and the others are as they were. -/
theorem mapBatchFiles_eq {action : α → β × α} {files : List α} {entries : List ℕ}
    {outcome : Option (List (ℕ × β) × List α)} (h : MapBatchFiles action files entries outcome) :
  ∃ results, outcome = some (results, files.mapIdx fun i file =>
      if i ∈ entries then (action file).2 else file)
    ∧ results.map Prod.fst = batchEntries files entries
    ∧ ∀ result ∈ results, ∃ file, files[result.1]? = some file ∧ result.2 = (action file).1
  := by
  cases h with
  | @one entry hone =>
      have hmem : ∀ {other}, other ∈ entries ∧ other < files.length ↔ other = entry := by
        intro other
        rw [← mem_batchEntries, hone, List.mem_singleton]
      obtain ⟨hentry, hlt⟩ := hmem.mpr rfl
      rw [List.getElem?_eq_getElem hlt, Option.map_some]
      refine ⟨[(entry, (action files[entry]).1)], ?_, hone.symm, ?_⟩
      · congr 2
        apply List.ext_getElem (by simp)
        intro i hi hi'
        rw [List.length_set] at hi
        rw [List.getElem_mapIdx, List.getElem_set]
        by_cases heq : entry = i
        · subst heq
          rw [if_pos rfl, if_pos hentry]
        · have hnot : i ∉ entries := fun hi' => heq (hmem.mp ⟨hi', hi⟩).symm
          rw [if_neg heq, if_neg hnot]
      · intro result hresult
        obtain rfl := List.mem_singleton.mp hresult
        exact ⟨files[entry], List.getElem?_eq_getElem hlt, rfl⟩
  | panicked _ hnone =>
      obtain ⟨workers, hworkers, _⟩ := splitFiles_eq 0 (pairwise_batchEntries files entries)
        (fun _ _ => Nat.zero_le _) (fun entry hentry => (mem_batchEntries.mp hentry).2)
      rw [List.drop_zero, hnone] at hworkers
      cases hworkers
  | @many workers order _ hsplit hperm =>
      obtain ⟨workers', hworkers, hmap, heach⟩ := splitFiles_eq 0
        (pairwise_batchEntries files entries) (fun _ _ => Nat.zero_le _)
        (fun entry hentry => (mem_batchEntries.mp hentry).2)
      rw [List.drop_zero, hsplit] at hworkers
      obtain rfl := Option.some.inj hworkers
      have hplaces : workers.map (fun worker => worker.2.2) = batchEntries files entries := by
        rw [← hmap]
        exact List.map_congr_left fun worker hworker => (heach worker hworker).1
      have hnodup : (order.map fun worker => worker.2.2).Nodup := by
        rw [(hperm.map _).nodup_iff, hplaces]
        exact (pairwise_batchEntries files entries).imp Nat.ne_of_lt
      refine ⟨workers.map fun worker => (worker.1, (action worker.2.1).1), ?_, ?_, ?_⟩
      · congr 2
        apply List.ext_getElem?
        intro i
        rw [getElem?_foldl_actOn action i hnodup, List.getElem?_mapIdx]
        split
        · rename_i worker hfind
          have hworker := hperm.mem_iff.mp (List.mem_of_find?_eq_some hfind)
          have hplace : worker.2.2 = i := by simpa using List.find?_some hfind
          obtain ⟨heq, hfile⟩ := heach worker hworker
          rw [← heq, hplace] at hfile
          have hentry : i ∈ entries := by
            have hmem : i ∈ batchEntries files entries := by
              rw [← hplaces, ← hplace]
              exact List.mem_map_of_mem hworker
            exact (mem_batchEntries.mp hmem).1
          rw [hfile, Option.map_some, Option.map_some, if_pos hentry]
        · rename_i hfind
          cases hfile : files[i]? with
          | none => rfl
          | some file =>
              have hnot : i ∉ entries := by
                intro hentry
                have hmem := mem_batchEntries.mpr ⟨hentry, (List.getElem?_eq_some_iff.mp hfile).1⟩
                rw [← hplaces] at hmem
                obtain ⟨worker, hworker, hplace⟩ := List.mem_map.mp hmem
                have hnone := List.find?_eq_none.mp hfind worker (hperm.mem_iff.mpr hworker)
                exact hnone (by simpa using hplace)
              rw [Option.map_some, if_neg hnot]
      · rw [List.map_map, ← hmap]
        rfl
      · intro result hresult
        obtain ⟨worker, hworker, rfl⟩ := List.mem_map.mp hresult
        exact ⟨worker.2.1, (heach worker hworker).2, rfl⟩

/-! ### Together as one after the other -/

theorem exists_of_mapM_error {entries : List α} {error : ε}
    (h : entries.mapM prepare = .error error) :
  ∃ entry ∈ entries, prepare entry = .error error
  := by
  induction entries with
  | nil => cases h
  | cons entry entries ih =>
      rw [List.mapM_cons] at h
      cases hentry : prepare entry with
      | error error' =>
          rw [hentry] at h
          obtain rfl := Except.error.inj h
          exact ⟨entry, List.mem_cons_self .., hentry⟩
      | ok file =>
          cases hrest : entries.mapM prepare with
          | error error' =>
              rw [hentry, hrest] at h
              obtain rfl := Except.error.inj h
              obtain ⟨other, hother, hfails⟩ := ih hrest
              exact ⟨other, List.mem_cons_of_mem _ hother, hfails⟩
          | ok files =>
              rw [hentry, hrest] at h
              cases h

theorem mapM_of_map_ok {entries : List α} {files : List β}
    (h : entries.map prepare = files.map .ok) :
  entries.mapM prepare = .ok files
  := by
  induction entries generalizing files with
  | nil =>
      cases files with
      | nil => rfl
      | cons file files => cases h
  | cons entry entries ih =>
      cases files with
      | nil => cases h
      | cons file files =>
          obtain ⟨hfirst, hrest⟩ := List.cons.inj h
          rw [List.mapM_cons, hfirst, ih hrest]
          rfl

/-- What comes out of the workers, whatever the order of their steps. -/
theorem prepareParallel_result {batch : ℕ+} {prepare : ℕ → α → Except ε β} {entries : List α}
    {result : Except ε (List β)} (h : PrepareParallel batch prepare entries result) :
  (∀ files, prepareSequential prepare entries = .ok files → result = .ok files)
  ∧ ∀ error, prepareSequential prepare entries = .error error →
      ∃ index entry error', entries[index]? = some entry ∧ prepare index entry = .error error'
        ∧ result = .error error'
  := by
  have hplace : ∀ {entry : α × ℕ}, entry ∈ entries.zipIdx → entries[entry.2]? = some entry.1 :=
    fun hentry => List.mem_zipIdx_iff_getElem?.mp hentry
  cases h with
  | few _ =>
      refine ⟨fun _ => id, ?_⟩
      intro error herror
      obtain ⟨entry, hentry, hfails⟩ := exists_of_mapM_error herror
      exact ⟨entry.2, entry.1, error, hplace hentry, hfails, herror⟩
  | @many schedule state result hmany hrun houtcome =>
      have hsize : 0 < divCeil entries.length batch := by
        have hpos := batch.pos
        exact Nat.div_pos (by omega) hpos
      obtain ⟨files, rfl, hfiles⟩ | ⟨error, rfl, entry, hentry, hfails⟩ :=
        (parallelOk_run hrun).outcome houtcome
      · rw [flatten_indexedChunks hsize] at hfiles
        have hsequential : prepareSequential prepare entries = .ok files := mapM_of_map_ok hfiles
        rw [hsequential]
        exact ⟨fun _ heq => heq, fun _ heq => by cases heq⟩
      · rw [flatten_indexedChunks hsize] at hentry
        refine ⟨?_, fun _ _ => ⟨entry.2, entry.1, error, hplace hentry, hfails, rfl⟩⟩
        intro files hfiles
        have hmap := Fallible.map_of_mapM_eq_ok hfiles
        have hmem := List.mem_map_of_mem (f := fun entry : α × ℕ => prepare entry.2 entry.1) hentry
        rw [hmap, hfails] at hmem
        obtain ⟨_, _, heq⟩ := List.mem_map.mp hmem
        cases heq

/-- Files that are prepared together come out as one after the other, or some entry's error does,
after so many steps at most; and a batch acts once on each of its files. -/
theorem parallel_eq_sequential (batch : ℕ+) (prepare : ℕ → α → Except ε β) (entries : List α) :
  (∀ result, PrepareParallel batch prepare entries result →
    (∀ files, prepareSequential prepare entries = .ok files → result = .ok files)
    ∧ ∀ error, prepareSequential prepare entries = .error error →
        ∃ index entry error', entries[index]? = some entry ∧ prepare index entry = .error error'
          ∧ result = .error error')
  ∧ (∀ schedule state, run (Parallel.step fun entry : α × ℕ => prepare entry.2 entry.1)
        (.start (indexedChunks (divCeil entries.length batch) entries)) schedule = some state →
      schedule.length ≤ (Parallel.start (indexedChunks (divCeil entries.length batch) entries) :
          Parallel (α × ℕ) β ε).left
        ∧ (state.outcome = none →
          ∃ worker state', state.step (fun entry => prepare entry.2 entry.1) worker = some state'))
  ∧ ∀ (action : α → β × α) (batch : List ℕ) outcome, MapBatchFiles action entries batch outcome →
      ∃ results, outcome = some (results, entries.mapIdx fun i file =>
          if i ∈ batch then (action file).2 else file)
        ∧ (results.map Prod.fst).Nodup
        ∧ (∀ entry, entry ∈ results.map Prod.fst ↔ entry ∈ batch ∧ entry < entries.length)
        ∧ ∀ result ∈ results, ∃ file, entries[result.1]? = some file ∧ result.2 = (action file).1
  := by
  refine ⟨fun result h => prepareParallel_result h, ?_, ?_⟩
  · intro schedule state hrun
    refine ⟨?_, fun houtcome => exists_step houtcome _⟩
    have hle := length_schedule hrun
    omega
  · intro action batch outcome h
    obtain ⟨results, houtcome, hkeys, heach⟩ := mapBatchFiles_eq h
    refine ⟨results, houtcome, ?_, ?_, heach⟩
    · rw [hkeys]
      exact (pairwise_batchEntries entries batch).imp Nat.ne_of_lt
    · intro entry
      rw [hkeys, mem_batchEntries]

end Votport
