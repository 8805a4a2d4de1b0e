import Mathlib

/-!
# Tables with a primary key

A `Table key` is a list of rows no two of which have the same key.  Inserting a row
whose key is present is refused; the other operations keep the keys apart by
construction.  The lemmas say which row a table holds under a key after each operation.
-/

/-- A list of rows with pairwise distinct keys. -/
structure Table {ρ κ : Type*} (key : ρ → κ) where
  /-- The rows. -/
  rows : List ρ
  /-- No two rows have the same key. -/
  nodup : (rows.map key).Nodup

namespace Table

variable {ρ κ : Type*} {key : ρ → κ}

@[ext]
theorem ext {t t' : Table key} (h : t.rows = t'.rows) :
  t = t'
  := by
  cases t
  cases t'
  congr

instance [DecidableEq ρ] : DecidableEq (Table key) :=
  fun t t' => decidable_of_iff (t.rows = t'.rows) ⟨Table.ext, congrArg rows⟩

/-- The table without rows. -/
def empty : Table key where
  rows := []
  nodup := List.nodup_nil

instance : Inhabited (Table key) := ⟨empty⟩

@[simp]
theorem rows_empty : (empty : Table key).rows = [] := rfl

/-- The rows that satisfy `p`. -/
def filter (p : ρ → Prop) [DecidablePred p] (t : Table key) : Table key where
  rows := t.rows.filter p
  nodup := (List.filter_sublist.map key).nodup t.nodup

theorem rows_filter (p : ρ → Prop) [DecidablePred p] (t : Table key) :
  (t.filter p).rows = t.rows.filter p
  := rfl

@[simp]
theorem mem_filter {p : ρ → Prop} [DecidablePred p] {t : Table key} {r : ρ} :
  r ∈ (t.filter p).rows ↔ r ∈ t.rows ∧ p r
  := by
  simp [filter]

/-- The table with `f` applied to every row, for an `f` that keeps the keys. -/
def map (f : ρ → ρ) (hf : ∀ r, key (f r) = key r) (t : Table key) : Table key where
  rows := t.rows.map f
  nodup := by
    have h : key ∘ f = key := funext hf
    rw [List.map_map, h]
    apply t.nodup

@[simp]
theorem mem_map {f : ρ → ρ} {hf : ∀ r, key (f r) = key r} {t : Table key} {r : ρ} :
  r ∈ (t.map f hf).rows ↔ ∃ s ∈ t.rows, f s = r
  := by
  simp [map]

/-- A row is determined by its key. -/
theorem eq_of_key_eq
    (t : Table key) {r s : ρ} (hr : r ∈ t.rows) (hs : s ∈ t.rows) (h : key r = key s) :
  r = s
  := List.inj_on_of_nodup_map t.nodup hr hs h

/-- A table counts at most as many rows as one that has, under the key of each row counted,
a row that it counts. -/
theorem countP_le
    {t t' : Table key} {p p' : ρ → Bool}
    (h : ∀ r' ∈ t'.rows, p' r' = true → ∃ r ∈ t.rows, key r = key r' ∧ p r = true) :
  t'.rows.countP p' ≤ t.rows.countP p
  := by
  have hnodup : ((t'.rows.filter p').map key).Nodup :=
    (List.filter_sublist.map key).nodup t'.nodup
  have hsub : (t'.rows.filter p').map key ⊆ (t.rows.filter p).map key := by
    intro k hk
    obtain ⟨r', hr', rfl⟩ := List.mem_map.mp hk
    obtain ⟨hr', hp'⟩ := List.mem_filter.mp hr'
    obtain ⟨r, hr, hkey, hp⟩ := h r' hr' hp'
    rw [← hkey]
    exact List.mem_map_of_mem (List.mem_filter.mpr ⟨hr, hp⟩)
  have hle := (List.Nodup.subperm hnodup hsub).length_le
  rwa [List.length_map, List.length_map, ← List.countP_eq_length_filter,
    ← List.countP_eq_length_filter] at hle

variable [DecidableEq κ]

/-- The row with the key `k`. -/
def find? (t : Table key) (k : κ) : Option ρ :=
  t.rows.find? (key · = k)

theorem find?_eq_some {t : Table key} {k : κ} {r : ρ} :
  t.find? k = some r ↔ r ∈ t.rows ∧ key r = k
  := by
  constructor
  · intro h
    constructor
    · apply List.mem_of_find?_eq_some h
    · simpa using List.find?_some h
  · rintro ⟨hr, rfl⟩
    cases h : t.find? (key r) with
    | none =>
        have hno := List.find?_eq_none.mp h r hr
        simp at hno
    | some s =>
        have hs : key s = key r := by simpa using List.find?_some h
        rw [t.eq_of_key_eq (List.mem_of_find?_eq_some h) hr hs]

theorem find?_eq_none {t : Table key} {k : κ} :
  t.find? k = none ↔ ∀ r ∈ t.rows, key r ≠ k
  := by
  simp [find?]

@[simp]
theorem find?_empty (k : κ) : (empty : Table key).find? k = none := rfl

theorem find?_key {t : Table key} {r : ρ} (hr : r ∈ t.rows) :
  t.find? (key r) = some r
  := find?_eq_some.mpr ⟨hr, rfl⟩

theorem find?_map
    {f : ρ → ρ} {hf : ∀ r, key (f r) = key r} (t : Table key) (k : κ) :
  (t.map f hf).find? k = (t.find? k).map f
  := by
  apply Option.ext
  intro s
  rw [find?_eq_some, mem_map, Option.map_eq_some_iff]
  constructor
  · rintro ⟨⟨r, hr, rfl⟩, hk⟩
    use r, find?_eq_some.mpr ⟨hr, (hf r).symm.trans hk⟩
  · rintro ⟨r, hr, rfl⟩
    obtain ⟨hr, hk⟩ := find?_eq_some.mp hr
    exact ⟨⟨r, hr, rfl⟩, (hf r).trans hk⟩

theorem find?_filter {p : ρ → Prop} [DecidablePred p] (t : Table key) (k : κ) :
  (t.filter p).find? k = (t.find? k).filter (p ·)
  := by
  apply Option.ext
  intro s
  rw [find?_eq_some, mem_filter, Option.filter_eq_some_iff, find?_eq_some, decide_eq_true_iff]
  tauto

/-- The table with the row `r`, refused when its key is present. -/
def insert? (t : Table key) (r : ρ) : Option (Table key) :=
  if h : key r ∈ t.rows.map key then none
  else some ⟨r :: t.rows, List.nodup_cons.mpr ⟨h, t.nodup⟩⟩

/-- A row goes in exactly when its key is absent. -/
theorem insert?_eq_some {t t' : Table key} {r : ρ} :
  t.insert? r = some t' ↔ t.find? (key r) = none ∧ t'.rows = r :: t.rows
  := by
  have habsent : key r ∉ t.rows.map key ↔ t.find? (key r) = none := by
    rw [find?_eq_none, List.mem_map]
    grind
  rw [insert?]
  split_ifs with h
  · have := mt habsent.mpr (not_not.mpr h)
    simp [this]
  · rw [← habsent]
    constructor
    · intro he
      cases he
      exact ⟨h, rfl⟩
    · rintro ⟨_, he⟩
      congr
      symm
      apply he

/-- The table without the row of key `k`. -/
def erase (t : Table key) (k : κ) : Table key :=
  t.filter (key · ≠ k)

theorem mem_erase {t : Table key} {k : κ} {r : ρ} :
  r ∈ (t.erase k).rows ↔ r ∈ t.rows ∧ key r ≠ k
  := by
  simp [erase]

@[simp]
theorem find?_erase_self (t : Table key) (k : κ) :
  (t.erase k).find? k = none
  := by
  rw [find?_eq_none]
  intro r hr
  apply (mem_erase.mp hr).2

theorem erase_of_absent {t : Table key} {k : κ} (h : t.find? k = none) :
  t.erase k = t
  := by
  apply Table.ext
  rw [erase, filter, List.filter_eq_self]
  intro r hr
  rw [decide_eq_true_iff]
  apply find?_eq_none.mp h r hr

theorem find?_erase (t : Table key) (k k' : κ) :
  (t.erase k).find? k' = if k' = k then none else t.find? k'
  := by
  split_ifs with h
  · rw [h, find?_erase_self]
  · apply Option.ext
    intro r
    rw [find?_eq_some, find?_eq_some, mem_erase]
    grind

/-- A table is its row of key `k` together with the others. -/
theorem perm_cons_erase {t : Table key} {k : κ} {r : ρ} (h : t.find? k = some r) :
  t.rows.Perm (r :: (t.erase k).rows)
  := by
  obtain ⟨hr, rfl⟩ := find?_eq_some.mp h
  obtain ⟨rows, nodup⟩ := t
  simp only [erase, filter] at hr ⊢
  clear h
  induction rows with
  | nil => cases hr
  | cons s rows ih =>
      obtain ⟨hs, hrows⟩ := List.nodup_cons.mp nodup
      rcases List.mem_cons.mp hr with rfl | hr
      · have hkeep : rows.filter (fun x => key x ≠ key r) = rows := by
          rw [List.filter_eq_self]
          intro x hx
          simp only [decide_eq_true_eq]
          intro he
          apply hs
          rw [← he]
          apply List.mem_map_of_mem hx
        rw [List.filter_cons_of_neg (by simp), hkeep]
      · have hne : key s ≠ key r := by
          intro he
          apply hs
          rw [he]
          apply List.mem_map_of_mem hr
        rw [List.filter_cons_of_pos (by simpa using hne)]
        apply List.Perm.trans (List.Perm.cons s (ih hrows hr))
        apply List.Perm.swap

/-- The table with the row `r` in place of the one that has its key. -/
def upsert (t : Table key) (r : ρ) : Table key where
  rows := r :: (t.erase (key r)).rows
  nodup := by
    rw [List.map_cons, List.nodup_cons]
    constructor
    · rw [List.mem_map]
      rintro ⟨s, hs, he⟩
      apply (mem_erase.mp hs).2 he
    · apply (t.erase (key r)).nodup

theorem rows_upsert (t : Table key) (r : ρ) :
  (t.upsert r).rows = r :: (t.erase (key r)).rows
  := rfl

theorem mem_upsert {t : Table key} {r s : ρ} :
  s ∈ (t.upsert r).rows ↔ s = r ∨ s ∈ t.rows ∧ key s ≠ key r
  := by
  rw [rows_upsert, List.mem_cons, mem_erase]

/-- Putting a row in again. -/
theorem upsert_upsert (t : Table key) {r s : ρ} (h : key s = key r) :
  (t.upsert r).upsert s = t.upsert s
  := by
  apply Table.ext
  have hno : ¬ key r ≠ key s := fun hne => hne h.symm
  rw [rows_upsert, rows_upsert, erase, rows_filter, rows_upsert, erase, erase, rows_filter,
    rows_filter, List.filter_cons_of_neg (by simp [h]), List.filter_filter, h]
  simp

/-- A row whose key is absent goes in. -/
theorem insert?_of_absent {t : Table key} {r : ρ} (h : t.find? (key r) = none) :
  t.insert? r = some (t.upsert r)
  := by
  rw [insert?_eq_some]
  constructor
  · apply h
  · rw [rows_upsert, erase_of_absent h]

/-- Putting a row in leaves what the table holds under the other keys. -/
theorem find?_upsert (t : Table key) (r : ρ) (k : κ) :
  (t.upsert r).find? k = if k = key r then some r else t.find? k
  := by
  split_ifs with hk
  · rw [hk]
    apply find?_key
    apply mem_upsert.mpr (Or.inl rfl)
  · apply Option.ext
    intro s
    rw [find?_eq_some, find?_eq_some, mem_upsert]
    constructor
    · rintro ⟨rfl | hs, rfl⟩
      · contradiction
      · exact ⟨hs.1, rfl⟩
    · rintro ⟨hs, rfl⟩
      exact ⟨Or.inr ⟨hs, hk⟩, rfl⟩

/-- Inserting a row leaves what the table holds under the other keys. -/
theorem find?_insert? {t t' : Table key} {r : ρ} (h : t.insert? r = some t') (k : κ) :
  t'.find? k = if k = key r then some r else t.find? k
  := by
  obtain ⟨_, hrows⟩ := insert?_eq_some.mp h
  split_ifs with hk
  · rw [hk]
    apply find?_key
    rw [hrows]
    apply List.mem_cons_self
  · rw [find?, hrows, List.find?_cons_of_neg (by simpa using Ne.symm hk), find?]

/-- Putting a row in changes a count by what the row adds and the one it replaces took. -/
theorem countP_upsert
    {t : Table key} {r s : ρ} (h : t.find? (key s) = some r) (p : ρ → Bool) :
  (t.upsert s).rows.countP p + (if p r then 1 else 0)
    = t.rows.countP p + (if p s then 1 else 0)
  := by
  rw [(perm_cons_erase h).countP_eq, rows_upsert, List.countP_cons, List.countP_cons]
  omega

/-- A table that holds a row under a key holds one. -/
theorem countP_key {t : Table key} {k : κ} {r : ρ} (h : t.find? k = some r) :
  t.rows.countP (key · = k) = 1
  := by
  have hkey : key r = k := (find?_eq_some.mp h).2
  have hrest : (t.erase k).rows.countP (key · = k) = 0 := by
    rw [List.countP_eq_zero]
    intro s hs
    simpa using (mem_erase.mp hs).2
  rw [(perm_cons_erase h).countP_eq, List.countP_cons, hrest, if_pos (decide_eq_true hkey)]

/-- Putting a row in leaves the count of the other rows. -/
theorem countP_upsert_others (t : Table key) (r : ρ) (p : ρ → Bool) :
  (t.upsert r).rows.countP p
    = t.rows.countP (fun s => p s && decide (key s ≠ key r)) + (if p r then 1 else 0)
  := by
  rw [rows_upsert, List.countP_cons, erase, rows_filter, List.countP_filter]

/-- The weights of a table sum up to at most those of one that has, under the key of each row,
a row that weighs as much. -/
theorem sum_le
    {t t' : Table key} {f f' : ρ → ℕ}
    (h : ∀ r' ∈ t'.rows, f' r' ≠ 0 → ∃ r ∈ t.rows, key r = key r' ∧ f' r' ≤ f r) :
  (t'.rows.map f').sum ≤ (t.rows.map f).sum
  := by
  obtain ⟨rows, hnodup⟩ := t'
  induction rows generalizing t with
  | nil => exact Nat.zero_le _
  | cons r' rows ih =>
      obtain ⟨hfresh, hrest⟩ := List.nodup_cons.mp hnodup
      by_cases hzero : f' r' = 0
      · rw [List.map_cons, List.sum_cons, hzero, Nat.zero_add]
        apply ih hrest
        intro s' hs'
        exact h s' (List.mem_cons_of_mem r' hs')
      · obtain ⟨r, hr, hkey, hle⟩ := h r' List.mem_cons_self hzero
        have hothers : ∀ s' ∈ rows, f' s' ≠ 0 →
            ∃ s ∈ (t.erase (key r)).rows, key s = key s' ∧ f' s' ≤ f s := by
          intro s' hs' hs'zero
          obtain ⟨s, hs, hskey, hsle⟩ := h s' (List.mem_cons_of_mem r' hs') hs'zero
          refine ⟨s, mem_erase.mpr ⟨hs, ?_⟩, hskey, hsle⟩
          rw [hskey, hkey]
          intro heq
          apply hfresh
          rw [← heq]
          exact List.mem_map_of_mem hs'
        have hsum := ((perm_cons_erase (find?_key hr)).map f).sum_nat
        rw [List.map_cons, List.sum_cons] at hsum ⊢
        rw [hsum]
        exact Nat.add_le_add hle (ih hrest hothers)

end Table
