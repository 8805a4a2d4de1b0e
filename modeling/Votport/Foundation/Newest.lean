import Mathlib

/-!
# Keeping the newest

Of a list of entries, ordered by a key, those are dropped that have aged or that come after the first
ones in number.  An entry may be spared, and then it comes first.
-/

namespace Newest

variable {α κ : Type*} [LinearOrder κ] (key : α → κ) (spared aged : α → Bool) (count : ℕ)

/-- The entries in descending order of their keys. -/
def newestFirst (l : List α) : List α := l.insertionSort fun a b => key b ≤ key a

/-- The entry at an index is dropped; no entry is dropped for its index when the number is zero. -/
def drops (a : α) (index : ℕ) : Bool :=
  !spared a && (aged a || decide (0 < count ∧ count ≤ index))

/-- The entries that are dropped. -/
def dropped (l : List α) : List α :=
  ((newestFirst key l).zipIdx.filter fun entry => drops spared aged count entry.1 entry.2).map
    Prod.fst

variable {key spared aged count} {l : List α} {a b : α}

theorem mem_newestFirst : a ∈ newestFirst key l ↔ a ∈ l := (List.perm_insertionSort _ l).mem_iff

theorem mem_dropped :
  a ∈ dropped key spared aged count l
    ↔ ∃ i, (newestFirst key l)[i]? = some a ∧ drops spared aged count a i = true
  := by
  rw [dropped, List.mem_map]
  constructor
  · rintro ⟨⟨b, i⟩, hmem, rfl⟩
    obtain ⟨hentry, hdrops⟩ := List.mem_filter.mp hmem
    exact ⟨i, List.mk_mem_zipIdx_iff_getElem?.mp hentry, hdrops⟩
  · rintro ⟨i, hi, hdrops⟩
    exact ⟨(a, i), List.mem_filter.mpr ⟨List.mk_mem_zipIdx_iff_getElem?.mpr hi, hdrops⟩, rfl⟩

theorem mem_of_mem_dropped (h : a ∈ dropped key spared aged count l) :
  a ∈ l
  := by
  obtain ⟨i, hi, _⟩ := mem_dropped.mp h
  exact mem_newestFirst.mp (List.mem_of_getElem? hi)

/-- In the order, an earlier entry has no smaller key. -/
theorem key_le_of_lt
    {i j : ℕ} (hi : (newestFirst key l)[i]? = some a) (hj : (newestFirst key l)[j]? = some b)
    (hij : i < j) :
  key b ≤ key a
  := by
  have htotal : Std.Total fun a b : α => key b ≤ key a := ⟨fun a b => le_total (key b) (key a)⟩
  have htrans : IsTrans α fun a b => key b ≤ key a := ⟨fun _ _ _ hab hbc => hbc.trans hab⟩
  have hsorted := List.pairwise_insertionSort (fun a b : α => key b ≤ key a) l
  obtain ⟨hlt, rfl⟩ := List.getElem?_eq_some_iff.mp hi
  obtain ⟨hlt', rfl⟩ := List.getElem?_eq_some_iff.mp hj
  exact List.pairwise_iff_getElem.mp hsorted i j hlt hlt' hij

/-- An entry that is kept has no smaller key than one that is dropped, when what is spared has the
largest key and what has not aged no smaller key than what has and is not spared. -/
theorem key_le_of_dropped
    (hspared : ∀ a ∈ l, spared a = true → ∀ b ∈ l, key b ≤ key a)
    (haged : ∀ a b, spared b = false → aged a = false → aged b = true → key b ≤ key a)
    (ha : a ∈ l) (hkept : a ∉ dropped key spared aged count l)
    (hb : b ∈ dropped key spared aged count l) :
  key b ≤ key a
  := by
  have hbmem := mem_of_mem_dropped hb
  obtain ⟨j, hj, hdrops⟩ := mem_dropped.mp hb
  have hsorted : a ∈ newestFirst key l := mem_newestFirst.mpr ha
  obtain ⟨i, hi⟩ := List.getElem?_of_mem hsorted
  have hstays : drops spared aged count a i = false := by
    rw [← Bool.not_eq_true]
    exact fun h => hkept (mem_dropped.mpr ⟨i, hi, h⟩)
  by_cases hs : spared a = true
  · exact hspared a ha hs b hbmem
  · rw [drops, Bool.eq_false_iff.mpr hs] at hstays
    simp only [Bool.not_false, Bool.true_and, Bool.or_eq_false_iff, decide_eq_false_iff_not,
      not_and, not_le] at hstays
    rw [drops, Bool.and_eq_true, Bool.not_eq_true', Bool.or_eq_true, decide_eq_true_eq] at hdrops
    rcases hdrops.2 with hold | ⟨hcount, hindex⟩
    · exact haged a b hdrops.1 hstays.1 hold
    · exact key_le_of_lt hi hj (lt_of_lt_of_le (hstays.2 hcount) hindex)

/-- No more entries are kept than the number, when there is one and what is spared has the largest
key. -/
theorem length_kept_le [DecidableEq α]
    (hcount : 0 < count) (hnodup : l.Nodup) (hkey : ∀ a ∈ l, ∀ b ∈ l, key a = key b → a = b)
    (hspared : ∀ a ∈ l, spared a = true → ∀ b ∈ l, key b ≤ key a) :
  (l.filter fun a => decide (a ∉ dropped key spared aged count l)).length ≤ count
  := by
  have hsubset : l.filter (fun a => decide (a ∉ dropped key spared aged count l))
      ⊆ (newestFirst key l).take count := by
    intro a ha
    obtain ⟨hmem, hkept⟩ := List.mem_filter.mp ha
    have hkept := of_decide_eq_true hkept
    have hsorted : a ∈ newestFirst key l := mem_newestFirst.mpr hmem
    obtain ⟨i, hi⟩ := List.getElem?_of_mem hsorted
    have hstays : drops spared aged count a i = false := by
      rw [← Bool.not_eq_true]
      exact fun h => hkept (mem_dropped.mpr ⟨i, hi, h⟩)
    have hfirst : ∀ j < count, (newestFirst key l)[j]? = some a →
        a ∈ (newestFirst key l).take count := by
      intro j hj hget
      have htake : ((newestFirst key l).take count)[j]? = some a := by
        rw [List.getElem?_take, if_pos hj, hget]
      exact List.mem_of_getElem? htake
    by_cases hs : spared a = true
    · -- What is spared has the key of the first entry, so it is the first entry.
      obtain ⟨b, hb⟩ : ∃ b, (newestFirst key l)[0]? = some b := by
        obtain ⟨hlt, _⟩ := List.getElem?_eq_some_iff.mp hi
        exact ⟨_, List.getElem?_eq_getElem (by omega)⟩
      have hbmem := mem_newestFirst.mp (List.mem_of_getElem? hb)
      have hle : key a ≤ key b := by
        rcases Nat.eq_zero_or_pos i with rfl | hpos
        · rw [hi] at hb
          cases hb
          exact le_rfl
        · exact key_le_of_lt hb hi hpos
      have heq := hkey b hbmem a hmem (le_antisymm (hspared a hmem hs b hbmem) hle)
      exact hfirst 0 hcount (heq ▸ hb)
    · rw [drops, Bool.eq_false_iff.mpr hs] at hstays
      simp only [Bool.not_false, Bool.true_and, Bool.or_eq_false_iff, decide_eq_false_iff_not,
        not_and, not_le] at hstays
      exact hfirst i (hstays.2 hcount) hi
  have hle := (List.subperm_of_subset (hnodup.filter _) hsubset).length_le
  rw [List.length_take] at hle
  omega

/-- In a list in strict order, as many entries are smaller as stand before. -/
theorem countP_lt_of_pairwise
    {f : α → κ} {i : ℕ} (hsorted : l.Pairwise fun a b => f a < f b) (hi : l[i]? = some a) :
  l.countP (fun b => decide (f b < f a)) = i
  := by
  induction l generalizing i with
  | nil => simp at hi
  | cons b l ih =>
      rw [List.pairwise_cons] at hsorted
      cases i with
      | zero =>
          rw [List.getElem?_cons_zero, Option.some.injEq] at hi
          subst hi
          rw [List.countP_eq_zero]
          intro c hc hlt
          rcases List.mem_cons.mp hc with rfl | hc
          · exact lt_irrefl _ (of_decide_eq_true hlt)
          · exact lt_asymm (hsorted.1 c hc) (of_decide_eq_true hlt)
      | succ i =>
          rw [List.getElem?_cons_succ] at hi
          have hlt := hsorted.1 a (List.mem_of_getElem? hi)
          rw [List.countP_cons, if_pos (decide_eq_true hlt), ih hsorted.2 hi]

end Newest
