import Mathlib

/-!
# Sums of class maxima

Members of a list fall into classes and carry weights.  `classMax` is the greatest
weight recorded for one class, and `classMaxSum` adds it up over the classes that
occur.  Putting one more member into a list raises the sum by what its weight exceeds
the greatest weight its class already had, and a walk over a list whose classes lie
together, the greatest weight of each class first, adds up exactly the weights at
which the class changes.
-/

namespace ClassMax

variable {ρ κ : Type*} [DecidableEq κ] (cls : ρ → κ) (weight : ρ → ℕ)

/-- The greatest weight of the members of `l` in the class `k`, zero when there are
none. -/
def classMax (l : List ρ) (k : κ) : ℕ :=
  ((l.filter (cls · = k)).map weight).foldr max 0

/-- The sum of the greatest weights over the classes of `l`. -/
def classMaxSum (l : List ρ) : ℕ :=
  ∑ k ∈ (l.map cls).toFinset, classMax cls weight l k

theorem classMax_nil (k : κ) :
  classMax cls weight [] k = 0
  := rfl

theorem classMaxSum_nil :
  classMaxSum cls weight [] = 0
  := rfl

theorem classMax_cons (r : ρ) (l : List ρ) (k : κ) :
  classMax cls weight (r :: l) k
    = if cls r = k then max (weight r) (classMax cls weight l k) else classMax cls weight l k
  := by
  by_cases h : cls r = k
  · simp [classMax, h]
  · simp [classMax, h]

/-- A class that does not occur has no weight. -/
theorem classMax_of_not_mem {l : List ρ} {k : κ} (h : k ∉ l.map cls) :
  classMax cls weight l k = 0
  := by
  induction l with
  | nil => rfl
  | cons r l ih =>
      rw [List.map_cons, List.mem_cons, not_or] at h
      rw [classMax_cons, if_neg (fun he => h.1 he.symm), ih h.2]

/-- Every member weighs at most the maximum of its class. -/
theorem weight_le_classMax {l : List ρ} {r : ρ} (h : r ∈ l) :
  weight r ≤ classMax cls weight l (cls r)
  := by
  induction l with
  | nil => cases h
  | cons s l ih =>
      rw [classMax_cons]
      rcases List.mem_cons.mp h with rfl | h
      · simp
      · have := ih h
        split_ifs
        · apply le_trans this (le_max_right _ _)
        · apply this

/-- A bound on the weights of a class bounds its maximum. -/
theorem classMax_le {l : List ρ} {k : κ} {n : ℕ} (h : ∀ r ∈ l, cls r = k → weight r ≤ n) :
  classMax cls weight l k ≤ n
  := by
  induction l with
  | nil => simp [classMax_nil]
  | cons s l ih =>
      have hl := ih (fun r hr => h r (List.mem_cons_of_mem s hr))
      rw [classMax_cons]
      split_ifs with hs
      · apply max_le (h s List.mem_cons_self hs) hl
      · apply hl

theorem classMax_perm {l l' : List ρ} (h : l.Perm l') (k : κ) :
  classMax cls weight l k = classMax cls weight l' k
  := by
  apply le_antisymm
  · apply classMax_le
    intro r hr hk
    rw [← hk]
    apply weight_le_classMax cls weight (h.mem_iff.mp hr)
  · apply classMax_le
    intro r hr hk
    rw [← hk]
    apply weight_le_classMax cls weight (h.mem_iff.mpr hr)

theorem classMaxSum_perm {l l' : List ρ} (h : l.Perm l') :
  classMaxSum cls weight l = classMaxSum cls weight l'
  := by
  rw [classMaxSum, classMaxSum, List.toFinset_eq_of_perm _ _ (h.map cls)]
  apply Finset.sum_congr rfl
  intro k _
  apply classMax_perm cls weight h

/-- The first of the members of a class in descending order weighs the maximum of the
class. -/
theorem classMax_eq_head
    {l sorted : List ρ} {k : κ} (hperm : sorted.Perm (l.filter (cls · = k)))
    (hsorted : sorted.Pairwise (fun r s => weight s ≤ weight r)) :
  classMax cls weight l k = sorted.head?.elim 0 weight
  := by
  have hmem : ∀ r, r ∈ sorted ↔ r ∈ l ∧ cls r = k := by
    intro r
    rw [hperm.mem_iff, List.mem_filter, decide_eq_true_iff]
  apply le_antisymm
  · apply classMax_le
    intro r hr hk
    have hr' := (hmem r).mpr ⟨hr, hk⟩
    cases sorted with
    | nil => cases hr'
    | cons s sorted =>
        rcases List.mem_cons.mp hr' with rfl | hr'
        · apply le_refl
        · apply (List.pairwise_cons.mp hsorted).1 r hr'
  · cases sorted with
    | nil => apply Nat.zero_le
    | cons s sorted =>
        obtain ⟨hs, rfl⟩ := (hmem s).mp List.mem_cons_self
        apply weight_le_classMax cls weight hs

/-- Putting a member in raises the sum by what its weight exceeds the greatest weight
of its class. -/
theorem classMaxSum_cons (r : ρ) (l : List ρ) :
  classMaxSum cls weight (r :: l)
    = classMaxSum cls weight l + (weight r - classMax cls weight l (cls r))
  := by
  have hrest : ∀ k ≠ cls r, classMax cls weight (r :: l) k = classMax cls weight l k := by
    intro k hk
    rw [classMax_cons, if_neg (Ne.symm hk)]
  have hhead : classMax cls weight (r :: l) (cls r)
      = classMax cls weight l (cls r) + (weight r - classMax cls weight l (cls r)) := by
    rw [classMax_cons, if_pos rfl]
    omega
  rw [classMaxSum, classMaxSum, List.map_cons, List.toFinset_cons]
  by_cases hmem : cls r ∈ (l.map cls).toFinset
  · rw [Finset.insert_eq_of_mem hmem, ← Finset.add_sum_erase _ _ hmem,
      ← Finset.add_sum_erase _ (classMax cls weight l) hmem, hhead]
    have : ∑ k ∈ (l.map cls).toFinset.erase (cls r), classMax cls weight (r :: l) k
        = ∑ k ∈ (l.map cls).toFinset.erase (cls r), classMax cls weight l k :=
      Finset.sum_congr rfl (fun k hk => hrest k (Finset.ne_of_mem_erase hk))
    omega
  · rw [Finset.sum_insert hmem, hhead,
      classMax_of_not_mem cls weight (fun h => hmem (List.mem_toFinset.mpr h))]
    have : ∑ k ∈ (l.map cls).toFinset, classMax cls weight (r :: l) k
        = ∑ k ∈ (l.map cls).toFinset, classMax cls weight l k :=
      Finset.sum_congr rfl (fun k hk => hrest k (fun he => hmem (he ▸ hk)))
    omega

/-- The sum depends only on which members are of one class. -/
theorem classMaxSum_congr
    {κ' : Type*} [DecidableEq κ'] (cls' : ρ → κ') {l : List ρ}
    (h : ∀ r ∈ l, ∀ s ∈ l, cls r = cls s ↔ cls' r = cls' s) :
  classMaxSum cls weight l = classMaxSum cls' weight l
  := by
  induction l with
  | nil => rfl
  | cons r l ih =>
      have hl := ih (fun s hs t ht => h s (List.mem_cons_of_mem r hs) t (List.mem_cons_of_mem r ht))
      have hr : classMax cls weight l (cls r) = classMax cls' weight l (cls' r) := by
        have hfilter : l.filter (cls · = cls r) = l.filter (cls' · = cls' r) := by
          apply List.filter_congr
          intro s hs
          rw [decide_eq_decide]
          apply h s (List.mem_cons_of_mem r hs) r List.mem_cons_self
        rw [classMax, classMax, hfilter]
      rw [classMaxSum_cons, classMaxSum_cons, hl, hr]

theorem classMax_filter
    {p : ρ → Prop} [DecidablePred p] (hp : ∀ r s, cls r = cls s → p r → p s)
    (l : List ρ) {r : ρ} (hr : p r) :
  classMax cls (fun s => if p s then weight s else 0) l (cls r)
    = classMax cls weight (l.filter p) (cls r)
  := by
  induction l with
  | nil => rfl
  | cons s l ih =>
      rw [classMax_cons]
      by_cases hs : cls s = cls r
      · have hps := hp r s hs.symm hr
        rw [List.filter_cons_of_pos (by simpa using hps), classMax_cons, if_pos hs, if_pos hs,
          if_pos hps, ih]
      · rw [if_neg hs, ih]
        by_cases hps : p s
        · rw [List.filter_cons_of_pos (by simpa using hps), classMax_cons, if_neg hs]
        · rw [List.filter_cons_of_neg (by simpa using hps)]

/-- Members outside a union of classes may be left out or be made weightless. -/
theorem classMaxSum_filter
    {p : ρ → Prop} [DecidablePred p] (hp : ∀ r s, cls r = cls s → p r → p s) (l : List ρ) :
  classMaxSum cls (fun r => if p r then weight r else 0) l = classMaxSum cls weight (l.filter p)
  := by
  induction l with
  | nil => rfl
  | cons r l ih =>
      rw [classMaxSum_cons, ih]
      by_cases hr : p r
      · rw [List.filter_cons_of_pos (by simpa using hr), classMaxSum_cons, if_pos hr,
          classMax_filter cls weight hp l hr]
      · rw [List.filter_cons_of_neg (by simpa using hr), if_neg hr, Nat.zero_sub, Nat.add_zero]

/-! ### Walking a list whose classes lie together -/

/-- The members of a list at which the class changes, the class before the list being
`previous`. -/
def heads : Option κ → List ρ → List ρ
  | _, [] => []
  | previous, r :: l =>
      if previous = some (cls r) then heads previous l else r :: heads (some (cls r)) l

/-- The order `le` keeps the members of a class together, a heaviest one first. -/
structure Grouping (le : ρ → ρ → Prop) : Prop where
  /-- Members between two of one class are of that class. -/
  between : ∀ {a b c : ρ}, le a b → le b c → cls a = cls c → cls b = cls a
  /-- Within a class the weights do not increase. -/
  descending : ∀ {a b : ρ}, le a b → cls a = cls b → weight b ≤ weight a

variable {cls weight}

theorem heads_sublist (previous : Option κ) (l : List ρ) :
  (heads cls previous l).Sublist l
  := by
  induction l generalizing previous with
  | nil => apply List.Sublist.slnil
  | cons r l ih =>
      rw [heads]
      split_ifs
      · apply List.Sublist.cons r (ih _)
      · apply List.Sublist.cons_cons r (ih _)

variable (cls) in
/-- Every class that occurs, but the previous one, has a head. -/
theorem exists_mem_heads (previous : Option κ) (l : List ρ) {r : ρ} (hr : r ∈ l) :
  previous = some (cls r) ∨ ∃ s ∈ heads cls previous l, cls s = cls r
  := by
  induction l generalizing previous with
  | nil => cases hr
  | cons s l ih =>
      rw [heads]
      split_ifs with hs
      · rcases List.mem_cons.mp hr with rfl | hr
        · left
          apply hs
        · apply ih previous hr
      · right
        rcases List.mem_cons.mp hr with rfl | hr
        · use r, List.mem_cons_self
        · rcases ih (some (cls s)) hr with hc | ⟨t, ht, hc⟩
          · use s, List.mem_cons_self, Option.some.inj hc
          · use t, List.mem_cons_of_mem s ht, hc

/-- Along a grouping order, a member together with the heads of what follows it weighs
as much as the sum of the class maxima of both. -/
theorem weight_add_heads
    {le : ρ → ρ → Prop} (hle : Grouping cls weight le) (r : ρ) (l : List ρ)
    (h : (r :: l).Pairwise le) :
  weight r + ((heads cls (some (cls r)) l).map weight).sum = classMaxSum cls weight (r :: l)
  := by
  induction l generalizing r with
  | nil => simp [heads, classMaxSum_cons, classMaxSum_nil, classMax_nil]
  | cons s l ih =>
      obtain ⟨hr, hsl⟩ := List.pairwise_cons.mp h
      obtain ⟨hs, hl⟩ := List.pairwise_cons.mp hsl
      rw [heads]
      split_ifs with hc
      · have hc' : cls r = cls s := Option.some.inj hc
        have hrl : (r :: l).Pairwise le :=
          List.pairwise_cons.mpr ⟨fun x hx => hr x (List.mem_cons_of_mem s hx), hl⟩
        rw [ih r hrl, classMaxSum_perm cls weight (List.Perm.swap s r l),
          classMaxSum_cons cls weight s (r :: l)]
        have hmax := weight_le_classMax cls weight (l := r :: l) List.mem_cons_self
        have hdesc := hle.descending (hr s List.mem_cons_self) hc'
        rw [hc'] at hmax
        omega
      · rw [List.map_cons, List.sum_cons, ih s hsl, classMaxSum_cons cls weight r (s :: l)]
        have habsent : cls r ∉ (s :: l).map cls := by
          intro hmem
          obtain ⟨x, hx, hcx⟩ := List.mem_map.mp hmem
          rcases List.mem_cons.mp hx with rfl | hx
          · apply hc
            rw [hcx]
          · apply hc
            rw [hle.between (hr s List.mem_cons_self) (hs x hx) hcx.symm]
        rw [classMax_of_not_mem cls weight habsent]
        omega

/-- Along a grouping order the heads of a list weigh as much as the sum of its class
maxima. -/
theorem sum_heads
    {le : ρ → ρ → Prop} (hle : Grouping cls weight le) {l : List ρ} (h : l.Pairwise le) :
  ((heads cls none l).map weight).sum = classMaxSum cls weight l
  := by
  cases l with
  | nil => rfl
  | cons r l =>
      rw [heads, if_neg (by simp), List.map_cons, List.sum_cons]
      apply weight_add_heads hle r l h

end ClassMax
