import Mathlib

/-!
# Claimed names

Some workers share a set of claimed names, which some names are in from the start.  A
worker claims a name that is not in the set, and may release it again.  The names the
workers hold are distinct, and none of them was claimed from the start.
-/

namespace Claims

variable {κ : Type*}

/-- The names `held` are held in `claimed`, which the names `taken` are in from the
start. -/
structure Held (taken claimed : Finset κ) (held : List κ) : Prop where
  /-- No name is held twice. -/
  nodup : held.Nodup
  /-- No name is held that is taken. -/
  not_mem : ∀ k ∈ held, k ∉ taken
  /-- The taken names are claimed. -/
  taken : ∀ k ∈ taken, k ∈ claimed
  /-- The held names are claimed. -/
  held : ∀ k ∈ held, k ∈ claimed

variable {taken claimed : Finset κ} {held held' : List κ}

theorem Held.start (taken : Finset κ) :
  Held taken taken []
  := by
  constructor <;> simp

theorem Held.sublist (h : Held taken claimed held) (hsub : held'.Sublist held) :
  Held taken claimed held'
  := by
  constructor
  · apply hsub.nodup h.nodup
  · intro k hk
    apply h.not_mem k (hsub.subset hk)
  · apply h.taken
  · intro k hk
    apply h.held k (hsub.subset hk)

theorem Held.perm (h : Held taken claimed held) (hperm : held'.Perm held) :
  Held taken claimed held'
  := by
  constructor
  · apply hperm.nodup_iff.mpr h.nodup
  · intro k hk
    apply h.not_mem k (hperm.subset hk)
  · apply h.taken
  · intro k hk
    apply h.held k (hperm.subset hk)

variable [DecidableEq κ]

/-- A name that is not claimed may be. -/
theorem Held.claim (h : Held taken claimed held) {k : κ} (hk : k ∉ claimed) :
  Held taken (insert k claimed) (k :: held)
  := by
  constructor
  · rw [List.nodup_cons]
    exact ⟨fun hheld => hk (h.held k hheld), h.nodup⟩
  · intro k' hk'
    rcases List.mem_cons.mp hk' with rfl | hk'
    · exact fun htaken => hk (h.taken k' htaken)
    · apply h.not_mem k' hk'
  · intro k' hk'
    apply Finset.mem_insert_of_mem (h.taken k' hk')
  · intro k' hk'
    rw [Finset.mem_insert]
    exact (List.mem_cons.mp hk').imp_right (h.held k')

/-- A held name may be released. -/
theorem Held.release {k : κ} (h : Held taken claimed (k :: held)) :
  Held taken (claimed.erase k) held
  := by
  obtain ⟨hnot, hnodup⟩ := List.nodup_cons.mp h.nodup
  constructor
  · apply hnodup
  · intro k' hk'
    apply h.not_mem k' (List.mem_cons_of_mem k hk')
  · intro k' hk'
    rw [Finset.mem_erase]
    refine ⟨?_, h.taken k' hk'⟩
    rintro rfl
    exact h.not_mem k' List.mem_cons_self hk'
  · intro k' hk'
    rw [Finset.mem_erase]
    refine ⟨?_, h.held k' (List.mem_cons_of_mem k hk')⟩
    rintro rfl
    exact hnot hk'

end Claims
