import Mathlib

/-!
# Hash chains

A list of entries is linked when every entry names the digest of the one before it.  A
linked list is determined by the digest it starts from and the digest it ends with, as
long as the digests are collision-free; and a linked list of entries of another one from
the same start is an initial segment of it.
-/

namespace HashChain

variable {ε η : Type*} (digest parent : ε → η)

/-- Every entry names the digest of the one before it, the first names `h`. -/
def Linked : η → List ε → Prop
  | _, [] => True
  | h, e :: es => parent e = h ∧ Linked (digest e) es

/-- The digest a chain from `h` ends with. -/
def tip : η → List ε → η
  | h, [] => h
  | _, e :: es => tip (digest e) es

variable {digest parent}

@[simp]
theorem tip_nil (h : η) : tip digest h [] = h := rfl

@[simp]
theorem tip_concat (h : η) (es : List ε) (e : ε) : tip digest h (es ++ [e]) = digest e := by
  induction es generalizing h with
  | nil => rfl
  | cons f es ih => apply ih

theorem tip_append (h : η) (es fs : List ε) :
  tip digest h (es ++ fs) = tip digest (tip digest h es) fs
  := by
  induction es generalizing h with
  | nil => rfl
  | cons e es ih => apply ih

theorem linked_append {h : η} {es fs : List ε} :
  Linked digest parent h (es ++ fs)
    ↔ Linked digest parent h es ∧ Linked digest parent (tip digest h es) fs
  := by
  induction es generalizing h with
  | nil => simp [Linked]
  | cons e es ih =>
      simp only [List.cons_append, Linked, tip, ih]
      tauto

theorem linked_concat {h : η} {es : List ε} {e : ε} :
  Linked digest parent h (es ++ [e])
    ↔ Linked digest parent h es ∧ parent e = tip digest h es
  := by
  rw [linked_append]
  simp [Linked]

/-- A list is linked when each entry names the digest of the entry at the place before its
own. -/
theorem linked_of_getElem
    {h : η} {es : List ε} (hfirst : ∀ e, es[0]? = some e → parent e = h)
    (hnext : ∀ i e f, es[i]? = some e → es[i + 1]? = some f → parent f = digest e) :
  Linked digest parent h es
  := by
  induction es generalizing h with
  | nil => trivial
  | cons e es ih =>
      constructor
      · exact hfirst e rfl
      · apply ih
        · intro f hf
          exact hnext 0 e f rfl hf
        · intro i f g hf hg
          exact hnext (i + 1) f g hf hg

/-- The tip of a chain is the digest of its last entry. -/
theorem tip_eq_getLast? (h : η) (es : List ε) :
  tip digest h es = (es.getLast?.map digest).getD h
  := by
  cases es using List.reverseRecOn with
  | nil => rfl
  | append_singleton es e => simp

/-- The tip of a chain that goes on is a digest of one of its entries. -/
theorem tip_mem (h : η) {es : List ε} (hes : es ≠ []) :
  ∃ e ∈ es, tip digest h es = digest e
  := by
  cases es using List.reverseRecOn with
  | nil => contradiction
  | append_singleton fs e => use e, by simp, tip_concat h fs e

/-- Two chains with the same start and the same tip are the same when no two entries and
not the start share a digest. -/
theorem eq_of_tip_eq
    {h : η} {es fs : List ε} (he : Linked digest parent h es) (hf : Linked digest parent h fs)
    (hinj : ∀ e ∈ es, ∀ f ∈ fs, digest e = digest f → e = f)
    (hes : ∀ e ∈ es, digest e ≠ h) (hfs : ∀ f ∈ fs, digest f ≠ h)
    (htip : tip digest h es = tip digest h fs) :
  es = fs
  := by
  induction es using List.reverseRecOn generalizing fs with
  | nil =>
      by_contra hne
      obtain ⟨f, hmem, hf⟩ : ∃ f ∈ fs, tip digest h fs = digest f := tip_mem h (Ne.symm hne)
      apply hfs f hmem
      rw [← hf, ← htip, tip_nil]
  | append_singleton es e ih =>
      cases fs using List.reverseRecOn with
      | nil =>
          rw [tip_concat, tip_nil] at htip
          exact absurd htip (hes e (by simp))
      | append_singleton fs f =>
          rw [tip_concat, tip_concat] at htip
          obtain rfl : e = f := hinj e (by simp) f (by simp) htip
          obtain ⟨he, hparent⟩ := linked_concat.mp he
          obtain ⟨hf, hparent'⟩ := linked_concat.mp hf
          rw [ih he hf]
          · intro a ha b hb
            apply hinj a (by simp [ha]) b (by simp [hb])
          · intro a ha
            apply hes a (by simp [ha])
          · intro b hb
            apply hfs b (by simp [hb])
          · rw [← hparent, ← hparent']

/-- An entry after the first names the digest of another entry. -/
theorem parent_mem
    {h : η} {es : List ε} (hes : Linked digest parent h es) {e : ε} (he : e ∈ es) :
  parent e = h ∨ ∃ f ∈ es, parent e = digest f
  := by
  induction es generalizing h with
  | nil => cases he
  | cons f es ih =>
      rcases List.mem_cons.mp he with rfl | he
      · exact Or.inl hes.1
      · right
        rcases ih hes.2 he with hp | ⟨g, hg, hp⟩
        · exact ⟨f, List.mem_cons_self, hp⟩
        · exact ⟨g, List.mem_cons_of_mem _ hg, hp⟩

/-- A chain made of entries of another chain with the same start is an initial segment of
it when no two entries and not the start share a digest. -/
theorem prefix_of_subset
    {h : η} {es fs : List ε} (he : Linked digest parent h es) (hf : Linked digest parent h fs)
    (hsub : ∀ e ∈ es, e ∈ fs) (hnodup : (h :: fs.map digest).Nodup) :
  es <+: fs
  := by
  induction es generalizing h fs with
  | nil => exact List.nil_prefix
  | cons e es ih =>
      cases fs with
      | nil => simpa using hsub e
      | cons f fs =>
          rw [List.map_cons, List.nodup_cons] at hnodup
          have hstart : ∀ g ∈ f :: fs, digest g ≠ h := by
            intro g hg hgh
            apply hnodup.1
            rw [← hgh, ← List.map_cons]
            exact List.mem_map_of_mem hg
          -- an entry of the tail names a digest of the chain, never its start
          have htail : ∀ g ∈ fs, parent g ≠ h := by
            intro g hg hgh
            rcases parent_mem hf.2 hg with hp | ⟨k, hk, hp⟩
            · apply hstart f List.mem_cons_self
              rw [← hp, hgh]
            · apply hstart k (List.mem_cons_of_mem _ hk)
              rw [← hp, hgh]
          obtain rfl : e = f := by
            rcases List.mem_cons.mp (hsub e List.mem_cons_self) with rfl | hmem
            · rfl
            · exact absurd he.1 (htail e hmem)
          rw [List.cons_prefix_cons]
          refine ⟨rfl, ih he.2 hf.2 ?_ hnodup.2⟩
          intro g hg
          rcases List.mem_cons.mp (hsub g (List.mem_cons_of_mem _ hg)) with rfl | hmem
          · exfalso
            rcases parent_mem he.2 hg with hp | ⟨k, hk, hp⟩
            · apply hstart g List.mem_cons_self
              rw [← hp, he.1]
            · apply hstart k (hsub k (List.mem_cons_of_mem _ hk))
              rw [← hp, he.1]
          · exact hmem

end HashChain
