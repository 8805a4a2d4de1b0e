import Mathlib

/-!
# Framed lists

Where each element is written so that what comes first is read back first, a list is read back from
its text, also before an end of fixed length.  A list that is sorted by a key keeps the order of the
elements with one key.
-/

namespace Framed

variable {α β κ : Type*}

/-- What is written first is read back first. -/
def Cancels (code : α → List β) : Prop :=
  ∀ a b r s, code a ++ r = code b ++ s → a = b ∧ r = s

variable {code : α → List β} {n : ℕ}

/-- A list is read back from its text, where each element is longer than what comes after them. -/
theorem Cancels.flatMap_inj (hcode : Cancels code) (hlong : ∀ a, n < (code a).length) {l m : List α}
    {t u : List β} (ht : t.length = n) (hu : u.length = n)
    (h : l.flatMap code ++ t = m.flatMap code ++ u) :
  l = m
  := by
  induction l generalizing m with
  | nil =>
      cases m with
      | nil => rfl
      | cons b m =>
          have hlength := congrArg List.length h
          rw [List.flatMap_cons, List.append_assoc, List.flatMap_nil, List.nil_append,
            List.length_append] at hlength
          have hb := hlong b
          omega
  | cons a l ih =>
      cases m with
      | nil =>
          have hlength := congrArg List.length h
          rw [List.flatMap_cons, List.append_assoc, List.flatMap_nil, List.nil_append,
            List.length_append] at hlength
          have ha := hlong a
          omega
      | cons b m =>
          rw [List.flatMap_cons, List.flatMap_cons, List.append_assoc, List.append_assoc] at h
          obtain ⟨rfl, hrest⟩ := hcode a b _ _ h
          rw [ih hrest]

/-! ### Sorting by a key -/

variable [LinearOrder κ] (key : α → κ)

/-- The elements in the order of their keys. -/
def sortBy (l : List α) : List α := l.insertionSort fun a b => key a ≤ key b

theorem perm_sortBy (l : List α) : (sortBy key l).Perm l := List.perm_insertionSort _ l

theorem pairwise_sortBy (l : List α) :
  (sortBy key l).Pairwise fun a b => key a ≤ key b
  := by
  have : Std.Total fun a b => key a ≤ key b := ⟨fun a b => le_total (key a) (key b)⟩
  have : IsTrans α fun a b => key a ≤ key b := ⟨fun _ _ _ => le_trans⟩
  exact List.pairwise_insertionSort _ l

/-- Those with one key stay in their order. -/
theorem filter_sortBy (k : κ) (l : List α) :
  (sortBy key l).filter (fun a => key a = k) = l.filter fun a => key a = k
  := by
  induction l with
  | nil => rfl
  | cons a l ih =>
      have hsort : sortBy key (a :: l)
          = ((sortBy key l).takeWhile fun b => ¬key a ≤ key b)
            ++ a :: (sortBy key l).dropWhile fun b => ¬key a ≤ key b :=
        List.insertionSort_cons_eq_take_drop ..
      have hsplit : ((sortBy key l).takeWhile fun b => ¬key a ≤ key b).filter (fun a => key a = k)
          ++ ((sortBy key l).dropWhile fun b => ¬key a ≤ key b).filter (fun a => key a = k)
          = l.filter fun a => key a = k := by
        rw [← List.filter_append, List.takeWhile_append_dropWhile, ih]
      rw [hsort, List.filter_append]
      by_cases hk : key a = k
      · have hbefore : ((sortBy key l).takeWhile fun b => ¬key a ≤ key b).filter
            (fun a => key a = k) = [] := by
          rw [List.filter_eq_nil_iff]
          intro b hb hbk
          have hnot := List.mem_takeWhile_imp hb
          simp only [decide_eq_true_eq] at hbk hnot
          rw [hk, ← hbk] at hnot
          exact hnot le_rfl
        rw [hbefore, List.nil_append] at hsplit
        rw [hbefore, List.nil_append, List.filter_cons_of_pos (by simpa using hk),
          List.filter_cons_of_pos (by simpa using hk), hsplit]
      · rw [List.filter_cons_of_neg (by simpa using hk), List.filter_cons_of_neg (by simpa using hk),
          hsplit]

/-- The order before sorting does not matter exactly when the key tells the elements apart. -/
theorem sortBy_eq_iff (l : List α) :
  (∀ m, l.Perm m → sortBy key l = sortBy key m) ↔ ∀ a ∈ l, ∀ b ∈ l, key a = key b → a = b
  := by
  classical
  constructor
  · intro h a ha b hb hkey
    by_contra hne
    have hb' : b ∈ l.erase a := (List.mem_erase_of_ne fun heq => hne heq.symm).mpr hb
    have hperm : l.Perm (a :: b :: (l.erase a).erase b) :=
      (List.perm_cons_erase ha).trans ((List.perm_cons_erase hb').cons a)
    have hperm' : l.Perm (b :: a :: (l.erase a).erase b) := hperm.trans (List.Perm.swap ..)
    have heq := filter_sortBy key (key a) (a :: b :: (l.erase a).erase b)
    rw [← h _ hperm, h _ hperm', filter_sortBy, List.filter_cons_of_pos (by simpa using hkey.symm),
      List.filter_cons_of_pos (by simp), List.filter_cons_of_pos (by simp)] at heq
    exact hne (List.cons.inj heq).1.symm
  · intro h m hperm
    apply List.Perm.eq_of_pairwise ?_ (pairwise_sortBy key l) (pairwise_sortBy key m)
    · exact (perm_sortBy key l).trans (hperm.trans (perm_sortBy key m).symm)
    · intro a b ha hb hle hle'
      have ha := (perm_sortBy key l).mem_iff.mp ha
      have hb := hperm.mem_iff.mpr ((perm_sortBy key m).mem_iff.mp hb)
      exact h a ha b hb (le_antisymm hle hle')

end Framed
