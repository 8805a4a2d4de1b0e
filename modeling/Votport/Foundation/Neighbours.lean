import Mathlib.Data.List.Lex
import Mathlib.Data.List.Sort
import Votport.Foundation.Listings
import Votport.Foundation.Segments

/-!
# Neighbours in a sorted list

Lists are sorted by their first different elements.  When the separator is the least element, whatever
lies between a list and one that it is above has the list above it too.  So a sorted list in which no
element is above the next has none that is above another.
-/

namespace Neighbours

open Segments Listings

variable {α : Type*} [LinearOrder α] {sep : α} {l m n : List α}

theorem cons_le_cons_iff {a b : α} :
  a :: l ≤ b :: m ↔ a < b ∨ a = b ∧ l ≤ m
  := by
  rw [← not_lt, List.cons_lt_cons_iff, not_or, not_and, not_lt]
  constructor
  · rintro ⟨hle, hlist⟩
    obtain hlt | rfl := hle.lt_or_eq
    · exact Or.inl hlt
    · exact Or.inr ⟨rfl, not_lt.mp (hlist rfl)⟩
  · rintro (hlt | ⟨rfl, hle⟩)
    · exact ⟨hlt.le, fun heq => absurd hlt (by rw [heq]; exact lt_irrefl _)⟩
    · exact ⟨le_rfl, fun _ => not_lt.mpr hle⟩

theorem le_append (l m : List α) :
  l ≤ l ++ m
  := by
  induction l with
  | nil => exact not_lt.mp (List.not_lt_nil _)
  | cons a l ih => exact cons_le_cons_iff.mpr (Or.inr ⟨rfl, ih⟩)

/-- What lies between a list and one that it is above. -/
theorem above_of_between (hsep : ∀ a, sep ≤ a) (hlm : l ≤ m) (hmn : m ≤ n) (h : Above sep l n) :
  Above sep l m
  := by
  obtain rfl | ⟨rest, rfl⟩ := h
  · exact Or.inl (le_antisymm hlm hmn)
  · rw [List.append_assoc, List.singleton_append] at hmn
    induction l generalizing m with
    | nil =>
        cases m with
        | nil => exact Or.inl rfl
        | cons a m =>
            obtain hlt | ⟨rfl, _⟩ := cons_le_cons_iff.mp hmn
            · exact absurd hlt (not_lt.mpr (hsep a))
            · exact Or.inr ⟨m, rfl⟩
    | cons b l ih =>
        cases m with
        | nil => exact absurd hlm (by simp)
        | cons a m =>
            have hle : a ≤ b := by
              obtain hlt | ⟨heq, _⟩ := cons_le_cons_iff.mp hmn
              · exact hlt.le
              · exact heq.le
            obtain hlt | ⟨rfl, hlist⟩ := cons_le_cons_iff.mp hlm
            · exact absurd hlt (not_lt.mpr hle)
            · obtain hlt | ⟨_, hmn⟩ := cons_le_cons_iff.mp hmn
              · exact absurd hlt (lt_irrefl _)
              · obtain rfl | ⟨tail, rfl⟩ := ih hlist hmn
                · exact Or.inl rfl
                · exact Or.inr ⟨tail, rfl⟩

/-- In a sorted list it is enough to look at neighbours. -/
theorem pairwise_of_neighbours (hsep : ∀ a, sep ≤ a) {keys : List (List α)}
    (hsorted : keys.Pairwise (· ≤ ·))
    (hbeside : ∀ pair ∈ keys.zip keys.tail, ¬Above sep pair.1 pair.2) :
  keys.Pairwise fun key key' => ¬Above sep key key'
  := by
  induction keys with
  | nil => exact .nil
  | cons key keys ih =>
      obtain ⟨hle, hrest⟩ := List.pairwise_cons.mp hsorted
      cases keys with
      | nil => exact List.pairwise_singleton _ _
      | cons next keys =>
          have htail := ih hrest fun pair hpair => hbeside pair (List.mem_cons_of_mem _ hpair)
          refine List.pairwise_cons.mpr ⟨?_, htail⟩
          intro other hother habove
          have hnext : next ≤ other := by
            obtain rfl | hother := List.mem_cons.mp hother
            · exact le_rfl
            · exact (List.pairwise_cons.mp hrest).1 other hother
          exact hbeside (key, next) (List.mem_cons_self ..)
            (above_of_between hsep (hle next (List.mem_cons_self ..)) hnext habove)

/-- Neighbours are a pair of the list. -/
theorem mem_zip_tail {β : Type*} {keys : List β} {pair : β × β} (h : pair ∈ keys.zip keys.tail)
    {R : β → β → Prop} (hkeys : keys.Pairwise R) :
  R pair.1 pair.2
  := by
  induction keys with
  | nil => cases h
  | cons key keys ih =>
      cases keys with
      | nil => cases h
      | cons next keys =>
          obtain ⟨hfirst, hrest⟩ := List.pairwise_cons.mp hkeys
          obtain rfl | h := List.mem_cons.mp h
          · exact hfirst next (List.mem_cons_self ..)
          · exact ih h hrest

/-- A path is above another when its names come first in the other. -/
theorem above_join_iff {β : Type*} {sep : β} {p q : List (List β)} (hp : p ≠ []) (hq : q ≠ [])
    (hnp : ∀ n ∈ p, sep ∉ n) (hnq : ∀ n ∈ q, sep ∉ n) :
  Above sep (join sep p) (join sep q) ↔ p <+: q
  := by
  classical
  have hsplit : ∀ {r : List (List β)}, r ≠ [] → (∀ n ∈ r, sep ∉ n) →
      (join sep r).splitOn sep = r :=
    fun hr hn => List.splitOn_intercalate sep (fun n h => hn n h) hr
  constructor
  · rintro (heq | ⟨rest, hrest⟩)
    · rw [← hsplit hp hnp, heq, hsplit hq hnq]
    · have hsplits := congrArg (List.splitOn sep) hrest
      rw [hsplit hq hnq, List.append_assoc, List.singleton_append, List.splitOn_append_cons_self,
        hsplit hp hnp] at hsplits
      exact ⟨_, hsplits⟩
  · rintro ⟨rest, rfl⟩
    by_cases hrest : rest = []
    · subst hrest
      exact Or.inl (by rw [List.append_nil])
    · right
      rw [join_append hp hrest]
      exact ⟨join sep rest, by simp⟩

end Neighbours
