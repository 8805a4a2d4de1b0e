import Mathlib

/-!
# Lists in segments

A separator divides a list into segments.  A list lies above another when its segments are
the first ones of the other.  What lies above one list is ordered by its number of segments.
-/

namespace Segments

variable {α : Type*} {sep : α} {l m n : List α}

/-- The segments of `l` are the first ones of `m`. -/
def Above (sep : α) (l m : List α) : Prop := l = m ∨ l ++ [sep] <+: m

theorem Above.of_concat (h : l ++ [sep] <+: m ++ [sep]) :
  Above sep l m
  := by
  rcases List.prefix_concat_iff.mp h with heq | hlt
  · exact Or.inl (List.append_cancel_right heq)
  · exact Or.inr hlt

/-- Of two lists above a third one, one lies above the other. -/
theorem Above.comparable (h : Above sep l n) (h' : Above sep m n) :
  Above sep l m ∨ Above sep m l
  := by
  rcases h with rfl | h
  · exact Or.inr h'
  · rcases h' with rfl | h'
    · exact Or.inl (Or.inr h)
    · rcases List.prefix_or_prefix_of_prefix h h' with hle | hle
      · exact Or.inl (.of_concat hle)
      · exact Or.inr (.of_concat hle)

/-- A list above another with as many segments is the other. -/
theorem Above.eq_of_count [DecidableEq α] (h : Above sep l m) (hcount : m.count sep = l.count sep) :
  l = m
  := by
  rcases h with rfl | h
  · rfl
  · have hle := h.sublist.count_le sep
    rw [List.count_append, List.count_singleton_self] at hle
    omega

end Segments
