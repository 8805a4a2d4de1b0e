import Mathlib

/-!
# Saturating arithmetic of 64-bit words

Addition that stops at the largest word and subtraction that stops at zero.  The rules
say which natural numbers the results stand for, and what a comparison with a budget
from which several amounts were taken says about their sum.
-/

namespace Saturating

/-- The sum, or the largest word when the sum does not fit. -/
def add (a b : UInt64) : UInt64 :=
  if a.toNat + b.toNat < 2 ^ 64 then a + b else UInt64.ofNat (2 ^ 64 - 1)

/-- The difference, or zero when it would be negative. -/
def sub (a b : UInt64) : UInt64 :=
  if b ≤ a then a - b else 0

/-- The sum of a list, taken from the left starting from zero. -/
def sum (l : List UInt64) : UInt64 :=
  l.foldl add 0

theorem toNat_add (a b : UInt64) :
  (add a b).toNat = min (a.toNat + b.toNat) (2 ^ 64 - 1)
  := by
  rw [add]
  split_ifs with h
  · rw [UInt64.toNat_add, Nat.mod_eq_of_lt h]
    omega
  · have hmax : (UInt64.ofNat (2 ^ 64 - 1)).toNat = 2 ^ 64 - 1 := by decide
    rw [hmax]
    omega

theorem toNat_sub (a b : UInt64) :
  (sub a b).toNat = a.toNat - b.toNat
  := by
  rw [sub]
  split_ifs with h
  · apply UInt64.toNat_sub_of_le a b h
  · rw [UInt64.le_iff_toNat_le] at h
    have hzero : (0 : UInt64).toNat = 0 := rfl
    rw [hzero]
    omega

theorem toNat_foldl_add (l : List UInt64) (a : UInt64) :
  (l.foldl add a).toNat = min (a.toNat + (l.map UInt64.toNat).sum) (2 ^ 64 - 1)
  := by
  induction l generalizing a with
  | nil =>
      have := a.toNat_lt
      simp only [List.foldl_nil, List.map_nil, List.sum_nil, Nat.add_zero]
      omega
  | cons b l ih =>
      rw [List.foldl_cons, ih, toNat_add, List.map_cons, List.sum_cons]
      omega

/-- A saturating sum is the sum, cut at the largest word. -/
theorem toNat_sum (l : List UInt64) :
  (sum l).toNat = min (l.map UInt64.toNat).sum (2 ^ 64 - 1)
  := by
  rw [sum, toNat_foldl_add]
  have hzero : (0 : UInt64).toNat = 0 := rfl
  rw [hzero, Nat.zero_add]

/-- An amount of at least one that fits what is left of a budget after three others
were taken fits the budget together with them, however large their sums are. -/
theorem add_le_of_le_sub
    {x budget a : UInt64} {bs cs : List UInt64}
    (hx : 0 < x.toNat) (h : x ≤ sub (sub (sub budget a) (sum bs)) (sum cs)) :
  a.toNat + (bs.map UInt64.toNat).sum + (cs.map UInt64.toNat).sum + x.toNat ≤ budget.toNat
  := by
  rw [UInt64.le_iff_toNat_le, toNat_sub, toNat_sub, toNat_sub, toNat_sum, toNat_sum] at h
  have := budget.toNat_lt
  omega

end Saturating
