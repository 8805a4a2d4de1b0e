import Mathlib

/-!
# Texts cut into fields

A list is cut at the first separator.  Parts without a terminator, each followed by it, can be read
back from what they are joined to, when their number is known; so can a number from its bytes.
-/

namespace Fields

/-- Texts are compared as lists of characters. -/
theorem lawful_texts : LawfulBEq (List Char) := inferInstance

variable {α : Type*} [DecidableEq α] {sep : α}

/-! ### Cutting at a separator -/

/-- What is before the first separator and what is after it. -/
def splitOnce (sep : α) : List α → Option (List α × List α)
  | [] => none
  | a :: l => if a = sep then some ([], l) else (splitOnce sep l).map fun p => (a :: p.1, p.2)

theorem splitOnce_eq_some {l x y : List α} :
  splitOnce sep l = some (x, y) ↔ l = x ++ sep :: y ∧ sep ∉ x
  := by
  induction l generalizing x with
  | nil => simp [splitOnce]
  | cons a l ih =>
      rw [splitOnce]
      split_ifs with ha
      · constructor
        · intro h
          cases h
          simp [ha]
        · rintro ⟨h, hx⟩
          cases x with
          | nil =>
              cases h
              rfl
          | cons b x =>
              cases (List.cons.inj h).1
              exact absurd (ha ▸ List.mem_cons_self) hx
      · rw [Option.map_eq_some_iff]
        constructor
        · rintro ⟨⟨x', y'⟩, h, he⟩
          cases he
          obtain ⟨rfl, hx⟩ := ih.mp h
          refine ⟨rfl, ?_⟩
          simp only [List.mem_cons, not_or]
          exact ⟨Ne.symm ha, hx⟩
        · rintro ⟨h, hx⟩
          cases x with
          | nil => exact absurd (List.cons.inj h).1 ha
          | cons b x =>
              obtain ⟨rfl, hrest⟩ := List.cons.inj h
              refine ⟨(x, y), ih.mpr ⟨hrest, ?_⟩, rfl⟩
              intro hmem
              apply hx (List.mem_cons_of_mem a hmem)

theorem splitOnce_append {x : List α} (hx : sep ∉ x) (y : List α) :
  splitOnce sep (x ++ sep :: y) = some (x, y)
  := splitOnce_eq_some.mpr ⟨rfl, hx⟩

theorem splitOnce_eq_none {l : List α} : splitOnce sep l = none ↔ sep ∉ l := by
  induction l with
  | nil => simp [splitOnce]
  | cons a l ih =>
      rw [splitOnce]
      split_ifs with ha
      · simp [ha]
      · rw [Option.map_eq_none_iff, ih, List.mem_cons, not_or]
        constructor
        · intro h
          exact ⟨Ne.symm ha, h⟩
        · rintro ⟨_, h⟩
          exact h

/-- Two texts that are equal are cut at the same place. -/
theorem append_cons_inj {x x' y y' : List α} (hx : sep ∉ x) (hx' : sep ∉ x')
    (h : x ++ sep :: y = x' ++ sep :: y') :
  x = x' ∧ y = y'
  := by
  have hcut := splitOnce_append hx y
  rw [h, splitOnce_append hx' y'] at hcut
  cases hcut
  exact ⟨rfl, rfl⟩

/-! ### Cutting at the last separator -/

/-- What is before the last occurrence of a separating text and what is after it. -/
def rsplitOnce (mark : List α) : List α → Option (List α × List α)
  | [] => none
  | a :: l =>
      match rsplitOnce mark l with
      | some (x, y) => some (a :: x, y)
      | none => if mark <+: a :: l then some ([], (a :: l).drop mark.length) else none

theorem append_of_rsplitOnce {mark l x y : List α} (h : rsplitOnce mark l = some (x, y)) :
  l = x ++ (mark ++ y)
  := by
  induction l generalizing x with
  | nil => cases h
  | cons a l ih =>
      rw [rsplitOnce] at h
      split at h
      case h_1 x' y' hrest =>
        cases h
        exact congrArg (a :: ·) (ih hrest)
      case h_2 hrest =>
        obtain ⟨hmark, h⟩ := Option.ite_none_right_eq_some.mp h
        cases h
        obtain ⟨y, hy⟩ := hmark
        rw [← hy, List.drop_left, List.nil_append]

theorem rsplitOnce_of_notMem {a : α} {mark l : List α} (h : a ∉ l) :
  rsplitOnce (a :: mark) l = none
  := by
  induction l with
  | nil => rfl
  | cons b l ih =>
      rw [rsplitOnce, ih (List.not_mem_of_not_mem_cons h)]
      refine if_neg fun hmark => h ?_
      rw [(List.cons_prefix_cons.mp hmark).1]
      exact List.mem_cons_self

/-- When nothing that follows begins like the separating text, this is its last occurrence. -/
theorem rsplitOnce_append {a : α} {mark x y : List α} (h : a ∉ mark ++ y) :
  rsplitOnce (a :: mark) (x ++ (a :: mark ++ y)) = some (x, y)
  := by
  induction x with
  | nil =>
      rw [List.nil_append, List.cons_append, rsplitOnce, rsplitOnce_of_notMem h]
      have hmark : a :: mark <+: a :: (mark ++ y) :=
        List.cons_prefix_cons.mpr ⟨rfl, List.prefix_append _ _⟩
      dsimp only
      rw [if_pos hmark, List.length_cons, List.drop_succ_cons, List.drop_left]
  | cons b x ih => rw [List.cons_append, rsplitOnce, ih]

/-- What is before a text at the end. -/
def stripSuffix (ending l : List α) : Option (List α) :=
  if ending <:+ l then some (l.take (l.length - ending.length)) else none

theorem stripSuffix_eq_some {ending l x : List α} :
  stripSuffix ending l = some x ↔ l = x ++ ending
  := by
  rw [stripSuffix, Option.ite_none_right_eq_some]
  constructor
  · rintro ⟨⟨y, rfl⟩, h⟩
    rw [List.length_append, Nat.add_sub_cancel, List.take_left] at h
    cases h
    rfl
  · rintro rfl
    rw [List.length_append, Nat.add_sub_cancel, List.take_left]
    exact ⟨List.suffix_append _ _, rfl⟩

/-! ### Parts with a terminator -/

omit [DecidableEq α] in
/-- The parts, each followed by the terminator. -/
def terminated (sep : α) (parts : List (List α)) : List α := parts.flatMap (· ++ [sep])

omit [DecidableEq α] in
theorem terminated_cons (part : List α) (parts : List (List α)) (rest : List α) :
  terminated sep (part :: parts) ++ rest = part ++ sep :: (terminated sep parts ++ rest)
  := by
  simp [terminated]

/-- As many parts can be read back. -/
theorem terminated_inj
    {parts parts' : List (List α)} {rest rest' : List α} (hlength : parts.length = parts'.length)
    (hparts : ∀ part ∈ parts, sep ∉ part) (hparts' : ∀ part ∈ parts', sep ∉ part)
    (h : terminated sep parts ++ rest = terminated sep parts' ++ rest') :
  parts = parts' ∧ rest = rest'
  := by
  induction parts generalizing parts' with
  | nil =>
      cases List.length_eq_zero_iff.mp hlength.symm
      exact ⟨rfl, h⟩
  | cons part parts ih =>
      cases parts' with
      | nil => cases hlength
      | cons part' parts' =>
          rw [terminated_cons, terminated_cons] at h
          obtain ⟨rfl, hrest⟩ := append_cons_inj (hparts part List.mem_cons_self)
            (hparts' part' List.mem_cons_self) h
          obtain ⟨rfl, rfl⟩ := ih (Nat.succ.inj hlength)
            (fun part hmem => hparts part (List.mem_cons_of_mem _ hmem))
            (fun part hmem => hparts' part (List.mem_cons_of_mem _ hmem)) hrest
          exact ⟨rfl, rfl⟩

/-! ### Bytes of a number -/

/-- The bytes of a number, the low one first. -/
def leBytes : Nat → Nat → List UInt8
  | 0, _ => []
  | count + 1, n => UInt8.ofNat (n % 256) :: leBytes count (n / 256)

@[simp]
theorem length_leBytes (count n : Nat) : (leBytes count n).length = count := by
  induction count generalizing n with
  | zero => rfl
  | succ count ih => rw [leBytes, List.length_cons, ih]

/-- A number is determined by bytes that hold it. -/
theorem leBytes_inj {count m n : Nat} (hm : m < 256 ^ count) (hn : n < 256 ^ count)
    (h : leBytes count m = leBytes count n) :
  m = n
  := by
  induction count generalizing m n with
  | zero => omega
  | succ count ih =>
      rw [leBytes, leBytes] at h
      obtain ⟨hlow, hhigh⟩ := List.cons.inj h
      have hlow : m % 256 = n % 256 := by
        have := congrArg UInt8.toNat hlow
        rw [UInt8.toNat_ofNat', UInt8.toNat_ofNat'] at this
        omega
      rw [Nat.pow_succ] at hm hn
      have hhigh := ih (by omega) (by omega) hhigh
      omega

end Fields
