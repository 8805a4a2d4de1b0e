import Mathlib.Data.Char
import Votport.Foundation.Fields
import Votport.Foundation.Neighbours

/-!
# Padded numbers

A number is written with a least number of digits.  Numbers that are written before marks are read
back from the text, and texts of numbers that fit are in the order of the numbers.
-/

namespace Padded

/-- A number with at least so many digits. -/
def padded (width n : ℕ) : List Char := List.leftpad width '0' (Nat.toDigits 10 n)

/-- Numbers of given widths, each before a mark. -/
def render : List (ℕ × Char) → List ℕ → List Char
  | (width, mark) :: format, n :: ns => padded width n ++ mark :: render format ns
  | _, _ => []

/-- The number that digits are read as. -/
abbrev value (digits : List Char) : ℕ := Nat.ofDigitChars 10 digits 0

variable {width n n' : ℕ} {l m : List Char}

theorem isDigit_of_mem_padded {c : Char} (h : c ∈ padded width n) :
  c.isDigit = true
  := by
  obtain h | h := List.mem_append.mp h
  · rw [(List.mem_replicate.mp h).2]
    rfl
  · exact Nat.isDigit_of_mem_toDigits (by decide) (by decide) h

theorem value_padded (width n : ℕ) :
  value (padded width n) = n
  := by
  rw [value, padded, List.leftpad, Nat.ofDigitChars_append, Nat.ofDigitChars_replicate_zero,
    Nat.mul_zero]
  exact Nat.ofDigitChars_ten_toDigits

theorem padded_inj (h : padded width n = padded width n') :
  n = n'
  := by
  have hvalue := value_padded width n
  rw [h, value_padded] at hvalue
  exact hvalue.symm

theorem length_padded (hpos : 0 < width) (h : n < 10 ^ width) :
  (padded width n).length = width
  := by
  rw [padded, List.length_leftpad]
  exact max_eq_left ((Nat.length_toDigits_le_iff (by decide) hpos).mpr h)

/-! ### Order -/

theorem value_cons (c : Char) (l : List Char) :
  value (c :: l) = 10 ^ l.length * (c.toNat - 48) + value l
  := by
  rw [value, Nat.ofDigitChars_cons, Nat.ofDigitChars_eq_ofDigitChars_zero, Nat.mul_zero, Nat.zero_add]
  rfl

theorem digit_le {c : Char} (h : c.isDigit = true) :
  48 ≤ c.toNat ∧ c.toNat ≤ 57
  := by
  rw [Char.isDigit, Bool.and_eq_true, decide_eq_true_eq, decide_eq_true_eq] at h
  exact h

theorem value_lt (h : ∀ c ∈ l, c.isDigit = true) :
  value l < 10 ^ l.length
  := by
  induction l with
  | nil => exact Nat.one_pos
  | cons c l ih =>
      have hc := digit_le (h c (List.mem_cons_self ..))
      have hl := ih fun c hc => h c (List.mem_cons_of_mem _ hc)
      rw [value_cons, List.length_cons, Nat.pow_succ]
      calc 10 ^ l.length * (c.toNat - 48) + value l
          < 10 ^ l.length * (c.toNat - 48) + 10 ^ l.length := by omega
        _ = 10 ^ l.length * (c.toNat - 48 + 1) := by rw [Nat.mul_succ]
        _ ≤ 10 ^ l.length * 10 := Nat.mul_le_mul_left _ (by omega)

/-- Digits that come first in the order make the least number. -/
theorem value_le_of_le (hlen : l.length = m.length) (hl : ∀ c ∈ l, c.isDigit = true)
    (hm : ∀ c ∈ m, c.isDigit = true) (h : l ≤ m) :
  value l ≤ value m
  := by
  induction l generalizing m with
  | nil => exact Nat.zero_le _
  | cons c l ih =>
      cases m with
      | nil => cases hlen
      | cons d m =>
          replace hlen : l.length = m.length := Nat.succ.inj hlen
          have hl' : ∀ c ∈ l, c.isDigit = true := fun c hc => hl c (List.mem_cons_of_mem _ hc)
          have hm' : ∀ c ∈ m, c.isDigit = true := fun c hc => hm c (List.mem_cons_of_mem _ hc)
          have hc := digit_le (hl c (List.mem_cons_self ..))
          rw [value_cons, value_cons, hlen]
          obtain hlt | ⟨rfl, hle⟩ := Neighbours.cons_le_cons_iff.mp h
          · have hlt : c.toNat < d.toNat := hlt
            have hfill := value_lt hl'
            rw [hlen] at hfill
            calc 10 ^ m.length * (c.toNat - 48) + value l
                ≤ 10 ^ m.length * (c.toNat - 48) + 10 ^ m.length := by omega
              _ = 10 ^ m.length * (c.toNat - 48 + 1) := by rw [Nat.mul_succ]
              _ ≤ 10 ^ m.length * (d.toNat - 48) := Nat.mul_le_mul_left _ (by omega)
              _ ≤ 10 ^ m.length * (d.toNat - 48) + value m := Nat.le_add_right _ _
          · exact Nat.add_le_add_left (ih hlen hl' hm' hle) _

theorem padded_lt_padded (hpos : 0 < width) (h : n < n') (hn' : n' < 10 ^ width) :
  padded width n < padded width n'
  := by
  by_contra hnot
  have hlen : (padded width n').length = (padded width n).length := by
    rw [length_padded hpos hn', length_padded hpos (h.trans hn')]
  have hvalue := value_le_of_le hlen (fun c => isDigit_of_mem_padded)
    (fun c => isDigit_of_mem_padded) (not_lt.mp hnot)
  rw [value_padded, value_padded] at hvalue
  exact absurd h (not_lt.mpr hvalue)

/-! ### Texts -/

theorem append_lt_append {α : Type*} [LinearOrder α] {l m : List α} (hlen : l.length = m.length)
    (h : l < m) (r s : List α) :
  l ++ r < m ++ s
  := by
  induction l generalizing m with
  | nil =>
      rw [List.length_eq_zero_iff.mp hlen.symm] at h
      exact absurd h (lt_irrefl _)
  | cons a l ih =>
      cases m with
      | nil => cases hlen
      | cons b m =>
          rw [List.cons_append, List.cons_append, List.cons_lt_cons_iff]
          obtain hlt | ⟨rfl, hlt⟩ := List.cons_lt_cons_iff.mp h
          · exact Or.inl hlt
          · exact Or.inr ⟨rfl, ih (Nat.succ.inj hlen) hlt⟩

theorem append_lt_append_left {α : Type*} [LinearOrder α] (l : List α) {r s : List α} (h : r < s) :
  l ++ r < l ++ s
  := by
  induction l with
  | nil => exact h
  | cons a l ih => exact List.cons_lt_cons_iff.mpr (Or.inr ⟨rfl, ih⟩)

variable {format : List (ℕ × Char)} {ns ns' : List ℕ}

/-- The numbers are read back from their text. -/
theorem render_inj (hformat : ∀ field ∈ format, field.2.isDigit = false)
    (hns : ns.length = format.length) (hns' : ns'.length = format.length)
    (h : render format ns = render format ns') :
  ns = ns'
  := by
  induction format generalizing ns ns' with
  | nil => rw [List.length_eq_zero_iff.mp hns, List.length_eq_zero_iff.mp hns']
  | cons field format ih =>
      obtain ⟨width, mark⟩ := field
      have hmark : ∀ n, mark ∉ padded width n := by
        intro n hmem
        have hdigit := hformat (width, mark) (List.mem_cons_self ..)
        rw [isDigit_of_mem_padded hmem] at hdigit
        cases hdigit
      match ns, ns', hns, hns' with
      | n :: ns, n' :: ns', hns, hns' =>
          obtain ⟨hfirst, hrest⟩ := Fields.append_cons_inj (hmark n) (hmark n') h
          rw [padded_inj hfirst, ih (fun field hfield => hformat field (List.mem_cons_of_mem _ hfield))
            (Nat.succ.inj hns) (Nat.succ.inj hns') hrest]

/-- Each number can be written with its width. -/
def Fits (format : List (ℕ × Char)) (ns : List ℕ) : Prop :=
  List.Forall₂ (fun field n => 0 < field.1 ∧ n < 10 ^ field.1) format ns

/-- Texts of numbers that fit are in the order of the numbers. -/
theorem render_lt_render (hns : Fits format ns) (hns' : Fits format ns') (h : ns < ns') :
  render format ns < render format ns'
  := by
  induction hns generalizing ns' with
  | nil =>
      cases hns'
      exact absurd h (lt_irrefl _)
  | @cons field n format ns hfit _ ih =>
      cases hns' with
      | @cons _ n' _ ns' hfit' hrest' =>
          obtain ⟨width, mark⟩ := field
          rw [render, render]
          obtain hlt | ⟨rfl, hlt⟩ := List.cons_lt_cons_iff.mp h
          · apply append_lt_append
            · rw [length_padded hfit.1 hfit.2, length_padded hfit'.1 hfit'.2]
            · exact padded_lt_padded hfit.1 hlt hfit'.2
          · apply append_lt_append_left
            exact List.cons_lt_cons_iff.mpr (Or.inr ⟨rfl, ih hrest' hlt⟩)

end Padded
