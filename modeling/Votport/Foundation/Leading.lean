import Mathlib

/-!
# Leading bits

Some bytes are read as a number, the first byte being the highest.  The leading bits of two of the
same length agree exactly when so do the bytes they fill and the upper part of the next one.
-/

namespace Leading

/-- The number that bytes are read as. -/
def value : List UInt8 → ℕ
  | [] => 0
  | b :: bytes => b.toNat * 2 ^ (8 * bytes.length) + value bytes

/-- The first bits of the number. -/
def leading (bytes : List UInt8) (bits : ℕ) : ℕ := value bytes / 2 ^ (8 * bytes.length - bits)

theorem value_lt (bytes : List UInt8) :
  value bytes < 2 ^ (8 * bytes.length)
  := by
  induction bytes with
  | nil => exact Nat.one_pos
  | cons b bytes ih =>
      have hb : b.toNat + 1 ≤ 2 ^ 8 := b.toNat_lt
      rw [value, List.length_cons, Nat.mul_succ, Nat.pow_add, Nat.mul_comm (2 ^ (8 * _))]
      calc b.toNat * 2 ^ (8 * bytes.length) + value bytes
          < b.toNat * 2 ^ (8 * bytes.length) + 2 ^ (8 * bytes.length) := by omega
        _ = (b.toNat + 1) * 2 ^ (8 * bytes.length) := by ring
        _ ≤ 2 ^ 8 * 2 ^ (8 * bytes.length) := Nat.mul_le_mul_right _ hb

variable {b c : UInt8} {bytes others : List UInt8} {bits : ℕ}

theorem leading_cons_of_le (hle : 8 ≤ bits) (hbits : bits ≤ 8 * (bytes.length + 1)) :
  leading (b :: bytes) bits = b.toNat * 2 ^ (bits - 8) + leading bytes (bits - 8)
  := by
  have hwidth : 8 * bytes.length - (bits - 8) = 8 * (bytes.length + 1) - bits := by omega
  have hpow : 2 ^ (8 * bytes.length)
      = 2 ^ (bits - 8) * 2 ^ (8 * (bytes.length + 1) - bits) := by
    rw [← Nat.pow_add]
    congr 1
    omega
  rw [leading, leading, value, List.length_cons, hwidth, hpow, ← Nat.mul_assoc, Nat.add_comm,
    Nat.add_mul_div_right _ _ (Nat.two_pow_pos _), Nat.add_comm]

theorem leading_cons_of_lt (hlt : bits < 8) :
  leading (b :: bytes) bits = b.toNat / 2 ^ (8 - bits)
  := by
  have hpow : 2 ^ (8 * (bytes.length + 1) - bits) = 2 ^ (8 * bytes.length) * 2 ^ (8 - bits) := by
    rw [← Nat.pow_add]
    congr 1
    omega
  rw [leading, value, List.length_cons, hpow, ← Nat.div_div_eq_div_mul, Nat.add_comm,
    Nat.add_mul_div_right _ _ (Nat.two_pow_pos _), Nat.div_eq_of_lt (value_lt bytes), Nat.zero_add]

theorem leading_lt (hbits : bits ≤ 8 * bytes.length) :
  leading bytes bits < 2 ^ bits
  := by
  rw [leading, Nat.div_lt_iff_lt_mul (Nat.two_pow_pos _), ← Nat.pow_add,
    Nat.add_sub_cancel' hbits]
  exact value_lt bytes

/-- With a byte before them, the leading bits agree when the bytes do and so do the others. -/
theorem leading_cons_inj
    (hle : 8 ≤ bits) (hbytes : bits ≤ 8 * (bytes.length + 1))
    (hothers : bits ≤ 8 * (others.length + 1)) :
  leading (b :: bytes) bits = leading (c :: others) bits
    ↔ b = c ∧ leading bytes (bits - 8) = leading others (bits - 8)
  := by
  rw [leading_cons_of_le hle hbytes, leading_cons_of_le hle hothers]
  have hlt : leading bytes (bits - 8) < 2 ^ (bits - 8) := leading_lt (by omega)
  have hlt' : leading others (bits - 8) < 2 ^ (bits - 8) := leading_lt (by omega)
  constructor
  · intro h
    have hdiv := congrArg (· / 2 ^ (bits - 8)) h
    have hmod := congrArg (· % 2 ^ (bits - 8)) h
    rw [Nat.add_comm, Nat.add_mul_div_right _ _ (Nat.two_pow_pos _), Nat.div_eq_of_lt hlt,
      Nat.add_comm (c.toNat * _), Nat.add_mul_div_right _ _ (Nat.two_pow_pos _),
      Nat.div_eq_of_lt hlt', Nat.zero_add, Nat.zero_add] at hdiv
    rw [Nat.mul_comm, Nat.mul_add_mod, Nat.mod_eq_of_lt hlt, Nat.mul_comm, Nat.mul_add_mod,
      Nat.mod_eq_of_lt hlt'] at hmod
    exact ⟨UInt8.toNat_inj.mp hdiv, hmod⟩
  · rintro ⟨rfl, h⟩
    rw [h]

/-- What stands before the others is compared as it is. -/
theorem leading_append_inj
    {front back : List UInt8} (hlength : front.length = back.length)
    (hle : 8 * front.length ≤ bits)
    (hbytes : bits ≤ 8 * (front.length + bytes.length))
    (hothers : bits ≤ 8 * (back.length + others.length)) :
  leading (front ++ bytes) bits = leading (back ++ others) bits
    ↔ front = back
      ∧ leading bytes (bits - 8 * front.length) = leading others (bits - 8 * front.length)
  := by
  induction front generalizing back bits with
  | nil =>
      obtain rfl := List.eq_nil_of_length_eq_zero hlength.symm
      exact (and_iff_right rfl).symm
  | cons b front ih =>
      cases back with
      | nil => cases hlength
      | cons c back =>
          have hsame : front.length = back.length := Nat.succ.inj hlength
          rw [List.length_cons] at hle hbytes hothers
          have hbits : bits - 8 - 8 * front.length = bits - 8 * (front.length + 1) := by omega
          rw [List.cons_append, List.cons_append,
            leading_cons_inj (by omega) (by rw [List.length_append]; omega)
              (by rw [List.length_append]; omega),
            ih hsame (by omega) (by omega) (by omega), List.length_cons, List.cons.injEq, hbits,
            and_assoc]

end Leading
