import Mathlib

/-!
# Words and stored integers

The store keeps 64-bit words as signed integers of the same width.
-/

namespace Votport

/-- The largest stored integer. -/
def i64Max : ℕ := 9223372036854775807

/-- A stored integer as an unsigned word. -/
def asU64 (i : Int) : Nat := (i % 2 ^ 64).toNat

/-- An unsigned word as a stored integer. -/
def asI64 (n : Nat) : Int := Int.bmod n (2 ^ 64)

end Votport
