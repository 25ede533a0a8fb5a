import Mathlib.Data.Int.ModEq
import Mathlib.Tactic.Ring

/-!
# MachineIntegers — numbers as the machine keeps them

`u32` and `int32` wrap a number where C arithmetic would; within their range they change nothing.
-/

namespace Memory

/-- A number as an unsigned 32-bit integer. -/
def u32 (x : ℤ) : ℕ :=
  (x % 2 ^ 32).toNat

/-- A number as a signed 32-bit integer. -/
def int32 (x : ℤ) : ℤ :=
  Int.bmod x (2 ^ 32)

theorem int32_eq {x : ℤ} (hlo : -2 ^ 31 ≤ x) (hhi : x < 2 ^ 31) : int32 x = x := by
  unfold int32
  exact Int.bmod_eq_of_le_mul_two (by omega) (by omega)

/-- A number just above the range becomes negative. -/
theorem int32_wrap {x : ℤ} (hlo : 2 ^ 31 ≤ x) (hhi : x < 2 ^ 32) : int32 x = x - 2 ^ 32 := by
  have hmod : x % ((2 ^ 32 : ℕ) : ℤ) = x := Int.emod_eq_of_lt (by omega) (by push_cast; omega)
  rw [int32, Int.bmod, hmod, if_neg (by omega)]
  norm_num

theorem u32_eq {n : ℕ} (h : n < 2 ^ 32) : u32 (n : ℤ) = n := by
  unfold u32
  omega

theorem u32_mul {n k : ℕ} (h : n * k < 2 ^ 32) : u32 ((n : ℤ) * (k : ℤ)) = n * k := by
  rw [← Nat.cast_mul]
  exact u32_eq h

end Memory
