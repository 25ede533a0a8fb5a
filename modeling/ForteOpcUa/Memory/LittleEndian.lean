import Mathlib.Data.Nat.ModEq
import Mathlib.Tactic.Ring

/-!
# LittleEndian — fixed-width integers as bytes in memory

A number is stored in `k` bytes, least significant byte first.  `toBytes` cuts a number to its
`k` low bytes, `ofBytes` reads bytes back, and the two are inverse up to `256 ^ k`.
-/

namespace Memory

/-- The `k` low bytes of `n`, least significant first. -/
def toBytes : ℕ → ℕ → List UInt8
  | 0, _ => []
  | k + 1, n => UInt8.ofNat n :: toBytes k (n / 256)

/-- The number stored in a list of bytes, least significant first. -/
def ofBytes : List UInt8 → ℕ
  | [] => 0
  | b :: bs => b.toNat + 256 * ofBytes bs

/-- Storing and reading back keeps the `k` low bytes. -/
theorem ofBytes_toBytes (k n : ℕ) : ofBytes (toBytes k n) = n % 256 ^ k := by
  induction k generalizing n with
  | zero =>
      simp [toBytes, ofBytes, Nat.mod_one]
  | succ k ih =>
      have hhead : (UInt8.ofNat n).toNat = n % 256 := by simp
      calc
        ofBytes (toBytes (k + 1) n)
            = n % 256 + 256 * (n / 256 % 256 ^ k) := by simp [toBytes, ofBytes, ih]
        _ = n % (256 * 256 ^ k) := (Nat.mod_mul).symm
        _ = n % 256 ^ (k + 1) := by rw [Nat.pow_succ, Nat.mul_comm]

/-- Two numbers below `256 ^ k` with the same bytes are equal. -/
theorem toBytes_inj {k m n : ℕ} (hm : m < 256 ^ k) (hn : n < 256 ^ k)
    (h : toBytes k m = toBytes k n) : m = n := by
  have hval := congrArg ofBytes h
  rwa [ofBytes_toBytes, ofBytes_toBytes, Nat.mod_eq_of_lt hm, Nat.mod_eq_of_lt hn] at hval

end Memory
