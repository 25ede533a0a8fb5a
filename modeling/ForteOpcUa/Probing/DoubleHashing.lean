import Mathlib.Data.Nat.ModEq
import Mathlib.Data.ZMod.Basic
import Mathlib.Logic.Function.Iterate
import Mathlib.Tactic.Ring

/-!
# DoubleHashing — a walk with a constant stride around a table

The places of a table of `m` slots are the numbers below `m`.  A walk adds a stride `s` and
subtracts `m` when it passes the end.

- `stride m s`          : one step of the walk,
- `stride_iterate`      : after `n` steps from `h` it is at `(h + n * s) % m`,
- `exists_stride_eq`    : with `s` and `m` coprime it visits every place within `m` steps.
-/

namespace Probing

/-- One step of the walk: add `s`, and start over when the end is passed. -/
def stride (m s i : ℕ) : ℕ :=
  if m ≤ i + s then i + s - m else i + s

/-- Inside the table a step is addition modulo its size. -/
theorem stride_eq_mod {m s i : ℕ} (hi : i < m) (hs : s < m) : stride m s i = (i + s) % m := by
  unfold stride
  by_cases hle : m ≤ i + s
  · rw [if_pos hle, Nat.mod_eq_sub_mod hle, Nat.mod_eq_of_lt (by omega)]
  · rw [if_neg hle, Nat.mod_eq_of_lt (by omega)]

theorem stride_lt {m s i : ℕ} (hi : i < m) (hs : s < m) : stride m s i < m := by
  rw [stride_eq_mod hi hs]
  exact Nat.mod_lt _ (Nat.zero_lt_of_lt hi)

/-- The place after `n` steps. -/
theorem stride_iterate {m s h : ℕ} (hh : h < m) (hs : s < m) (n : ℕ) :
    (stride m s)^[n] h = (h + n * s) % m := by
  induction n with
  | zero =>
      simp [Nat.mod_eq_of_lt hh]
  | succ n ih =>
      have hlt : (h + n * s) % m < m := Nat.mod_lt _ (Nat.zero_lt_of_lt hh)
      rw [Function.iterate_succ_apply', ih, stride_eq_mod hlt hs, Nat.mod_add_mod, Nat.succ_mul,
        Nat.add_assoc]

/-- A stride coprime to the size leads from any place to any other within `m` steps. -/
theorem exists_stride_eq {m s h j : ℕ} (hcop : Nat.Coprime s m) (hh : h < m) (hs : s < m)
    (hj : j < m) : ∃ n < m, (stride m s)^[n] h = j := by
  have : NeZero m := ⟨Nat.ne_zero_of_lt hj⟩
  -- The number of steps is `(j - h) / s` modulo `m`.
  let n : ZMod m := ((j : ZMod m) - h) * (s : ZMod m)⁻¹
  have hunit : (s : ZMod m) * (s : ZMod m)⁻¹ = 1 := ZMod.coe_mul_inv_eq_one s hcop
  refine ⟨n.val, ZMod.val_lt n, ?_⟩
  rw [stride_iterate hh hs]
  have hcast : ((h + n.val * s : ℕ) : ZMod m) = (j : ℕ) := by
    calc
      ((h + n.val * s : ℕ) : ZMod m)
          = h + n * s := by rw [Nat.cast_add, Nat.cast_mul, ZMod.natCast_val, ZMod.cast_id]
      _ = h + ((j : ZMod m) - h) * ((s : ZMod m) * (s : ZMod m)⁻¹) := by
            simp only [n]
            ring
      _ = j := by rw [hunit]; ring
  calc
    (h + n.val * s) % m = j % m := (ZMod.natCast_eq_natCast_iff' _ _ m).1 hcast
    _ = j := Nat.mod_eq_of_lt hj

end Probing
