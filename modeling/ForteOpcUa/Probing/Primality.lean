import Mathlib.Data.List.Prime
import Mathlib.NumberTheory.LucasPrimality

/-!
# Primality — primes from the powers of a primitive root

A table of prime size is walked through by every stride.  Lucas's test shows that a number is prime
from the factors of its predecessor, and its powers are cheap to evaluate.

- `powMod p a e`     : `a ^ e % p` by repeated squaring,
- `prime_of_powers`  : Lucas's test for a number given with the factors of its predecessor.
-/

namespace Probing

/-- `a ^ e % p`, over at most `bits` binary digits of `e`. -/
def powMod (p : ℕ) : ℕ → ℕ → ℕ → ℕ
  | 0, _, _ => 1 % p
  | bits + 1, a, e =>
      let square := powMod p bits (a * a % p) (e / 2)
      if e % 2 = 0 then square else a * square % p

theorem powMod_eq {p bits a e : ℕ} (he : e < 2 ^ bits) : powMod p bits a e = a ^ e % p := by
  induction bits generalizing a e with
  | zero =>
      have hzero : e = 0 := by simpa using he
      simp [powMod, hzero]
  | succ bits ih =>
      have hhalf : e / 2 < 2 ^ bits := by
        rw [Nat.pow_succ] at he
        omega
      have hsquare : powMod p bits (a * a % p) (e / 2) = a ^ (2 * (e / 2)) % p := by
        rw [ih hhalf, ← Nat.pow_mod, Nat.pow_mul, Nat.pow_two]
      by_cases heven : e % 2 = 0
      · have hsplit : 2 * (e / 2) = e := by omega
        simp only [powMod, heven, if_true, hsquare, hsplit]
      · have hsplit : 2 * (e / 2) + 1 = e := by omega
        calc
          powMod p (bits + 1) a e
              = a * (a ^ (2 * (e / 2)) % p) % p := by simp [powMod, heven, hsquare]
          _ = a ^ (2 * (e / 2) + 1) % p := by
                rw [Nat.mul_mod_mod, Nat.pow_succ, Nat.mul_comm]
          _ = a ^ e % p := by rw [hsplit]

/-- What Lucas's test evaluates, for exponents of at most `bits` binary digits. -/
def lucasTest (bits p a : ℕ) (factors : List ℕ) : Bool :=
  1 < p && p ≤ 2 ^ bits && factors.prod = p - 1 && powMod p bits a (p - 1) = 1 &&
    factors.all fun q => powMod p bits a ((p - 1) / q) ≠ 1

/-- Lucas's test: `a` has order `p - 1` modulo `p`. -/
theorem prime_of_powers {p : ℕ} (bits a : ℕ) (factors : List ℕ)
    (htest : lucasTest bits p a factors = true) (hprime : ∀ q ∈ factors, q.Prime) : p.Prime := by
  simp only [lucasTest, Bool.and_eq_true, decide_eq_true_eq, List.all_eq_true] at htest
  rcases htest with ⟨⟨⟨⟨hone, hbits⟩, hprod⟩, hpow⟩, hroots⟩
  have hbelow : p - 1 < 2 ^ bits := by omega
  have hcast : ∀ e, (a : ZMod p) ^ e = 1 ↔ a ^ e % p = 1 := by
    intro e
    have h1 : 1 % p = 1 := Nat.mod_eq_of_lt hone
    rw [← Nat.cast_pow, ← Nat.cast_one, ZMod.natCast_eq_natCast_iff', h1]
  refine lucas_primality p (a : ZMod p) ((hcast _).2 ?_) ?_
  · rw [← powMod_eq hbelow]
    exact hpow
  · intro q hq hdvd
    -- A prime divisor of the product is one of the listed factors.
    have hmem : q ∈ factors := by
      rw [← hprod] at hdvd
      exact mem_list_primes_of_dvd_prod hq.prime (fun r hr => (hprime r hr).prime) hdvd
    have hle : (p - 1) / q < 2 ^ bits := Nat.lt_of_le_of_lt (Nat.div_le_self _ _) hbelow
    intro hbad
    exact hroots q hmem ((powMod_eq hle).trans ((hcast _).1 hbad))

end Probing
