import Mathlib.Data.List.GetD
import Mathlib.Tactic.NormNum.Prime
import ForteOpcUa.Probing.Primality
import ForteOpcUa.Probing.Search
import ForteOpcUa.Server.Types

/-!
# Hashing — hash values of node ids and the sizes of the node table

`ua_nodestore_hash.inc` and the table sizes of `ua_nodestore.c`:

- `hashArray`         : `hash_array`, a Murmur hash of a byte string,
- `hash`              : `hash`, by the type of the identifier,
- `mod`, `mod2`       : the first place of a key and its stride,
- `higherPrimeIndex`  : `higher_prime_index`, which picks the size of a table.

`hash_t` is a 32-bit unsigned integer; the places of a table are natural numbers.
-/

namespace ForteOpcUa

namespace Store

/-! ## Hash values -/

/-- `(x << r) | (x >> (32 - r))`. -/
def rotl (x r : UInt32) : UInt32 :=
  (x <<< r) ||| (x >>> (32 - r))

/-- What `hash_array` does to a block before it joins the hash. -/
def scramble (k : UInt32) : UInt32 :=
  rotl (k * 0xcc9e2d51) 15 * 0x1b873593

/-- Four bytes read as one word. -/
def word (b0 b1 b2 b3 : UInt8) : UInt32 :=
  b0.toUInt32 ||| (b1.toUInt32 <<< 8) ||| (b2.toUInt32 <<< 16) ||| (b3.toUInt32 <<< 24)

/-- The loop over the blocks of `hash_array`; what is left is shorter than a block. -/
def hashBlocks : ByteString → UInt32 → UInt32 × ByteString
  | b0 :: b1 :: b2 :: b3 :: rest, hash =>
      hashBlocks rest (rotl (hash ^^^ scramble (word b0 b1 b2 b3)) 13 * 5 + 0xe6546b64)
  | tail, hash => (hash, tail)

/-- The `switch` over the tail, which falls through from the longer cases. -/
def hashTail : ByteString → UInt32 → UInt32
  | [b0, b1, b2], hash => hash ^^^ scramble (word b0 b1 b2 0)
  | [b0, b1], hash => hash ^^^ scramble (word b0 b1 0 0)
  | [b0], hash => hash ^^^ scramble (word b0 0 0 0)
  | _, hash => hash

/-- The final mixing of `hash_array`. -/
def hashFinish (hash : UInt32) : UInt32 :=
  let h1 := (hash ^^^ (hash >>> 16)) * 0x85ebca6b
  let h2 := (h1 ^^^ (h1 >>> 13)) * 0xc2b2ae35
  h2 ^^^ (h2 >>> 16)

/-- `hash_array`; the null string hashes to zero. -/
def hashArray (data : ByteString) (seed : UInt32) : UInt32 :=
  match data with
  | [] => 0
  | _ :: _ =>
      let blocks := hashBlocks data seed
      hashFinish (hashTail blocks.2 blocks.1 ^^^ UInt32.ofNat data.length)

/-- `hash`. -/
def hash (n : NodeId) : UInt32 :=
  match n.identifier with
  -- Knuth's multiplicative hashing.
  | .numeric value => (value + n.namespaceIndex.toUInt32) * 2654435761
  | .string value => hashArray value n.namespaceIndex.toUInt32
  | .guid value => hashArray value.toList n.namespaceIndex.toUInt32
  | .byteString value => hashArray value n.namespaceIndex.toUInt32

/-- `mod`: the first place of a key. -/
def mod (h size : ℕ) : ℕ :=
  h % size

/-- `mod2`: the stride of a key. -/
def mod2 (h size : ℕ) : ℕ :=
  1 + h % (size - 2)

/-! ## Table sizes -/

/-- `primes`: each is close to the next power of two. -/
def primes : List ℕ :=
  [7, 13, 31, 61, 127, 251,
    509, 1021, 2039, 4093, 8191, 16381,
    32749, 65521, 131071, 262139, 524287, 1048573,
    2097143, 4194301, 8388593, 16777213, 33554393, 67108859,
    134217689, 268435399, 536870909, 1073741789, 2147483647, 4294967291]

/-- `higher_prime_index`: bisection of the list of sizes. -/
def higherPrimeIndex (n : ℕ) : ℕ :=
  Probing.bisect (fun mid => primes.getD mid 0 < n) primes.length 0 primes.length

/-- Lucas's test for the sizes above `2 ^ 24`. -/
theorem primes_large : ∀ p ∈ primes.drop 22, p.Prime := by
  have h23 : Nat.Prime 33554393 :=
    Probing.prime_of_powers 32 3 [2, 2, 2, 29, 61, 2371]
      (by decide +kernel) (by norm_num)
  have h24 : Nat.Prime 67108859 :=
    Probing.prime_of_powers 32 2 [2, 479, 70051]
      (by decide +kernel) (by norm_num)
  have h25 : Nat.Prime 134217689 :=
    Probing.prime_of_powers 32 3 [2, 2, 2, 11, 101, 15101]
      (by decide +kernel) (by norm_num)
  have h26 : Nat.Prime 268435399 :=
    Probing.prime_of_powers 32 3 [2, 3, 7, 11, 581029]
      (by decide +kernel) (by norm_num)
  have h27 : Nat.Prime 536870909 :=
    Probing.prime_of_powers 32 2 [2, 2, 7, 73, 262657]
      (by decide +kernel) (by norm_num)
  have h28 : Nat.Prime 1073741789 :=
    Probing.prime_of_powers 32 2 [2, 2, 7, 2341, 16381]
      (by decide +kernel) (by norm_num)
  have h29 : Nat.Prime 2147483647 :=
    Probing.prime_of_powers 32 7 [2, 3, 3, 7, 11, 31, 151, 331]
      (by decide +kernel) (by norm_num)
  have h30 : Nat.Prime 4294967291 :=
    Probing.prime_of_powers 32 2 [2, 5, 19, 22605091]
      (by decide +kernel) (by norm_num)
  intro p hp
  simp only [primes, List.drop_succ_cons, List.drop_zero, List.mem_cons, List.not_mem_nil,
    or_false] at hp
  rcases hp with rfl | rfl | rfl | rfl | rfl | rfl | rfl | rfl <;> assumption

/-- Every size in the list is prime. -/
theorem prime_of_mem {p : ℕ} (hp : p ∈ primes) : p.Prime := by
  have hsmall : ∀ p ∈ primes.take 22, p.Prime := by
    simp only [primes, List.take_succ_cons, List.take_zero]
    norm_num
  rw [← List.take_append_drop 22 primes, List.mem_append] at hp
  rcases hp with hp | hp
  · exact hsmall p hp
  · exact primes_large p hp

/-- The list of sizes is sorted. -/
theorem primes_le {i j : ℕ} (hij : i ≤ j) (hj : j < primes.length) :
    primes.getD i 0 ≤ primes.getD j 0 := by
  have hsorted : primes.Pairwise (· < ·) := by decide
  rcases Nat.lt_or_eq_of_le hij with hlt | heq
  · have hi : i < primes.length := Nat.lt_trans hlt hj
    rw [List.getD_eq_getElem _ _ hi, List.getD_eq_getElem _ _ hj]
    exact Nat.le_of_lt (List.pairwise_iff_getElem.1 hsorted i j hi hj hlt)
  · rw [heq]

/-- `higher_prime_index` finds the least size that holds `n`, if there is one. -/
theorem higherPrimeIndex_spec {n : ℕ} (hn : n ≤ 4294967291) :
    higherPrimeIndex n < primes.length ∧ n ≤ primes.getD (higherPrimeIndex n) 0 ∧
      ∀ i < higherPrimeIndex n, primes.getD i 0 < n := by
  have hclosed : ∀ i j, i ≤ j → j < primes.length →
      decide (primes.getD j 0 < n) = true → decide (primes.getD i 0 < n) = true := by
    intro i j hij hj hlt
    have hle := primes_le hij hj
    simp only [decide_eq_true_eq] at hlt ⊢
    omega
  have hfuel : primes.length - 0 ≤ primes.length := Nat.le_refl _
  rcases Probing.bisect_boundary hclosed (Nat.zero_le _) hfuel with ⟨hle, hlow, hhigh⟩
  have hlast : primes.getD 29 0 = 4294967291 := rfl
  have hlen : primes.length = 30 := rfl
  -- The last size holds `n`, so the boundary lies inside the list.
  have hlt : higherPrimeIndex n < primes.length := by
    by_contra hge
    have hat : decide (primes.getD 29 0 < n) = true :=
      hlow 29 (Nat.zero_le _) (by unfold higherPrimeIndex at hge; omega)
    rw [hlast, decide_eq_true_eq] at hat
    omega
  refine ⟨hlt, ?_, ?_⟩
  · have hat := hhigh (higherPrimeIndex n) (Nat.le_refl _) hlt
    rw [decide_eq_false_iff_not] at hat
    exact Nat.not_lt.1 hat
  · intro i hi
    have hat := hlow i (Nat.zero_le _) hi
    rwa [decide_eq_true_eq] at hat

end Store

end ForteOpcUa
