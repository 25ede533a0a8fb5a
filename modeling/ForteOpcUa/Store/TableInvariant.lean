import ForteOpcUa.Store.NodeTable

/-!
# TableInvariant — what holds of the node table in every state

- `Sized`    : the array has the length `size`, a prime of the list that fits the arithmetic,
- `Valid`    : in addition fewer than `size` places are in use, so that every search ends,
- `Faithful` : in addition the entries are chained and counted, so that every search is right.

`containsNodeId_spec` is the one fact about searches that the operations are verified with.
-/

namespace ForteOpcUa

namespace Store

open Memory Probing

namespace NodeTable

/-- The table holds the entry `e` at some place. -/
def Holds (ns : NodeTable) (e : NodeEntry) : Prop :=
  ∃ i, ns.slot i = some e

/-- The number of places in use. -/
def occupied (ns : NodeTable) : ℕ :=
  ns.entries.countP Option.isSome

/-- The array fits its size. -/
structure Sized (ns : NodeTable) : Prop where
  length : ns.entries.length = ns.size
  prime : ns.size ∈ primes
  bounded : ns.size < 2 ^ 30

/-- Some place is free. -/
structure Valid (ns : NodeTable) : Prop extends Sized ns where
  occupied_le : ns.occupied ≤ ns.count
  room : ns.count < ns.size

/-- The table is a map from ids to nodes. -/
structure Faithful (ns : NodeTable) : Prop extends Valid ns where
  chained : Chained (scheme ns.size) NodeEntry.nodeId ns.slot
  counted : ns.occupied = ns.count

/-! ## Places -/

theorem slot_setSlot {ns : NodeTable} {i : ℕ} (hi : i < ns.entries.length)
    (e : Option NodeEntry) : (ns.setSlot i e).slot = Function.update ns.slot i e := by
  funext j
  by_cases hj : j = i
  · subst hj
    simp [slot, setSlot, List.getD_eq_getElem?_getD, hi]
  · rw [Function.update_of_ne hj]
    simp [slot, setSlot, List.getD_eq_getElem?_getD, List.getElem?_set_ne (Ne.symm hj)]

@[simp]
theorem size_setSlot (ns : NodeTable) (i : ℕ) (e : Option NodeEntry) :
    (ns.setSlot i e).size = ns.size :=
  rfl

@[simp]
theorem count_setSlot (ns : NodeTable) (i : ℕ) (e : Option NodeEntry) :
    (ns.setSlot i e).count = ns.count :=
  rfl

/-- Beyond the array there is nothing. -/
theorem slot_eq_none {ns : NodeTable} {i : ℕ} (hi : ns.entries.length ≤ i) :
    ns.slot i = none := by
  simp [slot, List.getD_eq_getElem?_getD, List.getElem?_eq_none hi]

/-- Writing a place changes the number of places in use by at most one. -/
theorem occupied_setSlot {ns : NodeTable} {i : ℕ} (hi : i < ns.entries.length)
    (e : Option NodeEntry) :
    (ns.setSlot i e).occupied + (if (ns.slot i).isSome then 1 else 0) =
      ns.occupied + (if e.isSome then 1 else 0) := by
  have hslot : ns.slot i = ns.entries[i] := by
    simp [slot, List.getD_eq_getElem?_getD, hi]
  have hset : (ns.entries.set i e).countP Option.isSome =
      ns.entries.countP Option.isSome - (if (ns.entries[i]).isSome then 1 else 0) +
        (if e.isSome then 1 else 0) := List.countP_set hi
  -- An occupied place is one of those that are counted.
  have hpos : (ns.entries[i]).isSome = true → 0 < ns.entries.countP Option.isSome := by
    intro hsome
    exact List.countP_pos_iff.2 ⟨ns.entries[i], List.getElem_mem hi, hsome⟩
  rw [hslot, occupied, setSlot, occupied, hset]
  by_cases hsome : (ns.entries[i]).isSome = true
  · have hlt := hpos hsome
    rw [if_pos hsome]
    omega
  · rw [if_neg hsome]
    omega

/-- With a place to spare there is a free one. -/
theorem exists_free {ns : NodeTable} (h : ns.occupied < ns.entries.length) :
    ∃ i < ns.entries.length, ns.slot i = none := by
  by_contra hall
  have hfull : ns.occupied = ns.entries.length := by
    refine List.countP_eq_length.2 ?_
    intro x hx
    rcases List.getElem_of_mem hx with ⟨i, hi, rfl⟩
    by_contra hnone
    refine hall ⟨i, hi, ?_⟩
    simpa [slot, List.getD_eq_getElem?_getD, hi] using hnone
  omega

/-! ## The walk of a search -/

theorem nextIndex_eq_stride {size stride i : ℕ} (hi : i < size) (hs : stride < size)
    (hsize : size < 2 ^ 30) : nextIndex size stride i = Probing.stride size stride i := by
  have hsum : u32 ((i : ℤ) + stride) = i + stride := by
    unfold u32
    omega
  simp only [nextIndex, hsum, Probing.stride]

theorem nextIndex_iterate {size stride h : ℕ} (hh : h < size) (hs : stride < size)
    (hsize : size < 2 ^ 30) (n : ℕ) :
    (nextIndex size stride)^[n] h = (Probing.stride size stride)^[n] h ∧
      (nextIndex size stride)^[n] h < size := by
  induction n with
  | zero =>
      exact ⟨rfl, hh⟩
  | succ n ih =>
      rw [Function.iterate_succ_apply', Function.iterate_succ_apply', ← ih.1,
        nextIndex_eq_stride ih.2 hs hsize]
      exact ⟨rfl, stride_lt ih.2 hs⟩

/-- The stride of a key is positive and below the size. -/
theorem mod2_bounds (h : ℕ) {size : ℕ} (hsize : 2 < size) :
    0 < mod2 h size ∧ mod2 h size < size := by
  have hlt : h % (size - 2) < size - 2 := Nat.mod_lt _ (by omega)
  unfold mod2
  omega

/-- The sizes of the list are at least 7. -/
theorem seven_le {p : ℕ} (hp : p ∈ primes) : 7 ≤ p := by
  have hall : ∀ p ∈ primes, 7 ≤ p := by decide
  exact hall p hp

/-- Every stride leads from any place to any other. -/
theorem exists_nextIndex {size h : ℕ} (hprime : size ∈ primes) (hsize : size < 2 ^ 30) (k : ℕ)
    (hh : h < size) {j : ℕ} (hj : j < size) :
    ∃ n < size, (nextIndex size (mod2 k size))^[n] h = j := by
  have hseven := seven_le hprime
  rcases mod2_bounds k (by omega : 2 < size) with ⟨hpos, hlt⟩
  have hcop : Nat.Coprime (mod2 k size) size :=
    (Nat.coprime_of_lt_prime (Nat.ne_of_gt hpos) hlt (prime_of_mem hprime)).symm
  rcases exists_stride_eq hcop hh hlt hj with ⟨n, hn, heq⟩
  refine ⟨n, hn, ?_⟩
  rw [(nextIndex_iterate hh hlt hsize n).1]
  exact heq

/-- A search stays inside the array. -/
theorem Sized.place_lt {ns : NodeTable} (h : ns.Sized) (id : NodeId) (n : ℕ) :
    (scheme ns.size).place id n < ns.entries.length := by
  have hseven := seven_le h.prime
  rcases mod2_bounds (hash id).toNat (by omega : 2 < ns.size) with ⟨_, hlt⟩
  have hstart : mod (hash id).toNat ns.size < ns.size := Nat.mod_lt _ (by omega)
  rw [h.length]
  exact (nextIndex_iterate hstart hlt h.bounded n).2

/-- Every search ends, at the first place that is free or holds the id. -/
theorem containsNodeId_spec {ns : NodeTable} (h : ns.Sized) (hfree : ns.occupied < ns.size)
    (id : NodeId) :
    ∃ n, (scheme ns.size).Stops NodeEntry.nodeId ns.slot id n ∧
      ns.containsNodeId id = some ((ns.slot ((scheme ns.size).place id n)).isSome,
        (scheme ns.size).place id n) := by
  rw [← h.length] at hfree
  rcases exists_free hfree with ⟨j, hj, hnone⟩
  rw [h.length] at hj
  have hseven := seven_le h.prime
  have hstart : mod (hash id).toNat ns.size < ns.size := Nat.mod_lt _ (by omega)
  -- The walk comes to the free place, if it has not stopped before.
  rcases exists_nextIndex h.prime h.bounded (hash id).toNat hstart hj with ⟨n, hn, hplace⟩
  have hstop : stopsFor NodeEntry.nodeId ns.slot id
      (((scheme ns.size).next id)^[n] ((scheme ns.size).start id)) = true := by
    have hat : ((scheme ns.size).next id)^[n] ((scheme ns.size).start id) = j := hplace
    simp [stopsFor, hat, hnone]
  rcases search_isSome hn hstop with ⟨m, _, hm, hsearch⟩
  refine ⟨m, hm, ?_⟩
  unfold containsNodeId
  rw [hsearch]
  rfl

end NodeTable

end Store

end ForteOpcUa
