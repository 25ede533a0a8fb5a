import Mathlib.Data.List.Perm.Subperm
import Mathlib.Data.List.ReduceOption
import ForteOpcUa.Store.TableInvariant

/-!
# TableSpecs — what the operations of the node table do

One specification for each operation, in two strengths: in a `Valid` table it ends and leaves a
`Valid` one, in a `Faithful` table it does to the set of entries what its name says.  `remove`
keeps only the first; the second is the subject of `Removal`.
-/

namespace ForteOpcUa

namespace Store

open Memory Probing

/-- A count below `2 ^ 31` has a size in the list that is below `2 ^ 31`. -/
theorem primes_getD_higherPrimeIndex {n : ℕ} (hn : n < 2 ^ 31) :
    primes.getD (higherPrimeIndex n) 0 ∈ primes ∧ n ≤ primes.getD (higherPrimeIndex n) 0 ∧
      primes.getD (higherPrimeIndex n) 0 < 2 ^ 31 := by
  rcases higherPrimeIndex_spec (by omega : n ≤ 4294967291) with ⟨hlt, hle, hmin⟩
  have hlen : primes.length = 30 := rfl
  have hbelow : primes.getD 28 0 = 2147483647 := rfl
  refine ⟨?_, hle, ?_⟩
  · rw [List.getD_eq_getElem _ _ hlt]
    exact List.getElem_mem hlt
  · -- The last size but one holds `n` already.
    have hidx : higherPrimeIndex n ≤ 28 := by
      by_contra hgt
      have hsmall := hmin 28 (by omega)
      omega
    have hle28 := primes_le hidx (by omega)
    omega

namespace NodeTable

/-! ## Writing one place -/

theorem Sized.setSlot {ns : NodeTable} (h : ns.Sized) (i : ℕ) (e : Option NodeEntry) :
    (ns.setSlot i e).Sized where
  length := by
    rw [NodeTable.setSlot, List.length_set]
    exact h.length
  prime := h.prime
  bounded := h.bounded

/-- The entries after a free place is filled. -/
theorem holds_store {ns : NodeTable} {i : ℕ} (hi : i < ns.entries.length)
    (hfree : ns.slot i = none) (e f : NodeEntry) :
    (ns.setSlot i (some e)).Holds f ↔ f = e ∨ ns.Holds f := by
  unfold Holds
  rw [slot_setSlot hi]
  constructor
  · rintro ⟨j, hj⟩
    by_cases heq : j = i
    · subst heq
      rw [Function.update_self] at hj
      exact Or.inl (Option.some.inj hj).symm
    · rw [Function.update_of_ne heq] at hj
      exact Or.inr ⟨j, hj⟩
  · rintro (rfl | ⟨j, hj⟩)
    · exact ⟨i, Function.update_self ..⟩
    · refine ⟨j, ?_⟩
      have hne : j ≠ i := by
        rintro rfl
        rw [hfree] at hj
        cases hj
      rw [Function.update_of_ne hne]
      exact hj

theorem occupied_store {ns : NodeTable} {i : ℕ} (hi : i < ns.entries.length)
    (hfree : ns.slot i = none) (e : NodeEntry) :
    (ns.setSlot i (some e)).occupied = ns.occupied + 1 := by
  have h := occupied_setSlot hi (some e)
  simpa [hfree] using h

/-- Whatever is written, at most one more place is in use. -/
theorem occupied_setSlot_le {ns : NodeTable} {i : ℕ} (hi : i < ns.entries.length)
    (e : NodeEntry) : (ns.setSlot i (some e)).occupied ≤ ns.occupied + 1 := by
  have h := occupied_setSlot hi (some e)
  simp only [Option.isSome_some, if_true] at h
  omega

/-! ## Moving the entries into another array -/

/-- Moving the entries ends, and nothing is counted twice. -/
theorem rehash_valid {es : List (Option NodeEntry)} {j : ℕ} {ns : NodeTable} (h : ns.Sized)
    (hroom : ns.occupied + es.countP Option.isSome < ns.size) :
    ∃ ns', rehash es j ns = some ns' ∧ ns'.Sized ∧ ns'.size = ns.size ∧ ns'.count = ns.count ∧
      ns'.occupied ≤ ns.occupied + es.countP Option.isSome := by
  induction es generalizing j ns with
  | nil =>
      exact ⟨ns, rfl, h, rfl, rfl, Nat.le_add_right _ _⟩
  | cons x es ih =>
      cases x with
      | none =>
          have hcount : (none :: es).countP Option.isSome = es.countP Option.isSome := by simp
          rw [hcount] at hroom ⊢
          exact ih h hroom
      | some e =>
          have hcount : (some e :: es).countP Option.isSome = es.countP Option.isSome + 1 := by simp
          rw [hcount] at hroom ⊢
          cases j with
          | zero =>
              exact ⟨ns, rfl, h, rfl, rfl, Nat.le_add_right _ _⟩
          | succ j =>
              rcases containsNodeId_spec h (by omega) e.nodeId with ⟨n, _, hfound⟩
              have hi := h.place_lt e.nodeId n
              have hocc := occupied_setSlot_le hi e
              have hroom' : (ns.setSlot ((scheme ns.size).place e.nodeId n) (some e)).occupied +
                  es.countP Option.isSome < ns.size := by omega
              rcases @ih j _ (h.setSlot _ (some e)) hroom' with ⟨ns', hns', hsized, hsize, hcnt, hle⟩
              refine ⟨ns', ?_, hsized, hsize, hcnt, by omega⟩
              simp only [rehash, hfound]
              exact hns'

/-- A chained table stays so when an entry is stored where the search for its id stopped. -/
theorem chained_store {ns : NodeTable} (h : ns.Sized)
    (hch : Chained (scheme ns.size) NodeEntry.nodeId ns.slot) {e : NodeEntry} {n : ℕ}
    (hstop : (scheme ns.size).Stops NodeEntry.nodeId ns.slot e.nodeId n)
    (hfree : ns.slot ((scheme ns.size).place e.nodeId n) = none) :
    Chained (scheme ns.size) NodeEntry.nodeId
      (ns.setSlot ((scheme ns.size).place e.nodeId n) (some e)).slot := by
  rw [slot_setSlot (h.place_lt e.nodeId n)]
  exact hch.store hstop hfree

/-- The entries of an array carry distinct ids. -/
def DistinctIds (es : List (Option NodeEntry)) : Prop :=
  es.Pairwise fun x y => ∀ e f, x = some e → y = some f → e.nodeId ≠ f.nodeId

/-- The array of a table without double ids. -/
theorem distinctIds_entries {ns : NodeTable} (hdist : Distinct NodeEntry.nodeId ns.slot) :
    DistinctIds ns.entries := by
  refine List.pairwise_iff_getElem.2 ?_
  intro i j hi hj hij e f he hf hkey
  have hslot : ∀ k (hk : k < ns.entries.length), ns.slot k = ns.entries[k] := by
    intro k hk
    simp [slot, List.getD_eq_getElem?_getD, hk]
  have heq : i = j := hdist i j e f (by rw [hslot i hi, he]) (by rw [hslot j hj, hf]) hkey
  omega

theorem holds_iff_mem {ns : NodeTable} {e : NodeEntry} :
    ns.Holds e ↔ some e ∈ ns.entries := by
  constructor
  · rintro ⟨i, hi⟩
    have hlt : i < ns.entries.length := by
      by_contra hge
      rw [slot_eq_none (Nat.not_lt.1 hge)] at hi
      cases hi
    have hat : ns.entries[i] = some e := by
      simpa [slot, List.getD_eq_getElem?_getD, hlt] using hi
    rw [← hat]
    exact List.getElem_mem hlt
  · intro hmem
    rcases List.getElem_of_mem hmem with ⟨i, hi, hat⟩
    exact ⟨i, by simp [slot, List.getD_eq_getElem?_getD, hi, hat]⟩

/-- Moving entries with new and distinct ids into a chained table stores all of them. -/
theorem rehash_chained {es : List (Option NodeEntry)} {j : ℕ} {ns : NodeTable} (h : ns.Sized)
    (hch : Chained (scheme ns.size) NodeEntry.nodeId ns.slot)
    (hroom : ns.occupied + es.countP Option.isSome < ns.size) (hj : es.countP Option.isSome ≤ j)
    (hdist : DistinctIds es) (hnew : ∀ e, some e ∈ es → ∀ f, ns.Holds f → f.nodeId ≠ e.nodeId) :
    ∃ ns', rehash es j ns = some ns' ∧ ns'.Sized ∧ ns'.size = ns.size ∧ ns'.count = ns.count ∧
      ns'.occupied = ns.occupied + es.countP Option.isSome ∧
        Chained (scheme ns'.size) NodeEntry.nodeId ns'.slot ∧
          ∀ e, ns'.Holds e ↔ ns.Holds e ∨ some e ∈ es := by
  -- Induction on the old array; the table that is filled changes along.
  induction es generalizing j ns with
  | nil =>
      exact ⟨ns, rfl, h, rfl, rfl, rfl, hch, by simp⟩
  | cons x es ih =>
      rw [DistinctIds, List.pairwise_cons] at hdist
      cases x with
      | none =>
          have hcount : (none :: es).countP Option.isSome = es.countP Option.isSome := by simp
          rw [hcount] at hroom hj ⊢
          rcases ih h hch hroom hj hdist.2 (fun e he => hnew e (List.mem_cons_of_mem _ he)) with
            ⟨ns', hns', hsized, hsize, hcnt, hocc, hch', hholds⟩
          exact ⟨ns', hns', hsized, hsize, hcnt, hocc, hch', by simpa using hholds⟩
      | some e =>
          have hcount : (some e :: es).countP Option.isSome = es.countP Option.isSome + 1 := by simp
          rw [hcount] at hroom hj ⊢
          cases j with
          | zero => omega
          | succ j =>
              rcases containsNodeId_spec h (by omega) e.nodeId with ⟨n, hstop, hfound⟩
              have hi := h.place_lt e.nodeId n
              -- The id is new, so the search ends at a free place.
              have hfree : ns.slot ((scheme ns.size).place e.nodeId n) = none :=
                hch.none_of_absent hstop fun i f hf => hnew e List.mem_cons_self f ⟨i, hf⟩
              have hocc := occupied_store hi hfree e
              have hroom' : (ns.setSlot ((scheme ns.size).place e.nodeId n) (some e)).occupied +
                  es.countP Option.isSome < ns.size := by omega
              have hnew' : ∀ f, some f ∈ es → ∀ g,
                  (ns.setSlot ((scheme ns.size).place e.nodeId n) (some e)).Holds g →
                    g.nodeId ≠ f.nodeId := by
                intro f hf g hg
                rcases (holds_store hi hfree e g).1 hg with rfl | hold
                · exact hdist.1 (some f) hf _ f rfl rfl
                · exact hnew f (List.mem_cons_of_mem _ hf) g hold
              rcases @ih j _ (h.setSlot _ (some e)) (chained_store h hch hstop hfree) hroom'
                (Nat.le_of_succ_le_succ hj) hdist.2 hnew' with
                ⟨ns', hns', hsized, hsize, hcnt, hocc', hch', hholds⟩
              refine ⟨ns', ?_, hsized, hsize, hcnt, by omega, hch', ?_⟩
              · simp only [rehash, hfound]
                exact hns'
              · intro f
                rw [hholds f, holds_store hi hfree e f, List.mem_cons]
                constructor
                · rintro ((rfl | hold) | hmem)
                  · exact Or.inr (Or.inl rfl)
                  · exact Or.inl hold
                  · exact Or.inr (Or.inr hmem)
                · rintro (hold | heq | hmem)
                  · exact Or.inl (Or.inr hold)
                  · exact Or.inl (Or.inl (Option.some.inj heq))
                  · exact Or.inr hmem

/-! ## Resizing -/

theorem blank_slot (size count sizePrimeIndex : ℕ) :
    (blank size count sizePrimeIndex).slot = fun _ => none := by
  funext i
  by_cases hi : i < size
  · simp [blank, slot, List.getD_eq_getElem?_getD, hi]
  · exact slot_eq_none (by simpa [blank] using Nat.not_lt.1 hi)

theorem blank_occupied (size count sizePrimeIndex : ℕ) :
    (blank size count sizePrimeIndex).occupied = 0 := by
  simp [blank, occupied, List.countP_replicate]

theorem blank_sized {size : ℕ} (hprime : size ∈ primes) (hsize : size < 2 ^ 30)
    (count sizePrimeIndex : ℕ) : (blank size count sizePrimeIndex).Sized where
  length := by simp [blank]
  prime := hprime
  bounded := hsize

/-- The size of a table for so many nodes: the first of the list that is at least their double. -/
def sizeFor (count : ℕ) : ℕ :=
  primes.getD (higherPrimeIndex (count * 2)) 0

theorem sizeFor_spec {count : ℕ} (hcount : count < 2 ^ 30) :
    sizeFor count ∈ primes ∧ count * 2 ≤ sizeFor count ∧ sizeFor count < 2 ^ 31 :=
  primes_getD_higherPrimeIndex (by omega)

/-- The new size, without wrapping. -/
theorem nsize_eq {ns : NodeTable} (hcount : ns.count < 2 ^ 30) : ns.nsize = sizeFor ns.count := by
  have hcnt : int32 (ns.count : ℤ) = ns.count := int32_eq (by omega) (by omega)
  have htwice : int32 ((ns.count : ℤ) * 2) = (ns.count * 2 : ℕ) := by
    rw [int32_eq (by omega) (by omega)]
    push_cast
    rfl
  have hu32 : u32 ((ns.count * 2 : ℕ) : ℤ) = ns.count * 2 := u32_eq (by omega)
  have hlt := (sizeFor_spec hcount).2.2
  rw [nsize, nindex, hcnt, htwice, hu32]
  exact int32_eq (by omega) (by rw [← sizeFor]; omega)

/-- The memory an array of the new size takes. -/
theorem granted_eq {ns : NodeTable} (hcount : ns.count < 2 ^ 30) (alloc : Allocator) :
    granted alloc ns = alloc.table (8 * sizeFor ns.count) := by
  have hlt := (sizeFor_spec hcount).2.2
  have hbytes : (8 * (sizeFor ns.count : ℤ) % 2 ^ 64).toNat = 8 * sizeFor ns.count := by omega
  rw [granted, nsize_eq hcount, hbytes]

/-- What `expand` can do: nothing, for want of cause or of memory, or move the entries into an
array of another prime size. -/
theorem expand_cases {ns : NodeTable} (h : ns.Sized) (hcount : ns.count < ns.size)
    (alloc : Allocator) :
    (ns.fits = true ∧ expand alloc ns = some (StatusCode.good, ns) ∧ ns.count * 2 < ns.size) ∨
      (ns.fits = false ∧ granted alloc ns = false ∧
        expand alloc ns = some (StatusCode.badOutOfMemory, ns)) ∨
        (ns.fits = false ∧ granted alloc ns = true ∧ sizeFor ns.count < 2 ^ 30 ∧
          ∃ idx, expand alloc ns =
            (rehash ns.entries ns.count (blank (sizeFor ns.count) ns.count idx)).map
              fun ns' => (StatusCode.good, ns')) := by
  have hbound := h.bounded
  have hosize : int32 (ns.size : ℤ) = ns.size := int32_eq (by omega) (by omega)
  have hcnt : int32 (ns.count : ℤ) = ns.count := int32_eq (by omega) (by omega)
  cases hfits : ns.fits with
  | true =>
      left
      have htwice : int32 ((ns.count : ℤ) * 2) = (ns.count : ℤ) * 2 :=
        int32_eq (by omega) (by omega)
      have hlt : int32 (int32 (ns.count : ℤ) * 2) < int32 (ns.size : ℤ) := by
        simp only [fits, Bool.and_eq_true, decide_eq_true_eq] at hfits
        exact hfits.1
      rw [hcnt, htwice, hosize] at hlt
      exact ⟨rfl, by simp [expand, hfits], by omega⟩
  | false =>
      right
      cases hgrant : granted alloc ns with
      | false => exact Or.inl ⟨rfl, rfl, by simp [expand, hfits, hgrant]⟩
      | true =>
          right
          -- An array that is granted is below 8 GiB.
          have hbytes := hgrant
          rw [granted_eq (by omega)] at hbytes
          have hbounded := alloc.bounded _ hbytes
          refine ⟨rfl, rfl, by omega, ns.nindex, ?_⟩
          simp [expand, hfits, hgrant, nsize_eq (by omega : ns.count < 2 ^ 30), hcnt]

/-- Resizing ends and leaves a free place.  When it succeeds, the table is at most half full. -/
theorem expand_valid {ns : NodeTable} (h : ns.Valid) (alloc : Allocator) :
    ∃ status ns', expand alloc ns = some (status, ns') ∧ ns'.Valid ∧ ns'.count = ns.count ∧
      (status = StatusCode.good → ns'.count * 2 ≤ ns'.size) := by
  rcases expand_cases h.toSized h.room alloc with
    ⟨_, heq, hsparse⟩ | ⟨_, _, heq⟩ | ⟨_, _, hsize, idx, heq⟩
  · exact ⟨_, _, heq, h, rfl, fun _ => Nat.le_of_lt hsparse⟩
  · exact ⟨_, _, heq, h, rfl, fun hbad => absurd hbad StatusCode.badOutOfMemory_ne_good⟩
  · have hbound := h.bounded
    have hcount := h.room
    rcases sizeFor_spec (by omega : ns.count < 2 ^ 30) with ⟨hprime, hle, _⟩
    generalize sizeFor ns.count = size at *
    have hseven := seven_le hprime
    have hocc := h.occupied_le
    have hroom : (blank size ns.count idx).occupied + ns.entries.countP Option.isSome < size := by
      rw [blank_occupied]
      have : ns.entries.countP Option.isSome = ns.occupied := rfl
      omega
    rcases rehash_valid (blank_sized hprime hsize ns.count idx) hroom with
      ⟨ns', hns', hsized, hsz, hcnt, hocc'⟩
    rw [hns'] at heq
    rw [blank_occupied] at hocc'
    have hsz' : ns'.size = size := hsz
    have hcnt' : ns'.count = ns.count := hcnt
    have hsame : ns.entries.countP Option.isSome = ns.occupied := rfl
    refine ⟨_, _, heq, ⟨hsized, by omega, by omega⟩, hcnt', fun _ => by omega⟩

/-- Moving the entries into another array makes a table with distinct ids faithful. -/
theorem expand_rebuilds {ns : NodeTable} (h : ns.Valid) (hcounted : ns.occupied = ns.count)
    (hdist : Distinct NodeEntry.nodeId ns.slot) {alloc : Allocator} (hfits : ns.fits = false)
    (hgrant : granted alloc ns = true) :
    ∃ ns', expand alloc ns = some (StatusCode.good, ns') ∧ ns'.Faithful ∧
      ns'.size = sizeFor ns.count ∧ ns'.count = ns.count ∧ ∀ e, ns'.Holds e ↔ ns.Holds e := by
  rcases expand_cases h.toSized h.room alloc with
    ⟨hbad, _⟩ | ⟨_, hbad, _⟩ | ⟨_, _, hsize, idx, heq⟩
  · rw [hfits] at hbad
    cases hbad
  · rw [hgrant] at hbad
    cases hbad
  · have hbound := h.bounded
    have hcount := h.room
    rcases sizeFor_spec (by omega : ns.count < 2 ^ 30) with ⟨hprime, hle, _⟩
    generalize sizeFor ns.count = size at *
    have hseven := seven_le hprime
    have hsame : ns.entries.countP Option.isSome = ns.occupied := rfl
    have hblank := blank_occupied size ns.count idx
    have hch : Chained (scheme (blank size ns.count idx).size) NodeEntry.nodeId
        (blank size ns.count idx).slot := by
      rw [blank_slot]
      exact Chained.empty
    have hnone : ∀ e, ¬ (blank size ns.count idx).Holds e := by
      rintro e ⟨i, hi⟩
      rw [blank_slot] at hi
      cases hi
    have hroom : (blank size ns.count idx).occupied + ns.entries.countP Option.isSome < size := by
      omega
    rcases rehash_chained (blank_sized hprime hsize ns.count idx) hch hroom
        (by omega : ns.entries.countP Option.isSome ≤ ns.count) (distinctIds_entries hdist)
        (fun e _ f hf => absurd hf (hnone f)) with
      ⟨ns', hns', hsized, hsz, hcnt, hocc', hch', hholds⟩
    rw [hns'] at heq
    have hsz' : ns'.size = size := hsz
    have hcnt' : ns'.count = ns.count := hcnt
    refine ⟨ns', heq, ⟨⟨hsized, by omega, by omega⟩, hch', by omega⟩, hsz', hcnt', ?_⟩
    intro e
    rw [hholds e, or_iff_right (hnone e)]
    exact holds_iff_mem.symm

/-! ## Room for one more -/

/-- Three quarters full, without wrapping. -/
theorem full_iff {ns : NodeTable} (h : ns.Sized) (hcount : ns.count < ns.size) :
    u32 (ns.size * 3) ≤ u32 (ns.count * 4) ↔ ns.size * 3 ≤ ns.count * 4 := by
  have hbound := h.bounded
  have hsize := u32_mul (by omega : ns.size * 3 < 2 ^ 32)
  have hcnt := u32_mul (by omega : ns.count * 4 < 2 ^ 32)
  rw [Nat.cast_ofNat] at hsize hcnt
  rw [hsize, hcnt]

/-- An array that is not three quarters full has two free places. -/
theorem room_of_sparse {ns : NodeTable} (h : ns.Sized) (hcount : ns.count < ns.size)
    (hsparse : ¬ u32 (ns.size * 3) ≤ u32 (ns.count * 4)) : ns.count + 1 < ns.size := by
  have hseven := seven_le h.prime
  rw [full_iff h hcount] at hsparse
  omega

/-- Making room ends; when it succeeds, there is room for one more entry. -/
theorem makeRoom_valid {ns : NodeTable} (h : ns.Valid) (alloc : Allocator) :
    ∃ status ns', makeRoom alloc ns = some (status, ns') ∧ ns'.Valid ∧
      (status = StatusCode.good → ns'.count + 1 < ns'.size) := by
  unfold makeRoom
  by_cases hfull : u32 (ns.size * 3) ≤ u32 (ns.count * 4)
  · rw [if_pos hfull]
    rcases expand_valid h alloc with ⟨status, ns', heq, hvalid, _, hroom⟩
    have hseven := seven_le hvalid.prime
    refine ⟨status, ns', heq, hvalid, ?_⟩
    intro hgood
    have hhalf := hroom hgood
    omega
  · rw [if_neg hfull]
    exact ⟨_, ns, rfl, h, fun _ => room_of_sparse h.toSized h.room hfull⟩

/-- Making room in a faithful table keeps its entries.  It fails just for a table that is three
quarters full and is denied the array of the next size. -/
theorem makeRoom_faithful {ns : NodeTable} (h : ns.Faithful) (alloc : Allocator) :
    (ns.size * 3 ≤ ns.count * 4 ∧ alloc.table (8 * sizeFor ns.count) = false ∧
        makeRoom alloc ns = some (StatusCode.badOutOfMemory, ns)) ∨
      ∃ ns', makeRoom alloc ns = some (StatusCode.good, ns') ∧ ns'.Faithful ∧
        ns'.count + 1 < ns'.size ∧ (∀ e, ns'.Holds e ↔ ns.Holds e) ∧
          ((ns.size * 3 ≤ ns.count * 4 ∧ alloc.table (8 * sizeFor ns.count) = true ∧
              ns'.size = sizeFor ns.count) ∨
            (¬ ns.size * 3 ≤ ns.count * 4 ∧ ns'.size = ns.size)) := by
  have hbound := h.bounded
  have hroom := h.room
  unfold makeRoom
  by_cases hfull : u32 (ns.size * 3) ≤ u32 (ns.count * 4)
  · rw [if_pos hfull]
    rw [full_iff h.toSized hroom] at hfull
    have hgrant := granted_eq (by omega : ns.count < 2 ^ 30) alloc
    rcases expand_cases h.toSized hroom alloc with
      ⟨_, _, hsparse⟩ | ⟨_, hrefused, heq⟩ | ⟨hfits, hgranted, _⟩
    · -- A table that fits is at most half full.
      omega
    · rw [hgrant] at hrefused
      exact Or.inl ⟨hfull, hrefused, heq⟩
    · rcases expand_rebuilds h.toValid h.counted h.chained.distinct hfits hgranted with
        ⟨ns', heq, hfaith, hsize, hcount, hholds⟩
      have hseven := seven_le hfaith.prime
      have hle := (sizeFor_spec (by omega : ns.count < 2 ^ 30)).2.1
      rw [hgrant] at hgranted
      exact Or.inr ⟨ns', heq, hfaith, by omega, hholds, Or.inl ⟨hfull, hgranted, hsize⟩⟩
  · rw [if_neg hfull]
    have hspare := room_of_sparse h.toSized hroom hfull
    rw [full_iff h.toSized hroom] at hfull
    exact Or.inr ⟨ns, rfl, h, hspare, fun e => Iff.rfl, Or.inr ⟨hfull, rfl⟩⟩

/-! ## Unused ids -/

/-- An id that no entry has is fresh. -/
theorem isFresh_of_absent {ns : NodeTable} (h : ns.Valid) {id : NodeId}
    (habsent : ∀ e, ns.Holds e → e.nodeId ≠ id) : ns.isFresh id = true := by
  have hfree := Nat.lt_of_le_of_lt h.occupied_le h.room
  rcases containsNodeId_spec h.toSized hfree id with ⟨n, hstop, hfound⟩
  have hnone : ns.slot ((scheme ns.size).place id n) = none := by
    cases hslot : ns.slot ((scheme ns.size).place id n) with
    | none => rfl
    | some e => exact absurd (key_of_stopsFor hstop.stops hslot) (habsent e ⟨_, hslot⟩)
  simp [isFresh, hfound, hnone]

theorem candidate_inj {ns : UInt16} {i j : ℕ} (hi : i < 2 ^ 32) (hj : j < 2 ^ 32)
    (h : candidate ns i = candidate ns j) : i = j := by
  have hval : UInt32.ofNat i = UInt32.ofNat j := by
    simpa [candidate, NodeId.numeric] using h
  have hnat := congrArg UInt32.toNat hval
  rwa [UInt32.toNat_ofNat', UInt32.toNat_ofNat', Nat.mod_eq_of_lt hi, Nat.mod_eq_of_lt hj] at hnat

/-- There are more candidates than entries. -/
theorem exists_unused {ns : NodeTable} (h : ns.Valid) (nsIndex : UInt16) :
    ∃ i < ns.size, ∀ e, ns.Holds e → e.nodeId ≠ candidate nsIndex i := by
  by_contra hall
  have hbound := h.bounded
  let ids := ns.entries.reduceOption.map NodeEntry.nodeId
  -- Otherwise the candidates, all different, are among the ids of the entries.
  have hsub : (List.range ns.size).map (candidate nsIndex) ⊆ ids := by
    intro id hid
    rcases List.mem_map.1 hid with ⟨i, hi, rfl⟩
    by_contra hnot
    refine hall ⟨i, List.mem_range.1 hi, ?_⟩
    intro e he heq
    refine hnot (List.mem_map.2 ⟨e, ?_, heq⟩)
    rw [List.reduceOption_mem_iff]
    exact holds_iff_mem.1 he
  have hnodup : ((List.range ns.size).map (candidate nsIndex)).Nodup := by
    refine List.Nodup.map_on ?_ List.nodup_range
    intro i hi j hj heq
    have hi' := List.mem_range.1 hi
    have hj' := List.mem_range.1 hj
    exact candidate_inj (by omega) (by omega) heq
  have hle := (hnodup.subperm hsub).length_le
  have hlen : ids.length = ns.occupied := by
    rw [List.length_map, List.reduceOption_length_eq, occupied, List.countP_eq_length_filter]
  rw [hlen, List.length_map, List.length_range] at hle
  have hocc := h.occupied_le
  have hroom := h.room
  omega

/-- The search for an unused id ends. -/
theorem exists_freshIdentifier {ns : NodeTable} (h : ns.Valid) (hroom : ns.count + 1 < ns.size)
    (nsIndex : UInt16) : ∃ i, ns.freshIdentifier nsIndex = some i ∧
      ns.isFresh (candidate nsIndex i) = true := by
  rcases exists_unused h nsIndex with ⟨j, hj, habsent⟩
  rcases exists_nextIndex h.prime h.bounded (ns.count + 1) hroom hj with ⟨n, hn, hplace⟩
  have hstop : ns.isFresh (candidate nsIndex
      ((nextIndex ns.size (mod2 (ns.count + 1) ns.size))^[n] (ns.count + 1))) = true := by
    rw [hplace]
    exact isFresh_of_absent h habsent
  rcases @search_isSome _ (fun i => ns.isFresh (candidate nsIndex i)) _ _ _ _ hn hstop with
    ⟨m, _, hm, hsearch⟩
  exact ⟨_, hsearch, hm.stops⟩

/-- A node is named, and the id is its own or fresh. -/
theorem nameNode_spec {ns : NodeTable} (h : ns.Valid) (hroom : ns.count + 1 < ns.size)
    (alloc : Allocator) (node : Node) :
    ∃ id, nameNode alloc ns node = some { node with nodeId := id } ∧
      ((asksForId alloc node.nodeId = false ∧ id = node.nodeId) ∨
        (asksForId alloc node.nodeId = true ∧ ns.isFresh id = true ∧
          ∃ i, id = candidate node.nodeId.namespaceIndex i)) := by
  unfold nameNode
  by_cases hask : asksForId alloc node.nodeId = true
  · rcases exists_freshIdentifier h hroom node.nodeId.namespaceIndex with ⟨i, hi, hfresh⟩
    exact ⟨_, by simp [hask, hi], Or.inr ⟨hask, hfresh, i, rfl⟩⟩
  · have hfalse : asksForId alloc node.nodeId = false := by simpa using hask
    exact ⟨node.nodeId, by simp [hfalse], Or.inl ⟨hfalse, rfl⟩⟩

end NodeTable

end Store

end ForteOpcUa
