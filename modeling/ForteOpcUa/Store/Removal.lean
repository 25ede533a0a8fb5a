import ForteOpcUa.Store.Directory

/-!
# Removal — emptying a place cuts the walks that cross it

`UA_NodeStore_remove` empties the place of a node without leaving a mark.  A later search stops
there, also one for a node that was stored further along its walk.

- `Blocks`          : the walk for one id crosses the place of another,
- `remove_lookups`  : after a removal exactly the blocked nodes are lost, unless the table is
  rebuilt on the occasion,
- `returns_always`  : lost nodes or not, every operation returns,
- `refines`         : as long as no removal blocks a node, the table answers as the map does.
-/

namespace ForteOpcUa

namespace Store

open Memory Probing NodeTable Interaction

namespace NodeTable

/-- On its way to the place of `id'` a search crosses the place of `id`. -/
def Blocks (ns : NodeTable) (id id' : NodeId) : Prop :=
  ∃ i j e e', ns.slot i = some e ∧ e.nodeId = id ∧ ns.slot j = some e' ∧ e'.nodeId = id' ∧
    i ≠ j ∧ (scheme ns.size).Crosses id' j i

/-- With one node less the table is so sparse that it is rebuilt, and it gets the memory. -/
def shrinks (alloc : Allocator) (ns : NodeTable) : Bool :=
  let ns' := { ns with count := u32 (ns.count - 1) }
  ns'.isSparse && !ns'.fits && granted alloc ns'

/-! ## One place less -/

theorem slot_vacate {ns : NodeTable} {i : ℕ} (hi : i < ns.entries.length) :
    (ns.vacate i).slot = Function.update ns.slot i none :=
  slot_setSlot hi none

/-- A table that is valid without counting on the order of its entries. -/
theorem vacate_valid {ns : NodeTable} (h : ns.Valid) {i : ℕ} (hi : i < ns.entries.length)
    {e : NodeEntry} (he : ns.slot i = some e) :
    (ns.vacate i).Valid ∧ (ns.vacate i).count + 1 = ns.count ∧
      (ns.vacate i).occupied + 1 = ns.occupied := by
  have hocc := occupied_setSlot hi none
  simp only [he, Option.isSome_some, Option.isSome_none, if_true] at hocc
  have hocc' : (ns.vacate i).occupied + 1 = ns.occupied := by
    have hsame : (ns.vacate i).occupied = (ns.setSlot i none).occupied := rfl
    rw [hsame, hocc]
    simp
  have hle := h.occupied_le
  have hroom := h.room
  have hbound := h.bounded
  have hcount : (ns.vacate i).count = ns.count - 1 := by
    have hcast : (ns.count : ℤ) - 1 = (ns.count - 1 : ℕ) := by omega
    rw [vacate, hcast]
    exact u32_eq (by omega)
  have hsized := h.toSized.setSlot i none
  have hsize : (ns.vacate i).size = ns.size := rfl
  refine ⟨⟨⟨hsized.length, hsized.prime, hsized.bounded⟩, ?_, ?_⟩, ?_, hocc'⟩
  · omega
  · omega
  · omega

/-- The entries that are left. -/
theorem holds_vacate {ns : NodeTable} (hdist : Distinct NodeEntry.nodeId ns.slot) {i : ℕ}
    (hi : i < ns.entries.length) {e : NodeEntry} (he : ns.slot i = some e) (f : NodeEntry) :
    (ns.vacate i).Holds f ↔ ns.Holds f ∧ f.nodeId ≠ e.nodeId := by
  unfold Holds
  rw [slot_vacate hi]
  constructor
  · rintro ⟨j, hj⟩
    by_cases heq : j = i
    · subst heq
      simp at hj
    · rw [Function.update_of_ne heq] at hj
      exact ⟨⟨j, hj⟩, fun hsame => heq (hdist j i f e hj he hsame)⟩
  · rintro ⟨⟨j, hj⟩, hne⟩
    refine ⟨j, ?_⟩
    have hji : j ≠ i := by
      rintro rfl
      rw [he] at hj
      cases hj
      exact hne rfl
    rw [Function.update_of_ne hji]
    exact hj

theorem represents_vacate {ns : NodeTable} {d : Directory} (hd : Represents ns d)
    (hdist : Distinct NodeEntry.nodeId ns.slot) {i : ℕ} (hi : i < ns.entries.length)
    {e : NodeEntry} (he : ns.slot i = some e) :
    Represents (ns.vacate i) (Function.update d e.nodeId none) := by
  intro id f
  rw [holds_vacate hdist hi he f]
  by_cases hid : id = e.nodeId
  · subst hid
    rw [Function.update_self]
    constructor
    · intro hbad
      cases hbad
    · rintro ⟨⟨_, hne⟩, hkey⟩
      exact absurd hkey hne
  · rw [Function.update_of_ne hid, hd id f]
    constructor
    · rintro ⟨hold, hkey⟩
      exact ⟨⟨hold, fun hsame => hid (hkey.symm.trans hsame)⟩, hkey⟩
    · rintro ⟨⟨hold, _⟩, hkey⟩
      exact ⟨hold, hkey⟩

/-- In a valid table with distinct ids a lookup finds just the entries reached over occupied
places. -/
theorem get_of_distinct {ns : NodeTable} (h : ns.Valid)
    (hdist : Distinct NodeEntry.nodeId ns.slot) (id : NodeId) :
    ∃ r, ns.get id = some r ∧
      ∀ e, r = some e ↔ e.nodeId = id ∧ ∃ i, ns.slot i = some e ∧ (scheme ns.size).Reached ns.slot id i := by
  have hfree := Nat.lt_of_le_of_lt h.occupied_le h.room
  rcases containsNodeId_spec h.toSized hfree id with ⟨n, hstop, hfound⟩
  refine ⟨ns.slot ((scheme ns.size).place id n), ?_, ?_⟩
  · cases hslot : ns.slot ((scheme ns.size).place id n) with
    | none => simp [get, hfound, hslot]
    | some e => simp [get, hfound, hslot]
  · intro e
    constructor
    · intro he
      exact ⟨key_of_stopsFor hstop.stops he, _, he, n, rfl, fun m hm => hstop.passed hm⟩
    · rintro ⟨rfl, i, he, hreach⟩
      rcases finds_of_reached hdist he hreach with ⟨m, hm, hplace⟩
      rw [hstop.unique hm]
      exact hplace

/-- After the removal of `id`, without a rebuild, the blocked nodes are lost and no others. -/
theorem get_vacate {ns : NodeTable} {c : Catalogue} (h : Models ns c) {i : ℕ}
    (hi : i < ns.entries.length) {e : NodeEntry} (he : ns.slot i = some e) (id' : NodeId) :
    (ns.Blocks e.nodeId id' → (ns.vacate i).get id' = some none) ∧
      (¬ ns.Blocks e.nodeId id' →
        (ns.vacate i).get id' = some (Function.update c.nodes e.nodeId none id')) := by
  have hdist := h.faithful.chained.distinct
  have hdist' : Distinct NodeEntry.nodeId (ns.vacate i).slot := by
    rw [slot_vacate hi]
    exact hdist.erase i
  rcases get_of_distinct (vacate_valid h.faithful.toValid hi he).1 hdist' id' with ⟨r, hr, hiff⟩
  have hrep := represents_vacate h.represents hdist hi he
  -- An entry that is left is found just when its walk does not cross the empty place.
  have hleft : ∀ f j, f.nodeId = id' → (ns.vacate i).slot j = some f →
      ns.slot j = some f ∧ i ≠ j ∧
        ((scheme ns.size).Reached (ns.vacate i).slot id' j ↔
          ¬ (scheme ns.size).Crosses id' j i) := by
    intro f j hf hj
    rw [slot_vacate hi] at hj ⊢
    have hji : j ≠ i := by
      rintro rfl
      simp at hj
    rw [Function.update_of_ne hji] at hj
    refine ⟨hj, Ne.symm hji, reached_erase_iff ?_⟩
    rw [← hf]
    exact h.faithful.chained.reached j f hj
  constructor
  · rintro ⟨i', j, e', f, he', hkey, hf, hfid, hne, hcross⟩
    have hii : i' = i := hdist i' i e' e he' he hkey
    subst hii
    have hfj : (ns.vacate i').slot j = some f := by
      rw [slot_vacate hi, Function.update_of_ne (Ne.symm hne)]
      exact hf
    cases r with
    | none => exact hr
    | some g =>
        rcases (hiff g).1 rfl with ⟨hg, l, hl, hreach⟩
        have hlj : l = j := hdist' l j g f hl hfj (hg.trans hfid.symm)
        subst hlj
        have hsize : (ns.vacate i').size = ns.size := rfl
        rw [hsize] at hreach
        exact absurd hcross ((hleft g l hg hl).2.2.1 hreach)
  · intro hblock
    rw [hr]
    refine congrArg some (Option.ext fun f => ?_)
    rw [hiff f, hrep id' f]
    constructor
    · rintro ⟨hf, j, hj, _⟩
      exact ⟨⟨j, hj⟩, hf⟩
    · rintro ⟨⟨j, hj⟩, hf⟩
      rcases hleft f j hf hj with ⟨hj', hne, hreach⟩
      refine ⟨hf, j, hj, hreach.2 fun hcross => hblock ?_⟩
      exact ⟨i, j, e, f, he, rfl, hj', hf, hne, hcross⟩

/-! ## The removal -/

/-- A sparse table, without wrapping: a count whose multiple would wrap needs more memory than is
ever granted. -/
theorem shrinks_iff {ns : NodeTable} (h : ns.Valid) (hpos : 0 < ns.count) (alloc : Allocator) :
    shrinks alloc ns = true ↔ ((ns.count - 1) * 8 < ns.size ∧ 32 < ns.size) ∧
      alloc.table (8 * sizeFor (ns.count - 1)) = true := by
  have hroom := h.room
  have hbound := h.bounded
  have hcast : (ns.count : ℤ) - 1 = (ns.count - 1 : ℕ) := by omega
  have hless : u32 ((ns.count : ℤ) - 1) = ns.count - 1 := by
    rw [hcast]
    exact u32_eq (by omega)
  have hgrant : granted alloc { ns with count := ns.count - 1 } =
      alloc.table (8 * sizeFor (ns.count - 1)) := by
    refine granted_eq ?_ alloc
    change ns.count - 1 < 2 ^ 30
    omega
  rw [shrinks, hless]
  simp only [hgrant, Bool.and_eq_true, Bool.not_eq_true']
  by_cases hlarge : ns.count - 1 < 2 ^ 29
  · have height := u32_mul (by omega : (ns.count - 1) * 8 < 2 ^ 32)
    rw [Nat.cast_ofNat] at height
    have hsparse : isSparse { ns with count := ns.count - 1 } = true ↔
        (ns.count - 1) * 8 < ns.size ∧ 32 < ns.size := by
      simp [isSparse, height]
    have hfits : isSparse { ns with count := ns.count - 1 } = true →
        fits { ns with count := ns.count - 1 } = false := by
      intro hs
      rcases hsparse.1 hs with ⟨hlt, hwide⟩
      have hosize : int32 (ns.size : ℤ) = ns.size := int32_eq (by omega) (by omega)
      have hcnt : int32 ((ns.count - 1 : ℕ) : ℤ) = (ns.count - 1 : ℕ) :=
        int32_eq (by omega) (by omega)
      have htimes : int32 (((ns.count - 1 : ℕ) : ℤ) * 8) = ((ns.count - 1 : ℕ) : ℤ) * 8 :=
        int32_eq (by omega) (by omega)
      simp only [fits, hosize, hcnt, htimes, Bool.and_eq_false_iff, Bool.or_eq_false_iff,
        decide_eq_false_iff_not]
      exact Or.inr ⟨by omega, by omega⟩
    constructor
    · rintro ⟨⟨hs, _⟩, htable⟩
      exact ⟨hsparse.1 hs, htable⟩
    · rintro ⟨hs, htable⟩
      exact ⟨⟨hsparse.2 hs, hfits (hsparse.2 hs)⟩, htable⟩
  · have hle := (sizeFor_spec (by omega : ns.count - 1 < 2 ^ 30)).2.1
    have hdenied : alloc.table (8 * sizeFor (ns.count - 1)) = false := by
      cases htable : alloc.table (8 * sizeFor (ns.count - 1)) with
      | false => rfl
      | true =>
          have hbytes := alloc.bounded _ htable
          omega
    simp [hdenied]

/-- The places that are left to the map. -/
theorem Models.vacated {ns : NodeTable} {c : Catalogue} (h : Models ns c) (hpos : 0 < ns.count)
    (alloc : Allocator) :
    c.vacated alloc = if shrinks alloc ns then sizeFor (ns.count - 1) else ns.size := by
  have hiff := shrinks_iff h.faithful.toValid hpos alloc
  rw [Catalogue.vacated, Catalogue.resized, h.count_eq, h.places]
  by_cases hsparse : (ns.count - 1) * 8 < ns.size ∧ 32 < ns.size
  · rw [if_pos hsparse]
    cases htable : alloc.table (8 * sizeFor (ns.count - 1)) <;> simp [hiff, hsparse, htable]
  · rw [if_neg hsparse]
    simp [hiff, hsparse]

/-- A removal empties the place, and rebuilds the table when it shrinks. -/
theorem remove_cases {ns : NodeTable} {c : Catalogue} (h : Models ns c) (alloc : Allocator)
    {id : NodeId} {e : NodeEntry} (hid : c.nodes id = some e) :
    ∃ i, ns.slot i = some e ∧ i < ns.entries.length ∧
      ((shrinks alloc ns = false ∧ ns.remove alloc id = some (StatusCode.good, ns.vacate i) ∧
          c.vacated alloc = ns.size) ∨
        (shrinks alloc ns = true ∧ ∃ ns', ns.remove alloc id = some (StatusCode.good, ns') ∧
          Models ns' ⟨Function.update c.nodes id none, c.vacated alloc⟩)) := by
  rcases search_represents h.faithful h.represents id with ⟨n, _, hfound, hslot⟩
  rw [hid] at hslot
  have hi := h.faithful.place_lt id n
  have hkey := ((h.represents id e).1 hid).2
  rcases vacate_valid h.faithful.toValid hi hslot with ⟨hvalid, hcount, hocc⟩
  have hcounted := h.faithful.counted
  have hplaces := h.vacated (by omega) alloc
  have hrep := represents_vacate h.represents h.faithful.chained.distinct hi hslot
  rw [hkey] at hrep
  have hdist : Distinct NodeEntry.nodeId (ns.vacate ((scheme ns.size).place id n)).slot := by
    rw [slot_vacate hi]
    exact h.faithful.chained.distinct.erase _
  refine ⟨_, hslot, hi, ?_⟩
  generalize hv : ns.vacate ((scheme ns.size).place id n) = v at *
  have hshrinks : shrinks alloc ns = (v.isSparse && !v.fits && granted alloc v) := by
    rw [← hv]
    rfl
  have hremove : ns.remove alloc id =
      if v.isSparse then (expand alloc v).map fun result => (StatusCode.good, result.2)
      else some (StatusCode.good, v) := by
    simp [remove, hfound, hid, hv]
  rw [hplaces, hshrinks, hremove]
  cases hsparse : v.isSparse with
  | false => exact Or.inl ⟨by simp, by simp, by simp⟩
  | true =>
      rcases expand_cases hvalid.toSized hvalid.room alloc with
        ⟨hfits, heq, _⟩ | ⟨_, hrefused, heq⟩ | ⟨hfits, hgrant, _⟩
      · exact Or.inl ⟨by simp [hfits], by simp [heq], by simp [hfits]⟩
      · exact Or.inl ⟨by simp [hrefused], by simp [heq], by simp [hrefused]⟩
      · rcases expand_rebuilds hvalid (by omega) hdist hfits hgrant with
          ⟨ns', heq, hfaith, hsize, _, hholds⟩
        have hless : v.count = ns.count - 1 := by omega
        refine Or.inr ⟨by simp [hfits, hgrant], ns', by simp [heq], hfaith, ?_, ?_⟩
        · intro id' f
          rw [hholds f]
          exact hrep id' f
        · rw [hsize, hless]
          simp [hfits, hgrant]

/-- The operation blocks no node: it is no removal, or a removal whose place no walk crosses or
that rebuilds the table. -/
def Harmless (ns : NodeTable) : Op → Prop
  | .remove alloc id => shrinks alloc ns = true ∨ ∀ id', ¬ ns.Blocks id id'
  | _ => True

/-- A vacated place that no walk crosses leaves a faithful table. -/
theorem faithful_vacate {ns : NodeTable} (h : ns.Faithful) {i : ℕ} (hi : i < ns.entries.length)
    {e : NodeEntry} (he : ns.slot i = some e) (hblock : ∀ id', ¬ ns.Blocks e.nodeId id') :
    (ns.vacate i).Faithful := by
  rcases vacate_valid h.toValid hi he with ⟨hvalid, hcount, hocc⟩
  have hcounted := h.counted
  refine ⟨hvalid, ⟨?_, ?_⟩, by omega⟩
  · intro j f hj
    rw [slot_vacate hi] at hj ⊢
    have hji : j ≠ i := by
      rintro rfl
      simp at hj
    rw [Function.update_of_ne hji] at hj
    refine (reached_erase_iff (h.chained.reached j f hj)).2 fun hcross => ?_
    exact hblock f.nodeId ⟨i, j, e, f, he, rfl, hj, rfl, Ne.symm hji, hcross⟩
  · rw [slot_vacate hi]
    exact h.chained.distinct.erase i

theorem answers_remove {ns : NodeTable} {c : Catalogue} (h : Models ns c) {alloc : Allocator}
    {id : NodeId} (hharm : Harmless ns (.remove alloc id)) : Answers ns c (.remove alloc id) := by
  cases hid : c.nodes id with
  | none =>
      rcases search_represents h.faithful h.represents id with ⟨n, _, hfound, _⟩
      refine ⟨_, ns, c, ?_, Catalogue.Step.removeUnknown hid, h⟩
      simp [apply, remove, hfound, hid]
  | some e =>
      have hin : c.nodes id ≠ none := by simp [hid]
      have hkey := ((h.represents id e).1 hid).2
      rcases remove_cases h alloc hid with
        ⟨i, he, hi, ⟨hshrink, heq, hplaces⟩ | ⟨_, ns', heq, hmodels⟩⟩
      · refine ⟨_, ns.vacate i, _, by simp [apply, heq], Catalogue.Step.removed hin, ?_, ?_,
          hplaces⟩
        · refine faithful_vacate h.faithful hi he ?_
          rcases hharm with hbad | hblock
          · rw [hshrink] at hbad
            cases hbad
          · rw [hkey]
            exact hblock
        · have hrep := represents_vacate h.represents h.faithful.chained.distinct hi he
          rw [hkey] at hrep
          exact hrep
      · exact ⟨_, ns', _, by simp [apply, heq], Catalogue.Step.removed hin, hmodels⟩

/-! ## Lost nodes or not -/

/-- Writing an entry where the search for an id stopped keeps a table valid, with one entry more at
most. -/
theorem valid_setSlot {ns : NodeTable} (h : ns.Valid) {i : ℕ} (hi : i < ns.entries.length)
    (hfull : (ns.slot i).isSome = true) (e : NodeEntry) : (ns.setSlot i (some e)).Valid := by
  have hocc := occupied_setSlot hi (some e)
  simp only [hfull, Option.isSome_some, if_true] at hocc
  have hle := h.occupied_le
  have hroom := h.room
  refine ⟨h.toSized.setSlot i (some e), ?_, ?_⟩
  · rw [count_setSlot]
    omega
  · rw [count_setSlot, size_setSlot]
    exact hroom

theorem insertNamed_valid {ns : NodeTable} (h : ns.Valid) (hroom : ns.count + 1 < ns.size)
    (alloc : Allocator) (node : Node) :
    ∃ status entry ns', insertNamed alloc ns node = some (status, entry, ns') ∧ ns'.Valid := by
  have hfree := Nat.lt_of_le_of_lt h.occupied_le h.room
  have hbound := h.bounded
  rcases containsNodeId_spec h.toSized hfree node.nodeId with ⟨n, _, hfound⟩
  have hi := h.toSized.place_lt node.nodeId n
  unfold insertNamed
  cases hslot : ns.slot ((scheme ns.size).place node.nodeId n) with
  | some f =>
      simp only [hfound, hslot, Option.isSome_some]
      exact ⟨_, _, ns, rfl, h⟩
  | none =>
      simp only [hfound, hslot, Option.isSome_none]
      cases halloc : alloc.entry with
      | none => exact ⟨_, _, ns, rfl, h⟩
      | some address =>
          have hocc := occupied_setSlot_le hi { address := address, node := node }
          have hcount : u32 ((ns.count : ℤ) + 1) = ns.count + 1 := by
            unfold u32
            omega
          have hle := h.occupied_le
          refine ⟨_, _, _, rfl, ⟨?_, ?_, ?_⟩⟩
          · have hsized := h.toSized.setSlot ((scheme ns.size).place node.nodeId n)
              (some { address := address, node := node })
            exact ⟨hsized.length, hsized.prime, hsized.bounded⟩
          · exact Nat.le_trans hocc (Nat.le_trans (Nat.succ_le_succ hle) (Nat.le_of_eq hcount.symm))
          · exact Nat.lt_of_le_of_lt (Nat.le_of_eq hcount) hroom

theorem insert_valid {ns : NodeTable} (h : ns.Valid) (alloc : Allocator) (node : Node) :
    ∃ status entry ns', ns.insert alloc node = some (status, entry, ns') ∧ ns'.Valid := by
  rcases makeRoom_valid h alloc with ⟨status, ns', heq, hvalid, hroom⟩
  by_cases hgood : status = StatusCode.good
  · rcases nameNode_spec hvalid (hroom hgood) alloc node with ⟨id, hname, _⟩
    rcases insertNamed_valid hvalid (hroom hgood) alloc { node with nodeId := id } with
      ⟨status', entry, ns'', heq', hvalid'⟩
    exact ⟨status', entry, ns'', by simp [insert, heq, hgood, hname, heq'], hvalid'⟩
  · exact ⟨StatusCode.badInternalError, none, ns', by simp [insert, heq, hgood], hvalid⟩

theorem replace_valid {ns : NodeTable} (h : ns.Valid) (alloc : Allocator) (oldNode : ℕ)
    (node : Node) :
    ∃ status entry ns', ns.replace alloc oldNode node = some (status, entry, ns') ∧ ns'.Valid := by
  have hfree := Nat.lt_of_le_of_lt h.occupied_le h.room
  rcases containsNodeId_spec h.toSized hfree node.nodeId with ⟨n, _, hfound⟩
  have hi := h.toSized.place_lt node.nodeId n
  unfold replace
  cases hslot : ns.slot ((scheme ns.size).place node.nodeId n) with
  | none =>
      simp only [hfound, hslot, Option.isSome_none]
      exact ⟨_, _, ns, rfl, h⟩
  | some f =>
      simp only [hfound, hslot, Option.isSome_some, Option.map_some, Option.some.injEq]
      by_cases hold : f.address = oldNode
      · rw [if_pos hold]
        cases halloc : alloc.entry with
        | none => exact ⟨_, _, ns, rfl, h⟩
        | some address => exact ⟨_, _, _, rfl, valid_setSlot h hi (by simp [hslot]) _⟩
      · rw [if_neg hold]
        exact ⟨_, _, ns, rfl, h⟩

theorem editNode_valid {ns : NodeTable} (h : ns.Valid) (id : NodeId)
    (callback : Node → StatusCode × Node) :
    ∃ status ns', ns.editNode id callback = some (status, ns') ∧ ns'.Valid := by
  have hfree := Nat.lt_of_le_of_lt h.occupied_le h.room
  rcases containsNodeId_spec h.toSized hfree id with ⟨n, _, hfound⟩
  have hi := h.toSized.place_lt id n
  unfold editNode
  cases hslot : ns.slot ((scheme ns.size).place id n) with
  | none =>
      simp only [hfound, hslot, Option.isSome_none]
      exact ⟨_, ns, rfl, h⟩
  | some f =>
      simp only [hfound, hslot, Option.isSome_some]
      exact ⟨_, _, rfl, valid_setSlot h hi (by simp [hslot]) _⟩

theorem remove_valid {ns : NodeTable} (h : ns.Valid) (alloc : Allocator) (id : NodeId) :
    ∃ status ns', ns.remove alloc id = some (status, ns') ∧ ns'.Valid := by
  have hfree := Nat.lt_of_le_of_lt h.occupied_le h.room
  rcases containsNodeId_spec h.toSized hfree id with ⟨n, _, hfound⟩
  have hi := h.toSized.place_lt id n
  unfold remove
  cases hslot : ns.slot ((scheme ns.size).place id n) with
  | none =>
      simp only [hfound, hslot, Option.isSome_none]
      exact ⟨_, ns, rfl, h⟩
  | some f =>
      simp only [hfound, hslot, Option.isSome_some]
      have hvalid := (vacate_valid h hi hslot).1
      by_cases hsparse : (ns.vacate ((scheme ns.size).place id n)).isSparse = true
      · rw [if_pos hsparse]
        rcases expand_valid hvalid alloc with ⟨status, ns', heq, hvalid', _⟩
        exact ⟨StatusCode.good, ns', by simp [heq], hvalid'⟩
      · rw [if_neg hsparse]
        exact ⟨_, _, rfl, hvalid⟩

/-- In a valid table every operation ends and leaves a valid table. -/
theorem apply_valid {ns : NodeTable} (h : ns.Valid) (op : Op) :
    ∃ reply ns', ns.apply op = some (reply, ns') ∧ ns'.Valid := by
  cases op with
  | insert alloc node =>
      rcases insert_valid h alloc node with ⟨status, entry, ns', heq, hvalid⟩
      exact ⟨.inserted status entry, ns', by simp [apply, heq], hvalid⟩
  | replace alloc oldNode node =>
      rcases replace_valid h alloc oldNode node with ⟨status, entry, ns', heq, hvalid⟩
      exact ⟨.inserted status entry, ns', by simp [apply, heq], hvalid⟩
  | get id =>
      have hfree := Nat.lt_of_le_of_lt h.occupied_le h.room
      rcases containsNodeId_spec h.toSized hfree id with ⟨n, _, hfound⟩
      exact ⟨_, ns, by simp [apply, get, hfound]; rfl, h⟩
  | editNode id callback =>
      rcases editNode_valid h id callback with ⟨status, ns', heq, hvalid⟩
      exact ⟨.status status, ns', by simp [apply, heq], hvalid⟩
  | remove alloc id =>
      rcases remove_valid h alloc id with ⟨status, ns', heq, hvalid⟩
      exact ⟨.status status, ns', by simp [apply, heq], hvalid⟩

theorem trace_valid {ns : NodeTable} (h : ns.Valid) (ops : List Op) :
    ∃ ls ns', ls.map Prod.fst = ops ∧ Trace NodeTable.Step ns ls ns' ∧ ns'.Valid := by
  induction ops generalizing ns with
  | nil => exact ⟨[], ns, rfl, Trace.nil ns, h⟩
  | cons op ops ih =>
      rcases apply_valid h op with ⟨reply, ns', heq, hvalid⟩
      rcases ih hvalid with ⟨ls, ns'', hls, htrace, hvalid'⟩
      exact ⟨(op, reply) :: ls, ns'', by simp [hls], Trace.cons heq htrace, hvalid'⟩

/-! ## Runs -/

/-- A new table is empty. -/
theorem models_new : Models new Catalogue.empty := by
  have hidx : higherPrimeIndex 32 = 3 := by decide
  have hnew : new = blank 61 0 3 := by
    rw [new, hidx]
    rfl
  rw [hnew]
  refine ⟨⟨⟨blank_sized (by decide) (by decide) 0 3, ?_, ?_⟩, ?_, ?_⟩, ?_, rfl⟩
  · rw [blank_occupied]
    exact Nat.zero_le _
  · decide
  · rw [blank_slot]
    exact Chained.empty
  · rw [blank_occupied]
    rfl
  · intro id e
    constructor
    · intro hbad
      cases hbad
    · rintro ⟨⟨i, hi⟩, _⟩
      rw [blank_slot] at hi
      cases hi

/-- Every harmless operation returns what the map may return. -/
theorem answers {ns : NodeTable} {c : Catalogue} (h : Models ns c) {op : Op}
    (hharm : Harmless ns op) : Answers ns c op := by
  cases op with
  | insert alloc node => exact answers_insert h alloc node
  | replace alloc oldNode node => exact answers_replace h alloc oldNode node
  | get id => exact answers_get h id
  | editNode id callback => exact answers_editNode h id callback
  | remove alloc id => exact answers_remove h hharm

/-- A call that is harmless, with its reply. -/
def HarmlessStep (ns : NodeTable) (l : Op × Reply) (ns' : NodeTable) : Prop :=
  Harmless ns l.1 ∧ ns.Step l ns'

/-- Along harmless operations the table stays faithful to the map. -/
theorem models_of_trace {ls : List (Op × Reply)} {ns : NodeTable}
    (h : Trace HarmlessStep new ls ns) :
    ∃ c, Trace Catalogue.Step Catalogue.empty ls c ∧ Models ns c := by
  refine Trace.simulate (P := fun ns l => Harmless ns l.1) ?_ h models_new
  intro ns l ns' c hm hharm hstep
  rcases answers hm hharm with ⟨reply, ns'', c', happ, hspec, hm'⟩
  have hsame : some (l.2, ns') = some (reply, ns'') := hstep.symm.trans happ
  cases l
  cases hsame
  exact ⟨c', hspec, hm'⟩

/-- **Termination.**  Whatever is called in whatever order, also after removals that lose nodes, no
search runs for ever: every operation returns. -/
theorem returns_always (ops : List Op) :
    ∃ ls ns, ls.map Prod.fst = ops ∧ Trace NodeTable.Step new ls ns ∧ ns.occupied < ns.size := by
  rcases trace_valid models_new.faithful.toValid ops with ⟨ls, ns, hls, htrace, hvalid⟩
  exact ⟨ls, ns, hls, htrace, Nat.lt_of_le_of_lt hvalid.occupied_le hvalid.room⟩

/-- **Removal.**  A removal that does not rebuild the table loses exactly the nodes whose walk
crosses the emptied place; it agrees with the map just when there are none or it rebuilds. -/
theorem remove_lookups {ls : List (Op × Reply)} {ns : NodeTable}
    (h : Trace HarmlessStep new ls ns) {d : Directory} (hd : ∀ id, ns.get id = some (d id))
    (alloc : Allocator) {id : NodeId} (hin : d id ≠ none) :
    ∃ ns', ns.remove alloc id = some (StatusCode.good, ns') ∧
      (shrinks alloc ns = false → ∀ id', ns.Blocks id id' → ns'.get id' = some none) ∧
        ((∀ id', ns'.get id' = some (Function.update d id none id')) ↔
          Harmless ns (.remove alloc id)) := by
  rcases models_of_trace h with ⟨c, _, hm⟩
  have hdd : c.nodes = d := by
    funext id
    exact Option.some.inj ((get_eq hm id).symm.trans (hd id))
  subst hdd
  rcases Option.ne_none_iff_exists'.1 hin with ⟨e, hid⟩
  have hkey := ((hm.represents id e).1 hid).2
  rcases remove_cases hm alloc hid with
    ⟨i, he, hi, ⟨hshrink, heq, _⟩ | ⟨hshrink, ns', heq, hm'⟩⟩
  · have hlook := get_vacate hm hi he
    rw [hkey] at hlook
    refine ⟨_, heq, fun _ id' => (hlook id').1, ?_⟩
    constructor
    · intro hall
      right
      intro id' hblock
      have hlost := (hlook id').1 hblock
      rw [hall id'] at hlost
      -- A blocked node is still in the map.
      rcases hblock with ⟨i', j, e', f, he', hkey', hf, hfid, hne, _⟩
      have hii := hm.faithful.chained.distinct i' i e' e he' he (hkey'.trans hkey.symm)
      have hfd : c.nodes id' = some f := (hm.represents id' f).2 ⟨⟨j, hf⟩, hfid⟩
      by_cases hsame : id' = id
      · subst hsame
        have hji := hm.faithful.chained.distinct j i f e hf he (hfid.trans hkey.symm)
        exact hne (hii.trans hji.symm)
      · rw [Function.update_of_ne hsame, hfd] at hlost
        cases hlost
    · rintro (hbad | hblock) id'
      · rw [hshrink] at hbad
        cases hbad
      · exact (hlook id').2 (hblock id')
  · refine ⟨ns', heq, ?_, ?_⟩
    · intro hbad
      rw [hshrink] at hbad
      cases hbad
    · exact ⟨fun _ => Or.inl hshrink, fun _ id' => get_eq hm' id'⟩

/-! ## A node that is lost -/

/-- An object with a numeric id in namespace 1. -/
def plainNode (value : UInt32) : Node :=
  { nodeId := NodeId.numeric 1 value
    browseName := { namespaceIndex := 1, name := [] }
    displayName := { locale := [], text := [] }
    references := []
    body := .object }

/-- Memory for an entry at the address and, if `table`, for an array. -/
def granting (table : Bool) (address : ℕ) : Allocator :=
  { table := fun bytes => table && bytes < 2 ^ 33
    bounded := by simp
    copy := true
    entry := some address }

/-- Two nodes whose searches both start at place 46. -/
def twoNodes : NodeTable :=
  { (new.setSlot 46 (some ⟨1, plainNode 1⟩)).setSlot 23 (some ⟨2, plainNode 14⟩) with count := 2 }

/-- The calls that store them. -/
def twoInserts : List (Op × Reply) :=
  [(.insert (granting true 1) (plainNode 1), .inserted StatusCode.good (some ⟨1, plainNode 1⟩)),
    (.insert (granting true 2) (plainNode 14), .inserted StatusCode.good (some ⟨2, plainNode 14⟩))]

theorem twoNodes_trace : Trace HarmlessStep new twoInserts twoNodes :=
  Trace.cons ⟨trivial, rfl⟩ (Trace.cons ⟨trivial, rfl⟩ (Trace.nil _))

theorem twoNodes_blocks : twoNodes.Blocks (NodeId.numeric 1 1) (NodeId.numeric 1 14) := by
  refine ⟨46, 23, ⟨1, plainNode 1⟩, ⟨2, plainNode 14⟩, rfl, rfl, rfl, rfl, by decide, 0, rfl, ?_⟩
  intro m hm
  rw [Nat.le_zero.1 hm]
  decide

/-- Without memory for a smaller array, the removal of the first node loses the second. -/
theorem remove_lookups_twoNodes :
    ∃ ns', twoNodes.remove (granting false 3) (NodeId.numeric 1 1) = some (StatusCode.good, ns') ∧
      ns'.get (NodeId.numeric 1 14) = some none := by
  rcases models_of_trace twoNodes_trace with ⟨c, _, hm⟩
  have hin : c.nodes (NodeId.numeric 1 1) ≠ none := by
    have hget := get_eq hm (NodeId.numeric 1 1)
    have hat : twoNodes.get (NodeId.numeric 1 1) = some (some ⟨1, plainNode 1⟩) := rfl
    rw [hat] at hget
    intro hnone
    rw [hnone] at hget
    cases hget
  rcases remove_lookups twoNodes_trace (fun id => get_eq hm id) (granting false 3) hin with
    ⟨ns', heq, hlost, _⟩
  exact ⟨ns', heq, hlost rfl _ twoNodes_blocks⟩

/-- So it goes with nine nodes, whatever memory there is: eight are enough for the table to stay. -/
example : ((([1, 14, 2, 3, 4, 5, 6, 7, 8] : List UInt32).foldlM
      (fun ns v => (NodeTable.insert (granting true 0) ns (plainNode v)).map fun r => r.2.2)
      new).bind fun ns => (ns.remove (granting true 0) (NodeId.numeric 1 1)).bind fun r =>
        r.2.get (NodeId.numeric 1 14)) = some none := by
  decide +kernel

end NodeTable

end Store

end ForteOpcUa
