import Mathlib.Data.Set.Card
import ForteOpcUa.Interaction.Labelled
import ForteOpcUa.Store.TableSpecs

/-!
# Directory — the node store as the map its header describes

`ua_nodestore.h` promises a map from node ids to nodes.  `Directory` is that map, the entry telling
which copy of a node is stored, `Catalogue` adds the places there are for the nodes, and
`Catalogue.Step` says what each operation answers:

- an unnamed node gets an id that is not taken, a named one is stored unless its id is,
- an insertion is refused for an id in use or for want of memory: of a larger array when three
  quarters of the places are taken, or of the entry,
- a failed operation leaves the map as it was,
- `get` answers what is stored.

`answers_insert` to `answers_editNode` show that the hash table answers as the map does.  `Removal`
is about the one operation that does not always.
-/

namespace ForteOpcUa

namespace Store

open Memory Probing NodeTable

/-! ## Operations -/

/-- One call of an operation of the node store. -/
inductive Op
  | insert (alloc : Allocator) (node : Node)
  | replace (alloc : Allocator) (oldNode : ℕ) (node : Node)
  | get (id : NodeId)
  | editNode (id : NodeId) (callback : Node → StatusCode × Node)
  | remove (alloc : Allocator) (id : NodeId)

/-- What a call returns. -/
inductive Reply
  | inserted (status : StatusCode) (entry : Option NodeEntry)
  | found (entry : Option NodeEntry)
  | status (status : StatusCode)

/-- One call on the table; `none` when it does not return. -/
def NodeTable.apply (ns : NodeTable) : Op → Option (Reply × NodeTable)
  | .insert alloc node =>
      (ns.insert alloc node).map fun r => (.inserted r.1 r.2.1, r.2.2)
  | .replace alloc oldNode node =>
      (ns.replace alloc oldNode node).map fun r => (.inserted r.1 r.2.1, r.2.2)
  | .get id => (ns.get id).map fun e => (.found e, ns)
  | .editNode id callback => (ns.editNode id callback).map fun r => (.status r.1, r.2)
  | .remove alloc id => (ns.remove alloc id).map fun r => (.status r.1, r.2)

/-- One call with its reply, as a labelled step. -/
def NodeTable.Step (ns : NodeTable) (l : Op × Reply) (ns' : NodeTable) : Prop :=
  ns.apply l.1 = some (l.2, ns')

/-! ## The map -/

/-- The map from ids to entries. -/
abbrev Directory : Type :=
  NodeId → Option NodeEntry

/-- The map, and the number of places for its nodes. -/
structure Catalogue where
  nodes : Directory
  places : ℕ

/-- The id under which a node may be stored: its own, or an unused numeric one. -/
structure Named (alloc : Allocator) (d : Directory) (node : Node) (id : NodeId) : Prop where
  unused : d id = none
  own : asksForId alloc node.nodeId = false → id = node.nodeId
  chosen : asksForId alloc node.nodeId = true →
    ∃ identifier, id = candidate node.nodeId.namespaceIndex identifier

namespace Catalogue

/-- Without nodes, in the places of a new table. -/
def empty : Catalogue :=
  { nodes := fun _ => none, places := 61 }

/-- The number of nodes. -/
noncomputable def count (c : Catalogue) : ℕ :=
  {id | c.nodes id ≠ none}.ncard

/-- The places for so many nodes, if the memory for them is granted. -/
def resized (alloc : Allocator) (count : ℕ) : Option ℕ :=
  if alloc.table (8 * sizeFor count) then some (sizeFor count) else none

/-- The places in which there is room for one more node: others, when three quarters are taken. -/
noncomputable def makeRoom (c : Catalogue) (alloc : Allocator) : Option ℕ :=
  if c.places * 3 ≤ c.count * 4 then resized alloc c.count else some c.places

/-- The places after one node is removed: fewer, when less than an eighth is taken. -/
noncomputable def vacated (c : Catalogue) (alloc : Allocator) : ℕ :=
  if (c.count - 1) * 8 < c.places ∧ 32 < c.places then
    (resized alloc (c.count - 1)).getD c.places
  else
    c.places

/-- What the map answers. -/
inductive Step : Catalogue → Op × Reply → Catalogue → Prop
  | noTable {c : Catalogue} {alloc : Allocator} {node : Node} :
      c.makeRoom alloc = none →
        Step c (.insert alloc node, .inserted StatusCode.badInternalError none) c
  | exists {c : Catalogue} {alloc : Allocator} {node : Node} {places : ℕ} :
      c.makeRoom alloc = some places → asksForId alloc node.nodeId = false →
        c.nodes node.nodeId ≠ none →
          Step c (.insert alloc node, .inserted StatusCode.badNodeIdExists none)
            ⟨c.nodes, places⟩
  | noEntry {c : Catalogue} {alloc : Allocator} {node : Node} {id : NodeId} {places : ℕ} :
      c.makeRoom alloc = some places → Named alloc c.nodes node id → alloc.entry = none →
        Step c (.insert alloc node, .inserted StatusCode.badOutOfMemory none) ⟨c.nodes, places⟩
  | inserted {c : Catalogue} {alloc : Allocator} {node : Node} {id : NodeId}
      {address places : ℕ} :
      c.makeRoom alloc = some places → Named alloc c.nodes node id →
        alloc.entry = some address →
          Step c (.insert alloc node,
            .inserted StatusCode.good (some ⟨address, { node with nodeId := id }⟩))
            ⟨Function.update c.nodes id (some ⟨address, { node with nodeId := id }⟩), places⟩
  | replaceUnknown {c : Catalogue} {alloc : Allocator} {oldNode : ℕ} {node : Node} :
      c.nodes node.nodeId = none →
        Step c (.replace alloc oldNode node, .inserted StatusCode.badNodeIdUnknown none) c
  | replaceObsolete {c : Catalogue} {alloc : Allocator} {oldNode : ℕ} {node : Node}
      {e : NodeEntry} :
      c.nodes node.nodeId = some e → e.address ≠ oldNode →
        Step c (.replace alloc oldNode node, .inserted StatusCode.badInternalError none) c
  | replaceNoEntry {c : Catalogue} {alloc : Allocator} {oldNode : ℕ} {node : Node}
      {e : NodeEntry} :
      c.nodes node.nodeId = some e → e.address = oldNode → alloc.entry = none →
        Step c (.replace alloc oldNode node, .inserted StatusCode.badOutOfMemory none) c
  | replaced {c : Catalogue} {alloc : Allocator} {oldNode address : ℕ} {node : Node}
      {e : NodeEntry} :
      c.nodes node.nodeId = some e → e.address = oldNode → alloc.entry = some address →
        Step c (.replace alloc oldNode node,
          .inserted StatusCode.good (some ⟨address, node⟩))
          ⟨Function.update c.nodes node.nodeId (some ⟨address, node⟩), c.places⟩
  | get {c : Catalogue} {id : NodeId} : Step c (.get id, .found (c.nodes id)) c
  | editUnknown {c : Catalogue} {id : NodeId} {callback : Node → StatusCode × Node} :
      c.nodes id = none →
        Step c (.editNode id callback, .status StatusCode.badNodeIdUnknown) c
  | edited {c : Catalogue} {id : NodeId} {callback : Node → StatusCode × Node} {e : NodeEntry} :
      c.nodes id = some e →
        Step c (.editNode id callback, .status (callback e.node).1)
          ⟨Function.update c.nodes id
            (some ⟨e.address, { (callback e.node).2 with nodeId := id }⟩), c.places⟩
  | removeUnknown {c : Catalogue} {alloc : Allocator} {id : NodeId} :
      c.nodes id = none → Step c (.remove alloc id, .status StatusCode.badNodeIdUnknown) c
  | removed {c : Catalogue} {alloc : Allocator} {id : NodeId} :
      c.nodes id ≠ none →
        Step c (.remove alloc id, .status StatusCode.good)
          ⟨Function.update c.nodes id none, c.vacated alloc⟩

end Catalogue

/-- The map holds the entries of the table, each under its id. -/
def Represents (ns : NodeTable) (d : Directory) : Prop :=
  ∀ id e, d id = some e ↔ ns.Holds e ∧ e.nodeId = id

namespace NodeTable

/-! ## The table against the map -/

/-- A search in a faithful table ends where the map says. -/
theorem search_represents {ns : NodeTable} {d : Directory} (h : ns.Faithful)
    (hd : Represents ns d) (id : NodeId) :
    ∃ n, (scheme ns.size).Stops NodeEntry.nodeId ns.slot id n ∧
      ns.containsNodeId id = some ((d id).isSome, (scheme ns.size).place id n) ∧
        ns.slot ((scheme ns.size).place id n) = d id := by
  have hfree := Nat.lt_of_le_of_lt h.occupied_le h.room
  rcases containsNodeId_spec h.toSized hfree id with ⟨n, hstop, hfound⟩
  have hslot : ns.slot ((scheme ns.size).place id n) = d id := by
    refine Option.ext fun e => ?_
    rw [h.chained.find hstop e, hd id e, and_comm]
    exact Iff.rfl
  refine ⟨n, hstop, ?_, hslot⟩
  rw [hfound, hslot]

/-- A fresh id is one the map does not have. -/
theorem unused_of_isFresh {ns : NodeTable} {d : Directory} (h : ns.Faithful)
    (hd : Represents ns d) {id : NodeId} (hfresh : ns.isFresh id = true) : d id = none := by
  rcases search_represents h hd id with ⟨n, _, hfound, _⟩
  cases hid : d id with
  | none => rfl
  | some e => simp [isFresh, hfound, hid] at hfresh

/-- Storing under an unused id. -/
theorem represents_store {ns : NodeTable} {d : Directory} {i : ℕ} {e : NodeEntry}
    (hd : Represents ns d) (hi : i < ns.entries.length) (hfree : ns.slot i = none)
    (hunused : d e.nodeId = none) :
    Represents (ns.setSlot i (some e)) (Function.update d e.nodeId (some e)) := by
  intro id f
  rw [holds_store hi hfree e f]
  by_cases hid : id = e.nodeId
  · subst hid
    rw [Function.update_self]
    constructor
    · intro hf
      cases hf
      exact ⟨Or.inl rfl, rfl⟩
    · rintro ⟨rfl | hold, hkey⟩
      · rfl
      · have hsome := (hd e.nodeId f).2 ⟨hold, hkey⟩
        rw [hunused] at hsome
        cases hsome
  · rw [Function.update_of_ne hid, hd id f]
    constructor
    · rintro ⟨hold, hkey⟩
      exact ⟨Or.inr hold, hkey⟩
    · rintro ⟨rfl | hold, hkey⟩
      · exact absurd hkey.symm hid
      · exact ⟨hold, hkey⟩

/-- Putting another entry in the place of one with the same id. -/
theorem represents_replace {ns : NodeTable} {d : Directory} {i : ℕ} {e f : NodeEntry}
    (hd : Represents ns d) (hdist : Distinct NodeEntry.nodeId ns.slot)
    (hi : i < ns.entries.length) (hf : ns.slot i = some f) (hkey : e.nodeId = f.nodeId) :
    Represents (ns.setSlot i (some e)) (Function.update d e.nodeId (some e)) := by
  intro id g
  have hholds : (ns.setSlot i (some e)).Holds g ↔
      g = e ∨ (ns.Holds g ∧ g.nodeId ≠ e.nodeId) := by
    unfold Holds
    rw [slot_setSlot hi]
    constructor
    · rintro ⟨j, hj⟩
      by_cases heq : j = i
      · subst heq
        rw [Function.update_self] at hj
        exact Or.inl (Option.some.inj hj).symm
      · rw [Function.update_of_ne heq] at hj
        refine Or.inr ⟨⟨j, hj⟩, ?_⟩
        intro hsame
        exact heq (hdist j i g f hj hf (hsame.trans hkey))
    · rintro (rfl | ⟨⟨j, hj⟩, hne⟩)
      · exact ⟨i, Function.update_self ..⟩
      · refine ⟨j, ?_⟩
        have hji : j ≠ i := by
          rintro rfl
          rw [hf] at hj
          cases hj
          exact hne hkey.symm
        rw [Function.update_of_ne hji]
        exact hj
  rw [hholds]
  by_cases hid : id = e.nodeId
  · subst hid
    rw [Function.update_self]
    constructor
    · intro hg
      cases hg
      exact ⟨Or.inl rfl, rfl⟩
    · rintro ⟨rfl | hold, hkey'⟩
      · rfl
      · exact absurd hkey' hold.2
  · rw [Function.update_of_ne hid, hd id g]
    constructor
    · rintro ⟨hold, hkey'⟩
      exact ⟨Or.inr ⟨hold, fun hsame => hid (hkey'.symm.trans hsame)⟩, hkey'⟩
    · rintro ⟨rfl | hold, hkey'⟩
      · exact absurd hkey'.symm hid
      · exact ⟨hold.1, hkey'⟩

/-- A faithful table with another entry in the place of one with the same id. -/
theorem faithful_replace {ns : NodeTable} (h : ns.Faithful) {i : ℕ} {e f : NodeEntry}
    (hi : i < ns.entries.length) (hf : ns.slot i = some f) (hkey : e.nodeId = f.nodeId) :
    (ns.setSlot i (some e)).Faithful := by
  have hocc := occupied_setSlot hi (some e)
  simp only [hf, Option.isSome_some, if_true] at hocc
  have hocc' : (ns.setSlot i (some e)).occupied = ns.occupied := by omega
  refine ⟨⟨h.toSized.setSlot i (some e), ?_, h.room⟩, ?_, ?_⟩
  · rw [hocc']
    exact h.occupied_le
  · rw [slot_setSlot hi]
    exact h.chained.replace hf hkey
  · rw [hocc']
    exact h.counted

/-- A faithful table with one more entry, stored where the search for its id stopped. -/
theorem faithful_store {ns : NodeTable} (h : ns.Faithful) (hroom : ns.count + 1 < ns.size)
    {e : NodeEntry} {n : ℕ} (hstop : (scheme ns.size).Stops NodeEntry.nodeId ns.slot e.nodeId n)
    (hfree : ns.slot ((scheme ns.size).place e.nodeId n) = none) :
    NodeTable.Faithful { ns.setSlot ((scheme ns.size).place e.nodeId n) (some e) with
      count := u32 (ns.count + 1) } := by
  have hi := h.place_lt e.nodeId n
  have hocc := occupied_store hi hfree e
  have hbound := h.bounded
  have hcount : u32 ((ns.count : ℤ) + 1) = ns.count + 1 := by
    rw [← Nat.cast_succ]
    exact u32_eq (by omega)
  have hcounted : (ns.setSlot ((scheme ns.size).place e.nodeId n) (some e)).occupied =
      ns.count + 1 := by rw [hocc, h.counted]
  have hsized := h.toSized.setSlot ((scheme ns.size).place e.nodeId n) (some e)
  rw [hcount]
  exact ⟨⟨⟨hsized.length, hsized.prime, hsized.bounded⟩, Nat.le_of_eq hcounted, hroom⟩,
    chained_store h.toSized h.chained hstop hfree, hcounted⟩

/-! ## One operation -/

/-- The table is faithful to the map, and has its places. -/
structure Models (ns : NodeTable) (c : Catalogue) : Prop where
  faithful : ns.Faithful
  represents : Represents ns c.nodes
  places : c.places = ns.size

/-- The nodes of the map are counted by the table. -/
theorem Models.count_eq {ns : NodeTable} {c : Catalogue} (h : Models ns c) :
    c.count = ns.count := by
  let ids := ns.entries.reduceOption.map NodeEntry.nodeId
  have hset : {id | c.nodes id ≠ none} = ↑ids.toFinset := by
    ext id
    simp only [Set.mem_ofPred_eq, List.coe_toFinset, ids, List.mem_map, List.reduceOption_mem_iff]
    constructor
    · intro hid
      rcases Option.ne_none_iff_exists'.1 hid with ⟨e, he⟩
      rcases (h.represents id e).1 he with ⟨hold, hkey⟩
      exact ⟨e, holds_iff_mem.1 hold, hkey⟩
    · rintro ⟨e, he, hkey⟩ hnone
      rw [(h.represents id e).2 ⟨holds_iff_mem.2 he, hkey⟩] at hnone
      cases hnone
  have hnodup : ids.Nodup := by
    refine List.pairwise_map.2 ?_
    refine (List.pairwise_filterMap.2 ?_)
    refine (distinctIds_entries h.faithful.chained.distinct).imp ?_
    intro x y hxy e he f hf
    exact hxy e f he hf
  have hlen : ids.length = ns.occupied := by
    rw [List.length_map, List.reduceOption_length_eq, occupied, List.countP_eq_length_filter]
  rw [Catalogue.count, hset, Set.ncard_coe_finset, List.toFinset_card_of_nodup hnodup, hlen,
    h.faithful.counted]

/-- Room is made in the table as in the map. -/
theorem Models.makeRoom {ns : NodeTable} {c : Catalogue} (h : Models ns c) (alloc : Allocator) :
    (c.makeRoom alloc = none ∧
        NodeTable.makeRoom alloc ns = some (StatusCode.badOutOfMemory, ns)) ∨
      ∃ ns', NodeTable.makeRoom alloc ns = some (StatusCode.good, ns') ∧
        c.makeRoom alloc = some ns'.size ∧ ns'.count + 1 < ns'.size ∧
          Models ns' ⟨c.nodes, ns'.size⟩ := by
  rw [Catalogue.makeRoom, Catalogue.resized, h.count_eq, h.places]
  rcases makeRoom_faithful h.faithful alloc with
    ⟨hfull, hrefused, hmake⟩ | ⟨ns', hmake, hfaith, hroom, hholds, hsize⟩
  · exact Or.inl ⟨by simp [hfull, hrefused], hmake⟩
  · refine Or.inr ⟨ns', hmake, ?_, hroom, hfaith, ?_, rfl⟩
    · rcases hsize with ⟨hfull, hgranted, hsize⟩ | ⟨hsparse, hsize⟩
      · simp [hfull, hgranted, hsize]
      · simp [hsparse, hsize]
    · intro id e
      rw [hholds e]
      exact h.represents id e

/-- The call returns, and the map may return the same. -/
def Answers (ns : NodeTable) (c : Catalogue) (op : Op) : Prop :=
  ∃ reply ns' c', ns.apply op = some (reply, ns') ∧ c.Step (op, reply) c' ∧ Models ns' c'

theorem answers_insert {ns : NodeTable} {c : Catalogue} (h : Models ns c) (alloc : Allocator)
    (node : Node) : Answers ns c (.insert alloc node) := by
  rcases h.makeRoom alloc with ⟨hrefused, hmake⟩ | ⟨ns₁, hmake, hplaces, hroom, h₁⟩
  · refine ⟨_, ns, c, ?_, Catalogue.Step.noTable hrefused, h⟩
    simp [apply, insert, hmake, StatusCode.badOutOfMemory_ne_good]
  · have hfaith := h₁.faithful
    have hrep := h₁.represents
    rcases nameNode_spec hfaith.toValid hroom alloc node with ⟨id, hname, hid⟩
    rcases search_represents hfaith hrep id with ⟨n, hstop, hfound, hslot⟩
    cases hd : c.nodes id with
    | some e =>
        -- Only a node that names its id can find it taken.
        rcases hid with ⟨hask, rfl⟩ | ⟨_, hfresh, _⟩
        · have hin : c.nodes node.nodeId ≠ none := by simp [hd]
          refine ⟨_, ns₁, _, ?_, Catalogue.Step.exists hplaces hask hin, h₁⟩
          simp [apply, insert, hmake, hname, insertNamed, hfound, hd]
        · have hunused : c.nodes id = none := unused_of_isFresh hfaith hrep hfresh
          rw [hunused] at hd
          cases hd
    | none =>
        have hnamed : Named alloc c.nodes node id := by
          rcases hid with ⟨hask, rfl⟩ | ⟨hask, _, hcand⟩
          · exact ⟨hd, fun _ => rfl, fun hbad => absurd hbad (by simp [hask])⟩
          · exact ⟨hd, fun hbad => absurd hbad (by simp [hask]), fun _ => hcand⟩
        cases halloc : alloc.entry with
        | none =>
            refine ⟨_, ns₁, _, ?_, Catalogue.Step.noEntry hplaces hnamed halloc, h₁⟩
            simp [apply, insert, hmake, hname, insertNamed, hfound, hd, halloc]
        | some address =>
            rw [hd] at hslot
            have hi := hfaith.place_lt id n
            refine ⟨_, { ns₁.setSlot ((scheme ns₁.size).place id n)
                (some ⟨address, { node with nodeId := id }⟩) with count := u32 (ns₁.count + 1) }, _,
              ?_, Catalogue.Step.inserted hplaces hnamed halloc, ?_, ?_, rfl⟩
            · simp [apply, insert, hmake, hname, insertNamed, hfound, hd, halloc]
            · exact @faithful_store _ hfaith hroom ⟨address, { node with nodeId := id }⟩ n hstop
                hslot
            · exact @represents_store _ _ _ ⟨address, { node with nodeId := id }⟩ hrep hi hslot hd

theorem answers_replace {ns : NodeTable} {c : Catalogue} (h : Models ns c) (alloc : Allocator)
    (oldNode : ℕ) (node : Node) : Answers ns c (.replace alloc oldNode node) := by
  rcases search_represents h.faithful h.represents node.nodeId with ⟨n, _, hfound, hslot⟩
  cases hd : c.nodes node.nodeId with
  | none =>
      refine ⟨_, ns, c, ?_, Catalogue.Step.replaceUnknown hd, h⟩
      simp [apply, replace, hfound, hd]
  | some e =>
      rw [hd] at hslot
      by_cases hold : e.address = oldNode
      · cases halloc : alloc.entry with
        | none =>
            refine ⟨_, ns, c, ?_, Catalogue.Step.replaceNoEntry hd hold halloc, h⟩
            simp [apply, replace, hfound, hd, hslot, hold, halloc]
        | some address =>
            have hkey := ((h.represents node.nodeId e).1 hd).2
            have hi := h.faithful.place_lt node.nodeId n
            refine ⟨_, ns.setSlot ((scheme ns.size).place node.nodeId n) (some ⟨address, node⟩), _,
              ?_, Catalogue.Step.replaced hd hold halloc, ?_, ?_, h.places⟩
            · simp [apply, replace, hfound, hd, hslot, hold, halloc]
            · exact faithful_replace h.faithful hi hslot hkey.symm
            · exact @represents_replace _ _ _ ⟨address, node⟩ e h.represents
                h.faithful.chained.distinct hi hslot hkey.symm
      · refine ⟨_, ns, c, ?_, Catalogue.Step.replaceObsolete hd hold, h⟩
        simp [apply, replace, hfound, hd, hslot, hold]

theorem get_eq {ns : NodeTable} {c : Catalogue} (h : Models ns c) (id : NodeId) :
    ns.get id = some (c.nodes id) := by
  rcases search_represents h.faithful h.represents id with ⟨n, _, hfound, hslot⟩
  cases hd : c.nodes id with
  | none => simp [get, hfound, hd]
  | some e => simp [get, hfound, hd, hslot]

theorem answers_get {ns : NodeTable} {c : Catalogue} (h : Models ns c) (id : NodeId) :
    Answers ns c (.get id) := by
  refine ⟨_, ns, c, ?_, Catalogue.Step.get, h⟩
  simp [apply, get_eq h id]

theorem answers_editNode {ns : NodeTable} {c : Catalogue} (h : Models ns c) (id : NodeId)
    (callback : Node → StatusCode × Node) : Answers ns c (.editNode id callback) := by
  rcases search_represents h.faithful h.represents id with ⟨n, _, hfound, hslot⟩
  cases hd : c.nodes id with
  | none =>
      refine ⟨_, ns, c, ?_, Catalogue.Step.editUnknown hd, h⟩
      simp [apply, editNode, hfound, hd]
  | some e =>
      rw [hd] at hslot
      have hkey : e.node.nodeId = id := ((h.represents id e).1 hd).2
      have hi := h.faithful.place_lt id n
      refine ⟨_, ns.setSlot ((scheme ns.size).place id n)
          (some ⟨e.address, { (callback e.node).2 with nodeId := id }⟩), _, ?_,
        Catalogue.Step.edited hd, ?_, ?_, h.places⟩
      · simp [apply, editNode, hfound, hd, hslot, hkey]
      · exact faithful_replace h.faithful hi hslot hkey.symm
      · exact @represents_replace _ _ _ ⟨e.address, { (callback e.node).2 with nodeId := id }⟩ e
          h.represents h.faithful.chained.distinct hi hslot hkey.symm

end NodeTable

end Store

end ForteOpcUa
