import ForteOpcUa.Memory.LittleEndian
import ForteOpcUa.Server.NodeStore
import ForteOpcUa.Worklist.Unmarked

/-!
# Subtypes — the reference types below a reference type

`findSubTypes` in `ua_services_view.c` goes through an array that starts with one node id, and puts
the targets of forward `HasSubtype` references at its back.  It relies on the hierarchy having no
cycle, and it knows `HasSubtype` by its number alone.

- `findSubTypes`         : the function, with fuel for its outer loop,
- `Below`                : the hierarchy of `HasSubtype`, `Found` what the number alone leads to,
- `findSubTypes_exact`   : when it returns, and what, and when that is the hierarchy,
- `findSubTypes_bounded` : where memory is short it returns always.
-/

namespace ForteOpcUa

namespace StatusCode

def badNoMatch : StatusCode := 0x806f0000

end StatusCode

namespace View

open Worklist

/-- `identifier.numeric` of the union, whatever the tag says: a text begins with its length. -/
def Identifier.asNumeric : Identifier → UInt32
  | .numeric value => value
  | .string value => UInt32.ofNat value.length
  | .guid value => UInt32.ofNat (Memory.ofBytes (value.toList.take 4))
  | .byteString value => UInt32.ofNat value.length

/-- `UA_NS0ID_HASSUBTYPE`. -/
def hasSubtype : UInt32 := 45

/-- The node class is that of reference types. -/
def isReferenceType (n : Node) : Bool :=
  match n.body with
  | .referenceType _ => true
  | _ => false

/-- The reference that the inner loop does not pass over. -/
def isSubtypeReference (r : ReferenceNode) : Bool :=
  Identifier.asNumeric r.referenceTypeId.identifier = hasSubtype && !r.isInverse

/-- The inner loop of `findSubTypes`: the array, which grows when it is full, and its size. -/
def collect (memory : ℕ → Bool) : List ReferenceNode → List NodeId → ℕ →
    StatusCode × List NodeId × ℕ
  | [], results, size => (.good, results, size)
  | r :: rs, results, size =>
      if isSubtypeReference r then
        if results.length < size then
          collect memory rs (results ++ [r.targetId]) size
        else if memory (size * 2) then
          collect memory rs (results ++ [r.targetId]) (size * 2)
        else
          (.badOutOfMemory, results, size)
      else
        collect memory rs results size

/-- A round of the outer loop, for the node id at the index. -/
def visit (ns : NodeStore) (memory : ℕ → Bool) (id : NodeId) (results : List NodeId) (size : ℕ) :
    StatusCode × List NodeId × ℕ :=
  match ns.get id with
  | none => (.good, results, size)
  | some node =>
      if isReferenceType node then collect memory node.references results size
      else (.good, results, size)

/-- The outer loop of `findSubTypes`. -/
def subTypesLoop (ns : NodeStore) (memory : ℕ → Bool) : ℕ → ℕ → List NodeId → ℕ →
    Option (StatusCode × List NodeId)
  | 0, _, _, _ => none
  | fuel + 1, index, results, size =>
      match results[index]? with
      | none => some (.good, results)
      | some id =>
          let r := visit ns memory id results size
          if r.1 ≠ .good then some (r.1, [])
          else if index + 1 < r.2.1.length then subTypesLoop ns memory fuel (index + 1) r.2.1 r.2.2
          else some (.good, r.2.1)

/-- `findSubTypes`; none is a loop that is not over yet. -/
def findSubTypes (ns : NodeStore) (memory : ℕ → Bool) (fuel : ℕ) (root : NodeId) :
    Option (StatusCode × List NodeId) :=
  match ns.get root with
  | none => some (.badNoMatch, [])
  | some node =>
      if !isReferenceType node then some (.badReferenceTypeIdInvalid, [])
      else if !memory 20 then some (.badOutOfMemory, [])
      else subTypesLoop ns memory fuel 0 [root] 20

/-! ## The hierarchy -/

/-- The reference says that its target is a subtype. -/
def IsHasSubtype (r : ReferenceNode) : Prop :=
  r.referenceTypeId = NodeId.numeric 0 hasSubtype ∧ r.isInverse = false

/-- The node of a reference type names the other one as its subtype. -/
def HasSubtype (ns : NodeStore) (x y : NodeId) : Prop :=
  ∃ node, ns.get x = some node ∧ isReferenceType node = true ∧
    ∃ r ∈ node.references, IsHasSubtype r ∧ r.targetId = y

/-- One reference type is below another one, or the same. -/
def Below (ns : NodeStore) (root id : NodeId) : Prop :=
  Relation.ReflTransGen (HasSubtype ns) root id

/-- The targets that the search takes for the subtypes of a reference type: neither the namespace nor
the kind of the reference type's id matters. -/
def subTypes (ns : NodeStore) (id : NodeId) : List NodeId :=
  match ns.get id with
  | none => []
  | some node =>
      if isReferenceType node then
        (node.references.filter isSubtypeReference).map ReferenceNode.targetId
      else
        []

/-- What the references that read as `HasSubtype` lead to. -/
def Found (ns : NodeStore) (root id : NodeId) : Prop :=
  Relation.ReflTransGen (fun x y => y ∈ subTypes ns x) root id

/-- No chain of such references goes on for ever. -/
def Founded (ns : NodeStore) (root : NodeId) : Prop :=
  Acc (fun y x => y ∈ subTypes ns x) root

/-- What a reference in the hierarchy that reads as `HasSubtype` leads to is in the hierarchy. -/
def Proper (ns : NodeStore) (root : NodeId) : Prop :=
  ∀ x y, Below ns root x → y ∈ subTypes ns x → Below ns root y

section Hierarchy

variable {ns : NodeStore} {root id : NodeId}

theorem HasSubtype.mem_subTypes {x y : NodeId} (h : HasSubtype ns x y) : y ∈ subTypes ns x := by
  rcases h with ⟨node, hget, hnode, r, hr, ⟨htype, hforward⟩, rfl⟩
  have hread : isSubtypeReference r = true := by
    rw [isSubtypeReference, htype, hforward]
    rfl
  simp only [subTypes, hget, hnode, if_true]
  exact List.mem_map_of_mem (List.mem_filter.2 ⟨hr, hread⟩)

/-- The hierarchy is found. -/
theorem Below.found (h : Below ns root id) : Found ns root id :=
  Relation.ReflTransGen.mono (fun _ _ => HasSubtype.mem_subTypes) _ _ h

/-- Nothing else is found, if nothing that only reads as `HasSubtype` leads out of the hierarchy. -/
theorem found_iff_below_iff : (∀ id, Found ns root id ↔ Below ns root id) ↔ Proper ns root := by
  constructor
  · intro h x y hx hy
    exact (h y).1 (hx.found.tail hy)
  · intro h id
    refine ⟨fun hfound => ?_, Below.found⟩
    induction hfound with
    | refl => exact Relation.ReflTransGen.refl
    | tail _ hy ih => exact h _ _ ih hy

end Hierarchy

/-! ## The loops -/

theorem collect_cases (memory : ℕ → Bool) (rs : List ReferenceNode) (results : List NodeId)
    (size : ℕ) :
    (collect memory rs results size).1 = .badOutOfMemory ∨ ∃ size',
      collect memory rs results size = (.good, results ++
        (rs.filter isSubtypeReference).map ReferenceNode.targetId, size') := by
  induction rs generalizing results size with
  | nil => exact Or.inr ⟨size, by simp [collect]⟩
  | cons r rs ih =>
      unfold collect
      by_cases hr : isSubtypeReference r = true
      · rw [if_pos hr, List.filter_cons_of_pos hr, List.map_cons,
          List.append_cons results r.targetId (List.map _ _)]
        by_cases hroom : results.length < size
        · rw [if_pos hroom]
          exact ih _ _
        · rw [if_neg hroom]
          by_cases hmemory : memory (size * 2) = true
          · rw [if_pos hmemory]
            exact ih _ _
          · rw [if_neg hmemory]
            exact Or.inl rfl
      · rw [if_neg hr, List.filter_cons_of_neg hr]
        exact ih _ _

theorem visit_cases (ns : NodeStore) (memory : ℕ → Bool) (id : NodeId) (results : List NodeId)
    (size : ℕ) :
    (visit ns memory id results size).1 = .badOutOfMemory ∨ ∃ size',
      visit ns memory id results size = (.good, results ++ subTypes ns id, size') := by
  unfold visit subTypes
  cases ns.get id with
  | none => exact Or.inr ⟨size, by simp⟩
  | some node =>
      by_cases hnode : isReferenceType node = true
      · simp only [hnode, if_true]
        exact collect_cases memory node.references results size
      · simp only [hnode, Bool.false_eq_true, if_false]
        exact Or.inr ⟨size, by simp⟩

/-- With memory for everything, no round fails. -/
theorem collect_good {memory : ℕ → Bool} (hmemory : ∀ n, memory n = true) (rs : List ReferenceNode)
    (results : List NodeId) (size : ℕ) : (collect memory rs results size).1 = .good := by
  induction rs generalizing results size with
  | nil => rfl
  | cons r rs ih =>
      unfold collect
      split
      · split
        · exact ih _ _
        · rw [if_pos (hmemory _)]
          exact ih _ _
      · exact ih _ _

theorem visit_good {memory : ℕ → Bool} (hmemory : ∀ n, memory n = true) (ns : NodeStore)
    (id : NodeId) (results : List NodeId) (size : ℕ) :
    (visit ns memory id results size).1 = .good := by
  unfold visit
  split
  · rfl
  · split
    · exact collect_good hmemory _ _ _
    · rfl

/-- **The outer loop explores the hierarchy**, unless memory is short. -/
theorem subTypesLoop_cases (ns : NodeStore) (memory : ℕ → Bool) (fuel : ℕ) {index : ℕ}
    {results : List NodeId} (hindex : index < results.length) (size : ℕ) :
    subTypesLoop ns memory fuel index results size = some (.badOutOfMemory, []) ∨
      subTypesLoop ns memory fuel index results size =
        (explore (subTypes ns) fuel (results.drop index)).map fun visited =>
          (.good, results.take index ++ visited) := by
  induction fuel generalizing index results size with
  | zero =>
      rw [List.drop_eq_getElem_cons hindex]
      exact Or.inr rfl
  | succ fuel ih =>
      rw [List.drop_eq_getElem_cons hindex, subTypesLoop, List.getElem?_eq_getElem hindex, explore]
      dsimp only
      rcases visit_cases ns memory results[index] results size with hbad | ⟨size', hgood⟩
      · rw [if_pos (by rw [hbad]; decide), hbad]
        exact Or.inl rfl
      · rw [hgood, if_neg (by simp)]
        dsimp only
        have hdrop : (results ++ subTypes ns results[index]).drop (index + 1) =
            results.drop (index + 1) ++ subTypes ns results[index] :=
          List.drop_append_of_le_length hindex
        have htake : (results ++ subTypes ns results[index]).take (index + 1) =
            results.take index ++ [results[index]] := by
          rw [List.take_append_of_le_length hindex, List.take_succ_eq_append_getElem hindex]
        by_cases hmore : index + 1 < (results ++ subTypes ns results[index]).length
        · rw [if_pos hmore]
          rcases ih hmore size' with hbad | hrest
          · exact Or.inl hbad
          · right
            rw [hrest, hdrop, htake, Option.map_map]
            congr 1
            funext visited
            simp only [Function.comp_apply, List.append_assoc, List.singleton_append]
        · -- The array ends here, so that the node names no subtypes.
          have hnone : results.drop (index + 1) ++ subTypes ns results[index] = [] := by
            rw [← hdrop]
            exact List.drop_eq_nil_of_le (Nat.le_of_not_lt hmore)
          have hall : results ++ subTypes ns results[index] = results.take index ++ [results[index]] := by
            rw [← htake, List.take_of_length_le (Nat.le_of_not_lt hmore)]
          rw [if_neg hmore, hnone, hall, explore_nil]
          exact Or.inr rfl

theorem subTypesLoop_granted {memory : ℕ → Bool} (hmemory : ∀ n, memory n = true) (ns : NodeStore)
    (fuel index : ℕ) (results : List NodeId) (size : ℕ) :
    subTypesLoop ns memory fuel index results size ≠ some (.badOutOfMemory, []) := by
  induction fuel generalizing index results size with
  | zero => simp [subTypesLoop]
  | succ fuel ih =>
      unfold subTypesLoop
      cases results[index]? with
      | none => simp [StatusCode.badOutOfMemory, StatusCode.good]
      | some id =>
          dsimp only
          rw [if_neg (by rw [visit_good hmemory]; simp)]
          split
          · exact ih _ _ _
          · simp [StatusCode.badOutOfMemory, StatusCode.good]

/-! ## What is found -/

section Found

variable {ns : NodeStore} {memory : ℕ → Bool} {root : NodeId}

theorem findSubTypes_cases (memory : ℕ → Bool)
    (hroot : ∃ node, ns.get root = some node ∧ isReferenceType node = true)
    (fuel : ℕ) :
    findSubTypes ns memory fuel root = some (.badOutOfMemory, []) ∨
      findSubTypes ns memory fuel root =
        (explore (subTypes ns) fuel [root]).map fun visited => (.good, visited) := by
  rcases hroot with ⟨node, hget, hnode⟩
  simp only [findSubTypes, hget, hnode]
  rw [if_neg (by simp)]
  by_cases hmemory : memory 20 = true
  · rw [if_neg (by simp [hmemory])]
    exact subTypesLoop_cases ns memory fuel (by simp) 20
  · rw [if_pos (by simpa using hmemory)]
    exact Or.inl rfl

theorem found_of_explore {fuel : ℕ} {visited : List NodeId}
    (h : explore (subTypes ns) fuel [root] = some visited) (id : NodeId) :
    id ∈ visited ↔ Found ns root id := by
  rw [mem_explore h]
  simp [Found]

theorem founded_iff :
    (∃ fuel visited, explore (subTypes ns) fuel [root] = some visited) ↔ Founded ns root := by
  rw [exists_explore_iff]
  simp [Founded]

/-- Whatever memory there was, all that can be found is found. -/
theorem mem_findSubTypes {fuel : ℕ} {found : List NodeId}
    (h : findSubTypes ns memory fuel root = some (.good, found)) (id : NodeId) :
    id ∈ found ↔ Found ns root id := by
  have hroot : ∃ node, ns.get root = some node ∧ isReferenceType node = true := by
    unfold findSubTypes at h
    split at h
    · simp [StatusCode.badNoMatch, StatusCode.good] at h
    · rename_i node hget
      by_cases hnode : isReferenceType node = true
      · exact ⟨node, hget, hnode⟩
      · rw [if_pos (by simpa using hnode)] at h
        simp [StatusCode.badReferenceTypeIdInvalid, StatusCode.good] at h
  rcases findSubTypes_cases memory hroot fuel with hbad | hgood
  · rw [hbad] at h
    simp [StatusCode.badOutOfMemory, StatusCode.good] at h
  · rw [hgood] at h
    rcases Option.map_eq_some_iff.1 h with ⟨visited, hvisited, heq⟩
    cases heq
    exact found_of_explore hvisited id

/-- What was found against the hierarchy. -/
theorem hierarchy_of_found {found : List NodeId} (h : ∀ id, id ∈ found ↔ Found ns root id) :
    (∀ id, Below ns root id → id ∈ found) ∧
      ((∀ id, id ∈ found ↔ Below ns root id) ↔ Proper ns root) := by
  refine ⟨fun id hid => (h id).2 hid.found, ?_⟩
  rw [← found_iff_below_iff]
  exact forall_congr' fun id => by rw [h id]

/-- **The reference types below a root.**  With memory for everything, the search returns exactly when
no chain of forward references that read as `HasSubtype` is endless, so not on a cycle, and what it
returns are the types that these lead to.  All types below the root are among them, and no others
exactly when no reference that only reads as `HasSubtype` leads out of the hierarchy. -/
theorem findSubTypes_exact
    (hroot : ∃ node, ns.get root = some node ∧ isReferenceType node = true)
    (hmemory : ∀ n, memory n = true) :
    ((∃ fuel r, findSubTypes ns memory fuel root = some r) ↔ Founded ns root) ∧
      ∀ fuel r, findSubTypes ns memory fuel root = some r →
        r.1 = .good ∧ (∀ id, id ∈ r.2 ↔ Found ns root id) ∧
          (∀ id, Below ns root id → id ∈ r.2) ∧
            ((∀ id, id ∈ r.2 ↔ Below ns root id) ↔ Proper ns root) := by
  have heq : ∀ fuel, findSubTypes ns memory fuel root =
      (explore (subTypes ns) fuel [root]).map fun visited => (.good, visited) := by
    intro fuel
    rcases findSubTypes_cases memory hroot fuel with hbad | hgood
    · rcases hroot with ⟨node, hget, hnode⟩
      simp only [findSubTypes, hget, hnode, hmemory] at hbad
      exact absurd hbad (subTypesLoop_granted hmemory ns fuel 0 [root] 20)
    · exact hgood
  constructor
  · rw [← founded_iff]
    constructor
    · rintro ⟨fuel, r, h⟩
      rw [heq] at h
      rcases Option.map_eq_some_iff.1 h with ⟨visited, hvisited, _⟩
      exact ⟨fuel, visited, hvisited⟩
    · rintro ⟨fuel, visited, h⟩
      exact ⟨fuel, (.good, visited), by rw [heq, h]; rfl⟩
  · intro fuel r h
    rw [heq] at h
    rcases Option.map_eq_some_iff.1 h with ⟨visited, hvisited, rfl⟩
    have hfound := found_of_explore hvisited
    exact ⟨rfl, hfound, hierarchy_of_found hfound⟩

end Found

/-! ## A hierarchy of two types -/

/-- A reference type and its subtypes. -/
def typeNode (id : UInt32) (subtypes : List UInt32) : Node where
  nodeId := NodeId.numeric 0 id
  browseName := ⟨0, []⟩
  displayName := ⟨[], []⟩
  references := subtypes.map fun subtype =>
    ⟨NodeId.numeric 0 hasSubtype, false, NodeId.numeric 0 subtype⟩
  body := .referenceType false

/-- `Organizes` below the hierarchical references. -/
def hierarchy : NodeStore :=
  (NodeStore.empty.put (typeNode 33 [35])).put (typeNode 35 [])

theorem findSubTypes_exact_hierarchy :
    ((∃ fuel r, findSubTypes hierarchy (fun _ => true) fuel (NodeId.numeric 0 33) = some r) ↔
        Founded hierarchy (NodeId.numeric 0 33)) ∧
      ∀ fuel r, findSubTypes hierarchy (fun _ => true) fuel (NodeId.numeric 0 33) = some r →
        r.1 = .good ∧ (∀ id, id ∈ r.2 ↔ Found hierarchy (NodeId.numeric 0 33) id) ∧
          (∀ id, Below hierarchy (NodeId.numeric 0 33) id → id ∈ r.2) ∧
            ((∀ id, id ∈ r.2 ↔ Below hierarchy (NodeId.numeric 0 33) id) ↔
              Proper hierarchy (NodeId.numeric 0 33)) :=
  findSubTypes_exact ⟨typeNode 33 [35], by decide, by decide⟩ fun _ => rfl

/-! ## Little memory -/

/-- The array is within its size, and that within what memory there is. -/
structure Within (most : ℕ) (results : List NodeId) (size : ℕ) : Prop where
  fits : results.length ≤ size
  pos : 0 < size
  le_most : size ≤ most

section Bounded

variable {ns : NodeStore} {memory : ℕ → Bool} {most : ℕ}

theorem collect_within (hmemory : ∀ n, most < n → memory n = false) (rs : List ReferenceNode)
    {results : List NodeId} {size : ℕ} (h : Within most results size) :
    Within most (collect memory rs results size).2.1 (collect memory rs results size).2.2 := by
  induction rs generalizing results size with
  | nil => exact h
  | cons r rs ih =>
      have hfits := h.fits
      have hpos := h.pos
      unfold collect
      split
      · split
        · rename_i hroom
          refine ih ⟨?_, h.pos, h.le_most⟩
          rw [List.length_append, List.length_singleton]
          omega
        · split
          · rename_i hgranted
            have hle : size * 2 ≤ most := by
              by_contra hlarge
              rw [hmemory (size * 2) (by omega)] at hgranted
              cases hgranted
            refine ih ⟨?_, by omega, hle⟩
            rw [List.length_append, List.length_singleton]
            omega
          · exact h
      · exact ih h

theorem visit_within (ns : NodeStore) (hmemory : ∀ n, most < n → memory n = false) (id : NodeId)
    {results : List NodeId} {size : ℕ} (h : Within most results size) :
    Within most (visit ns memory id results size).2.1 (visit ns memory id results size).2.2 := by
  unfold visit
  split
  · exact h
  · split
    · exact collect_within hmemory _ h
    · exact h

/-- The index runs to the end of an array that does not grow for ever. -/
theorem subTypesLoop_bounded (hmemory : ∀ n, most < n → memory n = false) (fuel : ℕ) {index : ℕ}
    {results : List NodeId} {size : ℕ} (h : Within most results size)
    (hindex : index < results.length) (hfuel : most ≤ index + fuel) :
    ∃ r, subTypesLoop ns memory fuel index results size = some r := by
  have hfits := h.fits
  have hle := h.le_most
  induction fuel generalizing index results size with
  | zero => omega
  | succ fuel ih =>
      rw [subTypesLoop, List.getElem?_eq_getElem hindex]
      dsimp only
      split
      · exact ⟨_, rfl⟩
      · split
        · rename_i hmore
          have hwithin := visit_within ns hmemory results[index] h
          exact ih hwithin hmore (by omega) hwithin.fits hwithin.le_most
        · exact ⟨_, rfl⟩

/-- **Where memory is short, the search returns always**: either that memory is short, or the types
that forward references which read as `HasSubtype` lead to, and then no chain of them is endless. -/
theorem findSubTypes_bounded {root : NodeId}
    (hroot : ∃ node, ns.get root = some node ∧ isReferenceType node = true)
    (hmemory : ∀ n, most < n → memory n = false) :
    ∃ fuel r, findSubTypes ns memory fuel root = some r ∧
      (r = (.badOutOfMemory, []) ∨
        r.1 = .good ∧ Founded ns root ∧ (∀ id, id ∈ r.2 ↔ Found ns root id) ∧
          (∀ id, Below ns root id → id ∈ r.2) ∧
            ((∀ id, id ∈ r.2 ↔ Below ns root id) ↔ Proper ns root)) := by
  have hreturns : ∃ r, findSubTypes ns memory most root = some r := by
    rcases hroot with ⟨node, hget, hnode⟩
    simp only [findSubTypes, hget, hnode]
    rw [if_neg (by simp)]
    by_cases hgranted : memory 20 = true
    · have hlarge : 20 ≤ most := by
        by_contra hsmall
        rw [hmemory 20 (by omega)] at hgranted
        cases hgranted
      rw [if_neg (by simp [hgranted])]
      exact subTypesLoop_bounded hmemory most ⟨by simp, by decide, hlarge⟩ (by simp) (by omega)
    · rw [if_pos (by simpa using hgranted)]
      exact ⟨_, rfl⟩
  rcases hreturns with ⟨r, hr⟩
  refine ⟨most, r, hr, ?_⟩
  rcases findSubTypes_cases memory hroot most with hbad | hgood
  · rw [hbad] at hr
    exact Or.inl (Option.some.inj hr).symm
  · rw [hgood] at hr
    rcases Option.map_eq_some_iff.1 hr with ⟨visited, hvisited, rfl⟩
    have hfound := found_of_explore hvisited
    exact Or.inr ⟨rfl, founded_iff.1 ⟨most, visited, hvisited⟩, hfound, hierarchy_of_found hfound⟩

end Bounded

/-- `Organizes` and the hierarchical references below each other. -/
def cyclicHierarchy : NodeStore :=
  (NodeStore.empty.put (typeNode 33 [35])).put (typeNode 35 [33])

theorem findSubTypes_bounded_cyclic :
    ∃ fuel r, findSubTypes cyclicHierarchy (fun n => decide (n ≤ 80)) fuel (NodeId.numeric 0 33) =
      some r ∧ (r = (.badOutOfMemory, []) ∨ r.1 = .good ∧
        Founded cyclicHierarchy (NodeId.numeric 0 33) ∧
          (∀ id, id ∈ r.2 ↔ Found cyclicHierarchy (NodeId.numeric 0 33) id) ∧
            (∀ id, Below cyclicHierarchy (NodeId.numeric 0 33) id → id ∈ r.2) ∧
              ((∀ id, id ∈ r.2 ↔ Below cyclicHierarchy (NodeId.numeric 0 33) id) ↔
                Proper cyclicHierarchy (NodeId.numeric 0 33))) :=
  findSubTypes_bounded ⟨typeNode 33 [35], by decide, by decide⟩ fun _ hn =>
    decide_eq_false (Nat.not_le.2 hn)

end View

end ForteOpcUa
