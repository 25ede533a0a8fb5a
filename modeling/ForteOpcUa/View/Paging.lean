import ForteOpcUa.View.Browse

/-!
# Paging — a page is a part of all the references

- `intended`      : the references of a node that a description means, in one piece, its types with
  those below them,
- `matching`      : the same with the types that the search takes for those below,
- `browsePage_eq` : a page of the loop is what comes next of `matching`.
-/

namespace ForteOpcUa

namespace View

/-! ## All references -/

section Matching

open Classical in
/-- The description of a reference that matches, where the types with their subtypes are told. -/
noncomputable def wanted (subtype : NodeId → NodeId → Prop) (ns : NodeStore)
    (descr : BrowseDescription) (r : ReferenceNode) : Option ReferenceDescription :=
  if (r.isInverse = true → descr.browseDirection ≠ 0) ∧
      (r.isInverse = false → descr.browseDirection ≠ 1) ∧
        (isNull descr.referenceTypeId = true ∨
          if descr.includeSubtypes then subtype descr.referenceTypeId r.referenceTypeId
          else r.referenceTypeId = descr.referenceTypeId) then
    ((ns.get r.targetId).filter fun node =>
      descr.nodeClassMask = 0 ∨ nodeClass node.body &&& descr.nodeClassMask ≠ 0).map
        fun node => fillReferenceDescription node r descr.resultMask
  else
    none

/-- The references of the node that match, in their order. -/
noncomputable def matchingBy (subtype : NodeId → NodeId → Prop) (ns : NodeStore)
    (descr : BrowseDescription) : List ReferenceDescription :=
  match ns.get descr.nodeId with
  | none => []
  | some node => node.references.filterMap (wanted subtype ns descr)

/-- With the types below those of the description. -/
noncomputable def intended (ns : NodeStore) (descr : BrowseDescription) :
    List ReferenceDescription :=
  matchingBy (Below ns) ns descr

/-- With the types that the search finds. -/
noncomputable def matching (ns : NodeStore) (descr : BrowseDescription) :
    List ReferenceDescription :=
  matchingBy (Found ns) ns descr

variable {ns : NodeStore} {descr : BrowseDescription}

/-- The search finds the types that are meant, if no reference that only reads as `HasSubtype` leads
out of their hierarchy. -/
theorem matching_eq_intended
    (h : descr.includeSubtypes = true → Proper ns descr.referenceTypeId) :
    matching ns descr = intended ns descr := by
  have htypes : ∀ id, (if descr.includeSubtypes then Found ns descr.referenceTypeId id
        else id = descr.referenceTypeId) ↔
      if descr.includeSubtypes then Below ns descr.referenceTypeId id
      else id = descr.referenceTypeId := by
    intro id
    by_cases hsubtypes : descr.includeSubtypes = true
    · rw [if_pos hsubtypes, if_pos hsubtypes]
      exact found_iff_below_iff.2 (h hsubtypes) id
    · rw [if_neg hsubtypes, if_neg hsubtypes]
  have hwanted : wanted (Found ns) ns descr = wanted (Below ns) ns descr := by
    funext r
    unfold wanted
    congr 1
    rw [htypes r.referenceTypeId]
  unfold matching intended matchingBy
  rw [hwanted]

/-- The types that match are those that are found. -/
theorem relevantRefs_iff {memory : ℕ → Bool} {fuel : ℕ} {relevant : List NodeId}
    (h : relevantRefs ns memory fuel descr = some (.good, relevant)) (id : NodeId) :
    (isNull descr.referenceTypeId = true ∨ id ∈ relevant) ↔
      (isNull descr.referenceTypeId = true ∨
        if descr.includeSubtypes then Found ns descr.referenceTypeId id
        else id = descr.referenceTypeId) := by
  unfold relevantRefs at h
  by_cases hnull : isNull descr.referenceTypeId = true
  · simp [hnull]
  · rw [if_neg hnull] at h
    by_cases hsubtypes : descr.includeSubtypes = true
    · rw [if_pos hsubtypes] at h
      rw [mem_findSubTypes h, if_pos hsubtypes]
    · rw [if_neg hsubtypes] at h
      rw [if_neg hsubtypes]
      cases hget : ns.get descr.referenceTypeId with
      | none =>
          rw [hget] at h
          simp [StatusCode.badReferenceTypeIdInvalid, StatusCode.good] at h
      | some rootRef =>
          rw [hget] at h
          dsimp only at h
          split at h
          · cases h
            rw [List.mem_singleton]
          · simp [StatusCode.badReferenceTypeIdInvalid, StatusCode.good] at h

/-- The loop describes what matches. -/
theorem describe_eq {memory : ℕ → Bool} {fuel : ℕ} {relevant : List NodeId}
    (h : relevantRefs ns memory fuel descr = some (.good, relevant)) (r : ReferenceNode) :
    ((returnRelevantNode ns descr (isNull descr.referenceTypeId) r relevant).map
      fun current => fillReferenceDescription current r descr.resultMask) =
        wanted (Found ns) ns descr r := by
  have hrelevant := relevantRefs_iff h r.referenceTypeId
  unfold wanted returnRelevantNode
  by_cases hinverse : r.isInverse = true ∧ descr.browseDirection = 0
  · rw [if_pos hinverse, if_neg fun hw => hw.1 hinverse.1 hinverse.2]
    rfl
  · rw [if_neg hinverse]
    by_cases hforward : r.isInverse = false ∧ descr.browseDirection = 1
    · rw [if_pos hforward, if_neg fun hw => hw.2.1 hforward.1 hforward.2]
      rfl
    · rw [if_neg hforward]
      by_cases htype : isNull descr.referenceTypeId = false ∧ r.referenceTypeId ∉ relevant
      · rw [if_pos htype, if_neg]
        · rfl
        · intro hw
          rcases hrelevant.2 hw.2.2 with hnull | hmem
          · rw [htype.1] at hnull
            cases hnull
          · exact htype.2 hmem
      · have hmeant := hrelevant.1 (by
          by_cases hnull : isNull descr.referenceTypeId = true
          · exact Or.inl hnull
          · exact Or.inr (by_contra fun hmem => htype ⟨by simpa using hnull, hmem⟩))
        rw [if_neg htype, if_pos ⟨fun hr heq => hinverse ⟨hr, heq⟩,
          fun hr heq => hforward ⟨hr, heq⟩, hmeant⟩]
        cases ns.get r.targetId with
        | none => rfl
        | some node =>
            by_cases hclass : descr.nodeClassMask ≠ 0 ∧
                nodeClass node.body &&& descr.nodeClassMask = 0
            · simp [hclass]
            · have hkeep : descr.nodeClassMask = 0 ∨
                  nodeClass node.body &&& descr.nodeClassMask ≠ 0 := by
                by_contra hnot
                exact hclass (by simpa [not_or] using hnot)
              simp [hclass, hkeep]

end Matching

/-! ## One page -/

/-- The loop takes what comes behind those that were delivered before. -/
theorem browseLoop_eq (describe : ReferenceNode → Option ReferenceDescription) {maxrefs index : ℕ}
    (hmax : 0 < maxrefs) (refs : List ReferenceNode) {skipped : ℕ}
    {page : List ReferenceDescription} (hskipped : skipped ≤ index)
    (hpage : page ≠ [] → skipped = index) (hlen : page.length ≤ maxrefs) :
    (browseLoop describe maxrefs index refs skipped page).1 =
        page ++ ((refs.filterMap describe).drop (index - skipped)).take (maxrefs - page.length) ∧
      (browseLoop describe maxrefs index refs skipped page).2.filterMap describe =
        ((refs.filterMap describe).drop (index - skipped)).drop (maxrefs - page.length) := by
  induction refs generalizing skipped page with
  | nil => simp [browseLoop]
  | cons r rs ih =>
      unfold browseLoop
      by_cases hroom : page.length < maxrefs
      · rw [if_pos hroom]
        cases hr : describe r with
        | none =>
            rw [List.filterMap_cons_none hr]
            exact ih hskipped hpage hlen
        | some d =>
            rw [List.filterMap_cons_some hr]
            dsimp only
            by_cases hskip : skipped < index
            · have hsucc : index - skipped = (index - (skipped + 1)) + 1 := by omega
              rw [if_pos hskip, hsucc, List.drop_succ_cons]
              refine ih hskip (fun hne => ?_) hlen
              have heq := hpage hne
              omega
            · have hzero : index - skipped = 0 := by omega
              have hleft : maxrefs - page.length = (maxrefs - (page ++ [d]).length) + 1 := by
                rw [List.length_append, List.length_singleton]
                omega
              have hlen' : (page ++ [d]).length ≤ maxrefs := by
                rw [List.length_append, List.length_singleton]
                omega
              have hskipped' : page ++ [d] ≠ [] → skipped = index := fun _ => by omega
              have hnext := ih hskipped hskipped' hlen'
              rw [hzero] at hnext ⊢
              rw [if_neg hskip, hleft, hnext.1, hnext.2]
              simp
      · have hfull : maxrefs - page.length = 0 := by omega
        have hzero : index - skipped = 0 := by
          have hne : page ≠ [] := by
            rintro rfl
            exact hroom hmax
          rw [hpage hne, Nat.sub_self]
        rw [if_neg hroom, hfull, hzero]
        simp

/-- **A page**: the references that match behind those that were delivered, as many as fit. -/
theorem browsePage_eq {ns : NodeStore} {fuel : ℕ} {m : Surroundings} {descr : BrowseDescription}
    {maxrefs : UInt32} {index : ℕ} {page : List ReferenceDescription} {done : Bool}
    (h : browsePage ns fuel m descr maxrefs index = some (.references page done)) :
    (maxrefs ≠ 0 → page = ((matching ns descr).drop index).take maxrefs.toNat) ∧
      (maxrefs = 0 → page = (matching ns descr).drop index) ∧
        (done = true → page = (matching ns descr).drop index) := by
  unfold browsePage at h
  split at h
  · cases h
  · rcases Option.bind_eq_some_iff.1 h with ⟨⟨statusCode, relevant⟩, hrelevant, h⟩
    dsimp only at h
    split at h
    · cases h
    · rename_i hgood
      have hgood' : statusCode = .good := by simpa using hgood
      subst hgood'
      cases hget : ns.get descr.nodeId with
      | none =>
          rw [hget] at h
          cases h
      | some node =>
          rw [hget] at h
          dsimp only at h
          split at h
          · cases h
          · rename_i hrefs
            split at h
            · cases h
            · have hdescribe : (fun reference =>
                  (returnRelevantNode ns descr (isNull descr.referenceTypeId) reference relevant).map
                    fun current => fillReferenceDescription current reference descr.resultMask) =
                  wanted (Found ns) ns descr := funext (describe_eq hrelevant)
              have hall : matching ns descr =
                  node.references.filterMap (wanted (Found ns) ns descr) := by
                rw [matching, matchingBy, hget]
              have hle : ((matching ns descr).drop index).length ≤ node.references.length := by
                rw [hall, List.length_drop]
                have hfilter := List.length_filterMap_le (wanted (Found ns) ns descr) node.references
                omega
              have hpos : 0 < node.references.length := List.length_pos_of_ne_nil hrefs
              rw [hdescribe] at h
              cases h
              -- As many as there are references are all that match.
              have hlimit : ∀ {limit}, 0 < limit → (browseLoop (wanted (Found ns) ns descr) limit index
                    node.references 0 []).1 = ((matching ns descr).drop index).take limit ∧
                  ((browseLoop (wanted (Found ns) ns descr) limit index node.references 0 []).2.isEmpty = true →
                    ((matching ns descr).drop index).length ≤ limit) := by
                intro limit hlimit
                rcases browseLoop_eq (wanted (Found ns) ns descr) hlimit node.references (Nat.zero_le index)
                  (fun hne => absurd rfl hne) (Nat.zero_le limit) with ⟨hpage, hrest⟩
                rw [hall]
                refine ⟨by simpa using hpage, fun hempty => ?_⟩
                rw [List.isEmpty_iff.1 hempty] at hrest
                exact List.drop_eq_nil_iff.1 (by simpa using hrest.symm)
              by_cases hzero : maxrefs = 0
              · rw [if_pos hzero, (hlimit hpos).1, List.take_of_length_le hle]
                exact ⟨fun hne => absurd hzero hne, fun _ => rfl, fun _ => rfl⟩
              · have hmax : 0 < maxrefs.toNat := Nat.pos_of_ne_zero fun heq =>
                  hzero (UInt32.toNat_inj.1 heq)
                have hmin := hlimit (Nat.lt_min.2 ⟨hmax, hpos⟩)
                have hpage : ((matching ns descr).drop index).take
                    (min maxrefs.toNat node.references.length) =
                      ((matching ns descr).drop index).take maxrefs.toNat := by
                  rw [← List.take_take, List.take_of_length_le hle]
                rw [if_neg hzero]
                refine ⟨fun _ => hmin.1.trans hpage, fun heq => absurd heq hzero, fun hdone => ?_⟩
                rw [hmin.1, List.take_of_length_le (hmin.2 hdone)]

end View

end ForteOpcUa
