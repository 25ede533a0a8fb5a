import Mathlib.Data.List.Induction
import ForteOpcUa.Blocks.Publisher

/-!
# Growth — the reference lists of republished data points

A republished variable is deleted without its references and added again, and adding appends a
forward reference to the object without looking for an old one.  `Grown` is the state of the
server after any sequence of successful requests, with the exact reference list of each object:
one forward reference for every request.  So each variable has one reference exactly while no data
point is published twice.
-/

namespace ForteOpcUa

open Interaction
open Interaction.Prog
open OpcUaPublish

/-- A request that publishes a data point. -/
structure Publication where
  point : DataPoint
  inputs : Inputs
  publishes : inputs.Publishes point

/-- The server states after some publications. -/
def publishedNetwork (sameText : SameText) (w : World) (requests : List Publication) : Network :=
  (worldAfter sameText w (requests.map Publication.inputs)).2

/-! ## The nodes after a sequence of publications -/

/-- The object of a function block after its data points among `ps` were published in turn. -/
def grownObject (fb_id : Name) (ps : List DataPoint) : Node :=
  { Server.childNode (objectItem fb_id) with
    references := (Server.childNode (objectItem fb_id)).references ++
      (ps.filter fun p => p.fb_id = fb_id).map fun p => Server.childReference p.variableItem }

theorem grownObject_new {fb_id : Name} {ps : List DataPoint}
    (h : fb_id ∉ ps.map DataPoint.fb_id) :
    grownObject fb_id ps = Server.childNode (objectItem fb_id) := by
  have hnone : ps.filter (fun p => p.fb_id = fb_id) = [] := by
    simpa [List.filter_eq_nil_iff] using h
  simp only [grownObject, hnone, List.map_nil, List.append_nil]

theorem grownObject_append_self (p : DataPoint) (ps : List DataPoint) :
    grownObject p.fb_id (ps ++ [p]) =
      Server.withReference (grownObject p.fb_id ps) (Server.childReference p.variableItem) := by
  simp [grownObject, Server.withReference]

theorem grownObject_append_of_ne {fb_id : Name} {p : DataPoint} (h : p.fb_id ≠ fb_id)
    (ps : List DataPoint) : grownObject fb_id (ps ++ [p]) = grownObject fb_id ps := by
  simp [grownObject, h]

/-- The state of the server after publishing `ps`, for the nodes of the data points `concerned`. -/
structure Grown (concerned ps : List DataPoint) (σ : Server) : Prop where
  object : ∀ p ∈ concerned, σ.get p.objectId =
    if p.fb_id ∈ ps.map DataPoint.fb_id then some (grownObject p.fb_id ps) else none
  «variable» : ∀ p ∈ concerned, σ.get p.variableId =
    if p ∈ ps then some (Server.childNode p.variableItem) else none
  folder : ps ≠ [] → σ.get objectsFolder ≠ none

/-- None of the nodes concerned is there. -/
def Fresh (concerned : List DataPoint) (σ : Server) : Prop :=
  ∀ p ∈ concerned, σ.get p.objectId = none ∧ σ.get p.variableId = none

theorem Fresh.grown {concerned : List DataPoint} {σ : Server} (h : Fresh concerned σ) :
    Grown concerned [] σ where
  object p hp := by simpa using (h p hp).1
  «variable» p hp := by simpa using (h p hp).2
  folder hne := absurd rfl hne

namespace Grown

variable {concerned ps : List DataPoint} {p : DataPoint} {σ σ' : Server}

/-- The object after one more publication. -/
theorem get_object (h : Grown concerned ps σ) (hp : p ∈ concerned)
    (hpub : Published p.fb_id p.var_id σ σ') :
    σ'.get p.objectId = some (grownObject p.fb_id (ps ++ [p])) := by
  rcases hpub.get_object with ⟨n, hn, hget⟩
  have hold := h.object p hp
  have hgrown : n = grownObject p.fb_id ps := by
    -- The object holds what earlier publications of its block left, or was created just now.
    by_cases hmem : p.fb_id ∈ ps.map DataPoint.fb_id
    · rw [if_pos hmem] at hold
      rcases hn with hn | ⟨hn, -⟩
      · exact Option.some.inj (hn.symm.trans hold)
      · cases hn.symm.trans hold
    · rw [if_neg hmem] at hold
      rcases hn with hn | ⟨-, rfl⟩
      · cases hn.symm.trans hold
      · exact (grownObject_new hmem).symm
  calc
    σ'.get p.objectId
        = some (Server.withReference n (Server.childReference p.variableItem)) := hget
    _ = some (grownObject p.fb_id (ps ++ [p])) := by rw [grownObject_append_self, hgrown]

/-- A step lemma: one more publication. -/
theorem publish (h : Grown concerned ps σ) (hp : p ∈ concerned)
    (hpub : Published p.fb_id p.var_id σ σ') : Grown concerned (ps ++ [p]) σ' where
  object q hq := by
    -- Only the object of the same block gets the new reference.
    by_cases hfb : p.fb_id = q.fb_id
    · have hobj : q.objectId = p.objectId := DataPoint.objectId_inj.2 hfb.symm
      rw [hobj, h.get_object hp hpub, hfb]
      simp [← hfb]
    · have hne : q.objectId ≠ p.objectId := fun heq => hfb (DataPoint.objectId_inj.1 heq).symm
      rw [hpub.get_of_ne hne (by simp) (by simp), h.object q hq, grownObject_append_of_ne hfb]
      simp [Ne.symm hfb]
  «variable» q hq := by
    -- The variable of `p` is new again, whether or not it was published before.
    by_cases hqp : q = p
    · subst hqp
      rw [hpub.get_variable]
      simp
    · have hne : q.variableId ≠ p.variableId := fun heq => hqp (DataPoint.variableId_inj.1 heq)
      rw [hpub.get_of_ne (by simp) hne (by simp), h.variable q hq]
      simp [hqp]
  folder _ := by
    rcases hpub.get_objectsFolder with ⟨hpresent, heq⟩ | ⟨-, folder, -, heq⟩
    · rw [heq]
      apply h.folder
      rintro rfl
      exact hpresent (by simpa using h.object p hp)
    · simp [heq]

end Grown

/-! ## Counting references -/

/-- The references of a grown object: one back to the folder, one forward for each request. -/
theorem mem_grownObject_references {fb_id : Name} {ps : List DataPoint} {r : ReferenceNode} :
    r ∈ (grownObject fb_id ps).references ↔
      r = { referenceTypeId := organizes, isInverse := true, targetId := objectsFolder } ∨
      ∃ q ∈ ps, q.fb_id = fb_id ∧ Server.childReference q.variableItem = r := by
  simp [grownObject, Server.childNode, objectItem, and_assoc]

/-- A variable is referenced once for each of its requests. -/
theorem countP_grownObject (p : DataPoint) (ps : List DataPoint) :
    (grownObject p.fb_id ps).references.countP (ReferenceNode.isForwardTo p.variableId) =
      ps.count p := by
  -- The reference back to the folder is no forward one.
  have hback : (Server.childNode (objectItem p.fb_id)).references.countP
      (ReferenceNode.isForwardTo p.variableId) = 0 := by
    simp [Server.childNode, ReferenceNode.isForwardTo]
  -- Among the references of the object, those to the variable come from its own requests.
  have hforward : ∀ q ∈ ps, (ReferenceNode.isForwardTo p.variableId
      (Server.childReference q.variableItem) && decide (q.fb_id = p.fb_id)) = true ↔
        (q == p) = true := by
    intro q _
    have hid : q.variableItem.requestedNewNodeId = q.variableId := rfl
    simp only [ReferenceNode.isForwardTo, Server.childReference, hid, Bool.not_false,
      Bool.true_and, Bool.and_eq_true, decide_eq_true_eq, DataPoint.variableId_inj, beq_iff_eq]
    exact ⟨fun h => h.1, fun h => ⟨h, by rw [h]⟩⟩
  simp only [grownObject, List.countP_append, hback, List.countP_map, List.countP_filter,
    zero_add, List.count]
  exact List.countP_congr hforward

/-- No list is longer than it has to be: the object of each data point has one forward reference
to its variable and no reference to a missing node, and a browse of it returns one entry for each
of its variables and no other. -/
structure Compact (ps : List DataPoint) (σ : Server) : Prop where
  object : ∀ p ∈ ps, ∃ n, σ.get p.objectId = some n ∧
    n.references.countP (ReferenceNode.isForwardTo p.variableId) = 1 ∧
    ∀ r ∈ n.references, σ.get r.targetId ≠ none
  browsed : ∀ p ∈ ps, ∀ id, (σ.browseSingle p.objectId).references.countP
    (fun d => d.nodeId = id) = if ∃ q ∈ ps, q.fb_id = p.fb_id ∧ q.variableId = id then 1 else 0

namespace Grown

variable {concerned ps : List DataPoint} {p : DataPoint} {σ : Server}

theorem get_object_mem (h : Grown concerned ps σ) (hps : ∀ p ∈ ps, p ∈ concerned) (hp : p ∈ ps) :
    σ.get p.objectId = some (grownObject p.fb_id ps) := by
  rw [h.object p (hps p hp), if_pos (List.mem_map_of_mem hp)]

theorem get_variable_mem (h : Grown concerned ps σ) (hps : ∀ p ∈ ps, p ∈ concerned) (hp : p ∈ ps) :
    σ.get p.variableId ≠ none := by
  rw [h.variable p (hps p hp), if_pos hp]
  simp

/-- No reference of a grown object dangles. -/
theorem get_target (h : Grown concerned ps σ) (hps : ∀ p ∈ ps, p ∈ concerned) (hp : p ∈ ps)
    {r : ReferenceNode} (hr : r ∈ (grownObject p.fb_id ps).references) :
    σ.get r.targetId ≠ none := by
  rcases mem_grownObject_references.1 hr with rfl | ⟨q, hq, -, rfl⟩
  · exact h.folder (List.ne_nil_of_mem hp)
  · exact h.get_variable_mem hps hq

theorem browsed (h : Grown concerned ps σ) (hps : ∀ p ∈ ps, p ∈ concerned) (hnodup : ps.Nodup)
    (hp : p ∈ ps) (id : NodeId) :
    (σ.browseSingle p.objectId).references.countP (fun d => d.nodeId = id) =
      if ∃ q ∈ ps, q.fb_id = p.fb_id ∧ q.variableId = id then 1 else 0 := by
  have hobj := h.get_object_mem hps hp
  split
  · rename_i hpub
    rcases hpub with ⟨q, hq, hfb, rfl⟩
    rw [Server.countP_browseSingle hobj (h.get_variable_mem hps hq), ← hfb, countP_grownObject]
    exact List.nodup_iff_count_eq_one.1 hnodup q hq
  · rename_i hnone
    refine List.countP_eq_zero.2 ?_
    intro d hd hid
    have htarget : ∃ d ∈ (σ.browseSingle p.objectId).references, d.nodeId = id :=
      ⟨d, hd, by simpa using hid⟩
    rcases Server.mem_browseSingle.1 htarget with ⟨n, hn, ⟨r, hr, hforward, hrid⟩, -⟩
    cases hobj.symm.trans hn
    rcases mem_grownObject_references.1 hr with rfl | ⟨q, hq, hfb, rfl⟩
    · cases hforward
    · exact hnone ⟨q, hq, hfb, hrid⟩

/-- The lists are as short as they should be exactly when no data point came twice. -/
theorem compact_iff (h : Grown concerned ps σ) (hps : ∀ p ∈ ps, p ∈ concerned) :
    Compact ps σ ↔ ps.Nodup := by
  constructor
  · intro hcompact
    refine List.nodup_iff_count_eq_one.2 fun p hp => ?_
    rcases hcompact.object p hp with ⟨n, hn, hcount, -⟩
    cases (h.get_object_mem hps hp).symm.trans hn
    rwa [countP_grownObject] at hcount
  · intro hnodup
    refine ⟨fun p hp => ⟨_, h.get_object_mem hps hp, ?_, fun r hr => h.get_target hps hp hr⟩,
      fun p hp id => h.browsed hps hnodup hp id⟩
    rw [countP_grownObject]
    exact List.nodup_iff_count_eq_one.1 hnodup p hp

end Grown

/-! ## Runs -/

theorem publishedNetwork_append (sameText : SameText) (w : World) (pre : List Publication)
    (r : Publication) :
    publishedNetwork sameText w (pre ++ [r]) =
      (exec handler (executeEvent sameText eventREQ r.inputs)
        (worldAfter sameText w (pre.map Publication.inputs))).state.2 := by
  simp [publishedNetwork, worldAfter_append]

section Run

variable {sameText : SameText} {w : World} {σ₀ : Server} {requests : List Publication}

/-- The run lemma: every successful sequence grows the address space by its data points. -/
theorem grown_run (hserver : w.2 localServer = some σ₀)
    (hfresh : Fresh (requests.map Publication.point) σ₀)
    (hok : AllSucceed sameText w (requests.map Publication.inputs)) (pre : List Publication) :
    pre <+: requests → ∃ σ, publishedNetwork sameText w pre localServer = some σ ∧
      Grown (requests.map Publication.point) (pre.map Publication.point) σ := by
  -- Induction on how much of the sequence is done, the last request being the new one.
  induction pre using List.reverseRecOn with
  | nil =>
      intro _
      exact ⟨σ₀, hserver, hfresh.grown⟩
  | append_singleton pre r ih =>
      rintro ⟨post, hsplit⟩
      rcases ih ⟨r :: post, by simpa using hsplit⟩ with ⟨σ, hnet, hgrown⟩
      have hsucc := hok (pre.map Publication.inputs) r.inputs (post.map Publication.inputs)
        (by simp [← hsplit])
      rw [r.publishes.executeEvent_eq] at hsucc
      rcases exec_published hsucc with ⟨τ, σ', hτ, hpub, hafter⟩
      cases hnet.symm.trans hτ
      have hmem : r.point ∈ requests.map Publication.point :=
        List.mem_map_of_mem (by simp [← hsplit])
      refine ⟨σ', ?_, ?_⟩
      · calc
          publishedNetwork sameText w (pre ++ [r]) localServer
              = (publishedNetwork sameText w pre).set localServer σ' localServer := by
                rw [publishedNetwork_append, r.publishes.executeEvent_eq, hafter]
                rfl
          _ = some σ' := Network.set_self ..
      · rw [List.map_append]
        exact hgrown.publish hmem hpub

/-- After the requests the address space is compact, and if all requests were for one data point
it is the one that the last request alone would have left. -/
structure NoGrowth (sameText : SameText) (w : World) (requests : List Publication) : Prop where
  compact : ∃ σ, publishedNetwork sameText w requests localServer = some σ ∧
    Compact (requests.map Publication.point) σ
  asOne : ∀ pre r, requests = pre ++ [r] → (∀ r' ∈ pre, r'.point = r.point) →
    publishedNetwork sameText w requests localServer =
      publishedNetwork sameText w [r] localServer

/-- Any sequence of publications, all calls succeeding, on a server without their nodes: the
address space does not grow exactly when no data point is published twice. -/
theorem noGrowth_iff (sameText : SameText) (w : World) (σ₀ : Server) (requests : List Publication)
    (hserver : w.2 localServer = some σ₀) (hfresh : Fresh (requests.map Publication.point) σ₀)
    (hok : AllSucceed sameText w (requests.map Publication.inputs)) :
    (∀ pre, pre <+: requests → NoGrowth sameText w pre) ↔
      (requests.map Publication.point).Nodup := by
  have hcompact : ∀ pre, pre <+: requests → ∃ σ,
      publishedNetwork sameText w pre localServer = some σ ∧
        (Compact (pre.map Publication.point) σ ↔ (pre.map Publication.point).Nodup) := by
    intro pre hpre
    rcases grown_run hserver hfresh hok pre hpre with ⟨σ, hσ, hgrown⟩
    exact ⟨σ, hσ, hgrown.compact_iff fun p hp => (hpre.map Publication.point).subset hp⟩
  constructor
  · intro h
    rcases hcompact requests List.prefix_rfl with ⟨σ, hσ, hiff⟩
    rcases (h requests List.prefix_rfl).compact with ⟨σ', hσ', hall⟩
    cases hσ.symm.trans hσ'
    exact hiff.1 hall
  · intro hnodup pre hpre
    have hpreNodup : (pre.map Publication.point).Nodup :=
      hnodup.sublist (hpre.map Publication.point).sublist
    rcases hcompact pre hpre with ⟨σ, hσ, hiff⟩
    refine ⟨⟨σ, hσ, hiff.2 hpreNodup⟩, ?_⟩
    rintro pre' r rfl hsame
    -- Without repetition a sequence for one data point has one request.
    cases pre' with
    | nil => rfl
    | cons r' rest =>
        have hpoint : r'.point = r.point := hsame r' (by simp)
        simp [hpoint] at hpreNodup

end Run

/-! ## A flip-flop published twice -/

/-- A request that publishes it. -/
def flipFlopPublication : Publication where
  point := flipFlopPoint
  inputs := flipFlopInputs (.sint 0)
  publishes := ⟨flipFlop .sint, rfl, rfl, rfl⟩

theorem fresh_new (n : ℕ) :
    Fresh ((List.replicate n flipFlopPublication).map Publication.point) Server.new := by
  intro p hp
  have hpoint : p = flipFlopPoint := by
    rw [List.map_replicate] at hp
    exact List.eq_of_mem_replicate hp
  subst hpoint
  decide

/-- One request does not grow the address space. -/
theorem noGrowth_once :
    (∀ pre, pre <+: [flipFlopPublication] → NoGrowth exactText oneServer pre) ↔
      ([flipFlopPublication].map Publication.point).Nodup := by
  refine noGrowth_iff exactText oneServer Server.new [flipFlopPublication] rfl (fresh_new 1) ?_
  intro pre r post hsplit
  match pre, hsplit with
  | [], hsplit =>
      cases hsplit
      decide
  | _ :: [], hsplit => cases hsplit
  | _ :: _ :: _, hsplit => cases hsplit

theorem twice_allSucceed : AllSucceed exactText oneServer
    ([flipFlopPublication, flipFlopPublication].map Publication.inputs) := by
  intro pre r post hsplit
  match pre, hsplit with
  | [], hsplit =>
      cases hsplit
      decide
  | [_], hsplit =>
      cases hsplit
      decide
  | _ :: _ :: [], hsplit => cases hsplit
  | _ :: _ :: _ :: _, hsplit => cases hsplit

/-- All calls of two requests for one data point succeed, and the object has two references to
its variable. -/
theorem growth_twice :
    oneServer.2 localServer = some Server.new ∧
    Fresh ([flipFlopPublication, flipFlopPublication].map Publication.point) Server.new ∧
    AllSucceed exactText oneServer
      ([flipFlopPublication, flipFlopPublication].map Publication.inputs) ∧
    ¬ NoGrowth exactText oneServer [flipFlopPublication, flipFlopPublication] := by
  refine ⟨rfl, fresh_new 2, twice_allSucceed, ?_⟩
  intro h
  rcases h.compact with ⟨σ, hσ, hcompact⟩
  rcases grown_run rfl (fresh_new 2) twice_allSucceed [flipFlopPublication, flipFlopPublication]
    List.prefix_rfl with ⟨σ', hσ', hgrown⟩
  cases hσ.symm.trans hσ'
  -- Compact would mean that the two requests were for different data points.
  have hnodup := (hgrown.compact_iff fun p hp => hp).1 hcompact
  simp at hnodup

end ForteOpcUa
