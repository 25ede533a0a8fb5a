import ForteOpcUa.Billboard.Independence
import ForteOpcUa.Blocks.Racing

/-!
# Apart — publishers of different data points

With one publisher to a data point it does not matter in which order the publishers move, whatever
address space they find:

- `Server.Reordered`   : the same address space up to the order of each node's references,
- `Confined`           : no node was touched but those that the publishers name,
- `reordered_of_apart` : two runs with the same requests end in the same address space.
-/

namespace ForteOpcUa

open Interaction
open Billboard (Board Slot)
open OpcUaPublish

/-! ## Equality up to the order of references -/

/-- The same node, up to the order of its references. -/
def Node.Reordered (n m : Node) : Prop :=
  ∃ rs, n.references.Perm rs ∧ m = { n with references := rs }

/-- The same address space, up to the order of the references of each node. -/
structure Server.Reordered (σ τ : Server) : Prop where
  namespaces : τ.namespacesSize = σ.namespacesSize
  nodes : ∀ id, Option.Rel Node.Reordered (σ.get id) (τ.get id)

theorem Node.Reordered.withReferences (n : Node) {rs rs' : List ReferenceNode}
    (h : rs.Perm rs') : (n.withReferences rs).Reordered (n.withReferences rs') :=
  ⟨_, h.append_left n.references, rfl⟩

theorem reordered_map (o : Option Node) {rs rs' : List ReferenceNode} (h : rs.Perm rs') :
    Option.Rel Node.Reordered (o.map fun n => n.withReferences rs)
      (o.map fun n => n.withReferences rs') := by
  cases o with
  | none => exact .none
  | some n => exact .some (.withReferences n h)

theorem reordered_refl (o : Option Node) : Option.Rel Node.Reordered o o := by
  have hsame : (fun n : Node => n.withReferences []) = id := by
    funext n
    exact n.withReferences_nil
  simpa [hsame] using reordered_map o (List.Perm.refl [])

/-- Boards that agree up to the order of topics and posts show the same address space. -/
theorem Shows.reordered {σ₀ σ σ' : Server} {b b' : Board Name DataPoint} (h : Shows σ₀ b σ)
    (h' : Shows σ₀ b' σ') (hslot : b.slot = b'.slot) (hposts : b.posts.Perm b'.posts)
    (htopics : b.topics.Perm b'.topics) : σ.Reordered σ' where
  namespaces := h'.namespaces.trans h.namespaces.symm
  nodes id := by
    by_cases hfolder : id = objectsFolder
    · rw [hfolder, h.folder, h'.folder]
      exact reordered_map _ (htopics.map _)
    -- Nodes of publishers follow the board, up to the order of additions; others are untouched.
    · by_cases hpoint : ∃ p : DataPoint, id = p.objectId ∨ id = p.variableId
      · rcases hpoint with ⟨p, rfl | rfl⟩
        · have hbase : baseObject σ₀ b p = baseObject σ₀ b' p := by
            simp only [baseObject, htopics.mem_iff]
          rw [h.object, h'.object, hbase]
          exact reordered_map _ ((hposts.filter _).map _)
        · rw [h.variable, h'.variable, hslot]
          exact reordered_refl _
      · have hne : ∀ p : DataPoint, id ≠ p.objectId ∧ id ≠ p.variableId := fun p =>
          ⟨fun heq => hpoint ⟨p, Or.inl heq⟩, fun heq => hpoint ⟨p, Or.inr heq⟩⟩
        rw [h.other id hfolder hne, h'.other id hfolder hne]
        exact reordered_refl _

/-! ## What the publishers leave alone -/

section Apart

variable {ι : Type} {blocks : ι → Block}

/-- No node is different but the variables of the publishers, their objects where they were
missing, and the reference lists of their objects and of the objects folder, which only grew. -/
structure Confined (blocks : ι → Block) (σ₀ σ : Server) : Prop where
  folder : ∃ rs, σ.get objectsFolder =
    (σ₀.get objectsFolder).map fun n => n.withReferences rs
  object : ∀ i p n, (blocks i).point = some p → σ₀.get p.objectId = some n →
    ∃ rs, σ.get p.objectId = some (n.withReferences rs)
  other : ∀ id, id ≠ objectsFolder →
    (∀ i p, (blocks i).point = some p → id ≠ p.objectId ∧ id ≠ p.variableId) →
    σ.get id = σ₀.get id

theorem Shows.confined {σ₀ σ : Server} {b : Board Name DataPoint} (h : Shows σ₀ b σ)
    (htopics : ∀ t ∈ b.topics, ∃ i p, (blocks i).point = some p ∧ p.fb_id = t)
    (hposts : ∀ p ∈ b.posts, ∃ i, (blocks i).point = some p)
    (hslot : ∀ p, b.slot p ≠ .original → ∃ i, (blocks i).point = some p) :
    Confined blocks σ₀ σ where
  folder := ⟨_, h.folder⟩
  object i p n _ hn := by
    refine ⟨postReferences b p.fb_id, ?_⟩
    rw [h.object, baseObject, hn]
    rfl
  other id hfolder hne := by
    -- A data point nobody publishes has nothing on the board, so its nodes are the old ones.
    by_cases hpoint : ∃ p : DataPoint, id = p.objectId ∨ id = p.variableId
    · rcases hpoint with ⟨p, rfl | rfl⟩
      · have htopic : p.fb_id ∉ b.topics := by
          intro hmem
          rcases htopics _ hmem with ⟨i, q, hq, hfb⟩
          exact (hne i q hq).1 (DataPoint.objectId_inj.2 hfb.symm)
        have hpost : postReferences b p.fb_id = [] := by
          simp only [postReferences, List.map_eq_nil_iff, List.filter_eq_nil_iff,
            decide_eq_true_eq]
          intro q hq hfb
          rcases hposts q hq with ⟨i, hi⟩
          exact (hne i q hi).1 (DataPoint.objectId_inj.2 hfb.symm)
        rw [h.object, hpost]
        simp [baseObject, htopic]
      · have horiginal : b.slot p = .original := by
          by_contra hchanged
          rcases hslot p hchanged with ⟨i, hi⟩
          exact (hne i p hi).2 rfl
        rw [h.variable, horiginal]
        rfl
    · exact h.other id hfolder fun p =>
        ⟨fun heq => hpoint ⟨p, Or.inl heq⟩, fun heq => hpoint ⟨p, Or.inr heq⟩⟩

/-! ## Runs with the same requests -/

variable [DecidableEq ι] {net : Network} {σ₀ : Server}
variable {as as' : List (Action ι Fault)} {c c' : Config Client ι Station Network}

/-- Every data point has one publisher. -/
def Apart (blocks : ι → Block) : Prop :=
  ∀ i j p, (blocks i).point = some p → (blocks j).point = some p → i = j

/-- Publishers of different data points and readers, in any two orders, from any address space:
if every publisher handled the same requests, the address spaces are the same, and no other node
has changed on any server. -/
theorem reordered_of_apart (hapart : Apart blocks) (hlocal : net localServer = some σ₀)
    (hfault : ∀ act ∈ as, act.faultFree) (hfault' : ∀ act ∈ as', act.faultFree)
    (hrun : (site blocks).run (System.init (fun _ => Station.init) net) as = some c)
    (hrun' : (site blocks).run (System.init (fun _ => Station.init) net) as' = some c')
    (hq : System.Quiescent c) (hq' : System.Quiescent c')
    (hround : ∀ i p, (blocks i).point = some p → (c.thread i).round = (c'.thread i).round) :
    (∃ σ σ', c.shared localServer = some σ ∧ c'.shared localServer = some σ' ∧
      σ.Reordered σ' ∧ Confined blocks σ₀ σ) ∧
    ∀ url, url ≠ localServer → c.shared url = net url ∧ c'.shared url = net url := by
  have hdistinct : Billboard.Distinct (cast blocks) := hapart
  rcases simulates_run hlocal hfault hrun with ⟨s, hsteps, hsim⟩
  rcases simulates_run hlocal hfault' hrun' with ⟨s', hsteps', hsim'⟩
  rcases hsim.shown with ⟨σ, hσ, hshows⟩
  rcases hsim'.shown with ⟨σ', hσ', hshows'⟩
  refine ⟨⟨σ, σ', hσ, hσ', ?_, ?_⟩, fun url hurl => ⟨hsim.elsewhere url hurl,
    hsim'.elsewhere url hurl⟩⟩
  -- The rounds of the device are those of the board.
  · have hsame : ∀ i p, (blocks i).point = some p → s.round i = s'.round i := by
      intro i p hp
      calc
        s.round i = (c.thread i).round := (hsim.round i p hp).symm
        _ = (c'.thread i).round := hround i p hp
        _ = s'.round i := hsim'.round i p hp
    have hboard := Billboard.same_board hdistinct hsteps hsteps' (hsim.quiescent hq)
      (hsim'.quiescent hq') hsame
    rcases hboard with ⟨hslot, hposts, htopics⟩
    exact hshows.reordered hshows' hslot hposts htopics
  · have hind := Billboard.independent_steps hdistinct hsteps
    refine hshows.confined ?_ hind.posts hind.slot
    intro t ht
    rcases hind.begun t ht with ⟨i, p, hp, htopic, -⟩
    exact ⟨i, p, hp, htopic⟩

end Apart

end ForteOpcUa
