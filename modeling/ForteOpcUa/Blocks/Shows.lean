import ForteOpcUa.Billboard.Publishers
import ForteOpcUa.Blocks.Publisher

/-!
# Shows — the address space as a board

Topics are the objects of function blocks, listed in the objects folder; items are the variables
of data points, listed in their objects.  `setting σ₀` reads a server as a board as it was found,
and `Shows σ₀ b σ` says that server `σ` is `σ₀` with everything on board `b` done to it, reference
lists included.  Each service a publisher calls is the operation of the same name on the board.
-/

namespace ForteOpcUa

open Billboard (Board Setting Slot Verdict)
open OpcUaPublish

/-! ## Servers as boards -/

/-- The node with some references more. -/
def Node.withReferences (n : Node) (rs : List ReferenceNode) : Node :=
  { n with references := n.references ++ rs }

@[simp]
theorem Node.withReferences_nil (n : Node) : n.withReferences [] = n := by
  simp [withReferences]

theorem Node.withReference_withReferences (n : Node) (rs : List ReferenceNode)
    (r : ReferenceNode) :
    Server.withReference (n.withReferences rs) r = n.withReferences (rs ++ [r]) := by
  simp [Server.withReference, withReferences]

theorem Node.lists_withReferences {n : Node} {rs : List ReferenceNode} {target : NodeId} :
    (n.withReferences rs).Lists target ↔
      n.Lists target ∨ ∃ r ∈ rs, r.isInverse = false ∧ r.targetId = target := by
  simp [Lists, withReferences, or_and_right, exists_or]

/-- A server as the board the publishers find. -/
def setting (σ₀ : Server) : Setting Name DataPoint where
  topic := DataPoint.fb_id
  rooted := σ₀.get objectsFolder ≠ none
  growable := 1 < σ₀.namespacesSize ∧ σ₀.IsReferenceType organizes
  topicThere fb_id := σ₀.get (objectId fb_id) ≠ none
  topicListed fb_id := ∃ n, σ₀.get objectsFolder = some n ∧ n.Lists (objectId fb_id)
  itemThere p := σ₀.get p.variableId ≠ none
  itemListed p := ∃ n, σ₀.get p.objectId = some n ∧ n.Lists p.variableId
  listedUnder p := by
    rintro ⟨n, hn, -⟩
    have hobj : σ₀.get (objectId p.fb_id) = some n := hn
    simp [hobj]

/-- The forward references to the objects added. -/
def topicReferences (b : Board Name DataPoint) : List ReferenceNode :=
  b.topics.map fun fb_id => Server.childReference (objectItem fb_id)

/-- The forward references to the variables added below an object. -/
def postReferences (b : Board Name DataPoint) (fb_id : Name) : List ReferenceNode :=
  (b.posts.filter fun p => p.fb_id = fb_id).map fun p => Server.childReference p.variableItem

/-- The object of a data point, without the references added to it. -/
def baseObject (σ₀ : Server) (b : Board Name DataPoint) (p : DataPoint) : Option Node :=
  (σ₀.get p.objectId).or
    (if p.fb_id ∈ b.topics then some (Server.childNode p.objectItem) else none)

/-- The variable of a data point, by what became of it. -/
def shownVariable (σ₀ : Server) (p : DataPoint) : Slot → Option Node
  | .original => σ₀.get p.variableId
  | .removed => none
  | .posted => some (Server.childNode p.variableItem)

/-- Server `σ` is `σ₀` after everything on the board was done to it. -/
structure Shows (σ₀ : Server) (b : Board Name DataPoint) (σ : Server) : Prop where
  namespaces : σ.namespacesSize = σ₀.namespacesSize
  folder : σ.get objectsFolder =
    (σ₀.get objectsFolder).map fun n => n.withReferences (topicReferences b)
  object : ∀ p : DataPoint, σ.get p.objectId =
    (baseObject σ₀ b p).map fun n => n.withReferences (postReferences b p.fb_id)
  «variable» : ∀ p : DataPoint, σ.get p.variableId = shownVariable σ₀ p (b.slot p)
  other : ∀ id, id ≠ objectsFolder → (∀ p : DataPoint, id ≠ p.objectId ∧ id ≠ p.variableId) →
    σ.get id = σ₀.get id

theorem shows_init (σ₀ : Server) : Shows σ₀ Board.init σ₀ where
  namespaces := rfl
  folder := by simp [topicReferences, Board.init]
  object p := by simp [baseObject, postReferences, Board.init]
  «variable» p := rfl
  other id _ _ := rfl

/-! ## What the publishers see -/

/-- What the status of an AddNodes request says. -/
def verdictOf (status : StatusCode) : Verdict :=
  if status = StatusCode.good then .accepted
  else if status = StatusCode.badNodeIdExists then .existing
  else .misplaced

theorem verdictOf_eq_accepted {status : StatusCode} :
    verdictOf status = .accepted ↔ status = StatusCode.good := by
  unfold verdictOf
  split
  · simp_all
  · split <;> simp_all

theorem verdictOf_eq_existing {status : StatusCode} :
    verdictOf status = .existing ↔ status = StatusCode.badNodeIdExists := by
  unfold verdictOf
  split
  · rename_i h
    simp [h, eq_comm]
  · split <;> simp_all

namespace Shows

variable {σ₀ σ : Server} {b : Board Name DataPoint}

theorem hasTopic_iff (h : Shows σ₀ b σ) (p : DataPoint) :
    b.HasTopic (setting σ₀) p.fb_id ↔ σ.get p.objectId ≠ none := by
  have hthere : (setting σ₀).topicThere p.fb_id ↔ σ₀.get p.objectId ≠ none := Iff.rfl
  rw [h.object p, Board.HasTopic, hthere]
  cases hget : σ₀.get p.objectId with
  | some n => simp [baseObject, hget]
  | none => simp [baseObject, hget]

theorem hasItem_iff (h : Shows σ₀ b σ) (p : DataPoint) :
    b.HasItem (setting σ₀) p ↔ σ.get p.variableId ≠ none := by
  rw [h.variable p, Board.HasItem]
  cases b.slot p with
  | original => exact Iff.rfl
  | removed => simp [shownVariable]
  | posted => simp [shownVariable]

/-- An exact search over one browsed node. -/
theorem search_exact {σ : Server} {id : NodeId} {text : ByteString} :
    search exactText { serviceResult := StatusCode.good, results := [σ.browseSingle id] } text =
        true ↔
      ∃ n, σ.get id = some n ∧ n.Lists (NodeId.string 1 text) ∧
        σ.get (NodeId.string 1 text) ≠ none := by
  rw [← Server.mem_browseSingle]
  simp [search, exactText]

theorem mem_topicReferences {fb_id : Name} :
    (∃ r ∈ topicReferences b, r.isInverse = false ∧ r.targetId = objectId fb_id) ↔
      fb_id ∈ b.topics := by
  have hid : ∀ fb : Name, (objectItem fb).requestedNewNodeId = objectId fb := fun _ => rfl
  simp [topicReferences, Server.childReference, hid, objectId_inj]

theorem mem_postReferences {p : DataPoint} :
    (∃ r ∈ postReferences b p.fb_id, r.isInverse = false ∧ r.targetId = p.variableId) ↔
      p ∈ b.posts := by
  have hid : ∀ q : DataPoint, q.variableItem.requestedNewNodeId = q.variableId := fun _ => rfl
  simp only [postReferences, List.mem_map, List.mem_filter, decide_eq_true_eq]
  constructor
  · rintro ⟨_, ⟨q, ⟨hq, -⟩, rfl⟩, -, htarget⟩
    rwa [← DataPoint.variableId_inj.1 htarget]
  · intro hp
    exact ⟨_, ⟨p, ⟨hp, rfl⟩, rfl⟩, rfl, rfl⟩

/-- The search in the objects folder. -/
theorem findsTopic_iff (h : Shows σ₀ b σ) (hwf : b.WellFormed (setting σ₀)) (p : DataPoint) :
    b.FindsTopic (setting σ₀) p.fb_id ↔
      search exactText
        { serviceResult := StatusCode.good, results := [σ.browseSingle objectsFolder] }
        p.fb_id.text = true := by
  have hid : NodeId.string 1 p.fb_id.text = p.objectId := rfl
  rw [search_exact, hid, ← h.hasTopic_iff, h.folder, Board.FindsTopic]
  -- Without the folder nothing is listed, and no topic can have been added.
  cases hfolder : σ₀.get objectsFolder with
  | none =>
      have hnone : p.fb_id ∉ b.topics := fun hmem => (hwf.added _ hmem).2.1 hfolder
      simp [setting, hfolder, hnone]
  | some n =>
      have hlisted : (setting σ₀).topicListed p.fb_id ↔ n.Lists p.objectId := by
        simp [setting, hfolder, DataPoint.objectId]
      have hadded : (∃ r ∈ topicReferences b, r.isInverse = false ∧
          r.targetId = objectId p.fb_id) ↔ p.fb_id ∈ b.topics := mem_topicReferences
      simp only [Option.map_some, Option.some.injEq, exists_eq_left', Node.lists_withReferences,
        hlisted]
      rw [show p.objectId = objectId p.fb_id from rfl, hadded]
      exact and_comm

/-- The search below an object. -/
theorem findsItem_iff (h : Shows σ₀ b σ) (hwf : b.WellFormed (setting σ₀)) (p : DataPoint) :
    b.FindsItem (setting σ₀) p ↔
      search exactText
        { serviceResult := StatusCode.good, results := [σ.browseSingle p.objectId] }
        (varBrowseId p.fb_id p.var_id) = true := by
  have hid : NodeId.string 1 (varBrowseId p.fb_id p.var_id) = p.variableId := rfl
  rw [search_exact, hid, ← h.hasItem_iff, h.object, Board.FindsItem]
  -- The object is an old one with what was listed there, or a new one that listed nothing.
  cases hobject : σ₀.get p.objectId with
  | some n =>
      have hlisted : (setting σ₀).itemListed p ↔ n.Lists p.variableId := by
        simp [setting, hobject]
      simp only [baseObject, hobject, Option.some_or, Option.map_some, Option.some.injEq,
        exists_eq_left', Node.lists_withReferences, mem_postReferences, hlisted]
      exact and_comm
  | none =>
      have hlisted : ¬ (setting σ₀).itemListed p := by simp [setting, hobject]
      -- A new object is on the board as a topic; otherwise there is none, and no post below it.
      by_cases hmem : p.fb_id ∈ b.topics
      · have hnew : ¬ (Server.childNode p.objectItem).Lists p.variableId := by
          simp [Node.Lists, Server.childNode]
        simp only [baseObject, hobject, hmem, if_true, Option.none_or, Option.map_some,
          Option.some.injEq, exists_eq_left', Node.lists_withReferences, mem_postReferences,
          hlisted, hnew]
        exact and_comm
      · have hnone : p ∉ b.posts := fun hpost =>
          (hwf.posted p hpost).elim (fun hthere => hthere hobject) hmem
        simp [baseObject, hobject, hmem, hnone, hlisted]

/-! ## What the publishers do -/

theorem isReferenceType_iff (h : Shows σ₀ b σ) :
    σ.IsReferenceType organizes ↔ σ₀.IsReferenceType organizes := by
  have hother : σ.get organizes = σ₀.get organizes := by
    refine h.other organizes (by decide) fun p => ?_
    simp [organizes, DataPoint.objectId, DataPoint.variableId, objectId, variableId]
  rw [Server.IsReferenceType, Server.IsReferenceType, hother]

theorem addable_objectItem_iff (h : Shows σ₀ b σ) (p : DataPoint) :
    σ.Addable p.objectItem ↔ (setting σ₀).growable ∧ (setting σ₀).rooted := by
  have hfolder : σ.get objectsFolder ≠ none ↔ σ₀.get objectsFolder ≠ none := by
    rw [h.folder]
    simp
  constructor
  · intro hadd
    have hns : 1 < σ.namespacesSize := hadd.namespaceKnown
    exact ⟨⟨h.namespaces ▸ hns, h.isReferenceType_iff.1 hadd.referenceType⟩,
      hfolder.1 hadd.parent⟩
  · rintro ⟨⟨hns, href⟩, hroot⟩
    refine ⟨(by decide : (1 : UInt16) ≠ 0), ?_, hfolder.2 hroot, h.isReferenceType_iff.2 href⟩
    rw [h.namespaces]
    exact hns

theorem addable_variableItem_iff (h : Shows σ₀ b σ) (p : DataPoint) :
    σ.Addable p.variableItem ↔
      (setting σ₀).growable ∧ b.HasTopic (setting σ₀) p.fb_id := by
  rw [h.hasTopic_iff]
  constructor
  · intro hadd
    have hns : 1 < σ.namespacesSize := hadd.namespaceKnown
    exact ⟨⟨h.namespaces ▸ hns, h.isReferenceType_iff.1 hadd.referenceType⟩, hadd.parent⟩
  · rintro ⟨⟨hns, href⟩, hparent⟩
    refine ⟨(by decide : (1 : UInt16) ≠ 0), ?_, hparent, h.isReferenceType_iff.2 href⟩
    rw [h.namespaces]
    exact hns

/-- The board after an object was added. -/
theorem adopt_objectItem (h : Shows σ₀ b σ) (hwf : b.WellFormed (setting σ₀)) {p : DataPoint}
    {folder : Node} (hfolder : σ.get objectsFolder = some folder)
    (habsent : σ.get p.objectId = none) :
    Shows σ₀ { b with topics := b.topics ++ [p.fb_id] } (σ.adopt p.objectItem folder) := by
  have hnot : ¬ b.HasTopic (setting σ₀) p.fb_id := fun ht => (h.hasTopic_iff p).1 ht habsent
  refine ⟨h.namespaces, ?_, ?_, ?_, ?_⟩
  · have hold := h.folder
    rw [hfolder] at hold
    rcases Option.map_eq_some_iff.1 hold.symm with ⟨n, hn, rfl⟩
    rw [DataPoint.get_adopt_objectItem hfolder, if_pos rfl, hn, Option.map_some,
      Node.withReference_withReferences]
    simp [topicReferences, DataPoint.objectItem]
  · intro q
    rw [DataPoint.get_adopt_objectItem hfolder, if_neg q.objectId_ne_objectsFolder]
    -- All data points of one block share the object that was added.
    by_cases hfb : q.fb_id = p.fb_id
    · have hbase : σ₀.get q.objectId = none := by
        rw [DataPoint.objectId_inj.2 hfb]
        exact not_not.1 fun hthere => hnot (Or.inl hthere)
      -- No post can have been below an object that was missing.
      have hposts : postReferences b q.fb_id = [] := by
        simp only [postReferences, List.map_eq_nil_iff, List.filter_eq_nil_iff,
          decide_eq_true_eq]
        intro x hx hxq
        have hx' : x.fb_id = p.fb_id := hxq.trans hfb
        exact hnot (hx' ▸ hwf.posted x hx)
      have hposts' : postReferences { b with topics := b.topics ++ [p.fb_id] } q.fb_id = [] :=
        hposts
      have hitem : p.objectItem = q.objectItem := by
        rw [DataPoint.objectItem, DataPoint.objectItem, hfb]
      rw [if_pos (DataPoint.objectId_inj.2 hfb), hposts', hitem]
      simp [baseObject, hbase, hfb]
    · rw [if_neg fun heq => hfb (DataPoint.objectId_inj.1 heq), h.object q]
      simp [baseObject, postReferences, hfb]
  · intro q
    rw [DataPoint.get_adopt_objectItem hfolder, if_neg q.variableId_ne_objectsFolder,
      if_neg (q.variableId_ne_objectId p)]
    exact h.variable q
  · intro id hid hne
    rw [DataPoint.get_adopt_objectItem hfolder, if_neg hid, if_neg (hne p).1]
    exact h.other id hid hne

/-- The board after a variable was added. -/
theorem adopt_variableItem (h : Shows σ₀ b σ) {p : DataPoint} {parent : Node}
    (hparent : σ.get p.objectId = some parent) {b' : Board Name DataPoint}
    (htopics : b'.topics = b.topics) (hposts : b'.posts = b.posts ++ [p])
    (hself : b'.slot p = .posted) (hne : ∀ q, q ≠ p → b'.slot q = b.slot q) :
    Shows σ₀ b' (σ.adopt p.variableItem parent) := by
  refine ⟨h.namespaces, ?_, ?_, ?_, ?_⟩
  · rw [DataPoint.get_adopt_variableItem hparent, if_neg p.objectsFolder_ne_objectId,
      if_neg p.objectsFolder_ne_variableId, h.folder, topicReferences, topicReferences, htopics]
  · intro q
    have hbase : baseObject σ₀ b' q = baseObject σ₀ b q := by
      rw [baseObject, baseObject, htopics]
    rw [DataPoint.get_adopt_variableItem hparent, hbase]
    -- The parent gets the one new reference; other objects keep their lists.
    by_cases hfb : q.fb_id = p.fb_id
    · have hobj : q.objectId = p.objectId := DataPoint.objectId_inj.2 hfb
      have hold := h.object q
      rw [hobj, hparent] at hold
      rcases Option.map_eq_some_iff.1 hold.symm with ⟨n, hn, rfl⟩
      rw [if_pos hobj, hn, Option.map_some, Node.withReference_withReferences]
      simp [postReferences, hposts, hfb]
    · rw [if_neg fun heq => hfb (DataPoint.objectId_inj.1 heq),
        if_neg (q.objectId_ne_variableId p), h.object q]
      simp [postReferences, hposts, Ne.symm hfb]
  · intro q
    rw [DataPoint.get_adopt_variableItem hparent, if_neg (q.variableId_ne_objectId p)]
    by_cases hqp : q = p
    · subst hqp
      rw [if_pos rfl, hself]
      rfl
    · rw [if_neg fun heq => hqp (DataPoint.variableId_inj.1 heq), hne q hqp]
      exact h.variable q
  · intro id hid hne'
    rw [DataPoint.get_adopt_variableItem hparent, if_neg (hne' p).1, if_neg (hne' p).2]
    exact h.other id hid hne'

/-- The board after a variable was deleted. -/
theorem without_variable (h : Shows σ₀ b σ) {p : DataPoint} {b' : Board Name DataPoint}
    (htopics : b'.topics = b.topics) (hposts : b'.posts = b.posts)
    (hself : b'.slot p = .removed) (hne : ∀ q, q ≠ p → b'.slot q = b.slot q) :
    Shows σ₀ b' (σ.without p.variableId) := by
  refine ⟨h.namespaces, ?_, ?_, ?_, ?_⟩
  · rw [Server.get_without, if_neg p.objectsFolder_ne_variableId, h.folder, topicReferences,
      topicReferences, htopics]
  · intro q
    rw [Server.get_without, if_neg (q.objectId_ne_variableId p), h.object q]
    simp [baseObject, postReferences, htopics, hposts]
  · intro q
    rw [Server.get_without]
    by_cases hqp : q = p
    · subst hqp
      rw [if_pos rfl, hself]
      rfl
    · rw [if_neg fun heq => hqp (DataPoint.variableId_inj.1 heq), hne q hqp]
      exact h.variable q
  · intro id hid hne'
    rw [Server.get_without, if_neg (hne' p).2]
    exact h.other id hid hne'

/-- Adding the object node is adding the topic. -/
theorem addTopic (h : Shows σ₀ b σ) (hwf : b.WellFormed (setting σ₀)) (p : DataPoint) :
    Shows σ₀ (b.addTopic (setting σ₀) p.fb_id) (σ.addNodesSingle p.objectItem).2 := by
  by_cases hadd : σ.Addable p.objectItem
  · have hplace := (h.addable_objectItem_iff p).1 hadd
    cases hget : σ.get p.objectId with
    | none =>
        rcases Server.addNodesSingle_absent hadd hget with ⟨folder, hfolder, heq⟩
        have hnot : ¬ b.HasTopic (setting σ₀) p.fb_id := fun ht =>
          (h.hasTopic_iff p).1 ht hget
        rw [heq, Board.addTopic_of_absent hplace.1 hplace.2 hnot]
        exact h.adopt_objectItem hwf hfolder hget
    | some n =>
        have htopic : b.HasTopic (setting σ₀) p.fb_id :=
          (h.hasTopic_iff p).2 (by simp [hget])
        rw [Server.addNodesSingle_present hadd hget, Board.addTopic_of_present htopic]
        exact h
  · rcases Server.addNodesSingle_misplaced hadd with ⟨status, -, -, heq⟩
    have hsame : b.addTopic (setting σ₀) p.fb_id = b :=
      if_neg fun hall => hadd ((h.addable_objectItem_iff p).2 ⟨hall.1, hall.2.1⟩)
    rw [heq, hsame]
    exact h

/-- Adding the variable node is adding the item, with the same answer. -/
theorem addItem (h : Shows σ₀ b σ) (p : DataPoint) :
    Shows σ₀ (b.addItem (setting σ₀) p) (σ.addNodesSingle p.variableItem).2 ∧
      b.verdict (setting σ₀) p = verdictOf (σ.addNodesSingle p.variableItem).1 := by
  by_cases hadd : σ.Addable p.variableItem
  · have hplace := (h.addable_variableItem_iff p).1 hadd
    cases hget : σ.get p.variableId with
    | none =>
        rcases Server.addNodesSingle_absent hadd hget with ⟨parent, hparent, heq⟩
        -- The place is good and the id free on both sides.
        have hv : b.verdict (setting σ₀) p = .accepted := by
          refine Board.verdict_eq_accepted.2 ⟨hplace, fun hhas => ?_⟩
          exact (h.hasItem_iff p).1 hhas hget
        have hadded := Board.addItem_of_accepted hv
        rw [heq, hv]
        exact ⟨h.adopt_variableItem hparent (by rw [hadded]) (by rw [hadded])
          (Board.slot_addItem_self hv) fun q hq => Board.slot_addItem_of_ne hq, rfl⟩
    | some n =>
        have hv : b.verdict (setting σ₀) p = .existing :=
          Board.verdict_eq_existing.2 ⟨hplace, (h.hasItem_iff p).2 (by simp [hget])⟩
        rw [Server.addNodesSingle_present hadd hget,
          Board.addItem_of_refused (by simp [hv]), hv]
        exact ⟨h, rfl⟩
  · rcases Server.addNodesSingle_misplaced hadd with ⟨status, hgood, hexists, heq⟩
    -- Every other status means that there was no place for the node.
    have hv : b.verdict (setting σ₀) p = .misplaced :=
      if_neg fun hall => hadd ((h.addable_variableItem_iff p).2 hall)
    rw [heq, Board.addItem_of_refused (by simp [hv]), hv]
    exact ⟨h, by simp [verdictOf, hgood, hexists]⟩

/-- Deleting the variable node is removing the item, with the same answer. -/
theorem removeItem (h : Shows σ₀ b σ) (p : DataPoint) :
    Shows σ₀ (b.removeItem (setting σ₀) p) (σ.deleteNodesSingle p.variableId false).2 ∧
      (b.HasItem (setting σ₀) p ↔
        (σ.deleteNodesSingle p.variableId false).1 = StatusCode.good) := by
  cases hget : σ.get p.variableId with
  | none =>
      have hnot : ¬ b.HasItem (setting σ₀) p := fun hhas => (h.hasItem_iff p).1 hhas hget
      rw [Server.deleteNodesSingle_absent hget, Board.removeItem_of_absent hnot]
      exact ⟨h, iff_of_false hnot StatusCode.badNodeIdInvalid_ne_good⟩
  | some n =>
      have hhas : b.HasItem (setting σ₀) p := (h.hasItem_iff p).2 (by simp [hget])
      rw [Server.deleteNodesSingle_present hget]
      exact ⟨h.without_variable Board.topics_removeItem Board.posts_removeItem
        (Board.slot_removeItem_self hhas) fun q hq => Board.slot_removeItem_of_ne hq,
        iff_of_true hhas rfl⟩

end Shows

end ForteOpcUa
