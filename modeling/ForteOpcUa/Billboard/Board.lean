import Mathlib.Data.List.Nodup
import Mathlib.Logic.Function.Basic

/-!
# Board — items posted under topics

A *board* lists topics and, under each topic, items.  Topics are only ever added.  Posting an item
again takes the old one off first, so an item is `original` (as the board was found), `removed` or
`posted`.  A `Setting` records what the board looked like when it was found:

- `topicThere`, `topicListed` : the topic exists, the board's list mentions it,
- `itemThere`, `itemListed`   : the item exists, its topic's list mentions it,
- `rooted`, `growable`        : the board has a list of topics, new entries are accepted.

The operations are total: adding what exists and removing what does not exist change nothing.
-/

namespace Billboard

open Classical

/-- What became of an item. -/
inductive Slot
  | original
  | removed
  | posted

/-- The board as it was found.  A topic that does not exist lists no item. -/
structure Setting (Topic Item : Type) where
  topic : Item → Topic
  rooted : Prop
  growable : Prop
  topicThere : Topic → Prop
  topicListed : Topic → Prop
  itemThere : Item → Prop
  itemListed : Item → Prop
  listedUnder : ∀ x, itemListed x → topicThere (topic x)

/-- What was added to the board since, oldest first, and what became of each item. -/
structure Board (Topic Item : Type) where
  topics : List Topic
  posts : List Item
  slot : Item → Slot

/-- The answer to adding an item. -/
inductive Verdict
  | accepted
  | existing
  | misplaced

namespace Board

variable {Topic Item : Type} {S : Setting Topic Item} {b : Board Topic Item}

/-- Nothing was added or removed. -/
def init : Board Topic Item :=
  { topics := [], posts := [], slot := fun _ => .original }

variable (S b)

/-- The topic exists. -/
def HasTopic (t : Topic) : Prop :=
  S.topicThere t ∨ t ∈ b.topics

/-- The topic exists and the board's list mentions it. -/
def FindsTopic (t : Topic) : Prop :=
  b.HasTopic S t ∧ (S.topicListed t ∨ t ∈ b.topics)

/-- The item exists. -/
def HasItem (x : Item) : Prop :=
  match b.slot x with
  | .original => S.itemThere x
  | .removed => False
  | .posted => True

/-- The item exists and its topic's list mentions it. -/
def FindsItem (x : Item) : Prop :=
  b.HasItem S x ∧ (S.itemListed x ∨ x ∈ b.posts)

/-- Add a topic, unless it exists. -/
noncomputable def addTopic (t : Topic) : Board Topic Item :=
  if S.growable ∧ S.rooted ∧ ¬ b.HasTopic S t then
    { b with topics := b.topics ++ [t] }
  else
    b

/-- The answer to adding an item. -/
noncomputable def verdict (x : Item) : Verdict :=
  if S.growable ∧ b.HasTopic S (S.topic x) then
    if b.HasItem S x then .existing else .accepted
  else
    .misplaced

/-- Add an item below its topic, unless it exists. -/
noncomputable def addItem (x : Item) : Board Topic Item :=
  match b.verdict S x with
  | .accepted => { b with
      posts := b.posts ++ [x]
      slot := Function.update b.slot x .posted }
  | _ => b

/-- Remove an item; its topic's list keeps mentioning it. -/
noncomputable def removeItem (x : Item) : Board Topic Item :=
  -- Only the item goes; the entry that mentions it is left behind.
  if b.HasItem S x then { b with slot := Function.update b.slot x .removed } else b

variable {S b}

/-! ## What the operations change -/

theorem verdict_eq_accepted {x : Item} :
    b.verdict S x = .accepted ↔
      (S.growable ∧ b.HasTopic S (S.topic x)) ∧ ¬ b.HasItem S x := by
  unfold verdict
  by_cases h : S.growable ∧ b.HasTopic S (S.topic x) <;> by_cases hx : b.HasItem S x <;>
    simp [h, hx]

theorem verdict_eq_existing {x : Item} :
    b.verdict S x = .existing ↔
      (S.growable ∧ b.HasTopic S (S.topic x)) ∧ b.HasItem S x := by
  unfold verdict
  by_cases h : S.growable ∧ b.HasTopic S (S.topic x) <;> by_cases hx : b.HasItem S x <;>
    simp [h, hx]

theorem addTopic_of_absent {t : Topic} (hgrow : S.growable) (hroot : S.rooted)
    (h : ¬ b.HasTopic S t) : b.addTopic S t = { b with topics := b.topics ++ [t] } :=
  if_pos ⟨hgrow, hroot, h⟩

theorem addTopic_of_present {t : Topic} (h : b.HasTopic S t) : b.addTopic S t = b :=
  if_neg fun hadd => hadd.2.2 h

theorem addItem_of_accepted {x : Item} (h : b.verdict S x = .accepted) :
    b.addItem S x =
      { b with posts := b.posts ++ [x], slot := Function.update b.slot x .posted } := by
  simp [addItem, h]

theorem addItem_of_refused {x : Item} (h : b.verdict S x ≠ .accepted) : b.addItem S x = b := by
  unfold addItem
  split
  · exact absurd ‹_› h
  · rfl

@[simp]
theorem hasTopic_addTopic {t t' : Topic} :
    (b.addTopic S t).HasTopic S t' ↔
      b.HasTopic S t' ∨ (t' = t ∧ S.growable ∧ S.rooted) := by
  unfold addTopic
  split
  · rename_i h
    simp [HasTopic, or_assoc, h.1, h.2.1]
  · rename_i h
    constructor
    · exact Or.inl
    · rintro (ht | ⟨rfl, hgrow, hroot⟩)
      · exact ht
      -- If the topic was missing, the guard would have let it in.
      · by_contra hnot
        exact h ⟨hgrow, hroot, hnot⟩

@[simp]
theorem hasItem_addTopic {t : Topic} {x : Item} :
    (b.addTopic S t).HasItem S x ↔ b.HasItem S x := by
  unfold addTopic
  split <;> rfl

@[simp]
theorem hasTopic_addItem {x : Item} {t : Topic} :
    (b.addItem S x).HasTopic S t ↔ b.HasTopic S t := by
  unfold addItem
  split <;> rfl

@[simp]
theorem hasTopic_removeItem {x : Item} {t : Topic} :
    (b.removeItem S x).HasTopic S t ↔ b.HasTopic S t := by
  unfold removeItem
  split <;> rfl

theorem hasItem_of_slot_eq {b' : Board Topic Item} {x : Item} (h : b'.slot x = b.slot x) :
    b'.HasItem S x ↔ b.HasItem S x := by
  simp [HasItem, h]

theorem slot_addItem_of_ne {x y : Item} (h : y ≠ x) : (b.addItem S x).slot y = b.slot y := by
  unfold addItem
  split
  · exact Function.update_of_ne h ..
  · rfl

theorem slot_removeItem_of_ne {x y : Item} (h : y ≠ x) :
    (b.removeItem S x).slot y = b.slot y := by
  unfold removeItem
  split
  · exact Function.update_of_ne h ..
  · rfl

theorem slot_addItem_self {x : Item} (h : b.verdict S x = .accepted) :
    (b.addItem S x).slot x = .posted := by
  simp [addItem_of_accepted h]

theorem slot_removeItem_self {x : Item} (h : b.HasItem S x) :
    (b.removeItem S x).slot x = .removed := by
  simp [removeItem, h]

theorem removeItem_of_absent {x : Item} (h : ¬ b.HasItem S x) : b.removeItem S x = b :=
  if_neg h

theorem topics_removeItem {x : Item} : (b.removeItem S x).topics = b.topics := by
  unfold removeItem
  split <;> rfl

theorem posts_removeItem {x : Item} : (b.removeItem S x).posts = b.posts := by
  unfold removeItem
  split <;> rfl

/-- After adding it an item exists, unless there was no place for it. -/
theorem hasItem_addItem_self {x : Item} (hgrow : S.growable)
    (htopic : b.HasTopic S (S.topic x)) : (b.addItem S x).HasItem S x := by
  -- An item that is refused is one that exists already.
  by_cases hx : b.HasItem S x
  · rw [addItem_of_refused]
    · exact hx
    · simp [verdict_eq_accepted, hx]
  · rw [addItem_of_accepted (verdict_eq_accepted.2 ⟨⟨hgrow, htopic⟩, hx⟩)]
    simp [HasItem]

/-- After removing it an item does not exist. -/
theorem not_hasItem_removeItem_self {x : Item} : ¬ (b.removeItem S x).HasItem S x := by
  unfold removeItem
  split
  · simp [HasItem]
  · assumption

/-! ## Boards that only grew from their setting -/

/-- Topics were added once and only where they were missing, items only below existing topics. -/
structure WellFormed (S : Setting Topic Item) (b : Board Topic Item) : Prop where
  added : ∀ t ∈ b.topics, S.growable ∧ S.rooted ∧ ¬ S.topicThere t
  nodup : b.topics.Nodup
  posted : ∀ x ∈ b.posts, b.HasTopic S (S.topic x)
  slot : ∀ x, b.slot x = .posted → x ∈ b.posts

namespace WellFormed

theorem init : WellFormed S (Board.init : Board Topic Item) where
  added t ht := by cases ht
  nodup := List.nodup_nil
  posted x hx := by cases hx
  slot x hx := by cases hx

theorem addTopic (h : WellFormed S b) (t : Topic) : WellFormed S (b.addTopic S t) := by
  by_cases hadd : S.growable ∧ S.rooted ∧ ¬ b.HasTopic S t
  · have heq : b.addTopic S t = { b with topics := b.topics ++ [t] } := if_pos hadd
    have hnew : t ∉ b.topics := fun hmem => hadd.2.2 (Or.inr hmem)
    -- The new topic comes last, so the guard is needed for it alone.
    refine ⟨?_, ?_, ?_, ?_⟩
    · intro t' ht'
      rw [heq] at ht'
      rcases List.mem_append.1 ht' with hold | hlast
      · exact h.added t' hold
      · rw [List.mem_singleton.1 hlast]
        exact ⟨hadd.1, hadd.2.1, fun hthere => hadd.2.2 (Or.inl hthere)⟩
    · rw [heq]
      simpa [List.nodup_append] using ⟨h.nodup, fun t' ht' => ne_of_mem_of_not_mem ht' hnew⟩
    · intro x hx
      rw [heq] at hx
      exact hasTopic_addTopic.2 (Or.inl (h.posted x hx))
    · rw [heq]
      exact h.slot
  · have heq : b.addTopic S t = b := if_neg hadd
    rw [heq]
    exact h

theorem addItem (h : WellFormed S b) (x : Item) : WellFormed S (b.addItem S x) := by
  by_cases hv : b.verdict S x = .accepted
  · have heq := addItem_of_accepted hv
    -- An accepted item stands under an existing topic, which is what `posted` asks for.
    refine ⟨?_, ?_, ?_, ?_⟩
    · rw [heq]
      exact h.added
    · rw [heq]
      exact h.nodup
    · intro y hy
      rw [heq] at hy
      rw [hasTopic_addItem]
      rcases List.mem_append.1 hy with hold | hlast
      · exact h.posted y hold
      · rw [List.mem_singleton.1 hlast]
        exact (verdict_eq_accepted.1 hv).1.2
    · intro y hy
      by_cases hyx : y = x
      · simp [heq, hyx]
      · rw [slot_addItem_of_ne hyx] at hy
        simp [heq, h.slot y hy]
  · rw [addItem_of_refused hv]
    exact h

theorem removeItem (h : WellFormed S b) (x : Item) : WellFormed S (b.removeItem S x) := by
  by_cases hx : b.HasItem S x
  · have heq : b.removeItem S x = { b with slot := Function.update b.slot x .removed } :=
      if_pos hx
    refine ⟨?_, ?_, ?_, ?_⟩
    · rw [heq]
      exact h.added
    · rw [heq]
      exact h.nodup
    · rw [heq]
      exact h.posted
    · intro y hy
      by_cases hyx : y = x
      · simp [heq, hyx] at hy
      · rw [slot_removeItem_of_ne hyx] at hy
        simp [heq, h.slot y hy]
  · have heq : b.removeItem S x = b := if_neg hx
    rw [heq]
    exact h

end WellFormed

end Board

end Billboard
