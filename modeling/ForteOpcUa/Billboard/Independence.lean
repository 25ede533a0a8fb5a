import Mathlib.Data.List.Perm.Basic
import ForteOpcUa.Billboard.Convergence

/-!
# Independence — publishers of different items do not interfere

With one publisher to an item, what becomes of the item is a function of how often it was
published, whatever the others do in between: `itemAfter` iterates one undisturbed round.  Which
branch a round takes may depend on the others, its effect does not.  So any two runs with the same
rounds end at boards that agree up to the order in which topics and posts were added.
-/

namespace Billboard

open Classical

variable {ι Topic Item : Type}

/-- Every item has one publisher. -/
def Distinct (cast : Cast ι Item) : Prop :=
  ∀ i j x, cast.item i = some x → cast.item j = some x → i = j

/-! ## One undisturbed round -/

section Round

variable (S : Setting Topic Item) (x : Item)

/-- The topic exists once somebody has tried to add it. -/
def Reached (t : Topic) : Prop :=
  S.topicThere t ∨ (S.growable ∧ S.rooted)

/-- What became of an item and how often it was posted. -/
abbrev Place : Type :=
  Slot × ℕ

/-- The item exists. -/
def Present (p : Place) : Prop :=
  match p.1 with
  | .original => S.itemThere x
  | .removed => False
  | .posted => True

/-- A publisher that browses its topic finds its item. -/
def Found (p : Place) : Prop :=
  Reached S (S.topic x) ∧ (S.topicThere (S.topic x) → S.topicListed (S.topic x)) ∧
    Present S x p ∧ (S.itemListed x ∨ 0 < p.2)

/-- Take the item off if it was found. -/
noncomputable def afterRemove (p : Place) : Place :=
  if Found S x p then (.removed, p.2) else p

/-- Add the item if there is a place for it. -/
noncomputable def afterAdd (p : Place) : Place :=
  if (S.growable ∧ Reached S (S.topic x)) ∧ ¬ Present S x p then (.posted, p.2 + 1) else p

/-- One round. -/
noncomputable def roundEffect (p : Place) : Place :=
  afterAdd S x (afterRemove S x p)

/-- The item after the first rounds of its publisher, of which some publish nothing. -/
noncomputable def itemAfter (connected : ℕ → Prop) : ℕ → Place
  | 0 => (.original, 0)
  | r + 1 => if connected r then roundEffect S x (itemAfter connected r)
      else itemAfter connected r

end Round

/-- What became of the item on the board. -/
noncomputable def Board.place (b : Board Topic Item) (x : Item) : Place :=
  (b.slot x, b.posts.count x)

section Board

variable {S : Setting Topic Item} {b : Board Topic Item} {x y : Item} {pc : Pc}

theorem present_place : Present S x (b.place x) ↔ b.HasItem S x :=
  Iff.rfl

theorem count_pos_place : 0 < (b.place x).2 ↔ x ∈ b.posts :=
  List.count_pos_iff

theorem Board.WellFormed.reached (h : b.WellFormed S) {t : Topic} (ht : b.HasTopic S t) :
    Reached S t := by
  rcases ht with hthere | hmem
  · exact Or.inl hthere
  · exact Or.inr ⟨(h.added t hmem).1, (h.added t hmem).2.1⟩

/-- Where an item would be found, its topic is found. -/
theorem Board.WellFormed.findsTopic (h : b.WellFormed S) (hfound : Found S x (b.place x)) :
    b.FindsTopic S (S.topic x) := by
  rcases hfound with ⟨-, hlinked, -, hlisted⟩
  -- A topic is there for whoever lists an item below it.
  have htopic : b.HasTopic S (S.topic x) := by
    rcases hlisted with hlisted | hpos
    · exact Or.inl (S.listedUnder x hlisted)
    · exact h.posted x (count_pos_place.1 hpos)
  refine ⟨htopic, ?_⟩
  rcases htopic with hthere | hmem
  · exact Or.inl (hlinked hthere)
  · exact Or.inr hmem

/-- Below a topic that was found, finding the item is finding its place. -/
theorem Board.WellFormed.findsItem_iff (h : b.WellFormed S)
    (htopic : b.FindsTopic S (S.topic x)) :
    b.FindsItem S x ↔ Found S x (b.place x) := by
  -- A topic found in the list was listed from the start, or is none of the first ones.
  have hlinked : S.topicThere (S.topic x) → S.topicListed (S.topic x) := by
    intro hthere
    rcases htopic.2 with hlisted | hmem
    · exact hlisted
    · exact absurd hthere (h.added _ hmem).2.2
  constructor
  · rintro ⟨hhas, hlisted⟩
    exact ⟨h.reached htopic.1, hlinked, present_place.2 hhas,
      hlisted.imp_right count_pos_place.2⟩
  · rintro ⟨-, -, hpresent, hlisted⟩
    exact ⟨present_place.1 hpresent, hlisted.imp_right count_pos_place.1⟩

/-- A publisher changes no place but that of its own item. -/
theorem place_effect_of_ne (h : y ≠ x) : (pc.effect S b x).place y = b.place y := by
  have hcount : (pc.effect S b x).posts.count y = b.posts.count y := by
    rcases Pc.posts_effect (S := S) (b := b) (x := x) pc with heq | ⟨-, heq⟩
    · rw [heq]
    · rw [heq, List.count_append, List.count_singleton]
      simp [h.symm]
  rw [Board.place, Board.place, hcount, Pc.slot_effect_of_ne h]

theorem place_addTopic {t : Topic} : (b.addTopic S t).place x = b.place x := by
  unfold Board.addTopic
  split <;> rfl

theorem place_removeItem (h : Found S x (b.place x)) :
    (b.removeItem S x).place x = afterRemove S x (b.place x) := by
  have hhas : b.HasItem S x := present_place.1 h.2.2.1
  have heq : b.removeItem S x = { b with slot := Function.update b.slot x .removed } :=
    if_pos hhas
  rw [afterRemove, if_pos h, heq]
  simp [Board.place]

theorem place_addItem (h : b.HasTopic S (S.topic x) ↔ Reached S (S.topic x)) :
    (b.addItem S x).place x = afterAdd S x (b.place x) := by
  -- By `h` the verdict depends on the place of the item alone.
  by_cases hv : b.verdict S x = .accepted
  · have hplace : (S.growable ∧ Reached S (S.topic x)) ∧ ¬ Present S x (b.place x) := by
      rw [← h]
      exact Board.verdict_eq_accepted.1 hv
    rw [Board.addItem_of_accepted hv, afterAdd, if_pos hplace]
    simp [Board.place]
  · have hplace : ¬ ((S.growable ∧ Reached S (S.topic x)) ∧ ¬ Present S x (b.place x)) := by
      rw [← h]
      exact fun hall => hv (Board.verdict_eq_accepted.2 hall)
    rw [Board.addItem_of_refused hv, afterAdd, if_neg hplace]

end Board

/-! ## A publisher's item through a round -/

section Tracks

variable {S : Setting Topic Item} {cast : Cast ι Item} {s s' : State ι Topic Item}

/-- Where the item of a publisher is while the publisher is in a round: as after the rounds
before, until the publisher touches it. -/
def Tracks (S : Setting Topic Item) (cast : Cast ι Item) (s : State ι Topic Item) (i : ι)
    (x : Item) : Prop :=
  let before := itemAfter S x (cast.connected i) (s.round i)
  match s.pc i with
  | .idle => s.board.place x = before
  | .create => cast.connected i (s.round i) ∧ s.board.place x = before
  | .connect => cast.connected i (s.round i) ∧ s.board.place x = before
  | .browse => cast.connected i (s.round i) ∧ s.board.place x = before
  | .addTopic => cast.connected i (s.round i) ∧ s.board.place x = before ∧ ¬ Found S x before
  | .browseItem => cast.connected i (s.round i) ∧ s.board.place x = before ∧
      s.board.FindsTopic S (S.topic x)
  | .remove => cast.connected i (s.round i) ∧ s.board.place x = before ∧ Found S x before ∧
      s.board.HasTopic S (S.topic x)
  | .addItem => cast.connected i (s.round i) ∧
      afterAdd S x (s.board.place x) = roundEffect S x before ∧
      (Reached S (S.topic x) → s.board.HasTopic S (S.topic x))
  | _ => s.board.place x = itemAfter S x (cast.connected i) (s.round i + 1)

/-- The turn of another publisher, whose item is a different one. -/
theorem tracks_turn_of_ne {i j : ι} {x y : Item} (hji : j ≠ i) (hyx : y ≠ x)
    (h : Tracks S cast s j y) : Tracks S cast (s.turn S cast i x) j y := by
  have hplace : (s.turn S cast i x).board.place y = s.board.place y := place_effect_of_ne hyx
  have htopic : ∀ {t}, s.board.HasTopic S t → (s.turn S cast i x).board.HasTopic S t :=
    fun ht => Pc.hasTopic_effect ht _
  have hfinds : ∀ {t}, s.board.FindsTopic S t → (s.turn S cast i x).board.FindsTopic S t :=
    fun ht => Pc.findsTopic_effect ht _
  unfold Tracks at h ⊢
  rw [State.turn_pc_of_ne hji, State.turn_round_of_ne hji, hplace]
  -- Where the publisher relies on its topic, the turn of another one has not removed it.
  cases hpc : s.pc j with
  | browseItem =>
      simp only [hpc] at h ⊢
      exact ⟨h.1, h.2.1, hfinds h.2.2⟩
  | remove =>
      simp only [hpc] at h ⊢
      exact ⟨h.1, h.2.1, h.2.2.1, htopic h.2.2.2⟩
  | addItem =>
      simp only [hpc] at h ⊢
      exact ⟨h.1, h.2.1, fun hreached => htopic (h.2.2 hreached)⟩
  | _ =>
      simp only [hpc] at h ⊢
      exact h

/-- The publisher's own turn. -/
theorem tracks_turn_self {i : ι} {x : Item} (hwf : s.board.WellFormed S)
    (h : Tracks S cast s i x) : Tracks S cast (s.turn S cast i x) i x := by
  unfold Tracks at h ⊢
  rw [State.turn_pc_self, State.turn_round_self]
  -- Every turn takes the fact for its stand to the fact for the next one.
  cases hpc : s.pc i with
  | idle =>
      simp only [hpc] at h
      by_cases hconn : cast.connected i (s.round i)
      · simp [Pc.next, State.turn, Pc.effect, hpc, hconn, h]
      · simp [Pc.next, State.turn, Pc.effect, hpc, hconn, h, itemAfter]
  | browse =>
      simp only [hpc] at h
      rcases h with ⟨hconn, hplace⟩
      -- What the publisher finds is what `before` says, and the branch is the one of `roundEffect`.
      by_cases hfind : s.board.FindsTopic S (S.topic x)
      · simp [Pc.next, State.turn, Pc.effect, hpc, hfind, hconn, hplace]
      · have hnot : ¬ Found S x (s.board.place x) := fun hfound => hfind (hwf.findsTopic hfound)
        rw [hplace] at hnot
        simp [Pc.next, State.turn, Pc.effect, hpc, hfind, hconn, hplace, hnot]
  | addTopic =>
      simp only [hpc] at h
      rcases h with ⟨hconn, hplace, hnot⟩
      -- Nothing is removed in a round that did not find the topic.
      have hround : roundEffect S x (itemAfter S x (cast.connected i) (s.round i)) =
          afterAdd S x (itemAfter S x (cast.connected i) (s.round i)) := by
        have hkept : afterRemove S x (itemAfter S x (cast.connected i) (s.round i)) =
            itemAfter S x (cast.connected i) (s.round i) := if_neg hnot
        rw [roundEffect, hkept]
      have htopic : Reached S (S.topic x) →
          (s.board.addTopic S (S.topic x)).HasTopic S (S.topic x) := by
        rintro (hthere | hgrow)
        · exact Board.hasTopic_addTopic.2 (Or.inl (Or.inl hthere))
        · exact Board.hasTopic_addTopic.2 (Or.inr ⟨rfl, hgrow⟩)
      simpa [Pc.next, State.turn, Pc.effect, hpc, hconn, place_addTopic, hplace, hround] using
        htopic
  | browseItem =>
      simp only [hpc] at h
      rcases h with ⟨hconn, hplace, htopic⟩
      by_cases hfind : s.board.FindsItem S x
      · have hfound := (hwf.findsItem_iff htopic).1 hfind
        rw [hplace] at hfound
        simp [Pc.next, State.turn, Pc.effect, hpc, hfind, hconn, hplace, hfound, htopic.1]
      · have hnot : ¬ Found S x (s.board.place x) :=
          fun hfound => hfind ((hwf.findsItem_iff htopic).2 hfound)
        rw [hplace] at hnot
        simp [Pc.next, State.turn, Pc.effect, hpc, hfind, hconn, hplace, htopic.1, roundEffect,
          afterRemove, hnot]
  | remove =>
      simp only [hpc] at h
      rcases h with ⟨hconn, hplace, hfound, htopic⟩
      have hremoved := place_removeItem (b := s.board) (hplace.symm ▸ hfound)
      simp [Pc.next, State.turn, Pc.effect, hpc, hconn, hremoved, hplace, roundEffect, htopic]
  | addItem =>
      simp only [hpc] at h
      rcases h with ⟨hconn, hplace, htopic⟩
      have hadded := place_addItem (b := s.board) (x := x) ⟨hwf.reached, htopic⟩
      simp [Pc.next, State.turn, Pc.effect, hpc, hconn, hadded, hplace, itemAfter]
  | _ =>
      simp only [hpc] at h
      simp [Pc.next, State.turn, Pc.effect, hpc, h]

/-! ## What was added, and by whom -/

/-- The publisher has begun a round in which it publishes. -/
def Begun (cast : Cast ι Item) (s : State ι Topic Item) (i : ι) : Prop :=
  (∃ r < s.round i, cast.connected i r) ∨
    (s.pc i ≠ .idle ∧ cast.connected i (s.round i))

/-- Every publisher's item is tracked, its topic is there once it has passed, and everything on
the board comes from some publisher. -/
structure Independent (S : Setting Topic Item) (cast : Cast ι Item) (s : State ι Topic Item) :
    Prop where
  board : s.board.WellFormed S
  tracks : ∀ i x, cast.item i = some x → Tracks S cast s i x
  passed : ∀ i x, cast.item i = some x → Passed cast s i → Reached S (S.topic x) →
    s.board.HasTopic S (S.topic x)
  begun : ∀ t ∈ s.board.topics, ∃ i x, cast.item i = some x ∧ S.topic x = t ∧ Begun cast s i
  posts : ∀ x ∈ s.board.posts, ∃ i, cast.item i = some x
  slot : ∀ x, s.board.slot x ≠ .original → ∃ i, cast.item i = some x

theorem independent_init : Independent S cast State.init where
  board := Board.WellFormed.init
  tracks i x _ := by simp [Tracks, State.init, Board.place, Board.init, itemAfter]
  passed i x _ hpassed := by
    rcases hpassed with ⟨r, hr, -⟩ | hpc | hpc | ⟨hpc, -⟩
    · cases hr
    · cases hpc
    · cases hpc
    · cases hpc
  begun t ht := by cases ht
  posts x hx := by cases hx
  slot x hx := absurd rfl hx

/-- A round that was begun stays begun. -/
theorem begun_turn {i j : ι} {x : Item} (h : Begun cast s j) :
    Begun cast (s.turn S cast i x) j := by
  by_cases hji : j = i
  · subst hji
    unfold Begun
    rw [State.turn_round_self, State.turn_pc_self]
    by_cases hconfirm : s.pc j = .confirm
    · rw [if_pos hconfirm]
      rcases h with ⟨r, hr, hconn⟩ | ⟨-, hconn⟩
      · exact Or.inl ⟨r, Nat.lt_succ_of_lt hr, hconn⟩
      · exact Or.inl ⟨s.round j, Nat.lt_succ_self _, hconn⟩
    · rw [if_neg hconfirm]
      exact h.imp_right fun hnow => ⟨fun hidle => hconfirm (Pc.of_next hidle), hnow.2⟩
  · unfold Begun
    rw [State.turn_round_of_ne hji, State.turn_pc_of_ne hji]
    exact h

theorem independent_turn (hdistinct : Distinct cast) {i : ι} {x : Item}
    (hx : cast.item i = some x) (h : Independent S cast s) :
    Independent S cast (s.turn S cast i x) where
  board := Pc.wellFormed_effect h.board _
  tracks j y hy := by
    -- Distinct items: the turn of one publisher cannot touch the item of another.
    by_cases hji : j = i
    · subst hji
      cases hx.symm.trans hy
      exact tracks_turn_self h.board (h.tracks j _ hx)
    · have hyx : y ≠ x := by
        rintro rfl
        exact hji (hdistinct j i y hy hx)
      exact tracks_turn_of_ne hji hyx (h.tracks j y hy)
  passed j y hy hpassed hreached := by
    apply Pc.hasTopic_effect
    -- A topic that is needed is there from before, or this turn adds it.
    by_cases hji : j = i
    · subst hji
      cases hx.symm.trans hy
      rcases passed_turn hpassed with hbefore | hadd
      · exact h.passed j _ hx hbefore hreached
      · have htracks := h.tracks j _ hx
        simp only [Tracks, hadd] at htracks
        exact htracks.2.2 hreached
    · refine h.passed j y hy ?_ hreached
      simpa only [Passed, State.turn_pc_of_ne hji, State.turn_round_of_ne hji] using hpassed
  begun t ht := by
    have hold : t ∈ s.board.topics → ∃ j y, cast.item j = some y ∧ S.topic y = t ∧
        Begun cast (s.turn S cast i x) j := by
      intro hmem
      rcases h.begun t hmem with ⟨j, y, hy, htopic, hbegun⟩
      exact ⟨j, y, hy, htopic, begun_turn hbegun⟩
    -- A new topic is the one of the publisher that moved, which is in a round.
    rcases Pc.topics_effect (S := S) (b := s.board) (x := x) (s.pc i) with heq | ⟨hadd, heq⟩
    · exact hold (heq ▸ ht)
    · have ht' : t ∈ s.board.topics ++ [S.topic x] := heq ▸ ht
      rcases List.mem_append.1 ht' with hmem | hnew
      · exact hold hmem
      · have htracks := h.tracks i x hx
        simp only [Tracks, hadd] at htracks
        refine ⟨i, x, hx, (List.mem_singleton.1 hnew).symm, begun_turn (Or.inr ⟨?_, htracks.1⟩)⟩
        simp [hadd]
  posts y hy := by
    rcases Pc.posts_effect (S := S) (b := s.board) (x := x) (s.pc i) with heq | ⟨-, heq⟩
    · exact h.posts y (heq ▸ hy)
    · have hy' : y ∈ s.board.posts ++ [x] := heq ▸ hy
      rcases List.mem_append.1 hy' with hmem | hnew
      · exact h.posts y hmem
      · exact ⟨i, by rw [List.mem_singleton.1 hnew, hx]⟩
  slot y hy := by
    by_cases hyx : y = x
    · exact ⟨i, by rw [hyx, hx]⟩
    · exact h.slot y fun horiginal => hy ((Pc.slot_effect_of_ne hyx _).trans horiginal)

theorem independent_step (hdistinct : Distinct cast) (hstep : Step S cast s s')
    (h : Independent S cast s) : Independent S cast s' := by
  cases hstep with
  | turn i x hx => exact independent_turn hdistinct hx h
  | pass i round notes hi hone hwho =>
      have hround : ∀ {j y}, cast.item j = some y →
          (s.pass i round notes).round j = s.round j := fun hy =>
        State.pass_round_of_ne (Cast.ne_of_item hi hy)
      refine ⟨h.board, ?_, ?_, ?_, h.posts, h.slot⟩
      · intro j y hy
        simpa only [Tracks, State.pass_board, State.pass_pc, hround hy] using
          h.tracks j y hy
      · intro j y hy hpassed
        apply h.passed j y hy
        simpa only [Passed, State.pass_pc, hround hy] using hpassed
      · intro t ht
        rcases h.begun t ht with ⟨j, y, hy, htopic, hbegun⟩
        refine ⟨j, y, hy, htopic, ?_⟩
        simpa only [Begun, State.pass_pc, hround hy] using hbegun

theorem independent_steps (hdistinct : Distinct cast) (hsteps : Steps S cast State.init s) :
    Independent S cast s :=
  steps_induct (fun _ _ hstep h => independent_step hdistinct hstep h) hsteps independent_init

/-! ## Runs with the same rounds -/

/-- When no publisher moves, each item is as its own rounds leave it. -/
theorem Independent.place_eq (h : Independent S cast s) (hq : Quiescent cast s) {i : ι} {x : Item}
    (hx : cast.item i = some x) :
    s.board.place x = itemAfter S x (cast.connected i) (s.round i) := by
  have htracks := h.tracks i x hx
  simpa only [Tracks, hq i x hx] using htracks

/-- The topics that were added are those of publishers with finished rounds. -/
theorem Independent.mem_topics (h : Independent S cast s) (hq : Quiescent cast s) {t : Topic} :
    t ∈ s.board.topics ↔ (S.growable ∧ S.rooted ∧ ¬ S.topicThere t) ∧
      ∃ i x, cast.item i = some x ∧ S.topic x = t ∧ ∃ r < s.round i, cast.connected i r := by
  constructor
  · intro ht
    refine ⟨h.board.added t ht, ?_⟩
    rcases h.begun t ht with ⟨i, x, hx, htopic, hdone | ⟨hbusy, -⟩⟩
    · exact ⟨i, x, hx, htopic, hdone⟩
    · exact absurd (hq i x hx) hbusy
  · rintro ⟨⟨hgrow, hroot, hnot⟩, i, x, hx, rfl, hdone⟩
    have htopic := h.passed i x hx (Or.inl hdone) (Or.inr ⟨hgrow, hroot⟩)
    exact htopic.resolve_left hnot

/-- Two runs in which every publisher finished the same rounds end at the same board, up to the
order in which topics and posts were added. -/
theorem same_board (hdistinct : Distinct cast) (h : Steps S cast State.init s)
    (h' : Steps S cast State.init s') (hq : Quiescent cast s) (hq' : Quiescent cast s')
    (hround : ∀ i x, cast.item i = some x → s.round i = s'.round i) :
    s.board.slot = s'.board.slot ∧ s.board.posts.Perm s'.board.posts ∧
      s.board.topics.Perm s'.board.topics := by
  have hI := independent_steps hdistinct h
  have hI' := independent_steps hdistinct h'
  have hplace : ∀ x, s.board.place x = s'.board.place x := by
    intro x
    -- Items of publishers are as their rounds leave them, all others as they were found.
    by_cases hcast : ∃ i, cast.item i = some x
    · rcases hcast with ⟨i, hx⟩
      calc
        s.board.place x
            = itemAfter S x (cast.connected i) (s.round i) := hI.place_eq hq hx
        _ = itemAfter S x (cast.connected i) (s'.round i) := by rw [hround i x hx]
        _ = s'.board.place x := (hI'.place_eq hq' hx).symm
    · have hslot : s.board.slot x = .original := not_not.1 fun hne => hcast (hI.slot x hne)
      have hslot' : s'.board.slot x = .original := not_not.1 fun hne => hcast (hI'.slot x hne)
      have hpost : x ∉ s.board.posts := fun hmem => hcast (hI.posts x hmem)
      have hpost' : x ∉ s'.board.posts := fun hmem => hcast (hI'.posts x hmem)
      simp [Board.place, hslot, hslot', List.count_eq_zero.2 hpost, List.count_eq_zero.2 hpost']
  refine ⟨funext fun x => (Prod.mk.inj (hplace x)).1, ?_, ?_⟩
  · exact List.perm_iff_count.2 fun x => (Prod.mk.inj (hplace x)).2
  -- Topics occur once, so it is enough to compare membership.
  · rw [List.perm_ext_iff_of_nodup hI.board.nodup hI'.board.nodup]
    intro t
    rw [hI.mem_topics hq, hI'.mem_topics hq']
    refine and_congr_right fun _ => exists_congr fun i => exists_congr fun x => ?_
    refine and_congr_right fun hx => ?_
    rw [hround i x hx]

end Tracks

end Billboard
