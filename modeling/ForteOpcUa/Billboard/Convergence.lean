import ForteOpcUa.Billboard.Publishers

/-!
# Convergence — racing publishers leave every item in place

Publishers start at a board that has none of their topics and items, and accepts them.  Several
may share a topic or an item.  The invariant follows each publisher through its round: from the
moment it has added its item, the item is there or some publisher is about to add it again.
-/

namespace Billboard

open Classical

variable {ι Topic Item : Type}

/-- The board accepts topics and items, and has none of those of the cast. -/
structure Fresh (S : Setting Topic Item) (cast : Cast ι Item) : Prop where
  growable : S.growable
  rooted : S.rooted
  topic : ∀ i x, cast.item i = some x → ¬ S.topicThere (S.topic x)
  item : ∀ i x, cast.item i = some x → ¬ S.itemThere x

section Fresh

variable {S : Setting Topic Item} {cast : Cast ι Item} {b : Board Topic Item} {i : ι} {x : Item}

theorem Fresh.mem_topics (h : Fresh S cast) (hx : cast.item i = some x)
    (htopic : b.HasTopic S (S.topic x)) : S.topic x ∈ b.topics :=
  htopic.resolve_left (h.topic i x hx)

theorem Fresh.findsTopic (h : Fresh S cast) (hx : cast.item i = some x)
    (htopic : b.HasTopic S (S.topic x)) : b.FindsTopic S (S.topic x) :=
  ⟨htopic, Or.inr (h.mem_topics hx htopic)⟩

/-- An item of the cast that exists was posted. -/
theorem Fresh.mem_posts (h : Fresh S cast) (hwf : b.WellFormed S) (hx : cast.item i = some x)
    (hhas : b.HasItem S x) : x ∈ b.posts := by
  unfold Board.HasItem at hhas
  split at hhas
  · exact absurd hhas (h.item i x hx)
  · exact hhas.elim
  · rename_i hslot
    exact hwf.slot x hslot

theorem Fresh.findsItem (h : Fresh S cast) (hwf : b.WellFormed S) (hx : cast.item i = some x)
    (hhas : b.HasItem S x) : b.FindsItem S x :=
  ⟨hhas, Or.inr (h.mem_posts hwf hx hhas)⟩

/-- An item of the cast that exists has its topic. -/
theorem Fresh.hasTopic (h : Fresh S cast) (hwf : b.WellFormed S) (hx : cast.item i = some x)
    (hhas : b.HasItem S x) : b.HasTopic S (S.topic x) :=
  hwf.posted x (h.mem_posts hwf hx hhas)

end Fresh

section Converging

variable {S : Setting Topic Item} {cast : Cast ι Item} {s s' : State ι Topic Item}

/-- The publisher has added its item in some round, finished or not. -/
def Passed (cast : Cast ι Item) (s : State ι Topic Item) (i : ι) : Prop :=
  (∃ r < s.round i, cast.connected i r) ∨ s.pc i = .disconnect ∨ s.pc i = .release ∨
    (s.pc i = .confirm ∧ cast.connected i (s.round i))

/-- A publisher passes when it adds its item, and at no other turn. -/
theorem passed_turn {i : ι} {x : Item} (h : Passed cast (s.turn S cast i x) i) :
    Passed cast s i ∨ s.pc i = .addItem := by
  have hround : (s.turn S cast i x).round i =
      if s.pc i = .confirm then s.round i + 1 else s.round i := State.turn_round_self
  rcases h with ⟨r, hr, hconn⟩ | hpc | hpc | ⟨hpc, hconn⟩
  -- A finished round: it was finished before, or the turn confirmed it just now.
  · rw [hround] at hr
    split at hr
    · rename_i hconfirm
      rcases Nat.lt_succ_iff_lt_or_eq.1 hr with hlt | rfl
      · exact Or.inl (Or.inl ⟨r, hlt, hconn⟩)
      · exact Or.inl (Or.inr (Or.inr (Or.inr ⟨hconfirm, hconn⟩)))
    · exact Or.inl (Or.inl ⟨r, hr, hconn⟩)
  · rw [State.turn_pc_self] at hpc
    exact Or.inr (Pc.of_next hpc)
  · rw [State.turn_pc_self] at hpc
    exact Or.inl (Or.inr (Or.inl (Pc.of_next hpc)))
  · rw [State.turn_pc_self] at hpc
    rcases Pc.of_next hpc with hrelease | ⟨hidle, hnot⟩
    · exact Or.inl (Or.inr (Or.inr (Or.inl hrelease)))
    · rw [hround, if_neg (by simp [hidle])] at hconn
      -- A round confirmed right from idle has nothing to publish.
      exact absurd hconn hnot

/-- What carries convergence: a publisher about to add its item has its topic, and the items of
publishers that have passed are settled. -/
structure Converging (S : Setting Topic Item) (cast : Cast ι Item) (s : State ι Topic Item) :
    Prop where
  ready : Ready S cast s
  shelved : ∀ i x, cast.item i = some x → s.pc i = .addItem → s.board.HasTopic S (S.topic x)
  passed : ∀ i x, cast.item i = some x → Passed cast s i → Settled S cast s x

theorem converging_init : Converging S cast State.init where
  ready := ready_init
  shelved i x _ hpc := by cases hpc
  passed i x _ hpassed := by
    rcases hpassed with ⟨r, hr, -⟩ | hpc | hpc | ⟨hpc, -⟩
    · cases hr
    · cases hpc
    · cases hpc
    · cases hpc

theorem converging_step (hfresh : Fresh S cast) (hstep : Step S cast s s')
    (h : Converging S cast s) : Converging S cast s' := by
  have hready := ready_step hstep h.ready
  have hsettled : ∀ y, Settled S cast s y → Settled S cast s' y :=
    fun y hy => settled_step hfresh.growable hstep h.ready hy
  cases hstep with
  | pass i round notes hi hone hwho =>
      refine ⟨hready, h.shelved, ?_⟩
      intro j y hy hpassed
      have hji : j ≠ i := Cast.ne_of_item hi hy
      apply h.passed j y hy
      simpa only [Passed, State.pass_pc, State.pass_round_of_ne hji] using hpassed
  | turn i x hx =>
      refine ⟨hready, ?_, ?_⟩
      · intro j y hy hpc
        by_cases hji : j = i
        · subst hji
          cases hx.symm.trans hy
          rw [State.turn_pc_self] at hpc
          -- The three ways to come before adding: with the topic just added, or with one it found.
          rcases Pc.of_next hpc with hadd | ⟨hbrowse, -⟩ | hremove
          · simp only [State.turn, hadd, Pc.effect]
            exact Board.hasTopic_addTopic.2 (Or.inr ⟨rfl, hfresh.growable, hfresh.rooted⟩)
          · exact Pc.hasTopic_effect (h.ready.topic j x hx (Or.inl hbrowse)) _
          · exact Pc.hasTopic_effect (h.ready.topic j x hx (Or.inr hremove)) _
        · rw [State.turn_pc_of_ne hji] at hpc
          exact Pc.hasTopic_effect (h.shelved j y hy hpc) _
      · intro j y hy hpassed
        by_cases hji : j = i
        · subst hji
          cases hx.symm.trans hy
          -- A publisher passes by adding its item, which then exists.
          rcases passed_turn hpassed with hbefore | hadd
          · exact hsettled x (h.passed j x hx hbefore)
          · left
            simpa only [State.turn, hadd, Pc.effect] using
              Board.hasItem_addItem_self hfresh.growable (h.shelved j x hx hadd)
        · refine hsettled y (h.passed j y hy ?_)
          simpa only [Passed, State.turn_pc_of_ne hji, State.turn_round_of_ne hji] using hpassed

theorem converging_steps (hfresh : Fresh S cast) (hsteps : Steps S cast State.init s) :
    Converging S cast s :=
  steps_induct (fun _ _ hstep h => converging_step hfresh hstep h) hsteps converging_init

/-- Whenever no publisher moves, the items of all finished rounds are posted under topics that
are listed. -/
theorem converged (hfresh : Fresh S cast) (hsteps : Steps S cast State.init s)
    (hq : Quiescent cast s) {i : ι} {x : Item} {r : ℕ} (hx : cast.item i = some x)
    (hr : r < s.round i) (hconn : cast.connected i r) :
    S.topic x ∈ s.board.topics ∧ x ∈ s.board.posts ∧ s.board.slot x = .posted := by
  have h := converging_steps hfresh hsteps
  have hhas : s.board.HasItem S x := (h.passed i x hx (Or.inl ⟨r, hr, hconn⟩)).hasItem hq
  have hpost : x ∈ s.board.posts := hfresh.mem_posts h.ready.board hx hhas
  refine ⟨hfresh.mem_topics hx (h.ready.board.posted x hpost), hpost, ?_⟩
  unfold Board.HasItem at hhas
  split at hhas
  · exact absurd hhas (hfresh.item i x hx)
  · exact hhas.elim
  · assumption

end Converging

end Billboard
