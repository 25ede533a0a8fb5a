import Mathlib.Logic.Relation
import ForteOpcUa.Billboard.Board

/-!
# Publishers — any number of publishers at one board

A publisher looks whether its topic is listed and, if so, whether its item is listed under it; it
removes an item it found and then adds its own.  Between any two of these turns other publishers
may move, so each acts on what it saw last.

- `State.turn`     : one turn of one publisher, deterministic,
- `Step`           : a turn of some publisher, or a move of a bystander that leaves the board alone,
- `steps_induct`   : the invariant rule,
- `settled_steps`  : an item that exists once is, from then on, there or about to be added.
-/

namespace Billboard

open Classical

/-- Where a publisher stands: the turn it takes next. -/
inductive Pc
  | idle
  | create
  | connect
  | browse
  | addTopic
  | browseItem
  | remove
  | addItem
  | disconnect
  | release
  | confirm
  deriving DecidableEq

/-- Who takes part: the item of each publisher (bystanders have none) and the rounds in which it
has something to publish. -/
structure Cast (ι Item : Type) where
  item : ι → Option Item
  connected : ι → ℕ → Prop

/-- What a turn shows in the history. -/
inductive Deed
  | quiet
  | looked
  | added (verdict : Verdict)
  | removed (done : Bool)
  | confirmed

/-- One entry of the history. -/
structure Note (ι : Type) where
  who : ι
  round : ℕ
  deed : Deed

/-- The board, the publishers and the history, oldest note first. -/
structure State (ι Topic Item : Type) where
  board : Board Topic Item
  pc : ι → Pc
  round : ι → ℕ
  log : List (Note ι)

variable {ι Topic Item : Type}

/-- A publisher is not a bystander. -/
theorem Cast.ne_of_item {cast : Cast ι Item} {i j : ι} {x : Item} (hi : cast.item i = none)
    (hj : cast.item j = some x) : j ≠ i := by
  rintro rfl
  cases hi.symm.trans hj

/-! ## Turns -/

namespace Pc

variable (S : Setting Topic Item) (b : Board Topic Item) (x : Item)

/-- Where a publisher of item `x` stands after its turn. -/
noncomputable def next (connected : Prop) : Pc → Pc
  | idle => if connected then create else confirm
  | create => connect
  | connect => browse
  | browse => if b.FindsTopic S (S.topic x) then browseItem else addTopic
  | addTopic => addItem
  | browseItem => if b.FindsItem S x then remove else addItem
  | remove => addItem
  | addItem => disconnect
  | disconnect => release
  | release => confirm
  | confirm => idle

/-- What the turn does to the board. -/
noncomputable def effect : Pc → Board Topic Item
  | addTopic => b.addTopic S (S.topic x)
  | remove => b.removeItem S x
  | addItem => b.addItem S x
  | _ => b

/-- What the turn shows; starting a round shows nothing. -/
noncomputable def deed : Pc → List Deed
  | idle => []
  | browse => [.looked]
  | remove => [.removed (decide (b.HasItem S x))]
  | addItem => [.added (b.verdict S x)]
  | confirm => [.confirmed]
  | _ => [.quiet]

variable {S b x}

/-- Where a publisher came from, with what it saw there. -/
theorem of_next {connected : Prop} {pc pc' : Pc} (h : pc.next S b x connected = pc') :
    match pc' with
    -- The turns that decide: one way for either answer.
    | idle => pc = confirm
    | create => pc = idle ∧ connected
    | connect => pc = create
    | browse => pc = connect
    | addTopic => pc = browse ∧ ¬ b.FindsTopic S (S.topic x)
    | browseItem => pc = browse ∧ b.FindsTopic S (S.topic x)
    | remove => pc = browseItem ∧ b.FindsItem S x
    | addItem => pc = addTopic ∨ (pc = browseItem ∧ ¬ b.FindsItem S x) ∨ pc = remove
    | disconnect => pc = addItem
    | release => pc = disconnect
    | confirm => pc = release ∨ (pc = idle ∧ ¬ connected) := by
  cases pc with
  | idle =>
      by_cases hc : connected
      · rw [next, if_pos hc] at h
        subst h
        exact ⟨rfl, hc⟩
      · rw [next, if_neg hc] at h
        subst h
        exact Or.inr ⟨rfl, hc⟩
  | browse =>
      by_cases hfind : b.FindsTopic S (S.topic x)
      · rw [next, if_pos hfind] at h
        subst h
        exact ⟨rfl, hfind⟩
      · rw [next, if_neg hfind] at h
        subst h
        exact ⟨rfl, hfind⟩
  | browseItem =>
      by_cases hfind : b.FindsItem S x
      · rw [next, if_pos hfind] at h
        subst h
        exact ⟨rfl, hfind⟩
      · rw [next, if_neg hfind] at h
        subst h
        exact Or.inr (Or.inl ⟨rfl, hfind⟩)
  -- Every other turn has a single successor.
  | _ =>
      subst h
      simp [next]

theorem wellFormed_effect (h : b.WellFormed S) (pc : Pc) : (pc.effect S b x).WellFormed S := by
  cases pc with
  | addTopic => exact h.addTopic _
  | remove => exact h.removeItem x
  | addItem => exact h.addItem x
  | _ => exact h

/-- Topics stay. -/
theorem hasTopic_effect {t : Topic} (h : b.HasTopic S t) (pc : Pc) :
    (pc.effect S b x).HasTopic S t := by
  cases pc with
  | addTopic => exact Board.hasTopic_addTopic.2 (Or.inl h)
  | remove => exact Board.hasTopic_removeItem.2 h
  | addItem => exact Board.hasTopic_addItem.2 h
  | _ => exact h

/-- A publisher leaves the items of others alone. -/
theorem slot_effect_of_ne {y : Item} (h : y ≠ x) (pc : Pc) :
    (pc.effect S b x).slot y = b.slot y := by
  cases pc with
  | addTopic =>
      simp only [effect, Board.addTopic]
      split <;> rfl
  | remove => exact Board.slot_removeItem_of_ne h
  | addItem => exact Board.slot_addItem_of_ne h
  | _ => rfl

/-- Only removing takes an item away. -/
theorem hasItem_effect {y : Item} (h : b.HasItem S y) {pc : Pc}
    (hpc : pc = remove → y ≠ x) : (pc.effect S b x).HasItem S y := by
  by_cases hyx : y = x
  · subst hyx
    cases pc with
    | addTopic => exact Board.hasItem_addTopic.2 h
    | remove => exact absurd rfl (hpc rfl)
    -- Adding an item that exists is refused and changes nothing.
    | addItem =>
        simp only [effect, Board.addItem_of_refused (S := S) (b := b) (x := y)
          (by simp [Board.verdict_eq_accepted, h]), h]
    | _ => exact h
  · exact (Board.hasItem_of_slot_eq (slot_effect_of_ne hyx pc)).2 h

/-- The posts grow at most by the publisher's own item. -/
theorem posts_effect (pc : Pc) :
    (pc.effect S b x).posts = b.posts ∨
      (pc = addItem ∧ (pc.effect S b x).posts = b.posts ++ [x]) := by
  cases pc with
  | addTopic =>
      simp only [effect, Board.addTopic]
      split <;> exact Or.inl rfl
  | remove =>
      simp only [effect, Board.removeItem]
      split <;> exact Or.inl rfl
  | addItem =>
      simp only [effect, Board.addItem]
      split
      · exact Or.inr ⟨trivial, rfl⟩
      · exact Or.inl rfl
  | _ => exact Or.inl rfl

/-- The topics grow at most by the publisher's own topic. -/
theorem topics_effect (pc : Pc) :
    (pc.effect S b x).topics = b.topics ∨
      (pc = addTopic ∧ (pc.effect S b x).topics = b.topics ++ [S.topic x]) := by
  cases pc with
  | addTopic =>
      simp only [effect, Board.addTopic]
      split
      · exact Or.inr ⟨trivial, rfl⟩
      · exact Or.inl rfl
  | remove =>
      simp only [effect, Board.removeItem]
      split <;> exact Or.inl rfl
  | addItem =>
      simp only [effect, Board.addItem]
      split <;> exact Or.inl rfl
  | _ => exact Or.inl rfl

/-- Listed topics stay listed. -/
theorem findsTopic_effect {t : Topic} (h : b.FindsTopic S t) (pc : Pc) :
    (pc.effect S b x).FindsTopic S t := by
  refine ⟨hasTopic_effect h.1 pc, h.2.imp_right fun hmem => ?_⟩
  rcases topics_effect (S := S) (b := b) (x := x) pc with heq | ⟨-, heq⟩
  · rw [heq]
    exact hmem
  · rw [heq]
    exact List.mem_append_left _ hmem

theorem mem_deed_added {v : Verdict} {pc : Pc} :
    .added v ∈ pc.deed S b x ↔ pc = addItem ∧ v = b.verdict S x := by
  cases pc <;> simp [deed]

theorem mem_deed_removed {done : Bool} {pc : Pc} :
    .removed done ∈ pc.deed S b x ↔ pc = remove ∧ done = decide (b.HasItem S x) := by
  cases pc <;> simp [deed]

theorem mem_deed_confirmed {pc : Pc} : .confirmed ∈ pc.deed S b x ↔ pc = confirm := by
  cases pc <;> simp [deed]

/-- Every turn but the first shows one deed, and the first leaves the board alone. -/
theorem deed_cases (pc : Pc) :
    (pc.deed S b x = [] ∧ pc.effect S b x = b) ∨ ∃ d, pc.deed S b x = [d] := by
  cases pc <;> simp [deed, effect]

/-- Only adding makes an item exist. -/
theorem hasItem_of_effect {y : Item} {pc : Pc} (h : (pc.effect S b x).HasItem S y) :
    b.HasItem S y ∨ (pc = addItem ∧ y = x ∧ b.verdict S x = .accepted) := by
  by_cases hyx : y = x
  · subst hyx
    cases pc with
    | addTopic => exact Or.inl (Board.hasItem_addTopic.1 h)
    | remove => exact absurd h Board.not_hasItem_removeItem_self
    | addItem =>
        -- Refused, the item existed before; accepted, the turn is the one named.
        by_cases hv : b.verdict S y = .accepted
        · exact Or.inr ⟨rfl, rfl, hv⟩
        · rw [effect, Board.addItem_of_refused hv] at h
          exact Or.inl h
    | _ => exact Or.inl h
  · exact Or.inl ((Board.hasItem_of_slot_eq (slot_effect_of_ne hyx pc)).1 h)

end Pc

namespace State

variable (S : Setting Topic Item) (cast : Cast ι Item)

/-- All publishers idle, nothing done. -/
def init : State ι Topic Item :=
  { board := Board.init, pc := fun _ => .idle, round := fun _ => 0, log := [] }

/-- The turn of publisher `i` with item `x`. -/
noncomputable def turn (s : State ι Topic Item) (i : ι) (x : Item) : State ι Topic Item :=
  { board := (s.pc i).effect S s.board x
    pc := Function.update s.pc i
      ((s.pc i).next S s.board x (cast.connected i (s.round i)))
    round := if s.pc i = .confirm then Function.update s.round i (s.round i + 1) else s.round
    log := s.log ++ ((s.pc i).deed S s.board x).map fun d => ⟨i, s.round i, d⟩ }

/-- A move of bystander `i`: its round counter and the notes it may add. -/
noncomputable def pass (s : State ι Topic Item) (i : ι) (round : ℕ) (notes : List (Note ι)) :
    State ι Topic Item :=
  { s with round := Function.update s.round i round, log := s.log ++ notes }

variable {S cast} {s : State ι Topic Item} {i j : ι} {x : Item}

@[simp]
theorem turn_pc_self : (s.turn S cast i x).pc i =
    (s.pc i).next S s.board x (cast.connected i (s.round i)) := by
  simp [turn]

theorem turn_pc_of_ne (h : j ≠ i) : (s.turn S cast i x).pc j = s.pc j :=
  Function.update_of_ne h ..

theorem turn_round_of_ne (h : j ≠ i) : (s.turn S cast i x).round j = s.round j := by
  unfold turn
  split
  · exact Function.update_of_ne h ..
  · rfl

theorem turn_round_self : (s.turn S cast i x).round i =
    if s.pc i = .confirm then s.round i + 1 else s.round i := by
  unfold turn
  split <;> simp

@[simp]
theorem pass_board {round : ℕ} {notes : List (Note ι)} : (s.pass i round notes).board = s.board :=
  rfl

@[simp]
theorem pass_pc {round : ℕ} {notes : List (Note ι)} : (s.pass i round notes).pc = s.pc :=
  rfl

theorem pass_round_of_ne {round : ℕ} {notes : List (Note ι)} (h : j ≠ i) :
    (s.pass i round notes).round j = s.round j :=
  Function.update_of_ne h ..

end State

/-! ## Runs -/

/-- A publisher takes a turn, or a bystander moves. -/
inductive Step (S : Setting Topic Item) (cast : Cast ι Item) :
    State ι Topic Item → State ι Topic Item → Prop
  | turn (s : State ι Topic Item) (i : ι) (x : Item) (h : cast.item i = some x) :
      Step S cast s (s.turn S cast i x)
  | pass (s : State ι Topic Item) (i : ι) (round : ℕ) (notes : List (Note ι))
      (h : cast.item i = none) (hone : notes.length ≤ 1) (hwho : ∀ n ∈ notes, n.who = i) :
      Step S cast s (s.pass i round notes)

/-- Any number of steps. -/
abbrev Steps (S : Setting Topic Item) (cast : Cast ι Item) :
    State ι Topic Item → State ι Topic Item → Prop :=
  Relation.ReflTransGen (Step S cast)

/-- The invariant rule. -/
theorem steps_induct {S : Setting Topic Item} {cast : Cast ι Item}
    {I : State ι Topic Item → Prop} (hstep : ∀ s s', Step S cast s s' → I s → I s')
    {s s' : State ι Topic Item} (h : Steps S cast s s') (hI : I s) : I s' := by
  induction h with
  | refl => exact hI
  | tail _ hlast ih => exact hstep _ _ hlast ih

/-- A step shows at most one note.  One of a publisher is the deed of its turn, and without one
the board is left alone. -/
theorem step_log {S : Setting Topic Item} {cast : Cast ι Item} {s s' : State ι Topic Item}
    (h : Step S cast s s') :
    (s'.log = s.log ∧ s'.board = s.board) ∨
    (∃ m, s'.log = s.log ++ [m] ∧ s'.board = s.board ∧ cast.item m.who = none) ∨
    (∃ m x, s'.log = s.log ++ [m] ∧ cast.item m.who = some x ∧ s' = s.turn S cast m.who x ∧
      m.round = s.round m.who ∧ m.deed ∈ (s.pc m.who).deed S s.board x) := by
  -- A turn shows its one deed; a bystander shows a note of its own or nothing.
  cases h with
  | turn i x hx =>
      rcases Pc.deed_cases (S := S) (b := s.board) (x := x) (s.pc i) with ⟨hnone, heq⟩ | ⟨d, hd⟩
      · exact Or.inl ⟨by simp [State.turn, hnone], heq⟩
      · refine Or.inr (Or.inr ⟨⟨i, s.round i, d⟩, x, ?_, hx, rfl, rfl, ?_⟩)
        · simp [State.turn, hd]
        · simp [hd]
  | pass i round notes hi hone hwho =>
      match notes, hone with
      | [], _ => exact Or.inl ⟨by simp [State.pass], rfl⟩
      | [m], _ =>
          have hm : m.who = i := hwho m (by simp)
          exact Or.inr (Or.inl ⟨m, rfl, rfl, hm ▸ hi⟩)

/-! ## Topics are there when they are needed -/

section Invariants

variable {S : Setting Topic Item} {cast : Cast ι Item} {s s' : State ι Topic Item}

/-- The board is well formed, and a publisher that found its topic still has it. -/
structure Ready (S : Setting Topic Item) (cast : Cast ι Item) (s : State ι Topic Item) : Prop where
  board : s.board.WellFormed S
  topic : ∀ i x, cast.item i = some x → s.pc i = .browseItem ∨ s.pc i = .remove →
    s.board.HasTopic S (S.topic x)

theorem ready_init : Ready S cast State.init where
  board := Board.WellFormed.init
  topic i x _ hpc := by rcases hpc with hpc | hpc <;> cases hpc

theorem ready_step (hstep : Step S cast s s') (h : Ready S cast s) : Ready S cast s' := by
  cases hstep with
  | turn i x hx =>
      refine ⟨Pc.wellFormed_effect h.board _, ?_⟩
      intro j y hy hpc
      apply Pc.hasTopic_effect
      -- The publisher that moved has just looked; the others keep what they saw.
      by_cases hji : j = i
      · subst hji
        cases hx.symm.trans hy
        rw [State.turn_pc_self] at hpc
        rcases hpc with hpc | hpc
        · exact (Pc.of_next hpc).2.1
        · exact h.topic j x hx (Or.inl (Pc.of_next hpc).1)
      · rw [State.turn_pc_of_ne hji] at hpc
        exact h.topic j y hy hpc
  | pass i round notes hi hone hwho =>
      exact ⟨h.board, h.topic⟩

/-! ## Items that exist come back -/

/-- The item exists, or some publisher is about to add it below its topic. -/
def Settled (S : Setting Topic Item) (cast : Cast ι Item) (s : State ι Topic Item) (x : Item) :
    Prop :=
  s.board.HasItem S x ∨
    ∃ j, cast.item j = some x ∧ s.pc j = .addItem ∧ s.board.HasTopic S (S.topic x)

/-- Whoever removes an item goes on to add it, so an item stays settled. -/
theorem settled_step (hgrow : S.growable) (hstep : Step S cast s s') (h : Ready S cast s)
    {y : Item} (hy : Settled S cast s y) : Settled S cast s' y := by
  cases hstep with
  | pass i round notes hi hone hwho =>
      exact hy
  | turn i x hx =>
      rcases hy with hhas | ⟨j, hj, hpc, htopic⟩
      -- Whoever takes the item off stands before adding it afterwards.
      · by_cases hremove : s.pc i = .remove ∧ y = x
        · rcases hremove with ⟨hpc, rfl⟩
          refine Or.inr ⟨i, hx, ?_, Pc.hasTopic_effect (h.topic i y hx (Or.inr hpc)) _⟩
          rw [State.turn_pc_self, hpc]
          rfl
        · refine Or.inl (Pc.hasItem_effect hhas fun hpc hyx => hremove ⟨hpc, hyx⟩)
      -- The one about to add it either does so now or has not moved.
      · by_cases hji : j = i
        · subst hji
          cases hx.symm.trans hj
          left
          simpa only [State.turn, hpc, Pc.effect] using
            Board.hasItem_addItem_self hgrow htopic
        · refine Or.inr ⟨j, hj, ?_, Pc.hasTopic_effect htopic _⟩
          rw [State.turn_pc_of_ne hji, hpc]

/-- The run form of `settled_step`. -/
theorem settled_steps (hgrow : S.growable) (h : Ready S cast s) {y : Item}
    (hy : Settled S cast s y) (hsteps : Steps S cast s s') : Settled S cast s' y := by
  refine (steps_induct (I := fun s => Ready S cast s ∧ Settled S cast s y) ?_ hsteps ⟨h, hy⟩).2
  rintro t t' hstep ⟨hready, hsettled⟩
  exact ⟨ready_step hstep hready, settled_step hgrow hstep hready hsettled⟩

/-- No publisher is in the middle of a round. -/
def Quiescent (cast : Cast ι Item) (s : State ι Topic Item) : Prop :=
  ∀ i x, cast.item i = some x → s.pc i = .idle

/-- When no publisher moves, settled items exist. -/
theorem Settled.hasItem {y : Item} (h : Settled S cast s y) (hq : Quiescent cast s) :
    s.board.HasItem S y := by
  rcases h with hhas | ⟨j, hj, hpc, -⟩
  · exact hhas
  · cases (hq j y hj).symm.trans hpc

end Invariants

end Billboard
