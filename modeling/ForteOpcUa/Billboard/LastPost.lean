import ForteOpcUa.Billboard.Convergence
import ForteOpcUa.Interaction.History

/-!
# LastPost — which post of an item is the one that stays

Racing publishers of one item cannot lose it, but one of them can find it posted already when it
comes to add it.  The history tells what happened then: since that publisher looked at the list of
topics, another one has added the same item.  And the item that is there is the one that was
accepted last.
-/

namespace Billboard

open Classical
open Interaction

variable {ι Topic Item : Type}

/-- Item `x` was added. -/
def Note.Adds (cast : Cast ι Item) (x : Item) (n : Note ι) : Prop :=
  cast.item n.who = some x ∧ n.deed = .added .accepted

/-- Item `x` was taken off. -/
def Note.Removes (cast : Cast ι Item) (x : Item) (n : Note ι) : Prop :=
  cast.item n.who = some x ∧ n.deed = .removed true

/-- Since publisher `i` looked at the topics in round `r`, another one has added item `x`. -/
def Overtaken (cast : Cast ι Item) (i : ι) (r : ℕ) (x : Item) (log : List (Note ι)) : Prop :=
  ∃ pre post, log = pre ++ ⟨i, r, .looked⟩ :: post ∧ ∃ n ∈ post, n.who ≠ i ∧ n.Adds cast x

/-- An attempt to add an item was accepted, or it came after another one of the same item. -/
def Accounted (cast : Cast ι Item) (log : List (Note ι)) (n : Note ι) : Prop :=
  ∀ x v, cast.item n.who = some x → n.deed = .added v →
    v = .accepted ∨ (v = .existing ∧ Overtaken cast n.who n.round x log)

/-- The publisher has looked at the topics and has yet to add its item. -/
def Pc.Acting : Pc → Prop
  | addTopic => True
  | browseItem => True
  | remove => True
  | addItem => True
  | _ => False

section History

variable {S : Setting Topic Item} {cast : Cast ι Item} {s s' : State ι Topic Item}

/-! ## What happened since a publisher looked -/

/-- The publisher's look is in the history, and if its item is there when it is about to add it
another one has added it since. -/
def LookedAt (S : Setting Topic Item) (cast : Cast ι Item) (s : State ι Topic Item) (i : ι)
    (x : Item) : Prop :=
  ∃ pre post, s.log = pre ++ ⟨i, s.round i, .looked⟩ :: post ∧
    (s.pc i = .addTopic ∨ s.pc i = .addItem → s.board.HasItem S x →
      ∃ n ∈ post, n.who ≠ i ∧ n.Adds cast x)

/-- Every acting publisher has looked. -/
def AllLooked (S : Setting Topic Item) (cast : Cast ι Item) (s : State ι Topic Item) : Prop :=
  ∀ i x, cast.item i = some x → (s.pc i).Acting → LookedAt S cast s i x

/-- The turn of another publisher. -/
theorem lookedAt_turn_of_ne {i j : ι} {x y : Item} (hx : cast.item i = some x) (hji : j ≠ i)
    (h : LookedAt S cast s j y) : LookedAt S cast (s.turn S cast i x) j y := by
  rcases h with ⟨pre, post, hlog, hsince⟩
  refine ⟨pre, post ++ ((s.pc i).deed S s.board x).map fun d => ⟨i, s.round i, d⟩, ?_, ?_⟩
  · rw [State.turn_round_of_ne hji]
    simp [State.turn, hlog]
  · rw [State.turn_pc_of_ne hji]
    intro hpc hhas
    -- Either the item was there before, or this turn is the other addition.
    rcases Pc.hasItem_of_effect hhas with hold | ⟨hadd, rfl, hv⟩
    · rcases hsince hpc hold with ⟨n, hn, hother⟩
      exact ⟨n, List.mem_append_left _ hn, hother⟩
    · refine ⟨⟨i, s.round i, .added .accepted⟩, ?_, hji.symm, hx, rfl⟩
      simp [hadd, Pc.deed, hv]

/-- The publisher's own turn: what it sees tells whether its item is there. -/
theorem lookedAt_turn_self (hfresh : Fresh S cast) (hwf : s.board.WellFormed S) {i : ι} {x : Item}
    (hx : cast.item i = some x) (h : (s.pc i).Acting → LookedAt S cast s i x)
    (hacting : ((s.turn S cast i x).pc i).Acting) : LookedAt S cast (s.turn S cast i x) i x := by
  -- A turn after the look keeps it: the item is there only if it was there before the turn.
  have hkeep : ∀ {pc}, s.pc i = pc → pc.Acting → pc ≠ .confirm →
      ((s.turn S cast i x).pc i = .addTopic ∨ (s.turn S cast i x).pc i = .addItem →
        (pc.effect S s.board x).HasItem S x → pc = .addTopic ∧ s.board.HasItem S x) →
      LookedAt S cast (s.turn S cast i x) i x := by
    intro pc hpc hact hconfirm hgone
    rcases h (hpc ▸ hact) with ⟨pre, post, hlog, hsince⟩
    refine ⟨pre, post ++ ((s.pc i).deed S s.board x).map fun d => ⟨i, s.round i, d⟩, ?_, ?_⟩
    · rw [State.turn_round_self, if_neg (hpc ▸ hconfirm)]
      simp [State.turn, hlog]
    · intro hnext hhas
      rcases hgone hnext (by simpa [State.turn, hpc] using hhas) with ⟨rfl, hold⟩
      rcases hsince (Or.inl hpc) hold with ⟨n, hn, hother⟩
      exact ⟨n, List.mem_append_left _ hn, hother⟩
  -- The look itself starts the record, with nothing after it yet.
  have hlook : s.pc i = .browse → ((s.turn S cast i x).pc i = .addTopic ∨
      (s.turn S cast i x).pc i = .addItem → ¬ s.board.HasItem S x) →
      LookedAt S cast (s.turn S cast i x) i x := by
    intro hpc hnone
    refine ⟨s.log, [], ?_, ?_⟩
    · rw [State.turn_round_self, if_neg (by simp [hpc])]
      simp [State.turn, hpc, Pc.deed]
    · intro hnext hhas
      exact absurd (by simpa [State.turn, hpc, Pc.effect] using hhas) (hnone hnext)
  rw [State.turn_pc_self] at hacting hkeep hlook
  -- Which of the two it is shows in where the publisher stands afterwards.
  cases hnext : (s.pc i).next S s.board x (cast.connected i (s.round i)) with
  | addTopic =>
      rcases Pc.of_next hnext with ⟨hbrowse, hnot⟩
      -- A topic that was not found has no item below it.
      exact hlook hbrowse fun _ hhas => hnot (hfresh.findsTopic hx (hfresh.hasTopic hwf hx hhas))
  | browseItem =>
      exact hlook (Pc.of_next hnext).1 fun hadd => by simp [hnext] at hadd
  | remove =>
      exact hkeep (Pc.of_next hnext).1 trivial (by simp) fun hadd => by simp [hnext] at hadd
  | addItem =>
      rcases Pc.of_next hnext with hadd | ⟨hbrowse, hnot⟩ | hremove
      · exact hkeep hadd trivial (by simp) fun _ hhas => ⟨rfl, Board.hasItem_addTopic.1 hhas⟩
      -- What was looked for and not found does not exist.
      · exact hkeep hbrowse trivial (by simp) fun _ hhas =>
          absurd (hfresh.findsItem hwf hx hhas) hnot
      · exact hkeep hremove trivial (by simp) fun _ hhas =>
          absurd hhas Board.not_hasItem_removeItem_self
  | _ =>
      rw [hnext] at hacting
      exact hacting.elim

theorem allLooked_step (hfresh : Fresh S cast) (hstep : Step S cast s s')
    (hready : Ready S cast s) (h : AllLooked S cast s) : AllLooked S cast s' := by
  intro j y hy hacting
  cases hstep with
  | pass i round notes hi hone hwho =>
      have hji : j ≠ i := Cast.ne_of_item hi hy
      rcases h j y hy hacting with ⟨pre, post, hlog, hsince⟩
      refine ⟨pre, post ++ notes, ?_, ?_⟩
      · rw [State.pass_round_of_ne hji]
        simp [State.pass, hlog]
      · intro hpc hhas
        rcases hsince hpc hhas with ⟨n, hn, hother⟩
        exact ⟨n, List.mem_append_left _ hn, hother⟩
  | turn i x hx =>
      by_cases hji : j = i
      · subst hji
        cases hx.symm.trans hy
        exact lookedAt_turn_self hfresh hready.board hx (h j _ hx) hacting
      · rw [State.turn_pc_of_ne hji] at hacting
        exact lookedAt_turn_of_ne hx hji (h j y hy hacting)

/-! ## What each attempt to add came to -/

theorem accounted_step (hfresh : Fresh S cast) (hstep : Step S cast s s')
    (hconv : Converging S cast s) (hlooked : AllLooked S cast s)
    (h : Preceded (Accounted cast) s.log) : Preceded (Accounted cast) s'.log := by
  rcases step_log hstep with ⟨hlog, -⟩ | ⟨m, hlog, -, hnone⟩ | ⟨m, x, hlog, hx, -, hround, hdeed⟩
  · rw [hlog]
    exact h
  · rw [hlog]
    refine h.append fun y v hy _ => ?_
    cases hnone.symm.trans hy
  · rw [hlog]
    refine h.append fun y v hy hv => ?_
    cases hx.symm.trans hy
    rw [hv, Pc.mem_deed_added] at hdeed
    rcases hdeed with ⟨hadd, rfl⟩
    have hplace : S.growable ∧ s.board.HasTopic S (S.topic x) :=
      ⟨hfresh.growable, hconv.shelved m.who x hx hadd⟩
    -- The topic stands, so a refusal means that the item is there: someone else added it.
    by_cases hhas : s.board.HasItem S x
    · rcases hlooked m.who x hx (by rw [hadd]; trivial) with ⟨pre, post, hpre, hsince⟩
      refine Or.inr ⟨Board.verdict_eq_existing.2 ⟨hplace, hhas⟩, pre, post, ?_, ?_⟩
      · rw [hround]
        exact hpre
      · exact hsince (Or.inr hadd) hhas
    · exact Or.inl (Board.verdict_eq_accepted.2 ⟨hplace, hhas⟩)

/-! ## Rounds that were confirmed -/

/-- A publisher that has added its item and, later, confirmed has its attempt in the history. -/
structure Attempted (cast : Cast ι Item) (s : State ι Topic Item) : Prop where
  acted : ∀ i x, cast.item i = some x →
    s.pc i = .disconnect ∨ s.pc i = .release ∨
      (s.pc i = .confirm ∧ cast.connected i (s.round i)) →
    ∃ v, ⟨i, s.round i, .added v⟩ ∈ s.log
  confirmed : ∀ i x r, cast.item i = some x → ⟨i, r, .confirmed⟩ ∈ s.log →
    cast.connected i r → ∃ v, ⟨i, r, .added v⟩ ∈ s.log

theorem attempted_init : Attempted cast (State.init : State ι Topic Item) where
  acted i x _ hpc := by rcases hpc with hpc | hpc | ⟨hpc, -⟩ <;> cases hpc
  confirmed i x r _ hmem := by cases hmem

theorem attempted_turn_self {i : ι} {x : Item} (hx : cast.item i = some x)
    (h : Attempted cast s)
    (hpc : (s.turn S cast i x).pc i = .disconnect ∨ (s.turn S cast i x).pc i = .release ∨
      ((s.turn S cast i x).pc i = .confirm ∧
        cast.connected i ((s.turn S cast i x).round i))) :
    ∃ v, ⟨i, (s.turn S cast i x).round i, .added v⟩ ∈ (s.turn S cast i x).log := by
  have hold : ∀ {v}, ⟨i, s.round i, .added v⟩ ∈ s.log →
      ⟨i, s.round i, .added v⟩ ∈ (s.turn S cast i x).log :=
    fun hmem => List.mem_append_left _ hmem
  -- Only the turn that adds writes the note; the two after it find it in the log.
  simp only [State.turn_pc_self, State.turn_round_self] at hpc ⊢
  rcases hpc with hpc | hpc | ⟨hpc, hconn⟩
  · have hadd := Pc.of_next hpc
    refine ⟨s.board.verdict S x, ?_⟩
    simp [State.turn, hadd, Pc.deed]
  · have hdisconnect := Pc.of_next hpc
    rw [if_neg (by simp [hdisconnect])]
    rcases h.acted i x hx (Or.inl hdisconnect) with ⟨v, hv⟩
    exact ⟨v, hold hv⟩
  · rcases Pc.of_next hpc with hrelease | ⟨hidle, hnot⟩
    · rw [if_neg (by simp [hrelease])]
      rcases h.acted i x hx (Or.inr (Or.inl hrelease)) with ⟨v, hv⟩
      exact ⟨v, hold hv⟩
    · rw [if_neg (by simp [hidle])] at hconn
      exact absurd hconn hnot

theorem attempted_step (hstep : Step S cast s s') (h : Attempted cast s) :
    Attempted cast s' := by
  -- Notes are never struck out.
  have hgrow : ∀ n ∈ s.log, n ∈ s'.log := by
    intro n hn
    rcases step_log hstep with ⟨hlog, -⟩ | ⟨m, hlog, -⟩ | ⟨m, x, hlog, -⟩ <;> simp [hlog, hn]
  refine ⟨?_, ?_⟩
  · intro j y hy hpc
    cases hstep with
    | pass i round notes hi hone hwho =>
        have hji : j ≠ i := Cast.ne_of_item hi hy
        rw [State.pass_pc, State.pass_round_of_ne hji] at hpc
        rw [State.pass_round_of_ne hji]
        rcases h.acted j y hy hpc with ⟨v, hv⟩
        exact ⟨v, hgrow _ hv⟩
    | turn i x hx =>
        by_cases hji : j = i
        · subst hji
          cases hx.symm.trans hy
          exact attempted_turn_self hx h hpc
        · rw [State.turn_pc_of_ne hji, State.turn_round_of_ne hji] at hpc
          rw [State.turn_round_of_ne hji]
          rcases h.acted j y hy hpc with ⟨v, hv⟩
          exact ⟨v, hgrow _ hv⟩
  · intro j y r hy hmem hconn
    have hbefore : ⟨j, r, .confirmed⟩ ∈ s.log → ∃ v, ⟨j, r, .added v⟩ ∈ s'.log := by
      intro hold
      rcases h.confirmed j y r hy hold hconn with ⟨v, hv⟩
      exact ⟨v, hgrow _ hv⟩
    rcases step_log hstep with ⟨hlog, -⟩ | ⟨m, hlog, -, hnone⟩ | ⟨m, x, hlog, hx, -, hround, hdeed⟩
    · exact hbefore (hlog ▸ hmem)
    · rw [hlog] at hmem
      rcases List.mem_append.1 hmem with hold | hnew
      · exact hbefore hold
      · rw [← List.mem_singleton.1 hnew] at hnone
        cases hnone.symm.trans hy
    · rw [hlog] at hmem
      rcases List.mem_append.1 hmem with hold | hnew
      · exact hbefore hold
      · rw [← List.mem_singleton.1 hnew] at hround hdeed
        have hconfirm := Pc.mem_deed_confirmed.1 hdeed
        have hr : r = s.round j := hround
        subst hr
        rcases h.acted j y hy (Or.inr (Or.inr ⟨hconfirm, hconn⟩)) with ⟨v, hv⟩
        exact ⟨v, hgrow _ hv⟩

/-! ## The post that stays -/

/-- An item that exists was added, and neither added nor taken off since. -/
def LastPosted (S : Setting Topic Item) (cast : Cast ι Item) (s : State ι Topic Item) : Prop :=
  ∀ i x, cast.item i = some x → s.board.HasItem S x →
    Latest (Note.Adds cast x) (fun n => n.Adds cast x ∨ n.Removes cast x) s.log

theorem lastPosted_step (hstep : Step S cast s s') (h : LastPosted S cast s) :
    LastPosted S cast s' := by
  intro j y hy hhas
  rcases step_log hstep with ⟨hlog, hboard⟩ | ⟨m, hlog, hboard, hnone⟩ |
    ⟨m, x, hlog, hx, hturn, -, hdeed⟩
  · rw [hlog]
    exact h j y hy (hboard ▸ hhas)
  · rw [hlog]
    refine (h j y hy (hboard ▸ hhas)).append fun n hn => ?_
    rw [List.mem_singleton.1 hn]
    rintro (⟨hitem, -⟩ | ⟨hitem, -⟩) <;> cases hnone.symm.trans hitem
  · rw [hlog]
    -- An addition of this item is the latest; any other note leaves the item as it was.
    by_cases hadds : m.Adds cast y
    · exact latest_append_self hadds
    · have hnot : ¬ m.Removes cast y := by
        rintro ⟨hitem, hremoved⟩
        cases hx.symm.trans hitem
        rw [hremoved, Pc.mem_deed_removed] at hdeed
        rw [hturn] at hhas
        simp only [State.turn, hdeed.1, Pc.effect] at hhas
        exact Board.not_hasItem_removeItem_self hhas
      have hold : s.board.HasItem S y := by
        rw [hturn] at hhas
        rcases Pc.hasItem_of_effect hhas with hold | ⟨hadd, rfl, hv⟩
        · exact hold
        · rw [hadd] at hdeed
          simp only [Pc.deed, hv, List.mem_singleton] at hdeed
          exact absurd ⟨hx, hdeed⟩ hadds
      refine (h j y hy hold).append fun n hn => ?_
      rw [List.mem_singleton.1 hn]
      exact fun hboth => hboth.elim hadds hnot

/-! ## Whole runs -/

/-- The history of a run from the empty board. -/
structure History (S : Setting Topic Item) (cast : Cast ι Item) (s : State ι Topic Item) :
    Prop where
  converging : Converging S cast s
  looked : AllLooked S cast s
  accounted : Preceded (Accounted cast) s.log
  attempted : Attempted cast s
  last : LastPosted S cast s

theorem history_init (hfresh : Fresh S cast) : History S cast State.init where
  converging := converging_init
  looked _ _ _ hacting := hacting.elim
  accounted := preceded_nil
  attempted := attempted_init
  last i x hx hhas := absurd hhas (hfresh.item i x hx)

theorem history_steps (hfresh : Fresh S cast) (hsteps : Steps S cast State.init s) :
    History S cast s := by
  refine steps_induct ?_ hsteps (history_init hfresh)
  intro t t' hstep h
  exact ⟨converging_step hfresh hstep h.converging,
    allLooked_step hfresh hstep h.converging.ready h.looked,
    accounted_step hfresh hstep h.converging h.looked h.accounted,
    attempted_step hstep h.attempted, lastPosted_step hstep h.last⟩

/-- Every confirmed round of a publisher with something to publish has an attempt to add its item,
which was accepted or came after one of another publisher since the first looked. -/
theorem History.attempt (h : History S cast s) {i : ι} {x : Item} {r : ℕ}
    (hx : cast.item i = some x) (hconn : cast.connected i r)
    (hmem : ⟨i, r, .confirmed⟩ ∈ s.log) :
    ∃ pre v post, s.log = pre ++ ⟨i, r, .added v⟩ :: post ∧
      (v = .accepted ∨ (v = .existing ∧ Overtaken cast i r x pre)) := by
  rcases h.attempted.confirmed i x r hx hmem hconn with ⟨v, hv⟩
  rcases List.append_of_mem hv with ⟨pre, post, hlog⟩
  exact ⟨pre, v, post, hlog, h.accounted pre _ post hlog x v hx rfl⟩

end History

end Billboard
