import ForteOpcUa.Interaction.Prog

/-!
# Refinement — programs over a finer interface

A concrete interface can have requests that an abstract one does not show and replies that say more
than the abstract ones.  A *view* hides the former and translates the latter.

- `View C A`             : each request of `C` as a request of `A`, or hidden,
- `Implements v ok R p q`: `p` does what `q` does up to hidden requests, as long as its events
  satisfy `ok`; their results are related by `R`,
- `Implements.run`       : then every run of `p`, seen through `v`, is a run of `q`.
-/

namespace Interaction

variable {C A : Signature} {α β : Type}

/-- How the requests of `C` look at `A`: hidden, or as a request with its replies translated. -/
abbrev View (C A : Signature) : Type :=
  (o : C.Op) → Option (Σ o' : A.Op, C.Reply o → A.Reply o')

/-- An event seen through a view. -/
def View.event (v : View C A) (e : Event C) : Option (Event A) :=
  (v e.op).map fun shown => ⟨shown.1, shown.2 e.reply⟩

theorem View.event_hidden {v : View C A} {o : C.Op} (h : v o = none) (r : C.Reply o) :
    v.event ⟨o, r⟩ = none := by
  simp [View.event, h]

theorem View.event_shown {v : View C A} {o : C.Op} {o' : A.Op} {f : C.Reply o → A.Reply o'}
    (h : v o = some ⟨o', f⟩) (r : C.Reply o) : v.event ⟨o, r⟩ = some ⟨o', f r⟩ := by
  simp [View.event, h]

namespace Prog

/-- `p` matches `q` request by request, hidden ones apart, for replies that satisfy `ok`. -/
inductive Implements (v : View C A) (ok : Event C → Prop) (R : α → β → Prop) :
    Prog C α → Prog A β → Prop
  | ret {a : α} {b : β} : R a b → Implements v ok R (.ret a) (.ret b)
  | hidden {o : C.Op} {next : C.Reply o → Prog C α} {q : Prog A β} :
      v o = none → (∀ r, ok ⟨o, r⟩ → Implements v ok R (next r) q) →
        Implements v ok R (.call o next) q
  | shown {o : C.Op} {o' : A.Op} {f : C.Reply o → A.Reply o'} {next : C.Reply o → Prog C α}
      {next' : A.Reply o' → Prog A β} :
      v o = some ⟨o', f⟩ → (∀ r, ok ⟨o, r⟩ → Implements v ok R (next r) (next' (f r))) →
        Implements v ok R (.call o next) (.call o' next')

/-- A branch that both programs take on one condition. -/
theorem Implements.ite {v : View C A} {ok : Event C → Prop} {R : α → β → Prop}
    {p p' : Prog C α} {q q' : Prog A β} {c : Prop} [Decidable c]
    (h : c → Implements v ok R p q) (h' : ¬ c → Implements v ok R p' q') :
    Implements v ok R (if c then p else p') (if c then q else q') := by
  by_cases hc : c
  · rw [if_pos hc, if_pos hc]
    exact h hc
  · rw [if_neg hc, if_neg hc]
    exact h' hc

/-- The runs of an implementation are runs of the program it implements. -/
theorem Implements.run {v : View C A} {ok : Event C → Prop} {R : α → β → Prop} {p : Prog C α}
    {q : Prog A β} (h : Implements v ok R p q) {tr : List (Event C)} {a : α} (hrun : Run p tr a)
    (hok : ∀ e ∈ tr, ok e) : ∃ b, R a b ∧ Run q (tr.filterMap v.event) b := by
  -- Induction on the matching: a hidden request leaves no event, a shown one its image.
  induction h generalizing tr a with
  | @ret a' b hR =>
      rcases run_ret_iff.1 hrun with ⟨rfl, rfl⟩
      exact ⟨b, hR, Run.ret b⟩
  | hidden hv _ ih =>
      rcases run_call_iff.1 hrun with ⟨r, rest, rfl, hrest⟩
      rcases ih r (hok _ (by simp)) hrest fun e he => hok e (by simp [he]) with ⟨b, hR, hb⟩
      refine ⟨b, hR, ?_⟩
      rwa [List.filterMap_cons_none (View.event_hidden hv r)]
  | @shown o o' f next next' hv _ ih =>
      rcases run_call_iff.1 hrun with ⟨r, rest, rfl, hrest⟩
      rcases ih r (hok _ (by simp)) hrest fun e he => hok e (by simp [he]) with ⟨b, hR, hb⟩
      refine ⟨b, hR, ?_⟩
      rw [List.filterMap_cons_some (View.event_shown hv r)]
      exact Run.call o' next' (f r) _ b hb

end Prog

end Interaction
