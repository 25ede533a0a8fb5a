import Mathlib.Logic.Relation

/-!
# Following — programs whose effect is a row of steps

A program reads a state and either fails or returns something that holds the state behind it.  It
*follows* a step relation when it does not fail and gets to that state in steps of the relation.

- `Follows step s f m Q` : `m` does not fail, its result `r` is such that `Q r`, and the steps lead
  from `s` to `f r`,
- `pure`, `head`, `bind` : the rules to put programs together,
- `invariant_of_steps`   : what every step keeps, rows of steps keep.
-/

namespace Interaction

open Relation

variable {σ α β : Type} {step : σ → σ → Prop}

/-- The program does not fail, and its effect is a row of steps. -/
def Follows (step : σ → σ → Prop) (s : σ) (f : α → σ) (m : Option α) (Q : α → Prop) : Prop :=
  ∃ r, m = some r ∧ ReflTransGen step s (f r) ∧ Q r

/-- What every step keeps, rows of steps keep. -/
theorem invariant_of_steps {I : σ → Prop} (hI : ∀ s s', step s s' → I s → I s') {s s' : σ}
    (h : ReflTransGen step s s') (hs : I s) : I s' := by
  induction h with
  | refl => exact hs
  | tail _ hlast ih => exact hI _ _ hlast ih

namespace Follows

variable {s : σ} {f : α → σ} {g : β → σ} {m : Option α} {Q R : α → Prop}

/-- Nothing is done. -/
theorem pure {r : α} (hf : f r = s) (hQ : Q r) : Follows step s f (some r) Q :=
  ⟨r, rfl, by rw [hf], hQ⟩

/-- One step is done. -/
theorem one {r : α} (hstep : step s (f r)) (hQ : Q r) : Follows step s f (some r) Q :=
  ⟨r, rfl, .single hstep, hQ⟩

/-- A step, and then the rest. -/
theorem head {s' : σ} (hstep : step s s') (h : Follows step s' f m Q) : Follows step s f m Q := by
  rcases h with ⟨r, hm, hsteps, hQ⟩
  exact ⟨r, hm, hsteps.head hstep, hQ⟩

/-- One program after the other. -/
theorem bind {k : α → Option β} {T : β → Prop} (h : Follows step s f m Q)
    (hk : ∀ r, ReflTransGen step s (f r) → Q r → Follows step (f r) g (k r) T) :
    Follows step s g (m.bind k) T := by
  rcases h with ⟨r, hm, hsteps, hQ⟩
  rcases hk r hsteps hQ with ⟨r', hk', hsteps', hT⟩
  exact ⟨r', by rw [hm]; exact hk', hsteps.trans hsteps', hT⟩

/-- A weaker condition. -/
theorem mono (h : Follows step s f m Q) (hQ : ∀ r, Q r → R r) : Follows step s f m R := by
  rcases h with ⟨r, hm, hsteps, hr⟩
  exact ⟨r, hm, hsteps, hQ r hr⟩

end Follows

end Interaction
