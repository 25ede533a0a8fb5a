import Mathlib.Tactic.TypeStar

/-!
# Labelled — runs of a labelled step relation

- `Trace step s ls s'`  : a run from `s` to `s'` whose labels are `ls`,
- `Trace.split`         : a run can be cut anywhere,
- `Trace.simulate`      : what simulates each step has all the traces.
-/

namespace Interaction

variable {σ τ ℓ : Type}

/-- A run of the step relation with its labels. -/
inductive Trace (step : σ → ℓ → σ → Prop) : σ → List ℓ → σ → Prop
  | nil (s : σ) : Trace step s [] s
  | cons {s s' s'' : σ} {l : ℓ} {ls : List ℓ} :
      step s l s' → Trace step s' ls s'' → Trace step s (l :: ls) s''

namespace Trace

variable {step : σ → ℓ → σ → Prop}

/-- A run cut in two. -/
theorem split {s s'' : σ} {ls ls' : List ℓ} (h : Trace step s (ls ++ ls') s'') :
    ∃ s', Trace step s ls s' ∧ Trace step s' ls' s'' := by
  induction ls generalizing s with
  | nil => exact ⟨s, nil s, h⟩
  | cons l ls ih =>
      rcases h with _ | ⟨hl, htail⟩
      rcases ih htail with ⟨s', hfirst, hsecond⟩
      exact ⟨s', cons hl hfirst, hsecond⟩

/-- A relation that matches every step with an allowed label matches every run. -/
theorem simulate {spec : τ → ℓ → τ → Prop} {R : σ → τ → Prop} {P : σ → ℓ → Prop}
    (hstep : ∀ s l s' t, R s t → P s l → step s l s' → ∃ t', spec t l t' ∧ R s' t') {s s' : σ}
    {ls : List ℓ} (h : Trace (fun s l s' => P s l ∧ step s l s') s ls s') {t : τ} (hR : R s t) :
    ∃ t', Trace spec t ls t' ∧ R s' t' := by
  induction h generalizing t with
  | nil s => exact ⟨t, nil t, hR⟩
  | cons hl _ ih =>
      rcases hstep _ _ _ t hR hl.1 hl.2 with ⟨t', hspec, hR'⟩
      rcases ih hR' with ⟨t'', htrace, hR''⟩
      exact ⟨t'', cons hspec htrace, hR''⟩

end Trace

end Interaction
