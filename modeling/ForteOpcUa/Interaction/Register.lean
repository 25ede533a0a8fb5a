import Mathlib.Data.List.Basic

/-!
# Register — a value carried through traces and sampled at marked events

A *register* changes its value at some events and keeps it at the others.  An observer samples it
at marked events, and the last sample of a trace is what he is left with.

- `held`, `lastSample` : the value after a trace, and the last sample taken in it,
- `lastSamples`        : the last samples of a list of traces, the value carried from one to the
  next,
- `lastSamples_eq`     : if every trace resets the register, they do not depend on that value.
-/

namespace Interaction

/-- A value that events may replace. -/
structure Register (E V : Type) where
  write : V → E → V

namespace Register

variable {E V : Type} (R : Register E V) (marked : E → Bool)

/-- The value after a trace. -/
def held (v : V) (tr : List E) : V :=
  tr.foldl R.write v

/-- The value right after the last marked event of a trace, if there is one. -/
def lastSample : V → List E → Option V
  | _, [] => none
  | v, e :: tr =>
      (lastSample (R.write v e) tr).or (if marked e then some (R.write v e) else none)

/-- The last samples of traces that follow each other. -/
def lastSamples : V → List (List E) → List (Option V)
  | _, [] => []
  | v, tr :: trs => R.lastSample marked v tr :: lastSamples (R.held v tr) trs

@[simp]
theorem held_nil (v : V) : R.held v [] = v :=
  rfl

@[simp]
theorem held_cons (v : V) (e : E) (tr : List E) :
    R.held v (e :: tr) = R.held (R.write v e) tr :=
  rfl

@[simp]
theorem held_append (v : V) (tr tr' : List E) :
    R.held v (tr ++ tr') = R.held (R.held v tr) tr' := by
  simp [held]

variable {marked}

/-- A trace that ends with a marked event leaves a sample of what is held then. -/
theorem lastSample_concat {e : E} (h : marked e = true) (v : V) (tr : List E) :
    R.lastSample marked v (tr ++ [e]) = some (R.held v (tr ++ [e])) := by
  induction tr generalizing v with
  | nil =>
      simp [lastSample, h]
  | cons e' tr ih =>
      simp [lastSample, ih]

variable {R}

/-- If the last sample of a trace is the same whatever was held before it, the last samples of a
list of such traces are those of the traces taken singly. -/
theorem lastSamples_eq {trs : List (List E)}
    (h : ∀ tr ∈ trs, ∀ v v', R.lastSample marked v tr = R.lastSample marked v' tr) (v v' : V) :
    R.lastSamples marked v trs = trs.map (R.lastSample marked v') := by
  -- Induction on the list; what the first trace leaves is one more value to start from.
  induction trs generalizing v with
  | nil =>
      rfl
  | cons tr trs ih =>
      have hhead := h tr (by simp) v v'
      have hrest := ih (fun tr' htr' => h tr' (by simp [htr'])) (R.held v tr)
      simp [lastSamples, hhead, hrest]

end Register

end Interaction
