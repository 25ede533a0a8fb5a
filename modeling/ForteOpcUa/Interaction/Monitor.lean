import ForteOpcUa.Interaction.Prog

/-!
# Monitor — accepting traces by a partial automaton

A *monitor* reads a trace event by event and either moves to a next state or rejects.  The module
gives the run of a monitor over a list of events and two rules:

- `run_append`        : a trace is accepted in two parts,
- `acceptsBlocks_iff` : what makes one block accepted makes a list of blocks accepted, each block
  starting and ending in a good state.
-/

namespace Interaction

/-- A partial automaton over events. -/
structure Monitor (E Q : Type) where
  next : Q → E → Option Q

namespace Monitor

variable {E Q : Type} (M : Monitor E Q)

/-- The state after a whole trace, if no event of it is rejected. -/
def run (q : Q) (tr : List E) : Option Q :=
  tr.foldlM M.next q

@[simp]
theorem run_nil (q : Q) : M.run q [] = some q :=
  rfl

@[simp]
theorem run_cons (q : Q) (e : E) (tr : List E) :
    M.run q (e :: tr) = (M.next q e).bind fun q' => M.run q' tr :=
  rfl

@[simp]
theorem run_append (q : Q) (tr₁ tr₂ : List E) :
    M.run q (tr₁ ++ tr₂) = (M.run q tr₁).bind fun q' => M.run q' tr₂ := by
  simp [run, List.foldlM_append]

/-- `tr` leads from `q` to a state where `Good` holds. -/
def Accepts (Good : Q → Prop) (q : Q) (tr : List E) : Prop :=
  ∃ q', M.run q tr = some q' ∧ Good q'

/-- Every block of the trace is accepted, each from the state the previous one left. -/
def AcceptsBlocks (Good : Q → Prop) : Q → List (List E) → Prop
  | q, [] => Good q
  | q, tr :: trs => ∃ q', M.run q tr = some q' ∧ Good q' ∧ AcceptsBlocks Good q' trs

variable {M}

/-- If the trace of an item is accepted from a good state exactly when `Ok` holds of the item,
a list of items is accepted block by block exactly when `Ok` holds of all of them. -/
theorem acceptsBlocks_iff {A : Type} {trace : A → List E} {Good : Q → Prop} {Ok : A → Prop}
    (hblock : ∀ q a, Good q → (M.Accepts Good q (trace a) ↔ Ok a)) :
    ∀ (as : List A) (q : Q), Good q →
      (M.AcceptsBlocks Good q (as.map trace) ↔ ∀ a ∈ as, Ok a) := by
  intro as
  -- Induction on the items; the state between two of them is good, which is all `hblock` asks.
  induction as with
  | nil =>
      intro q hq
      simpa [AcceptsBlocks] using hq
  | cons a as ih =>
      intro q hq
      have ha := hblock q a hq
      constructor
      · rintro ⟨q', hrun, hgood, hrest⟩ a' hmem
        rcases List.mem_cons.1 hmem with rfl | hmem
        · exact ha.1 ⟨q', hrun, hgood⟩
        · exact (ih q' hgood).1 hrest a' hmem
      · intro hok
        rcases ha.2 (hok a (by simp)) with ⟨q', hrun, hgood⟩
        exact ⟨q', hrun, hgood, (ih q' hgood).2 fun a' h => hok a' (by simp [h])⟩

end Monitor

end Interaction
