import Mathlib.Data.List.Infix
import ForteOpcUa.Interaction.Monitor
import ForteOpcUa.Interaction.Refinement

/-!
# Hazard — traces that may break off

Some events are *hazards*: the language does not say what happens, and the program may end there.
Whether an event is one can depend on those before it.

- `Seen hazard tr seen`     : `seen` is the trace `tr`, or the part of it up to a hazard,
- `Breaks hazard seen`      : the last event is a hazard,
- `Monitor.Guards M q p`    : whatever the replies, the monitor accepts every event of `p`,
- `Monitor.behind`          : a monitor of the abstract interface, reading concrete events.
-/

namespace Interaction

/-! ## Traces up to a hazard -/

section Seen

variable {E : Type} {hazard : List E → E → Prop} {tr seen : List E}

/-- What is seen of a trace: all of it, or what comes up to a hazard and the hazard itself. -/
inductive Seen (hazard : List E → E → Prop) (tr : List E) : List E → Prop
  | whole : Seen hazard tr tr
  | broken {past rest : List E} {e : E} :
      tr = past ++ e :: rest → hazard past e → Seen hazard tr (past ++ [e])

/-- The last event is a hazard. -/
def Breaks (hazard : List E → E → Prop) (seen : List E) : Prop :=
  ∃ past e, seen = past ++ [e] ∧ hazard past e

theorem Seen.isPrefix (h : Seen hazard tr seen) : seen <+: tr := by
  cases h with
  | whole =>
      exact List.prefix_refl tr
  | @broken past rest e htr _ =>
      exact ⟨rest, by rw [htr, List.append_assoc]; rfl⟩

theorem Seen.eq_or_breaks (h : Seen hazard tr seen) : seen = tr ∨ Breaks hazard seen := by
  cases h with
  | whole =>
      exact Or.inl rfl
  | @broken past rest e _ hazard =>
      exact Or.inr ⟨past, e, rfl, hazard⟩

/-- A trace that does not end with a hazard has come to its end. -/
theorem Seen.eq_of_not_breaks (h : Seen hazard tr seen) (hb : ¬ Breaks hazard seen) : seen = tr :=
  h.eq_or_breaks.resolve_right hb

/-- An event that is never a hazard is no break. -/
theorem not_breaks_of_getLast {e : E} (hlast : seen.getLast? = some e)
    (he : ∀ past, ¬ hazard past e) : ¬ Breaks hazard seen := by
  rintro ⟨past, e', rfl, hhazard⟩
  rw [List.getLast?_concat, Option.some.injEq] at hlast
  exact he past (hlast ▸ hhazard)

end Seen

/-! ## Programs that keep an order -/

namespace Monitor

variable {S C A : Signature} {Q α : Type} (M : Monitor (Event S) Q)

open Prog

/-- Whatever the replies, the monitor accepts every event of the program. -/
def Guards (M : Monitor (Event S) Q) : Q → Prog S α → Prop
  | _, .ret _ => True
  | q, .call o next => ∀ r, ∃ q', M.next q ⟨o, r⟩ = some q' ∧ M.Guards q' (next r)

@[simp]
theorem guards_ret (q : Q) (a : α) : M.Guards q (.ret a) :=
  trivial

theorem guards_ite {q : Q} {c : Prop} [Decidable c] {p p' : Prog S α} (h : c → M.Guards q p)
    (h' : ¬ c → M.Guards q p') : M.Guards q (if c then p else p') := by
  split
  · exact h ‹_›
  · exact h' ‹_›

/-- Also a trace that breaks off is in order. -/
theorem Guards.run_prefix {M : Monitor (Event S) Q} {q : Q} {p : Prog S α} (h : M.Guards q p)
    {tr seen : List (Event S)} {a : α} (hrun : Run p tr a) (hseen : seen <+: tr) :
    ∃ q', M.run q seen = some q' := by
  -- Induction on the run; each event it shows is one that the monitor accepts.
  induction hrun generalizing q seen with
  | ret a =>
      rw [List.prefix_nil] at hseen
      exact ⟨q, by rw [hseen, run_nil]⟩
  | call o next r tr a _ ih =>
      rcases h r with ⟨q', hnext, hrest⟩
      cases seen with
      | nil =>
          exact ⟨q, M.run_nil q⟩
      | cons e seen =>
          rw [List.cons_prefix_cons] at hseen
          rcases hseen with ⟨rfl, hseen⟩
          rcases ih hrest hseen with ⟨q'', hrun⟩
          exact ⟨q'', by rw [run_cons, hnext, Option.bind_some, hrun]⟩

/-- The monitor behind a view: hidden events leave it as it is. -/
def behind (M : Monitor (Event A) Q) (v : View C A) : Monitor (Event C) Q where
  next q e :=
    match v.event e with
    | some e' => M.next q e'
    | none => some q

theorem run_behind (M : Monitor (Event A) Q) (v : View C A) (q : Q) (tr : List (Event C)) :
    (M.behind v).run q tr = M.run q (tr.filterMap v.event) := by
  induction tr generalizing q with
  | nil =>
      rfl
  | cons e tr ih =>
      cases hv : v.event e with
      | none =>
          simp [List.filterMap_cons_none hv, behind, hv, ← ih]
      | some e' =>
          simp [List.filterMap_cons_some hv, behind, hv, ← ih]

end Monitor

end Interaction
