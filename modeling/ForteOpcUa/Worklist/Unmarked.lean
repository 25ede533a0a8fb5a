import Mathlib.Logic.Relation
import Mathlib.Tactic.Common

/-!
# Unmarked — a worklist without marks

The objects of a queue are visited in their order, and the successors of each are put at the end of
the queue.  Nothing remembers what was visited before.

- `explore`                 : the visits, as far as the fuel goes,
- `exists_explore_iff`      : the queue runs empty exactly when no chain of successors is endless,
- `mem_explore`             : what is visited is what can be reached.
-/

namespace ForteOpcUa

namespace Worklist

variable {α : Type} {next : α → List α}

/-- The visits to the objects of a queue. -/
def explore (next : α → List α) : ℕ → List α → Option (List α)
  | _, [] => some []
  | 0, _ :: _ => none
  | fuel + 1, x :: queue => (explore next fuel (queue ++ next x)).map (x :: ·)

@[simp] theorem explore_nil (fuel : ℕ) : explore next fuel [] = some [] := by
  cases fuel <;> rfl

/-- How many visits a queue takes. -/
inductive Visits (next : α → List α) : List α → ℕ → Prop
  | nil : Visits next [] 0
  | cons {x : α} {xs : List α} {m n : ℕ} (hx : Visits next (next x) m) (hxs : Visits next xs n) :
      Visits next (x :: xs) (m + n + 1)

theorem Visits.append {xs ys : List α} {m n : ℕ} (hxs : Visits next xs m) (hys : Visits next ys n) :
    Visits next (xs ++ ys) (m + n) := by
  induction hxs with
  | nil => rwa [Nat.zero_add]
  | cons hx _ _ ih =>
      have h := Visits.cons hx ih
      rwa [← Nat.add_assoc, Nat.add_right_comm _ n 1] at h

/-- So much fuel is enough. -/
theorem Visits.explore {queue : List α} {n : ℕ} (h : Visits next queue n) :
    ∃ visited, explore next n queue = some visited := by
  induction n generalizing queue with
  | zero =>
      cases h
      exact ⟨[], rfl⟩
  | succ n ih =>
      cases h with
      | @cons x xs k l hx hxs =>
          have hrest := hxs.append hx
          rw [Nat.add_comm] at hrest
          rcases ih hrest with ⟨visited, hvisited⟩
          exact ⟨x :: visited, by rw [Worklist.explore, hvisited]; rfl⟩

theorem visits_of_forall {xs : List α} (h : ∀ x ∈ xs, ∃ n, Visits next (next x) n) :
    ∃ n, Visits next xs n := by
  induction xs with
  | nil => exact ⟨0, .nil⟩
  | cons x xs ih =>
      rcases h x List.mem_cons_self with ⟨m, hx⟩
      rcases ih fun y hy => h y (List.mem_cons_of_mem x hy) with ⟨n, hxs⟩
      exact ⟨m + n + 1, .cons hx hxs⟩

theorem visits_of_acc {x : α} (h : Acc (fun y x => y ∈ next x) x) : ∃ n, Visits next (next x) n := by
  induction h with
  | intro x _ ih => exact visits_of_forall ih

theorem acc_of_explore {queue visited : List α} {fuel : ℕ}
    (h : explore next fuel queue = some visited) :
    ∀ x ∈ queue, Acc (fun y x => y ∈ next x) x := by
  induction fuel generalizing queue visited with
  | zero =>
      cases queue with
      | nil => simp
      | cons => cases h
  | succ fuel ih =>
      cases queue with
      | nil => simp
      | cons x queue =>
          rcases Option.map_eq_some_iff.1 h with ⟨rest, hrest, _⟩
          have hacc := ih hrest
          intro y hy
          rcases List.mem_cons.1 hy with rfl | hy
          · exact .intro y fun z hz => hacc z (List.mem_append_right queue hz)
          · exact hacc y (List.mem_append_left (next x) hy)

/-- **The queue runs empty exactly when no chain of successors is endless.** -/
theorem exists_explore_iff {queue : List α} :
    (∃ fuel visited, explore next fuel queue = some visited) ↔
      ∀ x ∈ queue, Acc (fun y x => y ∈ next x) x := by
  constructor
  · rintro ⟨fuel, visited, h⟩
    exact acc_of_explore h
  · intro h
    rcases visits_of_forall fun x hx => visits_of_acc (h x hx) with ⟨n, hn⟩
    exact ⟨n, hn.explore⟩

/-- **What is visited is what can be reached.** -/
theorem mem_explore {queue visited : List α} {fuel : ℕ}
    (h : explore next fuel queue = some visited) {y : α} :
    y ∈ visited ↔ ∃ x ∈ queue, Relation.ReflTransGen (fun x y => y ∈ next x) x y := by
  induction fuel generalizing queue visited with
  | zero =>
      cases queue with
      | nil =>
          cases h
          simp
      | cons => cases h
  | succ fuel ih =>
      cases queue with
      | nil =>
          cases h
          simp
      | cons x queue =>
          rcases Option.map_eq_some_iff.1 h with ⟨rest, hrest, rfl⟩
          rw [List.mem_cons, ih hrest]
          constructor
          · rintro (rfl | ⟨z, hz, hreach⟩)
            · exact ⟨y, List.mem_cons_self, .refl⟩
            · rcases List.mem_append.1 hz with hz | hz
              · exact ⟨z, List.mem_cons_of_mem x hz, hreach⟩
              · exact ⟨x, List.mem_cons_self, .head hz hreach⟩
          · rintro ⟨z, hz, hreach⟩
            rcases List.mem_cons.1 hz with rfl | hz
            · rcases hreach.cases_head with rfl | ⟨w, hw, hreach⟩
              · exact Or.inl rfl
              · exact Or.inr ⟨w, List.mem_append_right queue hw, hreach⟩
            · exact Or.inr ⟨z, List.mem_append_left (next x) hz, hreach⟩

end Worklist

end ForteOpcUa
