import Mathlib.Data.List.Nodup
import Mathlib.Logic.Function.Basic

/-!
# Links — pointers that come in both directions

Objects point at each other.  What has to hold of the pointers in one direction is told by those in
the other:

- `Mutual f g`  : `a` points at `b` if and only if `b` points back at `a`,
- `Grouped f g` : `a` points at `b` if and only if `a` is in the list of `b`, where nothing is twice.

Both are kept by the operations on links; each comes with what it does to the two directions.
-/

namespace Pointers

variable {α β : Type}

/-- What is there behind the removal of a pointer was there before. -/
theorem of_update_none [DecidableEq α] {f : α → Option β} {x y : α} {b : β}
    (h : Function.update f x none y = some b) : y ≠ x ∧ f y = some b := by
  by_cases heq : y = x
  · subst heq
    rw [Function.update_self] at h
    cases h
  · rw [Function.update_of_ne heq] at h
    exact ⟨heq, h⟩

/-- Pointers one to one. -/
structure Mutual (f : α → Option β) (g : β → Option α) : Prop where
  iff : ∀ a b, f a = some b ↔ g b = some a

/-- Pointers many to one, with the list of the many at the one. -/
structure Grouped (f : α → Option β) (g : β → List α) : Prop where
  mem_iff : ∀ a b, a ∈ g b ↔ f a = some b
  nodup : ∀ b, (g b).Nodup

namespace Mutual

variable {f : α → Option β} {g : β → Option α}

/-- Two objects without links are linked. -/
theorem link [DecidableEq α] [DecidableEq β] (h : Mutual f g) {a : α} {b : β} (ha : f a = none) (hb : g b = none) :
    Mutual (Function.update f a (some b)) (Function.update g b (some a)) := by
  constructor
  intro a' b'
  have hiff := h.iff a' b'
  by_cases ha' : a' = a
  · subst ha'
    by_cases hb' : b' = b
    · subst hb'
      simp
    · have hne : g b' ≠ some a' := by
        intro hg
        rw [(h.iff a' b').2 hg] at ha
        cases ha
      simp [hb', hne]
      exact fun heq => hb' heq.symm
  · by_cases hb' : b' = b
    · subst hb'
      have hne : f a' ≠ some b' := by
        intro hf
        rw [(h.iff a' b').1 hf] at hb
        cases hb
      simp [ha', hne]
      exact fun heq => ha' heq.symm
    · rw [Function.update_of_ne ha', Function.update_of_ne hb']
      exact hiff

/-- What points at `b` does not any more, and `b` points nowhere. -/
theorem cut [DecidableEq β] (h : Mutual f g) (b : β) :
    Mutual (fun a => if f a = some b then none else f a) (Function.update g b none) := by
  constructor
  intro a b'
  have hiff := h.iff a b'
  by_cases hb' : b' = b
  · subst hb'
    rw [Function.update_self]
    by_cases hf : f a = some b'
    · simp [hf]
    · simp [hf]
  · rw [Function.update_of_ne hb']
    by_cases hf : f a = some b
    · have hne : g b' ≠ some a := by
        intro hg
        rw [hiff.2 hg] at hf
        exact hb' (Option.some.inj hf)
      simp [hf, hne]
    · rw [if_neg hf]
      exact hiff

/-- The same from the other end. -/
theorem swap (h : Mutual f g) : Mutual g f :=
  ⟨fun b a => (h.iff a b).symm⟩

end Mutual

namespace Grouped

variable {f : α → Option β} {g : β → List α}

/-- An object without a group joins one. -/
theorem join [DecidableEq α] [DecidableEq β] (h : Grouped f g) {a : α} (ha : f a = none) (b : β) :
    Grouped (Function.update f a (some b)) (Function.update g b (a :: g b)) := by
  have hout : ∀ b', a ∉ g b' := by
    intro b' hmem
    rw [(h.mem_iff a b').1 hmem] at ha
    cases ha
  constructor
  · intro a' b'
    have hiff := h.mem_iff a' b'
    by_cases hb' : b' = b
    · subst hb'
      by_cases ha' : a' = a
      · subst ha'
        simp
      · simp [ha', hiff]
    · by_cases ha' : a' = a
      · subst ha'
        simp [hb', hout b']
        exact fun heq => hb' heq.symm
      · rw [Function.update_of_ne ha', Function.update_of_ne hb']
        exact hiff
  · intro b'
    by_cases hb' : b' = b
    · subst hb'
      rw [Function.update_self]
      exact List.nodup_cons.2 ⟨hout b', h.nodup b'⟩
    · rw [Function.update_of_ne hb']
      exact h.nodup b'

/-- An object leaves its group. -/
theorem leave [DecidableEq α] (h : Grouped f g) (a : α) :
    Grouped (Function.update f a none) (fun b => (g b).erase a) := by
  constructor
  · intro a' b
    by_cases ha' : a' = a
    · subst ha'
      simp [(h.nodup b).mem_erase_iff]
    · rw [Function.update_of_ne ha', (h.nodup b).mem_erase_iff, h.mem_iff]
      simp [ha']
  · intro b
    exact (h.nodup b).erase a

/-- A group is dissolved. -/
theorem dissolve [DecidableEq β] (h : Grouped f g) (b : β) :
    Grouped (fun a => if f a = some b then none else f a) (Function.update g b []) := by
  constructor
  · intro a b'
    have hiff := h.mem_iff a b'
    by_cases hb' : b' = b
    · subst hb'
      rw [Function.update_self]
      by_cases hf : f a = some b'
      · simp [hf]
      · simp [hf]
    · rw [Function.update_of_ne hb', hiff]
      by_cases hf : f a = some b
      · rw [if_pos hf, hf]
        simp
        exact fun heq => hb' heq.symm
      · rw [if_neg hf]
  · intro b'
    by_cases hb' : b' = b
    · subst hb'
      simp
    · rw [Function.update_of_ne hb']
      exact h.nodup b'

/-- Who is in no list points nowhere. -/
theorem eq_nil_of (h : Grouped f g) {b : β} (hb : ∀ a, f a ≠ some b) : g b = [] := by
  rw [List.eq_nil_iff_forall_not_mem]
  intro a hmem
  exact hb a ((h.mem_iff a b).1 hmem)

end Grouped

end Pointers
